import Mathlib.Data.List.Forall2
import UiTree.Proofs.Query.PathText
import UiTree.Proofs.Text.Cut

/-!
# UiTree.Proofs.Query.Unforgeable -- no value can forge structure

Path text determines the query that it was compiled from. The reader of path expressions gives the
body of a compiled text back as the expression that was meant, so that equal texts have equal
expressions; and an expression shows its attribute, its way of comparing and its value. The position
has to be told from the text itself, because large numbers are read as the same number.

* **Same tests.** `Predicate.SameTest`: two predicates that differ in nothing but in how they ask for
  the same containment.
* **Main statement.** `path_eq_iff`: what two compiled selectors with the same path text share, and
  that this is all that the text depends on.
-/

namespace UiTree

open XPath

/-! ## Values -/

/-- A value is the text of its literal, which therefore has no other value. -/
theorem literalExpr_injective {v w : Text} (h : literalExpr v = literalExpr w) : v = w := by
  have hv : evaluate ⟨[], []⟩ ⟨.node [], none⟩ (literalExpr v) = some (.text v) :=
    evaluate_literalExpr v
  rw [h, evaluate_literalExpr w, Option.some.injEq, Value.text.injEq] at hv
  exact hv.symm

theorem attributeStep_key_injective {a b : Attribute}
    (h : attributeStep a.key = attributeStep b.key) : a = b := by
  simp only [attributeStep, Expr.step.injEq, NodeTest.named.injEq, true_and, and_true] at h
  exact Attribute.key_injective h

theorem Text.ofNat_injective {m n : Nat} (h : Text.ofNat m = Text.ofNat n) : m = n := by
  have hm : Nat.ofDigitChars 10 (Text.ofNat m) 0 = m :=
    Nat.ofDigitChars_toDigits (by omega) (by omega)
  rw [h, Text.ofNat, Nat.ofDigitChars_toDigits (by omega) (by omega)] at hm
  exact hm.symm

/-! ## Predicates -/

/-- The ways of comparing that path text can show. -/
inductive Form where
  | equal
  | words
  | part
  | start
  deriving DecidableEq

namespace Form

/-- The expression that compares an attribute with a value. -/
def expr (f : Form) (a : Attribute) (value : Text) : Expr :=
  let named := attributeStep a.key
  match f with
  | .equal => .binary .equal named (literalExpr value)
  | .words =>
    .call none "contains".toList
      [.call none "concat".toList [.literal [' '], named, .literal [' ']],
        literalExpr (Predicate.padded value)]
  | .part => .call none "contains".toList [named, literalExpr value]
  | .start => .call none "starts-with".toList [named, literalExpr value]

/-- **An expression shows what is compared, how, and with what.** -/
theorem expr_injective {f g : Form} {a b : Attribute} {v w : Text} (h : f.expr a v = g.expr b w) :
    f = g ∧ a = b ∧ v = w := by
  -- different forms have different operators, functions, or first arguments
  obtain rfl : f = g := by
    cases f <;> cases g <;> first | rfl | simp [expr, attributeStep] at h
  refine ⟨rfl, ?_⟩
  cases f with
  | equal =>
      simp only [expr, Expr.binary.injEq, true_and] at h
      exact ⟨attributeStep_key_injective h.1, literalExpr_injective h.2⟩
  | words =>
      simp only [expr, Expr.call.injEq, List.cons.injEq, true_and, and_true] at h
      have hvalue := literalExpr_injective h.2
      simp only [Predicate.padded, List.cons_append, List.cons.injEq, true_and] at hvalue
      exact ⟨attributeStep_key_injective h.1, List.append_cancel_right hvalue⟩
  | part =>
      simp only [expr, Expr.call.injEq, List.cons.injEq, true_and, and_true] at h
      exact ⟨attributeStep_key_injective h.1, literalExpr_injective h.2⟩
  | start =>
      simp only [expr, Expr.call.injEq, List.cons.injEq, true_and, and_true] at h
      exact ⟨attributeStep_key_injective h.1, literalExpr_injective h.2⟩

end Form

namespace Predicate

variable {p q : Predicate}

/-- The form of a predicate: containment is by words on free text alone. -/
def form (p : Predicate) : Form :=
  match p.operator with
  | .equals => .equal
  | .contains => if p.attr.valueKind = .wordText then .words else .part
  | .partly => .part
  | .startsWith => .start

/-- **The same test**: the same attribute, value and operator, except that the two operators for
containment are the same on an attribute that is not compared by words. -/
structure SameTest (p q : Predicate) : Prop where
  attr : p.attr = q.attr
  value : p.value = q.value
  operator : p.operator = q.operator ∨ p.attr.valueKind ≠ .wordText ∧
    p.operator ∈ [Operator.contains, .partly] ∧ q.operator ∈ [Operator.contains, .partly]

theorem expr_eq_form (p : Predicate) : p.expr = p.form.expr p.attr p.value := by
  rw [expr, form]
  cases p.operator with
  | contains =>
      by_cases hkind : p.attr.valueKind = .wordText
      · simp only [hkind, if_true, Form.expr]
      · simp only [hkind, if_false, Form.expr]
  | _ => rfl

/-- On one attribute, forms are operators up to the exchange. -/
theorem form_eq_iff (hattr : p.attr = q.attr) :
    p.form = q.form ↔ p.operator = q.operator ∨ p.attr.valueKind ≠ .wordText ∧
      p.operator ∈ [Operator.contains, .partly] ∧ q.operator ∈ [Operator.contains, .partly] := by
  rw [form, form, ← hattr]
  by_cases hkind : p.attr.valueKind = .wordText
  · cases p.operator <;> cases q.operator <;> simp [hkind]
  · cases p.operator <;> cases q.operator <;> simp [hkind]

theorem sameTest_iff : p.SameTest q ↔ p.form = q.form ∧ p.attr = q.attr ∧ p.value = q.value := by
  constructor
  · rintro ⟨hattr, hvalue, hoperator⟩
    exact ⟨(form_eq_iff hattr).mpr hoperator, hattr, hvalue⟩
  · rintro ⟨hform, hattr, hvalue⟩
    exact ⟨hattr, hvalue, (form_eq_iff hattr).mp hform⟩

theorem expr_eq_iff : p.expr = q.expr ↔ p.SameTest q := by
  rw [sameTest_iff, expr_eq_form, expr_eq_form]
  constructor
  · exact Form.expr_injective
  · rintro ⟨hform, hattr, hvalue⟩
    rw [hform, hattr, hvalue]

/-- What the same test is of two predicates: they are equal, or both ask for plain containment. -/
theorem SameTest.cases (h : p.SameTest q) :
    p = q ∨ p.attr = q.attr ∧ p.value = q.value ∧ p.attr.valueKind ≠ .wordText ∧
      p.operator ∈ [Operator.contains, .partly] ∧ q.operator ∈ [Operator.contains, .partly] := by
  obtain ⟨hattr, hvalue, hoperator | hloose⟩ := h
  · obtain ⟨a, o, v, _⟩ := p
    cases hattr
    cases hvalue
    cases hoperator
    exact Or.inl rfl
  · exact Or.inr ⟨hattr, hvalue, hloose⟩

/-- The text of plain containment. -/
theorem pathText_of_loose (hkind : p.attr.valueKind ≠ .wordText)
    (hp : p.operator ∈ [Operator.contains, .partly]) :
    p.pathText = "[contains(".toList ++ '@' :: p.attr.key ++ ',' :: pathLiteral p.value
      ++ [')', ']'] := by
  rw [pathText]
  simp only [List.mem_cons, List.not_mem_nil, or_false] at hp
  rcases hp with hp | hp <;> simp only [hp, hkind, if_false]

/-- The meaning of plain containment. -/
theorem holds_of_loose (hkind : p.attr.valueKind ≠ .wordText)
    (hp : p.operator ∈ [Operator.contains, .partly]) (actual : Option Text) :
    p.holds actual = Text.isInfix p.value (actual.getD []) := by
  rw [holds]
  simp only [List.mem_cons, List.not_mem_nil, or_false] at hp
  rcases hp with hp | hp <;> simp only [hp, hkind, if_false]

theorem SameTest.pathText_eq (h : p.SameTest q) : p.pathText = q.pathText := by
  rcases h.cases with rfl | ⟨hattr, hvalue, hkind, hp, hq⟩
  · rfl
  · rw [pathText_of_loose hkind hp, pathText_of_loose (hattr ▸ hkind) hq, hattr, hvalue]

/-- **The same test means the same.** -/
theorem SameTest.holds_eq (h : p.SameTest q) (actual : Option Text) :
    p.holds actual = q.holds actual := by
  rcases h.cases with rfl | ⟨hattr, hvalue, hkind, hp, hq⟩
  · rfl
  · rw [holds_of_loose hkind hp, holds_of_loose (hattr ▸ hkind) hq, hvalue]

/-! ### One after the other -/

theorem flatMap_pathText_eq {ps qs : List Predicate} (h : List.Forall₂ SameTest ps qs) :
    ps.flatMap pathText = qs.flatMap pathText := by
  induction h with
  | nil => rfl
  | cons htest _ ih => rw [List.flatMap_cons, List.flatMap_cons, htest.pathText_eq, ih]

theorem all_holds_eq {ps qs : List Predicate} (h : List.Forall₂ SameTest ps qs)
    (get : Text → Option Text) :
    (ps.all fun p => p.holds (get p.attr.key)) = qs.all fun q => q.holds (get q.attr.key) := by
  induction h with
  | nil => rfl
  | cons htest _ ih => rw [List.all_cons, List.all_cons, ih, htest.attr, htest.holds_eq]

end Predicate

/-! ## Selectors -/

namespace Selector

variable {s₁ s₂ : Selector} {c₁ c₂ : Scope}

/-- **A body is that of one kind of scope and of one list of tests.** -/
theorem bodyText_eq_iff :
    s₁.bodyText c₁ = s₂.bodyText c₂ ↔ c₁.isDocument = c₂.isDocument ∧
      List.Forall₂ Predicate.SameTest s₁.predicates s₂.predicates := by
  constructor
  · intro h
    -- the two expressions that the text is read as are the same
    have hread := (s₁.isPath_bodyText c₁).isExpr.read?_eq
    rw [h, (s₂.isPath_bodyText c₂).isExpr.read?_eq, Option.some.injEq] at hread
    simp only [bodyExpr, Expr.subtree, Expr.step.injEq, true_and, and_true] at hread
    obtain ⟨hsource, hpredicates⟩ := hread
    constructor
    · cases h₁ : c₁.isDocument <;> cases h₂ : c₂.isDocument <;> simp [h₁, h₂] at hsource ⊢
    · have hforall : List.Forall₂ Eq (s₁.predicates.map Predicate.expr)
          (s₂.predicates.map Predicate.expr) := by
        rw [List.forall₂_eq_eq_eq]
        exact hpredicates.symm
      rw [List.forall₂_map_left_iff, List.forall₂_map_right_iff] at hforall
      exact hforall.imp fun p q => Predicate.expr_eq_iff.mp
  · rintro ⟨hscope, htests⟩
    rw [bodyText, bodyText, axisText, axisText, hscope, Predicate.flatMap_pathText_eq htests]

/-- A body with the position that an index asks for. -/
def positioned (index : Option Nat) (body : Text) : Text :=
  match index with
  | none => body
  | some k => '(' :: body ++ [')', '['] ++ Text.ofNat (k + 1) ++ [']']

theorem eq_positioned_of_pathText {s : Selector} {c : Scope} {t : Text} (h : s.pathText c = .ok t) :
    t = positioned s.matchIndex (s.bodyText c) := by
  rw [pathText] at h
  split at h
  · next hindex =>
    cases h
    rw [hindex]
    rfl
  · next k hindex =>
    rw [shownInteger] at h
    split at h
    · cases h
    · cases h
      have hshown : (if ((k : Int) + 1) < 0 then
            '-' :: Text.ofNat ((k : Int) + 1).natAbs
          else Text.ofNat ((k : Int) + 1).natAbs) = Text.ofNat (k + 1) := by
        rw [if_neg (by omega)]
        congr 1
      rw [hindex, hshown]
      rfl

theorem head?_bodyText_ne (s : Selector) (c : Scope) : (s.bodyText c).head? ≠ some '(' := by
  rw [bodyText, axisText]
  split <;> simp

/-- **Position and body are told apart** from the end of the text: the digits before the last bracket
are the position. -/
theorem positioned_injective {i j : Option Nat} {b c : Text} (hb : b.head? ≠ some '(')
    (hc : c.head? ≠ some '(') (h : positioned i b = positioned j c) : i = j ∧ b = c := by
  have digits : ∀ n, ∀ d ∈ (Text.ofNat n).reverse, Char.isDigit d = true := by
    intro n d hd
    exact Text.isDigit_of_mem_ofNat (List.mem_reverse.mp hd)
  cases i with
  | none =>
      cases j with
      | none => exact ⟨rfl, h⟩
      | some k =>
          rw [positioned, positioned] at h
          rw [h] at hb
          exact absurd rfl hb
  | some k =>
      cases j with
      | none =>
          rw [positioned, positioned] at h
          rw [← h] at hc
          exact absurd rfl hc
      | some l =>
          simp only [positioned, List.cons_append, List.cons.injEq, true_and] at h
          have hreverse := congrArg List.reverse (List.append_cancel_right h)
          simp only [List.reverse_append, List.reverse_cons, List.reverse_nil, List.nil_append,
            List.cons_append] at hreverse
          have hcut := congrArg (Text.cutWhile Char.isDigit) hreverse
          rw [Text.cutWhile_run (digits _) (Text.stops_cons.mpr (by decide)),
            Text.cutWhile_run (digits _) (Text.stops_cons.mpr (by decide)), Prod.mk.injEq] at hcut
          obtain ⟨hposition, hbody⟩ := hcut
          have hkl := Text.ofNat_injective (List.reverse_injective hposition)
          simp only [List.cons.injEq, true_and] at hbody
          exact ⟨congrArg some (Nat.succ.inj hkl), List.reverse_injective hbody⟩

/-- A selector that was compiled gave its path text. -/
theorem pathText_of_compile {s : Selector} {c : Scope} {q : PathQuery}
    (h : (s.compile c).result = .ok q) : s.pathText c = .ok q.path := by
  unfold Selector.compile at h
  split at h
  · cases h
  · obtain ⟨path, hpath, h⟩ := Report.result_bind_eq_ok_iff.mp h
    obtain ⟨-, -, h⟩ := Report.result_bind_eq_ok_iff.mp h
    cases h
    exact hpath

/-- **Path text shows its query.** Two selectors that were compiled have the same path text exactly
when their scopes are of the same kind, their match indexes are the same, and their predicates are
one by one the same test; and then they admit the same nodes. -/
theorem path_eq_iff {q₁ q₂ : PathQuery} (h₁ : (s₁.compile c₁).result = .ok q₁)
    (h₂ : (s₂.compile c₂).result = .ok q₂) :
    (q₁.path = q₂.path ↔ c₁.isDocument = c₂.isDocument ∧ s₁.matchIndex = s₂.matchIndex ∧
        List.Forall₂ Predicate.SameTest s₁.predicates s₂.predicates) ∧
      (q₁.path = q₂.path → ∀ get, s₁.admits get = s₂.admits get) := by
  have hpath : q₁.path = q₂.path ↔ c₁.isDocument = c₂.isDocument ∧
      s₁.matchIndex = s₂.matchIndex ∧
        List.Forall₂ Predicate.SameTest s₁.predicates s₂.predicates := by
    rw [eq_positioned_of_pathText (pathText_of_compile h₁),
      eq_positioned_of_pathText (pathText_of_compile h₂), and_left_comm, ← bodyText_eq_iff]
    constructor
    · exact positioned_injective (head?_bodyText_ne s₁ c₁) (head?_bodyText_ne s₂ c₂)
    · rintro ⟨hindex, hbody⟩
      rw [hindex, hbody]
  refine ⟨hpath, ?_⟩
  intro h get
  exact Predicate.all_holds_eq (hpath.mp h).2.2 get

/-- A test for a part of an identifier, with a value that imitates path text. -/
def imitation (o : Operator) : Predicate :=
  ⟨.resourceId, o, "a')][contains(@text,'b".toList, by cases o <;> decide⟩

/-- Both ways to ask for containment of this value compile to the same text. -/
theorem path_eq_iff_exchanged :
    ∃ q₁ q₂, ((⟨[imitation .contains], some 2⟩ : Selector).compile .document).result = .ok q₁ ∧
      ((⟨[imitation .partly], some 2⟩ : Selector).compile .document).result = .ok q₂ ∧
        q₁.path = q₂.path := by
  obtain ⟨q₁, h₁⟩ : ∃ q,
      ((⟨[imitation .contains], some 2⟩ : Selector).compile .document).result = .ok q := ⟨_, rfl⟩
  obtain ⟨q₂, h₂⟩ : ∃ q,
      ((⟨[imitation .partly], some 2⟩ : Selector).compile .document).result = .ok q := ⟨_, rfl⟩
  refine ⟨q₁, q₂, h₁, h₂, (path_eq_iff h₁ h₂).1.mpr ⟨rfl, rfl, .cons ?_ .nil⟩⟩
  exact ⟨rfl, rfl, Or.inr (by decide)⟩

end Selector

end UiTree
