import UiTree.Proofs.XPath.Attribute
import UiTree.Proofs.XPath.Below
import UiTree.Query.PathText

/-!
# UiTree.Proofs.Query.Compiled -- selectors as expressions

The expression that the path text of a selector writes, built from the selector directly, and what
it is worth on a document.

* **Literals.** A value with quotes in it is the concatenation of its pieces.
* **Main statements.** `evaluate_predicate`: the expression of a predicate is true of an element
  exactly when the predicate holds of its attribute. `evaluate_pick`: a position picks one place.
-/

namespace UiTree

open XPath

/-! ## Values as literals -/

/-- The literals that stand for pieces of a value, and for the quotes between them. -/
def pieceLiterals : List Text → List Expr
  | [] => []
  | [t] => [.literal t]
  | t :: u :: ts => .literal t :: .literal ['\''] :: pieceLiterals (u :: ts)

/-- The expression that the path literal of a value writes. -/
def literalExpr (value : Text) : Expr :=
  if value.contains '\'' then
    .call none "concat".toList (pieceLiterals (Text.pieces '\'' value))
  else .literal value

theorem Text.exists_pieces {sep : Char} {t : Text} (h : sep ∈ t) :
    ∃ p q ps, Text.pieces sep t = p :: q :: ps := by
  induction t with
  | nil => cases h
  | cons c t ih =>
      rw [Text.pieces]
      split
      · obtain ⟨q, ps, hps⟩ := List.exists_cons_of_ne_nil (Text.pieces_ne_nil sep t)
        exact ⟨[], q, ps, by rw [hps]⟩
      · next hc =>
        have ht : sep ∈ t := by
          rcases List.mem_cons.mp h with rfl | ht
          · exact absurd rfl hc
          · exact ht
        obtain ⟨p, q, ps, hps⟩ := ih ht
        exact ⟨c :: p, q, ps, by rw [hps]⟩

section Values

variable {s : Site} {f : Focus}

theorem invoke?_concat (v w : Value) (vs : List Value) :
    invoke? s f none "concat".toList (v :: w :: vs) =
      some (.text ((v :: w :: vs).flatMap fun u => u.toText s)) := rfl

theorem invoke?_contains (v w : Value) :
    invoke? s f none "contains".toList [v, w] =
      some (.truth (Text.isInfix (w.toText s) (v.toText s))) := rfl

theorem invoke?_startsWith (v w : Value) :
    invoke? s f none "starts-with".toList [v, w] =
      some (.truth (Text.isStart (w.toText s) (v.toText s))) := rfl

/-- The literals of the pieces have texts that join to the value. -/
theorem evaluateAll_pieceLiterals (ts : List Text) :
    ∃ us : List Text, evaluateAll s f (pieceLiterals ts) = some (us.map Value.text) ∧
      us.flatten = Text.join ['\''] ts ∧ ts.length ≤ us.length := by
  induction ts using pieceLiterals.induct with
  | case1 => exact ⟨[], rfl, rfl, Nat.le_refl 0⟩
  | case2 t => exact ⟨[t], rfl, List.append_nil t, Nat.le_refl 1⟩
  | case3 t u ts ih =>
      obtain ⟨us, hus, hjoin, hlength⟩ := ih
      refine ⟨t :: ['\''] :: us, ?_, ?_, ?_⟩
      · rw [pieceLiterals, evaluateAll, evaluateAll, evaluate, evaluate, hus]
        rfl
      · rw [List.flatten_cons, List.flatten_cons, hjoin, Text.join, List.append_assoc]
      · simp only [List.length_cons] at hlength ⊢
        omega

theorem flatMap_toText (us : List Text) :
    ((us.map Value.text).flatMap fun u => u.toText s) = us.flatten := by
  rw [List.flatMap_map, List.flatMap_def]
  exact congrArg List.flatten (List.map_id us)

/-- **The literal of a value has the value as its text**, quotes or not. -/
theorem evaluate_literalExpr (value : Text) :
    evaluate s f (literalExpr value) = some (.text value) := by
  rw [literalExpr]
  split
  · next hquote =>
    obtain ⟨p, q, ps, hps⟩ := Text.exists_pieces (List.contains_iff_mem.mp hquote)
    obtain ⟨us, hus, hjoin, hlength⟩ :=
      evaluateAll_pieceLiterals (s := s) (f := f) (Text.pieces '\'' value)
    rw [Text.join_pieces] at hjoin
    match us with
    | [] => simp [hps] at hlength
    | [u] => simp [hps] at hlength
    | u :: w :: us =>
        rw [evaluate, hus]
        simp only [Option.bind_eq_bind, Option.bind_some, List.map_cons]
        rw [invoke?_concat, ← hjoin]
        exact congrArg (fun t => some (Value.text t)) (flatMap_toText (u :: w :: us))
  · rw [evaluate]

end Values

/-! ## Predicates -/

/-- The expression that the path text of a predicate writes. -/
def Predicate.expr (p : Predicate) : Expr :=
  let named := attributeStep p.attr.key
  match p.operator with
  | .equals => .binary .equal named (literalExpr p.value)
  | .contains =>
    if p.attr.valueKind = .wordText then
      .call none "contains".toList
        [.call none "concat".toList [.literal [' '], named, .literal [' ']],
          literalExpr (padded p.value)]
    else .call none "contains".toList [named, literalExpr p.value]
  | .partly => .call none "contains".toList [named, literalExpr p.value]
  | .startsWith => .call none "starts-with".toList [named, literalExpr p.value]

theorem Attribute.key_head? (a : Attribute) : a.key.head? ≠ some '\x7b' := by
  cases a <;> decide

section Predicates

variable {s : Site} {f : Focus} {t : Path} {o : Xml.Opening}

theorem evaluate_call₂ {a b : Expr} {v w : Value} (ha : evaluate s f a = some v)
    (hb : evaluate s f b = some w) (name : Text) :
    evaluate s f (.call none name [a, b]) = invoke? s f none name [v, w] := by
  rw [evaluate, evaluateAll, evaluateAll, evaluateAll, ha, hb]
  rfl

theorem evaluate_equal {a b : Expr} {v w : Value} (ha : evaluate s f a = some v)
    (hb : evaluate s f b = some w) :
    evaluate s f (.binary .equal a b) = some (.truth (v.agree s false w)) := by
  rw [evaluate, ha, hb]
  · rfl
  · intro h
    cases h
  · intro h
    cases h

/-- **The expression of a predicate** is true of an element exactly when the predicate holds of the
value of its attribute there. -/
theorem evaluate_predicate (p : Predicate) (ho : s.opening? t = some o) (hdistinct : o.Distinct)
    (hf : f.place = .node t) :
    evaluate s f p.expr = some (.truth (p.holds (o.get? p.attr.key))) := by
  obtain ⟨v, hv, htext, hagree⟩ := evaluate_attributeStep p.attr.key_head? ho hdistinct hf
  have hvalue := evaluate_literalExpr (s := s) (f := f) p.value
  have hcontains : evaluate s f (.call none "contains".toList
      [attributeStep p.attr.key, literalExpr p.value]) =
      some (.truth (Text.isInfix p.value ((o.get? p.attr.key).getD []))) := by
    rw [evaluate_call₂ hv hvalue, invoke?_contains, htext]
    rfl
  rw [Predicate.expr, Predicate.holds]
  cases p.operator with
  | equals => rw [evaluate_equal hv hvalue, hagree]
  | contains =>
      dsimp only
      split
      · have hpadded : evaluate s f (.call none "concat".toList
            [.literal [' '], attributeStep p.attr.key, .literal [' ']]) =
            some (.text (Predicate.padded ((o.get? p.attr.key).getD []))) := by
          rw [evaluate, evaluateAll, evaluateAll, evaluateAll, evaluateAll, evaluate, hv]
          simp only [Option.bind_eq_bind, Option.bind_some, Option.pure_def]
          rw [invoke?_concat]
          simp only [List.flatMap_cons, List.flatMap_nil, List.append_nil, htext]
          rfl
        rw [evaluate_call₂ hpadded (evaluate_literalExpr _), invoke?_contains]
        rfl
      · exact hcontains
  | partly => exact hcontains
  | startsWith =>
      rw [evaluate_call₂ hv hvalue, invoke?_startsWith, htext]
      rfl

end Predicates

/-! ## Selectors -/

namespace Selector

/-- The expression of the axis and the predicates of a selector. -/
def bodyExpr (sel : Selector) (scope : Scope) : Expr :=
  let source : Expr := if scope.isDocument then .root else .here
  .step source.subtree .child .any (sel.predicates.map Predicate.expr)

/-- The expression that the path text of a selector writes. -/
def expr (sel : Selector) (scope : Scope) : Expr :=
  match sel.matchIndex with
  | none => sel.bodyExpr scope
  | some k =>
    .filter (.group (sel.bodyExpr scope)) (.number (digitsValue (Text.ofNat (k + 1))))

end Selector

section Selectors

variable {s : Site} {f : Focus}

/-- A number picks the place at its position out of a group, when it can be told from the positions
of all others. -/
theorem evaluate_pick {e : Expr} {ps : List Place} {x : Binary64} {k : Nat}
    (he : evaluate s f e = some (.places ps))
    (hx : ∀ i, i < ps.length → x.eqv (.ofNat (i + 1)) = decide (i = k)) :
    evaluate s f (.filter (.group e) (.number x)) = some (.places ((ps.drop k).take 1)) := by
  rw [evaluate, he]
  simp only [Option.bind_eq_bind, Option.bind_some, isOne, isLast, Value.places?,
    Bool.false_eq_true, if_false]
  split
  · next hone =>
    -- the first place is taken without counting
    cases ps with
    | nil => simp [firstOf]
    | cons p ps =>
        have hfirst := hx 0 (by simp)
        have hofNat : Binary64.ofNat (0 + 1) = .one := Binary64.ofNat_of_lt (by decide)
        rw [hofNat, hone] at hfirst
        obtain rfl : 0 = k := of_decide_eq_true hfirst.symm
        rfl
  · have hkept := keepWith_number hx
    simp only [evaluate] at hkept ⊢
    rw [hkept]
    rfl

/-- **The body of a selector** reaches the elements below the node it starts from that the selector
admits, in document order. -/
theorem evaluate_bodyExpr (sel : Selector) (scope : Scope) {c : Path}
    (hc : scope.isDocument = true ∧ c = [] ∨ scope.isDocument = false ∧ f.place = .node c)
    (hdistinct : ∀ t o, s.opening? t = some o → o.Distinct) :
    ∃ ps, evaluate s f (sel.bodyExpr scope) = some (.places ps) ∧ Place.Ascending ps ∧
      ∀ p, p ∈ ps ↔ ∃ r o, r ≠ [] ∧ p = .node (c ++ r) ∧ s.opening? (c ++ r) = some o ∧
        sel.admits o.get? = true := by
  have hsource : evaluate s f (if scope.isDocument then .root else .here) =
      some (.places [.node c]) := by
    rcases hc with ⟨hscope, rfl⟩ | ⟨hscope, hplace⟩
    · rw [if_pos hscope, evaluate]
    · rw [if_neg (by simp [hscope]), evaluate, hplace]
  refine evaluate_below hsource (b := fun (p : Predicate) o => p.holds (o.get? p.attr.key)) ?_
  intro p _ t o position ho
  exact evaluate_predicate p ho (hdistinct t o ho) rfl

end Selectors

end UiTree
