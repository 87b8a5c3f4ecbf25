import UiTree.Proofs.Query.PathText
import UiTree.Proofs.XPath.Grammar

/-!
# UiTree.Proofs.Query.Quotation -- values as quotations

A literal of a path expression cannot hold the quote that it is written in, and there is no way to
escape one. A value is quoted all the same: as one literal when it has no single quote, and else as
a call that puts the pieces between its single quotes together again.

* **Quotations.** `Quotes v ts e` says which tokens quote a value, and what they are read as. The
  only names and brackets among them are those of the call; all of the value stands in literals.
* **Pieces.** `exists_pieces_literals`: the pieces and the quotes between them are a row of
  literals, which is spelled as it is, whatever comes after it.
* **Main statement.** `pathLiteral_isQuotation`: the path literal of a value is a quotation of it,
  by itself and inside of larger expressions.
-/

namespace UiTree

open XPath

namespace XPath

/-! ## Quotations -/

/-- Literals with commas between them. -/
def literalRow (ls : List Literal) : List Token := (ls.map Token.literal).intersperse .comma

/-- The tokens quote a value and are read as an expression: a literal, or a call of `concat` with
three literals or more. -/
inductive Quotes (v : Text) : List Token → Expr → Prop where
  | literal (l : Literal) (value : l.value = v) : Quotes v [.literal l] (.literal v)
  | call (n : FullName) (ls : List Literal) (name : n.text = "concat".toList)
    (many : 3 ≤ ls.length) (value : ls.flatMap Literal.value = v) :
    Quotes v (.name n :: .opening :: literalRow ls ++ [.closing])
      (.call none "concat".toList (ls.map fun l => .literal l.value))

theorem literalRow_cons (l : Literal) {ls : List Literal} (h : ls ≠ []) :
    literalRow (l :: ls) = .literal l :: .comma :: literalRow ls := by
  obtain ⟨m, ls, rfl⟩ := List.exists_cons_of_ne_nil h
  rw [literalRow, List.map_cons, List.map_cons, List.intersperse_cons_cons]
  rfl

theorem derives_literal (l : Literal) : Derives (.tiers tiers) [.literal l] := by
  have hpath : Derives .path ([.literal l] ++ []) := .filtered (.filter .literal .noPredicate)
  exact hpath.inTiers tiers

theorem derives_literalRow {ls : List Literal} (h : ls ≠ []) :
    Derives .arguments (literalRow ls) := by
  induction ls with
  | nil => exact absurd rfl h
  | cons l ls ih =>
      by_cases hls : ls = []
      · subst hls
        exact .argument (derives_literal l)
      · rw [literalRow_cons l hls]
        exact .oneMore (derives_literal l) (ih hls)

theorem recognized_literalRow (b : Bool) (ls : List Literal) :
    recognized b (literalRow ls) = true := by
  induction ls generalizing b with
  | nil => rfl
  | cons l ls ih =>
      by_cases hls : ls = []
      · subst hls
        rfl
      · rw [literalRow_cons l hls]
        exact ih false

/-- The name of a function is not that of a kind of nodes. -/
theorem not_isKind_concat {n : FullName} (h : n.text = "concat".toList) : ¬ isKind n := by
  rintro ⟨hqualifier, hkind⟩
  rw [FullName.text, hqualifier] at h
  dsimp only at h
  rw [h] at hkind
  exact absurd hkind (by decide)

/-- **A quotation is an expression** by the grammar. -/
theorem Quotes.isExpression {v : Text} {ts : List Token} {e : Expr} (h : Quotes v ts e) :
    IsExpression ts := by
  cases h with
  | literal l _ => exact ⟨derives_literal l, rfl⟩
  | call n ls hname hmany _ =>
      have hne : ls ≠ [] := List.ne_nil_of_length_pos (by omega)
      have hcall := Derives.callWith (not_isKind_concat hname) (derives_literalRow hne)
      have hpath := Derives.filtered (.filter hcall .noPredicate)
      rw [List.append_nil] at hpath
      refine ⟨hpath.inTiers tiers, ?_⟩
      rw [recognized_closing]
      exact recognized_literalRow false ls

/-! ## How tokens are spelled -/

theorem Spelled.cons {p : Slot} {k : Token} {us : List Token} {rest : Text}
    (h : Spelled k.next us rest) (hfits : k.fits p = true) (hends : k.EndsBefore rest) :
    Spelled p (k :: us) (k.text ++ rest) :=
  spelled_cons_iff.mpr ⟨rest, k.skipSpace_eq rest, hfits, hends, h⟩

theorem spelled_literal {us : List Token} {rest : Text} (l : Literal)
    (h : Spelled .operator us rest) : Spelled .operand (.literal l :: us) (l.text ++ rest) :=
  Spelled.cons (k := .literal l) h rfl trivial

/-- A comma with a blank behind it. -/
theorem spelled_comma {us : List Token} {rest : Text} (h : Spelled .operand us rest) :
    Spelled .operator (.comma :: us) (',' :: ' ' :: rest) := by
  have hblank : Spelled .operand us (' ' :: rest) :=
    spelled_skipSpace_iff.mp (spelled_skipSpace_iff (t := rest).mpr h)
  exact Spelled.cons (k := .comma) hblank rfl trivial

end XPath

/-! ## The pieces of a value -/

/-- A text in single quotes, which it does not hold. -/
def singleQuotedLiteral (t : Text) (h : '\'' ∉ t) : Literal := ⟨'\'', t, Or.inl rfl, h⟩

/-- A single quote in double quotes. -/
def quoteLiteral : Literal := ⟨'"', ['\''], Or.inr rfl, by decide⟩

/-- **The pieces as literals.** There is one for every piece and one for every quote between two of
them; their values make up what the pieces were cut from, and they are spelled as they are, whatever
comes after. -/
theorem exists_pieces_literals {ps : List Text} (hne : ps ≠ []) (hps : ∀ p ∈ ps, '\'' ∉ p) :
    ∃ ls : List Literal, pieceLiterals ps = ls.map (fun l => .literal l.value) ∧
      ls.flatMap Literal.value = Text.join ['\''] ps ∧ ls.length + 1 = 2 * ps.length ∧
      ∀ us rest, Spelled .operator us rest →
        Spelled .operand (literalRow ls ++ us)
          (Text.join quoteJoint (ps.map singleQuoted) ++ rest) := by
  induction ps using pieceLiterals.induct with
  | case1 => exact absurd rfl hne
  | case2 p =>
      have hp := hps p List.mem_cons_self
      refine ⟨[singleQuotedLiteral p hp], rfl, List.append_nil p, rfl, ?_⟩
      intro us rest h
      exact spelled_literal (singleQuotedLiteral p hp) h
  | case3 p q ps ih =>
      have hp := hps p List.mem_cons_self
      obtain ⟨ls, hexprs, hvalue, hlength, hspelled⟩ :=
        ih (List.cons_ne_nil q ps) fun r hr => hps r (List.mem_cons_of_mem p hr)
      have hls : ls ≠ [] := by
        rintro rfl
        simp only [List.length_nil, List.length_cons] at hlength
        omega
      refine ⟨singleQuotedLiteral p hp :: quoteLiteral :: ls, ?_, ?_, ?_, ?_⟩
      · rw [pieceLiterals, hexprs]
        rfl
      · rw [List.flatMap_cons, List.flatMap_cons, hvalue, Text.join, List.append_assoc]
        rfl
      · simp only [List.length_cons] at hlength ⊢
        omega
      · intro us rest h
        have htext : Text.join quoteJoint ((p :: q :: ps).map singleQuoted) ++ rest =
            (singleQuotedLiteral p hp).text ++ ',' :: ' ' :: (quoteLiteral.text ++ ',' :: ' ' ::
              (Text.join quoteJoint ((q :: ps).map singleQuoted) ++ rest)) := by
          simp only [List.map_cons, Text.join, List.append_assoc]
          rfl
        rw [literalRow_cons _ (List.cons_ne_nil _ _), literalRow_cons _ hls, htext]
        exact spelled_literal _ (spelled_comma (spelled_literal _ (spelled_comma
          (hspelled us rest h))))

/-- The name of the function that puts texts together. -/
def concatName : FullName where
  qualifier := none
  base :=
    { text := "concat".toList
      formed := by decide
      solid := by
        have hsolid : "concat".toList.all (fun c => !Text.isBlank c) = true := by decide
        intro c hc
        simpa using List.all_eq_true.mp hsolid c hc }

/-- **The tokens of a path literal** quote the value, and they are spelled as they are, whatever
comes after them. -/
theorem exists_quotes (v : Text) :
    ∃ ts, Quotes v ts (literalExpr v) ∧ ∀ us rest, Spelled .operator us rest →
      Spelled .operand (ts ++ us) (pathLiteral v ++ rest) := by
  rw [literalExpr, pathLiteral]
  split
  · next hquote =>
    obtain ⟨p, q, ps, hpieces⟩ := Text.exists_pieces (List.contains_iff_mem.mp hquote)
    obtain ⟨ls, hexprs, hvalue, hlength, hspelled⟩ :=
      exists_pieces_literals (Text.pieces_ne_nil '\'' v) Text.not_mem_pieces
    rw [Text.join_pieces] at hvalue
    rw [hpieces, List.length_cons, List.length_cons] at hlength
    rw [hexprs]
    refine ⟨_, .call concatName ls rfl (by omega) hvalue, ?_⟩
    intro us rest h
    have hclosing : Spelled .operator (.closing :: us) (')' :: rest) :=
      Spelled.cons (k := .closing) h rfl trivial
    have hopening : Spelled .operator (.opening :: (literalRow ls ++ .closing :: us))
        ('(' :: (Text.join quoteJoint ((Text.pieces '\'' v).map singleQuoted) ++ ')' :: rest)) :=
      Spelled.cons (k := .opening) (hspelled _ _ hclosing) rfl trivial
    have hcall := Spelled.cons (p := .operand) (k := .name concatName) hopening rfl
      ⟨Text.stops_cons.mpr (by decide), Text.stops_cons.mpr (by decide)⟩
    have hname : "concat(".toList = "concat".toList ++ ['('] := by decide
    rw [hname]
    simp only [List.append_assoc, List.cons_append, List.nil_append]
    exact hcall
  · next hquote =>
    have hv : '\'' ∉ v := fun h => hquote (List.contains_iff_mem.mpr h)
    exact ⟨_, .literal (singleQuotedLiteral v hv) rfl, fun us rest => spelled_literal _⟩

/-! ## Main statement -/

/-- The text `t` quotes the value `v`: it is spelled by tokens that do, also before other tokens; it
is one expression, also before a closing bracket of a larger one, and the value of that is `v` in
every place. -/
structure IsQuotation (v t : Text) (ts : List Token) (e : Expr) : Prop where
  quotes : Quotes v ts e
  expression : IsExpression ts
  spelled : ∀ us rest, Spelled .operator us rest → Spelled .operand (ts ++ us) (t ++ rest)
  characters : t.all Xml.isXmlChar = true
  whole : Expr.read? t = some e
  ends : ∀ fuel rest, 20 * t.length + 9 ≤ fuel → rest.head? = some ')' ∨ rest.head? = some ']' →
    readAt fuel tiers (t ++ rest) = some (e, rest)
  inCall : ∀ name, isCallName name = true →
    Expr.read? (name ++ '(' :: t ++ [')']) = some (.call none name [e])
  inPredicate : Expr.read? ("//*[".toList ++ t ++ [']']) =
    some (.step Expr.root.subtree .child .any [e])
  value : ∀ s f, evaluate s f e = some (.text v)

/-- **The path literal of a value quotes it**, whatever quotes the value holds and wherever: when a
document can hold all characters of the value, its path literal is one expression that has the value
at every place, and a larger expression goes on right behind it. -/
theorem pathLiteral_isQuotation {v : Text} (h : v.all Xml.isXmlChar = true) :
    ∃ ts e, IsQuotation v (pathLiteral v) ts e := by
  obtain ⟨ts, hquotes, hspelled⟩ := exists_quotes v
  have hpath := isPath_pathLiteral v
  refine ⟨ts, literalExpr v, ?_⟩
  constructor
  case quotes => exact hquotes
  case expression => exact hquotes.isExpression
  case spelled => exact hspelled
  case characters => exact all_pathLiteral h
  case whole => exact hpath.isExpr.read?_eq
  case ends =>
    intro fuel rest hfuel hrest
    have hcloser : Ends closers rest := by
      rcases hrest with hrest | hrest <;>
      · obtain ⟨r, rfl⟩ := List.head?_eq_some_iff.mp hrest
        exact ends_cons (by decide) r
    exact hpath.isExpr.reads hfuel hcloser
  case inCall =>
    intro name hname
    rw [List.append_assoc, List.cons_append]
    exact (isPath_call name hname (areArguments_last hpath.isExpr)).isExpr.read?_eq
  case inPredicate =>
    have hpredicate := arePredicates_cons hpath.isExpr arePredicates_nil
    exact (isPath_anywhere hpredicate).isExpr.read?_eq
  case value => exact fun s f => evaluate_literalExpr v

/-- Quotes at both ends of a value, two in a row, and a double quote. -/
theorem pathLiteral_isQuotation_mixed :
    ∃ ts e, IsQuotation "'a''\"'".toList
      "concat('', \"'\", 'a', \"'\", '', \"'\", '\"', \"'\", '')".toList ts e := by
  have htext : pathLiteral "'a''\"'".toList =
      "concat('', \"'\", 'a', \"'\", '', \"'\", '\"', \"'\", '')".toList := by decide
  rw [← htext]
  exact pathLiteral_isQuotation (by decide)

end UiTree
