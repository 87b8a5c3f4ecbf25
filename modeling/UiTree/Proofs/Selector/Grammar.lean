import UiTree.Proofs.Bounds
import UiTree.Proofs.Selector.RoundTrip

/-!
# UiTree.Proofs.Selector.Grammar -- the language of selector texts

A selector text is a row of **clauses**, and a clause is a key, a symbol and a value in brackets.
This module says which rows are selectors without speaking of a reader: the key names an attribute,
the symbol is one of the four operators, the brackets of the value are balanced, and the value is
one that the attribute can be compared with.

* **Values.** `IsLegalValue` spells out what a value may be; `refusal?_eq_none_iff` says that this
  is what predicates ask for.
* **Main statement.** `readStrict_iff_isRow`: strict reading accepts exactly the rows that are one
  line. There is one way to take such a text apart, and the predicates are its clauses in order. All
  else is refused for its form or for one of its values.
-/

namespace UiTree

/-! ## Values -/

/-- The values that equality allows for a kind of attribute. -/
def ValueKind.Allows : ValueKind → Text → Prop
  | .boolean, v => v = "true".toList ∨ v = "false".toList
  | .integer, v => ∃ c : Coordinate, c.IsNumeral ∧ v = c.text
  | .bounds, v => ∃ p q, IsPair p ∧ IsPair q ∧ v = cornersText p q
  | .text, _ => True
  | .wordText, _ => True

/-- A value that an attribute can be compared with: no control characters but tabs and ends of
lines, and for equality the format that the kind of the attribute asks for. -/
structure IsLegalValue (a : Attribute) (o : Operator) (v : Text) : Prop where
  printable : ∀ c ∈ v, c.toNat < 0x20 → c = '\t' ∨ c = '\n' ∨ c = '\r'
  format : o = .equals → a.valueKind.Allows v

theorem isUnrepresentable_eq_false_iff {c : Char} :
    isUnrepresentable c = false ↔ (c.toNat < 0x20 → c = '\t' ∨ c = '\n' ∨ c = '\r') := by
  have hcode : ∀ d : Char, c = d ↔ c.toNat = d.toNat := fun d => by
    constructor
    · exact congrArg Char.toNat
    · intro h
      exact Char.ext (UInt32.toNat_inj.mp h)
  have htab : '\t'.toNat = 9 := rfl
  have hline : '\n'.toNat = 10 := rfl
  have hreturn : '\r'.toNat = 13 := rfl
  simp only [hcode, htab, hline, hreturn, isUnrepresentable, Bool.or_eq_false_iff,
    Bool.and_eq_false_iff, decide_eq_false_iff_not, beq_eq_false_iff_ne]
  omega

/-- What equality asks of a value, kind by kind. -/
theorem refusal?_equals {a : Attribute} {v : Text} (hv : v.any isUnrepresentable = false) :
    refusal? a .equals v = none ↔ a.valueKind.Allows v := by
  have allowed : ∀ {P : Prop} [Decidable P] {why : Refusal},
      (if P then none else some why) = none ↔ P := by
    intro P _ why
    by_cases hP : P
    · rw [if_pos hP]
      exact iff_of_true rfl hP
    · rw [if_neg hP]
      exact iff_of_false (Option.some_ne_none why) hP
  unfold refusal?
  rw [hv, if_neg Bool.false_ne_true]
  cases a.valueKind with
  | text => exact iff_of_true rfl trivial
  | wordText => exact iff_of_true rfl trivial
  | boolean => exact allowed
  | integer =>
      rw [ValueKind.Allows, ← isIntegerText_iff]
      exact allowed
  | bounds =>
      rw [ValueKind.Allows, ← isCorners_iff]
      exact allowed

/-- The other operators ask for nothing more. -/
theorem refusal?_of_ne_equals {a : Attribute} {o : Operator} {v : Text}
    (hv : v.any isUnrepresentable = false) (ho : o ≠ .equals) : refusal? a o v = none := by
  unfold refusal?
  rw [hv]
  cases o with
  | equals => exact absurd rfl ho
  | contains => rfl
  | partly => rfl
  | startsWith => rfl

/-- **Predicates take exactly the legal values.** -/
theorem refusal?_eq_none_iff {a : Attribute} {o : Operator} {v : Text} :
    refusal? a o v = none ↔ IsLegalValue a o v := by
  have hprintable : v.any isUnrepresentable = false ↔
      ∀ c ∈ v, c.toNat < 0x20 → c = '\t' ∨ c = '\n' ∨ c = '\r' := by
    simp only [List.any_eq_false, Bool.not_eq_true, isUnrepresentable_eq_false_iff]
  by_cases hv : v.any isUnrepresentable = false
  · by_cases ho : o = .equals
    · subst ho
      rw [refusal?_equals hv]
      exact ⟨fun h => ⟨hprintable.mp hv, fun _ => h⟩, fun h => h.format rfl⟩
    · rw [refusal?_of_ne_equals hv ho]
      exact iff_of_true rfl ⟨hprintable.mp hv, fun h => absurd h ho⟩
  · refine iff_of_false ?_ fun h => hv (hprintable.mpr h.printable)
    unfold refusal?
    rw [if_pos (by simpa using hv)]
    exact Option.some_ne_none _

/-! ## Clauses -/

/-- One group of a selector text as it is written. -/
structure Clause where
  key : Text
  symbol : Text
  value : Text
  deriving DecidableEq

namespace Clause

/-- The clause in brackets. -/
def text (c : Clause) : Text := '[' :: c.key ++ c.symbol ++ c.value ++ [']']

/-- A clause that writes a predicate. -/
def IsLegal (c : Clause) : Prop :=
  Balanced c.value ∧
    ∃ a o, a.key = c.key ∧ o.symbol = c.symbol ∧ IsLegalValue a o c.value

/-- A text that is a row of clauses, at least one of them. -/
structure IsRow (cs : List Clause) (t : Text) : Prop where
  ne_nil : cs ≠ []
  legal : ∀ c ∈ cs, c.IsLegal
  text : t = cs.flatMap Clause.text

end Clause

/-- A predicate as it is written. -/
def Predicate.clause (p : Predicate) : Clause := ⟨p.attr.key, p.operator.symbol, p.value⟩

/-- The legal clauses are those of predicates with balanced values. -/
theorem Clause.isLegal_iff {c : Clause} :
    c.IsLegal ↔ ∃ p : Predicate, p.clause = c ∧ Balanced p.value := by
  obtain ⟨key, symbol, value⟩ := c
  constructor
  · rintro ⟨hbal, a, o, rfl, rfl, hlegal⟩
    exact ⟨⟨a, o, value, refusal?_eq_none_iff.mpr hlegal⟩, rfl, hbal⟩
  · rintro ⟨p, hp, hbal⟩
    obtain ⟨rfl, rfl, rfl⟩ := Clause.mk.inj hp
    exact ⟨hbal, p.attr, p.operator, rfl, rfl, refusal?_eq_none_iff.mp p.legal⟩

/-- A list of legal clauses is written by one list of predicates. -/
theorem Clause.exists_predicates {cs : List Clause} (h : ∀ c ∈ cs, c.IsLegal) :
    ∃ ps : List Predicate, cs = ps.map Predicate.clause ∧ ∀ p ∈ ps, Balanced p.value := by
  induction cs with
  | nil => exact ⟨[], rfl, nofun⟩
  | cons c cs ih =>
      obtain ⟨p, rfl, hp⟩ := isLegal_iff.mp (h c List.mem_cons_self)
      obtain ⟨ps, rfl, hps⟩ := ih fun d hd => h d (List.mem_cons_of_mem _ hd)
      refine ⟨p :: ps, rfl, ?_⟩
      intro q hq
      rcases List.mem_cons.mp hq with rfl | hq
      · exact hp
      · exact hps q hq

namespace Selector

/-! ## What is accepted -/

/-- **Every success of strict reading**, in terms of the clauses of the text. -/
theorem readStrict_eq_ok_iff_isRow {t : Text} {s : Selector} :
    (read true t).result = .ok s ↔
      IsLine t ∧ s.matchIndex = none ∧ Clause.IsRow (s.predicates.map Predicate.clause) t := by
  have htext : (s.predicates.map Predicate.clause).flatMap Clause.text = s.text := by
    rw [List.flatMap_map]
    rfl
  rw [readStrict_eq_ok_iff]
  constructor
  · rintro ⟨rfl, hline, hne, hindex, hbal⟩
    refine ⟨hline, hindex, by simpa using hne, ?_, htext.symm⟩
    intro c hc
    obtain ⟨p, hp, rfl⟩ := List.mem_map.mp hc
    exact Clause.isLegal_iff.mpr ⟨p, rfl, hbal p hp⟩
  · rintro ⟨hline, hindex, hne, hlegal, ht⟩
    refine ⟨ht.trans htext, hline, by simpa using hne, hindex, ?_⟩
    intro p hp
    exact (hlegal _ (List.mem_map_of_mem hp)).1

/-- A row of clauses on one line is read, and gives its clauses back. -/
theorem exists_read_of_isRow {t : Text} {cs : List Clause} (hline : IsLine t)
    (h : Clause.IsRow cs t) :
    ∃ s, (read true t).result = .ok s ∧ s.predicates.map Predicate.clause = cs := by
  obtain ⟨ps, rfl, -⟩ := Clause.exists_predicates h.legal
  exact ⟨⟨ps, none⟩, readStrict_eq_ok_iff_isRow.mpr ⟨hline, rfl, h⟩, rfl⟩

/-! ## What is refused -/

/-- A fault of the form of a selector text, or of a value in it. -/
inductive IsTextFault : Fault → Prop
  | malformed (why : SelectorFault) (fragment : Text) : IsTextFault (.malformed why (some fragment))
  | unsupported (a : Attribute) (why : Refusal) (value : Text) :
    IsTextFault (.unsupported a why (.text value))

theorem isTextFault_of_make {a : Attribute} {o : Operator} {v : Text} {e : Fault}
    (h : Predicate.make a o v = .error e) : IsTextFault e := by
  unfold Predicate.make at h
  split at h
  · cases h
  · cases h
    exact .unsupported a _ v

theorem isTextFault_of_splitGroup {g : Group} {e : Fault} (h : splitGroup g = .error e) :
    IsTextFault e := by
  unfold splitGroup at h
  dsimp only at h
  split at h
  · cases h
    exact .malformed _ _
  · split at h
    · cases h
    · cases h
      exact .malformed _ _

theorem isTextFault_of_readGroup {strict : Bool} {g : Group} {e : Fault}
    (h : (readGroup strict g).result = .error e) : IsTextFault e := by
  unfold readGroup at h
  split at h
  · next e' hsplit =>
    cases h
    exact isTextFault_of_splitGroup hsplit
  · next key o value _ =>
    split at h
    · split at h
      · cases h
        exact .malformed _ _
      · cases h
    · next a _ =>
      cases hmake : Predicate.make a o value with
      | ok p =>
          rw [hmake] at h
          cases h
      | error e' =>
          rw [hmake] at h
          cases h
          exact isTextFault_of_make hmake

theorem isTextFault_of_readGroups {strict : Bool} {gs : List Group} {e : Fault}
    (h : (readGroups strict gs).result = .error e) : IsTextFault e := by
  induction gs with
  | nil => cases h
  | cons g gs ih =>
      rw [readGroups] at h
      cases hg : (readGroup strict g).result with
      | error e' =>
          rw [Report.result_bind_of_error hg] at h
          cases h
          exact isTextFault_of_readGroup hg
      | ok found =>
          rw [Report.result_bind_of_ok hg] at h
          cases hgs : (readGroups strict gs).result with
          | error e' =>
              rw [Report.result_bind_of_error hgs] at h
              cases h
              exact ih hgs
          | ok ps =>
              rw [Report.result_bind_of_ok hgs] at h
              cases h

theorem isTextFault_of_scan {t : Text} {e : Fault} (h : (scan t).fault = some e) :
    IsTextFault e := by
  induction t using scan.induct with
  | case1 =>
      rw [scan] at h
      cases h
  | case2 rest body after hb ih =>
      rw [scan_of_cutBody hb] at h
      exact ih h
  | case3 rest hb =>
      rw [scan_of_open hb] at h
      cases h
      exact .malformed _ _
  | case4 c rest hc =>
      rw [scan_of_stray hc] at h
      cases h
      exact .malformed _ _

/-- Whatever reading refuses, it refuses for the form of the text or for a value. -/
theorem isTextFault_of_read {strict : Bool} {t : Text} {e : Fault}
    (h : (read strict t).result = .error e) : IsTextFault e := by
  unfold read at h
  split at h
  · cases h
    exact .malformed _ _
  · split at h
    · cases h
      exact .malformed _ _
    · cases hgs : (readGroups strict (scan t).groups).result with
      | error e' =>
          rw [Report.result_bind_of_error hgs] at h
          cases h
          exact isTextFault_of_readGroups hgs
      | ok ps =>
          rw [Report.result_bind_of_ok hgs] at h
          split at h
          · next e' hfault =>
            cases h
            exact isTextFault_of_scan hfault
          · split at h
            · cases h
              exact .malformed _ _
            · cases h

/-! ## The language -/

/-- **Strict reading accepts exactly the rows of legal clauses that are one line.** The clauses of
an accepted text are determined by it, and they are the predicates of the selector, in order and
without a match index. What is not accepted is refused for its form or for a value in it. -/
theorem readStrict_iff_isRow (t : Text) :
    ((∃ s, (read true t).result = .ok s) ↔
        t ≠ [] ∧ '\n' ∉ t ∧ '\r' ∉ t ∧ ∃ cs, Clause.IsRow cs t) ∧
      (∀ s, (read true t).result = .ok s →
        s.matchIndex = none ∧ ∀ cs, Clause.IsRow cs t ↔ cs = s.predicates.map Predicate.clause) ∧
      ∀ e, (read true t).result = .error e → IsTextFault e := by
  refine ⟨?_, ?_, fun e he => isTextFault_of_read he⟩
  · constructor
    · rintro ⟨s, hs⟩
      obtain ⟨hne, hline⟩ := isLine_of_read hs
      exact ⟨hne, hline.1, hline.2, _, (readStrict_eq_ok_iff_isRow.mp hs).2.2⟩
    · rintro ⟨-, hn, hr, cs, hrow⟩
      obtain ⟨s, hs, -⟩ := exists_read_of_isRow ⟨hn, hr⟩ hrow
      exact ⟨s, hs⟩
  · intro s hs
    obtain ⟨hline, hindex, hrow⟩ := readStrict_eq_ok_iff_isRow.mp hs
    refine ⟨hindex, fun cs => ⟨?_, ?_⟩⟩
    · intro hcs
      -- both rows are read from the same text
      obtain ⟨s', hs', rfl⟩ := exists_read_of_isRow hline hcs
      rw [hs] at hs'
      cases hs'
      rfl
    · rintro rfl
      exact hrow

/-- A value with brackets and a symbol in it, and a number in digits of another script; with one
bracket more there is a fault. -/
theorem readStrict_iff_isRow_nested :
    (∃ s, (read true "[text~=a[~=]][index=-٣]".toList).result = .ok s ∧
        s.predicates.map Predicate.clause =
          [⟨"text".toList, "~=".toList, "a[~=]".toList⟩,
            ⟨"index".toList, "=".toList, "-٣".toList⟩]) ∧
      ∃ e, (read true "[text~=a[~=]][index=-٣]]".toList).result = .error e ∧ IsTextFault e := by
  -- a body that the scanner cuts out is balanced
  have balanced : ∀ {v : Text}, cutBody 0 (v ++ [']']) = some (v, []) → Balanced v := by
    intro v hv
    obtain ⟨-, hbelow, hdepth⟩ := cutBody_eq_some_iff.mp hv
    exact balanced_iff.mpr ⟨hbelow, (Int.zero_add _).symm.trans hdepth⟩
  have hrow : Clause.IsRow [⟨"text".toList, "~=".toList, "a[~=]".toList⟩,
      ⟨"index".toList, "=".toList, "-٣".toList⟩] "[text~=a[~=]][index=-٣]".toList := by
    refine ⟨by decide, ?_, rfl⟩
    intro c hc
    simp only [List.mem_cons, List.not_mem_nil, or_false] at hc
    rcases hc with rfl | rfl
    · exact ⟨balanced (by decide), .text, .contains, rfl, rfl,
        refusal?_eq_none_iff.mp (by decide)⟩
    · exact ⟨balanced (by decide), .index, .equals, rfl, rfl,
        refusal?_eq_none_iff.mp (by decide)⟩
  obtain ⟨s, hs⟩ := (readStrict_iff_isRow _).1.mpr ⟨by decide, by decide, by decide, _, hrow⟩
  refine ⟨⟨s, hs, ?_⟩, ?_⟩
  · exact ((((readStrict_iff_isRow _).2.1 s hs).2 _).mp hrow).symm
  · have herror : (read true "[text~=a[~=]][index=-٣]]".toList).result.toOption.isNone = true := by
      decide +kernel
    cases he : (read true "[text~=a[~=]][index=-٣]]".toList).result with
    | ok s =>
        rw [he] at herror
        cases herror
    | error e => exact ⟨e, rfl, (readStrict_iff_isRow _).2.2 e he⟩

end Selector

end UiTree
