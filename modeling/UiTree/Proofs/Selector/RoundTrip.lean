import UiTree.Proofs.Selector.Brackets
import UiTree.Proofs.Text.Cut
import UiTree.Selector.Reader

/-!
# UiTree.Proofs.Selector.RoundTrip -- selectors and their texts

Strict reading and the writing of selectors are compared in both directions. A predicate is written
as one **group** (`Predicate.group`), strict reading takes groups back to predicates one by one, and
the scanner cuts a text into groups in one way only, so all of it comes down to one equivalence.

* **Main statements.** `readStrict_eq_ok_iff` describes every success of strict reading: the text is
  the text of the selector that is read, one line long, with balanced values. `read_text_inverse`:
  reading a text and writing it again gives the text back, and the selectors that survive writing
  and reading are exactly those with predicates, without an index, and with balanced values of one
  line.
-/

namespace UiTree

/-! ## One group -/

theorem Attribute.key_ne_nil (a : Attribute) : a.key ≠ [] := by
  cases a <;> decide

theorem Attribute.isKeyChar_of_mem_key {a : Attribute} {c : Char} (h : c ∈ a.key) :
    Selector.isKeyChar c = true := by
  have hall : a.key.all Selector.isKeyChar = true := by cases a <;> decide
  exact List.all_eq_true.mp hall c h

/-- No character of a key begins a symbol. -/
theorem Operator.stops_symbol (o : Operator) (t : Text) :
    Text.Stops Selector.isKeyChar (o.symbol ++ t) := by
  cases o <;> exact Text.stops_cons.mpr (by decide)

/-- The group that writes a predicate. -/
def Predicate.group (p : Predicate) : Group := ⟨p.attr.key ++ p.operator.symbol ++ p.value⟩

theorem Predicate.text_group (p : Predicate) : p.group.text = p.text := by
  simp only [Predicate.group, Group.text, Predicate.text, List.cons_append]

/-- The brackets of the group of a predicate are those of its value. -/
theorem Predicate.balanced_group {p : Predicate} : Balanced p.group.body ↔ Balanced p.value := by
  have hkey : ∀ c ∈ p.attr.key, c ≠ '[' ∧ c ≠ ']' := by
    intro c hc
    constructor <;> (rintro rfl; exact absurd (Attribute.isKeyChar_of_mem_key hc) (by decide))
  have hsymbol : '[' ∉ p.operator.symbol ∧ ']' ∉ p.operator.symbol := by
    cases p.operator <;> decide
  rw [Predicate.group, balanced_append_iff]
  · simpa using ⟨fun h => (hkey _ h).1 rfl, hsymbol.1⟩
  · simpa using ⟨fun h => (hkey _ h).2 rfl, hsymbol.2⟩

namespace Selector

/-- **What a group is split into**: a run of key characters as long as possible, a symbol, and all
the rest. -/
theorem splitGroup_eq_ok_iff {g : Group} {key value : Text} {o : Operator} :
    splitGroup g = .ok (key, o, value) ↔
      g.body = key ++ o.symbol ++ value ∧ key ≠ [] ∧ ∀ c ∈ key, isKeyChar c = true := by
  constructor
  · intro h
    unfold splitGroup Text.cutWhile at h
    simp only at h
    split at h
    · cases h
    · next hkey =>
      split at h
      · next o' v hcut =>
        cases h
        refine ⟨?_, by simpa using hkey, Text.all_takeWhile isKeyChar g.body⟩
        rw [List.append_assoc, ← Operator.eq_symbol_append_of_cut? hcut,
          List.takeWhile_append_dropWhile]
      · cases h
  · rintro ⟨hbody, hne, hall⟩
    have hcut : Text.cutWhile isKeyChar g.body = (key, o.symbol ++ value) := by
      rw [hbody, List.append_assoc]
      exact Text.cutWhile_run hall (Operator.stops_symbol o value)
    simp only [splitGroup, hcut, List.isEmpty_iff, hne, if_false, Operator.cut?_symbol_append]

/-- Strict reading takes a group to the one predicate that it writes, or refuses it. -/
theorem readGroup_strict_eq_ok_iff {g : Group} {found : Option Predicate} :
    (readGroup true g).result = .ok found ↔ ∃ p, found = some p ∧ g = p.group := by
  constructor
  · intro h
    unfold readGroup at h
    split at h
    · cases h
    · next key o value hsplit =>
      split at h
      · cases h
      · next a ha =>
        cases hmake : Predicate.make a o value with
        | error e =>
            rw [hmake] at h
            cases h
        | ok p =>
            rw [hmake] at h
            cases h
            obtain ⟨rfl, rfl, rfl⟩ := Predicate.make_eq_ok_iff.mp hmake
            refine ⟨p, rfl, ?_⟩
            have hbody := (splitGroup_eq_ok_iff.mp hsplit).1
            rw [← Attribute.key_of_ofKey? ha] at hbody
            cases g
            exact congrArg Group.mk hbody
  · rintro ⟨p, rfl, rfl⟩
    have hsplit : splitGroup p.group = .ok (p.attr.key, p.operator, p.value) :=
      splitGroup_eq_ok_iff.mpr
        ⟨rfl, p.attr.key_ne_nil, fun c hc => Attribute.isKeyChar_of_mem_key hc⟩
    have hmake : Predicate.make p.attr p.operator p.value = .ok p :=
      Predicate.make_eq_ok_iff.mpr ⟨rfl, rfl, rfl⟩
    simp only [readGroup, hsplit, Attribute.ofKey?_key, hmake]
    rfl

/-! ## Rows of groups and whole texts -/

theorem readGroups_strict_eq_ok_iff {gs : List Group} {ps : List Predicate} :
    (readGroups true gs).result = .ok ps ↔ gs = ps.map Predicate.group := by
  induction gs generalizing ps with
  | nil =>
      rw [readGroups, eq_comm (a := []), List.map_eq_nil_iff]
      constructor
      · intro h
        cases h
        rfl
      · rintro rfl
        rfl
  | cons g gs ih =>
      rw [readGroups, Report.result_bind_eq_ok_iff]
      constructor
      · rintro ⟨found, hg, h⟩
        obtain ⟨p, rfl, rfl⟩ := readGroup_strict_eq_ok_iff.mp hg
        obtain ⟨qs, hgs, h⟩ := Report.result_bind_eq_ok_iff.mp h
        cases h
        rw [ih.mp hgs]
        rfl
      · intro h
        cases ps with
        | nil => cases h
        | cons p ps =>
            obtain ⟨rfl, hgs⟩ := List.cons.inj h
            refine ⟨some p, readGroup_strict_eq_ok_iff.mpr ⟨p, rfl, rfl⟩, ?_⟩
            exact Report.result_bind_eq_ok_iff.mpr ⟨ps, ih.mpr hgs, rfl⟩

theorem text_eq_flatMap_group (s : Selector) :
    s.text = (s.predicates.map Predicate.group).flatMap Group.text := by
  rw [text, List.flatMap_map]
  simp only [Predicate.text_group]

/-- A text without ends of lines in it. -/
def IsLine (t : Text) : Prop := '\n' ∉ t ∧ '\r' ∉ t

theorem isLine_of_read {strict : Bool} {t : Text} {s : Selector}
    (h : (read strict t).result = .ok s) : t ≠ [] ∧ IsLine t := by
  unfold read at h
  split at h
  · cases h
  · next hempty =>
    split at h
    · cases h
    · next hends => exact ⟨by simpa using hempty, by simpa [IsLine] using hends⟩

/-- Reading one line: all groups are read before the fault of the scanner counts. -/
theorem read_eq_ok_iff {strict : Bool} {t : Text} {s : Selector} (hne : t ≠ []) (hline : IsLine t) :
    (read strict t).result = .ok s ↔
      (readGroups strict (scan t).groups).result = .ok s.predicates ∧ (scan t).fault = none ∧
        s.predicates ≠ [] ∧ s.matchIndex = none := by
  have hempty : t.isEmpty = false := by simpa using hne
  have hends : (t.contains '\n' || t.contains '\r') = false := by simpa [IsLine] using hline
  rw [read, hempty, hends]
  simp only [Bool.false_eq_true, if_false, Report.result_bind_eq_ok_iff]
  constructor
  · rintro ⟨ps, hps, h⟩
    split at h
    · cases h
    · next hfault =>
      split at h
      · cases h
      · next hne =>
        cases h
        exact ⟨hps, hfault, by simpa using hne, rfl⟩
  · rintro ⟨hps, hfault, hne, hindex⟩
    refine ⟨s.predicates, hps, ?_⟩
    obtain ⟨ps, index⟩ := s
    simp only at hindex hne ⊢
    subst hindex
    rw [hfault]
    simp only [List.isEmpty_iff, hne, if_false]
    rfl

/-- **Every success of strict reading**, in terms of the selector that is read. -/
theorem readStrict_eq_ok_iff {t : Text} {s : Selector} :
    (read true t).result = .ok s ↔
      t = s.text ∧ IsLine t ∧ s.predicates ≠ [] ∧ s.matchIndex = none ∧
        ∀ p ∈ s.predicates, Balanced p.value := by
  constructor
  · intro h
    obtain ⟨hne, hline⟩ := isLine_of_read h
    obtain ⟨hgs, hfault, hps, hindex⟩ := (read_eq_ok_iff hne hline).mp h
    -- the groups that were scanned are those that the predicates write
    have hscan : scan t = ⟨s.predicates.map Predicate.group, none⟩ := by
      rw [← readGroups_strict_eq_ok_iff.mp hgs, ← hfault]
    obtain ⟨htext, hbal⟩ := scan_eq_iff.mp hscan
    refine ⟨by rw [text_eq_flatMap_group, ← htext], hline, hps, hindex, ?_⟩
    intro p hp
    exact Predicate.balanced_group.mp (hbal _ (List.mem_map_of_mem hp))
  · rintro ⟨rfl, hline, hps, hindex, hbal⟩
    have hscan : scan s.text = ⟨s.predicates.map Predicate.group, none⟩ := by
      refine scan_eq_iff.mpr ⟨s.text_eq_flatMap_group, ?_⟩
      intro g hg
      obtain ⟨p, hp, rfl⟩ := List.mem_map.mp hg
      exact Predicate.balanced_group.mpr (hbal p hp)
    have hne : s.text ≠ [] := by
      intro h
      rw [h, scan] at hscan
      simp [hps] at hscan
    rw [read_eq_ok_iff hne hline, hscan]
    exact ⟨readGroups_strict_eq_ok_iff.mpr rfl, rfl, hps, hindex⟩

/-! ## Both directions -/

/-- Ends of lines in a selector text stand in its values. -/
theorem isLine_text_iff {s : Selector} :
    IsLine s.text ↔ ∀ p ∈ s.predicates, IsLine p.value := by
  have hsymbol : ∀ o : Operator, '\n' ∉ o.symbol ∧ '\r' ∉ o.symbol := by
    intro o
    cases o <;> decide
  have hkey : ∀ a : Attribute, '\n' ∉ a.key ∧ '\r' ∉ a.key := by
    intro a
    cases a <;> decide
  -- keys, symbols and brackets have no ends of lines
  have hone : ∀ (p : Predicate) (c : Char), c = '\n' ∨ c = '\r' → (c ∈ p.text ↔ c ∈ p.value) := by
    rintro p c (rfl | rfl)
    · simp [Predicate.text, hsymbol p.operator, hkey p.attr]
    · simp [Predicate.text, hsymbol p.operator, hkey p.attr]
  have hline : ∀ p : Predicate, IsLine p.text ↔ IsLine p.value := fun p =>
    and_congr (not_congr (hone p _ (Or.inl rfl))) (not_congr (hone p _ (Or.inr rfl)))
  simp only [← hline]
  simp only [IsLine, text, List.mem_flatMap, not_exists, not_and]
  constructor
  · rintro ⟨hn, hr⟩ p hp
    exact ⟨hn p hp, hr p hp⟩
  · intro h
    exact ⟨fun p hp => (h p hp).1, fun p hp => (h p hp).2⟩

/-- **Reading and writing undo each other** wherever they can: what strict reading accepts is
written back as it was, and the selectors that come back from their text are those with predicates,
without a match index, and with values of one line in which brackets are balanced. -/
theorem read_text_inverse :
    (∀ (t : Text) (s : Selector), (read true t).result = .ok s → s.text = t) ∧
      ∀ s : Selector, (read true s.text).result = .ok s ↔
        s.predicates ≠ [] ∧ s.matchIndex = none ∧
          ∀ p ∈ s.predicates, '\n' ∉ p.value ∧ '\r' ∉ p.value ∧ Balanced p.value := by
  constructor
  · intro t s h
    exact (readStrict_eq_ok_iff.mp h).1.symm
  · intro s
    rw [readStrict_eq_ok_iff, isLine_text_iff]
    constructor
    · rintro ⟨-, hline, hps, hindex, hbal⟩
      exact ⟨hps, hindex, fun p hp => ⟨(hline p hp).1, (hline p hp).2, hbal p hp⟩⟩
    · rintro ⟨hps, hindex, hall⟩
      exact ⟨rfl, fun p hp => ⟨(hall p hp).1, (hall p hp).2.1⟩, hps, hindex,
        fun p hp => (hall p hp).2.2⟩

/-- Values may hold brackets, also several pairs of them, and symbols of operators. -/
theorem read_text_inverse_bracketed :
    (read true "[bounds=[0,2][4,5]][text~=a[~=]=]".toList).result =
        .ok ⟨[⟨.bounds, .equals, "[0,2][4,5]".toList, by decide⟩,
          ⟨.text, .contains, "a[~=]=".toList, by decide⟩], none⟩ ∧
      ∃ s, (read true "[bounds=[0,2][4,5]][text~=a[~=]=]".toList).result = .ok s ∧
        s.text = "[bounds=[0,2][4,5]][text~=a[~=]=]".toList := by
  have hread : (read true "[bounds=[0,2][4,5]][text~=a[~=]=]".toList).result =
      .ok ⟨[⟨.bounds, .equals, "[0,2][4,5]".toList, by decide⟩,
        ⟨.text, .contains, "a[~=]=".toList, by decide⟩], none⟩ := by
    refine (read_text_inverse.2 ⟨[⟨.bounds, .equals, "[0,2][4,5]".toList, by decide⟩,
        ⟨.text, .contains, "a[~=]=".toList, by decide⟩], none⟩).mpr ⟨by decide, rfl, ?_⟩
    simp [balanced_iff, neverBelow_cons, neverBelow_nil, bracketStep, depth]
  exact ⟨hread, _, hread, read_text_inverse.1 _ _ hread⟩

end Selector

end UiTree
