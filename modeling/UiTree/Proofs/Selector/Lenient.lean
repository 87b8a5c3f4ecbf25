import UiTree.Proofs.Selector.Grammar
import UiTree.Proofs.Selector.Leftmost

/-!
# UiTree.Proofs.Selector.Lenient -- lenient reading drops the groups of unknown keys

Lenient reading is told by strict reading. A row of clauses with keys of any kind is read as the row
of its known clauses would be, selector and faults alike, and every other clause leaves a warning.

* **Clauses.** `Clause.IsWellFormed` is what the form of a selector text asks of a clause, and
  `Clause.isKnown` whether its key names an attribute.
* **One group.** `readGroup_of_known` does not depend on the strictness, `readGroup_of_unknown` does
  not depend on the value.
* **Main statement.** `readLenient_known`: lenient reading of a row is strict reading of its known
  clauses, with one warning for each clause that is dropped, in order.
-/

namespace UiTree

/-! ## Clauses with keys of any kind -/

namespace Clause

/-- A clause with a run of letters, digits, hyphens and underscores for a key, one of the symbols,
and brackets in pairs in its value. -/
structure IsWellFormed (c : Clause) : Prop where
  key_ne_nil : c.key ≠ []
  key_chars : ∀ d ∈ c.key, d.isAlphanum = true ∨ d = '_' ∨ d = '-'
  symbol : ∃ o : Operator, o.symbol = c.symbol
  balanced : Balanced c.value

theorem key_chars_of_all {key : Text}
    (h : (key.all fun d => d.isAlphanum || d == '_' || d == '-') = true) :
    ∀ d ∈ key, d.isAlphanum = true ∨ d = '_' ∨ d = '-' := by
  intro d hd
  simpa [or_assoc] using List.all_eq_true.mp h d hd

/-- Does the key name an attribute? -/
def isKnown (c : Clause) : Bool := Attribute.all.any fun a => a.key == c.key

/-- The bracket group of the clause. -/
def group (c : Clause) : Group := ⟨c.key ++ c.symbol ++ c.value⟩

theorem text_group (c : Clause) : c.group.text = c.text := by
  simp only [group, Group.text, text, List.cons_append]

theorem isKnown_iff {c : Clause} : c.isKnown = true ↔ ∃ a : Attribute, a.key = c.key := by
  simp only [isKnown, List.any_eq_true, beq_iff_eq]
  constructor
  · rintro ⟨a, -, ha⟩
    exact ⟨a, ha⟩
  · rintro ⟨a, ha⟩
    exact ⟨a, a.mem_all, ha⟩

theorem ofKey?_of_unknown {c : Clause} (h : c.isKnown = false) :
    Attribute.ofKey? c.key = none := by
  cases ha : Attribute.ofKey? c.key with
  | none => rfl
  | some a =>
      rw [isKnown_iff.mpr ⟨a, Attribute.key_of_ofKey? ha⟩] at h
      cases h

theorem IsWellFormed.isKeyChar {c : Clause} (h : c.IsWellFormed) :
    ∀ d ∈ c.key, Selector.isKeyChar d = true := by
  intro d hd
  rcases h.key_chars d hd with hd | rfl | rfl
  · have hrange : d.isAlphanum = (decide (d.val ≥ 65 ∧ d.val ≤ 90) ||
        decide (d.val ≥ 97) && decide (d.val ≤ 122) ||
          decide (d.val ≥ 48) && decide (d.val ≤ 57)) := rfl
    have hcode : d.toNat < 0x80 := by
      show d.val.toNat < 0x80
      have hz : (122 : UInt32).toNat = 122 := rfl
      have hZ : (90 : UInt32).toNat = 90 := rfl
      have h9 : (57 : UInt32).toNat = 57 := rfl
      rw [hrange] at hd
      simp only [Bool.or_eq_true, Bool.and_eq_true, decide_eq_true_eq, ge_iff_le,
        UInt32.le_iff_toNat_le] at hd
      omega
    simp [Selector.isKeyChar, hcode, hd]
  · decide
  · decide

theorem IsWellFormed.balanced_group {c : Clause} (h : c.IsWellFormed) : Balanced c.group.body := by
  obtain ⟨o, ho⟩ := h.symbol
  have hsymbol : '[' ∉ o.symbol ∧ ']' ∉ o.symbol := by cases o <;> decide
  have hkey : '[' ∉ c.key ∧ ']' ∉ c.key := by
    constructor <;> (intro hd; exact absurd (h.isKeyChar _ hd) (by decide))
  rw [group, ← ho, balanced_append_iff]
  · exact h.balanced
  · simpa using ⟨hkey.1, hsymbol.1⟩
  · simpa using ⟨hkey.2, hsymbol.2⟩

/-- What a legal clause is over and above its form. -/
theorem IsWellFormed.isLegal_iff {c : Clause} (h : c.IsWellFormed) :
    c.IsLegal ↔ ∃ a o, a.key = c.key ∧ o.symbol = c.symbol ∧ refusal? a o c.value = none := by
  simp only [IsLegal, refusal?_eq_none_iff, h.balanced, true_and]

end Clause

namespace Event

/-- Is the event logged as a warning? -/
def isWarning (e : Event) : Bool := e.level == .warning

end Event

namespace Selector

/-! ## One group -/

theorem splitGroup_of_isWellFormed {c : Clause} (h : c.IsWellFormed) :
    ∃ o, o.symbol = c.symbol ∧ splitGroup c.group = .ok (c.key, o, c.value) := by
  obtain ⟨o, ho⟩ := h.symbol
  refine ⟨o, ho, splitGroup_eq_ok_iff.mpr ⟨?_, h.key_ne_nil, h.isKeyChar⟩⟩
  rw [Clause.group, ho]

/-- A known clause is judged by its value, strictly or not, and nothing is recorded. -/
theorem readGroup_of_known {c : Clause} (h : c.IsWellFormed) (hknown : c.isKnown = true) :
    ∃ a o, a.key = c.key ∧ o.symbol = c.symbol ∧
      ∀ strict, readGroup strict c.group = .of ((Predicate.make a o c.value).map some) := by
  obtain ⟨a, ha⟩ := Clause.isKnown_iff.mp hknown
  obtain ⟨o, ho, hsplit⟩ := splitGroup_of_isWellFormed h
  refine ⟨a, o, ha, ho, ?_⟩
  intro strict
  simp only [readGroup, hsplit, ← ha, Attribute.ofKey?_key]

/-- An unknown clause is dropped, whatever its value. -/
theorem readGroup_of_unknown {c : Clause} (h : c.IsWellFormed) (hunknown : c.isKnown = false) :
    readGroup false c.group = ⟨[.groupIgnored c.text], .ok none⟩ := by
  obtain ⟨o, -, hsplit⟩ := splitGroup_of_isWellFormed h
  simp only [readGroup, hsplit, Clause.ofKey?_of_unknown hunknown, Clause.text_group]
  rfl

/-! ## Rows of groups -/

/-- Lenient reading of a row gives what strict reading of its known clauses gives. -/
theorem result_readGroups_lenient {cs : List Clause} (h : ∀ c ∈ cs, c.IsWellFormed) :
    (readGroups false (cs.map Clause.group)).result =
      (readGroups true ((cs.filter Clause.isKnown).map Clause.group)).result := by
  induction cs with
  | nil => rfl
  | cons c cs ih =>
      have hc := h c List.mem_cons_self
      have hcs := ih fun d hd => h d (List.mem_cons_of_mem c hd)
      rw [List.map_cons, readGroups]
      cases hknown : c.isKnown with
      | true =>
          obtain ⟨a, o, -, -, hread⟩ := readGroup_of_known hc hknown
          rw [List.filter_cons_of_pos hknown, List.map_cons, readGroups, hread false, hread true,
            Report.result_bind, Report.result_bind]
          congr 1
          funext p
          rw [Report.result_bind, Report.result_bind, hcs]
      | false =>
          rw [List.filter_cons_of_neg (by simp [hknown]), readGroup_of_unknown hc hknown,
            Report.result_bind_of_ok rfl, ← hcs, Report.result_bind]
          cases (readGroups false (cs.map Clause.group)).result <;> rfl

/-- Where a row is read, the dropped clauses are what was recorded. -/
theorem events_readGroups_lenient {cs : List Clause} (h : ∀ c ∈ cs, c.IsWellFormed)
    {ps : List Predicate} (hread : (readGroups false (cs.map Clause.group)).result = .ok ps) :
    (readGroups false (cs.map Clause.group)).events =
      (cs.filter fun c => !c.isKnown).map fun c => .groupIgnored c.text := by
  induction cs generalizing ps with
  | nil => rfl
  | cons c cs ih =>
      have hc := h c List.mem_cons_self
      rw [List.map_cons, readGroups] at hread ⊢
      obtain ⟨p, hp, hrest⟩ := Report.result_bind_eq_ok_iff.mp hread
      obtain ⟨qs, hqs, -⟩ := Report.result_bind_eq_ok_iff.mp hrest
      have hcs := ih (fun d hd => h d (List.mem_cons_of_mem c hd)) hqs
      rw [Report.events_bind, hp]
      simp only
      rw [Report.events_bind, hqs, hcs]
      simp only [Report.events_pure, List.append_nil]
      cases hknown : c.isKnown with
      | true =>
          obtain ⟨a, o, -, -, hgroup⟩ := readGroup_of_known hc hknown
          rw [hgroup false, Report.events_of, List.nil_append,
            List.filter_cons_of_neg (by simp [hknown])]
      | false =>
          rw [readGroup_of_unknown hc hknown, List.filter_cons_of_pos (by simp [hknown])]
          rfl

/-- The known clauses are read just when their values are legal. -/
theorem exists_readGroups_iff {cs : List Clause} (h : ∀ c ∈ cs, c.IsWellFormed) :
    (∃ ps, (readGroups true (cs.map Clause.group)).result = .ok ps) ↔ ∀ c ∈ cs, c.IsLegal := by
  constructor
  · rintro ⟨ps, hps⟩ c hc
    -- the group of the clause writes one of the predicates
    have hmem : c.group ∈ ps.map Predicate.group := by
      rw [← readGroups_strict_eq_ok_iff.mp hps]
      exact List.mem_map_of_mem hc
    obtain ⟨p, -, hp⟩ := List.mem_map.mp hmem
    obtain ⟨o, ho, hsplit⟩ := splitGroup_of_isWellFormed (h c hc)
    have hwhole : splitGroup p.group = .ok (p.attr.key, p.operator, p.value) :=
      splitGroup_eq_ok_iff.mpr
        ⟨rfl, p.attr.key_ne_nil, fun d hd => Attribute.isKeyChar_of_mem_key hd⟩
    rw [hp, hsplit] at hwhole
    simp only [Except.ok.injEq, Prod.mk.injEq] at hwhole
    obtain ⟨hkey, rfl, hvalue⟩ := hwhole
    have hlegal : refusal? p.attr p.operator c.value = none := by rw [hvalue, p.legal]
    exact (h c hc).isLegal_iff.mpr ⟨p.attr, p.operator, hkey.symm, ho, hlegal⟩
  · intro hlegal
    obtain ⟨ps, rfl, -⟩ := Clause.exists_predicates hlegal
    refine ⟨ps, readGroups_strict_eq_ok_iff.mpr ?_⟩
    rw [List.map_map]
    rfl

/-! ## Whole texts -/

theorem scan_flatMap_text {cs : List Clause} (h : ∀ c ∈ cs, c.IsWellFormed) :
    scan (cs.flatMap Clause.text) = ⟨cs.map Clause.group, none⟩ := by
  refine scan_eq_iff.mpr ⟨?_, ?_⟩
  · rw [List.flatMap_map]
    simp only [Clause.text_group]
  · intro g hg
    obtain ⟨c, hc, rfl⟩ := List.mem_map.mp hg
    exact (h c hc).balanced_group

/-- What is recorded while a line is read. -/
theorem events_read_of_ok {strict : Bool} {t : Text} {s : Selector}
    (h : (read strict t).result = .ok s) :
    (read strict t).events =
      (readGroups strict (scan t).groups).events ++ [.selectorRead t s.predicates.length] := by
  obtain ⟨hne, hline⟩ := isLine_of_read h
  obtain ⟨hgs, hfault, hps, -⟩ := (read_eq_ok_iff hne hline).mp h
  have hempty : t.isEmpty = false := by simpa using hne
  have hends : (t.contains '\n' || t.contains '\r') = false := by simpa [IsLine] using hline
  have hsome : s.predicates.isEmpty = false := by simpa using hps
  rw [read, hempty, hends]
  simp only [Bool.false_eq_true, if_false]
  rw [Report.events_bind, hgs, hfault]
  simp only [hsome, Bool.false_eq_true, if_false]
  rfl

theorem flatMap_text_ne_nil {cs : List Clause} (h : cs ≠ []) : cs.flatMap Clause.text ≠ [] := by
  obtain ⟨c, cs, rfl⟩ := List.exists_cons_of_ne_nil h
  exact List.cons_ne_nil _ _

/-- Dropping clauses leaves a line a line. -/
theorem IsLine.known {cs : List Clause} (h : IsLine (cs.flatMap Clause.text)) :
    IsLine ((cs.filter Clause.isKnown).flatMap Clause.text) := by
  have hmem : ∀ d, d ∈ (cs.filter Clause.isKnown).flatMap Clause.text →
      d ∈ cs.flatMap Clause.text := by
    intro d hd
    obtain ⟨c, hc, hd⟩ := List.mem_flatMap.mp hd
    exact List.mem_flatMap.mpr ⟨c, (List.mem_filter.mp hc).1, hd⟩
  exact ⟨fun hn => h.1 (hmem _ hn), fun hr => h.2 (hmem _ hr)⟩

/-- Lenient reading of a row, by its known clauses. -/
theorem result_readLenient {cs : List Clause} (hne : cs ≠ []) (h : ∀ c ∈ cs, c.IsWellFormed)
    (hline : IsLine (cs.flatMap Clause.text)) :
    (read false (cs.flatMap Clause.text)).result =
      (readGroups true ((cs.filter Clause.isKnown).map Clause.group)).result >>= fun ps =>
        if ps.isEmpty then .error (.malformed .nothingUsable (some (cs.flatMap Clause.text)))
        else .ok ⟨ps, none⟩ := by
  rw [result_read_of_isLine (flatMap_text_ne_nil hne) hline, scan_flatMap_text h,
    result_readGroups_lenient h]

/-- With a known clause, lenient reading is strict reading of the known clauses: the same selector,
or the same fault of a value. -/
theorem result_readLenient_eq {cs : List Clause} (h : ∀ c ∈ cs, c.IsWellFormed)
    (hline : IsLine (cs.flatMap Clause.text)) (hknown : cs.filter Clause.isKnown ≠ []) :
    (read false (cs.flatMap Clause.text)).result =
      (read true ((cs.filter Clause.isKnown).flatMap Clause.text)).result := by
  have hne : cs ≠ [] := by
    rintro rfl
    exact hknown rfl
  have hwell : ∀ c ∈ cs.filter Clause.isKnown, c.IsWellFormed := fun c hc =>
    h c (List.mem_filter.mp hc).1
  rw [result_readLenient hne h hline,
    result_readStrict_of_isLine (flatMap_text_ne_nil hknown) hline.known, scan_flatMap_text hwell]
  cases hread : (readGroups true ((cs.filter Clause.isKnown).map Clause.group)).result with
  | error e => rfl
  | ok ps =>
      -- strict reading drops nothing, so there is a predicate for every known clause
      have hps : ps.isEmpty = false := by
        cases ps with
        | nil =>
            have hnil := readGroups_strict_eq_ok_iff.mp hread
            rw [List.map_nil, List.map_eq_nil_iff] at hnil
            exact absurd hnil hknown
        | cons p ps => rfl
      show (if ps.isEmpty then _ else _) = _
      rw [hps]
      rfl

/-- A row of unknown clauses leaves nothing. -/
theorem result_readLenient_of_unknown {cs : List Clause} (hne : cs ≠ [])
    (h : ∀ c ∈ cs, c.IsWellFormed) (hline : IsLine (cs.flatMap Clause.text))
    (hknown : cs.filter Clause.isKnown = []) :
    (read false (cs.flatMap Clause.text)).result =
      .error (.malformed .nothingUsable (some (cs.flatMap Clause.text))) := by
  rw [result_readLenient hne h hline, hknown]
  rfl

/-- What it takes to be read. -/
theorem exists_readLenient_iff {cs : List Clause} (hne : cs ≠ []) (h : ∀ c ∈ cs, c.IsWellFormed)
    (hline : IsLine (cs.flatMap Clause.text)) :
    (∃ s, (read false (cs.flatMap Clause.text)).result = .ok s) ↔
      cs.filter Clause.isKnown ≠ [] ∧ ∀ c ∈ cs.filter Clause.isKnown, c.IsLegal := by
  have hwell : ∀ c ∈ cs.filter Clause.isKnown, c.IsWellFormed := fun c hc =>
    h c (List.mem_filter.mp hc).1
  constructor
  · rintro ⟨s, hs⟩
    have hgroups := ((read_eq_ok_iff (flatMap_text_ne_nil hne) hline).mp hs).1
    rw [scan_flatMap_text h, result_readGroups_lenient h] at hgroups
    refine ⟨?_, (exists_readGroups_iff hwell).mp ⟨_, hgroups⟩⟩
    intro hknown
    rw [result_readLenient_of_unknown hne h hline hknown] at hs
    cases hs
  · rintro ⟨hknown, hlegal⟩
    obtain ⟨s, hs, -⟩ := exists_read_of_isRow hline.known ⟨hknown, hlegal, rfl⟩
    exact ⟨s, (result_readLenient_eq h hline hknown).trans hs⟩

/-- The warnings of a row that is read are its dropped clauses. -/
theorem warnings_readLenient {cs : List Clause} (h : ∀ c ∈ cs, c.IsWellFormed) {s : Selector}
    (hs : (read false (cs.flatMap Clause.text)).result = .ok s) :
    (read false (cs.flatMap Clause.text)).events.filter Event.isWarning =
      (cs.filter fun c => !c.isKnown).map fun c => .groupIgnored c.text := by
  obtain ⟨hne, hline⟩ := isLine_of_read hs
  have hgroups := ((read_eq_ok_iff hne hline).mp hs).1
  rw [scan_flatMap_text h] at hgroups
  have hwarn : ∀ ds : List Clause,
      (ds.map fun c => Event.groupIgnored c.text).filter Event.isWarning =
        ds.map fun c => .groupIgnored c.text := fun ds =>
    List.filter_eq_self.mpr fun e he => by
      obtain ⟨c, -, rfl⟩ := List.mem_map.mp he
      rfl
  rw [events_read_of_ok hs, scan_flatMap_text h, events_readGroups_lenient h hgroups,
    List.filter_append, hwarn]
  exact List.append_nil _

/-- The clauses of an accepted text are well formed and known. -/
theorem isWellFormed_clause {p : Predicate} (h : Balanced p.value) : p.clause.IsWellFormed where
  key_ne_nil := p.attr.key_ne_nil
  key_chars := by
    have hall : ∀ a : Attribute,
        (a.key.all fun d => d.isAlphanum || d == '_' || d == '-') = true := by
      intro a
      cases a <;> decide
    exact Clause.key_chars_of_all (hall p.attr)
  symbol := ⟨p.operator, rfl⟩
  balanced := h

/-- Where strict reading succeeds, lenient reading does the same and records the same. -/
theorem readLenient_of_readStrict {t : Text} {s : Selector} (h : (read true t).result = .ok s) :
    (read false t).result = .ok s ∧ (read false t).events.filter Event.isWarning = [] := by
  obtain ⟨rfl, hline, hps, -, hbal⟩ := readStrict_eq_ok_iff.mp h
  have htext : s.text = (s.predicates.map Predicate.clause).flatMap Clause.text := by
    rw [List.flatMap_map]
    rfl
  have hknown : ∀ c ∈ s.predicates.map Predicate.clause, c.isKnown = true := by
    intro c hc
    obtain ⟨p, -, rfl⟩ := List.mem_map.mp hc
    exact Clause.isKnown_iff.mpr ⟨p.attr, rfl⟩
  have hwell : ∀ c ∈ s.predicates.map Predicate.clause, c.IsWellFormed := by
    intro c hc
    obtain ⟨p, hp, rfl⟩ := List.mem_map.mp hc
    exact isWellFormed_clause (hbal p hp)
  have hall := List.filter_eq_self.mpr hknown
  rw [htext] at h hline ⊢
  have hread := result_readLenient_eq hwell hline (by simpa [hall] using hps)
  rw [hall, h] at hread
  refine ⟨hread, ?_⟩
  rw [warnings_readLenient hwell hread, List.map_eq_nil_iff, List.filter_eq_nil_iff]
  intro c hc
  simp [hknown c hc]

/-- **Lenient reading drops exactly the unknown clauses.** What strict reading accepts, lenient
reading takes to the same selector without a warning. A line that is a row of well-formed clauses is
accepted when it has a known clause and the known ones are legal. Then it is read as the row of its
known clauses, and every other clause is told in one warning, in order. When no clause is known the
whole text is refused. -/
theorem readLenient_known :
    (∀ (t : Text) (s : Selector), (read true t).result = .ok s →
        (read false t).result = .ok s ∧ (read false t).events.filter Event.isWarning = []) ∧
      ∀ (t : Text) (cs : List Clause), cs ≠ [] → (∀ c ∈ cs, c.IsWellFormed) →
        t = cs.flatMap Clause.text → '\n' ∉ t ∧ '\r' ∉ t →
          ((∃ s, (read false t).result = .ok s) ↔
            (∃ c ∈ cs, c.isKnown = true) ∧ ∀ c ∈ cs, c.isKnown = true → c.IsLegal) ∧
          (∀ s, (read false t).result = .ok s →
            (read true ((cs.filter Clause.isKnown).flatMap Clause.text)).result = .ok s ∧
              ((read false t).events.filter Event.isWarning).map Event.message =
                (cs.filter fun c => !c.isKnown).map fun c =>
                  "Ignoring unknown selector attribute in ".toList ++ Text.quoted c.text) ∧
          ((∀ c ∈ cs, c.isKnown = false) →
            (read false t).result = .error (.malformed .nothingUsable (some t))) := by
  refine ⟨fun t s h => readLenient_of_readStrict h, ?_⟩
  rintro t cs hne hwell rfl hline
  have hrefused := result_readLenient_of_unknown hne hwell hline
  refine ⟨?_, ?_, ?_⟩
  · rw [exists_readLenient_iff hne hwell hline, ne_eq, List.filter_eq_nil_iff]
    simp only [List.mem_filter, and_imp, Classical.not_forall, Classical.not_not,
      exists_prop]
  · intro s hs
    have hknown : cs.filter Clause.isKnown ≠ [] := by
      intro hnone
      rw [hrefused hnone] at hs
      cases hs
    refine ⟨(result_readLenient_eq hwell hline hknown).symm.trans hs, ?_⟩
    rw [warnings_readLenient hwell hs, List.map_map]
    rfl
  · intro hunknown
    refine hrefused (List.filter_eq_nil_iff.mpr ?_)
    intro c hc
    simp [hunknown c hc]

/-- A row in which one clause is known; the value of the other one would not be legal. -/
def mixedRow : List Clause :=
  [⟨"colour".toList, "=".toList, "[\x00]".toList⟩, ⟨"text".toList, "~=".toList, "a[b]".toList⟩]

theorem mixedRow_isWellFormed : ∀ c ∈ mixedRow, c.IsWellFormed := by
  intro c hc
  simp only [mixedRow, List.mem_cons, List.not_mem_nil, or_false] at hc
  rcases hc with rfl | rfl
  · exact ⟨by decide, Clause.key_chars_of_all (by decide), ⟨.equals, rfl⟩,
      by simp [balanced_iff, neverBelow_cons, neverBelow_nil, bracketStep, depth]⟩
  · exact ⟨by decide, Clause.key_chars_of_all (by decide), ⟨.contains, rfl⟩,
      by simp [balanced_iff, neverBelow_cons, neverBelow_nil, bracketStep, depth]⟩

/-- The unknown clause is dropped with a warning, and alone it is refused. -/
theorem readLenient_known_mixed :
    (∃ s, (read false (mixedRow.flatMap Clause.text)).result = .ok s ∧
        (read true "[text~=a[b]]".toList).result = .ok s ∧
        ((read false (mixedRow.flatMap Clause.text)).events.filter Event.isWarning).map
          Event.message = ["Ignoring unknown selector attribute in '[colour=[\\x00]]'".toList]) ∧
      (read false "[colour=]".toList).result =
        .error (.malformed .nothingUsable (some "[colour=]".toList)) := by
  constructor
  · obtain ⟨hread, hknown, -⟩ := readLenient_known.2 _ mixedRow (by decide)
      mixedRow_isWellFormed rfl (by decide)
    have hlegal : ∀ c ∈ mixedRow, c.isKnown = true → c.IsLegal := by
      intro c hc hk
      have hbal := (mixedRow_isWellFormed c hc).balanced
      simp only [mixedRow, List.mem_cons, List.not_mem_nil, or_false] at hc
      rcases hc with rfl | rfl
      · exact absurd hk (by decide)
      · exact ⟨hbal, .text, .contains, rfl, rfl, refusal?_eq_none_iff.mp (by decide)⟩
    obtain ⟨s, hs⟩ := hread.mpr ⟨⟨mixedRow[1], by decide, by decide⟩, hlegal⟩
    exact ⟨s, hs, (hknown s hs).1, (hknown s hs).2.trans (by decide)⟩
  · have hwell : ∀ c ∈ [Clause.mk "colour".toList "=".toList []], c.IsWellFormed := by
      intro c hc
      obtain rfl := List.mem_singleton.mp hc
      exact ⟨by decide, Clause.key_chars_of_all (by decide), ⟨.equals, rfl⟩,
        by simp [balanced_iff, neverBelow_nil, depth]⟩
    exact (readLenient_known.2 _ [⟨"colour".toList, "=".toList, []⟩] (by decide) hwell rfl
      (by decide)).2.2 (by decide)

end Selector

end UiTree
