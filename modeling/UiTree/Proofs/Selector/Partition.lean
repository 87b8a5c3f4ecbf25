import UiTree.Proofs.Selector.Brackets

/-!
# UiTree.Proofs.Selector.Partition -- what the scanner takes and what it leaves

The scanner takes groups off the front of a text until it cannot go on. The groups and what is left
make up the text, nothing of which is lost or read twice, and what is left says alone why the
scanner stopped: there is nothing any more, or it does not begin with a bracket, or it begins with
one that is never closed.

* **Step.** `cutBody_eq_none_iff`: a body does not end exactly when no start of the text closes more
  than is open.
* **Run.** `exists_halt`: `Halt` says how the scanner stops before what is left, and the induction
  over the groups carries it to the whole text.
* **Main statement.** `scan_partitions`, which speaks of numbers of brackets and not of the counter.
-/

namespace UiTree

/-! ## Brackets that are never closed -/

/-- The nesting depth is the number of opening brackets less that of closing ones. -/
theorem depth_eq_count (t : Text) : depth t = (t.count '[' : Int) - t.count ']' := by
  induction t with
  | nil => rfl
  | cons c t ih =>
      rw [depth, ih]
      by_cases ho : c = '['
      · subst ho
        rw [List.count_cons_self, List.count_cons_of_ne (by decide), bracketStep]
        omega
      · by_cases hc : c = ']'
        · subst hc
          rw [List.count_cons_self, List.count_cons_of_ne (by decide), bracketStep]
          omega
        · rw [bracketStep_eq_zero ho hc, List.count_cons_of_ne ho, List.count_cons_of_ne hc]
          omega

/-- **A body that does not end.** With `d` groups open inside, no start of the text closes one more
than these. -/
theorem cutBody_eq_none_iff {d : Nat} {t : Text} : cutBody d t = none ↔ NeverBelow d t := by
  induction t generalizing d with
  | nil => simp [cutBody, neverBelow_nil]
  | cons c t ih =>
      rw [neverBelow_cons]
      by_cases ho : c = '['
      · subst ho
        simp only [cutBody, if_true, Option.map_eq_none_iff, ih, bracketStep, Int.natCast_succ,
          Int.natCast_nonneg, true_and]
      · by_cases hc : c = ']'
        · subst hc
          cases d with
          | zero =>
              -- the bracket that was looked for leads below zero
              have hbelow : ¬ NeverBelow (((0 : Nat) : Int) + bracketStep ']') t :=
                fun h => absurd (neverBelow_nonneg h) (by decide)
              simp only [cutBody, if_neg ho, if_true, reduceCtorEq, hbelow, and_false]
          | succ d =>
              have hd : ((d + 1 : Nat) : Int) + bracketStep ']' = d := by
                simp only [bracketStep]
                omega
              rw [hd]
              simp only [cutBody, if_neg ho, if_true, Option.map_eq_none_iff, ih,
                Int.natCast_nonneg, true_and]
        · rw [bracketStep_eq_zero ho hc, Int.add_zero]
          simp only [cutBody, if_neg ho, if_neg hc, Option.map_eq_none_iff, ih,
            Int.natCast_nonneg, true_and]

/-- Every start of the text but the empty one has more opening than closing brackets. -/
def NeverCloses (t : Text) : Prop := ∀ s, s <+: t → s ≠ [] → s.count ']' < s.count '['

theorem neverCloses_iff {t : Text} : NeverCloses ('[' :: t) ↔ NeverBelow 0 t := by
  constructor
  · intro h s hs
    have hmore := h ('[' :: s) (List.cons_prefix_cons.mpr ⟨rfl, hs⟩) (List.cons_ne_nil _ _)
    have hdepth := depth_eq_count ('[' :: s)
    simp only [depth, bracketStep] at hdepth
    omega
  · intro h s hs hne
    rcases List.prefix_cons_iff.mp hs with rfl | ⟨u, rfl, hu⟩
    · exact absurd rfl hne
    · have hbelow := h u hu
      have hdepth := depth_eq_count ('[' :: u)
      simp only [depth, bracketStep] at hdepth
      omega

/-! ## Where the scanner stops -/

/-- The longest start of a text without a character. -/
structure IsLongestWithout (c : Char) (t s : Text) : Prop where
  isStart : s <+: t
  without : c ∉ s
  longest : ∀ u, u <+: t → c ∉ u → u <+: s

theorem isLongestWithout_takeWhile (c : Char) (t : Text) :
    IsLongestWithout c t (t.takeWhile fun d => d != c) where
  isStart := List.takeWhile_prefix _
  without := by
    intro h
    simpa using List.all_eq_true.mp List.all_takeWhile c h
  longest := by
    rintro u ⟨v, rfl⟩ hu
    have hall : ∀ d ∈ u, (d != c) = true := by
      intro d hd
      rw [bne_iff_ne]
      rintro rfl
      exact hu hd
    rw [List.takeWhile_append_of_pos hall]
    exact List.prefix_append u _

theorem IsLongestWithout.unique {c : Char} {t s u : Text} (hs : IsLongestWithout c t s)
    (hu : IsLongestWithout c t u) : s = u :=
  (hu.longest s hs.isStart hs.without).eq_of_length_le
    (hs.longest u hu.isStart hu.without).length_le

/-- How the scanner stops before what is left of a text, and what it tells then. -/
inductive Halt : Text → Option Fault → Prop where
  | done : Halt [] none
  | stray {c : Char} {t s : Text} (other : c ≠ '[') (longest : IsLongestWithout '[' (c :: t) s) :
    Halt (c :: t) (some (.malformed .strayText (some s)))
  | unclosed {t : Text} (never : NeverCloses ('[' :: t)) :
    Halt ('[' :: t) (some (.malformed .unbalanced (some ('[' :: t))))

/-- **Groups and a rest.** Every group has a balanced body, the groups and the rest make up the
text, and the scanner stops as the rest has it. -/
theorem exists_halt (t : Text) :
    ∃ rest, (scan t).groups.flatMap Group.text ++ rest = t ∧
      (∀ g ∈ (scan t).groups, Balanced g.body) ∧ Halt rest (scan t).fault := by
  induction t using scan.induct with
  | case1 =>
      rw [scan]
      exact ⟨[], rfl, List.forall_mem_nil _, .done⟩
  | case2 t body after hb ih =>
      obtain ⟨rest, htext, hbodies, hhalt⟩ := ih
      obtain ⟨ht, hbelow, hzero⟩ := cutBody_eq_some_iff.mp hb
      have hbody : Balanced body := balanced_iff.mpr ⟨hbelow, by simpa using hzero⟩
      rw [scan_of_cutBody hb]
      refine ⟨rest, ?_, List.forall_mem_cons.mpr ⟨hbody, hbodies⟩, hhalt⟩
      rw [List.flatMap_cons, List.append_assoc, htext, Group.text_append, ht]
  | case3 t hb =>
      have hnever : NeverCloses ('[' :: t) := neverCloses_iff.mpr (cutBody_eq_none_iff.mp hb)
      rw [scan_of_open hb]
      exact ⟨'[' :: t, rfl, List.forall_mem_nil _, .unclosed hnever⟩
  | case4 c t hc =>
      rw [scan_of_stray hc]
      have hlongest := isLongestWithout_takeWhile '[' (c :: t)
      exact ⟨c :: t, rfl, List.forall_mem_nil _, .stray hc hlongest⟩

/-! ## What is told -/

/-- The scanner stopped with a fault of this wording, and told this fragment. -/
def Scan.Tells (s : Scan) (wording fragment : Text) : Prop :=
  ∃ why, s.fault = some (.malformed why (some fragment)) ∧ why.wording = wording

/-- No two faults are worded alike. -/
theorem SelectorFault.wording_injective {why why' : SelectorFault}
    (h : why.wording = why'.wording) : why = why' := by
  cases why <;> cases why' <;>
    first | rfl | exact absurd (String.toList_injective h) (by decide)

theorem Scan.tells_iff {s : Scan} (why : SelectorFault) {fragment : Text} :
    s.Tells why.wording fragment ↔ s.fault = some (.malformed why (some fragment)) := by
  constructor
  · rintro ⟨why', hfault, hwording⟩
    rw [hfault, SelectorFault.wording_injective hwording]
  · intro h
    exact ⟨why, h, rfl⟩

/-- **The scanner partitions its text.** Every text is the groups that are read from it, each of
them a balanced body in its brackets, and a rest. There is no fault exactly when the rest is empty.
Stray characters are told exactly when the rest begins with something else than an opening bracket,
and then up to the next one. An unbalanced bracket is told exactly when the rest begins with an
opening bracket and no start of it closes that, and then the whole rest is told. No other fault can
stop the scanner. -/
theorem scan_partitions (t : Text) :
    ∃ rest, (scan t).groups.flatMap Group.text ++ rest = t ∧
      (∀ g ∈ (scan t).groups, g.text = '[' :: g.body ++ [']'] ∧ Balanced g.body) ∧
      ((scan t).fault = none ↔ rest = []) ∧
      (∀ fragment, (scan t).Tells "Unexpected characters outside brackets".toList fragment ↔
        rest ≠ [] ∧ rest.head? ≠ some '[' ∧ IsLongestWithout '[' rest fragment) ∧
      (∀ fragment, (scan t).Tells "Unbalanced bracket".toList fragment ↔
        rest.head? = some '[' ∧ NeverCloses rest ∧ fragment = rest) ∧
      ∀ e, (scan t).fault = some e → ∃ fragment,
        e = .malformed .strayText (some fragment) ∨ e = .malformed .unbalanced (some fragment) := by
  obtain ⟨rest, htext, hbodies, hhalt⟩ := exists_halt t
  refine ⟨rest, htext, fun g hg => ⟨rfl, hbodies g hg⟩, ?_⟩
  have hstray : ∀ fragment,
      (scan t).Tells "Unexpected characters outside brackets".toList fragment ↔
        (scan t).fault = some (.malformed .strayText (some fragment)) :=
    fun _ => Scan.tells_iff .strayText
  have hopen : ∀ fragment, (scan t).Tells "Unbalanced bracket".toList fragment ↔
      (scan t).fault = some (.malformed .unbalanced (some fragment)) :=
    fun _ => Scan.tells_iff .unbalanced
  simp only [hstray, hopen]
  generalize (scan t).fault = fault at hhalt ⊢
  cases hhalt with
  | done => simp
  | @stray c r s other longest =>
      refine ⟨by simp, ?_, by simp [other], by simp⟩
      intro fragment
      simp only [Option.some.injEq, Fault.malformed.injEq, true_and, ne_eq, reduceCtorEq,
        not_false_eq_true, List.head?_cons, other]
      exact ⟨fun h => h ▸ longest, longest.unique⟩
  | @unclosed r never => simp [never, eq_comm]

/-- A bracket inside of a body, a line feed and what stands behind a group. -/
theorem scan_partitions_nested :
    Balanced "a=\n[b]".toList ∧
      (scan "[a=\n[b]]x[".toList).Tells "Unexpected characters outside brackets".toList ['x'] ∧
      (scan "[a][b[c]".toList).Tells "Unbalanced bracket".toList "[b[c]".toList := by
  have hstrayGroups : (scan "[a=\n[b]]x[".toList).groups = [⟨"a=\n[b]".toList⟩] := by
    decide +kernel
  have hopenGroups : (scan "[a][b[c]".toList).groups = [⟨['a']⟩] := by decide +kernel
  obtain ⟨rest, htext, hbodies, -, hstray, -⟩ := scan_partitions "[a=\n[b]]x[".toList
  obtain ⟨rest', htext', -, -, -, hopen, -⟩ := scan_partitions "[a][b[c]".toList
  rw [hstrayGroups] at htext hbodies
  rw [hopenGroups] at htext'
  obtain rfl : rest = "x[".toList := List.append_cancel_left htext
  obtain rfl : rest' = "[b[c]".toList := List.append_cancel_left htext'
  refine ⟨(hbodies _ (List.mem_singleton_self _)).2, ?_, ?_⟩
  · exact (hstray _).mpr ⟨by decide, by decide, isLongestWithout_takeWhile '[' "x[".toList⟩
  · have hnever : NeverCloses "[b[c]".toList :=
      neverCloses_iff.mpr (cutBody_eq_none_iff.mp (by decide))
    exact (hopen _).mpr ⟨rfl, hnever, rfl⟩

end UiTree
