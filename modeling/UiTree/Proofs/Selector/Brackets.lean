import UiTree.Selector.Group

/-!
# UiTree.Proofs.Selector.Brackets -- which texts are rows of bracket groups

The scanner finds the end of a group by counting brackets. This module says what it finds without
speaking of the counter: a text is a row of groups with **balanced bodies**, and there is at most
one way to read it so.

* **The invariant.** `NeverBelow d t`: read from depth `d`, the text never closes more groups than
  are open. It can be followed character by character (`neverBelow_cons`), which `Balanced` cannot.
* **Main statements.** `cutBody_eq_some_iff` says where the body of a group ends.
  `scan_eq_iff`: the scanner ends without a fault exactly on rows of groups with balanced bodies,
  and it gives these groups.
-/

namespace UiTree

/-! ## Depth -/

/-- From depth `d` on, no start of the text leads below zero. -/
def NeverBelow (d : Int) (t : Text) : Prop := ∀ s, s <+: t → 0 ≤ d + depth s

theorem neverBelow_nil {d : Int} : NeverBelow d [] ↔ 0 ≤ d := by
  constructor
  · intro h
    simpa [depth] using h [] (List.prefix_refl [])
  · intro h s hs
    rw [List.prefix_nil.mp hs]
    simpa [depth] using h

/-- One character is followed by what it does to the depth. -/
theorem neverBelow_cons {d : Int} {c : Char} {t : Text} :
    NeverBelow d (c :: t) ↔ 0 ≤ d ∧ NeverBelow (d + bracketStep c) t := by
  constructor
  · intro h
    have hd : 0 ≤ d := by simpa [depth] using h [] List.nil_prefix
    refine ⟨hd, ?_⟩
    intro s hs
    have := h (c :: s) (List.cons_prefix_cons.mpr ⟨rfl, hs⟩)
    simp only [depth] at this
    omega
  · rintro ⟨hd, h⟩ s hs
    rcases List.prefix_cons_iff.mp hs with rfl | ⟨u, rfl, hu⟩
    · simpa [depth] using hd
    · have := h u hu
      simp only [depth]
      omega

theorem neverBelow_nonneg {d : Int} {t : Text} (h : NeverBelow d t) : 0 ≤ d := by
  simpa [depth] using h [] List.nil_prefix

theorem balanced_iff {t : Text} : Balanced t ↔ NeverBelow 0 t ∧ depth t = 0 := by
  simp only [Balanced, NeverBelow, Int.zero_add]

theorem bracketStep_eq_zero {c : Char} (ho : c ≠ '[') (hc : c ≠ ']') : bracketStep c = 0 := by
  unfold bracketStep
  split <;> simp_all

/-- A start without brackets does not matter for the balance. -/
theorem balanced_append_iff {s t : Text} (ho : '[' ∉ s) (hc : ']' ∉ s) :
    Balanced (s ++ t) ↔ Balanced t := by
  induction s with
  | nil => rfl
  | cons c s ih =>
      simp only [List.mem_cons, not_or] at ho hc
      have hstep : bracketStep c = 0 := bracketStep_eq_zero (Ne.symm ho.1) (Ne.symm hc.1)
      rw [← ih ho.2 hc.2, balanced_iff, balanced_iff, List.cons_append, neverBelow_cons]
      simp only [depth, hstep, Int.zero_add, Int.le_refl, true_and]

/-! ## The end of a body -/

/-- The text is a body, read from depth `d` on, with the bracket that closes it and a rest. -/
def Closes (d : Int) (t body rest : Text) : Prop :=
  t = body ++ ']' :: rest ∧ NeverBelow d body ∧ d + depth body = 0

theorem closes_close {t body rest : Text} :
    Closes 0 (']' :: t) body rest ↔ body = [] ∧ rest = t := by
  constructor
  · rintro ⟨ht, hn, -⟩
    cases body with
    | nil => exact ⟨rfl, (List.cons.inj ht).2.symm⟩
    | cons b body =>
        obtain ⟨rfl, -⟩ := List.cons.inj ht
        have := neverBelow_nonneg (neverBelow_cons.mp hn).2
        simp [bracketStep] at this
  · rintro ⟨rfl, rfl⟩
    exact ⟨rfl, neverBelow_nil.mpr (Int.le_refl 0), rfl⟩

/-- Any other first character belongs to the body. -/
theorem closes_cons {d : Int} {c : Char} {t body rest : Text} (hd : 0 ≤ d)
    (hc : c = ']' → d ≠ 0) :
    Closes d (c :: t) body rest ↔ ∃ b, body = c :: b ∧ Closes (d + bracketStep c) t b rest := by
  constructor
  · rintro ⟨ht, hn, hz⟩
    cases body with
    | nil =>
        obtain ⟨rfl, -⟩ := List.cons.inj ht
        simp only [depth] at hz
        exact absurd (by omega) (hc rfl)
    | cons b body =>
        obtain ⟨rfl, ht'⟩ := List.cons.inj ht
        simp only [depth] at hz
        exact ⟨body, rfl, ht', (neverBelow_cons.mp hn).2, by omega⟩
  · rintro ⟨b, rfl, ht, hn, hz⟩
    refine ⟨by rw [ht, List.cons_append], neverBelow_cons.mpr ⟨hd, hn⟩, ?_⟩
    simp only [depth]
    omega

theorem map_cons_eq_some_iff {r : Option (Text × Text)} {c : Char} {body rest : Text} :
    (r.map fun (b, r) => (c :: b, r)) = some (body, rest) ↔
      ∃ b, body = c :: b ∧ r = some (b, rest) := by
  cases r with
  | none => simp
  | some p =>
      simp only [Option.map_some, Option.some.injEq, Prod.ext_iff]
      constructor
      · rintro ⟨rfl, rfl⟩
        exact ⟨p.1, rfl, rfl, rfl⟩
      · rintro ⟨b, rfl, rfl, rfl⟩
        exact ⟨rfl, rfl⟩

/-- **Where a body ends.** With `d` groups open inside, the body is what leads to depth zero without
ever going below, and the bracket after it closes the group itself. -/
theorem cutBody_eq_some_iff {d : Nat} {t body rest : Text} :
    cutBody d t = some (body, rest) ↔ Closes d t body rest := by
  induction t generalizing d body with
  | nil => simp [cutBody, Closes]
  | cons c t ih =>
      by_cases ho : c = '['
      · subst ho
        rw [closes_cons (Int.natCast_nonneg d) (fun h => absurd h (by decide))]
        simp only [cutBody, if_true, map_cons_eq_some_iff, ih, bracketStep, Int.natCast_succ]
      · by_cases hc : c = ']'
        · subst hc
          cases d with
          | zero =>
              -- this is the bracket that was looked for
              rw [Int.natCast_zero, closes_close]
              simp [cutBody, eq_comm]
          | succ d =>
              have hd : ((d + 1 : Nat) : Int) + bracketStep ']' = d := by
                simp only [bracketStep]
                omega
              rw [closes_cons (Int.natCast_nonneg _) (fun _ => by omega), hd]
              simp only [cutBody, if_neg ho, if_true, map_cons_eq_some_iff, ih]
        · have hd : (d : Int) + bracketStep c = d := by
            rw [bracketStep_eq_zero ho hc, Int.add_zero]
          rw [closes_cons (Int.natCast_nonneg d) (fun h => absurd h hc), hd]
          simp only [cutBody, if_neg ho, if_neg hc, map_cons_eq_some_iff, ih]

theorem cutBody_append {g : Group} (h : Balanced g.body) (t : Text) :
    cutBody 0 (g.body ++ ']' :: t) = some (g.body, t) := by
  obtain ⟨hn, hz⟩ := balanced_iff.mp h
  exact cutBody_eq_some_iff.mpr ⟨rfl, hn, by simpa using hz⟩

/-! ## Rows of groups -/

theorem Group.text_append (g : Group) (t : Text) :
    g.text ++ t = '[' :: (g.body ++ ']' :: t) := by
  simp [Group.text]

/-- What follows an opening bracket is a body and a rest, which is scanned in turn. -/
theorem scan_of_cutBody {t body after : Text} (h : cutBody 0 t = some (body, after)) :
    scan ('[' :: t) = ⟨⟨body⟩ :: (scan after).groups, (scan after).fault⟩ := by
  rw [scan]
  split
  · next body' after' h' =>
    rw [h] at h'
    cases h'
    rfl
  · next h' =>
    rw [h] at h'
    cases h'

/-- A group that is never closed stops the scanner. -/
theorem scan_of_open {t : Text} (h : cutBody 0 t = none) :
    scan ('[' :: t) = ⟨[], some (.malformed .unbalanced (some ('[' :: t)))⟩ := by
  rw [scan]
  split
  · next h' =>
    rw [h] at h'
    cases h'
  · rfl

/-- Anything but an opening bracket stops the scanner, and is told up to the next one. -/
theorem scan_of_stray {c : Char} {t : Text} (h : c ≠ '[') :
    scan (c :: t) =
      ⟨[], some (.malformed .strayText (some ((c :: t).takeWhile fun d => d != '[')))⟩ := by
  rw [scan]
  rintro rfl
  exact h rfl

/-- A group at the start of a text is read off. -/
theorem scan_append {g : Group} (h : Balanced g.body) (t : Text) :
    scan (g.text ++ t) = ⟨g :: (scan t).groups, (scan t).fault⟩ := by
  rw [Group.text_append, scan_of_cutBody (cutBody_append h t)]

/-- A scan without a fault gives the groups that the text is made of. -/
theorem eq_flatMap_of_scan {t : Text} {gs : List Group} (h : scan t = ⟨gs, none⟩) :
    t = gs.flatMap Group.text ∧ ∀ g ∈ gs, Balanced g.body := by
  induction t using scan.induct generalizing gs with
  | case1 =>
      rw [scan] at h
      cases h
      simp
  | case2 rest body after hb ih =>
      rw [scan_of_cutBody hb] at h
      cases gs with
      | nil => simp at h
      | cons g gs =>
          simp only [Scan.mk.injEq, List.cons.injEq] at h
          obtain ⟨⟨rfl, hgs⟩, hf⟩ := h
          have hscan : scan after = ⟨gs, none⟩ := by rw [← hgs, ← hf]
          obtain ⟨ht, hall⟩ := ih hscan
          obtain ⟨hrest, hn, hz⟩ := cutBody_eq_some_iff.mp hb
          have hbody : Balanced body := balanced_iff.mpr ⟨hn, by simpa using hz⟩
          refine ⟨?_, by simpa using ⟨hbody, hall⟩⟩
          rw [List.flatMap_cons, ← ht, Group.text_append, hrest]
  | case3 rest hb =>
      rw [scan_of_open hb] at h
      cases h
  | case4 c rest hc =>
      rw [scan_of_stray hc] at h
      cases h

/-- **The scanner reads rows of groups and nothing else.** -/
theorem scan_eq_iff {t : Text} {gs : List Group} :
    scan t = ⟨gs, none⟩ ↔ t = gs.flatMap Group.text ∧ ∀ g ∈ gs, Balanced g.body := by
  constructor
  · intro h
    exact eq_flatMap_of_scan h
  · rintro ⟨rfl, hall⟩
    induction gs with
    | nil => rw [List.flatMap_nil, scan]
    | cons g gs ih =>
        rw [List.flatMap_cons, scan_append (hall g (by simp)),
          ih fun g' hg' => hall g' (List.mem_cons_of_mem g hg')]

end UiTree
