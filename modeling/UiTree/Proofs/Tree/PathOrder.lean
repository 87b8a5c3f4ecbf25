import UiTree.Tree

/-!
# UiTree.Proofs.Tree.PathOrder -- paths in lexicographic order

`Path.lt` is a strict total order in which a path comes before all its extensions. Every list of
nodes that this library gives is ascending in it, and an ascending list is determined by its
members: that is how two ways of finding nodes are shown to give the same list.

* **Main statements.** `lt_irrefl`, `lt_trans` and `lt_or_eq_or_gt`: the order is strict and total.
  `lt_iff`: it is the lexicographic order that lists of numbers have anyway.
  `Ascending.ext`: ascending lists with the same members are equal. `Ascending.mergeSort`: sorting
  an ascending list changes nothing.
-/

namespace UiTree.Path

/-! ## A strict total order -/

theorem lt_irrefl (p : Path) : lt p p = false := by
  induction p with
  | nil => rfl
  | cons i p ih => simp only [lt, ih, Nat.lt_irrefl, decide_false, Bool.and_false, Bool.or_false]

theorem lt_cons_iff {i j : Nat} {p q : Path} :
    lt (i :: p) (j :: q) = true ↔ i < j ∨ i = j ∧ lt p q = true := by
  simp only [lt, Bool.or_eq_true, decide_eq_true_eq, Bool.and_eq_true, beq_iff_eq]

theorem lt_trans {p q r : Path} (hpq : lt p q = true) (hqr : lt q r = true) : lt p r = true := by
  induction p generalizing q r with
  | nil =>
      cases r with
      | nil => cases q <;> simp [lt] at hqr
      | cons k r => rfl
  | cons i p ih =>
      cases q with
      | nil => simp [lt] at hpq
      | cons j q =>
          cases r with
          | nil => simp [lt] at hqr
          | cons k r =>
              rw [lt_cons_iff] at hpq hqr ⊢
              -- the first index that grows on either side decides
              rcases hpq with hij | ⟨rfl, hpq⟩
              · rcases hqr with hjk | ⟨rfl, -⟩
                · exact Or.inl (Nat.lt_trans hij hjk)
                · exact Or.inl hij
              · rcases hqr with hjk | ⟨rfl, hqr⟩
                · exact Or.inl hjk
                · exact Or.inr ⟨rfl, ih hpq hqr⟩

theorem lt_or_eq_or_gt (p q : Path) : lt p q = true ∨ p = q ∨ lt q p = true := by
  induction p generalizing q with
  | nil =>
      cases q with
      | nil => exact Or.inr (Or.inl rfl)
      | cons j q => exact Or.inl rfl
  | cons i p ih =>
      cases q with
      | nil => exact Or.inr (Or.inr rfl)
      | cons j q =>
          rw [lt_cons_iff, lt_cons_iff, List.cons.injEq]
          rcases Nat.lt_trichotomy i j with hij | rfl | hij
          · exact Or.inl (Or.inl hij)
          · rcases ih q with h | rfl | h
            · exact Or.inl (Or.inr ⟨rfl, h⟩)
            · exact Or.inr (Or.inl ⟨rfl, rfl⟩)
            · exact Or.inr (Or.inr (Or.inr ⟨rfl, h⟩))
          · exact Or.inr (Or.inr (Or.inl hij))

theorem lt_asymm {p q : Path} (h : lt p q = true) : lt q p = false := by
  cases hqp : lt q p with
  | false => rfl
  | true => rw [← lt_irrefl p, lt_trans h hqp]

theorem lt_ne {p q : Path} (h : lt p q = true) : p ≠ q := by
  rintro rfl
  rw [lt_irrefl] at h
  cases h

/-- The order is that of lists of numbers. -/
theorem lt_iff {p q : Path} : lt p q = true ↔ p < q := by
  induction p generalizing q with
  | nil =>
      cases q with
      | nil => simp [lt]
      | cons j q => simp [lt]
  | cons i p ih =>
      cases q with
      | nil => simp [lt]
      | cons j q => rw [lt_cons_iff, List.cons_lt_cons_iff, ih]

/-! ## Extensions -/

theorem lt_append_left (p q r : Path) : lt (p ++ q) (p ++ r) = lt q r := by
  induction p with
  | nil => rfl
  | cons i p ih =>
      simp only [List.cons_append, lt, ih, Nat.lt_irrefl, decide_false, Bool.false_or,
        beq_self_eq_true, Bool.true_and]

theorem lt_append_cons (p : Path) (i : Nat) (q : Path) : lt p (p ++ i :: q) = true := by
  have h := lt_append_left p [] (i :: q)
  rwa [List.append_nil] at h

/-- What lies below a node is what extends its path. -/
theorem isBelow_iff {p q : Path} : isBelow p q = true ↔ ∃ i r, p = q ++ i :: r := by
  simp only [isBelow, Bool.and_eq_true, decide_eq_true_eq, beq_iff_eq]
  constructor
  · rintro ⟨hlen, htake⟩
    cases hdrop : p.drop q.length with
    | nil =>
        have := List.drop_eq_nil_iff.mp hdrop
        omega
    | cons i r =>
        refine ⟨i, r, ?_⟩
        rw [← hdrop, ← htake, List.length_take_of_le (by omega), List.take_append_drop]
  · rintro ⟨i, r, rfl⟩
    refine ⟨?_, List.take_left⟩
    rw [List.length_append, List.length_cons]
    omega

/-! ## Ascending lists -/

/-- Each path comes before all that stand behind it. -/
def Ascending (ps : List Path) : Prop := ps.Pairwise fun p q => lt p q = true

theorem Ascending.nodup {ps : List Path} (h : Ascending ps) : ps.Nodup :=
  List.Pairwise.imp lt_ne h

/-- **An ascending list is determined by its members.** -/
theorem Ascending.ext {ps qs : List Path} (hp : Ascending ps) (hq : Ascending qs)
    (hmem : ∀ p, p ∈ ps ↔ p ∈ qs) : ps = qs := by
  -- without repetitions, the same members make one list a permutation of the other
  have hperm : ps.Perm qs := (List.perm_ext_iff_of_nodup hp.nodup hq.nodup).mpr hmem
  refine List.Perm.eq_of_pairwise ?_ hp hq hperm
  intro p q _ _ hpq hqp
  rw [lt_asymm hpq] at hqp
  cases hqp

theorem Ascending.mergeSort {ps : List Path} (h : Ascending ps) : ps.mergeSort le = ps := by
  apply List.mergeSort_of_pairwise
  refine List.Pairwise.imp ?_ h
  intro p q hpq
  rw [le, hpq, Bool.or_true]

theorem Ascending.sublist {ps qs : List Path} (h : Ascending qs) (hsub : ps.Sublist qs) :
    Ascending ps := List.Pairwise.sublist hsub h

theorem Ascending.filter {ps : List Path} (h : Ascending ps) (f : Path → Bool) :
    Ascending (ps.filter f) := List.Pairwise.filter f h

end UiTree.Path
