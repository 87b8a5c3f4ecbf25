import UiTree.Proofs.Tree.PathOrder
import UiTree.XPath.Place

/-!
# UiTree.Proofs.XPath.PlaceOrder -- places in document order

Document order is a total order on places. `Place.ordered` sorts and takes repetitions out, so that
what it gives is **ascending**: strictly increasing in document order, hence without repetitions.

* **Main statements.** `mem_ordered_iff` and `ascending_ordered` say what `Place.ordered` keeps and
  how; `ordered_of_ascending` says when it has nothing to do.
-/

namespace UiTree.XPath

/-! ## Runs of equal elements -/

section Runs

variable {α : Type} [BEq α]

theorem eraseRepsBy_loop (a : α) (as acc : List α) :
    List.eraseRepsBy.loop (fun x y : α => x == y) a as acc =
      acc.reverse ++ List.eraseRepsBy.loop (fun x y : α => x == y) a as [] := by
  induction as generalizing a acc with
  | nil => simp only [List.eraseRepsBy.loop, List.reverse_cons, List.reverse_nil, List.nil_append]
  | cons b as ih =>
      simp only [List.eraseRepsBy.loop]
      split
      · exact ih a acc
      · rw [ih b (a :: acc), ih b [a], List.reverse_cons, List.reverse_cons, List.reverse_nil,
          List.nil_append, List.append_assoc]

variable [LawfulBEq α]

theorem eraseReps_cons_self (a : α) (as : List α) :
    (a :: a :: as).eraseReps = (a :: as).eraseReps := by
  simp only [List.eraseReps, List.eraseRepsBy, List.eraseRepsBy.loop, beq_self_eq_true]

theorem eraseReps_cons_of_ne {a b : α} (h : a ≠ b) (as : List α) :
    (a :: b :: as).eraseReps = a :: (b :: as).eraseReps := by
  simp only [List.eraseReps, List.eraseRepsBy, List.eraseRepsBy.loop, beq_false_of_ne h]
  rw [eraseRepsBy_loop]
  rfl

theorem mem_eraseReps_iff {x : α} : ∀ {l : List α}, x ∈ l.eraseReps ↔ x ∈ l
  | [] => Iff.rfl
  | [a] => Iff.rfl
  | a :: b :: as => by
      by_cases h : a = b
      · subst h
        rw [eraseReps_cons_self, mem_eraseReps_iff (l := a :: as)]
        simp only [List.mem_cons, or_self_left]
      · rw [eraseReps_cons_of_ne h, List.mem_cons, mem_eraseReps_iff (l := b :: as),
          List.mem_cons (b := a)]

/-- Of a sorted list each element stays once. -/
theorem pairwise_eraseReps {r : α → α → Prop} (hanti : ∀ a b, r a b → r b a → a = b) :
    ∀ {l : List α}, l.Pairwise r → l.eraseReps.Pairwise fun a b => r a b ∧ a ≠ b
  | [], _ => List.Pairwise.nil
  | [a], _ => List.pairwise_singleton _ a
  | a :: b :: as, h => by
      by_cases hab : a = b
      · subst hab
        rw [eraseReps_cons_self]
        exact pairwise_eraseReps hanti h.tail
      · rw [eraseReps_cons_of_ne hab, List.pairwise_cons]
        refine ⟨?_, pairwise_eraseReps hanti h.tail⟩
        intro x hx
        have hx : x ∈ b :: as := mem_eraseReps_iff.mp hx
        have hrx : r a x := List.rel_of_pairwise_cons h hx
        refine ⟨hrx, ?_⟩
        -- if the first element came again, all between would be equal to it
        rintro rfl
        rcases List.mem_cons.mp hx with rfl | hx
        · exact hab rfl
        · exact hab (hanti a b (List.rel_of_pairwise_cons h (by simp))
            (List.rel_of_pairwise_cons h.tail hx))

theorem eraseReps_of_nodup : ∀ {l : List α}, l.Nodup → l.eraseReps = l
  | [], _ => rfl
  | [a], _ => rfl
  | a :: b :: as, h => by
      have hab : a ≠ b := by
        rintro rfl
        exact (List.nodup_cons.mp h).1 List.mem_cons_self
      rw [eraseReps_cons_of_ne hab, eraseReps_of_nodup (List.nodup_cons.mp h).2]

end Runs

/-! ## Document order -/

namespace Part

theorem le_total (a b : Part) : le a b = true ∨ le b a = true := by
  cases a <;> cases b <;> simp [le] <;> omega

theorem le_trans {a b c : Part} (hab : le a b = true) (hbc : le b c = true) : le a c = true := by
  cases a <;> cases b <;> cases c <;> simp_all [le] <;> omega

theorem le_antisymm {a b : Part} (hab : le a b = true) (hba : le b a = true) : a = b := by
  cases a <;> cases b <;> simp_all [le] <;> omega

end Part

namespace Place

theorem le_iff {a b : Place} :
    le a b = true ↔ Path.lt a.trail b.trail = true ∨
      a.trail = b.trail ∧ Part.le a.part b.part = true := by
  simp only [le, Bool.or_eq_true, Bool.and_eq_true, beq_iff_eq]

theorem le_total (a b : Place) : le a b = true ∨ le b a = true := by
  rw [le_iff, le_iff]
  rcases Path.lt_or_eq_or_gt a.trail b.trail with h | h | h
  · exact Or.inl (Or.inl h)
  · rcases Part.le_total a.part b.part with hp | hp
    · exact Or.inl (Or.inr ⟨h, hp⟩)
    · exact Or.inr (Or.inr ⟨h.symm, hp⟩)
  · exact Or.inr (Or.inl h)

theorem le_trans {a b c : Place} (hab : le a b = true) (hbc : le b c = true) : le a c = true := by
  rw [le_iff] at hab hbc ⊢
  rcases hab with hab | ⟨hab, hpab⟩
  · rcases hbc with hbc | ⟨hbc, -⟩
    · exact Or.inl (Path.lt_trans hab hbc)
    · exact Or.inl (hbc ▸ hab)
  · rcases hbc with hbc | ⟨hbc, hpbc⟩
    · exact Or.inl (hab ▸ hbc)
    · exact Or.inr ⟨hab.trans hbc, Part.le_trans hpab hpbc⟩

theorem le_antisymm {a b : Place} (hab : le a b = true) (hba : le b a = true) : a = b := by
  rw [le_iff] at hab hba
  obtain ⟨t, p⟩ := a
  obtain ⟨u, q⟩ := b
  rcases hab with hab | ⟨rfl, hpab⟩
  · rcases hba with hba | ⟨rfl, -⟩
    · rw [Path.lt_asymm hab] at hba
      cases hba
    · rw [Path.lt_irrefl] at hab
      cases hab
  · rcases hba with hba | ⟨-, hpba⟩
    · rw [Path.lt_irrefl] at hba
      cases hba
    · have hpart : p = q := Part.le_antisymm hpab hpba
      rw [hpart]

/-- Each place comes before all that stand behind it. -/
def Ascending (ps : List Place) : Prop := ps.Pairwise fun a b => le a b = true ∧ a ≠ b

theorem Ascending.sublist {ps qs : List Place} (h : Ascending qs) (hsub : ps.Sublist qs) :
    Ascending ps := List.Pairwise.sublist hsub h

theorem ascending_ordered (ps : List Place) : Ascending (ordered ps) := by
  refine pairwise_eraseReps (r := fun a b => le a b = true) (fun a b => le_antisymm) ?_
  refine List.pairwise_mergeSort (fun a b c => @le_trans a b c) ?_ ps
  intro a b
  simpa only [Bool.or_eq_true] using le_total a b

theorem mem_ordered_iff {p : Place} {ps : List Place} : p ∈ ordered ps ↔ p ∈ ps := by
  rw [ordered, mem_eraseReps_iff, List.mem_mergeSort]

/-- What is ascending already stays as it is. -/
theorem ordered_of_ascending {ps : List Place} (h : Ascending ps) : ordered ps = ps := by
  have hle : ps.Pairwise fun a b => le a b = true := List.Pairwise.imp And.left h
  have hne : ps.Nodup := List.Pairwise.imp And.right h
  rw [ordered, List.mergeSort_of_pairwise hle, eraseReps_of_nodup hne]

end Place

end UiTree.XPath
