import UiTree.XPath.Evaluate

/-!
# UiTree.Proofs.XPath.Filter -- what predicates keep

A predicate is evaluated at each place with the position that the place has among the others. Two
kinds of predicates are described here: those whose value is a truth value that depends on the place
alone, and numbers.

* **Main statements.** `keepAll_eq`: predicates of the first kind, one after the other, keep the
  places at which all of them are true. `keepWith_number`: a number keeps the place at its position.
-/

namespace UiTree.XPath

theorem mapM_eq_map {α β : Type} {f : α → Option β} {g : α → β} {l : List α}
    (h : ∀ a ∈ l, f a = some (g a)) : l.mapM f = some (l.map g) := by
  induction l with
  | nil => rfl
  | cons a l ih =>
      rw [List.mapM_cons, h a List.mem_cons_self, ih fun b hb => h b (List.mem_cons_of_mem a hb)]
      rfl

/-- When each test has a value, the places with a value that keeps them stay. -/
theorem keepWith_eq {test : Focus → Option Value} {ps : List Place} {v : Place × Nat → Value}
    (h : ∀ e ∈ ps.zipIdx, test ⟨e.1, some (e.2 + 1, ps.length)⟩ = some (v e)) :
    keepWith test ps =
      some ((ps.zipIdx.filter fun e => keeps (e.2 + 1) (v e)).map Prod.fst) := by
  have hmarked := mapM_eq_map (g := fun e : Place × Nat => (e.1, keeps (e.2 + 1) (v e)))
    (f := fun e : Place × Nat => (test ⟨e.1, some (e.2 + 1, ps.length)⟩).map fun w =>
      (e.1, keeps (e.2 + 1) w)) (l := ps.zipIdx) (by
        intro e he
        rw [h e he, Option.map_some])
  rw [keepWith]
  simp only [hmarked, Option.bind_eq_bind, Option.bind_some, List.filter_map, List.map_map]
  rfl

theorem map_fst_filter_zipIdx {α : Type} (b : α → Bool) (l : List α) (n : Nat) :
    ((l.zipIdx n).filter fun e => b e.1).map Prod.fst = l.filter b := by
  induction l generalizing n with
  | nil => rfl
  | cons a l ih =>
      rw [List.zipIdx_cons, List.filter_cons, List.filter_cons]
      split
      · rw [List.map_cons, ih]
      · exact ih (n + 1)

/-- A test that is true or false of a place, wherever it stands, keeps the places where it is
true. -/
theorem keepWith_truth {test : Focus → Option Value} {ps : List Place} {b : Place → Bool}
    (h : ∀ p ∈ ps, ∀ position, test ⟨p, position⟩ = some (.truth (b p))) :
    keepWith test ps = some (ps.filter b) := by
  have hvalue : ∀ e ∈ ps.zipIdx,
      test ⟨e.1, some (e.2 + 1, ps.length)⟩ = some (.truth (b e.1)) := by
    intro e he
    exact h e.1 (List.fst_mem_of_mem_zipIdx he) _
  rw [keepWith_eq hvalue]
  exact congrArg some (map_fst_filter_zipIdx b ps 0)

/-- Several such predicates keep the places where all of them are true. -/
theorem keepAll_eq {ε : Type} {s : Site} {expr : ε → Expr} {b : ε → Place → Bool} {xs : List ε}
    {ps : List Place}
    (h : ∀ x ∈ xs, ∀ p ∈ ps, ∀ position,
      evaluate s ⟨p, position⟩ (expr x) = some (.truth (b x p))) :
    keepAll s (xs.map expr) ps = some (ps.filter fun p => xs.all fun x => b x p) := by
  induction xs generalizing ps with
  | nil =>
      rw [List.map_nil, keepAll, List.filter_eq_self.mpr]
      exact fun p _ => rfl
  | cons x xs ih =>
      have hx : keepWith (fun g => evaluate s g (expr x)) ps = some (ps.filter (b x)) :=
        keepWith_truth fun p hp position => h x List.mem_cons_self p hp position
      -- what the first test keeps is what the others are asked about
      rw [List.map_cons, keepAll, hx]
      simp only [Option.bind_eq_bind, Option.bind_some]
      rw [ih, List.filter_filter]
      · simp only [List.all_cons, Bool.and_comm]
      · intro y hy p hp position
        exact h y (List.mem_cons_of_mem x hy) p (List.mem_filter.mp hp).1 position

/-! ## Positions -/

theorem map_fst_filter_index {α : Type} (l : List α) (n k : Nat) :
    ((l.zipIdx n).filter fun e => decide (e.2 = n + k)).map Prod.fst = (l.drop k).take 1 := by
  induction l generalizing n k with
  | nil => simp
  | cons a l ih =>
      rw [List.zipIdx_cons, List.filter_cons]
      cases k with
      | zero =>
          -- what stands behind has greater indexes
          have hrest : (l.zipIdx (n + 1)).filter (fun e => decide (e.2 = n + 0)) = [] := by
            rw [List.filter_eq_nil_iff]
            intro e he
            have := List.le_snd_of_mem_zipIdx he
            simp only [decide_eq_true_eq]
            omega
          rw [if_pos (by simp), hrest]
          rfl
      | succ k =>
          rw [if_neg (by simp), List.drop_succ_cons, ← ih (n + 1) k, Nat.add_right_comm,
            Nat.add_assoc]

/-- **A number keeps the place at its position**, as long as it can be told from all others. -/
theorem keepWith_number {x : Binary64} {ps : List Place} {k : Nat}
    (h : ∀ i, i < ps.length → x.eqv (.ofNat (i + 1)) = decide (i = k)) :
    keepWith (fun _ => some (.number x)) ps = some ((ps.drop k).take 1) := by
  rw [keepWith_eq (v := fun _ => .number x) (fun _ _ => rfl), ← map_fst_filter_index ps 0 k]
  congr 2
  apply List.filter_congr
  intro e he
  have hlt := List.snd_lt_of_mem_zipIdx he
  rw [keeps, h e.2 (by simpa using hlt), Nat.zero_add]

end UiTree.XPath
