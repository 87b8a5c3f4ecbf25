import UiTree.Proofs.Tree.PathOrder

/-!
# UiTree.Proofs.Tree.Preorder -- the walk through a tree

The walk with an explicit stack gives the same list as the recursion that puts each node before its
children. From the recursion one reads off which paths occur, with which labels, and that the paths
ascend.

* **The invariant.** `walkFrom_eq`: what is still to come is, for each pending subtree from the top
  of the stack down, all of its nodes.
* **Main statements.** `walk_eq_entries`, `mem_walk_iff` and `ascending_walk`. `AllLabels` says
  something of every label at once.
-/

namespace UiTree.Tree

variable {α : Type}

/-! ## The stack -/

/-- The children of a node, put on the stack, are what the recursion goes on with. -/
theorem flatMap_pushChildren (p : Path) (ts : List (Tree α)) (stack : List (Path × Tree α)) :
    (pushChildren p ts stack).flatMap (fun e => entries e.1 e.2) =
      entriesFrom p 0 ts ++ stack.flatMap fun e => entries e.1 e.2 := by
  unfold pushChildren
  -- the induction runs over the children, whose indexes go up from any number
  generalize 0 = k
  induction ts generalizing k with
  | nil => rfl
  | cons t ts ih =>
      simp only [List.zipIdx_cons, List.foldr_cons, List.flatMap_cons, entriesFrom, ih (k + 1),
        List.append_assoc]

theorem walkFrom_eq (stack : List (Path × Tree α)) :
    walkFrom stack = stack.flatMap fun e => entries e.1 e.2 := by
  induction stack using walkFrom.induct with
  | case1 => rw [walkFrom, List.flatMap_nil]
  | case2 p a ts rest ih =>
      rw [walkFrom, ih, flatMap_pushChildren, List.flatMap_cons, entries, List.cons_append]

/-- **The walk is the preorder traversal.** -/
theorem walk_eq_entries (t : Tree α) : t.walk = entries [] t := by
  rw [walk, walkFrom_eq, List.flatMap_cons, List.flatMap_nil, List.append_nil]

/-! ## What is met, and where -/

theorem at?_nil (t : Tree α) : at? [] t = some t := by
  cases t
  rfl

theorem at?_cons {i : Nat} {p : Path} {a : α} {ts : List (Tree α)} :
    at? (i :: p) (.node a ts) = ts[i]?.bind (at? p) := by
  rw [at?]
  cases ts[i]? <;> rfl

mutual

theorem mem_entries_iff {p q : Path} {b : α} :
    ∀ {t : Tree α}, (q, b) ∈ entries p t ↔ ∃ r u, q = p ++ r ∧ at? r t = some u ∧ u.label = b
  | .node a ts => by
      rw [entries, List.mem_cons, Prod.mk.injEq, mem_entriesFrom_iff]
      constructor
      · rintro (⟨rfl, rfl⟩ | ⟨j, r, t, u, rfl, hj, hu, hb⟩)
        · exact ⟨[], .node b ts, by rw [List.append_nil], rfl, rfl⟩
        · refine ⟨j :: r, u, by rw [Nat.zero_add], ?_, hb⟩
          rw [at?_cons, hj]
          exact hu
      · rintro ⟨r, u, rfl, hu, hb⟩
        cases r with
        | nil =>
            rw [at?_nil] at hu
            cases hu
            exact Or.inl ⟨List.append_nil p, hb.symm⟩
        | cons j r =>
            rw [at?_cons] at hu
            obtain ⟨t, hj, hu⟩ := Option.bind_eq_some_iff.mp hu
            exact Or.inr ⟨j, r, t, u, by rw [Nat.zero_add], hj, hu, hb⟩

theorem mem_entriesFrom_iff {p q : Path} {b : α} :
    ∀ {ts : List (Tree α)} {i : Nat}, (q, b) ∈ entriesFrom p i ts ↔
      ∃ j r t u, q = p ++ (i + j) :: r ∧ ts[j]? = some t ∧ at? r t = some u ∧ u.label = b
  | [], i => by
      rw [entriesFrom]
      simp only [List.not_mem_nil, List.getElem?_nil, reduceCtorEq, false_and, and_false,
        exists_false]
  | t :: ts, i => by
      rw [entriesFrom, List.mem_append, mem_entries_iff, mem_entriesFrom_iff]
      constructor
      · rintro (⟨r, u, rfl, hu, hb⟩ | ⟨j, r, t', u, rfl, hj, hu, hb⟩)
        · exact ⟨0, r, t, u, by simp, rfl, hu, hb⟩
        · refine ⟨j + 1, r, t', u, by rw [Nat.add_right_comm, Nat.add_assoc], ?_, hu, hb⟩
          simpa using hj
      · rintro ⟨j, r, t', u, rfl, hj, hu, hb⟩
        cases j with
        | zero =>
            cases hj
            exact Or.inl ⟨r, u, by simp, hu, hb⟩
        | succ j =>
            refine Or.inr ⟨j, r, t', u, by rw [Nat.add_right_comm, Nat.add_assoc], ?_, hu, hb⟩
            simpa using hj

end

/-- The walk meets every node once, under its own path. -/
theorem mem_walk_iff {t : Tree α} {p : Path} {a : α} :
    (p, a) ∈ t.walk ↔ ∃ u, at? p t = some u ∧ u.label = a := by
  rw [walk_eq_entries, mem_entries_iff]
  constructor
  · rintro ⟨r, u, rfl, hu, ha⟩
    exact ⟨u, hu, ha⟩
  · rintro ⟨u, hu, ha⟩
    exact ⟨p, u, rfl, hu, ha⟩

theorem mem_map_walk_iff {t : Tree α} {p : Path} :
    p ∈ t.walk.map Prod.fst ↔ (at? p t).isSome = true := by
  rw [List.mem_map]
  constructor
  · rintro ⟨⟨q, a⟩, h, rfl⟩
    obtain ⟨u, hu, -⟩ := mem_walk_iff.mp h
    rw [hu]
    rfl
  · intro h
    obtain ⟨u, hu⟩ := Option.isSome_iff_exists.mp h
    exact ⟨(p, u.label), mem_walk_iff.mpr ⟨u, hu, rfl⟩, rfl⟩

/-! ## Order -/

mutual

theorem ascending_entries (p : Path) :
    ∀ t : Tree α, Path.Ascending ((entries p t).map Prod.fst)
  | .node a ts => by
      rw [entries, List.map_cons, Path.Ascending, List.pairwise_cons]
      refine ⟨?_, ascending_entriesFrom p 0 ts⟩
      -- everything below a node extends its path
      intro q hq
      obtain ⟨⟨q, b⟩, hmem, rfl⟩ := List.mem_map.mp hq
      obtain ⟨j, r, -, -, rfl, -⟩ := mem_entriesFrom_iff.mp hmem
      exact Path.lt_append_cons p (0 + j) r

theorem ascending_entriesFrom (p : Path) :
    ∀ (i : Nat) (ts : List (Tree α)), Path.Ascending ((entriesFrom p i ts).map Prod.fst)
  | _, [] => List.Pairwise.nil
  | i, t :: ts => by
      rw [entriesFrom, List.map_append, Path.Ascending, List.pairwise_append]
      refine ⟨ascending_entries (p ++ [i]) t, ascending_entriesFrom p (i + 1) ts, ?_⟩
      -- all of one subtree comes before all of the next ones
      intro q hq q' hq'
      obtain ⟨⟨q, b⟩, hmem, rfl⟩ := List.mem_map.mp hq
      obtain ⟨⟨q', b'⟩, hmem', rfl⟩ := List.mem_map.mp hq'
      obtain ⟨r, -, rfl, -⟩ := mem_entries_iff.mp hmem
      obtain ⟨j, r', -, -, rfl, -⟩ := mem_entriesFrom_iff.mp hmem'
      rw [List.append_assoc, Path.lt_append_left, List.cons_append, Path.lt_cons_iff]
      exact Or.inl (by omega)

end

/-- **The paths of the walk ascend**, so sorting them changes nothing. -/
theorem ascending_walk (t : Tree α) : Path.Ascending (t.walk.map Prod.fst) := by
  rw [walk_eq_entries]
  exact ascending_entries [] t

/-! ## Labels -/

/-- Does `P` hold of all labels of a tree? -/
def AllLabels (P : α → Prop) (t : Tree α) : Prop := ∀ p u, t.at? p = some u → P u.label

theorem allLabels_node {P : α → Prop} {a : α} {ts : List (Tree α)} :
    AllLabels P (.node a ts) ↔ P a ∧ ∀ t ∈ ts, AllLabels P t := by
  constructor
  · intro h
    refine ⟨h [] _ (at?_nil _), ?_⟩
    intro t ht p u hu
    obtain ⟨i, hi⟩ := List.mem_iff_getElem?.mp ht
    refine h (i :: p) u ?_
    rw [at?_cons, hi]
    exact hu
  · rintro ⟨ha, hts⟩ p u hu
    cases p with
    | nil =>
        rw [at?_nil] at hu
        cases hu
        exact ha
    | cons i p =>
        rw [at?_cons] at hu
        obtain ⟨t, hi, hu⟩ := Option.bind_eq_some_iff.mp hu
        exact hts t (List.mem_of_getElem? hi) p u hu

end UiTree.Tree
