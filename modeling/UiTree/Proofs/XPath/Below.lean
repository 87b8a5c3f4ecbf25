import UiTree.Proofs.XPath.Filter
import UiTree.Proofs.XPath.PlaceOrder
import UiTree.Proofs.XPath.Trail

/-!
# UiTree.Proofs.XPath.Below -- all elements below a node

The steps that `//*` stands for take everything at or below a node, and the elements directly inside
that. Together they reach every element that is properly below the node, and nothing else.

* **Nodes below.** `HasNode ns t` says that a trail leads from a row of nodes to one of the nodes in
  it or inside of it; `mem_descendants_iff` says that `Site.descendants` lists these.
* **Main statement.** `evaluate_below`: the value of the two steps, with predicates that depend on
  the start tag of an element alone.
-/

namespace UiTree.XPath

/-! ## The nodes below a node -/

/-- Does a trail lead to a node, from a row of nodes on? -/
def HasNode : List Xml.Node → Path → Prop
  | _, [] => True
  | ns, i :: t => ∃ n, ns[i]? = some n ∧ HasNode (contentOf n) t

theorem not_hasNode_nil {i : Nat} {t : Path} : ¬ HasNode [] (i :: t) := by
  rintro ⟨n, hn, -⟩
  cases hn

mutual

theorem mem_trailsOf_iff (t u : Path) :
    ∀ n : Xml.Node, u ∈ trailsOf t n ↔ ∃ r, u = t ++ r ∧ HasNode (contentOf n) r
  | .element o ns => by
      rw [trailsOf, List.mem_cons, mem_trailsFrom_iff t u 0 ns]
      constructor
      · rintro (rfl | ⟨i, r, rfl, h⟩)
        · exact ⟨[], (List.append_nil _).symm, trivial⟩
        · exact ⟨i :: r, by rw [Nat.zero_add], h⟩
      · rintro ⟨r, rfl, h⟩
        cases r with
        | nil => exact Or.inl (List.append_nil _)
        | cons i r => exact Or.inr ⟨i, r, by rw [Nat.zero_add], h⟩
  | .text _ | .comment _ | .instruction _ _ | .reference _ => by
      show u ∈ [t] ↔ _
      rw [List.mem_singleton]
      constructor
      · rintro rfl
        exact ⟨[], (List.append_nil _).symm, trivial⟩
      · rintro ⟨r, rfl, h⟩
        cases r with
        | nil => exact List.append_nil _
        | cons i r => exact absurd h not_hasNode_nil

theorem mem_trailsFrom_iff (t u : Path) (k : Nat) :
    ∀ ns : List Xml.Node,
      u ∈ trailsFrom t k ns ↔ ∃ i r, u = t ++ (k + i) :: r ∧ HasNode ns (i :: r)
  | [] => by
      rw [trailsFrom]
      constructor
      · intro h
        cases h
      · rintro ⟨i, r, -, h⟩
        exact absurd h not_hasNode_nil
  | n :: ns => by
      rw [trailsFrom, List.mem_append, mem_trailsOf_iff (t ++ [k]) u n,
        mem_trailsFrom_iff t u (k + 1) ns]
      constructor
      · rintro (⟨r, rfl, h⟩ | ⟨i, r, rfl, m, hm, h⟩)
        · exact ⟨0, r, by simp, n, rfl, h⟩
        · exact ⟨i + 1, r, by rw [Nat.add_assoc, Nat.add_comm 1], m, hm, h⟩
      · rintro ⟨i, r, rfl, m, hm, h⟩
        cases i with
        | zero =>
            cases hm
            exact Or.inl ⟨r, by simp, h⟩
        | succ i => exact Or.inr ⟨i, r, by rw [Nat.add_assoc, Nat.add_comm 1], m, hm, h⟩

end

/-- A node with something inside is there. -/
theorem hasNode_of_content {ns : List Xml.Node} {t : Path} (h : contentAt ns t ≠ []) :
    HasNode ns t := by
  induction t generalizing ns with
  | nil => exact trivial
  | cons i t ih =>
      cases hn : ns[i]? with
      | none =>
          rw [contentAt, hn] at h
          exact absurd rfl h
      | some n =>
          rw [contentAt_cons hn] at h
          exact ⟨n, hn, ih h⟩

namespace Site

variable {s : Site}

theorem mem_descendants_iff {t u : Path} :
    u ∈ s.descendants t ↔ ∃ r, r ≠ [] ∧ u = t ++ r ∧ HasNode (s.content t) r := by
  rw [descendants, mem_trailsFrom_iff]
  constructor
  · rintro ⟨i, r, rfl, h⟩
    exact ⟨i :: r, List.cons_ne_nil _ _, by rw [Nat.zero_add], h⟩
  · rintro ⟨r, hr, rfl, h⟩
    cases r with
    | nil => exact absurd rfl hr
    | cons i r => exact ⟨i, r, by rw [Nat.zero_add], h⟩

/-- What has something inside is not a reference. -/
theorem hasKind_any_of_content {t : Path} (h : s.content t ≠ []) :
    s.hasKind .any (.node t) = true := by
  rcases List.eq_nil_or_concat t with rfl | ⟨t, i, rfl⟩
  · rfl
  · rw [List.concat_eq_append] at h ⊢
    simp only [hasKind, Place.node, node?_concat]
    cases hn : (contentAt s.nodes t)[i]? with
    | none => rfl
    | some n =>
        cases n with
        | reference e =>
            rw [content, contentAt_append, contentAt, hn] at h
            exact absurd (contentAt_nil_left []) h
        | _ => rfl

/-- **Every element below a node is directly inside of a node at or below it.** -/
theorem exists_parent {t r : Path} {o : Xml.Opening} (hr : r ≠ [])
    (ho : s.opening? (t ++ r) = some o) :
    ∃ u ∈ t :: s.descendants t, s.hasKind .any (.node u) = true ∧
      ∃ i, i < (s.content u).length ∧ t ++ r = u ++ [i] := by
  rcases List.eq_nil_or_concat r with rfl | ⟨r, i, rfl⟩
  · exact absurd rfl hr
  · -- the parent is where the last index is cut off
    rw [List.concat_eq_append, ← List.append_assoc] at ho ⊢
    obtain ⟨inner, hi⟩ := opening?_concat.mp ho
    have hlt : i < (s.content (t ++ r)).length := (List.getElem?_eq_some_iff.mp hi).1
    have hne : s.content (t ++ r) ≠ [] := List.ne_nil_of_length_pos (Nat.zero_lt_of_lt hlt)
    refine ⟨t ++ r, ?_, hasKind_any_of_content hne, i, hlt, rfl⟩
    rw [List.mem_cons, mem_descendants_iff]
    cases r with
    | nil => exact Or.inl (List.append_nil t)
    | cons j r =>
        refine Or.inr ⟨j :: r, List.cons_ne_nil j r, rfl, hasNode_of_content ?_⟩
        rw [content, ← contentAt_append]
        exact hne

/-- The elements directly inside a node. -/
theorem mem_childElements_iff {u : Path} {p : Place} :
    p ∈ (s.along .child (.node u)).filter (s.satisfies .child .any none) ↔
      ∃ i o, i < (s.content u).length ∧ p = .node (u ++ [i]) ∧ s.opening? (u ++ [i]) = some o := by
  rw [List.mem_filter]
  constructor
  · rintro ⟨hp, hprincipal⟩
    obtain ⟨t, ht, rfl⟩ := List.mem_map.mp hp
    obtain ⟨i, hi, rfl⟩ := List.mem_map.mp ht
    obtain ⟨-, hsome⟩ := Bool.and_eq_true_iff.mp (show
      ((Place.node (u ++ [i])).part == Part.whole && (s.opening? (u ++ [i])).isSome) = true
      from hprincipal)
    obtain ⟨o, ho⟩ := Option.isSome_iff_exists.mp hsome
    exact ⟨i, o, List.mem_range.mp hi, rfl, ho⟩
  · rintro ⟨i, o, hi, rfl, ho⟩
    refine ⟨List.mem_map_of_mem (List.mem_map_of_mem (List.mem_range.mpr hi)), ?_⟩
    show (Place.node (u ++ [i])).part == Part.whole && (s.opening? (u ++ [i])).isSome
    rw [ho]
    rfl

end Site

/-! ## The two steps -/

section Steps

variable {s : Site} {f : Focus} {src : Expr} {c : Path}

/-- Taking everything at or below a node. -/
theorem evaluate_subtree (hsrc : evaluate s f src = some (.places [.node c])) :
    evaluate s f src.subtree =
      some (.places (Place.ordered (((c :: s.descendants c).map .node).filter
        (s.hasKind .any)))) := by
  rw [Expr.subtree, evaluate, hsrc]
  simp only [Option.bind_eq_bind, Option.bind_some, Value.places?, Site.wanted?, List.mapM_cons,
    List.mapM_nil, keepAll]
  simp only [Option.bind_some, Option.pure_def, List.flatten_cons, List.flatten_nil,
    List.append_nil]
  rfl

variable {ε : Type} {expr : ε → Expr} {b : ε → Xml.Opening → Bool} {xs : List ε}

/-- **The elements below a node.** From a source that is one node, the two steps reach the elements
properly below it whose start tags satisfy the tests, in document order. -/
theorem evaluate_below (hsrc : evaluate s f src = some (.places [.node c]))
    (hexpr : ∀ x ∈ xs, ∀ t o position, s.opening? t = some o →
      evaluate s ⟨.node t, position⟩ (expr x) = some (.truth (b x o))) :
    ∃ ps, evaluate s f (.step src.subtree .child .any (xs.map expr)) = some (.places ps) ∧
      Place.Ascending ps ∧
      ∀ p, p ∈ ps ↔ ∃ r o, r ≠ [] ∧ p = .node (c ++ r) ∧ s.opening? (c ++ r) = some o ∧
        xs.all (fun x => b x o) = true := by
  -- what the second step keeps among the children of one node
  let test (p : Place) : Bool := xs.all fun x => (s.opening? p.trail).any (b x)
  let kept (p : Place) : List Place :=
    ((s.along .child p).filter (s.satisfies .child .any none)).filter test
  let sources := Place.ordered (((c :: s.descendants c).map .node).filter (s.hasKind .any))
  -- the first step gives everything at or below the node that has an inside
  have hsources : ∀ p, p ∈ sources ↔
      ∃ u ∈ c :: s.descendants c, s.hasKind .any (.node u) = true ∧ p = .node u := by
    intro p
    rw [Place.mem_ordered_iff, List.mem_filter]
    constructor
    · rintro ⟨hp, hkind⟩
      obtain ⟨u, hu, rfl⟩ := List.mem_map.mp hp
      exact ⟨u, hu, hkind, rfl⟩
    · rintro ⟨u, hu, hkind, rfl⟩
      exact ⟨List.mem_map_of_mem hu, hkind⟩
  -- at each of these the tests look at the start tags of the children
  have hkept : ∀ p ∈ sources, keepAll s (xs.map expr)
      ((s.along .child p).filter (s.satisfies .child .any none)) = some (kept p) := by
    intro p hp
    obtain ⟨u, -, -, rfl⟩ := (hsources p).mp hp
    refine keepAll_eq (b := fun x q => (s.opening? q.trail).any (b x)) ?_
    intro x hx q hq position
    obtain ⟨i, o, -, rfl, ho⟩ := Site.mem_childElements_iff.mp hq
    rw [hexpr x hx _ o position ho]
    show _ = some (Value.truth ((s.opening? (u ++ [i])).any (b x)))
    rw [ho, Option.any_some]
  refine ⟨Place.ordered (sources.map kept).flatten, ?_, Place.ascending_ordered _, ?_⟩
  · rw [evaluate, evaluate_subtree hsrc]
    simp only [Option.bind_eq_bind, Option.bind_some, Value.places?, Site.wanted?]
    rw [mapM_eq_map hkept]
    rfl
  · intro p
    rw [Place.mem_ordered_iff, List.mem_flatten]
    constructor
    · rintro ⟨l, hl, hp⟩
      obtain ⟨q, hq, rfl⟩ := List.mem_map.mp hl
      obtain ⟨u, hu, -, rfl⟩ := (hsources q).mp hq
      obtain ⟨hp, htest⟩ := List.mem_filter.mp hp
      obtain ⟨i, o, -, rfl, ho⟩ := Site.mem_childElements_iff.mp hp
      have hall : xs.all (fun x => (s.opening? (u ++ [i])).any (b x)) = true := htest
      simp only [ho, Option.any_some] at hall
      obtain ⟨r, rfl⟩ : ∃ r, u = c ++ r := by
        rcases List.mem_cons.mp hu with hu | hu
        · exact ⟨[], by rw [hu, List.append_nil]⟩
        · obtain ⟨r, -, hr, -⟩ := Site.mem_descendants_iff.mp hu
          exact ⟨r, hr⟩
      rw [List.append_assoc] at ho ⊢
      exact ⟨r ++ [i], o, by simp, rfl, ho, hall⟩
    · -- an element below is met through its parent
      rintro ⟨r, o, hr, rfl, ho, hall⟩
      obtain ⟨u, hu, hkind, i, hi, heq⟩ := Site.exists_parent hr ho
      refine ⟨kept (.node u), List.mem_map_of_mem ((hsources _).mpr ⟨u, hu, hkind, rfl⟩), ?_⟩
      rw [List.mem_filter, Site.mem_childElements_iff]
      refine ⟨⟨i, o, hi, by rw [heq], by rw [← heq]; exact ho⟩, ?_⟩
      show xs.all (fun x => (s.opening? (c ++ r)).any (b x)) = true
      rw [ho]
      exact hall

end Steps

end UiTree.XPath
