import Mathlib.Data.List.Induction
import Mathlib.Logic.Relation
import UiTree.Proofs.Query.Scope

/-!
# UiTree.Proofs.Navigation -- moving through a hierarchy

Nodes are addressed by paths, and all that is asked of two nodes is asked of their paths: whether
one begins with the other, and which one is smaller. What is meant is the tree. This module says
that the two agree: one parent step cuts off the last index, so that a path begins with another one
exactly when parent steps lead from the one node to the other, and in document order the nodes below
a node stand in one block right behind it.

* **Paths.** `Path.lt_of_isBelow` and `Path.lt_of_not_isBelow`: where descendants stand in the
  order. `Path.Ascending.exists_run`: the block of the descendants in any ascending list.
* **Steps.** `Node.parent?_eq_some_iff` and `Node.mem_children_iff` say what one step up or down
  does to the path; `Node.isDescendantOf_iff_transGen` goes on from there by induction on the path.
* **Main statement.** `Snapshot.navigatesTree`. Its second part is about snapshots that were made
  one after the other, `Snapshot.buildAll`.
-/

namespace UiTree

/-! ## Paths -/

namespace Path

/-- What lies below comes after. -/
theorem lt_of_isBelow {p q : Path} (h : isBelow p q = true) : lt q p = true := by
  obtain ⟨i, r, rfl⟩ := isBelow_iff.mp h
  exact lt_append_cons q i r

/-- What comes after a node and does not lie below it comes after all that does. -/
theorem lt_of_not_isBelow {p q r : Path} (hp : isBelow p q = true) (hqr : lt q r = true)
    (hr : isBelow r q = false) : lt p r = true := by
  obtain ⟨i, t, rfl⟩ := isBelow_iff.mp hp
  clear hp
  induction q generalizing r with
  | nil =>
      cases r with
      | nil => cases hqr
      | cons k r => cases hr
  | cons j q ih =>
      cases r with
      | nil => cases hqr
      | cons k r =>
          rw [List.cons_append, lt_cons_iff]
          rcases lt_cons_iff.mp hqr with hjk | ⟨rfl, htail⟩
          · exact Or.inl hjk
          · have hbelow : isBelow r q = false := by
              simpa [isBelow] using hr
            exact Or.inr ⟨rfl, ih htail hbelow⟩

/-- **The block of the descendants.** In an ascending list, the paths below one of its members stand
one behind the other, right after that member. -/
theorem Ascending.exists_run {ps : List Path} (h : Ascending ps) {q : Path} (hq : q ∈ ps) :
    ∃ front run back, ps = front ++ q :: (run ++ back) ∧
      ∀ p, p ∈ run ↔ p ∈ ps ∧ isBelow p q = true := by
  obtain ⟨front, behind, rfl⟩ := List.append_of_mem hq
  obtain ⟨-, hbehind, hfront⟩ := List.pairwise_append.mp h
  obtain ⟨hafter, hsorted⟩ := List.pairwise_cons.mp hbehind
  have hsplit : behind = (behind.filter fun p => isBelow p q) ++
      behind.filter fun p => !isBelow p q := by
    refine Ascending.ext hsorted ?_ ?_
    · refine List.pairwise_append.mpr ⟨hsorted.filter _, hsorted.filter _, ?_⟩
      intro p hp r hr
      obtain ⟨-, hp⟩ := List.mem_filter.mp hp
      obtain ⟨hmem, hr⟩ := List.mem_filter.mp hr
      exact lt_of_not_isBelow hp (hafter r hmem) (by simpa using hr)
    · intro p
      simp only [List.mem_append, List.mem_filter, Bool.not_eq_true']
      cases isBelow p q <;> simp
  refine ⟨front, _, _, congrArg (fun ps => front ++ q :: ps) hsplit, ?_⟩
  intro p
  rw [List.mem_filter]
  constructor
  · rintro ⟨hp, hbelow⟩
    exact ⟨List.mem_append_right front (List.mem_cons_of_mem q hp), hbelow⟩
  · rintro ⟨hp, hbelow⟩
    -- neither the member itself nor what stands before it comes after it
    have hlt := lt_of_isBelow hbelow
    rcases List.mem_append.mp hp with hp | hp
    · rw [lt_asymm (hfront p hp q List.mem_cons_self)] at hlt
      cases hlt
    · rcases List.mem_cons.mp hp with rfl | hp
      · rw [lt_irrefl] at hlt
        cases hlt
      · exact ⟨hp, hbelow⟩

end Path

theorem Tree.at?_append {α : Type} (p q : Path) (t : Tree α) :
    t.at? (p ++ q) = (t.at? p).bind (Tree.at? q) := by
  induction p generalizing t with
  | nil => rw [List.nil_append, Tree.at?_nil, Option.bind_some]
  | cons i p ih =>
      obtain ⟨a, ts⟩ := t
      rw [List.cons_append, Tree.at?_cons, Tree.at?_cons]
      cases ts[i]? with
      | none => rfl
      | some u => exact ih u

theorem Tree.at?_singleton {α : Type} (i : Nat) (t : Tree α) : t.at? [i] = t.children[i]? := by
  obtain ⟨a, ts⟩ := t
  rw [Tree.at?_cons, Tree.children]
  cases ts[i]? with
  | none => rfl
  | some u => exact Tree.at?_nil u

/-! ## One step up or down -/

namespace Node

variable {a b : Node}

/-- A node is told by its snapshot and its path. -/
theorem eq_of_path (hs : a.snapshot = b.snapshot) (hp : a.path = b.path) : a = b := by
  have ha : a.snapshot.node? a.path = some a := Snapshot.node?_path rfl
  rw [hp, Snapshot.node?_path hs.symm] at ha
  exact (Option.some.inj ha).symm

/-- Nodes of one snapshot are ordered by their paths. -/
theorem before_eq (hs : a.snapshot = b.snapshot) : a.before b = .ok (Path.lt a.path b.path) := by
  rw [before, hs, if_pos rfl]

/-- One step up cuts off the last index. -/
theorem parent?_eq_some_iff :
    a.parent? = some b ↔ a.snapshot = b.snapshot ∧ ∃ i, a.path = b.path ++ [i] := by
  rcases List.eq_nil_or_concat a.path with hnil | ⟨p, i, hpath⟩
  · rw [parent?, hnil]
    simp
  · rw [List.concat_eq_append] at hpath
    have hparent : a.parent? = a.snapshot.node? p := by
      rw [parent?, hpath]
      cases p with
      | nil => rfl
      | cons j p => exact congrArg a.snapshot.node? (List.dropLast_concat)
    rw [hparent, Snapshot.node?_eq_some_iff, hpath]
    constructor
    · rintro ⟨hs, rfl, -⟩
      exact ⟨hs.symm, i, rfl⟩
    · rintro ⟨hs, j, hj⟩
      obtain ⟨rfl, -⟩ := List.append_inj' hj rfl
      exact ⟨hs.symm, rfl, hs ▸ b.located⟩

/-- Every node but the root has one above it. -/
theorem exists_parent {p : Path} {i : Nat} (h : a.path = p ++ [i]) :
    ∃ m : Node, a.parent? = some m ∧ m.snapshot = a.snapshot ∧ m.path = p := by
  have hlocated := a.located
  rw [h, Tree.at?_append] at hlocated
  obtain ⟨u, hu, -⟩ := Option.bind_eq_some_iff.mp hlocated
  exact ⟨⟨a.snapshot, p, u, hu⟩, parent?_eq_some_iff.mpr ⟨rfl, i, h⟩, rfl, rfl⟩

/-- One step down adds an index. -/
theorem mem_children_iff :
    b ∈ a.children ↔ b.snapshot = a.snapshot ∧ ∃ i, b.path = a.path ++ [i] := by
  simp only [children, List.mem_filterMap, List.mem_range, Snapshot.node?_eq_some_iff]
  constructor
  · rintro ⟨i, -, hs, hp, -⟩
    exact ⟨hs, i, hp⟩
  · rintro ⟨hs, i, hp⟩
    have hlocated := b.located
    rw [hs, hp] at hlocated
    refine ⟨i, ?_, hs, hp, hlocated⟩
    rw [Tree.at?_append, a.located, Option.bind_some, Tree.at?_singleton] at hlocated
    exact (List.getElem?_eq_some_iff.mp hlocated).1

/-- The children stand in the order of their indexes. -/
theorem pairwise_children (a : Node) :
    a.children.Pairwise fun b c => b.before c = .ok true := by
  rw [children, List.pairwise_filterMap]
  refine List.Pairwise.imp ?_ List.pairwise_lt_range
  intro i j hij b hb c hc
  obtain ⟨hbs, hbp, -⟩ := Snapshot.node?_eq_some_iff.mp hb
  obtain ⟨hcs, hcp, -⟩ := Snapshot.node?_eq_some_iff.mp hc
  rw [before_eq (hbs.trans hcs.symm), hbp, hcp, Path.lt_append_left,
    Path.lt_cons_iff.mpr (.inl hij)]

/-! ## Many steps up -/

/-- Below a node of the same snapshot is what extends its path. -/
theorem isDescendantOf_iff (hs : a.snapshot = b.snapshot) :
    a.isDescendantOf b = true ↔ ∃ i r, a.path = b.path ++ i :: r := by
  rw [isDescendantOf, hs, beq_self_eq_true, Bool.true_and, Path.isBelow_iff]

/-- **Descendants are those from which parent steps lead up.** -/
theorem isDescendantOf_iff_transGen (hs : a.snapshot = b.snapshot) :
    a.isDescendantOf b = true ↔ Relation.TransGen (fun n m => n.parent? = some m) a b := by
  rw [isDescendantOf_iff hs]
  constructor
  · rintro ⟨i, r, hpath⟩
    -- the last index is cut off first
    induction r using List.reverseRecOn generalizing a with
    | nil => exact .single (parent?_eq_some_iff.mpr ⟨hs, i, hpath⟩)
    | append_singleton r j ih =>
        rw [← List.cons_append, ← List.append_assoc] at hpath
        obtain ⟨m, hm, hms, hmp⟩ := exists_parent hpath
        exact .head hm (ih (hms.trans hs) hmp)
  · intro h
    induction h with
    | single hstep =>
        obtain ⟨-, i, hi⟩ := parent?_eq_some_iff.mp hstep
        exact ⟨i, [], hi⟩
    | @tail m c hsteps hstep ih =>
        obtain ⟨hsnapshot, i, hi⟩ := parent?_eq_some_iff.mp hstep
        obtain ⟨j, r, hj⟩ := ih (hs.trans hsnapshot.symm)
        exact ⟨i, j :: r, by rw [hj, hi, List.append_assoc, List.singleton_append]⟩

/-! ## Order -/

theorem same_iff (hs : a.snapshot = b.snapshot) : a.same b = true ↔ a = b := by
  rw [same, hs, beq_self_eq_true, Bool.true_and, beq_iff_eq]
  exact ⟨eq_of_path hs, congrArg path⟩

/-- Two nodes stand in one of three ways, and in no two of them. -/
inductive Compared (a b : Node) : Prop where
  | before (lt : a.before b = .ok true) (ne : a.same b = false) (gt : b.before a = .ok false)
  | same (lt : a.before b = .ok false) (eq : a.same b = true) (gt : b.before a = .ok false)
  | after (lt : a.before b = .ok false) (ne : a.same b = false) (gt : b.before a = .ok true)

theorem compared (hs : a.snapshot = b.snapshot) : Compared a b := by
  have hbefore : a.before b = .ok (Path.lt a.path b.path) := before_eq hs
  have hafter : b.before a = .ok (Path.lt b.path a.path) := before_eq hs.symm
  have hne : a.path ≠ b.path → a.same b = false := by
    intro h
    rw [Bool.eq_false_iff]
    intro hsame
    exact h (congrArg path ((same_iff hs).mp hsame))
  rcases Path.lt_or_eq_or_gt a.path b.path with hlt | heq | hgt
  · exact .before (hbefore.trans (congrArg _ hlt)) (hne (Path.lt_ne hlt))
      (hafter.trans (congrArg _ (Path.lt_asymm hlt)))
  · rw [heq, Path.lt_irrefl] at hbefore hafter
    exact .same hbefore ((same_iff hs).mpr (eq_of_path hs heq)) hafter
  · exact .after (hbefore.trans (congrArg _ (Path.lt_asymm hgt))) (hne (Path.lt_ne hgt).symm)
      (hafter.trans (congrArg _ hgt))

end Node

/-! ## The nodes of a snapshot -/

namespace Snapshot

variable {s : Snapshot}

theorem mem_paths_iff {p : Path} : p ∈ s.paths ↔ (s.elements.at? p).isSome = true := by
  rw [paths_eq, Tree.mem_map_walk_iff]

theorem ascending_paths (s : Snapshot) : Path.Ascending s.paths := by
  rw [paths_eq]
  exact Tree.ascending_walk s.elements

theorem mem_filterMap_node?_iff {ps : List Path} {n : Node} :
    n ∈ ps.filterMap s.node? ↔ n.path ∈ ps ∧ n.snapshot = s := by
  rw [List.mem_filterMap]
  constructor
  · rintro ⟨p, hp, hn⟩
    obtain ⟨hs, rfl, -⟩ := node?_eq_some_iff.mp hn
    exact ⟨hp, hs⟩
  · rintro ⟨hp, rfl⟩
    exact ⟨n.path, hp, node?_path rfl⟩

/-- All nodes of a snapshot are listed. -/
theorem mem_nodes_iff {n : Node} : n ∈ s.nodes ↔ n.snapshot = s := by
  rw [nodes, mem_filterMap_node?_iff]
  refine ⟨And.right, ?_⟩
  rintro rfl
  refine ⟨mem_paths_iff.mpr ?_, rfl⟩
  rw [n.located]
  rfl

theorem nodeAt_address {n : Node} (h : n.snapshot = s) : s.nodeAt n.path.address = .ok n := by
  have hnode : (Path.ofAddress? n.path.address).bind s.node? = some n := by
    rw [ofAddress?_eq_some_iff.mpr rfl, Option.bind_some, node?_path h]
  rw [nodeAt, hnode]

/-- The descendants of a node are listed in one block right behind it. -/
theorem exists_run_nodes {b : Node} (hb : b.snapshot = s) :
    ∃ front run back, s.nodes = front ++ b :: (run ++ back) ∧
      ∀ a, a ∈ run ↔ a ∈ s.nodes ∧ a.isDescendantOf b = true := by
  have hmem : b.path ∈ s.paths := by
    rw [mem_paths_iff, ← hb, b.located]
    rfl
  obtain ⟨front, run, back, hpaths, hrun⟩ := s.ascending_paths.exists_run hmem
  refine ⟨front.filterMap s.node?, run.filterMap s.node?, back.filterMap s.node?, ?_, ?_⟩
  · rw [nodes, hpaths, List.filterMap_append, List.filterMap_cons_some (node?_path hb),
      List.filterMap_append]
  · intro a
    rw [nodes, mem_filterMap_node?_iff, mem_filterMap_node?_iff, hrun, and_right_comm]
    refine and_congr_right fun ha => ?_
    rw [Node.isDescendantOf, ha.2, hb, beq_self_eq_true, Bool.true_and]

/-! ## Snapshots one after the other -/

/-- The snapshots that are made of some texts, one after the other. A text that is refused makes
none, and uses no version. -/
def buildAll : Nat → List (Option Text) → List Snapshot
  | _, [] => []
  | version, source :: sources =>
    match (build version source).result with
    | .ok s => s :: buildAll (version + 1) sources
    | .error _ => buildAll version sources

theorem map_version_buildAll (version : Nat) (sources : List (Option Text)) :
    (buildAll version sources).map Snapshot.version =
      List.range' version (buildAll version sources).length := by
  induction sources generalizing version with
  | nil => rfl
  | cons source sources ih =>
      rw [buildAll]
      cases h : (build version source).result with
      | error e => exact ih version
      | ok s =>
          simp only [List.map_cons, List.length_cons, List.range'_succ, ih, version_of_build h]

/-- No two of them have the same version. -/
theorem version_ne_of_buildAll {version i j : Nat} {sources : List (Option Text)} {s t : Snapshot}
    (hs : (buildAll version sources)[i]? = some s) (ht : (buildAll version sources)[j]? = some t)
    (hij : i ≠ j) : s.version ≠ t.version := by
  have hversions := map_version_buildAll version sources
  have position : ∀ {k : Nat} {u : Snapshot}, (buildAll version sources)[k]? = some u →
      u.version = version + k := by
    intro k u hu
    have hk : ((buildAll version sources).map Snapshot.version)[k]? = some u.version := by
      rw [List.getElem?_map, hu, Option.map_some]
    rw [hversions] at hk
    obtain ⟨hlt, hget⟩ := List.getElem?_eq_some_iff.mp hk
    simpa [eq_comm] using hget
  rw [position hs, position ht]
  omega

/-! ## Main statement -/

/-- How the nodes of a snapshot stand to each other, as a tree has it. -/
structure NavigatesTree (s : Snapshot) : Prop where
  same : ∀ a ∈ s.nodes, ∀ b ∈ s.nodes, (a.same b = true ↔ a = b)
  child : ∀ a ∈ s.nodes, ∀ b ∈ s.nodes, (b ∈ a.children ↔ b.parent? = some a)
  inOrder : ∀ a ∈ s.nodes, a.children.Pairwise fun b c => b.before c = .ok true
  located : ∀ a ∈ s.nodes, ∀ b ∈ a.children, s.nodeAt b.path.address = .ok b
  below : ∀ a ∈ s.nodes, ∀ b ∈ s.nodes,
    (a.isDescendantOf b = true ↔ Relation.TransGen (fun n m => n.parent? = some m) a b)
  compared : ∀ a ∈ s.nodes, ∀ b ∈ s.nodes, Node.Compared a b
  behind : ∀ a ∈ s.nodes, ∀ b ∈ s.nodes, a.isDescendantOf b = true → b.before a = .ok true
  block : ∀ b ∈ s.nodes, ∃ front run back, s.nodes = front ++ b :: (run ++ back) ∧
    ∀ a, a ∈ run ↔ a ∈ s.nodes ∧ a.isDescendantOf b = true

/-- **Paths tell the tree.** In every snapshot, the nodes that are listed are all there are. Of any
two of them, one is a child of the other exactly when that is its parent; the children of a node are
found at their addresses and stand in order. A node is a descendant of those that one or more parent
steps lead to. Of two nodes, exactly one comes first unless they are the same. All descendants of a
node come after it, and they are listed in one block right behind it. Nodes of two snapshots that
were made one after the other, even of the same text, are neither the same nor below each other. -/
theorem navigatesTree :
    (∀ s : Snapshot, (∀ n, n ∈ s.nodes ↔ n.snapshot = s) ∧ s.NavigatesTree) ∧
      ∀ (version : Nat) (sources : List (Option Text)) (i j : Nat) (s t : Snapshot),
        (buildAll version sources)[i]? = some s → (buildAll version sources)[j]? = some t →
        i ≠ j → ∀ a ∈ s.nodes, ∀ b ∈ t.nodes, a.same b = false ∧ a.isDescendantOf b = false := by
  refine ⟨fun s => ⟨fun n => mem_nodes_iff, ?_⟩, ?_⟩
  · have shared : ∀ {a b : Node}, a ∈ s.nodes → b ∈ s.nodes → a.snapshot = b.snapshot :=
      fun ha hb => (mem_nodes_iff.mp ha).trans (mem_nodes_iff.mp hb).symm
    constructor
    case same => exact fun a ha b hb => Node.same_iff (shared ha hb)
    case child =>
      intro a ha b hb
      rw [Node.mem_children_iff, Node.parent?_eq_some_iff]
    case inOrder => exact fun a _ => a.pairwise_children
    case located =>
      intro a ha b hb
      exact nodeAt_address ((Node.mem_children_iff.mp hb).1.trans (mem_nodes_iff.mp ha))
    case below => exact fun a ha b hb => Node.isDescendantOf_iff_transGen (shared ha hb)
    case compared => exact fun a ha b hb => Node.compared (shared ha hb)
    case behind =>
      intro a ha b hb hbelow
      obtain ⟨i, r, hpath⟩ := (Node.isDescendantOf_iff (shared ha hb)).mp hbelow
      rw [Node.before_eq (shared hb ha), hpath, Path.lt_append_cons]
    case block => exact fun b hb => exists_run_nodes (mem_nodes_iff.mp hb)
  · intro version sources i j s t hs ht hij a ha b hb
    have hne : a.snapshot.version ≠ b.snapshot.version := by
      rw [mem_nodes_iff.mp ha, mem_nodes_iff.mp hb]
      exact version_ne_of_buildAll hs ht hij
    have hfalse : (a.snapshot.version == b.snapshot.version) = false := beq_eq_false_iff_ne.mpr hne
    rw [Node.same, Node.isDescendantOf, hfalse]
    exact ⟨rfl, rfl⟩

/-- A dump of a root with eleven children, the last but one of which has a child. -/
def wideDump : Text :=
  "<h><a/><a/><a/><a/><a/><a/><a/><a/><a/><a><b/></a><a/></h>".toList

/-- The tenth child comes before the eleventh, and its own child between the two. The same text,
indexed again after one that is refused, has other nodes. -/
theorem navigatesTree_wide :
    ∃ (s t : Snapshot) (a b c : Node), buildAll 1 [some wideDump, none, some wideDump] = [s, t] ∧
      [a, b, c].map Node.path = [[9], [9, 0], [10]] ∧ a ∈ s.root.children ∧ b ∈ a.children ∧
      b.isDescendantOf s.root = true ∧ a.before b = .ok true ∧ b.before c = .ok true ∧
      s.root.same t.root = false ∧ b.isDescendantOf t.root = false := by
  have indexed : ∀ v, v = 1 ∨ v = 2 → (Snapshot.build v (some wideDump)).result.toOption.any
      (fun s => (s.node? [9]).isSome && (s.node? [9, 0]).isSome && (s.node? [10]).isSome) =
        true := by
    rintro v (rfl | rfl) <;> decide +kernel
  obtain ⟨s, hs, hnodes⟩ := exists_of_any_toOption (indexed 1 (.inl rfl))
  obtain ⟨t, ht, -⟩ := exists_of_any_toOption (indexed 2 (.inr rfl))
  simp only [Bool.and_eq_true, Option.isSome_iff_exists] at hnodes
  obtain ⟨⟨⟨a, ha⟩, b, hb⟩, c, hc⟩ := hnodes
  obtain ⟨has, hap, -⟩ := node?_eq_some_iff.mp ha
  obtain ⟨hbs, hbp, -⟩ := node?_eq_some_iff.mp hb
  obtain ⟨hcs, hcp, -⟩ := node?_eq_some_iff.mp hc
  have hall : buildAll 1 [some wideDump, none, some wideDump] = [s, t] := by
    have hnone : (Snapshot.build 2 none).result = .error (.dump .empty) := rfl
    simp only [buildAll, hs, hnone, ht]
  obtain ⟨htree, hapart⟩ := navigatesTree
  obtain ⟨hlisted, htree⟩ := htree s
  have listed : ∀ {n : Node}, n.snapshot = s → n ∈ s.nodes := fun h => (hlisted _).mpr h
  have hroot : s.root ∈ s.nodes := listed rfl
  have hfirst : a.parent? = some s.root :=
    Node.parent?_eq_some_iff.mpr ⟨has, 9, hap⟩
  have hsecond : b.parent? = some a :=
    Node.parent?_eq_some_iff.mpr ⟨hbs.trans has.symm, 0, by rw [hap, hbp]; rfl⟩
  have hbelow : b.isDescendantOf a = true :=
    (htree.below b (listed hbs) a (listed has)).mpr (.single hsecond)
  have other : ∀ n ∈ s.nodes, n.same t.root = false ∧ n.isDescendantOf t.root = false :=
    fun n hn => hapart 1 _ 0 1 s t (by rw [hall]; rfl) (by rw [hall]; rfl) (by decide) n hn t.root
      (mem_nodes_iff.mpr rfl)
  refine ⟨s, t, a, b, c, hall, ?_, ?_, ?_, ?_, ?_, ?_, ?_, ?_⟩
  · rw [List.map_cons, List.map_cons, List.map_cons, hap, hbp, hcp, List.map_nil]
  · exact (htree.child _ hroot a (listed has)).mpr hfirst
  · exact (htree.child a (listed has) b (listed hbs)).mpr hsecond
  · exact (htree.below b (listed hbs) _ hroot).mpr (.head hsecond (.single hfirst))
  · exact htree.behind b (listed hbs) a (listed has) hbelow
  · cases htree.compared b (listed hbs) c (listed hcs) with
    | before hlt => exact hlt
    | same _ heq =>
        rw [Node.same, hbs, hcs, hbp, hcp] at heq
        simp at heq
    | after _ _ hgt =>
        rw [Node.before_eq (hcs.trans hbs.symm), hcp, hbp] at hgt
        cases hgt
  · exact (other _ hroot).1
  · exact (other b (listed hbs)).2

end Snapshot

end UiTree
