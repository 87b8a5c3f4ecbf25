import Mathlib.Data.Finset.Card
import Mathlib.Logic.Function.Iterate
import UiTree.Proofs.Navigation

/-!
# UiTree.Proofs.Traversal -- the walk with a stack, turn by turn

The walk keeps a stack of pending subtrees. In one turn it takes the subtree on top, reports its
root, and puts the children in its place, the first one on top. Nothing in this says that the walk
comes to an end, that it meets every node, or in which order. This module follows the stack from
turn to turn and says all three.

* **The invariant.** `Tour.IsOf`: what was reported, with what the walk from the stack would report,
  is the whole walk; every subtree that was met or is pending stands at its path; and nodes met and
  nodes pending add up to the size of the tree. One turn keeps this, `Tour.IsOf.turn`.
* **The count.** Every turn meets one node until the stack is empty, `Tour.length_met`. So the walk
  takes as many turns as there are nodes.
* **Main statement.** `Snapshot.walksTree`: for every tree, and for the nodes of a snapshot, which
  are listed by sorted paths and counted as the elements of the document.
-/

namespace UiTree

namespace Tree

variable {α : Type}

theorem size_pos (t : Tree α) : 0 < t.size := by
  cases t
  rw [size]
  exact Nat.succ_pos _

/-- On the stack come the children under their indexes, and then what was there. -/
theorem mem_pushChildren_iff {p : Path} {ts : List (Tree α)} {stack : List (Path × Tree α)}
    {e : Path × Tree α} :
    e ∈ pushChildren p ts stack ↔ (∃ i u, ts[i]? = some u ∧ e = (p ++ [i], u)) ∨ e ∈ stack := by
  have hpush : pushChildren p ts stack = (ts.zipIdx.map fun c => (p ++ [c.2], c.1)) ++ stack :=
    List.foldr_cons_eq_append
  rw [hpush, List.mem_append, List.mem_map]
  refine or_congr_left ⟨?_, ?_⟩
  · rintro ⟨⟨u, i⟩, hmem, rfl⟩
    exact ⟨i, u, List.mk_mem_zipIdx_iff_getElem?.mp hmem, rfl⟩
  · rintro ⟨i, u, hi, rfl⟩
    exact ⟨(u, i), List.mk_mem_zipIdx_iff_getElem?.mpr hi, rfl⟩

/-- A stack with nothing on it is one with no node pending. -/
theorem pending_eq_zero_iff {stack : List (Path × Tree α)} : pending stack = 0 ↔ stack = [] := by
  cases stack with
  | nil => exact iff_of_true rfl rfl
  | cons e rest =>
      have hpos : 0 < e.2.size := size_pos e.2
      rw [pending]
      exact iff_of_false (by omega) (List.cons_ne_nil e rest)

/-! ## One turn -/

/-- A walk under way: the subtrees that are pending, the next one on top, and the nodes that were
met, each one as the subtree at its path. -/
structure Tour (α : Type) where
  stack : List (Path × Tree α)
  met : List (Path × Tree α)

namespace Tour

variable {t : Tree α} {w : Tour α}

/-- Only the root is pending. -/
def start (t : Tree α) : Tour α := ⟨[([], t)], []⟩

/-- One turn: the subtree on top is met, and its children take its place. -/
def turn (w : Tour α) : Tour α :=
  match w.stack with
  | [] => w
  | (p, t) :: rest => ⟨pushChildren p t.children rest, w.met ++ [(p, t)]⟩

/-- What the walk reports of a node: its path and its label. -/
def shown (e : Path × Tree α) : Path × α := (e.1, e.2.label)

theorem turn_of_empty (h : w.stack = []) : w.turn = w := by
  rw [turn, h]

theorem length_met_turn (h : w.stack ≠ []) : w.turn.met.length = w.met.length + 1 := by
  rw [turn]
  split
  · contradiction
  · exact List.length_append

theorem met_prefix_turn (w : Tour α) : w.met <+: w.turn.met := by
  rw [turn]
  split
  · exact List.prefix_rfl
  · exact List.prefix_append _ _

/-- **The invariant** of the walk through a tree. -/
structure IsOf (t : Tree α) (w : Tour α) : Prop where
  reported : w.met.map shown ++ walkFrom w.stack = t.walk
  located : ∀ e ∈ w.met ++ w.stack, t.at? e.1 = some e.2
  counted : w.met.length + pending w.stack = t.size

theorem isOf_start (t : Tree α) : IsOf t (start t) := by
  constructor
  case reported => rfl
  case located =>
    intro e he
    obtain rfl : e = ([], t) := List.mem_singleton.mp he
    exact at?_nil t
  case counted => exact Nat.zero_add _

theorem IsOf.turn (h : IsOf t w) : IsOf t w.turn := by
  obtain ⟨stack, met⟩ := w
  cases stack with
  | nil => exact h
  | cons e rest =>
      obtain ⟨p, a, ts⟩ := e
      constructor
      case reported =>
        have hreported := h.reported
        rw [walkFrom] at hreported
        show (met ++ [(p, Tree.node a ts)]).map shown ++ walkFrom (pushChildren p ts rest) = t.walk
        rw [List.map_append, List.append_assoc]
        exact hreported
      case located =>
        have htop : t.at? p = some (.node a ts) := h.located (p, .node a ts) (by simp)
        intro e he
        rcases List.mem_append.mp he with hmet | hpushed
        · refine h.located e ?_
          rw [List.append_cons]
          exact List.mem_append_left rest hmet
        · rcases mem_pushChildren_iff.mp hpushed with ⟨i, u, hi, rfl⟩ | hrest
          · -- the path of a child goes one step on from that of its parent
            show t.at? (p ++ [i]) = some u
            rw [at?_append, htop, Option.bind_some, at?_singleton]
            exact hi
          · exact h.located e (by simp [hrest])
      case counted =>
        have hcounted : met.length + pending ((p, Tree.node a ts) :: rest) = t.size := h.counted
        show (met ++ [(p, Tree.node a ts)]).length + pending (pushChildren p ts rest) = t.size
        rw [pending, size] at hcounted
        rw [pending_pushChildren, List.length_append, List.length_singleton]
        omega

theorem IsOf.stack_eq_nil_iff (h : IsOf t w) : w.stack = [] ↔ w.met.length = t.size := by
  have hcounted := h.counted
  rw [← pending_eq_zero_iff]
  omega

/-! ## All turns -/

theorem isOf_turns (t : Tree α) (n : Nat) : IsOf t (turn^[n] (start t)) := by
  induction n with
  | zero => exact isOf_start t
  | succ n ih =>
      rw [Function.iterate_succ_apply']
      exact ih.turn

/-- **The count**: every turn meets one node, until none is pending. -/
theorem length_met (t : Tree α) (n : Nat) : (turn^[n] (start t)).met.length = min n t.size := by
  induction n with
  | zero => exact (Nat.zero_min _).symm
  | succ n ih =>
      have hof := isOf_turns t n
      have hcounted := hof.counted
      rw [Function.iterate_succ_apply']
      by_cases hstack : (turn^[n] (start t)).stack = []
      · rw [turn_of_empty hstack]
        have hall := hof.stack_eq_nil_iff.mp hstack
        omega
      · rw [length_met_turn hstack]
        have hpending := mt pending_eq_zero_iff.mp hstack
        omega

theorem stack_eq_nil_iff {n : Nat} : (turn^[n] (start t)).stack = [] ↔ t.size ≤ n := by
  rw [(isOf_turns t n).stack_eq_nil_iff, length_met]
  omega

theorem met_prefix (t : Tree α) {m n : Nat} (h : m ≤ n) :
    (turn^[m] (start t)).met <+: (turn^[n] (start t)).met := by
  induction n, h using Nat.le_induction with
  | base => exact List.prefix_rfl
  | succ n _ ih =>
      rw [Function.iterate_succ_apply']
      exact ih.trans (met_prefix_turn _)

end Tour

/-! ## The whole walk -/

/-- The nodes in the order in which the walk meets them, each one as the subtree at its path. -/
def visits (t : Tree α) : List (Path × Tree α) := (Tour.turn^[t.size] (Tour.start t)).met

variable {t : Tree α}

theorem length_visits (t : Tree α) : t.visits.length = t.size := by
  rw [visits, Tour.length_met, Nat.min_self]

/-- After some turns, that many nodes were met. -/
theorem met_turns (t : Tree α) (n : Nat) :
    (Tour.turn^[n] (Tour.start t)).met = t.visits.take n := by
  have hlength := Tour.length_met t n
  rcases Nat.le_total n t.size with hle | hge
  · have htake := List.prefix_iff_eq_take.mp (Tour.met_prefix t hle)
    rwa [hlength, Nat.min_eq_left hle] at htake
  · rw [Nat.min_eq_right hge, ← length_visits t] at hlength
    have hall : t.visits = (Tour.turn^[n] (Tour.start t)).met :=
      (Tour.met_prefix t hge).eq_of_length hlength.symm
    rw [← hall, List.take_of_length_le ((length_visits t).le.trans hge)]

/-- The walk reports what the turns meet. -/
theorem walk_eq_map_visits (t : Tree α) : t.walk = t.visits.map Tour.shown := by
  have hreported := (Tour.isOf_turns t t.size).reported
  rw [Tour.stack_eq_nil_iff.mpr (Nat.le_refl _), walkFrom, List.append_nil] at hreported
  exact hreported.symm

theorem map_fst_visits (t : Tree α) : t.visits.map Prod.fst = t.walk.map Prod.fst := by
  rw [walk_eq_map_visits, List.map_map]
  rfl

/-- What is met is what there is. -/
theorem mem_visits_iff {p : Path} {u : Tree α} : (p, u) ∈ t.visits ↔ t.at? p = some u := by
  have located : ∀ {v}, (p, v) ∈ t.visits → t.at? p = some v :=
    fun h => (Tour.isOf_turns t t.size).located _ (List.mem_append_left _ h)
  refine ⟨located, fun hu => ?_⟩
  have hmem : p ∈ t.visits.map Prod.fst := by
    rw [map_fst_visits, mem_map_walk_iff, hu]
    rfl
  obtain ⟨⟨q, v⟩, hv, rfl⟩ := List.mem_map.mp hmem
  obtain rfl : u = v := Option.some.inj (hu.symm.trans (located hv))
  exact hv

theorem mem_map_visits_iff {p : Path} :
    p ∈ t.visits.map Prod.fst ↔ (t.at? p).isSome = true := by
  rw [map_fst_visits, mem_map_walk_iff]

theorem pairwise_visits (t : Tree α) : (t.visits.map Prod.fst).Pairwise (· < ·) := by
  rw [map_fst_visits]
  exact (ascending_walk t).imp Path.lt_iff.mp

theorem nodup_visits (t : Tree α) : t.visits.Nodup := by
  have hpaths := (ascending_walk t).nodup
  rw [← map_fst_visits] at hpaths
  exact hpaths.of_map

/-- Every node is met in one place, and nothing else is. -/
theorem existsUnique_visit_iff {p : Path} {u : Tree α} :
    (∃! k : Nat, t.visits[k]? = some (p, u)) ↔ t.at? p = some u := by
  rw [← mem_visits_iff]
  constructor
  · rintro ⟨k, hk, -⟩
    exact List.mem_of_getElem? hk
  · intro hmem
    obtain ⟨k, hk⟩ := List.mem_iff_getElem?.mp hmem
    refine ⟨k, hk, fun j hj => ?_⟩
    have hlt : j < t.visits.length := (List.getElem?_eq_some_iff.mp hj).1
    exact (List.getElem?_inj hlt (nodup_visits t)).mp (hj.trans hk.symm)

/-- With a node there are all on the way to it. -/
theorem isSome_at?_of_append {p q : Path} (h : (t.at? (p ++ q)).isSome = true) :
    (t.at? p).isSome = true := by
  rw [at?_append] at h
  exact Option.isSome_of_isSome_bind h

/-- With a child there are those before it. -/
theorem isSome_at?_sibling {p : Path} {i j : Nat} (hij : i < j)
    (h : (t.at? (p ++ [j])).isSome = true) : (t.at? (p ++ [i])).isSome = true := by
  rw [at?_append] at h ⊢
  obtain ⟨u, hu⟩ := Option.isSome_iff_exists.mp (Option.isSome_of_isSome_bind h)
  rw [hu, Option.bind_some, at?_singleton] at h ⊢
  rw [isSome_getElem?] at h ⊢
  exact hij.trans h

/-- How the walk with a stack goes through a tree. -/
structure WalksInOrder (t : Tree α) : Prop where
  ends : ∀ n, (Tour.turn^[n] (Tour.start t)).stack = [] ↔ t.size ≤ n
  gradual : ∀ n, (Tour.turn^[n] (Tour.start t)).met = t.visits.take n
  reports : t.walk = t.visits.map fun e => (e.1, e.2.label)
  preorder : t.walk = entries [] t
  once : ∀ p u, (∃! k : Nat, t.visits[k]? = some (p, u)) ↔ t.at? p = some u
  increasing : (t.visits.map Prod.fst).Pairwise (· < ·)
  initial : ∀ p q, p ++ q ∈ t.visits.map Prod.fst → p ∈ t.visits.map Prod.fst
  smaller : ∀ p i j, i < j → p ++ [j] ∈ t.visits.map Prod.fst → p ++ [i] ∈ t.visits.map Prod.fst
  counted : t.visits.length = t.size

theorem walksInOrder (t : Tree α) : t.WalksInOrder := by
  constructor
  case ends => exact fun n => Tour.stack_eq_nil_iff
  case gradual => exact met_turns t
  case reports => exact walk_eq_map_visits t
  case preorder => exact walk_eq_entries t
  case once => exact fun p u => existsUnique_visit_iff
  case increasing => exact pairwise_visits t
  case initial =>
    intro p q h
    rw [mem_map_visits_iff] at h ⊢
    exact isSome_at?_of_append h
  case smaller =>
    intro p i j hij h
    rw [mem_map_visits_iff] at h ⊢
    exact isSome_at?_sibling hij h
  case counted => exact length_visits t

end Tree

/-! ## Elements -/

namespace Xml.Node

mutual

/-- The number of elements at and below a node. -/
def elementCount : Node → Nat
  | .element _ ns => elementCounts ns + 1
  | _ => 0

/-- The number of elements in a row of nodes, and below them. -/
def elementCounts : List Node → Nat
  | [] => 0
  | n :: ns => elementCount n + elementCounts ns

end

mutual

theorem size_elementTree? : ∀ n : Node, ((elementTree? n).map Tree.size).getD 0 = elementCount n
  | .element o ns => by
      rw [elementTree?, elementCount, Option.map_some, Option.getD_some, Tree.size,
        sizes_elementTrees ns]
  | .text _ | .comment _ | .instruction _ _ | .reference _ => rfl

/-- Forgetting all but the elements loses none of them. -/
theorem sizes_elementTrees : ∀ ns : List Node, Tree.sizes (elementTrees ns) = elementCounts ns
  | [] => rfl
  | n :: ns => by
      rw [elementTrees, elementCounts, ← size_elementTree? n, ← sizes_elementTrees ns]
      cases elementTree? n with
      | none => exact (Nat.zero_add _).symm
      | some t => rfl

end

end Xml.Node

/-! ## The nodes of a snapshot -/

namespace Snapshot

variable {s : Snapshot}

/-- How a snapshot lists and counts its nodes. -/
structure ListsInOrder (s : Snapshot) : Prop where
  sorted : s.paths = s.elements.visits.map Prod.fst
  listed : s.nodes.map (fun n => (n.path, n.element)) = s.elements.visits
  counted : s.size = s.elements.size
  distinct : s.paths.toFinset.card = s.size

theorem paths_eq_map_visits (s : Snapshot) : s.paths = s.elements.visits.map Prod.fst := by
  rw [paths_eq, Tree.map_fst_visits]

/-- Looking up the sorted paths gives the nodes as the walk met them. -/
theorem nodes_eq_visits (s : Snapshot) :
    s.nodes.map (fun n => (n.path, n.element)) = s.elements.visits := by
  have found : ∀ e ∈ s.elements.visits,
      (s.node? e.1).map (fun n => (n.path, n.element)) = some e := by
    rintro ⟨p, u⟩ he
    rw [node?_of_at? (Tree.mem_visits_iff.mp he)]
    rfl
  rw [nodes, paths_eq_map_visits, List.filterMap_map, List.map_filterMap]
  exact (List.filterMap_congr found).trans List.filterMap_some

theorem size_eq (s : Snapshot) : s.size = s.elements.size := by
  rw [size, Tree.walk_eq_map_visits, List.length_map, Tree.length_visits]

theorem listsInOrder (s : Snapshot) : s.ListsInOrder := by
  constructor
  case sorted => exact paths_eq_map_visits s
  case listed => exact nodes_eq_visits s
  case counted => exact size_eq s
  case distinct =>
    rw [List.toFinset_card_of_nodup s.ascending_paths.nodup, paths_eq, List.length_map]
    rfl

/-- Of a snapshot that was built, all elements of the document are nodes. -/
theorem size_of_build {version : Nat} {source : Option Text}
    (h : (build version source).result = .ok s) :
    s.size = Xml.Node.elementCounts s.document.nodes := by
  rw [size_eq, ← Xml.Node.sizes_elementTrees, (isSound_of_build h).single]
  rfl

/-- **The walk with a stack is the preorder traversal.** In every tree, each turn meets one node,
and the stack is empty after as many turns as there are nodes, and not before. What the walk reports
is what the recursion gives that puts each node before its children. Every node is met in exactly
one place, under the path that leads to it, and the paths increase in the lexicographic order. With
a path occur all its initial segments, and with a child those before it. So the nodes of a snapshot,
listed by sorted paths, stand in the order of the walk, and no two have one path; of a snapshot that
was built there are as many as its document has elements. -/
theorem walksTree :
    (∀ (α : Type) (t : Tree α), t.WalksInOrder) ∧ (∀ s : Snapshot, s.ListsInOrder) ∧
      ∀ (version : Nat) (source : Option Text) (s : Snapshot),
        (build version source).result = .ok s →
          s.size = Xml.Node.elementCounts s.document.nodes := by
  refine ⟨?_, ?_, ?_⟩
  · intro α t
    exact t.walksInOrder
  · intro s
    exact s.listsInOrder
  · intro version source s h
    exact size_of_build h

/-- A dump with comments, text and an instruction beside its five elements. -/
def interspersedDump : Text :=
  "<!--a--><h>x<n><!--b--><m/>y<m/></n><?p q?><n/></h>".toList

/-- Only the elements are met: the walk is under way after four turns and ends with the fifth. -/
theorem walksTree_interspersed :
    ∃ s, (build 1 (some interspersedDump)).result = .ok s ∧
      s.nodes.map Node.path = [[], [0], [0, 0], [0, 1], [1]] ∧
      Xml.Node.elementCounts s.document.nodes = 5 ∧
      (Tree.Tour.turn^[4] (.start s.elements)).stack ≠ [] ∧
      (Tree.Tour.turn^[5] (.start s.elements)).stack = [] := by
  have indexed : (build 1 (some interspersedDump)).result.toOption.any
      (fun s => s.elements.walk.map Prod.fst == [[], [0], [0, 0], [0, 1], [1]]) = true := by
    decide +kernel
  obtain ⟨s, hs, hfound⟩ := exists_of_any_toOption indexed
  obtain ⟨hwalks, hlists, hcounts⟩ := walksTree
  have hwalk := hwalks _ s.elements
  have hpaths : s.elements.visits.map Prod.fst = [[], [0], [0, 0], [0, 1], [1]] := by
    rw [beq_iff_eq, hwalk.reports, List.map_map] at hfound
    exact hfound
  have hsize : s.elements.size = 5 := by
    rw [← hwalk.counted, ← List.length_map Prod.fst, hpaths]
    rfl
  refine ⟨s, hs, ?_, ?_, ?_, ?_⟩
  · have hnodes := congrArg (List.map Prod.fst) (hlists s).listed
    rw [List.map_map, hpaths] at hnodes
    exact hnodes
  · rw [← hcounts 1 _ s hs, (hlists s).counted, hsize]
  · rw [Ne, hwalk.ends, hsize]
    decide
  · rw [hwalk.ends, hsize]

end Snapshot

end UiTree
