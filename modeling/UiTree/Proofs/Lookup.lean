import UiTree.Lookup
import UiTree.Proofs.Snapshot

/-!
# UiTree.Proofs.Lookup -- what a lookup finds

Queries find nodes of the snapshot that they are run against, and so does a lookup. A lookup finds
a node exactly when its query has that node at the position of the lookup; for a lookup below
another one, the query is run below the node that the other one finds.

* **Main statements.** `resolve_top_eq_ok_iff` and `resolve_under_eq_ok_iff` open a lookup by one
  level; `snapshot_of_resolve`: the node found belongs to the snapshot.
-/

namespace UiTree

namespace Snapshot

variable {s : Snapshot} {route : Route} {q : Query} {scope : Scope} {ns : List Node}

/-- Queries find nodes of their own snapshot. -/
theorem snapshot_of_mem_findAll (h : (s.findAll route q scope).result = .ok ns) {n : Node}
    (hn : n ∈ ns) : n.snapshot = s := by
  obtain ⟨ps, -, hps⟩ := Report.result_bind_eq_ok_iff.mp h
  obtain rfl : ps.filterMap s.node? = ns := by
    simpa using hps
  obtain ⟨p, -, hp⟩ := List.mem_filterMap.mp hn
  exact (node?_eq_some_iff.mp hp).1

/-- The first node is the head of all nodes. -/
theorem findOne_eq_ok_iff {n : Node} :
    (s.findOne route q scope).result = .ok n ↔
      ∃ ns, (s.findAll route q scope).result = .ok ns ∧ ns[0]? = some n := by
  rw [findOne, Report.result_bind_eq_ok_iff]
  refine exists_congr fun ns => and_congr_right fun _ => ?_
  cases ns with
  | nil =>
      constructor
      · intro h
        cases h
      · intro h
        cases h
  | cons m ms =>
      show (Except.ok m : Except Fault Node) = .ok n ↔ some m = some n
      rw [Except.ok.injEq, Option.some.injEq]

/-- Children are found by the same query in the scope of the parent. -/
theorem findAll_of_findChildren {p : Node} (h : (s.findChildren route q p).result = .ok ns) :
    (s.findAll route q (Scope.descendantsOf p.path.address)).result = .ok ns := by
  unfold findChildren at h
  split at h
  · cases h
  · split at h
    · cases h
    · obtain ⟨ms, hms, hns⟩ := Report.result_bind_eq_ok_iff.mp h
      split at hns
      · cases hns
      · cases hns
        exact hms

/-- Below a node of the snapshot, and unless it was compiled for the document, a query is run in the
scope of the node; then there must be something. -/
theorem findChildren_eq {p : Node} (hp : p.snapshot.version = s.version)
    (hq : ∀ path own, q ≠ .compiled ⟨path, true, own⟩) (route : Route) :
    s.findChildren route q p = (do
      match ← s.findAll route q (Scope.descendantsOf p.path.address) with
      | [] => Report.fail (.notFound q.text (.childOf p.describe))
      | ns => return ns) := by
  unfold findChildren
  rw [if_neg (not_not_intro hp)]
  split
  · next path own => exact absurd rfl (hq path own)
  · rfl

/-- What a query finds below a node of the snapshot are children, unless it finds nothing or was
compiled for the document. -/
theorem findChildren_of_findAll {p : Node} (hp : p.snapshot = s) (hne : ns ≠ [])
    (hq : ∀ path own, q ≠ .compiled ⟨path, true, own⟩)
    (h : (s.findAll route q (Scope.descendantsOf p.path.address)).result = .ok ns) :
    (s.findChildren route q p).result = .ok ns := by
  rw [findChildren_eq (congrArg version hp) hq, Report.result_bind_of_ok h]
  cases ns with
  | nil => exact absurd rfl hne
  | cons n ns => rfl

theorem snapshot_of_mem_findChildren {p n : Node} (h : (s.findChildren route q p).result = .ok ns)
    (hn : n ∈ ns) : n.snapshot = s :=
  snapshot_of_mem_findAll (findAll_of_findChildren h) hn

end Snapshot

namespace Lookup

variable {s : Snapshot} {q : Query} {i : Nat} {n : Node}

theorem pick_eq_ok_iff {ns : List Node} : pick q i ns = .ok n ↔ ns[i]? = some n := by
  unfold pick
  split
  · next m hm => rw [hm, Except.ok.injEq, Option.some.injEq]
  · next hm =>
    rw [hm]
    constructor
    · intro h
      cases h
    · intro h
      cases h

theorem resolve_top_eq_ok_iff :
    ((top q i).resolve s).result = .ok n ↔
      ∃ ns, (s.findAll .path q Scope.document).result = .ok ns ∧ ns[i]? = some n := by
  rw [resolve, Report.result_bind_eq_ok_iff]
  simp only [Report.result_of, pick_eq_ok_iff]

theorem resolve_under_eq_ok_iff {l : Lookup} :
    ((under l q i).resolve s).result = .ok n ↔
      ∃ p, (l.resolve s).result = .ok p ∧
        ∃ ns, (s.findChildren .path q p).result = .ok ns ∧ ns[i]? = some n := by
  rw [resolve, Report.result_bind_eq_ok_iff]
  simp only [Report.result_bind_eq_ok_iff, Report.result_of, pick_eq_ok_iff]

/-- **A lookup finds a node of the snapshot that it is run against.** -/
theorem snapshot_of_resolve {l : Lookup} (h : (l.resolve s).result = .ok n) : n.snapshot = s := by
  cases l with
  | top q i =>
      obtain ⟨ns, hns, hn⟩ := resolve_top_eq_ok_iff.mp h
      exact Snapshot.snapshot_of_mem_findAll hns (List.mem_of_getElem? hn)
  | under l q i =>
      obtain ⟨p, -, ns, hns, hn⟩ := resolve_under_eq_ok_iff.mp h
      exact Snapshot.snapshot_of_mem_findChildren hns (List.mem_of_getElem? hn)

end Lookup

end UiTree
