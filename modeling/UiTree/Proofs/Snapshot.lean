import UiTree.Proofs.Xml.Accepted
import UiTree.Selector.Basic
import UiTree.Snapshot

/-!
# UiTree.Proofs.Snapshot -- snapshots and their nodes

A snapshot that was built has a document with one root, which is the tree of its elements, and
distinct attributes at every node. Its nodes are the paths of that tree in document order.

* **Main statements.** `isSound_of_build`: what holds of a built snapshot. `node?_eq_some_iff`: a
  path has a node exactly when the tree has a subtree there. `nodes_eq`: all nodes in order.
-/

namespace UiTree

namespace Snapshot

variable {s : Snapshot}

/-- The document has one element at its top, the root of the hierarchy, and all attributes without a
namespace are distinct. -/
structure IsSound (s : Snapshot) : Prop where
  single : Xml.Node.elementTrees s.document.nodes = [s.elements]
  distinct : s.elements.AllLabels Xml.Opening.Distinct

theorem isSound_of_document (h : s.document.IsSound) : s.IsSound := by
  obtain ⟨root, hroot, hdistinct⟩ := h
  have hhead : s.document.root? = some root := by
    rw [Xml.Document.root?, ← List.head?_filterMap, ← Xml.Builder.elementTrees_eq_filterMap, hroot]
    rfl
  obtain rfl : root = s.elements := Option.some.inj (hhead.symm.trans s.rooted)
  exact ⟨hroot, hdistinct⟩

/-- **How a snapshot came about**: both of its trees were read from its text, on their own terms. -/
theorem readings_of_ofSource {version : Nat} {source : Text}
    (h : ofSource version source = .ok s) :
    s.version = version ∧ s.source = source ∧
      Xml.Document.readAs true (Text.trim source) = some s.document ∧
      readOutline? (Text.trim source) = some s.tags := by
  rw [ofSource] at h
  split at h
  · cases h
  · split at h
    · cases h
    · next d hd =>
      split at h
      · cases h
      · split at h
        · cases h
        · next tags htags =>
          rw [align] at h
          split at h
          · cases h
          · cases h
            exact ⟨rfl, rfl, hd, htags⟩

theorem readAs_of_ofSource {version : Nat} {source : Text} (h : ofSource version source = .ok s) :
    Xml.Document.readAs true (Text.trim source) = some s.document :=
  (readings_of_ofSource h).2.2.1

theorem result_build (version : Nat) (source : Option Text) :
    (build version source).result = ofSource version (source.getD []) := by
  rw [build, Report.result_bind, Report.result_of]
  cases ofSource version (source.getD []) <;> rfl

/-- A text that makes no snapshot is refused as a dump. -/
theorem exists_dump_of_build {version : Nat} {source : Option Text} {e : Fault}
    (h : (build version source).result = .error e) : ∃ why, e = .dump why := by
  rw [result_build, ofSource] at h
  split at h
  · cases h
    exact ⟨_, rfl⟩
  · split at h
    · cases h
      exact ⟨_, rfl⟩
    · split at h
      · cases h
        exact ⟨_, rfl⟩
      · split at h
        · cases h
          exact ⟨_, rfl⟩
        · rw [align] at h
          split at h
          · cases h
            exact ⟨_, rfl⟩
          · cases h

theorem version_of_build {version : Nat} {source : Option Text}
    (h : (build version source).result = .ok s) : s.version = version := by
  rw [result_build] at h
  exact (readings_of_ofSource h).1

theorem source_of_build {version : Nat} {source : Option Text}
    (h : (build version source).result = .ok s) : s.source = source.getD [] := by
  rw [result_build] at h
  exact (readings_of_ofSource h).2.1

/-- **A snapshot that was built is sound.** -/
theorem isSound_of_build {version : Nat} {source : Option Text}
    (h : (build version source).result = .ok s) : s.IsSound := by
  rw [result_build] at h
  exact isSound_of_document (Xml.Document.isSound_of_readAs (readAs_of_ofSource h))

/-! ## Nodes -/

theorem node?_eq_some_iff {p : Path} {n : Node} :
    s.node? p = some n ↔ n.snapshot = s ∧ n.path = p ∧ s.elements.at? p = some n.element := by
  unfold node?
  constructor
  · intro h
    split at h
    · next e he =>
      cases h
      exact ⟨rfl, rfl, he⟩
    · cases h
  · obtain ⟨t, q, e, hlocated⟩ := n
    rintro ⟨rfl, rfl, he⟩
    split
    · next e' he' =>
      rw [hlocated] at he'
      cases he'
      rfl
    · next he' =>
      rw [hlocated] at he'
      cases he'

theorem node?_of_at? {p : Path} {u : Tree Xml.Opening} (h : s.elements.at? p = some u) :
    s.node? p = some ⟨s, p, u, h⟩ := node?_eq_some_iff.mpr ⟨rfl, rfl, h⟩

/-- A node is found at its path. -/
theorem node?_path {n : Node} (h : n.snapshot = s) : s.node? n.path = some n :=
  node?_eq_some_iff.mpr ⟨h, rfl, h ▸ n.located⟩

theorem isSome_node? {p : Path} : (s.node? p).isSome = (s.elements.at? p).isSome := by
  cases h : s.elements.at? p with
  | some u => rw [node?_of_at? h, Option.isSome_some, Option.isSome_some]
  | none =>
      cases hn : s.node? p with
      | none => rfl
      | some n =>
          rw [(node?_eq_some_iff.mp hn).2.2] at h
          cases h

/-- The node at an address is one of the snapshot. -/
theorem snapshot_of_nodeAt {a : Address} {n : Node} (h : s.nodeAt a = .ok n) : n.snapshot = s := by
  unfold nodeAt at h
  split at h
  · next m hm =>
    cases h
    obtain ⟨p, -, hp⟩ := Option.bind_eq_some_iff.mp hm
    exact (node?_eq_some_iff.mp hp).1
  · cases h

/-- The address without indexes is that of the root. -/
theorem nodeAt_root (s : Snapshot) : s.nodeAt [] = .ok s.root := by
  have hnode : (Path.ofAddress? []).bind s.node? = some s.root := node?_of_at? s.root.located
  rw [nodeAt, hnode]

/-- The paths of the walk are in document order already. -/
theorem paths_eq : s.paths = s.elements.walk.map Prod.fst :=
  (Tree.ascending_walk s.elements).mergeSort

/-- **All nodes**: those at the paths of the walk. -/
theorem nodes_eq : s.nodes = (s.elements.walk.map Prod.fst).filterMap s.node? := by
  rw [nodes, paths_eq]

/-- The nodes that satisfy a condition, by their paths. -/
theorem filter_filterMap_node? (f : Node → Bool) (ps : List Path) :
    (ps.filterMap s.node?).filter f =
      (ps.filter fun p => (s.node? p).any f).filterMap s.node? := by
  induction ps with
  | nil => rfl
  | cons p ps ih =>
      rw [List.filterMap_cons, List.filter_cons]
      cases hn : s.node? p with
      | none =>
          simp only [Option.any_none, Bool.false_eq_true, if_false]
          exact ih
      | some n =>
          simp only [Option.any_some, List.filter_cons]
          split
          · rw [List.filterMap_cons, hn, ih]
          · exact ih

end Snapshot

/-- The key of an attribute is looked up in the start tag as it is. -/
theorem Node.get?_key (n : Node) (a : Attribute) : n.get? a.key = n.element.label.get? a.key := by
  have hcut : Text.cutStart ['\x7b', '\x7d'] a.key = none := by
    cases a <;> rfl
  rw [Node.get?, hcut, Option.getD_none]

theorem Node.admits_get? (n : Node) (sel : Selector) :
    sel.admits n.get? = sel.admits n.element.label.get? := by
  simp only [Selector.admits, Node.get?_key]

namespace Snapshot

/-! ## A snapshot to look at -/

/-- A dump of four nodes; the value of the last one holds a quote. -/
def quotedDump : Text := "<h><n text=\"a\"/><n><n text=\"it's\"/></n></h>".toList

/-- What a check finds of an outcome, the outcome has. -/
theorem exists_of_any_toOption {α : Type} {r : Except Fault α} {f : α → Bool}
    (h : r.toOption.any f = true) : ∃ a, r = .ok a ∧ f a = true := by
  cases r with
  | error e => cases h
  | ok a => exact ⟨a, rfl, h⟩

end Snapshot

end UiTree
