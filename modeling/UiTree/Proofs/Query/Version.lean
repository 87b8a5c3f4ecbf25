import UiTree.Proofs.Snapshot
import UiTree.Query.Search

/-!
# UiTree.Proofs.Query.Version -- versions do not matter to queries

A snapshot has a version so that it can be told from other snapshots, and for nothing else: the same
text indexed with another version has the same nodes, and queries find the same ones. Only the
messages that name a snapshot or one of its nodes are different.

* **Main statements.** `result_build_withVersion`: indexing a text with another version.
  `run_withVersion`: a query finds the same paths. `findAll_withVersion` and `findOne_withVersion`:
  it finds the same nodes. `nodeAt_withVersion` and `findChildren_withVersion` also say which
  messages differ.
-/

namespace UiTree

/-- The snapshot with another version. -/
def Snapshot.withVersion (s : Snapshot) (v : Nat) : Snapshot := { s with version := v }

/-- The node in its snapshot with another version. -/
def Node.withVersion (n : Node) (v : Nat) : Node :=
  ⟨n.snapshot.withVersion v, n.path, n.element, n.located⟩

theorem Node.label_withVersion (n : Node) (v : Nat) : (n.withVersion v).label = n.label := by
  have hget : ∀ a, (n.withVersion v).get? a = n.get? a := fun _ => rfl
  have hname : (n.withVersion v).name = n.name := rfl
  rw [Node.label, Node.label, Node.className?, Node.className?, hget, hget, hname]

theorem Node.describe_withVersion (n : Node) (v : Nat) :
    (n.withVersion v).describe = "MatchedNode(v".toList ++ Text.ofNat v ++ ", path=".toList
      ++ n.path.address.text ++ ',' :: ' ' :: n.label ++ [')'] := by
  have hversion : (n.withVersion v).snapshot.version = v := rfl
  have hpath : (n.withVersion v).path = n.path := rfl
  unfold Node.describe
  rw [Node.label_withVersion, hversion, hpath]

namespace Snapshot

variable (s : Snapshot) (v : Nat)

/-! ## Indexing -/

theorem align_withVersion (w : Nat) (source : Text) (d : Xml.Document) (t : Tree Xml.Opening)
    (h : d.root? = some t) (tags : Tree Tag) :
    align v source d t h tags = (align w source d t h tags).map fun n => n.withVersion v := by
  rw [align, align]
  split <;> rfl

theorem ofSource_withVersion (w : Nat) (source : Text) :
    ofSource v source = (ofSource w source).map fun n => n.withVersion v := by
  rw [ofSource, ofSource]
  split
  · rfl
  · split
    · rfl
    · split
      · rfl
      · split
        · rfl
        · exact align_withVersion v w source _ _ _ _

/-- **A text with another version** makes the same snapshot with that version, or fails alike. -/
theorem result_build_withVersion (w : Nat) (source : Option Text) :
    (build v source).result = (build w source).result.map fun n => n.withVersion v := by
  rw [result_build, result_build, ofSource_withVersion]

/-! ## Look-ups -/

theorem node?_withVersion (p : Path) :
    (s.withVersion v).node? p = (s.node? p).map fun n => n.withVersion v := by
  have absent : ∀ t : Snapshot, t.elements.at? p = none → t.node? p = none := by
    intro t ht
    rw [← Option.isNone_iff_eq_none, ← Option.not_isSome, isSome_node?, ht]
    rfl
  cases h : s.elements.at? p with
  | some u => rw [node?_of_at? h, node?_of_at? (s := s.withVersion v) h]; rfl
  | none => rw [absent s h, absent (s.withVersion v) h]; rfl

theorem bind_node?_withVersion (o : Option Path) :
    o.bind (s.withVersion v).node? = (o.bind s.node?).map fun n => n.withVersion v := by
  cases o with
  | none => rfl
  | some p => exact node?_withVersion s v p

theorem contextPath_withVersion (context : Option Address) :
    (s.withVersion v).contextPath context = s.contextPath context := by
  cases context with
  | none => rfl
  | some a =>
      simp only [contextPath, bind_node?_withVersion]
      cases (Path.ofAddress? a).bind s.node? <;> rfl

/-- The node at an address, or the faults that name the versions. -/
theorem nodeAt_withVersion (w : Nat) (a : Address) :
    (∃ n : Node, n.snapshot = s ∧ (s.withVersion v).nodeAt a = .ok (n.withVersion v) ∧
        (s.withVersion w).nodeAt a = .ok (n.withVersion w)) ∨
      (s.withVersion v).nodeAt a = .error (.notFound a.text (.node v)) ∧
        (s.withVersion w).nodeAt a = .error (.notFound a.text (.node w)) := by
  simp only [nodeAt, bind_node?_withVersion]
  cases h : (Path.ofAddress? a).bind s.node? with
  | none => exact Or.inr ⟨rfl, rfl⟩
  | some n =>
      obtain ⟨p, -, hn⟩ := Option.bind_eq_some_iff.mp h
      exact Or.inl ⟨n, (node?_eq_some_iff.mp hn).1, rfl, rfl⟩

/-! ## Queries -/

theorem evaluatePath_withVersion (path : Text) (context : Option Address) :
    (s.withVersion v).evaluatePath path context = s.evaluatePath path context := by
  rw [evaluatePath, evaluatePath, contextPath_withVersion]
  rfl

theorem searchTags_withVersion (admitted : Tag → Bool) (context : Option Address) :
    (s.withVersion v).searchTags admitted context = s.searchTags admitted context := by
  rw [searchTags, searchTags, contextPath_withVersion]
  rfl

/-- **The paths that a query finds** are those that it finds with any version. -/
theorem run_withVersion (route : Route) (q : Query) (scope : Scope) :
    (s.withVersion v).run route q scope = s.run route q scope := by
  cases route with
  | path =>
      simp only [run, runPath, evaluatePath_withVersion]
  | outline =>
      simp only [run, runOutline, searchTags_withVersion]

/-- **The nodes that a query finds** are the same nodes of the snapshot with another version. -/
theorem findAll_withVersion (route : Route) (q : Query) (scope : Scope) :
    ((s.withVersion v).findAll route q scope).result =
      (s.findAll route q scope).result.map (List.map fun n => n.withVersion v) := by
  have hnodes : ∀ ps : List Path, ps.filterMap (s.withVersion v).node? =
      (ps.filterMap s.node?).map fun n => n.withVersion v := by
    intro ps
    rw [List.map_filterMap]
    congr 1
    funext p
    exact node?_withVersion s v p
  rw [findAll, findAll, run_withVersion, Report.result_bind, Report.result_bind]
  cases (s.run route q scope).result with
  | error e => rfl
  | ok ps => exact congrArg Except.ok (hnodes ps)

theorem findOne_withVersion (route : Route) (q : Query) (scope : Scope) :
    ((s.withVersion v).findOne route q scope).result =
      (s.findOne route q scope).result.map fun n => n.withVersion v := by
  rw [findOne, findOne, Report.result_bind, Report.result_bind, findAll_withVersion]
  cases (s.findAll route q scope).result with
  | error e => rfl
  | ok ns => cases ns <;> rfl

/-- The nodes below a node, or the faults that name it with the versions. -/
theorem findChildren_withVersion (w : Nat) (route : Route) (q : Query) (parent : Node)
    (hparent : parent.snapshot = s) :
    (∃ o : Except Fault (List Node),
        ((s.withVersion v).findChildren route q (parent.withVersion v)).result =
            o.map (List.map fun n => n.withVersion v) ∧
          ((s.withVersion w).findChildren route q (parent.withVersion w)).result =
            o.map (List.map fun n => n.withVersion w)) ∨
      ((s.withVersion v).findChildren route q (parent.withVersion v)).result =
          .error (.notFound q.text (.childOf (parent.withVersion v).describe)) ∧
        ((s.withVersion w).findChildren route q (parent.withVersion w)).result =
          .error (.notFound q.text (.childOf (parent.withVersion w).describe)) := by
  subst hparent
  have hown : ∀ u, ¬ (parent.withVersion u).snapshot.version ≠
      (parent.snapshot.withVersion u).version := fun u => not_not_intro rfl
  have hpath : ∀ u, (parent.withVersion u).path = parent.path := fun u => rfl
  unfold findChildren
  rw [if_neg (hown v), if_neg (hown w)]
  split
  · next path own => exact Or.inl ⟨.error (.notDescendant path), rfl, rfl⟩
  · rw [Report.result_bind, Report.result_bind, hpath, hpath, findAll_withVersion,
      findAll_withVersion]
    cases (parent.snapshot.findAll route q (Scope.descendantsOf parent.path.address)).result with
    | error e => exact Or.inl ⟨.error e, rfl, rfl⟩
    | ok ns =>
        cases ns with
        | nil => exact Or.inr ⟨rfl, rfl⟩
        | cons n ns => exact Or.inl ⟨.ok (n :: ns), rfl, rfl⟩

end Snapshot

end UiTree
