import UiTree.Bounds
import UiTree.Outline
import UiTree.Report
import UiTree.Text.Blank
import UiTree.Xml.Document

/-!
# UiTree.Snapshot -- one hierarchy dump and its nodes

A snapshot is made from the text of a dump and never changes. It holds the document, on which path
expressions are evaluated, and the outline, on which selectors can be matched directly. The two are
read from the same text on different terms: the document is read in the encoding that it declares,
the outline takes the characters as they are and replaces no entities.

* **Alignment.** A snapshot carries the proof that `disagreement?` found nothing: the two trees have
  the same paths, and the same local name at every path.
* **Nodes.** A `Node` is a snapshot with a path in it. Nodes of different snapshots are different,
  and snapshots are told apart by their version.
-/

namespace UiTree

/-- The first respect in which a tree of elements and an outline differ. -/
def disagreement? (elements : Tree Xml.Opening) (tags : Tree Tag) : Option DumpFault :=
  let es := elements.walk
  let ts := tags.walk
  if es.map Prod.fst ≠ ts.map Prod.fst then some (.counts es.length ts.length)
  else
    ((es.zip ts).find? fun (e, t) => localName e.2.name.universal != localName t.2.name).map
      fun (e, _) => .names e.1.address

/-- An indexed dump. -/
structure Snapshot where
  version : Nat
  source : Text
  document : Xml.Document
  elements : Tree Xml.Opening
  tags : Tree Tag
  rooted : document.root? = some elements
  aligned : disagreement? elements tags = none

/-- The outline of a text, when it has one. -/
def readOutline? (t : Text) : Option (Tree Tag) := do
  let d ← Xml.Document.readAs false t
  if d.replacesEntities then none
  else (d.root?).map (Outline.ofTree Outline.initial)

namespace Snapshot

/-- The snapshot of two trees that agree. -/
def align (version : Nat) (source : Text) (document : Xml.Document) (elements : Tree Xml.Opening)
    (rooted : document.root? = some elements) (tags : Tree Tag) : Except Fault Snapshot :=
  match h : disagreement? elements tags with
  | some why => .error (.dump why)
  | none => .ok ⟨version, source, document, elements, tags, rooted, h⟩

/-- The snapshot with a given version of the text of a dump, or the reason why there is none. -/
def ofSource (version : Nat) (source : Text) : Except Fault Snapshot :=
  let t := Text.trim source
  if t.isEmpty then .error (.dump .empty)
  else
    -- the document decides first; an outline alone makes no snapshot
    match Xml.Document.readAs true t with
    | none => .error (.dump .markup)
    | some d =>
      match h : d.root? with
      | none => .error (.dump .markup)
      | some elements =>
        match readOutline? t with
        | none => .error (.dump .noRoot)
        | some tags => align version source d elements h tags

/-- The paths of all nodes, sorted. -/
def paths (s : Snapshot) : List Path := (s.elements.walk.map Prod.fst).mergeSort Path.le

/-- The number of nodes. -/
def size (s : Snapshot) : Nat := s.elements.walk.length

/-- Indexes a dump, and records that. -/
def build (version : Nat) (source : Option Text) : Report Snapshot := do
  let s ← Report.of (ofSource version (source.getD []))
  Report.tell (.indexed s.version s.size)
  return s

/-- The identifier of a snapshot: thirty-two hexadecimal digits, which no other version has. -/
def identifier (s : Snapshot) : Text := Text.hex 32 s.version

/-- The snapshot as messages show it. -/
def describe (s : Snapshot) : Text :=
  "Snapshot(v".toList ++ Text.ofNat s.version ++ ", ".toList ++ Text.ofNat s.size
    ++ " nodes)".toList

/-- The namespace declarations that path expressions can use: those of the root with a qualifier. -/
def bindings (s : Snapshot) : List Xml.Binding :=
  s.elements.label.bindings.filter fun b => b.qualifier.isSome

/-- Does the outline have this tag at the path where the elements have a node? -/
def tagAt? (s : Snapshot) (p : Path) : Option Tag := (s.tags.at? p).map Tree.label

end Snapshot

/-- A node of a snapshot: a path with the element that is there. -/
structure Node where
  snapshot : Snapshot
  path : Path
  element : Tree Xml.Opening
  located : snapshot.elements.at? path = some element

namespace Snapshot

/-- The node at a path, when there is one. -/
def node? (s : Snapshot) (p : Path) : Option Node :=
  match h : s.elements.at? p with
  | some e => some ⟨s, p, e, h⟩
  | none => none

/-- The root node. -/
def root (s : Snapshot) : Node := ⟨s, [], s.elements, by cases s.elements; rfl⟩

/-- All nodes in document order. -/
def nodes (s : Snapshot) : List Node := s.paths.filterMap s.node?

/-- The node at an address; the fault tells the address. -/
def nodeAt (s : Snapshot) (a : Address) : Except Fault Node :=
  match (Path.ofAddress? a).bind s.node? with
  | some n => .ok n
  | none => .error (.notFound a.text (.node s.version))

end Snapshot

namespace Node

/-- Are two nodes the same node of the same snapshot? -/
def same (a b : Node) : Bool := a.snapshot.version == b.snapshot.version && a.path == b.path

/-- The name, with its namespace in braces. -/
def name (n : Node) : Text := n.element.label.name.universal

/-- The attributes with their universal names, in document order. -/
def attributes (n : Node) : List (Text × Text) :=
  n.element.label.attributes.map fun a => (a.name.universal, a.value)

/-- The value of an attribute; empty braces in front of its name mean no namespace. -/
def get? (n : Node) (attr : Text) : Option Text :=
  n.element.label.get? ((Text.cutStart ['\x7b', '\x7d'] attr).getD attr)

/-- The text that the node shows. -/
def text? (n : Node) : Option Text := n.get? "text".toList

/-- The class of the widget: the first of its two attributes, unless that is missing or empty. -/
def className? (n : Node) : Option Text :=
  match n.get? "class".toList with
  | some (c :: t) => some (c :: t)
  | _ => n.get? "className".toList

/-- The rectangle of the node, when it has a readable one. -/
def bounds? (n : Node) : Except Fault (Option Bounds) :=
  match n.get? "bounds".toList with
  | some t => (Bounds.read? t).mapError .longNumber
  | none => .ok none

/-- The middle of the rectangle. -/
def center? (n : Node) : Except Fault (Option (Int × Int)) :=
  n.bounds?.map fun b => b.map Bounds.center

/-- The node above. -/
def parent? (n : Node) : Option Node :=
  match n.path with
  | [] => none
  | p => n.snapshot.node? p.dropLast

/-- The nodes directly below, in order. -/
def children (n : Node) : List Node :=
  (List.range n.element.children.length).filterMap fun i => n.snapshot.node? (n.path ++ [i])

/-- Is `n` a proper descendant of `m` in the same snapshot? -/
def isDescendantOf (n m : Node) : Bool :=
  n.snapshot.version == m.snapshot.version && Path.isBelow n.path m.path

/-- Does `n` come before `m` in document order? Nodes of different snapshots have no order. -/
def before (n m : Node) : Except Fault Bool :=
  if n.snapshot.version = m.snapshot.version then .ok (Path.lt n.path m.path)
  else .error .unordered

/-- What a message calls the node: its class, or its name when it has none. -/
def label (n : Node) : Text :=
  match n.className? with
  | some (c :: t) => c :: t
  | _ => n.name

/-- The node as messages show it. -/
def describe (n : Node) : Text :=
  "MatchedNode(v".toList ++ Text.ofNat n.snapshot.version ++ ", path=".toList ++ n.path.address.text
    ++ ',' :: ' ' :: n.label ++ [')']

end Node

end UiTree
