import UiTree.XPath.Expr
import UiTree.Xml.Tree

/-!
# UiTree.XPath.Place -- places in a document and the axes between them

Path expressions speak of more than elements: of the document itself, of texts, comments,
instructions, attributes and namespace declarations. A `Place` names any of these by the **trail**
of child indexes that leads to its node, and by the part of the node that is meant.

* **Document order.** A node comes before its declarations, these before its attributes, and these
  before its children. The empty trail is the document.
* **Axes.** `Site.along` lists the places on an axis, those that are nearest to its origin first.
  From an attribute or a declaration only the node that holds it can be reached, and what lies
  before or after that node.
-/

namespace UiTree.XPath

/-- What is meant of a node: itself, a declaration in force, or one of its attributes. -/
inductive Part where
  | whole
  | binding (index : Nat)
  | attribute (index : Nat)
  deriving DecidableEq, Repr

namespace Part

/-- The order of the parts of one node. -/
def le : Part → Part → Bool
  | .whole, _ => true
  | .binding _, .whole => false
  | .binding i, .binding j => i ≤ j
  | .binding _, .attribute _ => true
  | .attribute i, .attribute j => i ≤ j
  | .attribute _, _ => false

end Part

/-- A place in a document. -/
structure Place where
  trail : Path
  part : Part
  deriving DecidableEq, Repr

namespace Place

/-- The node at a trail. -/
def node (t : Path) : Place := ⟨t, .whole⟩

/-- Document order. -/
def le (a b : Place) : Bool :=
  Path.lt a.trail b.trail || (a.trail == b.trail && Part.le a.part b.part)

/-- Places in document order, each of them once. -/
def ordered (ps : List Place) : List Place := (ps.mergeSort le).eraseReps

end Place

/-- The nodes inside a node. -/
def contentOf : Xml.Node → List Xml.Node
  | .element _ ns => ns
  | _ => []

/-- The nodes inside the node at a trail, from a row of nodes on. -/
def contentAt : List Xml.Node → Path → List Xml.Node
  | ns, [] => ns
  | ns, i :: t =>
    match ns[i]? with
    | some n => contentAt (contentOf n) t
    | none => []

mutual

/-- The trails of a node at `t` and of all nodes inside it, in document order. -/
def trailsOf (t : Path) : Xml.Node → List Path
  | .element _ ns => t :: trailsFrom t 0 ns
  | _ => [t]

/-- The trails of a row of nodes inside the node at `t`, and of what is inside them. -/
def trailsFrom (t : Path) (i : Nat) : List Xml.Node → List Path
  | [] => []
  | n :: ns => trailsOf (t ++ [i]) n ++ trailsFrom t (i + 1) ns

end

/-- What expressions are evaluated on: a document, and the declarations that they may use. -/
structure Site where
  nodes : List Xml.Node
  bindings : List Xml.Binding

namespace Site

variable (s : Site)

/-- The nodes inside the node at a trail. -/
def content (t : Path) : List Xml.Node := contentAt s.nodes t

/-- The node at a trail; the document is none. -/
def node? (t : Path) : Option Xml.Node :=
  match t.getLast? with
  | none => none
  | some i => (s.content t.dropLast)[i]?

/-- The start tag of the element at a trail. -/
def opening? (t : Path) : Option Xml.Opening :=
  match s.node? t with
  | some (.element o _) => some o
  | _ => none

/-- The nodes directly inside a node. -/
def children (t : Path) : List Path :=
  (List.range (s.content t).length).map fun i => t ++ [i]

/-- All nodes inside a node. -/
def descendants (t : Path) : List Path := trailsFrom t 0 (s.content t)

/-- The nodes that a node is inside, the nearest one first and the document last. -/
def ancestors (t : Path) : List Path := (List.range t.length).reverse.map t.take

/-- The later nodes with the same parent. -/
def siblingsAfter (t : Path) : List Path :=
  match t.getLast? with
  | none => []
  | some i =>
    ((List.range (s.content t.dropLast).length).filter fun j => i < j).map fun j =>
      t.dropLast ++ [j]

/-- The earlier nodes with the same parent, the nearest one first. -/
def siblingsBefore (t : Path) : List Path :=
  match t.getLast? with
  | none => []
  | some i => ((List.range i).reverse).map fun j => t.dropLast ++ [j]

/-- The nodes after a node that are not inside it. -/
def following (t : Path) : List Path :=
  (t :: ancestors t).flatMap fun a =>
    (s.siblingsAfter a).flatMap fun b => b :: s.descendants b

/-- The nodes before a node that it is not inside, the nearest one first. -/
def preceding (t : Path) : List Path :=
  (t :: ancestors t).flatMap fun a =>
    (siblingsBefore a).flatMap fun b => (b :: s.descendants b).reverse

/-- The declarations in force at a node: of several for one qualifier the innermost. -/
def inForce (t : Path) : List Xml.Binding :=
  let inward := ((t :: ancestors t).filterMap s.opening?).flatMap Xml.Opening.bindings
  let distinct := inward.foldl
    (fun kept b => if kept.any fun k => k.qualifier == b.qualifier then kept else kept ++ [b]) []
  ⟨some "xml".toList, Xml.xmlNamespace⟩ :: distinct

/-- The places of the attributes of a node. -/
def attributes (t : Path) : List Place :=
  match s.opening? t with
  | some o => (List.range o.attributes.length).map fun i => ⟨t, .attribute i⟩
  | none => []

/-- The places of the declarations in force at an element. -/
def declarations (t : Path) : List Place :=
  match s.opening? t with
  | some _ => (List.range (s.inForce t).length).map fun i => ⟨t, .binding i⟩
  | none => []

/-- The places along an axis from the node at a trail. -/
def alongNode (a : Axis) (t : Path) : List Place :=
  match a with
  | .itself => [.node t]
  | .child => (s.children t).map .node
  | .descendant => (s.descendants t).map .node
  | .descendantOrSelf => (t :: s.descendants t).map .node
  | .parent => (ancestors t).take 1 |>.map .node
  | .ancestor => (ancestors t).map .node
  | .ancestorOrSelf => (t :: ancestors t).map .node
  | .followingSibling => (s.siblingsAfter t).map .node
  | .precedingSibling => (siblingsBefore t).map .node
  | .following => (s.following t).map .node
  | .preceding => (s.preceding t).map .node
  | .attribute => s.attributes t
  | .bindings => s.declarations t

/-- The places along an axis from any place, the nearest ones first. -/
def along (a : Axis) (p : Place) : List Place :=
  match p.part with
  | .whole => s.alongNode a p.trail
  | _ =>
    match a with
    | .itself | .descendantOrSelf => [p]
    | .parent => [.node p.trail]
    | .ancestor => (p.trail :: ancestors p.trail).map .node
    | .ancestorOrSelf => p :: (p.trail :: ancestors p.trail).map .node
    | .following => (s.following p.trail).map .node
    | .preceding => (s.preceding p.trail).map .node
    | _ => []

/-- The attribute at a place. -/
def attribute? (p : Place) : Option Xml.Attr :=
  match p.part with
  | .attribute i => (s.opening? p.trail).bind fun o => o.attributes[i]?
  | _ => none

/-- The declaration at a place. -/
def binding? (p : Place) : Option Xml.Binding :=
  match p.part with
  | .binding i => (s.inForce p.trail)[i]?
  | _ => none

/-- The expanded name of the element or attribute at a place. -/
def name? (p : Place) : Option Xml.Name :=
  match p.part with
  | .whole => (s.opening? p.trail).map Xml.Opening.name
  | _ => (s.attribute? p).map Xml.Attr.name

/-- The text that a place stands for. -/
def textOf (p : Place) : Text :=
  match p.part with
  | .whole =>
    match s.node? p.trail with
    | some n => n.stringValue
    | none => Xml.Node.stringValues (s.content p.trail)
  | .attribute _ => ((s.attribute? p).map Xml.Attr.value).getD []
  | .binding _ => ((s.binding? p).map Xml.Binding.uri).getD []

/-- The namespace that a node test asks for: none for names without a qualifier. The whole is none
when the qualifier of the test is not known. -/
def wanted? (k : NodeTest) : Option (Option Text) :=
  let lookup (q : Text) : Option (Option Text) :=
    if q = "xml".toList then some (some Xml.xmlNamespace)
    else (s.bindings.find? fun b => b.qualifier == some q).map fun b => some b.uri
  match k with
  | .inNamespace q => lookup q
  | .named (some q) _ => lookup q
  | _ => some none

/-- Is the node at a place of this kind? A reference that was left in the text is of no kind. -/
def hasKind (k : Kind) (p : Place) : Bool :=
  match p.part with
  | .whole =>
    match s.node? p.trail with
    | none => k == .any
    | some (.element ..) => k == .any
    | some (.text _) => k == .any || k == .text
    | some (.comment _) => k == .any || k == .comment
    | some (.instruction t _) => k == .any || k == .instruction none || k == .instruction (some t)
    | some (.reference _) => false
  | _ => k == .any

/-- Is the place of the kind that names on this axis stand for? -/
def isPrincipal (a : Axis) (p : Place) : Bool :=
  match a with
  | .attribute => (s.attribute? p).isSome
  | .bindings => (s.binding? p).isSome
  | _ => p.part == .whole && (s.opening? p.trail).isSome

/-- Does a place on this axis satisfy a node test that asks for the given namespace? -/
def satisfies (a : Axis) (k : NodeTest) (uri : Option Text) (p : Place) : Bool :=
  match k with
  | .kind k => s.hasKind k p
  | .any => s.isPrincipal a p
  | .inNamespace _ =>
    s.isPrincipal a p && (a == .bindings || (s.name? p).any fun n => n.uri == uri)
  | .named _ base =>
    s.isPrincipal a p &&
      (if a = .bindings then (s.binding? p).any fun b => b.qualifier == some base
       else (s.name? p).any fun n => n.base == base && n.uri == uri)

end Site

end UiTree.XPath
