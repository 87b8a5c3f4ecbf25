import UiTree.Tree

/-!
# UiTree.Xml.Tree -- documents as trees

A document is a row of nodes, exactly one of which is an element. Names are expanded: they carry the
namespace name that their qualifier is bound to.

* **Universal names.** `Name.universal` writes a name with its namespace in braces in front.
* **Elements alone.** `Node.elementTree?` forgets everything but the elements.
-/

namespace UiTree.Xml

/-- A name with the namespace that it belongs to. -/
structure Name where
  uri : Option Text
  qualifier : Option Text
  base : Text
  deriving DecidableEq, Repr

namespace Name

/-- The base of a name, after its namespace in braces where it has one. -/
def universal (n : Name) : Text :=
  match n.uri with
  | some u => '\x7b' :: u ++ '\x7d' :: n.base
  | none => n.base

/-- The name with its qualifier and a colon in front, as it is written. -/
def qualified (n : Name) : Text :=
  match n.qualifier with
  | some q => q ++ ':' :: n.base
  | none => n.base

end Name

/-- An attribute and its value. -/
structure Attr where
  name : Name
  value : Text
  deriving DecidableEq, Repr

/-- A namespace declaration: a qualifier, or none for the default, and the namespace name. -/
structure Binding where
  qualifier : Option Text
  uri : Text
  deriving DecidableEq, Repr

/-- What a start tag says: the name, the attributes and the namespace declarations in document
order, and the identifiers that the element has. -/
structure Opening where
  name : Name
  attributes : List Attr
  bindings : List Binding
  ids : List Text
  deriving DecidableEq, Repr

namespace Opening

/-- The value of the attribute with this universal name. -/
def get? (o : Opening) (name : Text) : Option Text :=
  (o.attributes.find? fun a => a.name.universal == name).map Attr.value

end Opening

/-- A node of a document. A reference to an entity that is not declared stays in the tree. -/
inductive Node where
  | element (opening : Opening) (children : List Node)
  | text (content : Text)
  | comment (content : Text)
  | instruction (target content : Text)
  | reference (entity : Text)
  deriving Inhabited

namespace Node

mutual

/-- The text below a node: for elements, all character data inside in document order. -/
def stringValue : Node → Text
  | .element _ ns => stringValues ns
  | .text t => t
  | .comment t => t
  | .instruction _ t => t
  | .reference _ => []

/-- The character data in a row of nodes; comments and instructions add nothing. -/
def stringValues : List Node → Text
  | [] => []
  | .comment _ :: ns => stringValues ns
  | .instruction _ _ :: ns => stringValues ns
  | n :: ns => stringValue n ++ stringValues ns

end

mutual

/-- The elements at and below a node. -/
def elementTree? : Node → Option (Tree Opening)
  | .element o ns => some (.node o (elementTrees ns))
  | _ => none

/-- The elements in a row of nodes. -/
def elementTrees : List Node → List (Tree Opening)
  | [] => []
  | n :: ns =>
    match elementTree? n with
    | some t => t :: elementTrees ns
    | none => elementTrees ns

end

end Node

/-- The namespace of names that begin with `xml:`. -/
def xmlNamespace : Text := "http://www.w3.org/XML/1998/namespace".toList

/-- The namespace of the declarations themselves. -/
def bindingNamespace : Text := "http://www.w3.org/2000/xmlns/".toList

end UiTree.Xml
