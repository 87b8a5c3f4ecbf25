import UiTree.Xml.Tree

/-!
# UiTree.Outline -- the structural view of a hierarchy

Beside the tree of elements with expanded names there is an **outline**: the same tree with names
and attribute keys as texts. A name from a namespace is written with a qualifier that is bound to
that namespace at its element, which need not be the one that the document uses.

* **Qualifiers.** Of several qualifiers for one namespace the innermost declaration counts, and of
  those in one start tag the last. A namespace that is only bound as the default gives a bare name.
* **Keys.** A key may stand in a tag twice; `Tag.get?` takes the last one.
-/

namespace UiTree

/-- A node of the outline. -/
structure Tag where
  name : Text
  attributes : List (Text × Text)
  deriving DecidableEq, Repr

namespace Tag

/-- The value of the last attribute with this key. -/
def get? (t : Tag) (key : Text) : Option Text :=
  (t.attributes.reverse.find? fun a => a.1 == key).map Prod.snd

end Tag

namespace Outline

/-- The qualifiers in force, the ones that count first. -/
abbrev Qualifiers := List Xml.Binding

/-- The qualifiers that are in force without any declaration. -/
def initial : Qualifiers := [⟨some "xml".toList, Xml.xmlNamespace⟩]

/-- The qualifiers in force inside a start tag. -/
def enter (outer : Qualifiers) (o : Xml.Opening) : Qualifiers := o.bindings.reverse ++ outer

/-- An expanded name as a text. -/
def nameText (q : Qualifiers) (n : Xml.Name) : Text :=
  match n.uri with
  | none => n.base
  | some u =>
    match (q.find? fun b => b.uri == u).bind Xml.Binding.qualifier with
    | none => n.base
    | some p => p ++ ':' :: n.base

/-- A start tag as a node of the outline. -/
def tag (q : Qualifiers) (o : Xml.Opening) : Tag :=
  ⟨nameText q o.name, o.attributes.map fun a => (nameText q a.name, a.value)⟩

mutual

/-- The outline of a tree of elements. -/
def ofTree (outer : Qualifiers) : Tree Xml.Opening → Tree Tag
  | .node o ts => .node (tag (enter outer o) o) (ofTrees (enter outer o) ts)

/-- The outlines of several trees. -/
def ofTrees (outer : Qualifiers) : List (Tree Xml.Opening) → List (Tree Tag)
  | [] => []
  | t :: ts => ofTree outer t :: ofTrees outer ts

end

end Outline

/-- The text after the last occurrence of a separator, or the whole text. -/
def afterLast (sep : Char) (t : Text) : Text := (t.reverse.takeWhile fun c => c != sep).reverse

/-- A name without its namespace in braces, or without its qualifier. -/
def localName : Text → Text
  | '\x7b' :: t => afterLast '\x7d' ('\x7b' :: t)
  | t => afterLast ':' t

end UiTree
