import UiTree.Report
import UiTree.Text.Blank

/-!
# UiTree.Query.Basic -- queries and the part of the hierarchy they search

A query is a selector, a path expression, or a path expression that was compiled before and carries
what is known about it. It is run over a **scope**: the whole document, or the proper descendants of
the node at an address.

* **Classification.** `isRelativePath` tells from the first step of a path expression whether it
  starts at the context node. It looks through leading blanks and one run of parentheses.
-/

namespace UiTree

/-- The whole document, or the proper descendants of one node. -/
structure Scope where
  context : Option Address
  deriving DecidableEq

namespace Scope

/-- The whole document. -/
def document : Scope := ⟨none⟩

/-- The proper descendants of the node at an address. -/
def descendantsOf (a : Address) : Scope := ⟨some a⟩

/-- Is the scope the whole document? -/
def isDocument (s : Scope) : Bool := s.context.isNone

end Scope

/-- The first steps that start at the context node. -/
def relativeStarts : List Text := ["./".toList, "descendant::".toList, "child::".toList]

/-- Does a path expression start from the context node rather than from the document? -/
def isRelativePath (path : Text) : Bool :=
  let step := Text.trimStart ((Text.trimStart path).dropWhile fun c => c == '(')
  relativeStarts.any fun s => Text.isStart s step

/-- A path expression with what is known about it. -/
structure PathQuery where
  path : Text
  absolute : Bool
  context : Option Address
  deriving DecidableEq

namespace PathQuery

/-- A hand-written path expression, classified by its first step. -/
def ofPath (path : Text) (context : Option Address) : PathQuery :=
  ⟨path, !isRelativePath path, context⟩

end PathQuery

/-- Anything that can be asked; `other` is a value that is no query. -/
inductive Query where
  | selector (s : Selector)
  | compiled (q : PathQuery)
  | path (t : Text)
  | other (d : Datum)

namespace Query

/-- A query given as a value of unknown type: a text is a path expression. -/
def ofDatum : Datum → Query
  | .text t => .path t
  | d => .other d

/-- The text that messages use for a query. -/
def text : Query → Text
  | .selector s => s.text
  | .compiled q => q.path
  | .path t => t
  | .other d => d.display

end Query

end UiTree
