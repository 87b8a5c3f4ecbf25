import UiTree.Query.Basic
import UiTree.Selector.Reader

/-!
# UiTree.Query.PathText -- selectors as path expressions

A selector is run by writing it as a path expression: the axis of the scope, one predicate in square
brackets for every predicate of the selector, and around the whole a position for the match index.

* **Quoting.** Path expressions have no escape character. A value with a single quote in it is cut
  at every quote and put together again by `concat`, the quotes themselves standing in double
  quotes.
* **Words.** Containment on free text pads the value and the attribute with a space on either side,
  so that only whole words are found.
-/

namespace UiTree

/-- A text between single quotes. -/
def singleQuoted (t : Text) : Text := '\'' :: t ++ ['\'']

/-- What stands between the pieces of a value: a comma, a quote in double quotes, and a comma. -/
def quoteJoint : Text := [',', ' ', '"', '\'', '"', ',', ' ']

/-- A path expression whose value is the given text. -/
def pathLiteral (value : Text) : Text :=
  if value.contains '\'' then
    "concat(".toList ++ Text.join quoteJoint ((Text.pieces '\'' value).map singleQuoted) ++ [')']
  else singleQuoted value

namespace Predicate

/-- The predicate as a predicate of a path expression. -/
def pathText (p : Predicate) : Text :=
  let name := '@' :: p.attr.key
  match p.operator with
  | .equals => '[' :: name ++ '=' :: pathLiteral p.value ++ [']']
  | .contains =>
    if p.attr.valueKind = .wordText then
      "[contains(concat(' ', ".toList ++ name ++ ", ' '), ".toList ++ pathLiteral (padded p.value)
        ++ [')', ']']
    else "[contains(".toList ++ name ++ ',' :: pathLiteral p.value ++ [')', ']']
  | .partly => "[contains(".toList ++ name ++ ',' :: pathLiteral p.value ++ [')', ']']
  | .startsWith => "[starts-with(".toList ++ name ++ ',' :: pathLiteral p.value ++ [')', ']']

end Predicate

namespace Selector

/-- The first step of a compiled path: all elements of the document, or all descendants. -/
def axisText (scope : Scope) : Text :=
  if scope.isDocument then "//*".toList else ".//*".toList

/-- The path expression for the predicates of a selector. -/
def bodyText (s : Selector) (scope : Scope) : Text :=
  axisText scope ++ s.predicates.flatMap Predicate.pathText

/-- The path expression of a selector; positions count from one. -/
def pathText (s : Selector) (scope : Scope) : Except Fault Text :=
  match s.matchIndex with
  | none => .ok (s.bodyText scope)
  | some k => do
    let position ← shownInteger (k + 1)
    return '(' :: s.bodyText scope ++ [')', '['] ++ position ++ [']']

/-- Compiles a selector with at least one predicate for a scope. -/
def compile (s : Selector) (scope : Scope) : Report PathQuery :=
  if s.isEmpty then .fail (.malformed .nothingToCompile (some []))
  else do
    let path ← .of (s.pathText scope)
    .tell (.compiled s path)
    return ⟨path, scope.isDocument, scope.context⟩

end Selector

/-- Reads selector text and gives its path expression. -/
def compileText (strict : Bool) (scope : Scope) (t : Text) : Report Text := do
  let s ← Selector.read strict t
  let q ← s.compile scope
  return q.path

end UiTree
