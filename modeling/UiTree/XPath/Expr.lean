import UiTree.Number.Binary64
import UiTree.Text.Basic

/-!
# UiTree.XPath.Expr -- path expressions

The abstract form of XPath 1.0 expressions. A location path is a chain of steps: every step starts
from the nodes of the expression before it, which is the root, the context node, or any expression.

* **Abbreviations.** The short forms of steps have no constructors of their own: `//` is a step
  along `descendantOrSelf` (`Expr.subtree`), `..` a step along `parent`, and `.` adds nothing.
* **Groups.** Parentheses stay visible around everything but literals and numbers (`Expr.grouped`),
  because two filters on a group are read apart from all others.
-/

namespace UiTree.XPath

/-- The direction of a step. -/
inductive Axis where
  | ancestor
  | ancestorOrSelf
  | attribute
  | child
  | descendant
  | descendantOrSelf
  | following
  | followingSibling
  | bindings
  | parent
  | preceding
  | precedingSibling
  | itself
  deriving DecidableEq, Repr

namespace Axis

/-- All axes. -/
def all : List Axis :=
  [.ancestor, .ancestorOrSelf, .attribute, .child, .descendant, .descendantOrSelf, .following,
   .followingSibling, .bindings, .parent, .preceding, .precedingSibling, .itself]

/-- The name of an axis in path text. -/
def name : Axis → Text
  | .ancestor => "ancestor".toList
  | .ancestorOrSelf => "ancestor-or-self".toList
  | .attribute => "attribute".toList
  | .child => "child".toList
  | .descendant => "descendant".toList
  | .descendantOrSelf => "descendant-or-self".toList
  | .following => "following".toList
  | .followingSibling => "following-sibling".toList
  | .bindings => "namespace".toList
  | .parent => "parent".toList
  | .preceding => "preceding".toList
  | .precedingSibling => "preceding-sibling".toList
  | .itself => "self".toList

/-- The axis of a name, when there is one. -/
def ofName? (t : Text) : Option Axis := all.find? fun a => a.name == t

end Axis

/-- A kind of node that a step can ask for. -/
inductive Kind where
  | any
  | text
  | comment
  | instruction (target : Option Text)
  deriving DecidableEq, Repr

/-- What a step keeps of the nodes on its axis. -/
inductive NodeTest where
  | any
  | inNamespace (qualifier : Text)
  | named (qualifier : Option Text) (base : Text)
  | kind (k : Kind)
  deriving DecidableEq, Repr

/-- An operator between two operands. -/
inductive BinaryOp where
  | or
  | and
  | equal
  | unequal
  | less
  | atMost
  | greater
  | atLeast
  | plus
  | minus
  | times
  | quotient
  | remainder
  | union
  deriving DecidableEq, Repr

namespace BinaryOp

/-- The symbol of an operator. -/
def symbol : BinaryOp → Text
  | .or => "or".toList
  | .and => "and".toList
  | .equal => ['=']
  | .unequal => ['!', '=']
  | .less => ['<']
  | .atMost => ['<', '=']
  | .greater => ['>']
  | .atLeast => ['>', '=']
  | .plus => ['+']
  | .minus => ['-']
  | .times => ['*']
  | .quotient => "div".toList
  | .remainder => "mod".toList
  | .union => ['|']

end BinaryOp

/-- A path expression. -/
inductive Expr where
  | binary (op : BinaryOp) (left right : Expr)
  | signed (negative : Bool) (operand : Expr)
  | literal (value : Text)
  | number (value : Binary64)
  | variable (name : Text)
  | call (qualifier : Option Text) (name : Text) (arguments : List Expr)
  | group (inner : Expr)
  | filter (source predicate : Expr)
  | root
  | here
  | step (source : Expr) (axis : Axis) (test : NodeTest) (predicates : List Expr)
  deriving Repr, Inhabited

namespace Expr

/-- An expression between parentheses. -/
def grouped : Expr → Expr
  | .literal t => .literal t
  | .number x => .number x
  | e => .group e

/-- The nodes of an expression together with everything below them. -/
def subtree (e : Expr) : Expr := .step e .descendantOrSelf (.kind .any) []

end Expr

end UiTree.XPath
