import UiTree.XPath.Number
import UiTree.XPath.Place

/-!
# UiTree.XPath.Value -- the values of path expressions

An expression denotes places in the document, a truth value, a number or a text. Values of one kind
are turned into another where an operator or a function wants that.

* **Places as text.** Places denote the text of the first of them in document order.
* **Comparison.** Places satisfy a comparison as soon as one of them does, or one pair of them;
  against a truth value it only counts whether there are any.
-/

namespace UiTree.XPath

/-- The value of an expression. Places are in document order, each of them once. -/
inductive Value where
  | places (ps : List Place)
  | truth (b : Bool)
  | number (x : Binary64)
  | text (t : Text)
  deriving Repr

/-- A strict or weak comparison of two numbers. -/
inductive Relation where
  | less
  | atMost
  | greater
  | atLeast
  deriving DecidableEq, Repr

namespace Relation

/-- Does the relation hold between two numbers? It never holds of what is no number. -/
def holds (r : Relation) (x y : Binary64) : Bool :=
  match r with
  | .less => x.lt y
  | .atMost => x.le y
  | .greater => y.lt x
  | .atLeast => y.le x

end Relation

namespace Value

/-- A number is true unless it is zero or no number. -/
def numberTruth (x : Binary64) : Bool := !x.isZero && !x.isNaN

/-- The truth value of a value. -/
def toTruth : Value → Bool
  | .places ps => !ps.isEmpty
  | .truth b => b
  | .number x => numberTruth x
  | .text t => !t.isEmpty

/-- The text of a value. -/
def toText (s : Site) : Value → Text
  | .places [] => []
  | .places (p :: _) => s.textOf p
  | .truth b => if b then "true".toList else "false".toList
  | .number x => numberText x
  | .text t => t

/-- The number that a value denotes. -/
def toNumber (s : Site) : Value → Binary64
  | .number x => x
  | .truth b => if b then .one else .zero
  | v => numberOfText (v.toText s)

/-- The places that a value is, when it is places. -/
def places? : Value → Option (List Place)
  | .places ps => some ps
  | _ => none

/-- Is the value a truth value? -/
def isTruth : Value → Bool
  | .truth _ => true
  | _ => false

/-- Is the value a number? -/
def isNumber : Value → Bool
  | .number _ => true
  | _ => false

/-- Is one text the other, or not, as asked? -/
def textsAgree (negated : Bool) (t u : Text) : Bool := (t == u) != negated

/-- Are two numbers equal, or unequal, as asked? What is no number differs from everything. -/
def numbersAgree (negated : Bool) (x y : Binary64) : Bool := x.eqv y != negated

/-- Are two values equal, or different when that is asked? -/
def agree (s : Site) (negated : Bool) : Value → Value → Bool
  | .places ps, .places qs =>
    ps.any fun p => qs.any fun q => textsAgree negated (s.textOf p) (s.textOf q)
  | .places ps, .number x =>
    ps.any fun p => numbersAgree negated (numberOfText (s.textOf p)) x
  | .number x, .places ps =>
    ps.any fun p => numbersAgree negated x (numberOfText (s.textOf p))
  | .places ps, .text t => ps.any fun p => textsAgree negated (s.textOf p) t
  | .text t, .places ps => ps.any fun p => textsAgree negated t (s.textOf p)
  | v, w =>
    if v.isTruth || w.isTruth then (v.toTruth == w.toTruth) != negated
    else if v.isNumber || w.isNumber then numbersAgree negated (v.toNumber s) (w.toNumber s)
    else textsAgree negated (v.toText s) (w.toText s)

/-- The numbers that a value is compared by: one for every place, otherwise one. -/
def magnitudes (s : Site) : Value → List Binary64
  | .places ps => ps.map fun p => numberOfText (s.textOf p)
  | v => [v.toNumber s]

/-- Does a relation hold between two values? -/
def related (s : Site) (r : Relation) (v w : Value) : Bool :=
  if v.isTruth || w.isTruth then
    let number (u : Value) : Binary64 := if u.toTruth then .one else .zero
    let side (u : Value) : Binary64 :=
      match u with
      | .places _ => number u
      | u => u.toNumber s
    r.holds (side v) (side w)
  else (v.magnitudes s).any fun x => (w.magnitudes s).any fun y => r.holds x y

end Value

end UiTree.XPath
