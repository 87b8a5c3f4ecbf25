import UiTree.Text.Digit

/-!
# UiTree.Bounds -- rectangles written in attribute values

Two notations are in use: `[x1,y1][x2,y2]` gives two corners, and a text with braces in place of the
brackets gives a corner and a size. A coordinate is an optional minus sign and digits of any script.

* **Two readings.** `isCorners` is the strict one: the whole text is two corners and nothing else.
  `Bounds.read?` looks for the pairs anywhere in the text and wants exactly two of them; only the
  first character decides which notation is looked for.
* **Limit.** A coordinate of more than 4300 digits is refused, and the refusal tells the number of
  digits.
-/

namespace UiTree

/-- A coordinate as written: its sign and its digits. -/
structure Coordinate where
  negative : Bool
  digits : Text
  deriving DecidableEq, Repr

namespace Coordinate

/-- The integer that a coordinate writes. -/
def value (c : Coordinate) : Int :=
  let n : Int := Text.number c.digits
  if c.negative then -n else n

/-- A coordinate at the start of a text, and what follows it; it takes every digit there is. -/
def read? (t : Text) : Option (Coordinate × Text) :=
  let (negative, body) := match t with | '-' :: r => (true, r) | r => (false, r)
  let (digits, rest) := Text.spanDigits body
  if digits.isEmpty then none else some (⟨negative, digits⟩, rest)

/-- The longest digit run that is turned into a number. -/
def maxDigits : Nat := 4300

/-- The integer of a coordinate, or the number of its digits when there are too many. -/
def value? (c : Coordinate) : Except Nat Int :=
  if maxDigits < c.digits.length then .error c.digits.length else .ok c.value

end Coordinate

/-- Is the whole text one integer, with an optional minus sign? -/
def isIntegerText (t : Text) : Bool :=
  match Coordinate.read? t with
  | some (_, []) => true
  | _ => false

/-- Two coordinates with a comma between them, in the given brackets. -/
def readPair? (opening closing : Char) : Text → Option ((Coordinate × Coordinate) × Text)
  | [] => none
  | c :: t =>
    if c ≠ opening then none
    else
      match Coordinate.read? t with
      | some (a, ',' :: t) =>
        match Coordinate.read? t with
        | some (b, d :: rest) => if d = closing then some ((a, b), rest) else none
        | _ => none
      | _ => none

/-- Is the whole text two corners? -/
def isCorners (t : Text) : Bool :=
  match readPair? '[' ']' t with
  | some (_, rest) =>
    match readPair? '[' ']' rest with
    | some (_, []) => true
    | _ => false
  | none => false

/-- All pairs in a text, from the left and without overlap. The fuel is the length of the text. -/
def findPairsFrom (opening closing : Char) : Nat → Text → List (Coordinate × Coordinate)
  | 0, _ => []
  | _ + 1, [] => []
  | fuel + 1, c :: t =>
    match readPair? opening closing (c :: t) with
    | some (p, rest) => p :: findPairsFrom opening closing fuel rest
    | none => findPairsFrom opening closing fuel t

/-- All pairs in a text, from the left and without overlap. -/
def findPairs (opening closing : Char) (t : Text) : List (Coordinate × Coordinate) :=
  findPairsFrom opening closing t.length t

/-- A rectangle: its first corner, its width and its height. -/
structure Bounds where
  x : Int
  y : Int
  w : Int
  h : Int
  deriving DecidableEq, Repr

namespace Bounds

/-- The four integers of two pairs, the first one with too many digits failing. -/
def values (p q : Coordinate × Coordinate) : Except Nat (Int × Int × Int × Int) := do
  let a ← p.1.value?
  let b ← p.2.value?
  let c ← q.1.value?
  let d ← q.2.value?
  return (a, b, c, d)

/-- The rectangle that an attribute value writes, if it writes one. -/
def read? (t : Text) : Except Nat (Option Bounds) :=
  match t with
  | '[' :: _ =>
    match findPairs '[' ']' t with
    | [p, q] => do
      let (x1, y1, x2, y2) ← values p q
      return some ⟨x1, y1, x2 - x1, y2 - y1⟩
    | _ => .ok none
  | '\x7b' :: _ =>
    match findPairs '\x7b' '\x7d' t with
    | [p, q] => do
      let (x, y, w, h) ← values p q
      return some ⟨x, y, w, h⟩
    | _ => .ok none
  | _ => .ok none

/-- The point in the middle, each coordinate rounded down. -/
def center (b : Bounds) : Int × Int := (b.x + Int.fdiv b.w 2, b.y + Int.fdiv b.h 2)

end Bounds

end UiTree
