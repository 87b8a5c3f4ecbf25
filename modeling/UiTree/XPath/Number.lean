import UiTree.Number.Decimal
import UiTree.Xml.Char

/-!
# UiTree.XPath.Number -- numbers in path expressions

How path expressions read and write doubles. Reading works digit by digit in double arithmetic, so a
long run of digits is rounded at every digit and not once at the end; of a fraction at most twenty
digits count after its leading zeros. An exponent may follow.

* **Writing.** An integer of the 32-bit range is written plainly. Other values have fifteen
  significant digits, without the zeros at their end; beyond a thousand millions, and below a
  hundred-thousandth, they are written with an exponent.
-/

namespace UiTree.XPath

open Binary64

/-- The value of an ASCII digit. -/
def digitOf (c : Char) : Nat := c.toNat - '0'.toNat

/-- The number with one more digit at its end. -/
def shiftIn (x : Binary64) (c : Char) : Binary64 := add (mul x (ofNat 10)) (ofNat (digitOf c))

/-- The number that a run of digits writes. -/
def digitsValue (t : Text) : Binary64 := t.foldl shiftIn zero

/-- The most digits of a fraction that count, its leading zeros apart. -/
def maxFraction : Nat := 20

/-- The fraction that the digits after the point write. -/
def fractionValue (t : Text) : Binary64 :=
  let zeros := (t.takeWhile fun c => c == '0').length
  let counted := (t.drop zeros).take maxFraction
  div (digitsValue counted) (powerOfTen (zeros + counted.length))

/-- An exponent that grows no further once it is above a million. -/
def exponentValue (t : Text) : Nat :=
  t.foldl (fun n c => if n < 1000000 then 10 * n + digitOf c else n) 0

/-- The sign of an exponent, and what follows it. -/
def cutSign : Text → Bool × Text
  | '-' :: t => (true, t)
  | '+' :: t => (false, t)
  | t => (false, t)

/-- A number multiplied by the power of ten that follows it, if one follows. -/
def readExponent (x : Binary64) (t : Text) : Binary64 × Text :=
  match t with
  | c :: r =>
    if c = 'e' ∨ c = 'E' then
      let (negative, r) := cutSign r
      let (ds, r) := Text.cutWhile Char.isDigit r
      let n : Int := exponentValue ds
      (mul x (powerOfTen (if negative then -n else n)), r)
    else (x, t)
  | [] => (x, t)

/-- A number at the start of a text, and what follows it. -/
def readNumber (t : Text) : Option (Binary64 × Text) :=
  let (whole, r) := Text.cutWhile Char.isDigit t
  match r with
  | '.' :: r =>
    let (part, r) := Text.cutWhile Char.isDigit r
    if whole.isEmpty && part.isEmpty then none
    else some (readExponent (add (digitsValue whole) (fractionValue part)) r)
  | r => if whole.isEmpty then none else some (readExponent (digitsValue whole) r)

/-- The number that a text denotes. Blanks may stand around it and a minus sign in front of it; any
other text denotes no number. -/
def numberOfText (t : Text) : Binary64 :=
  let t := Xml.skipSpace t
  let (negative, t) := match t with | '-' :: r => (true, r) | r => (false, r)
  match readNumber t with
  | some (x, r) => if (Xml.skipSpace r).isEmpty then (if negative then neg x else x) else .nan
  | none => .nan

/-- A text without the zeros at its end, nor the point before them. -/
def stripFraction (t : Text) : Text :=
  match t.reverse.dropWhile fun c => c == '0' with
  | '.' :: r => r.reverse
  | r => r.reverse

/-- The decimal exponent that decides how many places are written after the point. -/
def placeOf (m : Nat) (e : Int) : Int :=
  let lead := leading m e
  if 0 ≤ lead then lead
  else if eqv (.finite false m e) (powerOfTen lead) then lead
  else lead + 1

/-- A positive magnitude that is no plain integer. -/
def magnitudeText (m : Nat) (e : Int) : Text :=
  let x : Binary64 := .finite false m e
  if lt (ofNat 1000000000) x || lt x (powerOfTen (-5)) then
    let (ds, k) := scientificText m e 14
    stripFraction ds ++ 'e' :: exponentText k
  else
    let place := placeOf m e
    let places := if 0 < place then 14 - place else 15 - place
    stripFraction (fixedText m e places.toNat)

/-- The text of a number. -/
def numberText : Binary64 → Text
  | .nan => "NaN".toList
  | .infinite false => "Infinity".toList
  | .infinite true => "-Infinity".toList
  | .finite _ 0 _ => ['0']
  | .finite s m e =>
    match toInt? (.finite s m e) with
    | some i =>
      if -2147483648 < i ∧ i < 2147483647 then Text.ofInt i
      else (if s then ['-'] else []) ++ magnitudeText m e
    | none => (if s then ['-'] else []) ++ magnitudeText m e

end UiTree.XPath
