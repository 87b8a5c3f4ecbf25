import UiTree.Number.Binary64
import UiTree.Text.Basic

/-!
# UiTree.Number.Decimal -- decimal texts of doubles

Two texts of a double are in use. The **shortest text** has the fewest digits that read back as the
same double, and of those the nearest to it; it is what data shows. The **rounded text** has a fixed
number of digits after the point, computed from the exact value; number-to-text conversion in path
expressions is built from it.

* **Choice of notation.** The shortest text is positional from `10 ^ -4` up to below `10 ^ 16`, with
  `.0` after an integral value, and scientific elsewhere, with a sign and two digits of exponent.
-/

namespace UiTree.Binary64

/-- A finite magnitude as a fraction of natural numbers. -/
def fraction (m : Nat) (e : Int) : Nat × Nat :=
  if 0 ≤ e then (m <<< e.toNat, 1) else (m, 1 <<< (-e).toNat)

/-- `num / den · 10 ^ p` rounded down. -/
def scaleDown (num den : Nat) (p : Int) : Nat :=
  if 0 ≤ p then num * tenTo p.toNat / den else num / (den * tenTo (-p).toNat)

/-- `num / den · 10 ^ p` rounded to nearest, a tie to the even neighbour. -/
def scaleNearest (num den : Nat) (p : Int) : Nat :=
  let n := if 0 ≤ p then num * tenTo p.toNat else num
  let d := if 0 ≤ p then den else den * tenTo (-p).toNat
  let q := n / d
  let r := n % d
  if d < 2 * r || (2 * r == d && q % 2 == 1) then q + 1 else q

/-- The exponent of the leading decimal digit of a positive magnitude. -/
def leading (m : Nat) (e : Int) : Int :=
  let (num, den) := fraction m e
  let guess : Int := ((bitLength m : Int) + e - 1) * 30103 / 100000
  let candidates := [guess + 2, guess + 1, guess, guess - 1]
  (candidates.find? fun k => 0 < scaleDown num den (-k)).getD (guess - 2)

/-- The digits of the shortest text and the exponent of the leading one, trying `n` digits and then
more of them; `fuel` bounds how many more. -/
def shortestFrom (m : Nat) (e : Int) (lead : Int) : Nat → Nat → Nat × Int
  | n, 0 => (scaleNearest (fraction m e).1 (fraction m e).2 (n - 1 - lead), lead - n + 1)
  | n, fuel + 1 =>
    let (num, den) := fraction m e
    let p : Int := n - 1 - lead
    let low := scaleDown num den p
    let near := scaleNearest num den p
    let far := if near = low then low + 1 else low
    let value := Binary64.finite false m e
    if eqv (ofDecimal false near (-p)) value then (near, -p)
    else if eqv (ofDecimal false far (-p)) value then (far, -p)
    else shortestFrom m e lead (n + 1) fuel

/-- A natural number without its trailing decimal zeros, and how many there were. -/
def stripZeros (n : Nat) : Nat → Nat × Nat
  | 0 => (n, 0)
  | fuel + 1 =>
    if n ≠ 0 ∧ n % 10 = 0 then
      let (d, z) := stripZeros (n / 10) fuel
      (d, z + 1)
    else (n, 0)

/-- Digits `d` read as `d · 10 ^ e`, in positional notation. -/
def positional (d : Text) (e : Int) : Text :=
  if 0 ≤ e then d ++ List.replicate e.toNat '0' ++ ['.', '0']
  else
    let places := (-e).toNat
    if places < d.length then d.take (d.length - places) ++ '.' :: d.drop (d.length - places)
    else '0' :: '.' :: List.replicate (places - d.length) '0' ++ d

/-- An exponent with its sign and at least two digits. -/
def exponentText (k : Int) : Text :=
  let ds := Text.ofNat k.natAbs
  (if k < 0 then '-' else '+') :: List.replicate (2 - ds.length) '0' ++ ds

/-- The shortest text of a double. -/
def shortest : Binary64 → Text
  | .nan => "NaN".toList
  | .infinite s => (if s then ['-'] else []) ++ "Infinity".toList
  | .finite s 0 _ => (if s then ['-'] else []) ++ "0.0".toList
  | .finite s m e =>
    let (n, x) := shortestFrom m e (leading m e) 1 17
    let (n, z) := stripZeros n 400
    let d := Text.ofNat n
    let x := x + z
    let lead := x + d.length - 1
    let body :=
      if -4 ≤ lead ∧ lead < 16 then positional d x
      else d.take 1 ++ (if d.length = 1 then [] else '.' :: d.drop 1) ++ 'e' :: exponentText lead
    (if s then ['-'] else []) ++ body

/-- A magnitude with exactly `places` digits after the point, rounded from the exact value. -/
def fixedText (m : Nat) (e : Int) (places : Nat) : Text :=
  let (num, den) := fraction m e
  let ds := Text.ofNat (scaleNearest num den places)
  let ds := List.replicate (places + 1 - ds.length) '0' ++ ds
  ds.take (ds.length - places) ++ (if places = 0 then [] else '.' :: ds.drop (ds.length - places))

/-- A positive magnitude in scientific notation with `places` digits after the point: the digits
with their point, and the exponent. -/
def scientificText (m : Nat) (e : Int) (places : Nat) : Text × Int :=
  let (num, den) := fraction m e
  let lead := leading m e
  let n := scaleNearest num den (places - lead)
  let (ds, lead) :=
    if tenTo (places + 1) ≤ n then (Text.ofNat (n / 10), lead + 1) else (Text.ofNat n, lead)
  (ds.take 1 ++ (if places = 0 then [] else '.' :: ds.drop 1), lead)

end UiTree.Binary64
