/-!
# UiTree.Number.Binary64 -- exact double-precision arithmetic

Path expressions compute with IEEE 754 doubles, and so do decimal literals in data. This module
gives them an **exact model**: a finite value is a sign, a natural mantissa and a binary exponent,
and every operation is an operation on integers followed by one rounding to 53 bits, to nearest, a
tie going to the even neighbour.

* **Representation.** A finite value need not be normalised: `finite s m e` is `± m · 2 ^ e`, and
  two values are compared through what they denote. A natural number below `exactLimit` is stored
  as itself.
* **Main statements.** `rounded_of_lt`: what already fits is not changed by rounding. `eqv_ofNat`:
  between small natural numbers, equality of doubles is equality.
-/

namespace UiTree

/-- A double-precision number: not a number, a signed infinity, or `± mantissa · 2 ^ exponent`. -/
inductive Binary64 where
  | nan
  | infinite (negative : Bool)
  | finite (negative : Bool) (mantissa : Nat) (exponent : Int)
  deriving Repr, DecidableEq, Inhabited

namespace Binary64

/-- Two to the fifty-third: every natural number below it is a double. -/
def exactLimit : Nat := 9007199254740992

/-- Ten to a natural power. -/
def tenTo (k : Nat) : Nat := Nat.pow 10 k

/-- The number of binary digits of a natural number; zero has none. -/
def bitLength (n : Nat) : Nat := if n = 0 then 0 else n.log2 + 1

/-- `m / 2 ^ s` rounded to the nearest natural number, a tie to the even one. -/
def shiftToEven (m s : Nat) : Nat :=
  if s = 0 then m
  else
    let q := m >>> s
    let r := m % (1 <<< s)
    let half := 1 <<< (s - 1)
    if half < r || (r == half && q % 2 == 1) then q + 1 else q

/-- The double nearest to `± m · 2 ^ e`. -/
def rounded (negative : Bool) (m : Nat) (e : Int) : Binary64 :=
  if m = 0 then .finite negative 0 0
  -- far below the least double, and far above the greatest: decided before anything is shifted
  else if (bitLength m : Int) + e < -1080 then .finite negative 0 0
  else if 1100 < (bitLength m : Int) + e then .infinite negative
  else
    -- at most 53 bits are kept, and none below the exponent of the subnormals
    let s := max (bitLength m - 53) (-1074 - e).toNat
    let m' := shiftToEven m s
    if 1024 < (bitLength m' : Int) + (e + s) then .infinite negative
    else .finite negative m' (e + s)

/-- The double nearest to `± num / den`, for a positive `den`. -/
def ofRatio (negative : Bool) (num den : Nat) : Binary64 :=
  -- a quotient of more than 64 bits, and one bit that tells whether anything was cut off
  let k := 66 + bitLength den - bitLength num
  let q := (num <<< k) / den
  let sticky := if (num <<< k) % den = 0 then 0 else 1
  rounded negative (2 * q + sticky) (-(k : Int) - 1)

/-- The double nearest to a natural number. -/
def ofNat (n : Nat) : Binary64 := rounded false n 0

/-- The double nearest to an integer. -/
def ofInt (i : Int) : Binary64 := rounded (i < 0) i.natAbs 0

def zero : Binary64 := .finite false 0 0

def one : Binary64 := .finite false 1 0

/-- The double nearest to `± n · 10 ^ e`. -/
def ofDecimal (negative : Bool) (n : Nat) (e : Int) : Binary64 :=
  let digits : Int := (Nat.toDigits 10 n).length
  if n = 0 then .finite negative 0 0
  else if digits + e < -330 then .finite negative 0 0
  else if 320 < digits + e then .infinite negative
  else if 0 ≤ e then rounded negative (n * tenTo e.toNat) 0
  else ofRatio negative n (tenTo (-e).toNat)

/-- The double nearest to `10 ^ e`. -/
def powerOfTen (e : Int) : Binary64 := ofDecimal false 1 e

def isNaN : Binary64 → Bool
  | .nan => true
  | _ => false

def isZero : Binary64 → Bool
  | .finite _ 0 _ => true
  | _ => false

/-- The signed mantissa of a finite value brought to a common exponent `e` below its own. -/
def scaled (negative : Bool) (m : Nat) (own e : Int) : Int :=
  let n : Int := (m <<< (own - e).toNat : Nat)
  if negative then -n else n

/-- Equality of the numbers denoted: not a number equals nothing, the two zeros are equal. -/
def eqv : Binary64 → Binary64 → Bool
  | .infinite s, .infinite t => s == t
  | .finite s m e, .finite t n f => scaled s m e (min e f) == scaled t n f (min e f)
  | _, _ => false

/-- The strict order of the numbers denoted; not a number is unordered. -/
def lt : Binary64 → Binary64 → Bool
  | .nan, _ => false
  | _, .nan => false
  | .infinite s, .infinite t => s && !t
  | .infinite s, .finite _ _ _ => s
  | .finite _ _ _, .infinite t => !t
  | .finite s m e, .finite t n f => scaled s m e (min e f) < scaled t n f (min e f)

def le (x y : Binary64) : Bool := lt x y || eqv x y

def neg : Binary64 → Binary64
  | .nan => .nan
  | .infinite s => .infinite !s
  | .finite s m e => .finite (!s) m e

def add : Binary64 → Binary64 → Binary64
  | .nan, _ => .nan
  | _, .nan => .nan
  | .infinite s, .infinite t => if s = t then .infinite s else .nan
  | .infinite s, .finite _ _ _ => .infinite s
  | .finite _ _ _, .infinite t => .infinite t
  | .finite s m e, .finite t n f =>
    let g := min e f
    let sum := scaled s m e g + scaled t n f g
    if sum = 0 then .finite (s && t) 0 0 else rounded (sum < 0) sum.natAbs g

def sub (x y : Binary64) : Binary64 := add x (neg y)

def mul : Binary64 → Binary64 → Binary64
  | .nan, _ => .nan
  | _, .nan => .nan
  | .infinite s, .infinite t => .infinite (s != t)
  | .infinite s, .finite t n _ => if n = 0 then .nan else .infinite (s != t)
  | .finite s m _, .infinite t => if m = 0 then .nan else .infinite (s != t)
  | .finite s m e, .finite t n f => rounded (s != t) (m * n) (e + f)

def div : Binary64 → Binary64 → Binary64
  | .nan, _ => .nan
  | _, .nan => .nan
  | .infinite _, .infinite _ => .nan
  | .infinite s, .finite t _ _ => .infinite (s != t)
  | .finite s _ _, .infinite t => .finite (s != t) 0 0
  | .finite s m e, .finite t n f =>
    if n = 0 then (if m = 0 then .nan else .infinite (s != t))
    else if m = 0 then .finite (s != t) 0 0
    else if f ≤ e then ofRatio (s != t) (m <<< (e - f).toNat) n
    else ofRatio (s != t) m (n <<< (f - e).toNat)

/-- The remainder of the division that rounds toward zero; it has the sign of the dividend. -/
def rem : Binary64 → Binary64 → Binary64
  | .nan, _ => .nan
  | _, .nan => .nan
  | .infinite _, _ => .nan
  | .finite s m e, .infinite _ => .finite s m e
  | .finite s m e, .finite _ n f =>
    if n = 0 then .nan
    else
      let g := min e f
      rounded s ((m <<< (e - g).toNat) % (n <<< (f - g).toNat)) g

/-- The greatest integer that is not above a finite value. -/
def floorInt (negative : Bool) (m : Nat) (e : Int) : Int :=
  let n : Int := if negative then -(m : Int) else m
  if 0 ≤ e then n * (1 <<< e.toNat : Nat) else n / (1 <<< (-e).toNat : Nat)

/-- The greatest integral double that is not above `x`; a zero keeps its sign. -/
def floor : Binary64 → Binary64
  | .finite s m e =>
    let i := floorInt s m e
    if i = 0 then .finite s 0 0 else ofInt i
  | x => x

/-- The least integral double that is not below `x`. -/
def ceil (x : Binary64) : Binary64 := neg (floor (neg x))

/-- The integer that a value is, when it is one. -/
def toInt? : Binary64 → Option Int
  | .finite s m e =>
    let i := floorInt s m e
    if eqv (.finite s m e) (.finite (i < 0) i.natAbs 0) then some i else none
  | _ => none

theorem bitLength_le_of_lt {n k : Nat} (h : n < 1 <<< k) : bitLength n ≤ k := by
  rw [Nat.one_shiftLeft] at h
  unfold bitLength
  split
  · omega
  · next hn => exact (Nat.log2_lt hn).2 h

/-- Rounding changes nothing that has at most 53 binary digits. -/
theorem rounded_of_lt (s : Bool) {m : Nat} (h : m < exactLimit) :
    rounded s m 0 = .finite s m 0 := by
  by_cases hm : m = 0
  · simp [rounded, hm]
  · have hlimit : m < 1 <<< 53 := h
    have hb : bitLength m ≤ 53 := bitLength_le_of_lt hlimit
    have hs : bitLength m - 53 = 0 := by omega
    simp only [rounded, hm, if_false, hs]
    simp only [shiftToEven]
    rw [if_neg (by omega), if_neg (by omega)]
    simp
    omega

theorem ofNat_of_lt {n : Nat} (h : n < exactLimit) : ofNat n = .finite false n 0 :=
  rounded_of_lt false h

/-- Scaling a natural number to its own exponent leaves it as it is. -/
theorem scaled_self (n : Nat) (e : Int) : scaled false n e e = n := by
  have he : (e - e).toNat = 0 := by omega
  simp only [scaled, he, Nat.shiftLeft_zero, Bool.false_eq_true, if_false]

/-- Between natural numbers below the limit, equality of doubles is equality. -/
theorem eqv_ofNat {m n : Nat} (hm : m < exactLimit) (hn : n < exactLimit) :
    eqv (ofNat m) (ofNat n) = decide (m = n) := by
  rw [ofNat_of_lt hm, ofNat_of_lt hn]
  show (scaled false m 0 0 == scaled false n 0 0) = decide (m = n)
  rw [scaled_self, scaled_self, Bool.eq_iff_iff, beq_iff_eq, decide_eq_true_iff]
  exact Int.ofNat_inj

end Binary64

end UiTree
