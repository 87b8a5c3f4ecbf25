import UiTree.Text.Digit
import UiTree.XPath.Number

/-!
# UiTree.Proofs.XPath.Number -- positions as numbers

A position is written in decimal digits and read digit by digit into a double. Below two to the
fifty-third nothing is lost. From there on digits may be rounded away, but what is read never comes
down below the limit again, so that it is mistaken for no smaller number.

* **The invariant.** `Denotes x n`: the double that was read stands for the natural number whose
  digits were read so far.
* **Main statement.** `eqv_digitsValue`: what the digits of a number are read as equals a number
  below the limit only if it is that number.
-/

namespace UiTree.XPath

open Binary64

/-! ## Large numbers -/

/-- An infinity, or a natural number from the limit of exactness on. -/
def IsLarge (x : Binary64) : Prop :=
  x = .infinite false ∨ ∃ m k : Nat, x = .finite false m k ∧ exactLimit ≤ m <<< k

/-- A number of more than fifty-three bits keeps at least the value of its highest bit. -/
theorem le_shiftToEven {m s : Nat} (h : 1 <<< (52 + s) ≤ m) : 1 <<< 52 ≤ shiftToEven m s := by
  have hshift : 1 <<< 52 ≤ m >>> s := by
    rw [Nat.shiftRight_eq_div_pow, Nat.le_div_iff_mul_le (Nat.two_pow_pos s), ← Nat.shiftLeft_eq,
      ← Nat.shiftLeft_add]
    exact h
  rw [shiftToEven]
  split
  · next hs =>
    rw [hs, Nat.shiftRight_zero] at hshift
    exact hshift
  · dsimp only
    split
    · exact Nat.le_succ_of_le hshift
    · exact hshift

theorem shiftLeft_le_of_bitLength {m b : Nat} (h : b < bitLength m) : 1 <<< b ≤ m := by
  rw [bitLength] at h
  split at h
  · omega
  · next hm =>
    rw [Nat.one_shiftLeft]
    exact (Nat.le_log2 hm).mp (by omega)

/-- **Rounding keeps large numbers large.** -/
theorem isLarge_rounded {m k : Nat} (h : exactLimit ≤ m <<< k) : IsLarge (rounded false m k) := by
  have hm : m ≠ 0 := by
    rintro rfl
    rw [Nat.zero_shiftLeft] at h
    exact absurd h (by decide)
  -- a natural number is cut to fifty-three bits, never to the range of small exponents
  have hs : max (bitLength m - 53) (-1074 - (k : Int)).toNat = bitLength m - 53 := by omega
  rw [rounded, if_neg hm, if_neg (by omega)]
  split
  · exact Or.inl rfl
  · simp only [hs]
    split
    · exact Or.inl rfl
    · refine Or.inr ⟨shiftToEven m (bitLength m - 53), k + (bitLength m - 53), by simp, ?_⟩
      -- without a cut the number stays; after a cut its highest bit alone is large enough
      cases hcut : bitLength m - 53 with
      | zero =>
          rw [shiftToEven, if_pos rfl, Nat.add_zero]
          exact h
      | succ s =>
          have hlow : 1 <<< 52 ≤ shiftToEven m (s + 1) :=
            le_shiftToEven (shiftLeft_le_of_bitLength (by omega))
          calc exactLimit = (1 <<< 52) * (1 <<< 1) := by decide
            _ ≤ shiftToEven m (s + 1) * (1 <<< (k + (s + 1))) := by
              refine Nat.mul_le_mul hlow ?_
              rw [Nat.one_shiftLeft, Nat.one_shiftLeft]
              exact Nat.pow_le_pow_right (by decide) (by omega)
            _ = shiftToEven m (s + 1) <<< (k + (s + 1)) := by
              rw [Nat.one_shiftLeft, ← Nat.shiftLeft_eq]

theorem scaled_natCast (m k : Nat) : scaled false m k 0 = (m <<< k : Nat) := by
  have hk : ((k : Int) - 0).toNat = k := by omega
  simp only [scaled, hk, Bool.false_eq_true, if_false]

/-- A large number is none below the limit. -/
theorem eqv_of_isLarge {x : Binary64} {n : Nat} (hx : IsLarge x) (hn : n < exactLimit) :
    x.eqv (ofNat n) = false := by
  rw [ofNat_of_lt hn]
  rcases hx with rfl | ⟨m, k, rfl, hm⟩
  · rfl
  · have hmin : min (k : Int) 0 = 0 := by omega
    show (scaled false m k (min (k : Int) 0) == scaled false n 0 (min (k : Int) 0)) = false
    rw [hmin, scaled_natCast, scaled_self, beq_eq_false_iff_ne]
    omega

/-! ## Reading digits -/

/-- The number is exact below the limit, and large from there on. -/
def Denotes (x : Binary64) (n : Nat) : Prop :=
  n < exactLimit ∧ x = .finite false n 0 ∨ exactLimit ≤ n ∧ IsLarge x

theorem denotes_rounded (n : Nat) : Denotes (rounded false n 0) n := by
  by_cases hn : n < exactLimit
  · exact Or.inl ⟨hn, rounded_of_lt false hn⟩
  · have hlarge : exactLimit ≤ n <<< 0 := by
      rw [Nat.shiftLeft_zero]
      omega
    exact Or.inr ⟨by omega, isLarge_rounded hlarge⟩

/-- Ten times a number. -/
theorem denotes_mul {x : Binary64} {n : Nat} (h : Denotes x n) :
    Denotes (mul x (ofNat 10)) (10 * n) := by
  rw [ofNat_of_lt (by decide), Nat.mul_comm]
  rcases h with ⟨-, rfl⟩ | ⟨hn, rfl | ⟨m, k, rfl, hm⟩⟩
  · exact denotes_rounded (n * 10)
  · exact Or.inr ⟨by omega, Or.inl rfl⟩
  · refine Or.inr ⟨by omega, ?_⟩
    have hk : (k : Int) + 0 = k := by omega
    show IsLarge (rounded false (m * 10) (k + 0))
    rw [hk]
    refine isLarge_rounded ?_
    rw [Nat.shiftLeft_eq, Nat.mul_right_comm, ← Nat.shiftLeft_eq]
    omega

/-- One digit more than a number. -/
theorem denotes_add {x : Binary64} {n d : Nat} (h : Denotes x n) (hd : d < exactLimit) :
    Denotes (add x (ofNat d)) (n + d) := by
  rw [ofNat_of_lt hd]
  -- the sum is taken at exponent zero, where both are natural numbers
  have hsum : ∀ m k : Nat, 0 < m <<< k + d →
      add (.finite false m k) (.finite false d 0) = rounded false (m <<< k + d) 0 := by
    intro m k hpos
    have hmin : min (k : Int) 0 = 0 := by omega
    have hscaled : scaled false m k 0 + scaled false d 0 0 = ((m <<< k + d : Nat) : Int) := by
      rw [scaled_natCast, scaled_self, Int.natCast_add]
    simp only [add, hmin, hscaled]
    rw [if_neg (by omega), decide_eq_false (by omega), Int.natAbs_natCast]
  rcases h with ⟨hn, rfl⟩ | ⟨hn, rfl | ⟨m, k, rfl, hm⟩⟩
  · by_cases hzero : n + d = 0
    · obtain ⟨rfl, rfl⟩ : n = 0 ∧ d = 0 := by omega
      exact Or.inl ⟨by decide, rfl⟩
    · have hadd := hsum n 0 (by rw [Nat.shiftLeft_zero]; omega)
      rw [Nat.shiftLeft_zero] at hadd
      show Denotes (add (.finite false n (0 : Nat)) (.finite false d 0)) (n + d)
      rw [hadd]
      exact denotes_rounded (n + d)
  · exact Or.inr ⟨by omega, Or.inl rfl⟩
  · rw [hsum m k (by omega)]
    refine Or.inr ⟨by omega, isLarge_rounded (k := 0) ?_⟩
    rw [Nat.shiftLeft_zero]
    omega

theorem denotes_foldl {x : Binary64} {n : Nat} (h : Denotes x n) {t : Text}
    (hdigits : ∀ c ∈ t, c.isDigit = true) :
    Denotes (t.foldl shiftIn x) (Nat.ofDigitChars 10 t n) := by
  induction t generalizing x n with
  | nil =>
      rw [Nat.ofDigitChars_nil]
      exact h
  | cons c t ih =>
      have hdigit : digitOf c < exactLimit := by
        have hle : c.toNat ≤ 57 := (Text.toNat_of_isDigit (hdigits c List.mem_cons_self)).2
        have hlimit : 57 < exactLimit := by decide
        rw [digitOf]
        omega
      rw [Nat.ofDigitChars_cons, List.foldl_cons]
      exact ih (denotes_add (denotes_mul h) hdigit) fun d hd =>
        hdigits d (List.mem_cons_of_mem c hd)

/-- The digits of a number are read as that number. -/
theorem denotes_digitsValue (n : Nat) : Denotes (digitsValue (Text.ofNat n)) n := by
  have hzero : Denotes zero 0 := Or.inl ⟨by decide, rfl⟩
  have hread := denotes_foldl hzero (t := Text.ofNat n) fun c hc => Text.isDigit_of_mem_ofNat hc
  rw [Text.ofNat, Nat.ofDigitChars_ten_toDigits] at hread
  exact hread

/-- **What the digits of a number are read as equals a number below the limit only if it is that
number.** -/
theorem eqv_digitsValue {n i : Nat} (hi : i < exactLimit) :
    (digitsValue (Text.ofNat n)).eqv (ofNat i) = decide (n = i) := by
  rcases denotes_digitsValue n with ⟨hn, hx⟩ | ⟨hn, hx⟩
  · rw [hx, ← ofNat_of_lt hn, eqv_ofNat hn hi]
  · rw [eqv_of_isLarge hx hi, decide_eq_false (by omega)]

end UiTree.XPath
