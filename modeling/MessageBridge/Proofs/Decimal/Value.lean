import Mathlib.Algebra.Order.Field.Power
import Mathlib.Algebra.Order.Floor.Semifield
import Mathlib.Data.Rat.Floor
import MessageBridge.Proofs.Decimal.Nearest

/-!
# The values of binary64 numbers

A binary64 number denotes a rational number (`Binary64.value`), and its integer part is the value
cut off toward zero. What rounding does to a value is said here only as far as powers of two go: a
quotient that reaches a power of two is not rounded below it (`Binary64.two_pow_le_of_ofRatio`),
since the power is a whole number of units in the last place or at most one such unit. So a number
that is too large for 64 bits stays too large when it is rounded, and so does its product with a
power of ten.
-/

namespace MessageBridge

namespace Decimal.Binary64

variable {negative : Bool} {num den n j k : Nat} {shift e : Int} {x y z : Binary64}

/-! ## Values -/

/-- The absolute value of the number. -/
def absValue (x : Binary64) : ℚ := x.mantissa * 2 ^ x.exponent

/-- The value of the number. -/
def value (x : Binary64) : ℚ := if x.negative then -x.absValue else x.absValue

theorem absValue_nonneg (x : Binary64) : 0 ≤ x.absValue := by
  rw [absValue]
  positivity

theorem absValue_withSign (negative : Bool) (x : Binary64) :
    (x.withSign negative).absValue = x.absValue := rfl

theorem value_zero (negative : Bool) : (zero negative).value = 0 := by
  rw [value, absValue, zero, Nat.cast_zero, zero_mul, neg_zero, ite_self]

theorem truncate_zero (negative : Bool) : (zero negative).truncate = 0 := by
  rw [truncate, magnitude_zero]
  exact ite_self 0

theorem magnitude_eq_floor (x : Binary64) : x.magnitude = ⌊x.absValue⌋₊ := by
  rw [magnitude, absValue]
  split
  · rename_i nonneg
    have whole : (2 : ℚ) ^ x.exponent = (2 ^ x.exponent.toNat : ℕ) := by
      rw [← Int.toNat_of_nonneg nonneg, zpow_natCast, Int.toNat_natCast, Nat.cast_pow,
        Nat.cast_ofNat]
    rw [whole, ← Nat.cast_mul, Nat.floor_natCast, Nat.pow_eq]
  · rename_i fraction
    have divides : (2 : ℚ) ^ x.exponent = ((2 ^ (-x.exponent).toNat : ℕ) : ℚ)⁻¹ := by
      rw [Nat.cast_pow, Nat.cast_ofNat, ← zpow_natCast, ← zpow_neg,
        Int.toNat_of_nonneg (by omega), neg_neg]
    rw [divides, ← div_eq_mul_inv, Nat.floor_div_eq_div, Nat.pow_eq]

theorem le_magnitude_iff : n ≤ x.magnitude ↔ (n : ℚ) ≤ x.absValue := by
  rw [magnitude_eq_floor, Nat.le_floor_iff x.absValue_nonneg]

theorem lt_truncate_iff : (n : Int) < x.truncate ↔ (n + 1 : ℚ) ≤ x.value := by
  have reaches := le_magnitude_iff (n := n + 1) (x := x)
  push_cast at reaches
  rw [truncate, value]
  split
  · have nonneg := x.absValue_nonneg
    refine iff_of_false ?_ ?_
    · rw [Int.ofNat_eq_natCast]
      omega
    · linarith
  · rw [← reaches, Int.ofNat_eq_natCast]
    omega

/-! ## Rounding reaches powers of two -/

theorem div_le_roundDiv (n d : Nat) : n / d ≤ roundDiv n d := by
  rw [roundDiv]
  split
  · exact le_rfl
  · split
    · exact Nat.le_succ _
    · exact Nat.le_add_right _ _

/-- The quotient that is rounded is the ratio divided by the power of two. -/
theorem scaleBy_eq (num den : Nat) (e : Int) :
    ((scaleBy num den e).1 : ℚ) / (scaleBy num den e).2 = num / den / 2 ^ e := by
  rw [scaleBy]
  split
  · rename_i nonneg
    have whole : (2 : ℚ) ^ e = 2 ^ e.toNat := by
      rw [← zpow_natCast, Int.toNat_of_nonneg nonneg]
    rw [Nat.pow_eq, Nat.cast_mul, Nat.cast_pow, Nat.cast_ofNat, whole, div_div]
  · rename_i fraction
    have whole : (2 : ℚ) ^ e = (2 ^ (-e).toNat)⁻¹ := by
      rw [← zpow_natCast, ← zpow_neg, Int.toNat_of_nonneg (by omega), neg_neg]
    rw [Nat.pow_eq, Nat.cast_mul, Nat.cast_pow, Nat.cast_ofNat, whole, div_inv_eq_mul,
      mul_div_right_comm]

theorem scaleBy_sub_eq (num den : Nat) (e shift : Int) :
    ((scaleBy num den (e - shift)).1 : ℚ) / (scaleBy num den (e - shift)).2 =
      num / den * 2 ^ shift / 2 ^ e := by
  rw [scaleBy_eq, zpow_sub₀ two_ne_zero]
  field_simp

/-- Where a mantissa carries, the exponent takes it over. -/
theorem absValue_of_carry (negative : Bool) (m : Nat) (e : Int) :
    absValue (if m = mantissaBound then ⟨negative, normalMantissa, e + 1⟩ else ⟨negative, m, e⟩) =
      m * 2 ^ e := by
  split
  · rename_i carry
    have twice : (mantissaBound : ℚ) = normalMantissa * 2 := by
      rw [mantissaBound, normalMantissa]
      norm_num
    rw [absValue, carry, twice, zpow_add_one₀ two_ne_zero]
    ring
  · rfl

theorem le_div_iff_cast {c a b : Nat} : c ≤ a / b ↔ (c : ℚ) ≤ a / b := by
  rw [← Nat.floor_div_eq_div (K := ℚ), Nat.le_floor_iff (by positivity)]

/-- A quotient reaches the power of two that the lengths of its parts promise. -/
theorem two_zpow_le_div (num_ne : num ≠ 0) (den_ne : den ≠ 0) :
    (2 : ℚ) ^ ((num.log2 : Int) - den.log2 - 1) ≤ num / den := by
  have above : (2 ^ num.log2 : ℚ) ≤ num := by
    exact_mod_cast Nat.log2_self_le num_ne
  have below : (den : ℚ) ≤ 2 ^ (den.log2 + 1) := by
    exact_mod_cast (Nat.lt_log2_self (n := den)).le
  calc (2 : ℚ) ^ ((num.log2 : Int) - den.log2 - 1)
      = 2 ^ num.log2 / 2 ^ (den.log2 + 1) := by
        rw [sub_sub, zpow_sub₀ two_ne_zero, ← zpow_natCast, ← zpow_natCast, Nat.cast_succ]
    _ ≤ num / den := by gcongr

/-- The unit in the last place is the least one, or the quotient reaches it. -/
theorem two_zpow_le_of_scale (num_ne : num ≠ 0) (den_ne : den ≠ 0) {guess e : Int}
    (guessed : guess = max minExponent ((num.log2 : Int) - den.log2 - 53 + shift))
    (scaled : e = if mantissaBound ≤ (scaleBy num den (guess - shift)).1 /
        (scaleBy num den (guess - shift)).2 then guess + 1 else guess)
    (least : minExponent < e) : (2 : ℚ) ^ e ≤ num / den * 2 ^ shift := by
  by_cases short : mantissaBound ≤ (scaleBy num den (guess - shift)).1 /
      (scaleBy num den (guess - shift)).2
  · rw [if_pos short] at scaled
    have two_le : (2 : ℚ) ≤ mantissaBound := by
      rw [mantissaBound]
      norm_num
    rw [le_div_iff_cast, scaleBy_sub_eq, le_div_iff₀ (by positivity)] at short
    calc (2 : ℚ) ^ e = 2 * 2 ^ guess := by rw [scaled, zpow_add_one₀ two_ne_zero, mul_comm]
      _ ≤ mantissaBound * 2 ^ guess := by gcongr
      _ ≤ num / den * 2 ^ shift := short
  · rw [if_neg short] at scaled
    have long : e ≤ (num.log2 : Int) - den.log2 - 1 + shift := by omega
    calc (2 : ℚ) ^ e ≤ 2 ^ ((num.log2 : Int) - den.log2 - 1 + shift) :=
          zpow_le_zpow_right₀ one_le_two long
      _ = 2 ^ ((num.log2 : Int) - den.log2 - 1) * 2 ^ shift := zpow_add₀ two_ne_zero _ _
      _ ≤ num / den * 2 ^ shift := by gcongr; exact two_zpow_le_div num_ne den_ne

/-- **A quotient that reaches a power of two is not rounded below it.** -/
theorem two_pow_le_of_ofRatio (rounds : ofRatio negative num den shift = some x)
    (reached : (2 : ℚ) ^ k ≤ num / den * 2 ^ shift) : 2 ^ k ≤ x.absValue := by
  rw [ofRatio] at rounds
  split at rounds
  · rename_i zero
    rw [zero, Nat.cast_zero, zero_div, zero_mul] at reached
    exact absurd reached (not_le.mpr (by positivity))
  · rename_i nonzero
    extract_lets guess atGuess e ratio m y at rounds
    have denotes : y.absValue = m * 2 ^ e := absValue_of_carry negative m e
    have scales : (ratio.1 : ℚ) / ratio.2 = num / den * 2 ^ shift / 2 ^ e :=
      scaleBy_sub_eq num den e shift
    have rounded : ratio.1 / ratio.2 ≤ m := div_le_roundDiv _ _
    have positive : (0 : ℚ) < 2 ^ e := by positivity
    have holds : (2 : ℚ) ^ k ≤ m * 2 ^ e := by
      by_cases within : e ≤ k
      · -- the power of two is a whole number of units in the last place
        have whole : (2 : ℚ) ^ k = (2 ^ (k - e).toNat : ℕ) * 2 ^ e := by
          rw [Nat.cast_pow, Nat.cast_ofNat, ← zpow_natCast, ← zpow_natCast, ← zpow_add₀ two_ne_zero,
            Int.toNat_of_nonneg (by omega), sub_add_cancel]
        rw [whole] at reached ⊢
        have below : 2 ^ (k - e).toNat ≤ ratio.1 / ratio.2 := by
          rw [le_div_iff_cast, scales, le_div_iff₀ positive]
          exact reached
        gcongr
        exact below.trans rounded
      · have least : minExponent < e := by
          rw [minExponent]
          omega
        have den_ne : den ≠ 0 := by
          rintro rfl
          rw [Nat.cast_zero, div_zero, zero_mul] at reached
          exact absurd reached (not_le.mpr (by positivity))
        have unit : (2 : ℚ) ^ e ≤ num / den * 2 ^ shift :=
          two_zpow_le_of_scale nonzero den_ne rfl rfl least
        have some_unit : 1 ≤ ratio.1 / ratio.2 := by
          rw [le_div_iff_cast, scales, le_div_iff₀ positive, Nat.cast_one, one_mul]
          exact unit
        calc (2 : ℚ) ^ k = 2 ^ (k : Int) := (zpow_natCast _ _).symm
          _ ≤ 2 ^ e := zpow_le_zpow_right₀ one_le_two (by omega)
          _ = (1 : ℕ) * 2 ^ e := by rw [Nat.cast_one, one_mul]
          _ ≤ m * 2 ^ e := by gcongr; exact some_unit.trans rounded
    split at rounds
    · cases rounds
    · rw [← Option.some.inj rounds, denotes]
      exact holds

theorem two_pow_le_of_ofNat (rounds : ofNat n = some x) (reached : 2 ^ k ≤ n) :
    2 ^ k ≤ x.absValue := by
  refine two_pow_le_of_ofRatio rounds ?_
  rw [Nat.cast_one, div_one, zpow_zero, mul_one]
  exact_mod_cast reached

theorem two_pow_le_of_mul (product : x.mul y = some z) (left : 2 ^ j ≤ x.absValue)
    (right : 2 ^ k ≤ y.absValue) : 2 ^ (j + k) ≤ z.absValue := by
  refine two_pow_le_of_ofRatio product ?_
  calc (2 : ℚ) ^ (j + k) = 2 ^ j * 2 ^ k := pow_add 2 j k
    _ ≤ x.absValue * y.absValue := by gcongr; exact x.absValue_nonneg
    _ = (x.mantissa * y.mantissa : ℕ) / (1 : ℕ) * 2 ^ (x.exponent + y.exponent) := by
      rw [absValue, absValue, Nat.cast_mul, Nat.cast_one, div_one, zpow_add₀ two_ne_zero]
      ring

/-- So a product with a power of ten is as large as the factors make it. -/
theorem two_pow_le_of_scaled (made : x.scaled n = some z) (reached : 2 ^ k ≤ x.absValue) :
    2 ^ (k + 3 * n) ≤ z.absValue := by
  have ten : (2 : Nat) ^ (3 * n) ≤ Nat.pow 10 n := by
    rw [pow_mul]
    exact Nat.pow_le_pow_left (by decide) n
  rw [scaled] at made
  dsimp only at made
  split at made
  · obtain ⟨p, power, product⟩ := Option.bind_eq_some_iff.mp made
    rw [if_pos (Int.natCast_nonneg n)] at product
    exact two_pow_le_of_mul product reached (two_pow_le_of_ofNat power ten)
  · split at made
    · -- a number that reaches a power of two is not zero
      rename_i zero
      rw [absValue, beq_iff_eq.mp zero, Nat.cast_zero, zero_mul] at reached
      exact absurd reached (not_le.mpr (by positivity))
    · rw [if_pos (Int.natCast_nonneg n)] at made
      cases made

end Decimal.Binary64

end MessageBridge
