import Mathlib.Algebra.Order.Ring.Nat
import Mathlib.Tactic.GCongr
import MessageBridge.Decimal.Reading

/-!
# Integers among the binary64 numbers

Rounding keeps mantissas below their bound, so the integer part of whatever is rounded is a mantissa
below the bound times a power of two (`Exact`). Such an integer is its own nearest number: rounding
finds the power of two for which its mantissa is a whole number, and there is nothing left to round.
-/

namespace MessageBridge.Decimal.Binary64

variable {negative : Bool} {num den n : Nat} {shift e : Int} {x : Binary64}

/-- The integer is a mantissa below the bound, times a power of two. -/
def Exact (n : Nat) : Prop := ∃ m k, m < mantissaBound ∧ n = m * 2 ^ k

theorem exact_of_lt (small : n < mantissaBound) : Exact n := ⟨n, 0, small, by simp⟩

/-! ## Mantissas are bounded -/

theorem roundDiv_le {d b : Nat} (below : n / d < b) : roundDiv n d ≤ b := by
  rw [roundDiv]
  have tie : n / d % 2 ≤ 1 := by omega
  split
  · omega
  · split
    · omega
    · omega

theorem roundDiv_of_dvd {d : Nat} (pos : 0 < d) (whole : d ∣ n) : roundDiv n d = n / d := by
  simp [roundDiv, Nat.mod_eq_zero_of_dvd whole, pos]

/-- A quotient scaled down to 53 places is below the bound. -/
theorem scaleBy_div_lt (nonzero : den ≠ 0) (places : (num.log2 : Int) - den.log2 - 52 ≤ e) :
    (scaleBy num den e).1 / (scaleBy num den e).2 < mantissaBound := by
  have above : num < 2 ^ (num.log2 + 1) := Nat.lt_log2_self
  have below : 2 ^ den.log2 ≤ den := Nat.log2_self_le nonzero
  rw [scaleBy]
  split
  · have fits : num < den * 2 ^ e.toNat * mantissaBound := calc
      num < 2 ^ (num.log2 + 1) := above
      _ ≤ 2 ^ (den.log2 + e.toNat + 53) := Nat.pow_le_pow_right (by decide) (by omega)
      _ = 2 ^ den.log2 * 2 ^ e.toNat * mantissaBound := by rw [Nat.pow_add, Nat.pow_add]; rfl
      _ ≤ den * 2 ^ e.toNat * mantissaBound := by gcongr
    exact Nat.div_lt_of_lt_mul fits
  · have fits : num * 2 ^ (-e).toNat < den * mantissaBound := calc
      num * 2 ^ (-e).toNat < 2 ^ (num.log2 + 1) * 2 ^ (-e).toNat :=
        Nat.mul_lt_mul_of_pos_right above (Nat.two_pow_pos _)
      _ = 2 ^ (num.log2 + 1 + (-e).toNat) := (Nat.pow_add ..).symm
      _ ≤ 2 ^ (den.log2 + 53) := Nat.pow_le_pow_right (by decide) (by omega)
      _ = 2 ^ den.log2 * mantissaBound := Nat.pow_add ..
      _ ≤ den * mantissaBound := by gcongr
    exact Nat.div_lt_of_lt_mul fits

theorem mantissa_lt_of_ofRatio (nonzero : den ≠ 0)
    (rounds : ofRatio negative num den shift = some x) : x.mantissa < mantissaBound := by
  rw [ofRatio] at rounds
  split at rounds
  · cases rounds
    exact Nat.two_pow_pos 53
  · extract_lets guess atGuess e ratio m y at rounds
    -- the guess is one place short, unless the quotient fits there already
    have fits : ratio.1 / ratio.2 < mantissaBound := by
      by_cases short : mantissaBound ≤ atGuess.1 / atGuess.2
      · refine scaleBy_div_lt nonzero ?_
        simp only [e, short, if_true]
        omega
      · simp only [ratio, e, short, if_false]
        exact Nat.not_le.mp short
    have bounded : y.mantissa < mantissaBound := by
      have carries : m ≤ mantissaBound := roundDiv_le fits
      by_cases carry : m = mantissaBound
      · simp only [y, carry, if_true]
        decide
      · simp only [y, carry, if_false]
        exact Nat.lt_of_le_of_ne carries carry
    split at rounds
    · cases rounds
    · rw [← Option.some.inj rounds]
      exact bounded

theorem magnitude_zero (negative : Bool) : (zero negative).magnitude = 0 := by
  rw [magnitude, zero, Nat.zero_mul, Nat.zero_div, ite_self]

theorem exact_magnitude (bounded : x.mantissa < mantissaBound) : Exact x.magnitude := by
  rw [magnitude]
  split
  · exact ⟨x.mantissa, x.exponent.toNat, bounded, rfl⟩
  · exact exact_of_lt (Nat.lt_of_le_of_lt (Nat.div_le_self _ _) bounded)

/-! ## Exact integers are their own nearest numbers -/

/-- The power of two by which an exact integer is scaled to 53 places divides it. -/
theorem pow_dvd_of_exact (nonzero : n ≠ 0) (exact : Exact n) : 2 ^ (n.log2 - 52) ∣ n := by
  obtain ⟨m, k, bounded, rfl⟩ := exact
  have large : (m * 2 ^ k).log2 < 53 + k := by
    rw [Nat.log2_lt nonzero, Nat.pow_add]
    exact Nat.mul_lt_mul_of_pos_right bounded (Nat.two_pow_pos k)
  exact Nat.dvd_mul_left_of_dvd (Nat.pow_dvd_pow 2 (by omega)) m

theorem scaleBy_of_exact (negative : Bool) (nonzero : n ≠ 0) (exact : Exact n) :
    let scaled := scaleBy n 1 (n.log2 - 52)
    0 < scaled.2 ∧ scaled.2 ∣ scaled.1 ∧
      magnitude ⟨negative, scaled.1 / scaled.2, n.log2 - 52⟩ = n := by
  intro scaled
  by_cases large : 52 ≤ n.log2
  · have places : (0 : Int) ≤ n.log2 - 52 := by omega
    have same : ((n.log2 : Int) - 52).toNat = n.log2 - 52 := by omega
    have whole := pow_dvd_of_exact nonzero exact
    have scales : scaled = (n, 2 ^ (n.log2 - 52)) := by
      rw [← same, ← Nat.one_mul (2 ^ _)]
      exact if_pos places
    rw [scales, magnitude, if_pos places, same]
    exact ⟨Nat.two_pow_pos _, whole, Nat.div_mul_cancel whole⟩
  · have places : ¬(0 : Int) ≤ n.log2 - 52 := by omega
    have scales : scaled = (n * 2 ^ (-((n.log2 : Int) - 52)).toNat, 1) := if_neg places
    rw [scales, magnitude, if_neg places]
    refine ⟨Nat.one_pos, Nat.one_dvd _, ?_⟩
    rw [Nat.div_one]
    exact Nat.mul_div_cancel n (Nat.two_pow_pos _)

theorem le_scaleBy_div (nonzero : n ≠ 0) :
    mantissaBound ≤ (scaleBy n 1 (n.log2 - 53)).1 / (scaleBy n 1 (n.log2 - 53)).2 := by
  have below : 2 ^ n.log2 ≤ n := Nat.log2_self_le nonzero
  rw [scaleBy]
  split
  · dsimp only
    rw [Nat.one_mul, Nat.pow_eq, Nat.le_div_iff_mul_le (Nat.two_pow_pos _)]
    calc mantissaBound * 2 ^ ((n.log2 : Int) - 53).toNat
        = 2 ^ (53 + ((n.log2 : Int) - 53).toNat) := (Nat.pow_add 2 53 _).symm
      _ ≤ 2 ^ n.log2 := Nat.pow_le_pow_right (by decide) (by omega)
      _ ≤ n := below
  · rw [Nat.div_one]
    calc mantissaBound = 2 ^ 53 := rfl
      _ ≤ 2 ^ (n.log2 + (-((n.log2 : Int) - 53)).toNat) :=
        Nat.pow_le_pow_right (by decide) (by omega)
      _ = 2 ^ n.log2 * 2 ^ (-((n.log2 : Int) - 53)).toNat := Nat.pow_add ..
      _ ≤ n * 2 ^ (-((n.log2 : Int) - 53)).toNat := by gcongr

/-- An exact integer is its own nearest number. -/
theorem ofRatio_of_exact (exact : Exact n) (small : n.log2 < 1024) :
    ∃ x, ofRatio false n 1 0 = some x ∧ x.negative = false ∧ x.magnitude = n := by
  by_cases zero : n = 0
  · subst zero
    exact ⟨.zero false, rfl, rfl, magnitude_zero false⟩
  have guess : max minExponent ((n.log2 : Int) - Nat.log2 1 - 53 + 0) = n.log2 - 53 := by
    have one : Nat.log2 1 = 0 := by decide
    rw [minExponent, one]
    omega
  obtain ⟨pos, whole, same⟩ := scaleBy_of_exact false zero exact
  have below : (scaleBy n 1 (n.log2 - 52)).1 / (scaleBy n 1 (n.log2 - 52)).2 < mantissaBound :=
    scaleBy_div_lt Nat.one_ne_zero (by simp)
  have next : (n.log2 : Int) - 53 + 1 = n.log2 - 52 := by omega
  refine ⟨⟨false, (scaleBy n 1 (n.log2 - 52)).1 / (scaleBy n 1 (n.log2 - 52)).2, n.log2 - 52⟩,
    ?_, rfl, same⟩
  have inside : ¬maxExponent < (n.log2 : Int) - 52 := by
    simp only [maxExponent]
    omega
  simp only [ofRatio, zero, if_false, guess, Int.sub_zero, le_scaleBy_div zero, if_true, next,
    roundDiv_of_dvd pos whole, Nat.ne_of_lt below, inside]

end MessageBridge.Decimal.Binary64
