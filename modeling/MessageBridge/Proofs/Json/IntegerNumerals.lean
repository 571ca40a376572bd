import MessageBridge.Proofs.Decimal.Value
import MessageBridge.Proofs.Json.Numerals
import MessageBridge.Proofs.Text.Integers

/-!
# Integers as numerals

An integer that is written as a numeral, with neither a point nor an exponent, need not be read as
an integer: minus zero is read as a fraction, and so is what exceeds 64 bits. Within the 64 bits of
signed integers the number read is that integer nevertheless, and beyond them it is beyond them on
the same side (`Number.Stands.of_bare`). So bringing it into 64 bits gives what bringing the integer
itself into them gives, although digits may have been dropped and two roundings made on the way.

The digits are gathered into a significand from left to right. The invariant `Significand.Gathers`
says that a significand which is not full is the number that the digits spell, and that a full one
is so large that its least power of ten takes it past 64 bits.
-/

namespace MessageBridge.Json

open Decimal (Binary64)
open Text (digit? numberFrom SpellsBare Sign int64Min int64Max clampInt64)

variable {s : Significand} {negative : Bool} {cs : List Char} {n d k : Nat} {N : Int}
  {x : Number} {y : Binary64}

/-! ## Values -/

/-- The value of a number. -/
def Number.value : Number → ℚ
  | .int n => n
  | .float x => x.value

theorem Number.lt_truncate_iff : (n : Int) < x.truncate ↔ (n + 1 : ℚ) ≤ x.value := by
  cases x with
  | int k =>
    rw [truncate, value]
    exact_mod_cast Int.lt_iff_add_one_le
  | float y => exact Binary64.lt_truncate_iff

/-! ## Gathered digits -/

theorem digit?_le {c : Char} (read : digit? c = some d) : d ≤ 9 := by
  unfold digit? at read
  split at read
  · rename_i between
    have bounded : c.toNat ≤ '9'.toNat := between.2
    cases read
    exact Nat.sub_le_sub_right bounded '0'.toNat
  · cases read

/-- The significand holds the digits of a number, or is full because they do not fit. -/
inductive Significand.Gathers : Significand → Nat → Prop where
  | whole {n : Nat} : n ≤ significandMax → Gathers ⟨n, 0, false⟩ n
  | full {digits n : Nat} (dropped : Nat) : significandMax < digits * 10 + 9 →
      significandMax < n → Gathers ⟨digits, (dropped + 1 : Nat), true⟩ n

namespace Significand

theorem Gathers.add (gathers : s.Gathers n) (digit : d ≤ 9) :
    (s.addInteger d).Gathers (n * 10 + d) := by
  cases gathers with
  | whole fits =>
    by_cases room : n * 10 + d ≤ significandMax
    · rw [addInteger_of_fits room]
      exact .whole room
    · have exceeds : significandMax < n * 10 + d := Nat.not_le.mp room
      rw [addInteger, if_pos (by simpa using exceeds)]
      refine .full 0 ?_ exceeds
      dsimp only
      omega
  | full dropped least exceeds =>
    rw [addInteger, if_pos (Bool.true_or _)]
    exact .full (dropped + 1) least (by omega)

/-- **Digits are gathered from left to right.** -/
theorem Gathers.addAll (gathers : s.Gathers n) (isDigits : ∀ c ∈ cs, c.isDigit = true) :
    ((cs.filterMap digit?).foldl addInteger s).Gathers (numberFrom n cs) := by
  induction cs generalizing s n with
  | nil => exact gathers
  | cons c cs ih =>
    have read := Text.digit?_of_isDigit (isDigits c List.mem_cons_self)
    rw [List.filterMap_cons_some read, List.foldl_cons, numberFrom, List.foldl_cons]
    exact ih (gathers.add (digit?_le read)) fun c mem ↦ isDigits c (List.mem_cons_of_mem _ mem)

theorem gathers_ofInteger (isDigits : ∀ c ∈ cs, c.isDigit = true) :
    (ofInteger (cs.filterMap digit?)).Gathers (numberFrom 0 cs) :=
  Gathers.addAll (.whole (Nat.zero_le _)) isDigits

/-- A significand shifted to the left is as large as its digits and its exponent make it. -/
theorem two_pow_le_of_toBinary64 (made : s.toBinary64 negative 0 = some y)
    (dropped : s.exponent = n) (reached : 2 ^ k ≤ s.digits) :
    y.negative = negative ∧ 2 ^ (k + 3 * n) ≤ y.absValue := by
  obtain ⟨x, rounded, rest⟩ := Option.bind_eq_some_iff.mp made
  obtain ⟨z, scaled, rfl⟩ := Option.map_eq_some_iff.mp rest
  rw [dropped, Int.add_zero] at scaled
  rw [Binary64.absValue_withSign]
  exact ⟨rfl, Binary64.two_pow_le_of_scaled scaled (Binary64.two_pow_le_of_ofNat rounded reached)⟩

end Significand

/-! ## Integers and what they are read as -/

/-- A number that stands for an integer where only signed integers of 64 bits count. -/
inductive Number.Stands : Number → Int → Prop where
  | int (n : Int) : Stands (.int n) n
  | minusZero : Stands (.float (.zero true)) 0
  | above {y : Binary64} {N : Int} : int64Max < N → y.negative = false → 2 ^ 63 ≤ y.absValue →
      Stands (.float y) N
  | below {y : Binary64} {N : Int} : N < int64Min → y.negative = true → 2 ^ 63 ≤ y.absValue →
      Stands (.float y) N

namespace Number.Stands

theorem clamp_eq (stands : x.Stands N) : clampInt64 x.truncate = clampInt64 N := by
  have large {y : Binary64} (reached : 2 ^ 63 ≤ y.absValue) : 2 ^ 63 ≤ y.magnitude :=
    Binary64.le_magnitude_iff.mpr (by exact_mod_cast reached)
  cases stands with
  | int => rfl
  | minusZero => rw [truncate, Binary64.truncate_zero]
  | above exceeds sign reached =>
    have whole := large reached
    rw [truncate, Binary64.truncate, sign, if_neg Bool.false_ne_true, Int.ofNat_eq_natCast]
    unfold clampInt64 int64Min int64Max at *
    omega
  | below exceeds sign reached =>
    have whole := large reached
    rw [truncate, Binary64.truncate, sign, if_pos rfl, Int.ofNat_eq_natCast]
    unfold clampInt64 int64Min int64Max at *
    omega

theorem value_eq (stands : x.Stands N) (low : int64Min ≤ N) (high : N ≤ int64Max) :
    x.value = N := by
  cases stands with
  | int => rfl
  | minusZero => rw [value, Binary64.value_zero, Int.cast_zero]
  | above exceeds => omega
  | below exceeds => omega

theorem of_large (large : 2 ^ 63 < n) (sign : y.negative = negative)
    (reached : 2 ^ 63 ≤ y.absValue) :
    (Number.float y).Stands (if negative then -(n : Int) else n) := by
  cases negative with
  | false =>
    refine .above ?_ sign reached
    rw [if_neg Bool.false_ne_true, int64Max]
    omega
  | true =>
    refine .below ?_ sign reached
    rw [if_pos rfl, int64Min]
    omega

end Number.Stands

/-! ## Reading -/

namespace Significand.Gathers

theorem eq_of_toInteger? (gathers : s.Gathers n) (meant : s.toInteger? negative = some N) :
    N = if negative then -(n : Int) else n := by
  cases gathers with
  | whole =>
    rw [toInteger?, if_neg Bool.false_ne_true] at meant
    split at meant
    · split at meant
      · cases meant
        rw [if_pos ‹_›, Int.ofNat_eq_natCast]
      · cases meant
    · cases meant
      rw [if_neg ‹_›]
  | full =>
    rw [toInteger?, if_pos rfl] at meant
    cases meant

/-- Gathered digits that are no integer of 64 bits make minus zero or a number beyond them. -/
theorem stands_of_toBinary64 (gathers : s.Gathers n) (exceeds : s.toInteger? negative = none)
    (made : s.toBinary64 negative 0 = some y) :
    (Number.float y).Stands (if negative then -(n : Int) else n) := by
  cases gathers with
  | whole fits =>
    cases negative with
    | false =>
      rw [toInteger?, if_neg Bool.false_ne_true, if_neg Bool.false_ne_true] at exceeds
      cases exceeds
    | true =>
      rw [toInteger?, if_neg Bool.false_ne_true, if_pos rfl] at exceeds
      split at exceeds
      · cases exceeds
      · rename_i outside
        by_cases none : n = 0
        · subst none
          have zero : toBinary64 ⟨0, 0, false⟩ true 0 = some (.zero true) := by decide +kernel
          rw [zero] at made
          cases made
          rw [if_pos rfl]
          exact .minusZero
        · have beyond : 2 ^ 63 < n := by
            dsimp only at outside
            omega
          obtain ⟨sign, reached⟩ := two_pow_le_of_toBinary64 (n := 0) made rfl beyond.le
          exact .of_large beyond sign reached
  | @full gathered _ dropped least beyond =>
    unfold significandMax at least beyond
    have large : 2 ^ 60 ≤ gathered := by omega
    obtain ⟨sign, reached⟩ := two_pow_le_of_toBinary64 made rfl large
    have limit : (2 : ℚ) ^ 63 ≤ y.absValue := calc
      (2 : ℚ) ^ 63 ≤ 2 ^ (60 + 3 * (dropped + 1)) := pow_le_pow_right₀ one_le_two (by omega)
      _ ≤ y.absValue := reached
    exact .of_large (by omega) sign limit

end Significand.Gathers

theorem stands_of_unsigned? (isDigits : ∀ c ∈ cs, c.isDigit = true)
    (spelt : unsigned? negative cs = some x) :
    x.Stands (if negative then -(numberFrom 0 cs : Int) else numberFrom 0 cs) := by
  have gathers := Significand.gathers_ofInteger isDigits
  rw [unsigned?, leadingDigits_of_digits isDigits] at spelt
  dsimp only at spelt
  split at spelt
  · cases spelt
  · cases spelt
  · split at spelt
    · rename_i meant
      cases spelt
      rw [← gathers.eq_of_toInteger? meant]
      exact .int _
    · rename_i exceeds
      obtain ⟨y, made, rfl⟩ := Option.map_eq_some_iff.mp spelt
      have none := Option.eq_none_iff_forall_ne_some.mpr fun k meant ↦ exceeds k rfl meant
      exact gathers.stands_of_toBinary64 none made

/-- **A numeral that spells an integer is read as a number that stands for it.** -/
theorem Number.Stands.of_bare (bare : SpellsBare cs N) (spelt : Number.ofChars? cs = some x) :
    x.Stands N := by
  obtain ⟨sign, -, isDigits⟩ := bare
  rename_i written digits factor
  cases sign with
  | none =>
    rw [List.nil_append, ofChars?_of_digits isDigits] at spelt
    rw [one_mul]
    exact stands_of_unsigned? isDigits spelt
  | plus => cases spelt
  | minus =>
    rw [neg_one_mul]
    exact stands_of_unsigned? isDigits spelt

/-- The first integer past 64 bits has lost its last digit, and is read as the power of two that it
is. -/
example : Number.ofChars? "18446744073709551616".toList =
    some (.float ⟨false, 4503599627370496, 12⟩) := by decide +kernel

end MessageBridge.Json
