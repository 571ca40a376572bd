import Mathlib.Data.Nat.Digits.Defs
import MessageBridge.Document.Relaxed
import MessageBridge.Proofs.Decimal.Nearest
import MessageBridge.Proofs.Json.Numerals
import MessageBridge.Route.TableText

/-!
# Integers that settle

A natural number that is read from the relaxed notation passes through binary64, so it need not be
the one that was written; but what was read once is read again from its own digits
(`Numeral.settled_toNatUpTo`). What is read is an exact integer, unless it was clamped to the bound
of its field. The bound of 32 bits is exact too; that of 64 bits rounds up to the next power of two,
and is clamped back to itself.
-/

namespace MessageBridge

open Decimal (Binary64)
open Document (maxUInt64)
open Json (digitValues)

theorem Wide.toNatUpTo_le (limit : Nat) (w : Wide) : w.toNatUpTo limit ≤ limit := by
  cases w with
  | finite x =>
    rw [Wide.toNatUpTo, Binary64.toNatUpTo]
    split
    · exact Nat.zero_le limit
    · exact Nat.min_le_left limit _
  | infinite negative => cases negative <;> simp [Wide.toNatUpTo]
  | undefined => exact Nat.zero_le limit

namespace Numeral

variable {n : Nat} {s : List Char} {x : Binary64}

/-- The natural number is read from its own digits wherever there is room for it. -/
def Settled (n : Nat) : Prop :=
  ∀ limit, n ≤ limit → limit ≤ maxUInt64 →
    ∃ w, wide (Nat.toDigits 10 n) = .ok w ∧ w.toNatUpTo limit = n

/-! ## Reading digits -/

theorem foldl_digitValues (n : Nat) :
    (digitValues n).foldl (fun acc d ↦ acc * 10 + d) 0 = n := by
  induction n using Nat.strong_induction_on with
  | _ n ih =>
    by_cases small : n < 10
    · rw [Json.digitValues_of_lt small]
      exact Nat.zero_add n
    · rw [Json.digitValues_of_le (by omega), List.foldl_append, ih (n / 10) (by omega)]
      exact Nat.div_add_mod' n 10

theorem digitValues_ne_nil (n : Nat) : digitValues n ≠ [] := by
  by_cases zero : n = 0
  · subst zero
    decide
  · obtain ⟨d, ds, front, -⟩ := Json.head?_digitValues (Nat.pos_of_ne_zero zero)
    rw [front]
    exact List.cons_ne_nil d ds

theorem decimal?_toDigits (reads : Binary64.ofDecimal false n 0 = some x) :
    decimal? false (Nat.toDigits 10 n) = some (.finite x) := by
  have front : (digitValues n).isEmpty = false :=
    List.isEmpty_eq_false_iff.mpr (digitValues_ne_nil n)
  rw [decimal?, Json.leadingDigits_toDigits]
  simp [front, Json.exponent?, foldl_digitValues, reads]

/-- Digits are no spelling of an infinity or of what is no number, they are not hexadecimal and have
no sign, so they are read as a decimal. -/
theorem wide_of_digits (digits : ∀ c ∈ s, c.isDigit = true)
    (reads : decimal? false s = some (.finite x)) : wide s = .ok (.finite x) := by
  have other {c : Char} {rest : List Char} (letter : c.isDigit = false) : s ≠ c :: rest := by
    rintro rfl
    rw [digits c List.mem_cons_self] at letter
    cases letter
  have infinity : s ≠ infinityChars := other (c := 'I') rfl
  have undefined : s ≠ undefinedChars := other (c := 'N') rfl
  have plain : hexDigits? s = none := by
    unfold hexDigits?
    split
    · rename_i x d rest
      have digit : x.isDigit = true := digits x (by simp)
      rw [if_neg]
      rintro (rfl | rfl) <;> cases digit
    · rfl
  have unsigned : splitSign s = (false, s) := by
    unfold splitSign
    split
    · exact absurd rfl (other (c := '-') rfl)
    · exact absurd rfl (other (c := '+') rfl)
    · rfl
  simp only [wide, infinity, undefined, other (c := '-') rfl, plain, unsigned, or_self, if_false,
    reads]

/-- A number of 64 bits is read as the nearest binary64 number. -/
theorem wide_toDigits (small : n ≤ maxUInt64)
    (nearest : Binary64.ofRatio false n 1 0 = some x) :
    wide (Nat.toDigits 10 n) = .ok (.finite x) := by
  have digits : ∀ c ∈ Nat.toDigits 10 n, c.isDigit = true := fun c hc ↦
    Nat.isDigit_of_mem_toDigits (by decide) (by decide) hc
  have short : Binary64.digitCount n ≤ 20 :=
    Nat.toDigits_length 10 n 20 (by decide) (Nat.lt_of_le_of_lt small (by decide))
  have whole : Binary64.ofDecimal false n 0 = some x := by
    rw [Binary64.ofDecimal]
    split
    · rename_i zero
      rw [← nearest, Binary64.ofRatio, if_pos zero]
    · dsimp only
      rw [if_neg (by omega), if_neg (by omega), if_pos (Int.le_refl 0), ← nearest]
      simp
  exact wide_of_digits digits (decimal?_toDigits whole)

/-! ## What settles -/

theorem settled_of_exact (exact : Binary64.Exact n) : Settled n := by
  intro limit room bounded
  have log : n.log2 < 1024 := by
    by_cases zero : n = 0
    · subst zero
      decide
    · have below : n < 2 ^ 64 := Nat.lt_of_le_of_lt (Nat.le_trans room bounded) (by decide)
      exact Nat.lt_trans ((Nat.log2_lt zero).mpr below) (by decide)
  obtain ⟨x, nearest, positive, same⟩ := Binary64.ofRatio_of_exact exact log
  refine ⟨.finite x, wide_toDigits (Nat.le_trans room bounded) nearest, ?_⟩
  rw [Wide.toNatUpTo, Binary64.toNatUpTo, positive, same]
  exact Nat.min_eq_right room

/-- The greatest number of 64 bits is not exact: it rounds up, and is clamped back to itself. -/
theorem settled_maxUInt64 : Settled maxUInt64 := by
  intro limit room bounded
  obtain rfl := Nat.le_antisymm room bounded
  exact ⟨_, wide_toDigits room (x := ⟨false, Binary64.normalMantissa, 12⟩) (by decide), by decide⟩

theorem mantissa_lt_of_ofDecimal {negative : Bool} {digits : Nat} {e : Int}
    (reads : Binary64.ofDecimal negative digits e = some x) :
    x.mantissa < Binary64.mantissaBound := by
  rw [Binary64.ofDecimal] at reads
  dsimp only at reads
  split at reads
  · cases reads
    exact Nat.two_pow_pos 53
  · split at reads
    · cases reads
    · split at reads
      · cases reads
        exact Nat.two_pow_pos 53
      · split at reads
        · exact Binary64.mantissa_lt_of_ofRatio Nat.one_ne_zero reads
        · exact Binary64.mantissa_lt_of_ofRatio (Nat.pow_pos (by decide)).ne' reads

theorem mantissa_lt_of_decimal? {negative : Bool}
    (reads : decimal? negative s = some (.finite x)) : x.mantissa < Binary64.mantissaBound := by
  rw [decimal?] at reads
  dsimp only at reads
  -- with or without a point, it is one rounding of all the digits
  split at reads
  all_goals
    split at reads
    · cases reads
    · obtain ⟨e, -, made⟩ := Option.map_eq_some_iff.mp reads
      split at made
      · rename_i decimal
        cases made
        exact mantissa_lt_of_ofDecimal decimal
      · cases made

/-- A written number has a mantissa below the bound. -/
theorem mantissa_lt_of_wide (reads : wide s = .ok (.finite x)) :
    x.mantissa < Binary64.mantissaBound := by
  unfold wide at reads
  split at reads
  · cases reads
  split at reads
  · cases reads
  split at reads
  · cases reads
  split at reads
  · rename_i digits _
    cases value : hexValue digits with
    | error fault =>
      rw [value] at reads
      cases reads
    | ok m =>
      rw [value] at reads
      simp only [Except.bind] at reads
      split at reads
      · rename_i nearest
        cases reads
        exact Binary64.mantissa_lt_of_ofRatio Nat.one_ne_zero nearest
      · cases reads
  · dsimp only at reads
    split at reads
    · cases reads
    · split at reads
      · rename_i decimal
        cases reads
        exact mantissa_lt_of_decimal? decimal
      · cases reads
      · cases reads

/-- **What is read settles**: whatever number a field reads is read again from its own digits. -/
theorem settled_toNatUpTo {w : Wide} {limit : Nat} (reads : wide s = .ok w)
    (bound : Settled limit) : Settled (w.toNatUpTo limit) := by
  have zero : Settled 0 := settled_of_exact (Binary64.exact_of_lt (by decide))
  cases w with
  | finite x =>
    rw [Wide.toNatUpTo, Binary64.toNatUpTo]
    split
    · exact zero
    · rcases Nat.le_total limit x.magnitude with high | low
      · rwa [Nat.min_eq_left high]
      · rw [Nat.min_eq_right low]
        exact settled_of_exact (Binary64.exact_magnitude (mantissa_lt_of_wide reads))
  | infinite negative =>
    cases negative with
    | true => exact zero
    | false => exact bound
  | undefined => exact zero

end Numeral

end MessageBridge
