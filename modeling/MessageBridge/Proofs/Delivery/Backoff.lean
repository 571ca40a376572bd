import Mathlib.Algebra.Order.Ring.Nat
import Mathlib.Tactic.GCongr
import Mathlib.Tactic.Ring
import MessageBridge.Delivery.Leg

/-!
# Waits between attempts

A clock keeps a length of time as whole seconds in a word of 64 bits and the nanoseconds of a second
that is not over (`Duration.Parts`). The wait after a number of failures, calculated in these words
with an overflow check, is `Duration.Parts.waitAfter`; it is the wait of the backoff between the
same bounds, so no step of the calculation leaves the words.

`Backoff.delays` says which wait that is, in nanoseconds of which there may be any number: the
initial one, doubled up to thirty-one times and cut at the longer of the two bounds. An overflow is
no exception, since the product that does not fit is beyond both bounds. Doubling for ever, as far
as the bounds allow, comes to the same unless thirty-one doublings fall short of them.
-/

namespace MessageBridge

namespace Duration

/-! ## Words -/

/-- A length of time in seconds, which have 64 bits, and nanoseconds, of which there is less than a
second. -/
structure Parts where
  /-- The whole seconds. -/
  seconds : Nat
  /-- The nanoseconds of the next second. -/
  nanos : Nat
  seconds_lt : seconds < 2 ^ 64
  nanos_lt : nanos < 1000000000

namespace Parts

variable {p q : Parts}

/-- The length of time. -/
def duration (p : Parts) : Duration := ofParts p.seconds p.nanos

/-- Whether one is not longer than the other: seconds count first. -/
def NotLonger (p q : Parts) : Prop :=
  p.seconds < q.seconds ∨ p.seconds = q.seconds ∧ p.nanos ≤ q.nanos

instance : DecidableRel NotLonger := fun p q ↦
  inferInstanceAs (Decidable (p.seconds < q.seconds ∨ p.seconds = q.seconds ∧ p.nanos ≤ q.nanos))

/-- The shorter of two lengths. -/
def shorter (p q : Parts) : Parts := if p.NotLonger q then p else q

/-- The longer of two lengths. -/
def longer (p q : Parts) : Parts := if p.NotLonger q then q else p

/-- Seconds and any number of nanoseconds, which are carried over; `none` if the seconds do not
fit. -/
def carry? (seconds nanos : Nat) : Option Parts :=
  if fits : seconds + nanos / 1000000000 < 2 ^ 64 then
    some ⟨seconds + nanos / 1000000000, nanos % 1000000000, fits, Nat.mod_lt _ (by decide)⟩
  else none

/-- The length taken `k` times, unless that does not fit. -/
def times? (k : Nat) (p : Parts) : Option Parts := carry? (p.seconds * k) (p.nanos * k)

/-- The wait after `failures` failures between two bounds. -/
def waitAfter (initial greatest : Parts) (failures : Nat) : Parts :=
  let most := greatest.longer initial
  ((initial.times? (2 ^ Backoff.doublings failures)).getD most).shorter most

/-! ## Words and nanoseconds -/

theorem nanos_duration (p : Parts) : p.duration.nanos = p.seconds * 1000000000 + p.nanos := rfl

theorem nanos_longest : longest.nanos = 2 ^ 64 * 1000000000 - 1 := rfl

theorem nanos_duration_le (p : Parts) : p.duration.nanos ≤ longest.nanos := by
  have seconds := p.seconds_lt
  have nanos := p.nanos_lt
  rw [nanos_duration, nanos_longest]
  omega

theorem notLonger_iff : p.NotLonger q ↔ p.duration.nanos ≤ q.duration.nanos := by
  have short := p.nanos_lt
  have short' := q.nanos_lt
  rw [NotLonger, nanos_duration, nanos_duration]
  omega

theorem duration_shorter (p q : Parts) : (p.shorter q).duration = p.duration.min q.duration := by
  rw [shorter]
  split
  · rename_i short
    exact congrArg Duration.mk (Nat.min_eq_left (notLonger_iff.mp short)).symm
  · rename_i long
    rw [notLonger_iff, not_le] at long
    exact congrArg Duration.mk (Nat.min_eq_right long.le).symm

theorem duration_longer (p q : Parts) : (p.longer q).duration = p.duration.max q.duration := by
  rw [longer]
  split
  · rename_i short
    exact congrArg Duration.mk (Nat.max_eq_right (notLonger_iff.mp short)).symm
  · rename_i long
    rw [notLonger_iff, not_le] at long
    exact congrArg Duration.mk (Nat.max_eq_left long.le).symm

theorem duration_carry? (seconds nanos : Nat) :
    (carry? seconds nanos).map duration =
      if seconds * 1000000000 + nanos ≤ longest.nanos then some (ofParts seconds nanos)
      else none := by
  rw [carry?, nanos_longest]
  split
  · rename_i fits
    have same : (seconds + nanos / 1000000000) * 1000000000 + nanos % 1000000000 =
        seconds * 1000000000 + nanos := by omega
    rw [if_pos (by omega), Option.map_some, duration, ofParts, ofParts, same]
  · rename_i exceeds
    rw [if_neg (by omega)]
    rfl

/-- Multiplying the words is multiplying the nanoseconds, and both fail together. -/
theorem duration_times? (k : Nat) (p : Parts) :
    (p.times? k).map duration = p.duration.times? k := by
  have product : p.duration.nanos * k = p.seconds * k * 1000000000 + p.nanos * k := by
    rw [nanos_duration]
    ring
  rw [times?, duration_carry?, Duration.times?, product, ofParts]

/-- **The wait calculated in words is the wait of the backoff.** -/
theorem duration_waitAfter (initial greatest : Parts) (failures : Nat) :
    (initial.waitAfter greatest failures).duration =
      (Backoff.ofBounds initial.duration greatest.duration).delayAfter failures := by
  rw [waitAfter, duration_shorter, duration_longer, Backoff.delayAfter, Backoff.ofBounds,
    Nat.pow_eq, ← duration_times?]
  congr 1
  cases initial.times? (2 ^ Backoff.doublings failures) with
  | none => exact duration_longer ..
  | some _ => rfl

end Parts

end Duration

/-! ## The wait in nanoseconds -/

namespace Backoff

open Duration (Parts)

/-- A number of nanoseconds doubled `k` times, as far as a bound. -/
def doubled (initial most k : Nat) : Nat := min (initial * 2 ^ k) most

theorem doubled_mono {initial most k n : Nat} (le : k ≤ n) :
    doubled initial most k ≤ doubled initial most n := by
  unfold doubled
  gcongr
  decide

theorem doublings_mono {failures more : Nat} (le : failures ≤ more) :
    doublings failures ≤ doublings more := by
  unfold doublings
  omega

/-- The wait that fits is the product up to the bound, and the bound stands for one that does not
fit. -/
theorem nanos_delayAfter (initial greatest : Parts) (failures : Nat) :
    ((ofBounds initial.duration greatest.duration).delayAfter failures).nanos =
      doubled initial.duration.nanos (max initial.duration.nanos greatest.duration.nanos)
        (doublings failures) := by
  have first := initial.nanos_duration_le
  have last := greatest.nanos_duration_le
  rw [delayAfter, ofBounds, Duration.times?, Nat.pow_eq, doubled, max_comm]
  dsimp only
  split
  · rfl
  · rename_i exceeds
    have bound : max greatest.duration.nanos initial.duration.nanos ≤
        initial.duration.nanos * 2 ^ doublings failures :=
      (max_le last first).trans (not_le.mp exceeds).le
    rw [min_eq_right bound]
    exact Nat.min_self _

/-- Thirty-one doublings are as good as any number of them if they reach the bound or there is
nothing to double. -/
theorem doubled_min {initial most : Nat} (reaches : initial = 0 ∨ most ≤ initial * 2 ^ 31)
    (k : Nat) : doubled initial most (min k 31) = doubled initial most k := by
  rcases Nat.le_total k 31 with few | many
  · rw [min_eq_left few]
  · rw [min_eq_right many]
    rcases reaches with rfl | reaches
    · simp [doubled]
    · have more : most ≤ initial * 2 ^ k := reaches.trans (by gcongr; decide)
      rw [doubled, doubled, min_eq_right reaches, min_eq_right more]

/-- Otherwise the next doubling makes a difference. -/
theorem reaches_of_doubled {initial most : Nat}
    (same : doubled initial most 31 = doubled initial most 32) :
    initial = 0 ∨ most ≤ initial * 2 ^ 31 := by
  unfold doubled at same
  omega

/-- What is said of the waits after so many failures, if a backoff has these bounds. -/
structure Delays (initial greatest : Parts) (wait : Nat → Duration) : Prop where
  /-- A wait is the initial one, doubled with every failure after the first, but not more often than
  thirty-one times, and cut at the longer of the bounds. -/
  exact_wait : ∀ failures, (wait failures).nanos =
    doubled initial.duration.nanos (max initial.duration.nanos greatest.duration.nanos)
      (min (failures - 1) 31)
  /-- It is calculated in words: of 32 bits for the factor, and of 64 bits for the products, of
  which only that of the seconds can be too large, and for the outcome. -/
  words : ∀ failures, 2 ^ doublings failures < 2 ^ 32 ∧
    initial.nanos * 2 ^ doublings failures < 2 ^ 64 ∧
    (initial.waitAfter greatest failures).duration = wait failures
  /-- No failure counts as one. -/
  first : wait 0 = wait 1
  /-- No wait is shorter than the initial one or longer than both bounds. -/
  between : ∀ failures, initial.duration.nanos ≤ (wait failures).nanos ∧
    (wait failures).nanos ≤ max initial.duration.nanos greatest.duration.nanos
  /-- No wait is shorter than one before it. -/
  mono : ∀ {failures more}, failures ≤ more → (wait failures).nanos ≤ (wait more).nanos
  /-- The bound on the doublings shows in no wait exactly if they reach the longer of the bounds, or
  there is nothing to double. -/
  unbounded_iff :
    (∀ failures, failures ≤ Leg.greatestCount → (wait failures).nanos =
      doubled initial.duration.nanos (max initial.duration.nanos greatest.duration.nanos)
        (failures - 1)) ↔
    initial.duration.nanos = 0 ∨
      max initial.duration.nanos greatest.duration.nanos ≤ initial.duration.nanos * 2 ^ 31

/-- **The waits are exact.** -/
theorem delays (initial greatest : Parts) :
    Delays initial greatest (ofBounds initial.duration greatest.duration).delayAfter where
  exact_wait := nanos_delayAfter initial greatest
  words failures := by
    have few : 2 ^ doublings failures < 2 ^ 32 := by
      apply Nat.pow_lt_pow_right (by decide)
      unfold doublings
      omega
    have short := initial.nanos_lt
    refine ⟨few, ?_, initial.duration_waitAfter greatest failures⟩
    calc initial.nanos * 2 ^ doublings failures
        ≤ 1000000000 * 2 ^ 32 := by gcongr
      _ < 2 ^ 64 := by decide
  first := rfl
  between failures := by
    rw [nanos_delayAfter, doubled]
    refine ⟨le_min ?_ (le_max_left ..), min_le_right ..⟩
    exact Nat.le_mul_of_pos_right _ (Nat.two_pow_pos _)
  mono le := by
    rw [nanos_delayAfter, nanos_delayAfter]
    exact doubled_mono (doublings_mono le)
  unbounded_iff := by
    simp only [nanos_delayAfter, doublings]
    constructor
    · intro unbounded
      exact reaches_of_doubled (unbounded 33 (by decide))
    · exact fun reaches failures _ ↦ doubled_min reaches (failures - 1)

/-- The longest of all initial waits does not fit when it is doubled, and is cut at the bound. -/
example : ((⟨18446744073709551615, 999999999, by decide, by decide⟩ : Parts).waitAfter
    ⟨0, 0, by decide, by decide⟩ 2).seconds = 18446744073709551615 := by decide

end Backoff

end MessageBridge
