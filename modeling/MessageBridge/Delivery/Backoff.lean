import MessageBridge.Duration

/-!
# Backoff

The wait before a destination is tried again. It starts at an initial length and doubles with
every failure up to a cap, and never exceeds the greatest wait.
-/

namespace MessageBridge

/-- The waits between attempts on one destination. -/
structure Backoff where
  /-- The wait after the first failure. -/
  initial : Duration
  /-- The greatest wait. -/
  greatest : Duration
deriving DecidableEq, Repr

namespace Backoff

/-- Waits from `initial` to `greatest`, which is raised to `initial` when it is smaller. -/
def ofBounds (initial greatest : Duration) : Backoff := ⟨initial, greatest.max initial⟩

/-- Fifty milliseconds to five seconds. -/
def standard : Backoff := ⟨.ofMillis 50, .ofMillis 5000⟩

/-- How often the wait has doubled after `failures` failures, at most thirty-one times. -/
def doublings (failures : Nat) : Nat := min (failures - 1) 31

/-- The wait after `failures` failures in a row. -/
def delayAfter (b : Backoff) (failures : Nat) : Duration :=
  ((b.initial.times? (Nat.pow 2 (doublings failures))).getD b.greatest).min b.greatest

end Backoff

end MessageBridge
