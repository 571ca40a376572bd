/-!
# Durations

Lengths of time to the nanosecond. Waiting is done in whole milliseconds: a duration that ends
inside a millisecond is waited for until the end of it, while the text of a time to live shows the
whole milliseconds that have passed.
-/

namespace MessageBridge

/-- A length of time in nanoseconds. -/
structure Duration where
  /-- The number of nanoseconds. -/
  nanos : Nat
deriving DecidableEq, Repr, Inhabited

namespace Duration

/-! ## Building -/

/-- No time. -/
def zero : Duration := ⟨0⟩

/-- Whole milliseconds. -/
def ofMillis (n : Nat) : Duration := ⟨n * 1000000⟩

/-- Seconds and nanoseconds. -/
def ofParts (seconds nanos : Nat) : Duration := ⟨seconds * 1000000000 + nanos⟩

/-- The longest duration: the greatest 64-bit count of seconds, and all but a second more. -/
def longest : Duration := ofParts 18446744073709551615 999999999

/-! ## Measuring -/

/-- The whole milliseconds in a duration. -/
def millis (d : Duration) : Nat := d.nanos / 1000000

/-- The whole milliseconds that cover a duration. -/
def millisUp (d : Duration) : Nat := (d.nanos + 999999) / 1000000

/-- The shorter of two durations. -/
def min (a b : Duration) : Duration := ⟨Nat.min a.nanos b.nanos⟩

/-- The longer of two durations. -/
def max (a b : Duration) : Duration := ⟨Nat.max a.nanos b.nanos⟩

/-- The duration taken `n` times, unless that exceeds the longest one. -/
def times? (d : Duration) (n : Nat) : Option Duration :=
  if d.nanos * n ≤ longest.nanos then some ⟨d.nanos * n⟩ else none

/-! ## Text -/

/-- A number with a fraction of `width` digits, without zeros at the end of the fraction. -/
def withFraction (whole fraction width : Nat) : String :=
  let digits := Nat.toDigits 10 fraction
  let padded := List.replicate (width - digits.length) '0' ++ digits
  let kept := (padded.reverse.dropWhile (· == '0')).reverse
  if kept.isEmpty then toString whole else toString whole ++ "." ++ String.ofList kept

/-- The duration in the largest unit of which it holds at least one. -/
def describe (d : Duration) : String :=
  if 1000000000 ≤ d.nanos then withFraction (d.nanos / 1000000000) (d.nanos % 1000000000) 9 ++ "s"
  else if 1000000 ≤ d.nanos then withFraction (d.nanos / 1000000) (d.nanos % 1000000) 6 ++ "ms"
  else if 1000 ≤ d.nanos then withFraction (d.nanos / 1000) (d.nanos % 1000) 3 ++ "µs"
  else toString d.nanos ++ "ns"

/-- The seconds, a point and nine digits of nanoseconds. -/
def decimal (d : Duration) : String :=
  let digits := Nat.toDigits 10 (d.nanos % 1000000000)
  toString (d.nanos / 1000000000) ++ "." ++
    String.ofList (List.replicate (9 - digits.length) '0' ++ digits)

end Duration

end MessageBridge
