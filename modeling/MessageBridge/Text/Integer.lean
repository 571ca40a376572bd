import MessageBridge.Text.Blank

/-!
# Integers written as text

A decimal integer is an optional single sign followed by one or more ASCII digits. Reading is exact
and bounded: a text that spells a number outside the 64-bit range is not an integer.
-/

namespace MessageBridge.Text

/-! ## Digits -/

/-- The value of an ASCII digit. -/
def digit? (c : Char) : Option Nat :=
  if '0' ≤ c ∧ c ≤ '9' then some (c.toNat - '0'.toNat) else none

/-- The number spelled by ASCII digits, most significant first, continuing from `acc`. -/
def digitsFrom? (acc : Nat) : List Char → Option Nat
  | [] => some acc
  | c :: rest =>
    match digit? c with
    | some d => digitsFrom? (acc * 10 + d) rest
    | none => none

/-- The number spelled by one or more ASCII digits. -/
def digits? : List Char → Option Nat
  | [] => none
  | c :: rest => digitsFrom? 0 (c :: rest)

/-! ## Signed integers -/

/-- The integer spelled by an optional sign and one or more ASCII digits. -/
def integer? : List Char → Option Int
  | '+' :: rest => (digits? rest).map Int.ofNat
  | '-' :: rest => (digits? rest).map fun n ↦ -Int.ofNat n
  | s => (digits? s).map Int.ofNat

/-- The least 64-bit integer. -/
def int64Min : Int := -9223372036854775808

/-- The greatest 64-bit integer. -/
def int64Max : Int := 9223372036854775807

/-- An integer, if it lies in the 64-bit range. -/
def inInt64? (n : Int) : Option Int :=
  if int64Min ≤ n ∧ n ≤ int64Max then some n else none

/-- The 64-bit integer nearest to `n`. -/
def clampInt64 (n : Int) : Int := max int64Min (min int64Max n)

/-- The 64-bit integer spelled by the text once white space around it is removed. -/
def int64? (s : String) : Option Int :=
  (integer? (trim s.toList)).bind inInt64?

end MessageBridge.Text
