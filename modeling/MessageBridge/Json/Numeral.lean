import MessageBridge.Decimal.Reading
import MessageBridge.Json.Value
import MessageBridge.Text.Integer

/-!
# JSON numerals

Reading the text of a JSON number. The digits of the integer part and of the fraction are gathered
into one significand of 64 bits; integer digits beyond it only raise the exponent, and from the
first fraction digit that does not fit the fraction is ignored. A numeral without a point or
exponent is an integer if it fits, and minus zero, which no integer shows, is a fraction.
-/

namespace MessageBridge.Json

open Decimal (Binary64)
open Text (digit?)

/-! ## Significands -/

/-- The greatest significand, which is the greatest number of 64 bits. -/
def significandMax : Nat := 18446744073709551615

/-- The digits gathered so far: their number and the exponent of its last digit. -/
structure Significand where
  /-- The digits read as a number. -/
  digits : Nat
  /-- The exponent of ten of the last digit. -/
  exponent : Int
  /-- Whether some digit no longer fitted. -/
  full : Bool
deriving Repr

namespace Significand

/-- One more digit of the integer part. -/
def addInteger (s : Significand) (d : Nat) : Significand :=
  if s.full || significandMax < s.digits * 10 + d then ⟨s.digits, s.exponent + 1, true⟩
  else ⟨s.digits * 10 + d, s.exponent, false⟩

/-- One more digit of the fraction. The second component tells whether digits still count. -/
def addFraction (state : Significand × Bool) (d : Nat) : Significand × Bool :=
  let (s, counting) := state
  if !counting || significandMax < s.digits * 10 + d then (s, false)
  else (⟨s.digits * 10 + d, s.exponent - 1, s.full⟩, true)

/-- The digits of an integer part. -/
def ofInteger (digits : List Nat) : Significand := digits.foldl addInteger ⟨0, 0, false⟩

/-- The significand with the digits of a fraction added. -/
def withFraction (s : Significand) (digits : List Nat) : Significand :=
  (digits.foldl addFraction (s, true)).1

/-- The binary64 number that the significand stands for after shifting the point. -/
def toBinary64 (s : Significand) (negative : Bool) (shift : Int) : Option Binary64 :=
  (Binary64.ofNat s.digits).bind fun f ↦
    (f.scaled (s.exponent + shift)).map fun x ↦ x.withSign negative

/-- The integer that the digits stand for, when it is one of 64 bits. -/
def toInteger? (s : Significand) (negative : Bool) : Option Int :=
  if s.full then none
  else if negative then
    if 0 < s.digits ∧ s.digits ≤ 9223372036854775808 then some (-Int.ofNat s.digits) else none
  else some s.digits

end Significand

/-! ## Numerals -/

/-- The digits at the front of a text and what follows them. -/
def leadingDigits (s : List Char) : List Nat × List Char :=
  ((s.takeWhile Char.isDigit).filterMap digit?, s.dropWhile Char.isDigit)

/-- The exponent that the text consists of, from its letter on; zero when the text is empty. -/
def exponent? : List Char → Option Int
  | [] => some 0
  | letter :: rest =>
    if letter = 'e' ∨ letter = 'E' then
      match rest with
      | '+' :: digits => (Text.digits? digits).map Int.ofNat
      | '-' :: digits => (Text.digits? digits).map fun n ↦ -Int.ofNat n
      | digits => (Text.digits? digits).map Int.ofNat
    else none

/-- The fraction after the integer part `whole` and the exponent after it. -/
def fraction? (negative : Bool) (whole : Significand) : List Char → Option Number
  | '.' :: rest =>
    let (digits, tail) := leadingDigits rest
    if digits.isEmpty then none
    else
      (exponent? tail).bind fun e ↦
        ((whole.withFraction digits).toBinary64 negative e).map .float
  | tail => (exponent? tail).bind fun e ↦ (whole.toBinary64 negative e).map .float

/-- The number that a numeral without its sign spells. The integer part has no leading zero. -/
def unsigned? (negative : Bool) (s : List Char) : Option Number :=
  let (digits, rest) := leadingDigits s
  match digits with
  | [] => none
  | 0 :: _ :: _ => none
  | _ =>
    let whole := Significand.ofInteger digits
    match rest, whole.toInteger? negative with
    | [], some n => some (.int n)
    | rest, _ => fraction? negative whole rest

/-- The number that a numeral spells; `none` when the text is not a numeral or the number is out of
range. -/
def Number.ofChars? : List Char → Option Number
  | '-' :: rest => unsigned? true rest
  | s => unsigned? false s

end MessageBridge.Json
