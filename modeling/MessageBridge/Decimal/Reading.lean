import MessageBridge.Decimal.Binary64

/-!
# Reading decimals

Two ways from decimal digits to a binary64 number. `ofDecimal` rounds once and so gives the nearest
number. `scaled` is the cheaper way that documents use: the significand is rounded first and then
multiplied or divided by a rounded power of ten, so the result may differ from the nearest number in
its last place.
-/

namespace MessageBridge.Decimal

namespace Binary64

/-! ## One rounding -/

/-- The number of decimal digits. -/
def digitCount (n : Nat) : Nat := (Nat.toDigits 10 n).length

/-- The binary64 number nearest to `digits * 10 ^ exponent`; `none` when it is out of range.
Exponents far outside the range are decided without computing the power. -/
def ofDecimal (negative : Bool) (digits : Nat) (exponent : Int) : Option Binary64 :=
  if digits = 0 then some (zero negative)
  else
    let lead := exponent + digitCount digits
    if 320 < lead then none
    else if lead < -400 then some (zero negative)
    else if 0 ≤ exponent then ofRatio negative (digits * Nat.pow 10 exponent.toNat) 1 0
    else ofRatio negative digits (Nat.pow 10 (-exponent).toNat) 0

/-! ## Two roundings -/

/-- The greatest power of ten that is used as a factor. -/
def greatestPower : Nat := 308

/-- A power of ten, rounded. -/
def powerOfTen (k : Nat) : Option Binary64 := ofNat (Nat.pow 10 k)

/-- The number divided `count` times by `p`, stopping at zero. -/
def divideDown (p : Binary64) : Nat → Binary64 → Option Binary64
  | 0, x => some x
  | count + 1, x => if x.isZero then some x else (x.div p).bind (divideDown p count)

/-- `x * 10 ^ e` by one factor within the powers of ten, after as many divisions by the greatest of
them as bring the exponent into range; `none` when the result is out of range. -/
def scaled (x : Binary64) (e : Int) : Option Binary64 :=
  let size := e.natAbs
  if size ≤ greatestPower then
    (powerOfTen size).bind fun p ↦ if 0 ≤ e then x.mul p else x.div p
  else if x.isZero then some x
  else if 0 ≤ e then none
  else
    let count := (size - 1) / greatestPower
    (powerOfTen greatestPower).bind fun p ↦
      (divideDown p count x).bind fun y ↦
        (powerOfTen (size - count * greatestPower)).bind y.div

end Binary64

end MessageBridge.Decimal
