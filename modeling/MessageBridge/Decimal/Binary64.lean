/-!
# Binary64 numbers

A finite binary64 number is a sign, a mantissa below `2 ^ 53` and an exponent of two. Every
operation is exact rational arithmetic followed by one rounding to the nearest such number, ties
going to the even mantissa, so that a result depends on its operands alone.

## Normal form

A number is kept with its mantissa at or above `2 ^ 52`, unless its exponent is already the least
one. Two numbers of the same sign are then equal exactly when they denote the same value.
-/

namespace MessageBridge.Decimal

/-! ## The numbers -/

/-- A finite binary64 number: `mantissa * 2 ^ exponent`, negated when `negative`. -/
structure Binary64 where
  /-- The sign, which zero has too. -/
  negative : Bool
  /-- The mantissa, below `2 ^ 53`. -/
  mantissa : Nat
  /-- The exponent of two, from `-1074` to `971`. -/
  exponent : Int
deriving DecidableEq, Repr, Inhabited

namespace Binary64

/-- The least exponent. -/
def minExponent : Int := -1074

/-- The greatest exponent. -/
def maxExponent : Int := 971

/-- The bound of mantissas, `2 ^ 53`. -/
def mantissaBound : Nat := 9007199254740992

/-- The least mantissa unless the exponent is the least one, `2 ^ 52`. -/
def normalMantissa : Nat := 4503599627370496

/-- Zero of the given sign. -/
def zero (negative : Bool) : Binary64 := ⟨negative, 0, minExponent⟩

/-- Whether the number is zero. -/
def isZero (x : Binary64) : Bool := x.mantissa == 0

/-- The number with the given sign. -/
def withSign (negative : Bool) (x : Binary64) : Binary64 := ⟨negative, x.mantissa, x.exponent⟩

/-! ## Rounding -/

/-- The quotient rounded to the nearest integer, a tie going to the even one. -/
def roundDiv (n d : Nat) : Nat :=
  let q := n / d
  let r := n % d
  if 2 * r < d then q else if d < 2 * r then q + 1 else q + q % 2

/-- The numerator and denominator of `num / den / 2 ^ e`. -/
def scaleBy (num den : Nat) (e : Int) : Nat × Nat :=
  if 0 ≤ e then (num, den * Nat.pow 2 e.toNat) else (num * Nat.pow 2 (-e).toNat, den)

/-- The binary64 number nearest to `num / den * 2 ^ shift`; `none` when it is out of range. -/
def ofRatio (negative : Bool) (num den : Nat) (shift : Int) : Option Binary64 :=
  if num = 0 then some (zero negative)
  else
    let guess := max minExponent ((num.log2 : Int) - den.log2 - 53 + shift)
    let atGuess := scaleBy num den (guess - shift)
    let e := if mantissaBound ≤ atGuess.1 / atGuess.2 then guess + 1 else guess
    let ratio := scaleBy num den (e - shift)
    let m := roundDiv ratio.1 ratio.2
    let x : Binary64 :=
      if m = mantissaBound then ⟨negative, normalMantissa, e + 1⟩ else ⟨negative, m, e⟩
    if maxExponent < x.exponent then none else some x

/-- The binary64 number nearest to a natural number. -/
def ofNat (n : Nat) : Option Binary64 := ofRatio false n 1 0

/-- The product, rounded; `none` when it is out of range. -/
def mul (x y : Binary64) : Option Binary64 :=
  ofRatio (x.negative != y.negative) (x.mantissa * y.mantissa) 1 (x.exponent + y.exponent)

/-- The quotient by a number other than zero, rounded; `none` when it is out of range. -/
def div (x y : Binary64) : Option Binary64 :=
  ofRatio (x.negative != y.negative) x.mantissa y.mantissa (x.exponent - y.exponent)

/-! ## Integers -/

/-- The integer part of the absolute value. -/
def magnitude (x : Binary64) : Nat :=
  if 0 ≤ x.exponent then x.mantissa * Nat.pow 2 x.exponent.toNat
  else x.mantissa / Nat.pow 2 (-x.exponent).toNat

/-- The integer part, its fraction cut off toward zero. -/
def truncate (x : Binary64) : Int :=
  if x.negative then -Int.ofNat x.magnitude else Int.ofNat x.magnitude

/-- The natural number at most `limit` nearest to the integer part. -/
def toNatUpTo (limit : Nat) (x : Binary64) : Nat :=
  if x.negative then 0 else min limit x.magnitude

end Binary64

end MessageBridge.Decimal
