import MessageBridge.Decimal.Binary64

/-!
# Shortest decimal digits

The decimal that stands for a binary64 number is the one with the fewest digits among those that
round to it; of two with equally few digits, the nearer. The search tries one digit, two digits
and so on up to seventeen. At each length only the two neighbours of the value on that decimal
grid can be nearest, and all comparisons are exact.
-/

namespace MessageBridge.Decimal

/-! ## Decimals -/

/-- The number `digits * 10 ^ exponent`. -/
structure Scaled where
  /-- The digits, read as a number. -/
  digits : Nat
  /-- The exponent of ten. -/
  exponent : Int
deriving DecidableEq, Repr, Inhabited

namespace Scaled

/-- Moves zeros at the end of the digits into the exponent. The first argument bounds their
number. -/
def stripZeros : Nat → Scaled → Scaled
  | 0, s => s
  | n + 1, s =>
    if s.digits ≠ 0 ∧ s.digits % 10 = 0 then stripZeros n ⟨s.digits / 10, s.exponent + 1⟩ else s

end Scaled

namespace Binary64

/-! ## The interval that rounds to a number -/

/-- The unit `2 ^ (exponent - 2)` as a fraction. Four units make one step of the mantissa. -/
def quarterUnit (x : Binary64) : Nat × Nat :=
  let e := x.exponent - 2
  if 0 ≤ e then (Nat.pow 2 e.toNat, 1) else (1, Nat.pow 2 (-e).toNat)

/-- The lower end of the interval that rounds to `x`, in quarter units. Below a power of two the
numbers lie twice as close. -/
def lowerQuarters (x : Binary64) : Nat :=
  if x.mantissa = normalMantissa ∧ minExponent < x.exponent then 4 * x.mantissa - 1
  else 4 * x.mantissa - 2

/-- The upper end of the interval that rounds to `x`, in quarter units. -/
def upperQuarters (x : Binary64) : Nat := 4 * x.mantissa + 2

/-- Whether `c` grid steps lie in the interval that rounds to `x`, where `a` is a grid step and
`b` a quarter unit in a common unit. The ends belong to it when the mantissa is even. -/
def covers (x : Binary64) (a b c : Nat) : Bool :=
  let low := x.lowerQuarters * b
  let high := x.upperQuarters * b
  if x.mantissa % 2 = 0 then decide (low ≤ c * a ∧ c * a ≤ high)
  else decide (low < c * a ∧ c * a < high)

/-! ## The search -/

/-- The exponent of the leading decimal digit of the absolute value of a number other than zero. -/
def leadingExponent (x : Binary64) : Int :=
  let guess := ((x.mantissa.log2 : Int) + x.exponent) * 30103 / 100000
  let unit := x.quarterUnit
  let next := guess + 1
  let reached : Bool :=
    if 0 ≤ next then decide (Nat.pow 10 next.toNat * unit.2 ≤ 4 * x.mantissa * unit.1)
    else decide (unit.2 ≤ 4 * x.mantissa * unit.1 * Nat.pow 10 (-next).toNat)
  if reached then next else guess

/-- The nearest decimal on the grid `10 ^ e` that rounds to `x`, if there is one. -/
def onGrid (x : Binary64) (e : Int) : Option Scaled :=
  let unit := x.quarterUnit
  let a := unit.2 * Nat.pow 10 e.toNat
  let b := unit.1 * Nat.pow 10 (-e).toNat
  let value := 4 * x.mantissa * b
  let c := value / a
  let below := x.covers a b c
  let above := x.covers a b (c + 1)
  let nearerBelow := 2 * (value - c * a) < a ∨ (2 * (value - c * a) = a ∧ c % 2 = 0)
  if below && (!above || decide nearerBelow) then some ⟨c, e⟩
  else if above then some ⟨c + 1, e⟩
  else none

/-- The first hit among the grids that give the number `count`, `count - 1`, … and at last no digits
after the leading ones already tried. -/
def searchGrids (x : Binary64) (lead : Int) : Nat → Nat → Scaled
  | 0, _ => ⟨x.mantissa, x.exponent⟩
  | fuel + 1, length =>
    match x.onGrid (lead - length + 1) with
    | some s => s
    | none => searchGrids x lead fuel (length + 1)

/-- The shortest decimal that rounds to `x`. -/
def shortest (x : Binary64) : Scaled :=
  if x.isZero then ⟨0, 0⟩
  else (searchGrids x x.leadingExponent 17 1).stripZeros 20

end Binary64

end MessageBridge.Decimal
