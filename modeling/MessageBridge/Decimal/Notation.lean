import MessageBridge.Decimal.Shortest

/-!
# Writing binary64 numbers

Two notations of the shortest decimal. The compact one, for documents, is positional while the
leading exponent is small and scientific beyond. The plain one, for diagnostics, is always
positional. Both keep at least one digit after the point, so that a reader sees that the number is
not an integer.
-/

namespace MessageBridge.Decimal

/-! ## Positional and scientific forms -/

/-- The decimal digits of a number. -/
def digitChars (n : Nat) : List Char := Nat.toDigits 10 n

/-- Where the notation turns scientific. -/
structure NotationRange where
  /-- The least leading exponent written positionally. -/
  least : Int
  /-- The greatest leading exponent written positionally. -/
  greatest : Int

/-- Documents write leading exponents from `-5` to `15` positionally. -/
def documentRange : NotationRange := ⟨-5, 15⟩

/-- The digits with the point placed so that the leading digit has exponent `lead`. -/
def positional (digits : List Char) (lead : Int) : List Char :=
  if lead < 0 then
    ['0', '.'] ++ List.replicate (-lead - 1).toNat '0' ++ digits
  else
    let whole := lead.toNat + 1
    if digits.length ≤ whole then
      digits ++ List.replicate (whole - digits.length) '0' ++ ['.', '0']
    else digits.take whole ++ ['.'] ++ digits.drop whole

/-- One digit, a point before any others, and the exponent with its sign. -/
def scientific (digits : List Char) (lead : Int) : List Char :=
  let mantissa :=
    match digits with
    | [] => ['0']
    | [d] => [d]
    | d :: more => d :: '.' :: more
  let sign := if lead < 0 then '-' else '+'
  mantissa ++ ['e', sign] ++ digitChars lead.natAbs

/-! ## The two notations -/

namespace Binary64

/-- The shortest digits and the exponent of the first of them. -/
def shortestDigits (x : Binary64) : List Char × Int :=
  let s := x.shortest
  let digits := digitChars s.digits
  (digits, s.exponent + digits.length - 1)

/-- The sign of a number as it is written. -/
def signChars (x : Binary64) : List Char := if x.negative then ['-'] else []

/-- The number as documents write it. -/
def toChars (x : Binary64) : List Char :=
  let (digits, lead) := x.shortestDigits
  let body :=
    if documentRange.least ≤ lead ∧ lead ≤ documentRange.greatest then positional digits lead
    else scientific digits lead
  x.signChars ++ body

/-- The number written positionally whatever its size. -/
def toPlainChars (x : Binary64) : List Char :=
  let (digits, lead) := x.shortestDigits
  x.signChars ++ positional digits lead

end Binary64

end MessageBridge.Decimal
