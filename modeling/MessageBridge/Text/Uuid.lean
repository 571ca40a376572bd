/-!
# Identifiers

Identifiers in the form of a version-4 UUID: thirty-two hexadecimal digits in groups of eight,
four, four, four and twelve, of which the third begins with a four and the fourth with one of `8`,
`9`, `a` and `b`.
-/

namespace MessageBridge.Text

/-- The last `width` hexadecimal digits of a number. -/
def hexOfWidth (width n : Nat) : String :=
  let digits := Nat.toDigits 16 (n % Nat.pow 16 width)
  String.ofList (List.replicate (width - digits.length) '0' ++ digits)

/-- The identifier that carries a number of up to 48 bits. -/
def uuid (n : Nat) : String := "00000000-0000-4000-8000-" ++ hexOfWidth 12 n

/-- Whether the characters are hexadecimal digits in lower case. -/
def isHexGroup (width : Nat) (cs : List Char) : Bool :=
  cs.length == width && cs.all fun c ↦ c.isDigit || ('a' ≤ c && c ≤ 'f')

/-- Whether a text is an identifier of this form. -/
def isUuid (s : String) : Bool :=
  match (s.toList.splitOn '-') with
  | [a, b, c, d, e] =>
    isHexGroup 8 a && isHexGroup 4 b && isHexGroup 4 c && isHexGroup 4 d && isHexGroup 12 e &&
      c.head? == some '4' && (d.head?.any fun x ↦ ['8', '9', 'a', 'b'].contains x)
  | _ => false

end MessageBridge.Text
