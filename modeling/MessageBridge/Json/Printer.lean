import MessageBridge.Decimal.Notation
import MessageBridge.Json.Value

/-!
# Writing JSON

The compact text of a value: no blanks, members in their order, strings with the short escapes where
there is one and otherwise only controls escaped, numbers in their shortest notation.
-/

namespace MessageBridge.Json

/-! ## Strings and numbers -/

/-- The hexadecimal digits of a control character, four of them. -/
def controlEscape (c : Char) : List Char :=
  let digits := Nat.toDigits 16 c.toNat
  ['\\', 'u'] ++ List.replicate (4 - digits.length) '0' ++ digits

/-- A character as it stands inside a string. -/
def escapeChar (c : Char) : List Char :=
  if c = '"' then ['\\', '"']
  else if c = '\\' then ['\\', '\\']
  else if 0x20 ≤ c.toNat then [c]
  else if c = '\x08' then ['\\', 'b']
  else if c = '\x0c' then ['\\', 'f']
  else if c = '\n' then ['\\', 'n']
  else if c = '\r' then ['\\', 'r']
  else if c = '\t' then ['\\', 't']
  else controlEscape c

/-- A string in quotes. -/
def stringChars (s : String) : List Char := '"' :: (s.toList.flatMap escapeChar ++ ['"'])

/-- An integer in decimal. -/
def intChars (n : Int) : List Char :=
  (if n < 0 then ['-'] else []) ++ Nat.toDigits 10 n.natAbs

/-- A number in its shortest notation. -/
def Number.toChars : Number → List Char
  | .int n => intChars n
  | .float x => x.toChars

/-! ## Values -/

namespace Value

mutual

/-- The compact text of a value. -/
def toChars : Value → List Char
  | .null => ['n', 'u', 'l', 'l']
  | .bool true => ['t', 'r', 'u', 'e']
  | .bool false => ['f', 'a', 'l', 's', 'e']
  | .number n => n.toChars
  | .string s => stringChars s
  | .array items => '[' :: (itemsChars items ++ [']'])
  | .object members => '\x7b' :: (membersChars members ++ ['\x7d'])

/-- The items of an array with commas between them. -/
def itemsChars : List Value → List Char
  | [] => []
  | [v] => toChars v
  | v :: w :: rest => toChars v ++ ',' :: itemsChars (w :: rest)

/-- The members of an object with commas between them. -/
def membersChars : List (String × Value) → List Char
  | [] => []
  | [(key, v)] => stringChars key ++ ':' :: toChars v
  | (key, v) :: m :: rest =>
    stringChars key ++ ':' :: (toChars v ++ ',' :: membersChars (m :: rest))

end

/-- The compact text of a value. -/
def render (v : Value) : String := String.ofList v.toChars

end Value

end MessageBridge.Json
