import MessageBridge.Text.Unprintable

/-!
# Quoted names

Diagnostics show a name between double quotes so that its ends, and the characters nobody can see in
it, are visible. The quote and the backslash are escaped, four controls have a short escape, and
every other character without a glyph of its own, or that would attach to the quote before it, is
spelled by its code point.
-/

namespace MessageBridge.Text

/-! ## Spelling characters -/

/-- The lower case hexadecimal digits of a number, without padding. -/
def hexDigits (n : Nat) : List Char := Nat.toDigits 16 n

/-- A character as it stands between quotes. -/
def quotedChar (c : Char) : List Char :=
  if c = '"' then ['\\', '"']
  else if c = '\\' then ['\\', '\\']
  else if c = '\n' then ['\\', 'n']
  else if c = '\r' then ['\\', 'r']
  else if c = '\t' then ['\\', 't']
  else if c.toNat = 0 then ['\\', '0']
  else if isInvisible c || isMark c then
    ['\\', 'u', '\x7b'] ++ hexDigits c.toNat ++ ['\x7d']
  else [c]

/-! ## Quoting -/

/-- The text between double quotes, with the escapes of `quotedChar`. -/
def quoted (s : String) : String :=
  String.ofList ('"' :: (s.toList.flatMap quotedChar ++ ['"']))

/-- The quoted texts between brackets, separated by commas. -/
def quotedList (names : List String) : String :=
  "[" ++ ", ".intercalate (names.map quoted) ++ "]"

end MessageBridge.Text
