import MessageBridge.Json.Numeral
import MessageBridge.Scanning

/-!
# Pieces of JSON text

The pieces of JSON are brackets, colons, commas, strings and words, and a character opens something
only if it is a quote.

Strings hold no raw control characters. An escape of a leading surrogate must be followed at once
by an escape of a trailing one, so every string read is a sequence of Unicode scalar values.
-/

namespace MessageBridge.Json

/-! ## Characters -/

/-- White space between pieces. -/
def isSpace (c : Char) : Bool := c = ' ' || c = '\t' || c = '\n' || c = '\r'

/-- The value of a hexadecimal digit, of either case. -/
def hexDigit? (c : Char) : Option Nat :=
  if '0' ≤ c ∧ c ≤ '9' then some (c.toNat - '0'.toNat)
  else if 'a' ≤ c ∧ c ≤ 'f' then some (c.toNat - 'a'.toNat + 10)
  else if 'A' ≤ c ∧ c ≤ 'F' then some (c.toNat - 'A'.toNat + 10)
  else none

/-- The character that a short escape stands for. -/
def shortEscape? (c : Char) : Option Char :=
  if c = '"' || c = '\\' || c = '/' then some c
  else if c = 'b' then some '\x08'
  else if c = 'f' then some '\x0c'
  else if c = 'n' then some '\n'
  else if c = 'r' then some '\r'
  else if c = 't' then some '\t'
  else none

/-- The value that a word outside strings spells. -/
def word? (s : List Char) : Option Value :=
  if s = ['n', 'u', 'l', 'l'] then some .null
  else if s = ['t', 'r', 'u', 'e'] then some (.bool true)
  else if s = ['f', 'a', 'l', 's', 'e'] then some (.bool false)
  else (Number.ofChars? s).map .number

/-! ## Strings -/

/-- Where the scanner stands in a string, the characters read so far in reverse. -/
inductive Inside where
  /-- Between characters. -/
  | text (read : List Char)
  /-- After a backslash. -/
  | escape (read : List Char)
  /-- Inside a code point escape, with the digits still to come and, for the second half of a pair,
  the leading surrogate. -/
  | code (read : List Char) (lead : Option Nat) (left : Nat) (value : Nat)
  /-- After a leading surrogate: a backslash must follow. -/
  | pairSlash (read : List Char) (lead : Nat)
  /-- After a leading surrogate and a backslash: a code point escape must follow. -/
  | pairCode (read : List Char) (lead : Nat)

/-- A complete code point escape. -/
def codePoint (read : List Char) (lead : Option Nat) (n : Nat) : Option Inside :=
  let isLead := 0xD800 ≤ n ∧ n < 0xDC00
  let isTrail := 0xDC00 ≤ n ∧ n < 0xE000
  match lead with
  | some high =>
    if isTrail then
      some (.text (Char.ofNat (0x10000 + (high - 0xD800) * 0x400 + (n - 0xDC00)) :: read))
    else none
  | none =>
    if isLead then some (.pairSlash read n)
    else if isTrail then none
    else some (.text (Char.ofNat n :: read))

/-- Where a character of a string leads; `none` when it cannot stand there. -/
def Inside.turn? (place : Inside) (c : Char) : Option (Scanning.Turn Inside String Value) :=
  match place with
  | text read =>
    if c = '"' then
      let s := String.ofList read.reverse
      some (.found (.atom (some s) (some (.string s))))
    else if c = '\\' then some (.inside (escape read))
    else if c.toNat < 0x20 then none
    else some (.inside (text (c :: read)))
  | escape read =>
    if c = 'u' then some (.inside (code read none 4 0))
    else (shortEscape? c).map fun e ↦ .inside (text (e :: read))
  | code read lead left value =>
    match hexDigit? c, left with
    | some d, 0 | some d, 1 => (codePoint read lead (value * 16 + d)).map .inside
    | some d, left + 1 => some (.inside (code read lead left (value * 16 + d)))
    | none, _ => none
  | pairSlash read lead => if c = '\\' then some (.inside (pairCode read lead)) else none
  | pairCode read lead => if c = 'u' then some (.inside (code read (some lead) 4 0)) else none

/-! ## Texts -/

/-- A piece of JSON text. -/
abbrev JsonPiece := Piece String Value

/-- How JSON texts are cut into pieces. -/
def lexicalRules : Scanning.Rules Inside String Value where
  isSpace := isSpace
  opens? := fun c ↦ if c = '"' then some (.text []) else none
  word? := fun s ↦ (word? s).map fun v ↦ .atom none (some v)
  turn? := Inside.turn?
  mayEnd := fun _ ↦ false
  apart := by decide

/-- The pieces of a text. -/
def pieces? (s : List Char) : Option (List JsonPiece) := Scanning.pieces? lexicalRules s

end MessageBridge.Json
