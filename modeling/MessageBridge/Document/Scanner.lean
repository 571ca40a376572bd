import MessageBridge.Document.Relaxed
import MessageBridge.Scanning
import MessageBridge.Text.Letter

/-!
# Pieces of the relaxed notation

The relaxed notation adds to JSON what people want in configuration files: comments, unquoted
keys, single quotes, line continuations, more escapes, more spellings of numbers and a comma
before a closing bracket. So a character may open a string with either quote, or a comment.

A string is scanned into code units first. Whether its surrogate escapes pair up is part of
reading the string, not of the notation.
-/

namespace MessageBridge

namespace Relaxed

/-! ## Characters -/

/-- The characters that end a line. -/
def isLineEnd (c : Char) : Bool :=
  c = '\n' || c = '\r' || c.toNat == 0x2028 || c.toNat == 0x2029

/-- White space between pieces. -/
def isSpace (c : Char) : Bool :=
  let n := c.toNat
  n == 9 || n == 11 || n == 12 || n == 0x20 || n == 0xA0 || n == 0xFEFF || n == 0x1680 ||
    (0x2000 ≤ n && n ≤ 0x200A) || n == 0x202F || n == 0x205F || n == 0x3000 || isLineEnd c

/-- The character that an escaped character stands for, unless it starts a longer escape. -/
def escaped (c : Char) : Char :=
  if c = '0' then Char.ofNat 0
  else if c = 'b' then '\x08'
  else if c = 'f' then '\x0c'
  else if c = 'n' then '\n'
  else if c = 'r' then '\r'
  else if c = 't' then '\t'
  else if c = 'v' then '\x0b'
  else c

/-! ## Texts -/

/-- A part of a text: a character, an escaped character, or a code unit given by an escape. -/
inductive TextUnit where
  | char (c : Char)
  | escape (c : Char)
  | code (n : Nat)
deriving DecidableEq, Repr

/-- The number that a part of a text spells after a leading surrogate. There a character counts as a
hexadecimal digit, even if it is escaped. -/
def TextUnit.code? : TextUnit → Option Nat
  | char c | escape c => Json.hexDigit? c
  | code n => some n

/-- Whether a code unit is a leading surrogate. -/
def isLead (n : Nat) : Bool := 0xD800 ≤ n && n < 0xDC00

/-- Whether a code unit is a trailing surrogate. -/
def isTrail (n : Nat) : Bool := 0xDC00 ≤ n && n < 0xE000

/-- The character of a pair of surrogates: ten bits of each, with bit 16 set. -/
def paired (lead trail : Nat) : Char :=
  Char.ofNat (0x10000 ||| ((lead - 0xD800) * 0x400 + (trail - 0xDC00)))

/-- The characters of a text, its surrogates paired. -/
def characters : List TextUnit → Except TextFault (List Char)
  | [] => .ok []
  | .char c :: rest => (characters rest).map fun cs ↦ c :: cs
  | .escape c :: rest => (characters rest).map fun cs ↦ escaped c :: cs
  | .code n :: rest =>
    if isTrail n then .error .unexpectedTrailSurrogate
    else if isLead n then
      match rest with
      | [] => .error .missingTrailSurrogate
      | next :: more =>
        match next.code? with
        | none => .error .badHex
        | some m =>
          if isTrail m then (characters more).map fun cs ↦ paired n m :: cs
          else .error .expectedTrailSurrogate
    else (characters rest).map fun cs ↦ Char.ofNat n :: cs

/-- The text of some code units. -/
def textOf (units : List TextUnit) : Except TextFault String :=
  (characters units).map String.ofList

/-! ## Words -/

/-- The value of four hexadecimal digits. -/
def hex4? (a b c d : Char) : Option Nat :=
  match Json.hexDigit? a, Json.hexDigit? b, Json.hexDigit? c, Json.hexDigit? d with
  | some a, some b, some c, some d => some (((a * 16 + b) * 16 + c) * 16 + d)
  | _, _, _, _ => none

/-- Whether a character may start an unquoted key. -/
def startsName (c : Char) : Bool := Text.isLetter c || c = '$' || c = '_'

/-- The rest of an unquoted key after its first character. -/
def nameRest? : List Char → Option (List TextUnit)
  | [] => some []
  | '\\' :: 'u' :: a :: b :: c :: d :: rest =>
    (hex4? a b c d).bind fun n ↦ (nameRest? rest).map fun units ↦ .code n :: units
  | c :: rest =>
    if startsName c || Text.isContinuation c then
      (nameRest? rest).map fun units ↦ .char c :: units
    else none

/-- The unquoted key that a word spells. -/
def name? : List Char → Option (List TextUnit)
  | [] => none
  | c :: rest => if startsName c || c = '\\' then nameRest? (c :: rest) else none

/-- Whether a text is an exponent or nothing. -/
def isExponent (s : List Char) : Bool := (Json.exponent? s).isSome

/-- Whether digits form an integer part: no leading zero before others. -/
def isWhole : List Nat → Bool
  | [] => false
  | 0 :: _ :: _ => false
  | _ => true

/-- Whether a text is a decimal literal without a sign. -/
def isDecimal (s : List Char) : Bool :=
  let (whole, rest) := Json.leadingDigits s
  match rest with
  | '.' :: more =>
    let (fraction, tail) := Json.leadingDigits more
    isExponent tail && (isWhole whole || (whole.isEmpty && !fraction.isEmpty))
  | tail => isWhole whole && isExponent tail

/-- Whether a text is a hexadecimal literal without a sign. -/
def isHex (s : List Char) : Bool :=
  match Numeral.hexDigits? s with
  | some digits => digits.all fun c ↦ (Json.hexDigit? c).isSome
  | none => false

/-- Whether a word is a number. -/
def isNumber (s : List Char) : Bool :=
  let body := (Numeral.splitSign s).2
  body = Numeral.infinityChars || body = Numeral.undefinedChars || isHex body || isDecimal body

/-- The value that a word spells. -/
def wordValue? (s : List Char) : Option Document :=
  if s = "null".toList then some .null
  else if s = "true".toList then some (.bool true)
  else if s = "false".toList then some (.bool false)
  else if isNumber s then some (.number (.written s))
  else none

/-! ## Pieces -/

/-- A piece of the relaxed notation. -/
abbrev RelaxedPiece := Piece (Except TextFault String) Document

/-- The piece that a word is: a key, a value, or either. -/
def wordPiece? (s : List Char) : Option RelaxedPiece :=
  match (name? s).map textOf, wordValue? s with
  | none, none => none
  | key, value => some (.atom key value)

/-- The piece that a string is. -/
def textPiece (read : List TextUnit) : RelaxedPiece :=
  let t := textOf read.reverse
  .atom (some t) (some (.text t))

/-! ## Strings and comments -/

/-- Where the scanner stands in a comment or a string. What it has read of a string is kept in
reverse. -/
inductive Inside where
  /-- After a slash that must start a comment. -/
  | slash
  /-- In a comment to the end of the line. -/
  | lineComment
  /-- In a comment between slashes and stars, after a star or not. -/
  | blockComment (star : Bool)
  /-- In a string with the given quote. -/
  | text (quote : Char) (read : List TextUnit)
  /-- After a backslash in a string. -/
  | escape (quote : Char) (read : List TextUnit)
  /-- After an escaped carriage return, which takes a line feed along. -/
  | escapedReturn (quote : Char) (read : List TextUnit)
  /-- In an escape with hexadecimal digits still to come. -/
  | code (quote : Char) (read : List TextUnit) (left : Nat) (value : Nat)

/-- Where a character of a comment or a string leads. -/
abbrev InsideTurn := Scanning.Turn Inside (Except TextFault String) Document

/-- A character after a backslash in a string. -/
def escapeTurn? (quote : Char) (read : List TextUnit) (c : Char) : Option InsideTurn :=
  if c = '\r' then some (.inside (.escapedReturn quote read))
  else if isLineEnd c then some (.inside (.text quote read))
  else if c = 'x' then some (.inside (.code quote read 2 0))
  else if c = 'u' then some (.inside (.code quote read 4 0))
  else if c.isDigit && c != '0' then none
  else some (.inside (.text quote (.escape c :: read)))

/-- A character of a string. -/
def textTurn? (quote : Char) (read : List TextUnit) (c : Char) : Option InsideTurn :=
  if c = quote then some (.found (textPiece read))
  else if c = '\\' then some (.inside (.escape quote read))
  else if isLineEnd c then none
  else some (.inside (.text quote (.char c :: read)))

/-- Where a character of a comment or a string leads; `none` when it cannot stand there. -/
def Inside.turn? (place : Inside) (c : Char) : Option InsideTurn :=
  match place with
  | slash =>
    if c = '/' then some (.inside lineComment)
    else if c = '*' then some (.inside (blockComment false))
    else none
  | lineComment => some (if isLineEnd c then .skipped else .inside lineComment)
  | blockComment star =>
    if star && c = '/' then some .skipped else some (.inside (blockComment (c = '*')))
  | text quote read => textTurn? quote read c
  | escape quote read => escapeTurn? quote read c
  | escapedReturn quote read =>
    if c = '\n' then some (.inside (text quote read)) else textTurn? quote read c
  | code quote read left value =>
    match Json.hexDigit? c, left with
    | some d, 0 | some d, 1 => some (.inside (text quote (.code (value * 16 + d) :: read)))
    | some d, left + 1 => some (.inside (code quote read left (value * 16 + d)))
    | none, _ => none

/-- Whether a text may end there: only in a comment to the end of the line. -/
def Inside.mayEnd : Inside → Bool
  | lineComment => true
  | _ => false

/-! ## Texts -/

/-- Whether a character is a quote. -/
def isQuote (c : Char) : Bool := c = '"' || c = '\x27'

/-- What a character between pieces opens. -/
def opens? (c : Char) : Option Inside :=
  if isQuote c then some (.text c []) else if c = '/' then some .slash else none

/-- How texts of the relaxed notation are cut into pieces. -/
def lexicalRules : Scanning.Rules Inside (Except TextFault String) Document where
  isSpace := isSpace
  opens? := opens?
  word? := wordPiece?
  turn? := Inside.turn?
  mayEnd := Inside.mayEnd
  apart := by decide

/-- The pieces of a text. -/
def pieces? (s : List Char) : Option (List RelaxedPiece) := Scanning.pieces? lexicalRules s

/-! ## Documents -/

/-- The decisions of the relaxed notation: a comma may stand before a closing bracket, and nesting
has no bound. -/
def rules : Nesting.Rules (Except TextFault String) Document where
  list := .list
  record := .record
  trailingComma := true
  maxDepth := none

end Relaxed

/-- The document that a text of the relaxed notation spells. -/
def Document.ofRelaxed? (s : String) : Option Document :=
  (Relaxed.pieces? s.toList).bind (Nesting.value? Relaxed.rules)

end MessageBridge
