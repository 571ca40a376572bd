import MessageBridge.Decimal.Reading
import MessageBridge.Document.Basic
import MessageBridge.Json.Scanner

/-!
# Numbers of the relaxed notation

A number of the relaxed notation keeps its written form until it is read. A field that wants a
natural number takes any number, as binary64, cuts off its fraction and clamps it to the range of
the field. Elsewhere a number only matters for the error that names it, and then integers and
fractions are told apart by how they are written.
-/

namespace MessageBridge

open Decimal (Binary64)

/-! ## Binary64 with infinities -/

/-- A binary64 number, an infinity, or not a number. -/
inductive Wide where
  | finite (x : Binary64)
  | infinite (negative : Bool)
  | undefined
deriving DecidableEq, Repr

/-- The natural number at most `limit` nearest to the integer part. -/
def Wide.toNatUpTo (limit : Nat) : Wide → Nat
  | finite x => x.toNatUpTo limit
  | infinite negative => if negative then 0 else limit
  | undefined => 0

namespace Numeral

/-! ## Written forms -/

/-- The text of infinity. -/
def infinityChars : List Char := "Infinity".toList

/-- The text of what is not a number. -/
def undefinedChars : List Char := "NaN".toList

/-- The digits of a text that is a hexadecimal literal without a sign. -/
def hexDigits? : List Char → Option (List Char)
  | '0' :: x :: d :: rest => if x = 'x' ∨ x = 'X' then some (d :: rest) else none
  | _ => none

/-- The greatest hexadecimal literal, which has 32 bits. -/
def hexMax : Nat := 4294967295

/-- The value of hexadecimal digits, which may not exceed `hexMax`. -/
def hexValue (digits : List Char) : Except NumberFault Nat :=
  match digits.mapM Json.hexDigit? with
  | some ds =>
    let n := ds.foldl (fun acc d ↦ acc * 16 + d) 0
    if n ≤ hexMax then .ok n else .error .badHex
  | none => .error .badHex

/-- Sign and magnitude of a text. -/
def splitSign : List Char → Bool × List Char
  | '-' :: rest => (true, rest)
  | '+' :: rest => (false, rest)
  | s => (false, s)

/-- The binary64 number nearest to a decimal without its sign. Either side of the point may be
empty, but not both; an infinity stands for a number out of range. -/
def decimal? (negative : Bool) (s : List Char) : Option Wide :=
  let (whole, rest) := Json.leadingDigits s
  let (fraction, tail) :=
    match rest with
    | '.' :: more => Json.leadingDigits more
    | _ => ([], rest)
  if whole.isEmpty && fraction.isEmpty then none
  else
    (Json.exponent? tail).map fun e ↦
      let digits := (whole ++ fraction).foldl (fun acc d ↦ acc * 10 + d) 0
      match Binary64.ofDecimal negative digits (e - fraction.length) with
      | some x => .finite x
      | none => .infinite negative

/-- A written number as binary64. -/
def wide (s : List Char) : Except NumberFault Wide :=
  if s = infinityChars then .ok (.infinite false)
  else if s = '-' :: infinityChars then .ok (.infinite true)
  else if s = undefinedChars ∨ s = '-' :: undefinedChars then .ok .undefined
  else
    match hexDigits? s with
    | some digits =>
      (hexValue digits).bind fun n ↦
        match Binary64.ofNat n with
        | some x => .ok (.finite x)
        | none => .error .tooLarge
    | none =>
      let (negative, body) := splitSign s
      if body = infinityChars ∨ body = undefinedChars then .error .tooLarge
      else
        match decimal? negative body with
        | some (.finite x) => .ok (.finite x)
        | some _ => .error .tooLarge
        | none => .error .notANumber

/-- Whether a number is written as an integer: in hexadecimal, or without a point or exponent. -/
def isInteger (s : List Char) : Bool :=
  !s.contains '.' && ((hexDigits? s).isSome || (!s.contains 'e' && !s.contains 'E')) &&
    s != infinityChars && s != '-' :: infinityChars && s != undefinedChars &&
    s != '-' :: undefinedChars

/-- The text that shows a binary64 number in an error. -/
def showWide : Wide → String
  | .finite x => String.ofList x.toPlainChars
  | .infinite negative => if negative then "-inf" else "inf"
  | .undefined => "NaN"

/-- A number in the place of something else. -/
def found : Numeral → Except ReadError Found
  | .exact (.int n) => .ok (.integer n)
  | .exact (.float x) => .ok (.fraction (String.ofList x.toChars))
  | .written s =>
    if isInteger s then
      match hexDigits? s with
      | some digits =>
        match hexValue digits with
        | .ok n => .ok (.integer n)
        | .error fault => .error (.badNumber fault)
      | none =>
        match (Text.integer? s).bind Text.inInt64? with
        | some n => .ok (.integer n)
        | none => .error (.badNumber .badInteger)
    else
      match wide s with
      | .ok w => .ok (.fraction (showWide w))
      | .error fault => .error (.badNumber fault)

end Numeral

end MessageBridge
