import MessageBridge.Decimal.Notation
import MessageBridge.Json.Numeral
import MessageBridge.Text.Quoted

/-!
# Configuration documents

A document is what a configuration text says before it is known what it configures: null, truth
values, numbers, texts, lists and records. It comes from JSON values or from the relaxed notation;
the two differ in a few details of how a document is read as a typed value, and `Dialect` names
them.

## Errors

A document that does not fit gives the first error in reading order, as a cause with its own
wording.
-/

namespace MessageBridge

open Decimal (Binary64)

/-! ## Documents -/

/-- Why the text of a string cannot be formed from its escapes. -/
inductive TextFault where
  /-- The text ends after a leading surrogate. -/
  | missingTrailSurrogate
  /-- A leading surrogate is followed by a number that is no trailing surrogate. -/
  | expectedTrailSurrogate
  /-- A leading surrogate is followed by something that is no hexadecimal number. -/
  | badHex
  /-- A trailing surrogate has no leading one before it. -/
  | unexpectedTrailSurrogate
deriving DecidableEq, Repr

/-- A number of a document. -/
inductive Numeral where
  /-- A number of JSON. -/
  | exact (n : Json.Number)
  /-- A number of the relaxed notation, as it is written. -/
  | written (s : List Char)
deriving Repr

/-- A document. -/
inductive Document where
  | null
  | bool (b : Bool)
  | number (n : Numeral)
  | text (t : Except TextFault String)
  | list (items : List Document)
  | record (members : List (Except TextFault String × Document))
deriving Inhabited

/-- The two notations that documents come from. -/
inductive Dialect where
  /-- JSON values: integers are exact and lists have exactly the expected length. -/
  | json
  /-- The relaxed notation: numbers are binary64, and surplus list items are ignored, as is what
  stands beside the name of a variant. -/
  | relaxed
deriving DecidableEq, Repr

namespace Document

mutual

/-- A JSON value as a document. -/
def ofJson : Json.Value → Document
  | .null => .null
  | .bool b => .bool b
  | .number n => .number (.exact n)
  | .string s => .text (.ok s)
  | .array items => .list (ofJsonItems items)
  | .object members => .record (ofJsonMembers members)

/-- The items of an array as documents. -/
def ofJsonItems : List Json.Value → List Document
  | [] => []
  | v :: rest => ofJson v :: ofJsonItems rest

/-- The members of an object as documents. -/
def ofJsonMembers : List (String × Json.Value) → List (Except TextFault String × Document)
  | [] => []
  | (key, v) :: rest => (.ok key, ofJson v) :: ofJsonMembers rest

end

end Document

/-! ## Errors -/

/-- What was found in the place of something else. -/
inductive Found where
  | null (dialect : Dialect)
  | bool (b : Bool)
  | integer (n : Int)
  /-- A fraction with the text that shows it. -/
  | fraction (text : String)
  | text (s : String)
  | sequence
  | map
deriving DecidableEq, Repr

/-- What was found, in words. -/
def Found.message : Found → String
  | null .json => "null"
  | null .relaxed => "unit value"
  | bool b => "boolean `" ++ (if b then "true" else "false") ++ "`"
  | integer n => "integer `" ++ toString n ++ "`"
  | fraction s => "floating point `" ++ s ++ "`"
  | text s => "string " ++ Text.quoted s
  | sequence => "sequence"
  | map => "map"

/-- Why a number cannot be read. -/
inductive NumberFault where
  | notANumber
  | tooLarge
  | badHex
  | badInteger
deriving DecidableEq, Repr

/-- Why a document does not fit what is read from it. -/
inductive ReadError where
  | invalidType (found : Found) (expected : String)
  | invalidValue (found : Found) (expected : String)
  | invalidLength (length : Nat) (expected : String)
  | unknownField (name : String) (known : List String)
  | unknownVariant (name : String) (known : List String)
  | missingField (name : String)
  | duplicateField (name : String)
  | badText (fault : TextFault)
  | badNumber (fault : NumberFault)
  /-- A variant was to be named by a text or a record. -/
  | notAVariant
  /-- A variant was to be named by the first member of a record without members. -/
  | emptyVariant
deriving DecidableEq, Repr

/-- The text of a fault in a string. -/
def TextFault.message : TextFault → String
  | missingTrailSurrogate => "missing unicode trail surrogate"
  | expectedTrailSurrogate => "expecting unicode trail surrogate"
  | badHex => "error parsing hex"
  | unexpectedTrailSurrogate => "unexpected unicode trail surrogate"

/-- The text of a fault in a number. -/
def NumberFault.message : NumberFault → String
  | notANumber => "error parsing number"
  | tooLarge => "error parsing number: too large"
  | badHex => "error parsing hex"
  | badInteger => "error parsing integer"

/-- Names to choose from, in words. -/
def oneOf : List String → String
  | [a] => "`" ++ a ++ "`"
  | [a, b] => "`" ++ a ++ "` or `" ++ b ++ "`"
  | names => "one of " ++ ", ".intercalate (names.map fun a ↦ "`" ++ a ++ "`")

/-- The text of a read error. -/
def ReadError.message : ReadError → String
  | invalidType found expected => "invalid type: " ++ found.message ++ ", expected " ++ expected
  | invalidValue found expected => "invalid value: " ++ found.message ++ ", expected " ++ expected
  | invalidLength length expected =>
    "invalid length " ++ toString length ++ ", expected " ++ expected
  | unknownField name known => "unknown field `" ++ name ++ "`, expected " ++ oneOf known
  | unknownVariant name known => "unknown variant `" ++ name ++ "`, expected " ++ oneOf known
  | missingField name => "missing field `" ++ name ++ "`"
  | duplicateField name => "duplicate field `" ++ name ++ "`"
  | badText fault => fault.message
  | badNumber fault => fault.message
  | notAVariant => "expected a string or an object"
  | emptyVariant => "expected a nonempty object"

end MessageBridge
