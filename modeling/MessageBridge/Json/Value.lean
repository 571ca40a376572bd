import MessageBridge.Decimal.Binary64
import MessageBridge.Named

/-!
# JSON values

The value model of documents and payloads. Integers and fractions are kept apart: a number written
without a point or exponent stays an integer while it fits in 64 bits. The members of an object keep
the order in which their names first appeared.
-/

namespace MessageBridge.Json

open Decimal (Binary64)

/-! ## Values -/

/-- A JSON number. -/
inductive Number where
  /-- An integer of 64 bits, signed or unsigned. -/
  | int (n : Int)
  /-- A binary64 number. -/
  | float (x : Binary64)
deriving DecidableEq, Repr, Inhabited

/-- A JSON value. -/
inductive Value where
  | null
  | bool (b : Bool)
  | number (n : Number)
  | string (s : String)
  | array (items : List Value)
  | object (members : List (String × Value))
deriving Repr, Inhabited, BEq

/-- The members of an object, in the order of first appearance of their names. -/
abbrev Fields := List (String × Value)

/-! ## Numbers -/

/-- The integer part of a number. -/
def Number.truncate : Number → Int
  | .int n => n
  | .float x => x.truncate

namespace Value

/-! ## Building values -/

/-- An integer as a value. -/
def ofInt (n : Int) : Value := .number (.int n)

/-- A natural number as a value. -/
def ofNat (n : Nat) : Value := .number (.int n)

/-- Texts as an array. -/
def ofStrings (texts : List String) : Value := .array (texts.map .string)

/-! ## Views -/

/-- The text of a string value. -/
def string? : Value → Option String
  | .string s => some s
  | _ => none

/-- Whether the value is null. -/
def isNull : Value → Bool
  | .null => true
  | _ => false

end Value

end MessageBridge.Json
