import MessageBridge.Message
import MessageBridge.Text.Quoted

/-!
# Filters

A filter is a named predicate on a message and its decoded fields, evaluated at a reading of the
wall clock. A chain asks its filters in order; the first that says no, or fails, decides.
-/

namespace MessageBridge

open Json (Value Fields)

/-! ## Filters -/

/-- Why a predicate could not be evaluated. -/
structure FilterError where
  /-- The reason. -/
  reason : String
deriving DecidableEq, Repr

/-- The text of a filter error. -/
def FilterError.message (e : FilterError) : String := "filter evaluation failed: " ++ e.reason

/-- A named predicate. -/
structure Filter where
  /-- The name under which routes ask for it. -/
  name : String
  /-- The answer at a clock reading for a message and its decoded fields, if it has any. -/
  evaluate : Int → Message → Option Fields → Except FilterError Bool

/-- The filter as diagnostics show it. -/
def Filter.describe (f : Filter) : String :=
  "Filter \x7b name: " ++ Text.quoted f.name ++ ", .. \x7d"

/-! ## Chains -/

/-- The outcome of a chain. -/
inductive FilterVerdict where
  | pass
  | rejected (filter : String)
  | failed (filter : String) (error : FilterError)
deriving DecidableEq, Repr

/-- Filters in the order in which they are asked. -/
abbrev FilterChain := List Filter

namespace FilterChain

/-- The names in order. -/
def names (chain : FilterChain) : List String := chain.map Filter.name

/-- The verdict of the first filter that does not pass the message. -/
def evaluate (now : Int) (m : Message) (fields : Option Fields) : FilterChain → FilterVerdict
  | [] => .pass
  | f :: rest =>
    match f.evaluate now m fields with
    | .ok true => evaluate now m fields rest
    | .ok false => .rejected f.name
    | .error e => .failed f.name e

/-- The chain as diagnostics show it. -/
def describe (chain : FilterChain) : String :=
  "FilterChain \x7b filters: [" ++ ", ".intercalate (chain.map Filter.describe) ++ "] \x7d"

end FilterChain

/-! ## Built-in filters -/

namespace Filter

/-- The greatest payload that `sizeLimit` passes: one mebibyte. -/
def mebibyte : Int := 1024 * 1024

/-- The greatest age that `recent` passes: one hour in milliseconds. -/
def hour : Int := 3600 * 1000

/-- Passes messages whose recorded size is at most one mebibyte. -/
def sizeLimit : Filter where
  name := "size_le_1mb"
  evaluate _ m _ := .ok (decide ((m.int64? MetaName.size).getD 0 ≤ mebibyte))

/-- Passes messages known to be at most an hour old. -/
def recent : Filter where
  name := "recent_1h"
  evaluate now m _ :=
    match m.age? now with
    | some age => .ok (decide (age ≤ hour))
    | none => .ok false

/-- The entry under a name unless it is null. -/
def nonNull? (name : String) (fields : Fields) : Option Value :=
  (Named.get? name fields).filter fun v ↦ !v.isNull

/-- Whether the fields describe a named user who is older than sixteen or has a capital A in the
name. -/
def isBasicUser (fields : Fields) : Bool :=
  match nonNull? "name" fields, nonNull? "age" fields with
  | some name, some age =>
    let name := name.string?.getD ""
    match age.toInt64? with
    | some age => name != "" && (decide (16 < age) || name.toList.contains 'A')
    | none => false
  | _, _ => false

/-- Passes messages whose fields describe a basic user. -/
def basicUser : Filter where
  name := "user_basic"
  evaluate _ _ fields := .ok ((fields.map isBasicUser).getD false)

end Filter

/-! ## Registry -/

/-- Filters by name. -/
abbrev FilterRegistry := List (String × Filter)

namespace FilterRegistry

/-- The registry with a filter under its own name. -/
def register (f : Filter) (registry : FilterRegistry) : FilterRegistry :=
  Named.insert f.name f registry

/-- The built-in filters. -/
def builtins : FilterRegistry :=
  register Filter.basicUser (register Filter.recent (register Filter.sizeLimit []))

end FilterRegistry

end MessageBridge
