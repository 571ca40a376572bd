import MessageBridge.Message
import MessageBridge.Text.Quoted

/-!
# Projections

A projection chooses the fields of a message that are encoded again. A strict one fails when it
cannot do so; one of best effort then passes its input on.
-/

namespace MessageBridge

open Json (Value Fields)

/-! ## Errors -/

/-- What happens when a projection fails. -/
inductive ProjectionMode where
  /-- The input is passed on. -/
  | bestEffort
  /-- The message is dropped. -/
  | strict
deriving DecidableEq, Repr

/-- The name of a mode. -/
def ProjectionMode.name : ProjectionMode → String
  | bestEffort => "best_effort"
  | strict => "strict"

/-- The mode as diagnostics show it. -/
def ProjectionMode.describe : ProjectionMode → String
  | bestEffort => "BestEffort"
  | strict => "Strict"

/-- Why a projection failed. -/
inductive ProjectionError where
  | missingField (projection field : String)
  | failed (projection reason : String)
deriving DecidableEq, Repr

/-- The text of a projection error. -/
def ProjectionError.message : ProjectionError → String
  | missingField projection field =>
    "projection " ++ Text.quoted projection ++ ": missing field " ++ Text.quoted field
  | failed projection reason => "projection " ++ Text.quoted projection ++ " failed: " ++ reason

/-! ## Projections -/

/-- A named choice of fields. -/
structure Projection where
  /-- The name under which routes ask for it. -/
  name : String
  /-- What happens when it fails. -/
  mode : ProjectionMode
  /-- The chosen fields. -/
  project : Message → Fields → Except ProjectionError Fields

/-- The fields that a projection lets through, and the error that it passed over. -/
structure Projected where
  /-- The fields to encode. -/
  fields : Fields
  /-- The error of a projection of best effort that failed. -/
  passedOver : Option ProjectionError

namespace Projection

/-- The fields that go on. A projection of best effort that fails passes its input on. -/
def apply (p : Projection) (m : Message) (fields : Fields) : Except ProjectionError Projected :=
  match p.project m fields with
  | .ok chosen => .ok ⟨chosen, none⟩
  | .error e =>
    match p.mode with
    | .bestEffort => .ok ⟨fields, some e⟩
    | .strict => .error e

/-- The first of some names without an entry. -/
def firstAbsent? (keep : List String) (fields : Fields) : Option String :=
  keep.find? fun name ↦ !Named.contains name fields

/-- The entries under some names, in the order of the names. -/
def keepPresent (keep : List String) (fields : Fields) : Fields :=
  Named.ofList (keep.filterMap fun name ↦ (Named.get? name fields).map fun v ↦ (name, v))

/-- Keeps the fields of the given names, in their order. A strict projection fails at the first name
without a field. -/
def keepFields (name : String) (keep : List String) (mode : ProjectionMode) : Projection where
  name := name
  mode := mode
  project _ fields :=
    match mode, firstAbsent? keep fields with
    | .strict, some field => .error (.missingField name field)
    | _, _ => .ok (keepPresent keep fields)

/-- The projection as diagnostics show it. -/
def describe (p : Projection) : String :=
  "Projection \x7b name: " ++ Text.quoted p.name ++ ", mode: " ++ p.mode.describe ++ ", .. \x7d"

end Projection

/-! ## Registry -/

/-- Projections by name. -/
abbrev ProjectionRegistry := List (String × Projection)

namespace ProjectionRegistry

/-- The registry with a projection under its own name. -/
def register (p : Projection) (registry : ProjectionRegistry) : ProjectionRegistry :=
  Named.insert p.name p registry

/-- The built-in projections: name and age, with either mode. -/
def builtins : ProjectionRegistry :=
  register (.keepFields "keep_name_age_strict" ["name", "age"] .strict)
    (register (.keepFields "keep_name_age_best_effort" ["name", "age"] .bestEffort) [])

end ProjectionRegistry

end MessageBridge
