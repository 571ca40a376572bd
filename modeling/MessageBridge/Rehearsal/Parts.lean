import MessageBridge.Codec
import MessageBridge.Filter
import MessageBridge.Projection

/-!
# Parts for rehearsals

Filters, projections and codecs with a fixed, declared behaviour. A rehearsal uses them to drive a
bridge through every outcome: answers that are always the same, failures on demand, and predicates
that look at one entry.
-/

namespace MessageBridge

open Json (Value Fields)

/-! ## Filters -/

namespace Filter

/-- Always gives the same answer. -/
def constant (name : String) (answer : Bool) : Filter := ⟨name, fun _ _ _ ↦ .ok answer⟩

/-- Always fails. -/
def failing (name reason : String) : Filter := ⟨name, fun _ _ _ ↦ .error ⟨reason⟩⟩

/-- Passes messages whose entry is the given text. -/
def textEquals (name key text : String) : Filter where
  name := name
  evaluate _ m _ :=
    match m.text? key with
    | some s => .ok (s == text)
    | none => .error ⟨key ++ " missing"⟩

/-- Passes messages whose entry is an integer up to a bound. -/
def atMost (name key : String) (bound : Int) : Filter where
  name := name
  evaluate _ m _ :=
    match m.int64? key with
    | some n => .ok (decide (n ≤ bound))
    | none => .error ⟨key ++ " not an integer"⟩

/-- Passes messages with a decoded field of the given name. -/
def hasField (name key : String) : Filter where
  name := name
  evaluate _ _ fields := .ok ((fields.map (Named.contains key)).getD false)

end Filter

/-! ## Projections -/

namespace Projection

/-- Always fails. -/
def failing (name : String) (mode : ProjectionMode) (reason : String) : Projection :=
  ⟨name, mode, fun _ _ ↦ .error (.failed name reason)⟩

/-- Adds a field that holds a text entry of the metadata. -/
def tagging (name : String) (mode : ProjectionMode) (key entry : String) : Projection :=
  ⟨name, mode, fun m fields ↦
    .ok (Named.insert key (.string ((m.text? entry).getD "none")) fields)⟩

end Projection

/-! ## Codecs -/

namespace Schema

/-- A codec that decodes as the schema says and never encodes. -/
def codecWithoutEncoding (schema : Schema) : Codec :=
  { schema.codec with encode := fun _ _ ↦ .error (.encode schema.name "scripted") }

/-- A codec whose retained form is of no use as a template. -/
def codecWithForeignTemplate (schema : Schema) : Codec :=
  { schema.codec with
    decode := fun bytes ↦ (schema.decode bytes).map fun d ↦ { d with retained := .foreign } }

end Schema

end MessageBridge
