import MessageBridge.Json.Parser
import MessageBridge.Json.Printer
import MessageBridge.Text.Quoted

/-!
# Payload codecs

A codec turns payload bytes into fields and back. Decoding also yields a retained form of the
payload, which encoding takes as a template: fields that the template has come first and in its
order, the others follow. A registry picks the codec of a source, or a default for all other
sources.
-/

namespace MessageBridge

open Json (Value Fields)

/-! ## Errors -/

/-- Why a payload could not be decoded or encoded. -/
inductive CodecError where
  | malformed (schema : String)
  | notAnObject (schema : String)
  | missingRequiredField (schema field : String)
  | unexpectedTemplate (schema : String)
  | encode (schema reason : String)
deriving DecidableEq, Repr

/-- The text of a codec error. -/
def CodecError.message : CodecError → String
  | malformed schema => schema ++ ": malformed payload"
  | notAnObject schema => schema ++ ": payload is not an object"
  | missingRequiredField schema field =>
    schema ++ ": required field " ++ Text.quoted field ++ " is missing"
  | unexpectedTemplate schema => schema ++ ": retained representation has an unexpected type"
  | encode schema reason => schema ++ ": encode failed: " ++ reason

/-! ## Codecs -/

/-- What a codec keeps of a decoded payload. -/
inductive Retained where
  /-- The decoded object. -/
  | fields (fields : Fields)
  /-- A form that belongs to some other codec. -/
  | foreign

/-- A decoded payload. -/
structure Decoded where
  /-- The fields of the payload. -/
  fields : Fields
  /-- What the codec keeps of it as a template. -/
  retained : Retained

/-- A way to turn payloads into fields and back. -/
structure Codec where
  /-- The media type given to messages that this codec decoded. -/
  contentType : String
  /-- The fields of a payload. -/
  decode : ByteArray → Except CodecError Decoded
  /-- The payload for some fields, after a template. -/
  encode : Fields → Option Retained → Except CodecError ByteArray

/-! ## Schemas -/

/-- What a JSON codec expects of its payloads. -/
structure Schema where
  /-- The name that errors carry. -/
  name : String
  /-- The media type. -/
  contentType : String
  /-- Fields without which a payload is refused. -/
  requiredFields : List String
deriving DecidableEq, Repr, Inhabited

namespace Schema

/-- The media type of JSON. -/
def jsonContentType : String := "application/json"

/-- A schema that requires the given fields of a JSON object. -/
def ofName (name : String) (requiredFields : List String) : Schema :=
  ⟨name, jsonContentType, requiredFields⟩

/-- The first required field that is absent. -/
def firstMissing? (schema : Schema) (fields : Fields) : Option String :=
  schema.requiredFields.find? fun field ↦ !Named.contains field fields

/-- The fields of a JSON payload that has every required field. -/
def decode (schema : Schema) (bytes : ByteArray) : Except CodecError Decoded :=
  match Value.ofBytes? bytes with
  | none => .error (.malformed schema.name)
  | some (.object fields) =>
    match schema.firstMissing? fields with
    | some field => .error (.missingRequiredField schema.name field)
    | none => .ok ⟨fields, .fields fields⟩
  | some _ => .error (.notAnObject schema.name)

/-- The fields in the order of a template, those that it lacks last. -/
def arrange (template fields : Fields) : Fields :=
  (Named.names template).filterMap (fun key ↦ (Named.get? key fields).map fun v ↦ (key, v)) ++
    fields.filter fun entry ↦ !Named.contains entry.1 template

/-- The bytes of an object. -/
def objectBytes (fields : Fields) : ByteArray := (Value.object fields).render.toUTF8

/-- The JSON payload for some fields, in the order of the template if there is one. -/
def encode (schema : Schema) (fields : Fields) : Option Retained → Except CodecError ByteArray
  | none => .ok (objectBytes fields)
  | some (.fields template) => .ok (objectBytes (arrange template fields))
  | some .foreign => .error (.unexpectedTemplate schema.name)

/-- The codec of a schema. -/
def codec (schema : Schema) : Codec := ⟨schema.contentType, schema.decode, schema.encode⟩

end Schema

/-! ## Registry -/

/-- Codecs by source name, with an optional one for all other sources. -/
structure CodecRegistry where
  /-- The codec for sources without one of their own. -/
  fallback : Option Codec
  /-- The codecs of single sources. -/
  sources : List (String × Codec)

namespace CodecRegistry

/-- No codecs. -/
def empty : CodecRegistry := ⟨none, []⟩

/-- The registry with a codec for one source. -/
def withSource (source : String) (codec : Codec) (registry : CodecRegistry) : CodecRegistry :=
  { registry with sources := Named.insert source codec registry.sources }

/-- The registry with a codec for all other sources. -/
def withFallback (codec : Codec) (registry : CodecRegistry) : CodecRegistry :=
  { registry with fallback := some codec }

/-- The codec of a source: its own, else the one for all others. -/
def resolve (source : String) (registry : CodecRegistry) : Option Codec :=
  (Named.get? source registry.sources).or registry.fallback

end CodecRegistry

end MessageBridge
