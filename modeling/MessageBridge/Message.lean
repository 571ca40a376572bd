import MessageBridge.Json.Printer
import MessageBridge.Text.Integer

/-!
# Messages

A message is a payload of bytes and an open table of metadata. The bridge reads a few entries:
numbers may arrive as numbers or as text, so both are read, and a creation time that is missing,
unreadable or not positive is no creation time.
-/

namespace MessageBridge

open Json (Value Fields)

/-! ## Metadata names -/

namespace MetaName

/-- Payload length in bytes. -/
def size : String := "size"

/-- Media type of the codec that decoded the payload. -/
def contentType : String := "content_type"

/-- Name of the point the message was received on. -/
def sourceName : String := "source_name"

/-- Creation time in milliseconds of Unix time. -/
def createdAt : String := "createdAtMs"

/-- Identifier, used to correlate log lines only. -/
def messageId : String := "msg_id"

/-- Name of the route that processed the message. -/
def route : String := "route"

end MetaName

/-! ## Reading values as integers -/

/-- The 64-bit integer that a value spells: a number is cut and clamped, a text is read exactly. -/
def Json.Value.toInt64? : Value → Option Int
  | .number n => some (Text.clampInt64 n.truncate)
  | .string s => Text.int64? s
  | _ => none

/-! ## Messages -/

/-- Payload bytes and metadata. -/
structure Message where
  /-- The bytes to deliver. -/
  payload : ByteArray
  /-- The metadata beside them. -/
  metadata : Fields
deriving Inhabited

namespace Message

/-- The entry under a name. -/
def entry? (name : String) (m : Message) : Option Value := Named.get? name m.metadata

/-- The entry under a name as an integer. -/
def int64? (name : String) (m : Message) : Option Int := (m.entry? name).bind Value.toInt64?

/-- The entry under a name, if it is a text. -/
def text? (name : String) (m : Message) : Option String := (m.entry? name).bind Value.string?

/-- The message with an entry added or replaced. -/
def withEntry (name : String) (value : Value) (m : Message) : Message :=
  { m with metadata := Named.insert name value m.metadata }

/-- The message with an entry added unless the name is taken. -/
def withDefault (name : String) (value : Value) (m : Message) : Message :=
  { m with metadata := Named.insertNew name value m.metadata }

/-- The creation time, when it is known and positive. -/
def createdAt? (m : Message) : Option Int :=
  (m.int64? MetaName.createdAt).filter fun t ↦ decide (0 < t)

/-- The age at a reading of the wall clock, when the creation time is known. -/
def age? (now : Int) (m : Message) : Option Int := m.createdAt?.map fun t ↦ now - t

/-- The identifier as log lines show it. -/
def idText (m : Message) : String :=
  match m.entry? MetaName.messageId with
  | some (.string id) => id
  | some .null | none => "none"
  | some other => other.render

end Message

end MessageBridge
