import MessageBridge.Route.Compile

/-!
# Preparing messages

What a route does with a message before any destination sees it: it decodes the payload, derives
metadata, asks the filters, applies the projection and encodes the chosen fields again. Each stage
can drop the message, which still counts as handled; nothing is published of a dropped message.
-/

namespace MessageBridge

open Json (Fields)

/-- Why a message was removed from the flow. -/
inductive DropReason where
  | undecodable (error : CodecError)
  | filtered (filter : String)
  | filterFailed (filter : String) (error : FilterError)
  | projectionFailed (error : ProjectionError)
  | unencodable (error : CodecError)
deriving DecidableEq, Repr

/-- A projection of best effort that failed and passed its input on. -/
structure PassedOver where
  /-- The projection. -/
  projection : String
  /-- Its error. -/
  error : ProjectionError
deriving DecidableEq, Repr

/-- The outcome of the preparation of a message. -/
structure Prepared where
  /-- The message for all destinations, or why there is none. -/
  outcome : Except DropReason Message
  /-- A projection that failed on the way without dropping the message. -/
  passedOver : Option PassedOver

namespace CompiledRoute

/-- The decoded payload, if the route has a codec and the payload is not empty. -/
def decode (r : CompiledRoute) (m : Message) : Except CodecError (Option Decoded) :=
  match r.codec with
  | some codec => if m.payload.isEmpty then .ok none else (codec.decode m.payload).map some
  | none => .ok none

/-- The message with its payload's length recorded. -/
def withSize (m : Message) : Message := m.withEntry MetaName.size (.ofNat m.payload.size)

/-- The message with the metadata that the route derives. -/
def annotate (r : CompiledRoute) (m : Message) : Message :=
  let m := ((withSize m).withEntry MetaName.sourceName (.string r.source.point)).withEntry
    MetaName.route (.string r.name)
  match r.codec with
  | some codec => m.withEntry MetaName.contentType (.string codec.contentType)
  | none => m

/-- The message with its chosen fields encoded again, if the route has a projection. -/
def reencode (r : CompiledRoute) (decoded : Option Decoded) (m : Message) : Prepared :=
  match r.projection, r.codec with
  | some projection, some codec =>
    match projection.apply m ((decoded.map Decoded.fields).getD []) with
    | .error e => ⟨.error (.projectionFailed e), none⟩
    | .ok projected =>
      let passedOver := projected.passedOver.map fun e ↦ ⟨projection.name, e⟩
      match codec.encode projected.fields (decoded.map Decoded.retained) with
      | .error e => ⟨.error (.unencodable e), passedOver⟩
      | .ok payload => ⟨.ok (withSize { m with payload := payload }), passedOver⟩
  | _, _ => ⟨.ok m, none⟩

/-- The message as every destination gets it, or why it is dropped. The filters see the derived
metadata and the decoded fields. -/
def prepare (r : CompiledRoute) (wall : Int) (m : Message) : Prepared :=
  match r.decode m with
  | .error e => ⟨.error (.undecodable e), none⟩
  | .ok decoded =>
    let m := r.annotate m
    match r.filters.evaluate wall m (decoded.map Decoded.fields) with
    | .rejected filter => ⟨.error (.filtered filter), none⟩
    | .failed filter e => ⟨.error (.filterFailed filter e), none⟩
    | .pass => r.reencode decoded m

end CompiledRoute

end MessageBridge
