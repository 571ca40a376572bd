import MessageBridge.Bus.Error
import MessageBridge.Lane.Queue
import MessageBridge.Message

/-!
# Ingress points in memory

A point that messages can be injected into. A dispatcher hands them to the subscribed handler one
by one, without waiting for its verdicts, until its subscription is cancelled or the point is
stopped; what it has not handed over by then is sent away.

Calls are named by numbers; an injection is a call that ends with the verdict of the handler.
-/

namespace MessageBridge

open Json (Value)

/-- The message with an identifier and a creation time, unless it has them. -/
def Message.stamp (id : String) (wall : Int) (m : Message) : Message :=
  (m.withDefault MetaName.messageId (.string id)).withDefault MetaName.createdAt (.ofInt wall)

namespace Memory

/-- A message that was injected by a call. -/
structure Delivery where
  /-- The call. -/
  call : Nat
  /-- The message. -/
  message : Message

/-- What stands between the injectors and a handler. -/
structure Dispatcher (Handler : Type) where
  /-- The handler. -/
  handler : Handler
  /-- The messages that were injected and not handed over. -/
  deliveries : Queue Delivery
  /-- Whether the token of the subscription was fired. -/
  cancelled : Bool

/-- A point that messages can be injected into. -/
structure Ingress (Handler : Type) where
  /-- The name. -/
  source : String
  /-- Whether a handler was started and the point not stopped since. -/
  subscribed : Bool
  /-- Whether the point was stopped. -/
  stopped : Bool
  /-- The dispatcher, from the start of a handler until it ends. -/
  dispatcher : Option (Dispatcher Handler)
  /-- The calls that wait for their verdict. -/
  pending : List Nat
  /-- The number of calls that ended with a commit. -/
  committed : Nat

namespace Ingress

variable {Handler : Type}

/-- The number of messages that can wait for the dispatcher. -/
def queueDepth : Nat := 1024

/-- A point without a handler. -/
def ofName (source : String) : Ingress Handler := ⟨source, false, false, none, [], 0⟩

/-- Whether the point says that it has a handler. -/
def isSubscribed (i : Ingress Handler) : Bool := i.subscribed && !i.stopped

/-! ## Operations -/

/-- A handler is started on the point, which takes one only, and none after it was stopped. -/
def start (handler : Handler) (i : Ingress Handler) : Except BusError (Ingress Handler) :=
  if i.stopped then .error .closed
  else if i.subscribed then
    .error (.subscribe (Text.quoted i.source ++ " already has a subscriber"))
  else
    .ok { i with subscribed := true, dispatcher := some ⟨handler, .empty queueDepth, false⟩ }

/-- A call injects a message: it waits for its verdict, unless there is no way to a handler. -/
def inject (call : Nat) (m : Message) (i : Ingress Handler) :
    Except InjectError (Ingress Handler) :=
  if i.stopped then .error .stopped
  else if !i.subscribed then .error .notSubscribed
  else
    match i.dispatcher with
    | none => .error .stopped
    | some d =>
      match d.deliveries.offer? ⟨call, m⟩ with
      | none => .error .stopped
      | some q =>
        .ok { i with dispatcher := some { d with deliveries := q }, pending := call :: i.pending }

/-- The dispatcher hands a message over, unless its subscription is cancelled. -/
def handOver? (i : Ingress Handler) : Option ((Handler × Delivery) × Ingress Handler) := do
  let d ← i.dispatcher
  if d.cancelled then none
  else
    let (delivery, q) ← d.deliveries.take?
    return ((d.handler, delivery), { i with dispatcher := some { d with deliveries := q } })

/-- The dispatcher ends, since its subscription is cancelled. The first part are the calls that hear
that the point is stopped. -/
def halt? (i : Ingress Handler) : Option (List Nat × Ingress Handler) := do
  let d ← i.dispatcher
  if d.cancelled then
    let lost := d.deliveries.discard.1.map Delivery.call
    return (lost.filter i.pending.contains,
      { i with dispatcher := none, pending := i.pending.filter fun c ↦ !lost.contains c })
  else none

/-- The handler's verdict on a call: a commit is counted, if the call still waits. -/
def verdict? (call : Nat) (verdict : Except HandleError Unit) (i : Ingress Handler) :
    Option (Except InjectError Unit × Ingress Handler) :=
  if i.pending.contains call then
    let i := { i with pending := i.pending.filter fun c ↦ c != call }
    match verdict with
    | .ok () => some (.ok (), { i with committed := i.committed + 1 })
    | .error e => some (.error (.refused e), i)
  else none

/-- A call gives up waiting. What the queue accepted is handed over all the same. -/
def abandon (call : Nat) (i : Ingress Handler) : Ingress Handler :=
  { i with
    pending := i.pending.filter fun c ↦ c != call
    dispatcher := i.dispatcher.map fun d ↦
      { d with deliveries := d.deliveries.withdraw fun x ↦ x.call == call } }

/-- The token of the subscription is fired. -/
def cancel (i : Ingress Handler) : Ingress Handler :=
  { i with dispatcher := i.dispatcher.map fun d ↦ { d with cancelled := true } }

/-- The point is stopped. -/
def stop (i : Ingress Handler) : Ingress Handler :=
  { i.cancel with stopped := true, subscribed := false }

end Ingress

end Memory

end MessageBridge
