import MessageBridge.Bus.Adapter
import MessageBridge.Memory.Connector
import MessageBridge.Rehearsal.Script

/-!
# Connectors of a rehearsal

Three kinds of connectors take part in a rehearsal: connectors in memory, connectors whose points
do what they are told, and buses that answer by a script and have no points of their own. This
module gives them one set of operations.
-/

namespace MessageBridge.Rehearsal

/-! ## Handlers -/

/-- Who handles the messages of a source. -/
inductive Handler where
  /-- A route of a run. -/
  | route (run index : Nat)
  /-- A recorder. -/
  | recorder (index : Nat)
deriving DecidableEq, Repr

/-- A handler with the token of its subscription. -/
structure Subscriber where
  /-- The handler. -/
  handler : Handler
  /-- The token. -/
  token : Nat
deriving DecidableEq, Repr

/-! ## Kinds -/

/-- An ingress point that does what it is told, and counts. -/
structure PointIngress where
  /-- The name. -/
  name : String
  /-- The reason with which starting fails. -/
  startError : Option String
  /-- The reason with which stopping fails. -/
  stopError : Option String
  /-- The number of starts. -/
  starts : Nat
  /-- The number of stops. -/
  stops : Nat

/-- An egress point that does what it is told, and counts. -/
structure PointEgress where
  /-- How it answers. -/
  target : ScriptedTarget
  /-- The reason with which closing fails. -/
  closeError : Option String
  /-- The number of times it was closed. -/
  closes : Nat

/-- A connector whose points do what they are told. -/
structure PointConnector where
  /-- The name. -/
  name : String
  /-- The ingress points. -/
  ingresses : List PointIngress
  /-- The egress points. -/
  egresses : List PointEgress
  /-- Whether publishes are logged. -/
  logged : Bool
  /-- The reason with which closing fails. -/
  closeError : Option String
  /-- The number of times it was closed. -/
  closes : Nat

/-- A bus that answers by a script. -/
structure ScriptedBus where
  /-- The name. -/
  name : String
  /-- The sources. -/
  sources : List String
  /-- The targets. -/
  targets : List ScriptedTarget
  /-- The reasons to refuse subscriptions, by source; the last one of a source counts. -/
  refusals : List (String × String)
  /-- The last handler of every source. -/
  handlers : List (String × Handler)

/-- A connector of a rehearsal. -/
inductive Connector where
  | memory (connector : Memory.Connector Subscriber)
  | points (connector : PointConnector)
  | scripted (bus : ScriptedBus)

namespace Connector

/-! ## Names -/

/-- The name. -/
def name : Connector → String
  | memory c => c.name
  | points c => c.name
  | scripted b => b.name

/-- The names of the sources. -/
def sources : Connector → List String
  | memory c => c.sources
  | points c => c.ingresses.map PointIngress.name
  | scripted b => b.sources

/-- The names of the targets. -/
def targets : Connector → List String
  | memory c => c.targets
  | points c => c.egresses.map fun e ↦ e.target.name
  | scripted b => b.targets.map ScriptedTarget.name

/-! ## Changing one part -/

/-- The list with the element at a place changed, and what the change gives. -/
def updateAt {α β : Type} (i : Nat) (f : α → β × α) (xs : List α) : Option (β × List α) :=
  xs[i]?.map fun a ↦
    let (b, a) := f a
    (b, xs.set i a)

/-- The list with the first element that can change changed, and what the change gives. -/
def updateFirst {α β : Type} (f : α → Option (β × α)) : List α → Option (β × List α)
  | [] => none
  | a :: rest =>
    match f a with
    | some (b, a) => some (b, a :: rest)
    | none => (updateFirst f rest).map fun (b, rest) ↦ (b, a :: rest)

/-! ## Subscribing -/

/-- An answer: success, or failure with a reason. -/
def answer (error : String → BusError) : Option String → Except BusError Unit
  | none => .ok ()
  | some reason => .error (error reason)

/-- The ingress point at a place is started. -/
def startIngress (i : Nat) (s : Subscriber) (c : Connector) : Except BusError Unit × Connector :=
  match c with
  | memory m =>
    match m.ingresses[i]? with
    | none => (.error .closed, c)
    | some ingress =>
      match ingress.start s with
      | .ok ingress => (.ok (), memory { m with ingresses := m.ingresses.set i ingress })
      | .error e => (.error e, c)
  | points p =>
    match updateAt i
      (fun x : PointIngress ↦ (answer .subscribe x.startError, { x with starts := x.starts + 1 }))
      p.ingresses with
    | none => (.error .closed, c)
    | some (a, ingresses) => (a, points { p with ingresses := ingresses })
  | scripted _ => (.error .closed, c)

/-- A handler is put on a source of a scripted bus. -/
def subscribeScripted (source : String) (h : Handler) (b : ScriptedBus) :
    Except BusError Unit × ScriptedBus :=
  match Named.get? source b.refusals.reverse with
  | some reason => (.error (.subscribe reason), b)
  | none => (.ok (), { b with handlers := Named.insert source h b.handlers })

/-- Whether a handler is on one of the sources. Points that do what they are told keep none. -/
def keeps (h : Handler) : Connector → Bool
  | memory m => m.ingresses.any fun i ↦ i.dispatcher.any fun d ↦ d.handler.handler == h
  | points _ => false
  | scripted b => b.handlers.any fun x ↦ x.2 == h

/-! ## Closing -/

/-- The connector itself is closed. -/
def close (c : Connector) : Except BusError Unit × Connector :=
  match c with
  | memory m => (.ok (), memory m.close)
  | points p => (answer .close p.closeError, points { p with closes := p.closes + 1 })
  | scripted _ => (.ok (), c)

/-- A call that closing a bus makes. -/
def perform (call : ClosingCall) (c : Connector) : Except BusError Unit × Connector :=
  match c, call with
  | memory m, .ingress _ i =>
    (.ok (), memory { m with ingresses := m.ingresses.modify i .stop })
  | memory m, .egress _ i => (.ok (), memory { m with egresses := m.egresses.modify i .close })
  | points p, .ingress _ i =>
    match updateAt i
      (fun x : PointIngress ↦ (answer .close x.stopError, { x with stops := x.stops + 1 }))
      p.ingresses with
    | none => (.ok (), c)
    | some (a, ingresses) => (a, points { p with ingresses := ingresses })
  | points p, .egress _ i =>
    match updateAt i
      (fun x : PointEgress ↦ (answer .close x.closeError, { x with closes := x.closes + 1 }))
      p.egresses with
    | none => (.ok (), c)
    | some (a, egresses) => (a, points { p with egresses := egresses })
  | c, .connector => c.close
  | scripted _, _ => (.ok (), c)

/-! ## Publishing -/

/-- A publish that ended. -/
structure Concluded where
  /-- The call that published. -/
  call : Nat
  /-- The target. -/
  target : String
  /-- The message. -/
  message : Message
  /-- The answer, or `none` for a crash. -/
  answer : Option (Except BusError Unit)
  /-- Whether the end is logged. -/
  logged : Bool

/-- The event about a publish that ended. -/
def Concluded.event? (c : Concluded) : Option Event :=
  if c.logged then
    c.answer.map fun
      | .ok () => .egressAccepted c.target c.message.idText c.message.payload.size
      | .error e => .egressRefused c.target c.message.idText c.message.payload.size e
  else none

/-- A publish on the egress point at a place begins; the first part says if it ends at once. -/
def beginPublish (now call i : Nat) (m : Message) (c : Connector) :
    Option Concluded × Connector :=
  match c with
  | memory k =>
    match updateAt i (Memory.Egress.begin now call m) k.egresses with
    | some (refusal, egresses) =>
      (refusal.map fun e ↦ ⟨call, (k.targets[i]?).getD "", m, some (.error e), true⟩,
        memory { k with egresses := egresses })
    | none => (none, c)
  | points p =>
    (none, points { p with egresses := p.egresses.modify i fun e ↦
      { e with target := e.target.begin now call m } })
  | scripted b =>
    (none, scripted { b with targets := b.targets.modify i (ScriptedTarget.begin now call m) })

/-- The first publish whose time has come ends on a target in memory. -/
def concludeMemory? (now : Nat) (e : Memory.Egress) : Option (Concluded × Memory.Egress) := do
  let p ← e.pending.find? fun p ↦ decide (p.due ≤ now)
  let (answer, e) ← e.decide? p.call
  return (⟨p.call, e.target, p.message, some answer, true⟩, e)

/-- The first publish whose time has come ends on a scripted target. -/
def concludeScripted? (bus : String) (logged : Bool) (now : Nat) (t : ScriptedTarget) :
    Option (Concluded × ScriptedTarget) :=
  (t.conclude? now).map fun (a, t) ↦
    (⟨a.call, t.name, a.message, a.outcome.answer? bus t.name, logged⟩, t)

/-- The first publish whose time has come ends. -/
def conclude? (now : Nat) : Connector → Option (Concluded × Connector)
  | memory k =>
    (updateFirst (concludeMemory? now) k.egresses).map fun (c, egresses) ↦
      (c, memory { k with egresses := egresses })
  | points p =>
    let conclude (e : PointEgress) := (concludeScripted? p.name p.logged now e.target).map
      fun (c, t) ↦ (c, { e with target := t })
    (updateFirst conclude p.egresses).map fun (c, egresses) ↦
      (c, points { p with egresses := egresses })
  | scripted b =>
    (updateFirst (concludeScripted? b.name false now) b.targets).map fun (c, targets) ↦
      (c, scripted { b with targets := targets })

/-! ## What happens by itself -/

/-- A dispatcher that was cancelled ends; the first part are the calls it sends away. -/
def halt? : Connector → Option (List Nat × Connector)
  | memory k =>
    (updateFirst Memory.Ingress.halt? k.ingresses).map fun (calls, ingresses) ↦
      (calls, memory { k with ingresses := ingresses })
  | _ => none

/-- A dispatcher hands a message over. -/
def handOver? : Connector → Option ((Subscriber × Memory.Delivery) × Connector)
  | memory k =>
    (updateFirst Memory.Ingress.handOver? k.ingresses).map fun (d, ingresses) ↦
      (d, memory { k with ingresses := ingresses })
  | _ => none

/-- A call that waits for records ends: with `true` when they are there, with `false` when its time
is over. -/
def endWait? (now : Nat) : Connector → Option ((Nat × Bool) × Connector)
  | memory k =>
    let endWait (e : Memory.Egress) :=
      (e.reached?.map fun (call, e) ↦ ((call, true), e)).or
        ((e.expired? now).map fun (call, e) ↦ ((call, false), e))
    (updateFirst endWait k.egresses).map fun (r, egresses) ↦
      (r, memory { k with egresses := egresses })
  | _ => none

/-- The times at which something happens by itself. -/
def times : Connector → List Nat
  | memory k => k.egresses.flatMap Memory.Egress.times
  | points p => p.egresses.flatMap fun e ↦ e.target.times
  | scripted b => b.targets.flatMap ScriptedTarget.times

/-- Subscriptions whose token is cancelled are cancelled. -/
def heed (isCancelled : Nat → Bool) : Connector → Connector
  | memory k =>
    memory { k with ingresses := k.ingresses.map fun i ↦
      if i.dispatcher.any fun d ↦ isCancelled d.handler.token then i.cancel else i }
  | c => c

/-- One ingress point in memory changes; `none` if there is no such point. -/
def updateIngress? {β : Type} (source : String)
    (f : Memory.Ingress Subscriber → Option (β × Memory.Ingress Subscriber)) :
    Connector → Option (β × Connector)
  | memory k =>
    (updateFirst (fun i ↦ if i.source = source then f i else none) k.ingresses).map
      fun (b, ingresses) ↦ (b, memory { k with ingresses := ingresses })
  | _ => none

/-- One egress point in memory changes; `none` if there is no such point. -/
def updateEgress? {β : Type} (target : String) (f : Memory.Egress → β × Memory.Egress) :
    Connector → Option (β × Connector)
  | memory k =>
    (updateFirst (fun e ↦ if e.target = target then some (f e) else none) k.egresses).map
      fun (b, egresses) ↦ (b, memory { k with egresses := egresses })
  | _ => none

end Connector

end MessageBridge.Rehearsal
