import MessageBridge.Rehearsal.Clockwork

/-!
# The steps of a rehearsal

A rehearsal is a list of steps that are performed in order. Each step changes the world, lets
everything happen that can happen until its own purpose is reached, and has an answer. Connectors
are named by their place, registered buses by their name; runs, tokens, recorders and calls in the
background have names that the steps give them.
-/

namespace MessageBridge.Rehearsal

/-! ## Steps -/

/-- New settings of a target; each is changed only if it is given. -/
structure TargetSettings where
  /-- The number of publishes to reject next. -/
  failNext : Option Nat
  /-- Whether all publishes are rejected. -/
  failAlways : Option Bool
  /-- The time that a publish takes. -/
  delay : Option Nat
  /-- The outcomes to come, on a scripted target. -/
  outcomes : List Outcome

/-- An injection: the connector, the source and the message. -/
structure Injection where
  /-- The connector. -/
  connector : Nat
  /-- The source. -/
  source : String
  /-- The message. -/
  message : Message

/-- One step of a rehearsal. -/
inductive Step where
  /-- A new bus over a connector is registered. -/
  | insert (connector : Nat)
  /-- The registry is replaced by buses over some connectors. -/
  | fromConnectors (connectors : List Nat)
  /-- The names of the registered buses. -/
  | names
  /-- Whether a bus has a source and a target of a name. -/
  | has (bus point : String)
  /-- A bus is closed. -/
  | closeBus (bus : String)
  /-- All registered buses are closed. -/
  | closeAll
  /-- A message is published on a bus. -/
  | publish (bus target : String) (message : Message)
  /-- A new recorder is subscribed to a source of a bus, below a token if one is named. -/
  | subscribe (bus source recorder : String) (refuses : Bool) (token : Option String)
  /-- The messages of a recorder. -/
  | received (recorder : String)
  /-- A connector itself is closed. -/
  | closeConnector (connector : Nat)
  /-- An ingress point in memory is stopped. -/
  | stopIngress (connector : Nat) (source : String)
  /-- A target gets new settings. -/
  | configure (connector : Nat) (target : String) (settings : TargetSettings)
  /-- A connector is looked at. -/
  | inspect (connector : Nat)
  /-- The records of a target in memory. -/
  | published (connector : Nat) (target : String)
  /-- A number of records is waited for. -/
  | awaitPublished (connector : Nat) (target : String) (count timeout : Nat)
  /-- A table is compiled. -/
  | compile (table : RouteTable)
  /-- The routes of a table are started, below a token if one is named. -/
  | start (run : String) (table : RouteTable) (token : Option String)
  /-- A run is stopped. -/
  | stop (run : String)
  /-- A run is stopped in the background. -/
  | stopLater (run call : String)
  /-- A token is fired. -/
  | cancel (token : String)
  /-- Whether a token is cancelled. -/
  | isCancelled (token : String)
  /-- A message is injected. -/
  | inject (injection : Injection)
  /-- A message is injected in the background. -/
  | injectLater (injection : Injection) (call : String)
  /-- A call in the background is looked at. -/
  | poll (call : String)
  /-- A call in the background is waited for. -/
  | join (call : String)
  /-- A call in the background is given up. -/
  | abort (call : String)
  /-- Time passes. -/
  | sleep (millis : Nat)

/-! ## Answers -/

/-- Something that a step names and that is not there. -/
inductive Missing where
  | bus
  | handler
  | egress
  | connector
  | run
  | call
deriving DecidableEq, Repr

/-- The answer of a step. -/
inductive Answer where
  /-- There is nothing to say. -/
  | nothing
  /-- Something is not there. -/
  | missing (what : Missing)
  /-- The answer of a bus or of a connector. -/
  | bus (result : Except BusError Unit)
  /-- The name of a bus that was replaced. -/
  | replaced (name : Option String)
  /-- The names of buses, in order. -/
  | names (names : List String)
  /-- The name of a bus, and whether it has a source and a target. -/
  | points (bus : String) (source target : Bool)
  /-- Messages, oldest first. -/
  | messages (messages : List Message)
  /-- A connector as it is. -/
  | connector (connector : Connector)
  /-- Yes or no. -/
  | flag (value : Bool)
  /-- Compiled routes. -/
  | compiled (result : Except CompileError (List CompiledRoute))
  /-- The names of routes that were started, and the number of buses; or why there are none. -/
  | started (result : Except StartError (List String × Nat))
  /-- The outcome of a call, without the time. -/
  | result (result : Result)
  /-- A call has no outcome yet. -/
  | pending
  /-- The outcome of a call, with the time. -/
  | finished (result : Result) (time : Nat)

namespace World

/-! ## Performing steps -/

/-- The answer about an outcome. -/
def outcomeAnswer (outcome : Option (Result × Nat)) : Answer :=
  match outcome with
  | some (r, _) => .result r
  | none => .pending

/-- The answer about a call in the background. -/
def callAnswer (id : Nat) (w : World) : Answer :=
  match w.outcome? id with
  | some (r, t) => .finished r t
  | none => .pending

/-- A named bus is used. -/
def withBus (bus : String) (f : Nat → World → Answer × World) (w : World) : Answer × World :=
  match Named.get? bus w.registry with
  | some handle => f handle w
  | none => (.missing .bus, w)

/-- A call in the background is used. -/
def withCall (name : String) (f : Nat → World → Answer × World) (w : World) : Answer × World :=
  match Named.get? name w.background with
  | some id => f id w
  | none => (.missing .call, w)

/-- A named run is used. -/
def withRun (name : String) (f : Nat → World → Answer × World) (w : World) : Answer × World :=
  match Named.get? name w.runNames with
  | some run => f run w
  | none => (.missing .run, w)

/-- The token that a step names, or a new one. -/
def stepToken (name : Option String) (w : World) : Nat × World :=
  match name with
  | some name => w.namedToken name
  | none => w.newToken none

/-- A target gets new settings. -/
def configure (i : Nat) (target : String) (s : TargetSettings) (w : World) : World :=
  let memory (e : Memory.Egress) : Memory.Egress :=
    let e := match s.failNext with | some n => e.setFailNext n | none => e
    let e := match s.failAlways with | some on => e.setFailAlways on | none => e
    match s.delay with | some millis => e.setDelay millis | none => e
  let change : Connector → Option (Unit × Connector)
    | .scripted b =>
      some ((), .scripted { b with targets := b.targets.map fun t ↦
        if t.name = target then { t with outcomes := s.outcomes, delay := s.delay.getD 0 } else t })
    | c => c.updateEgress? target fun e ↦ ((), memory e)
  ((w.updateConnector? i change).map Prod.snd).getD w

/-- A message is published on a bus and its answer waited for. -/
def publishStep (target : String) (m : Message) (bus : Nat) (w : World) : Answer × World :=
  let (id, w) := w.openCall .other
  let w := (w.publish bus target id m).awaitCall id
  match w.outcome? id with
  | some (.published r, _) => (.bus r, w)
  | _ => (.pending, w)

/-- A new recorder is subscribed. -/
def subscribeStep (source recorder : String) (refuses : Bool) (token : Option String) (bus : Nat)
    (w : World) : Answer × World :=
  let (above, w) := w.stepToken token
  let index := w.recorders.length
  let w := { w with
    recorders := w.recorders ++ [(⟨refuses, []⟩ : Recorder)]
    recorderNames := Named.insert recorder index w.recorderNames }
  let (answer, w) := w.subscribe bus source ⟨.recorder index, above⟩
  (.bus answer, w)

/-- Records are waited for. -/
def awaitStep (i : Nat) (target : String) (count timeout : Nat) (w : World) : Answer × World :=
  let (id, w) := w.openCall .other
  match w.updateConnector? i
    (Connector.updateEgress? target fun e ↦ e.await w.clock.now id count timeout) with
  | some (true, w) => (.flag true, w)
  | some (false, w) =>
    let w := w.awaitCall id
    match w.outcome? id with
    | some (.reached inTime, _) => (.flag inTime, w)
    | _ => (.pending, w)
  | none => (.missing .egress, w)

/-- The routes of a table are started, and the end of a failed start is waited for. -/
def startStep (name : String) (table : RouteTable) (token : Option String) (w : World) :
    Answer × World :=
  let (above, w) := w.stepToken token
  match w.start table above with
  | (.error e, w) => (.started (.error (.compile e)), w)
  | (.ok (run, none), w) =>
    let w := ((Named.get? name w.runNames).map fun old ↦ w.forsake old).getD w
    match w.runs[run]? with
    | some r =>
      (.started (.ok (r.run.routes.map fun x ↦ x.route.name, w.registry.length)),
        { w with
          runNames := Named.insert name run w.runNames
          tokenNames := Named.insert name r.token w.tokenNames })
    | none => (.missing .run, w)
  | (.ok (_, some id), w) =>
    let w := w.awaitCall id
    match w.outcome? id with
    | some (.notStarted e, _) => (.started (.error e), w)
    | _ => (.pending, w)

/-- A message is injected, in the background if the call has a name. -/
def injectStep (i : Injection) (call : Option String) (w : World) : Answer × World :=
  match w.inject i.connector i.source i.message, call with
  | (none, w), _ => (.missing .handler, w)
  | (some id, w), none =>
    let w := w.awaitCall id
    (outcomeAnswer (w.outcome? id), w)
  | (some id, w), some name =>
    (.nothing, { w with background := Named.insert name id w.background })

/-- What a step does before everything else happens that can happen. -/
def begin (w : World) : Step → Answer × World
  | .insert i =>
    let (replaced, w) := w.register i
    (.replaced replaced, w)
  | .fromConnectors is =>
    (.nothing, is.foldl (fun w i ↦ (w.register i).2) { w with registry := [] })
  | .names => (.names ((Named.names w.registry).mergeSort fun a b ↦ decide (a ≤ b)), w)
  | .has bus point =>
    w.withBus bus fun handle w ↦
      let view := w.view handle
      (.points bus (view.sources.contains point) (view.targets.contains point), w)
  | .closeBus bus =>
    w.withBus bus fun handle w ↦
      let (answer, w) := w.closeBus handle
      (.bus answer, w)
  | .closeAll =>
    let (answer, w) := w.closeAll
    (.bus answer, w)
  | .publish bus target m => w.withBus bus (publishStep target m)
  | .subscribe bus source recorder refuses token =>
    w.withBus bus (subscribeStep source recorder refuses token)
  | .received recorder =>
    (.messages ((((Named.get? recorder w.recorderNames).bind fun i ↦ w.recorders[i]?).map
      Recorder.received).getD []), w)
  | .closeConnector i =>
    match w.updateConnector? i fun c ↦ some c.close with
    | some (answer, w) => (.bus answer, w)
    | none => (.missing .connector, w)
  | .stopIngress i source =>
    match w.updateConnector? i
      (Connector.updateIngress? source fun x ↦ some ((), x.stop)) with
    | some ((), w) => (.bus (.ok ()), w)
    | none => (.missing .connector, w)
  | .configure i target s => (.nothing, w.configure i target s)
  | .inspect i =>
    match w.connectors[i]? with
    | some c => (.connector c, w)
    | none => (.missing .connector, w)
  | .published i target =>
    match w.connectors[i]? with
    | some (.memory k) =>
      match k.egress? target with
      | some e => (.messages e.published, w)
      | none => (.missing .egress, w)
    | _ => (.missing .egress, w)
  | .awaitPublished i target count timeout => w.awaitStep i target count timeout
  | .compile table =>
    match w.environment.compile table with
    | .ok routes => (.compiled (.ok routes), w)
    | .error e => (.compiled (.error e), w.emit [.tableRejected e])
  | .start run table token => w.startStep run table token
  | .stop run =>
    w.withRun run fun i w ↦
      let (id, w) := w.stop i
      let w := w.awaitCall id
      match w.outcome? id with
      | some _ => (.nothing, { w with runNames := w.runNames.filter fun x ↦ x.1 != run })
      | none => (.pending, w)
  | .stopLater run call =>
    w.withRun run fun i w ↦
      let (id, w) := w.stop i
      (.nothing, { w with
        runNames := w.runNames.filter fun x ↦ x.1 != run
        background := Named.insert call id w.background })
  | .cancel token =>
    let (n, w) := w.namedToken token
    (.nothing, w.fire n)
  | .isCancelled token =>
    let (n, w) := w.namedToken token
    (.flag (w.tokens.isCancelled n), w)
  | .inject i => w.injectStep i none
  | .injectLater i call => w.injectStep i (some call)
  | .poll call => w.withCall call fun id w ↦ (w.callAnswer id, w)
  | .join call =>
    w.withCall call fun id w ↦
      let w := w.awaitCall id
      (w.callAnswer id, w)
  | .abort call =>
    w.withCall call fun id w ↦
      (.nothing, { w.abandon id with background := w.background.filter fun x ↦ x.1 != call })
  | .sleep millis => (.nothing, w.sleep millis)

/-- What came of a step. -/
structure Performed where
  /-- The answer. -/
  answer : Answer
  /-- The events during the step, oldest first. -/
  events : List Event
  /-- The world after the step. -/
  world : World

/-- A step is performed, and everything happens that can happen then. -/
def perform (step : Step) (w : World) : Performed :=
  let (answer, w) := { w with log := [] }.begin step
  let w := w.settle
  ⟨answer, w.log.reverse, w⟩

end World

end MessageBridge.Rehearsal
