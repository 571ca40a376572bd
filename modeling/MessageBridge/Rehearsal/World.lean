import MessageBridge.Cancellation
import MessageBridge.Engine
import MessageBridge.Rehearsal.Connector
import MessageBridge.Text.Uuid

/-!
# The world of a rehearsal

Everything that takes part in a rehearsal: connectors, the buses over them and their registry, the
runs of an engine, recorders, tokens, and the calls whose outcome somebody waits for. The
operations here change the world at one moment and let nothing else happen; `Rehearsal.Clockwork`
lets things happen by themselves.
-/

namespace MessageBridge.Rehearsal

/-! ## Parts -/

/-- A bus: the adapter of a connector, or a scripted bus as it is. -/
inductive Bus where
  | adapter (connector : Nat) (adapter : Adapter)
  | scripted (connector : Nat)

/-- A handler that keeps the messages that it gets. -/
structure Recorder where
  /-- Whether it refuses to commit. -/
  refuses : Bool
  /-- The messages, oldest first. -/
  received : List Message

/-- The outcome of a call. -/
inductive Result where
  /-- A message was injected. -/
  | injected (result : Except InjectError Unit)
  /-- A message was given to a handler directly. -/
  | handled (verdict : Verdict)
  /-- A message was published on a bus. -/
  | published (result : Except BusError Unit)
  /-- Records were waited for. -/
  | reached (inTime : Bool)
  /-- A run was stopped. -/
  | stopped
  /-- Routes could not be started. -/
  | notStarted (error : StartError)

/-- What a call is about. -/
inductive Subject where
  /-- A message that was injected into a point in memory. -/
  | injection (connector : Nat) (source : String)
  /-- A message that was given to a handler directly. -/
  | handling (handler : Handler)
  /-- A run that stops. -/
  | run (run : Nat)
  /-- Anything else. -/
  | other

/-- Something that somebody may wait for. -/
structure Call where
  /-- The number of the call. -/
  id : Nat
  /-- What it is about. -/
  subject : Subject
  /-- Its outcome with the time at which it came. -/
  outcome : Option (Result × Nat)

/-- The place of a worker. -/
structure WorkerPlace where
  /-- The run. -/
  run : Nat
  /-- The route of the run. -/
  route : Nat
  /-- The destination of the route. -/
  pool : Nat
  /-- The lane to the destination. -/
  lane : Nat
deriving DecidableEq, Repr

/-- A run with its tokens, and the call that waits for its end. -/
structure RunRecord where
  /-- The run. -/
  run : Run
  /-- The token of the run. -/
  token : Nat
  /-- The tokens of its routes. -/
  routeTokens : List Nat
  /-- The call that waits for its end. -/
  awaitedBy : Option Nat

/-- What an engine is made of, apart from buses. -/
structure EngineParts where
  /-- The tuning. -/
  settings : EngineSettings
  /-- The filters. -/
  filters : FilterRegistry
  /-- The projections. -/
  projections : ProjectionRegistry
  /-- The codecs. -/
  codecs : CodecRegistry

/-- Everything that takes part in a rehearsal. -/
structure World where
  /-- The clocks. -/
  clock : Clock
  /-- What engines are made of. -/
  parts : EngineParts
  /-- The connectors. -/
  connectors : List Connector
  /-- All buses that were ever registered. -/
  buses : List Bus
  /-- The handles of the registered buses by name. -/
  registry : List (String × Nat)
  /-- The tokens. -/
  tokens : Tokens
  /-- The numbers of the tokens that have a name. -/
  tokenNames : List (String × Nat)
  /-- The runs. -/
  runs : List RunRecord
  /-- The runs that have a name. -/
  runNames : List (String × Nat)
  /-- The recorders. -/
  recorders : List Recorder
  /-- The recorders that have a name. -/
  recorderNames : List (String × Nat)
  /-- The calls. -/
  calls : List Call
  /-- The calls in the background by name. -/
  background : List (String × Nat)
  /-- The number of the next call. -/
  nextCall : Nat
  /-- The publishes under way that workers wait for, by call. -/
  publishes : List (Nat × WorkerPlace)
  /-- The publishes that have ended and whose answer has not been passed on. -/
  answers : List (Nat × Option (Except BusError Unit))
  /-- The events so far, newest first. -/
  log : List Event
  /-- Whether the rehearsal itself came to grief. -/
  crashed : Bool

namespace World

/-- A world at the time zero without connectors. -/
def empty (wall : Int) (parts : EngineParts) : World :=
  { clock := ⟨0, wall⟩, parts, connectors := [], buses := [], registry := [], tokens := [],
    tokenNames := [], runs := [], runNames := [], recorders := [], recorderNames := [],
    calls := [], background := [], nextCall := 0, publishes := [], answers := [], log := [],
    crashed := false }

/-! ## Events and calls -/

/-- Events are logged. -/
def emit (events : List Event) (w : World) : World := { w with log := events.reverse ++ w.log }

/-- A new call. -/
def openCall (subject : Subject) (w : World) : Nat × World :=
  (w.nextCall, { w with
    nextCall := w.nextCall + 1
    calls := w.calls ++ [⟨w.nextCall, subject, none⟩] })

/-- A call by number. -/
def call? (id : Nat) (w : World) : Option Call := w.calls.find? fun c ↦ c.id == id

/-- The outcome of a call, with its time. -/
def outcome? (id : Nat) (w : World) : Option (Result × Nat) := (w.call? id).bind Call.outcome

/-- A call ends, unless it has ended. -/
def close (id : Nat) (result : Result) (w : World) : World :=
  { w with calls := w.calls.map fun c ↦
      if c.id = id ∧ c.outcome.isNone then { c with outcome := some (result, w.clock.now) } else c }

/-- A connector changes; `none` if it cannot. -/
def updateConnector? {β : Type} (i : Nat) (f : Connector → Option (β × Connector)) (w : World) :
    Option (β × World) := do
  let c ← w.connectors[i]?
  let (b, c) ← f c
  return (b, { w with connectors := w.connectors.set i c })

/-! ## Tokens -/

/-- Whatever is below a cancelled token is told so. -/
def heed (w : World) : World :=
  let cancelled (n : Nat) : Bool := w.tokens.isCancelled n
  { w with
    connectors := w.connectors.map (Connector.heed cancelled)
    runs := w.runs.map fun r ↦
      { r with run.routes := (r.run.routes.zip r.routeTokens).map fun (x, token) ↦
          { x with cancelled := x.cancelled || cancelled token } } }

/-- A token is fired. -/
def fire (token : Nat) (w : World) : World := { w with tokens := w.tokens.fire token }.heed

/-- A new token. -/
def newToken (above : Option Nat) (w : World) : Nat × World :=
  let (n, tokens) := w.tokens.create above
  (n, { w with tokens := tokens })

/-- The token of a name; a name that is new gets a new token. -/
def namedToken (name : String) (w : World) : Nat × World :=
  match Named.get? name w.tokenNames with
  | some n => (n, w)
  | none =>
    let (n, w) := w.newToken none
    (n, { w with tokenNames := Named.insert name n w.tokenNames })

/-! ## Registry -/

/-- A new bus over a connector is registered; the first part is the name, if it replaces a bus. -/
def register (i : Nat) (w : World) : Option String × World :=
  match w.connectors[i]? with
  | none => (none, w)
  | some c =>
    let bus := match c with
      | .scripted _ => Bus.scripted i
      | c => .adapter i (.ofNames c.name c.sources c.targets)
    (if Named.contains c.name w.registry then some c.name else none,
      { w with
        buses := w.buses ++ [bus]
        registry := Named.insert c.name w.buses.length w.registry })

/-- The names of the points of a bus. -/
def view (handle : Nat) (w : World) : BusView :=
  match w.buses[handle]? with
  | some (.adapter _ a) => a.view handle
  | some (.scripted i) =>
    match w.connectors[i]? with
    | some c => ⟨handle, c.sources, c.targets⟩
    | none => ⟨handle, [], []⟩
  | none => ⟨handle, [], []⟩

/-- What a table is compiled against. -/
def environment (w : World) : Environment :=
  ⟨w.registry.map fun (name, handle) ↦ (name, w.view handle), w.parts.filters,
    w.parts.projections, w.parts.codecs⟩

/-! ## Buses -/

/-- A handler is subscribed to a source of a bus. -/
def subscribe (bus : Nat) (source : String) (s : Subscriber) (w : World) :
    Except BusError Unit × World :=
  match w.buses[bus]? with
  | some (.adapter i a) =>
    match a.ingress source with
    | .error e => (.error e, w)
    | .ok place =>
      match w.updateConnector? i fun c ↦ some (c.startIngress place s) with
      | some (answer, w) => (answer, w.heed)
      | none => (.error .closed, w)
  | some (.scripted i) =>
    let subscribe : Connector → Option (Except BusError Unit × Connector)
      | .scripted b =>
        let (answer, b) := Connector.subscribeScripted source s.handler b
        some (answer, .scripted b)
      | _ => none
    (w.updateConnector? i subscribe).getD (.error .closed, w)
  | none => (.error .closed, w)

/-- The answer to a publish is known. -/
def conclude (id : Nat) (answer : Option (Except BusError Unit)) (w : World) : World :=
  { w with answers := w.answers ++ [(id, answer)] }

/-- A publish has ended on a point: its end is logged and its answer is known. -/
def concludePoint (c : Connector.Concluded) (w : World) : World :=
  (w.emit c.event?.toList).conclude c.call c.answer

/-- A publish begins on a point at a place. -/
def publishAt (connector place id : Nat) (m : Message) (w : World) : World :=
  match w.updateConnector? connector fun c ↦ some (c.beginPublish w.clock.now id place m) with
  | some (some ended, w) => w.concludePoint ended
  | some (none, w) => w
  | none => w

/-- A publish begins on a bus. -/
def publish (bus : Nat) (target : String) (id : Nat) (m : Message) (w : World) : World :=
  match w.buses[bus]? with
  | some (.adapter i a) =>
    match a.egress target with
    | .ok place => w.publishAt i place id m
    | .error e => w.conclude id (some (.error e))
  | some (.scripted i) =>
    match w.connectors[i]? with
    | some (.scripted b) =>
      match b.targets.findIdx? fun t ↦ t.name == target with
      | some place => w.publishAt i place id m
      | none => w.conclude id (some (.error (.unknownTarget b.name target)))
    | _ => w.conclude id (some (.error .closed))
  | none => w.conclude id (some (.error .closed))

/-- A bus is closed. -/
def closeBus (bus : Nat) (w : World) : Except BusError Unit × World :=
  match w.buses[bus]? with
  | some (.adapter i a) =>
    let perform (call : ClosingCall) (w : World) : Except BusError Unit × World :=
      (w.updateConnector? i fun c ↦ some (c.perform call)).getD (.ok (), w)
    let (a, closing) := a.close perform w
    let w := closing.state
    (closing.answer, { w with buses := w.buses.set bus (.adapter i a) }.emit closing.events)
  | _ => (.ok (), w)

/-- All registered buses are closed; the answer is the first failure. -/
def closeAll (w : World) : Except BusError Unit × World :=
  w.registry.foldl (fun (answer, w) (_, bus) ↦
      let (a, w) := w.closeBus bus
      (match answer with | .ok () => a | e => e, w)) (.ok (), w)

/-! ## Verdicts and outputs -/

/-- The handler's verdict on a call arrives. -/
def verdict (id : Nat) (v : Verdict) (w : World) : World :=
  match (w.call? id).map Call.subject with
  | some (.injection i source) =>
    match w.updateConnector? i (Connector.updateIngress? source (Memory.Ingress.verdict? id v)) with
    | some (result, w) => w.close id (.injected result)
    | none => w
  | some (.handling _) => w.close id (.handled v)
  | _ => w

/-- What a route tells is acted upon. -/
def hearRoute (run route : Nat) (r : RunRecord) (w : World) : Output → World
  | .event _ e => w.emit [e]
  | .verdict id v => w.verdict id v
  | .cancelled =>
    match r.routeTokens[route]? with
    | some token => w.fire token
    | none => w
  | .stopped => w
  | .publish pool lane _ m =>
    match (r.run.routes[route]?).bind fun x ↦ x.pools[pool]? with
    | some p =>
      let id := w.nextCall
      { w with
        nextCall := id + 1
        publishes := (id, ⟨run, route, pool, lane⟩) :: w.publishes }.publish
          p.destination.bus p.destination.target id m
    | none => w

/-- What a run tells is acted upon. -/
def hear (run : Nat) (r : RunRecord) (w : World) : RunOutput → World
  | .route i o => w.hearRoute run i r o
  | .event e => w.emit [e]
  | .cancelled => w.fire r.token
  | .ended error =>
    match r.awaitedBy, error with
    | some id, none => w.close id .stopped
    | some id, some e => w.close id (.notStarted e)
    | none, _ => w

/-- A run changes, and what it tells is acted upon. -/
def react (run : Nat) (reaction : RunReaction) (w : World) : World :=
  match w.runs[run]? with
  | none => w
  | some r =>
    let r := { r with run := reaction.1 }
    reaction.2.foldl (hear run r) { w with runs := w.runs.set run r }

/-- Something happens to a run, if it can. -/
def stepRun (run : Nat) (a : RunAction) (w : World) : World :=
  match (w.runs[run]?).bind fun r ↦ r.run.step? w.clock a with
  | some reaction => w.react run reaction
  | none => w

/-- The answer to a publish is passed on to whoever waits for it. -/
def passOn (id : Nat) (answer : Option (Except BusError Unit)) (w : World) : World :=
  match w.publishes.lookup id with
  | some p =>
    let w := { w with publishes := w.publishes.filter fun x ↦ x.1 != id }
    w.stepRun p.run (.route p.route
      (match answer with
      | some a => .reply p.pool p.lane a
      | none => .crash p.pool p.lane))
  | none =>
    match answer with
    | some a => w.close id (.published a)
    | none => { w with crashed := true }

/-- A handler gets a message. -/
def handle (h : Handler) (id : Nat) (m : Message) (w : World) : World :=
  match h with
  | .route run i => w.stepRun run (.route i (.handle id m))
  | .recorder i =>
    let refuses := (w.recorders[i]?).any Recorder.refuses
    let w := { w with recorders := w.recorders.modify i fun r ↦
      { r with received := r.received ++ [m] } }
    w.verdict id (if refuses then .error .shuttingDown else .ok ())

/-! ## Injecting -/

/-- A message is injected into a point in memory or given to the handler of a scripted source. The
first part is the call; there is none if there is no such handler. -/
def inject (connector : Nat) (source : String) (m : Message) (w : World) : Option Nat × World :=
  match w.connectors[connector]? with
  | some (.scripted b) =>
    match Named.get? source b.handlers with
    | some h =>
      let (id, w) := w.openCall (.handling h)
      (some id, w.handle h id m)
    | none => (none, w)
  | some (.memory _) =>
    let (id, w) := w.openCall (.injection connector source)
    let m := m.stamp (Text.uuid id) w.clock.wall
    let inject (i : Memory.Ingress Subscriber) :=
      match i.inject id m with
      | .ok i => some (none, i)
      | .error e => some (some e, i)
    match w.updateConnector? connector (Connector.updateIngress? source inject) with
    | some (none, w) => (some id, w)
    | some (some e, w) => (some id, w.close id (.injected (.error e)))
    | none => (none, w)
  | _ => (none, w)

/-! ## Starting and stopping -/

/-- The routes of a table are started below a token: either the table is rejected, or a run begins,
which the first part names. The call, if there is one, waits for the end of a failed start.

The lanes of a route are made before its bus is asked, so settings with which there cannot be lanes
bring the rehearsal to grief before the first subscription. It is marked as crashed behind the last
one: a crash is all that is known of a crashed rehearsal, and nothing looks at the mark before
that. -/
def start (table : RouteTable) (above : Nat) (w : World) :
    Except CompileError (Nat × Option Nat) × World :=
  match w.environment.compile table with
  | .error e => (.error e, w.emit [.tableRejected e])
  | .ok routes =>
    let index := w.runs.length
    let (token, w) := w.newToken (some above)
    let (routeTokens, w) := routes.foldl (fun (tokens, w) _ ↦
      let (t, w) := w.newToken (some token)
      (tokens ++ [t], w)) (([] : List Nat), w)
    let subscribe (i : Nat) (route : CompiledRoute) (w : World) :=
      w.subscribe route.source.bus route.source.point
        ⟨.route index i, routeTokens[i]?.getD token⟩
    let (w, reaction) :=
      Run.start w.parts.settings w.registry.length subscribe w routes
    let w := if routes.isEmpty || w.parts.settings.realizable then w else { w with crashed := true }
    let record (awaitedBy : Option Nat) : RunRecord :=
      ⟨⟨[], .running⟩, token, routeTokens, awaitedBy⟩
    match reaction.1.phase with
    | .running =>
      (.ok (index, none), ({ w with runs := w.runs ++ [record none] }.react index reaction).heed)
    | _ =>
      let (id, w) := w.openCall (.run index)
      (.ok (index, some id),
        ({ w with runs := w.runs ++ [record (some id)] }.react index reaction).heed)

/-- A run is told to stop; the first part is the call that waits for its end. -/
def stop (run : Nat) (w : World) : Nat × World :=
  let (id, w) := w.openCall (.run run)
  let w := { w with runs := w.runs.modify run fun r ↦ { r with awaitedBy := some id } }
  (id, w.stepRun run .stop)

/-! ## Giving up -/

/-- Whoever holds a run lets go of it. -/
def forsake (run : Nat) (w : World) : World :=
  { w with runs := w.runs.modify run fun r ↦ { r with run := r.run.forsake, awaitedBy := none } }

/-- Whoever waits for a call gives up, and what the call itself was doing ends where it stands. -/
def abandon (id : Nat) (w : World) : World :=
  match w.call? id with
  | none => w
  | some c =>
    let w := { w with calls := w.calls.filter fun c ↦ c.id != id }
    match c.subject with
    | .injection i source =>
      ((w.updateConnector? i (Connector.updateIngress? source fun x ↦
        some ((), x.abandon id))).map Prod.snd).getD w
    | .handling (.route run i) => w.stepRun run (.route i (.abandon id))
    | .run i => w.forsake i
    | _ => w

end World

end MessageBridge.Rehearsal
