import MessageBridge.Delivery.Leg
import MessageBridge.Event
import MessageBridge.Lane.Pool

/-!
# Running routes

A running route as a machine. Messages arrive, legs submit jobs, workers publish them, answers
come back, waits end, the route is told to stop: each of these is an `Action`, and `Running.step?`
says what it does, or that it cannot happen now. Nothing is said about the order of actions, so a
statement about all lists of actions is one about all schedules. `Running.next?` picks one action
that the route itself can take, which makes the machine executable.

## Stopping

A stopping route refuses new messages and breaks off waits. Its pools close only when no handling
is left; then every worker drains its lane and ends, and the route has stopped once all workers
were joined.

Whoever started a route may also let go of it without stopping it, or in the middle of a stop. Such
a route goes on as long as messages can reach it or are under way. After that its lanes are
released, and their workers end.
-/

namespace MessageBridge

/-! ## State -/

/-- The readings of both clocks: milliseconds of the steady one, and Unix time in milliseconds. -/
structure Clock where
  /-- The steady clock, by which waits are measured. -/
  now : Nat
  /-- The wall clock, by which messages age. -/
  wall : Int
deriving DecidableEq, Repr

/-- The prepared message of a call on its way to one destination. -/
structure Job where
  /-- The call that the message came with. -/
  call : Nat
  /-- The message. -/
  message : Message

/-- A message on its way to all destinations. -/
structure Handling where
  /-- The call that the message came with. -/
  call : Nat
  /-- The message. -/
  message : Message
  /-- The legs in the order of the destinations. -/
  legs : List Leg

/-- How far a route has come with stopping. -/
inductive RoutePhase where
  /-- It has not been told to stop. -/
  | running
  /-- It waits for the handlings that are left. -/
  | finishing
  /-- Its pools close, and the workers at these places are still to be joined. -/
  | joining (workers : List (Nat × Nat))
  /-- It has stopped. -/
  | stopped
  /-- Whoever started it has let go of it. -/
  | forsaken
  /-- Besides, no message can reach it any more and none is under way. -/
  | released
deriving DecidableEq, Repr

/-- A route with its lanes and everything that is under way. -/
structure Running where
  /-- The route. -/
  route : CompiledRoute
  /-- The waits between attempts. -/
  backoff : Backoff
  /-- The lanes, in the order of the destinations. -/
  pools : List (Pool Job)
  /-- The messages that have no verdict yet, oldest first. -/
  handlings : List Handling
  /-- Calls from this number on are new. -/
  nextCall : Nat
  /-- Whether the route refuses messages and breaks off waits. -/
  cancelled : Bool
  /-- How far it has come with stopping. -/
  phase : RoutePhase

/-! ## Actions and outputs -/

/-- A verdict on an inbound message: the source may commit it, or must not. -/
abbrev Verdict := Except HandleError Unit

/-- What can happen to a running route. Handlings are named by their call, lanes by the places of
the pool and of the lane in it. -/
inductive Action where
  /-- A message arrives with a new call. -/
  | handle (call : Nat) (message : Message)
  /-- The caller gives up waiting for the verdict, and the handling ends where it stands. -/
  | abandon (call : Nat)
  /-- A leg submits its next job. -/
  | submit (call destination : Nat)
  /-- The wait of a leg is over. -/
  | wake (call destination : Nat)
  /-- The wait of a leg is broken off. -/
  | breakOff (call destination : Nat)
  /-- All legs have ended and the verdict is given. -/
  | resolve (call : Nat)
  /-- A worker takes its next job and begins to publish it. -/
  | take (pool lane : Nat)
  /-- The bus answers the publish of a worker. -/
  | reply (pool lane : Nat) (answer : Except BusError Unit)
  /-- The publish of a worker crashes. -/
  | crash (pool lane : Nat)
  /-- A worker that has been told to close closes its queue. -/
  | drain (pool lane : Nat)
  /-- A worker has taken everything and ends. -/
  | retire (pool lane : Nat)
  /-- The route's token fires. -/
  | cancel
  /-- The route is told to stop. -/
  | stop
  /-- No handling is left and the pools are told to close. -/
  | closePools
  /-- The next worker is joined, or the last one has been. -/
  | join
  /-- Whoever started the route lets go of it. -/
  | forsake
  /-- No message can reach a forsaken route any more. -/
  | release

/-- What an event is about. -/
inductive Topic where
  /-- The route. -/
  | route
  /-- The message of a call. -/
  | call (call : Nat)
  /-- The message of a call on its way to a destination. -/
  | leg (call destination : Nat)
deriving DecidableEq, Repr

/-- What a running route tells the outside. -/
inductive Output where
  /-- An event. -/
  | event (topic : Topic) (event : Event)
  /-- A worker asks the bus to publish the message of a call. -/
  | publish (pool lane call : Nat) (message : Message)
  /-- The verdict for a call. -/
  | verdict (call : Nat) (verdict : Verdict)
  /-- The route fires its own token. -/
  | cancelled
  /-- The route has stopped. -/
  | stopped

/-- The result of an action: the route after it and what it tells the outside. -/
abbrev Reaction := Running × List Output

namespace Running

/-! ## Starting -/

/-- The names of the workers of a pool. -/
def workerLabels (route : String) (p : Pool Job) : List String :=
  (List.range p.lanes.length).map (laneLabel route p.destination.label)

/-- A route with fresh lanes in front of every destination. -/
def ofRoute (s : EngineSettings) (route : CompiledRoute) : Running :=
  { route, backoff := s.backoff, pools := route.destinations.map (Pool.ofSettings s),
    handlings := [], nextCall := 0, cancelled := false, phase := .running }

/-- The events of fresh lanes. -/
def startEvents (s : EngineSettings) (r : Running) : List Event :=
  r.pools.flatMap fun p ↦
    .poolCreated r.route.name p.destination.label p.lanes.length (max s.depth 1) ::
      (workerLabels r.route.name p).map fun w ↦ .workerStarted w p.destination.label

/-! ## Parts of a running route -/

/-- What decides about failed attempts. -/
def plan (r : Running) : RetryPlan := ⟨r.route.mode, r.backoff⟩

/-- The handling of a call. -/
def handling? (call : Nat) (r : Running) : Option Handling :=
  r.handlings.find? fun h ↦ h.call == call

/-- The leg of a call to a destination. -/
def leg? (call destination : Nat) (r : Running) : Option Leg :=
  (r.handling? call).bind fun h ↦ h.legs[destination]?

/-- The route with one leg replaced. -/
def setLeg (call destination : Nat) (leg : Leg) (r : Running) : Running :=
  { r with handlings := r.handlings.map fun h ↦
      if h.call = call then { h with legs := h.legs.set destination leg } else h }

/-- The route with one pool replaced. -/
def setPool (i : Nat) (p : Pool Job) (r : Running) : Running :=
  { r with pools := r.pools.set i p }

/-- The label of a destination. -/
def label (destination : Nat) (r : Running) : String :=
  ((r.pools[destination]?).map fun p ↦ p.destination.label).getD ""

/-- The name of a worker. -/
def worker (pool lane : Nat) (r : Running) : String :=
  laneLabel r.route.name (r.label pool) lane

/-- The route without the handling of a call, whose submitters give up waiting for a place. -/
def withoutHandling (call : Nat) (r : Running) : Running :=
  { r with
    handlings := r.handlings.filter fun h ↦ h.call != call
    pools := r.pools.map (Pool.withdraw fun j ↦ j.call == call) }

/-! ## Arrival -/

/-- A message arrives. A cancelled route turns it away; otherwise it is prepared, and unless that
drops it, a leg to every destination begins. -/
def handle? (clock : Clock) (call : Nat) (m : Message) (r : Running) : Option Reaction :=
  if call < r.nextCall ∨ r.phase = .released then none
  else
    let r := { r with nextCall := call + 1 }
    if r.cancelled then
      some (r, [.event (.call call) (.turnedAway r.route.name m.idText),
        .verdict call (.error .shuttingDown)])
    else
      let prepared := r.route.prepare clock.wall m
      let events := Output.event (.call call) (.received r.route.name m.idText m.payload.size) ::
        (prepared.passedOver.map fun p ↦ .event (.call call) (.passedOver p)).toList
      match prepared.outcome with
      | .error reason =>
        some (r, events ++
          [.event (.call call) (.dropped r.route.name r.route.source.label m.idText reason),
            .verdict call (.ok ())])
      | .ok message =>
        let handling : Handling := ⟨call, message, r.pools.map fun _ ↦ .fresh⟩
        some ({ r with handlings := r.handlings ++ [handling] }, events)

/-! ## Answers to jobs -/

/-- The events of a leg that was answered. -/
def answerEvents (destination : Nat) (leg : Leg) (message : Message) (r : Running) :
    List Event :=
  let route := r.route.name
  let label := r.label destination
  match leg.phase, leg.lastError with
  | .settled (.tolerated reason), some e =>
    [.tolerated route label message.idText leg.attempts reason e]
  | .waiting _, some e =>
    [.retryScheduled route label leg.attempts (r.backoff.delayAfter leg.attempts) e]
  | _, _ => []

/-- The answer to a job reaches its leg. If nobody waits for it any more, `none`. -/
def answerJob? (clock : Clock) (destination : Nat) (j : Job) (a : JobAnswer) (r : Running) :
    Option Reaction := do
  let h ← r.handling? j.call
  let leg ← h.legs[destination]?
  if leg.phase = .submitted then
    let leg := leg.answer r.plan clock.now (h.message.age? clock.wall) a
    return (r.setLeg j.call destination leg,
      (r.answerEvents destination leg h.message).map (.event (.leg j.call destination)))
  else none

/-- Jobs are lost together. -/
def loseJobs (clock : Clock) (destination : Nat) (jobs : List Job) (r : Running) : Running :=
  jobs.foldl (fun r j ↦ ((r.answerJob? clock destination j .lost).map Prod.fst).getD r) r

/-- A leg submits its next job, or hears at once that its lane takes none. -/
def submit? (clock : Clock) (call destination : Nat) (r : Running) : Option Reaction := do
  let h ← r.handling? call
  let leg ← h.legs[destination]?
  let pool ← r.pools[destination]?
  if leg.phase = .ready then
    let job : Job := ⟨call, h.message⟩
    let (pool, accepted) := pool.submit job
    let r := (r.setLeg call destination leg.submit).setPool destination pool
    if accepted then return (r, [])
    else return (r.loseJobs clock destination [job], [])
  else none

/-! ## Verdicts -/

/-- The number of legs with an end of some kind. -/
def countEnds (kind : LegEnd → Bool) (legs : List Leg) : Nat :=
  legs.countP fun leg ↦ (leg.result?.map kind).getD false

/-- The errors of the legs that failed, in the order of the destinations. -/
def failures (h : Handling) (r : Running) : List PublishError :=
  (h.legs.zip r.pools).filterMap fun (leg, pool) ↦ leg.error? pool.destination.label

/-- The verdict once all legs have ended: the message is handled if no leg failed. -/
def resolve? (call : Nat) (r : Running) : Option Reaction := do
  let h ← r.handling? call
  if h.legs.all fun leg ↦ leg.result?.isSome then
    let rest := r.withoutHandling call
    match r.failures h with
    | [] =>
      let published := countEnds (· matches .published) h.legs
      let tolerated := countEnds (· matches .tolerated _) h.legs
      return (rest,
        [.event (.call call) (.delivered r.route.name h.message.idText published tolerated),
          .verdict call (.ok ())])
    | failures =>
      let e : AggregateError := ⟨r.route.name, failures⟩
      return (rest, [.event (.call call) (.undelivered h.message.idText e),
        .verdict call (.error (.undelivered e))])
  else none

/-! ## Workers -/

/-- The worker takes its next job and begins to publish it. -/
def take? (pool lane : Nat) (r : Running) : Option Reaction := do
  let p ← r.pools[pool]?
  let (job, p) ← p.take? lane
  return (r.setPool pool p,
    [.event (.leg job.call pool)
        (.publishBegun (r.worker pool lane) (r.label pool) job.message.idText),
      .publish pool lane job.call job.message])

/-- What a worker logs about an answer of the bus. -/
def replyEvent (pool lane : Nat) (job : Job) (answer : Except BusError Unit) (r : Running) :
    Event :=
  match answer with
  | .ok () => .publishAccepted (r.worker pool lane) (r.label pool) job.message.idText
  | .error e => .publishRefused (r.worker pool lane) (r.label pool) job.message.idText e

/-- The answer of the bus in the terms of a leg. -/
def jobAnswer : Except BusError Unit → JobAnswer
  | .ok () => .published
  | .error e => .refused e

/-- The bus answers, and the worker passes the answer on. -/
def reply? (clock : Clock) (pool lane : Nat) (answer : Except BusError Unit) (r : Running) :
    Option Reaction := do
  let p ← r.pools[pool]?
  let (job, p) ← p.finish? lane
  let topic := Topic.leg job.call pool
  let log := Output.event topic (r.replyEvent pool lane job answer)
  let r := r.setPool pool p
  match r.answerJob? clock pool job (jobAnswer answer) with
  | some (r, events) => return (r, log :: events)
  | none => return (r, [log, .event topic (.answerUnclaimed (r.worker pool lane) (r.label pool))])

/-- The publish crashes: the worker is gone, and every job of its lane is lost. -/
def crash? (clock : Clock) (pool lane : Nat) (r : Running) : Option Reaction := do
  let p ← r.pools[pool]?
  let (lost, p) ← p.crash? lane
  return ((r.setPool pool p).loseJobs clock pool lost, [])

/-- The worker closes its queue. -/
def drain? (clock : Clock) (pool lane : Nat) (r : Running) : Option Reaction := do
  let p ← r.pools[pool]?
  let (refused, p) ← p.drain? lane
  return ((r.setPool pool p).loseJobs clock pool refused, [])

/-- The worker ends. -/
def retire? (pool lane : Nat) (r : Running) : Option Reaction := do
  let p ← r.pools[pool]?
  let p ← p.end? lane
  return (r.setPool pool p, [.event .route (.workerEnded (r.worker pool lane) (r.label pool))])

/-! ## Waits -/

/-- The wait of a leg is over. -/
def wake? (clock : Clock) (call destination : Nat) (r : Running) : Option Reaction := do
  let leg ← r.leg? call destination
  let leg ← leg.wake? clock.now
  return (r.setLeg call destination leg, [])

/-- The wait of a leg is broken off, which only a cancelled route does. -/
def breakOff? (call destination : Nat) (r : Running) : Option Reaction := do
  let h ← r.handling? call
  let leg ← h.legs[destination]?
  let leg ← leg.breakOff?
  if r.cancelled then
    return (r.setLeg call destination leg,
      [.event (.leg call destination)
        (.cancelled r.route.name (r.label destination) h.message.idText leg.attempts)])
  else none

/-! ## Stopping -/

/-- The places of all workers. -/
def workerPlaces (r : Running) : List (Nat × Nat) :=
  r.pools.zipIdx.flatMap fun (p, i) ↦ (List.range p.lanes.length).map fun j ↦ (i, j)

/-- The worker at a place. -/
def workerState? (place : Nat × Nat) (r : Running) : Option WorkerState := do
  let p ← r.pools[place.1]?
  let l ← p.lanes[place.2]?
  return l.worker

/-- The route is told to stop, once. -/
def stop? (r : Running) : Option Reaction :=
  if r.phase = .running then
    some ({ r with cancelled := true, phase := .finishing },
      [.event .route (.routeStopping r.route.name r.handlings.length), .cancelled])
  else none

/-- No handling is left, and all pools are told to close. -/
def closePools? (r : Running) : Option Reaction :=
  if r.phase = .finishing ∧ r.handlings.isEmpty then
    some ({ r with
        pools := r.pools.map fun p ↦ { p with closing := true }
        phase := .joining r.workerPlaces },
      r.pools.map fun p ↦ .event .route (.poolClosing p.destination.label))
  else none

/-- The next worker is joined if it is gone; after the last one the route has stopped. -/
def join? (r : Running) : Option Reaction :=
  match r.phase with
  | .joining [] =>
    some ({ r with phase := .stopped }, [.event .route (.routeStopped r.route.name), .stopped])
  | .joining (place :: rest) =>
    match r.workerState? place with
    | some .crashed =>
      some ({ r with phase := .joining rest },
        [.event .route (.workerCrashed (r.worker place.1 place.2))])
    | some .ended => some ({ r with phase := .joining rest }, [])
    | _ => none
  | _ => none

/-! ## Letting go -/

/-- Whoever started the route lets go of it, unless it has stopped. -/
def forsake (r : Running) : Running :=
  match r.phase with
  | .stopped | .released => r
  | _ => { r with phase := .forsaken }

/-- The lanes of a forsaken route are released when no handling is left. -/
def release? (r : Running) : Option Reaction :=
  if r.phase = .forsaken ∧ r.handlings.isEmpty then
    some ({ r with pools := r.pools.map Pool.release, phase := .released }, [])
  else none

/-! ## The machine -/

/-- The route after an action and what it tells the outside; `none` if the action cannot happen. -/
def step? (clock : Clock) (r : Running) : Action → Option Reaction
  | .handle call m => r.handle? clock call m
  | .abandon call => (r.handling? call).map fun _ ↦ (r.withoutHandling call, [])
  | .submit call destination => r.submit? clock call destination
  | .wake call destination => r.wake? clock call destination
  | .breakOff call destination => r.breakOff? call destination
  | .resolve call => r.resolve? call
  | .take pool lane => r.take? pool lane
  | .reply pool lane answer => r.reply? clock pool lane answer
  | .crash pool lane => r.crash? clock pool lane
  | .drain pool lane => r.drain? clock pool lane
  | .retire pool lane => r.retire? pool lane
  | .cancel => some ({ r with cancelled := true }, [])
  | .stop => r.stop?
  | .closePools => r.closePools?
  | .join => r.join?
  | .forsake => some (r.forsake, [])
  | .release => r.release?

/-- The route after a list of actions, each with the clock readings at its time. -/
def run? (r : Running) : List (Clock × Action) → Option Reaction
  | [] => some (r, [])
  | (clock, a) :: rest => do
    let (r, before) ← r.step? clock a
    let (r, after) ← r.run? rest
    return (r, before ++ after)

/-! ## A schedule -/

/-- What the route can do by itself about one handling. -/
def handlingActions (h : Handling) (r : Running) : List Action :=
  .resolve h.call :: (List.range h.legs.length).flatMap fun d ↦
    .submit h.call d :: (if r.cancelled then [.breakOff h.call d] else []) ++ [.wake h.call d]

/-- What the route might do by itself, in the order in which it is tried. -/
def ownActions (r : Running) : List Action :=
  r.handlings.flatMap (fun h ↦ r.handlingActions h) ++
    r.workerPlaces.flatMap (fun (i, j) ↦ [.take i j, .drain i j, .retire i j]) ++
    [.closePools, .join]

/-- The first thing that the route can do by itself, done. -/
def next? (clock : Clock) (r : Running) : Option Reaction :=
  r.ownActions.findSome? fun a ↦ r.step? clock a

/-- The time at which the first wait is over. -/
def nextWake? (r : Running) : Option Nat :=
  (r.handlings.flatMap fun h ↦ h.legs.filterMap fun leg ↦
    match leg.phase with
    | .waiting due => some due
    | _ => none).min?

end Running

end MessageBridge
