import MessageBridge.Route.Running

/-!
# Engine

An engine starts the routes of a table together and stops them together. If a subscription is
refused, the refused route stops first, then all routes started before it, and the start has
failed: either all routes run or none.
-/

namespace MessageBridge

/-! ## Errors -/

/-- Why the routes of a table could not be started. -/
inductive StartError where
  /-- The table has a defect. -/
  | compile (error : CompileError)
  /-- The bus refused the subscription of a route. -/
  | subscribe (route : String) (error : BusError)
deriving DecidableEq, Repr

namespace StartError

/-- The text of a start error. -/
def message : StartError → String
  | compile e => "route table rejected: " ++ e.message
  | subscribe route e => "route " ++ Text.quoted route ++ " failed to start: " ++ e.message

/-- The texts of the causes below the error. -/
def causes : StartError → List String
  | compile e => e.message :: e.causes
  | subscribe _ e => [e.message]

end StartError

/-! ## Runs -/

/-- How far the routes of a run have come. -/
inductive RunPhase where
  /-- All of them run. -/
  | running
  /-- The last one was refused and stops. -/
  | retracting (error : StartError)
  /-- All of them stop, if with an error since the start failed. -/
  | stopping (error : Option StartError)
  /-- All of them have stopped. -/
  | ended (error : Option StartError)
deriving DecidableEq, Repr

/-- Routes that were started together. -/
structure Run where
  /-- The routes in table order. -/
  routes : List Running
  /-- How far they have come. -/
  phase : RunPhase

/-- What can happen to a run. -/
inductive RunAction where
  /-- Something happens to one of the routes. -/
  | route (index : Nat) (action : Action)
  /-- The token of the run fires. -/
  | cancel
  /-- The run is told to stop. -/
  | stop
  /-- The run notices that routes have stopped. -/
  | proceed

/-- What a run tells the outside. -/
inductive RunOutput where
  /-- A route tells something. -/
  | route (index : Nat) (output : Output)
  /-- An event. -/
  | event (event : Event)
  /-- The run fires its own token. -/
  | cancelled
  /-- All routes have stopped. -/
  | ended (error : Option StartError)

/-- The result of an action on a run. -/
abbrev RunReaction := Run × List RunOutput

namespace Run

/-- Whether a route has stopped. -/
def hasStopped (r : Running) : Bool := r.phase == .stopped

/-- All routes are told to stop; those that were told before stay as they are. -/
def stopRoutes (routes : List Running) : List Running × List RunOutput :=
  (routes.map fun r ↦ (r.stop?.map Prod.fst).getD r,
    routes.zipIdx.flatMap fun (r, i) ↦ ((r.stop?.map Prod.snd).getD []).map (.route i))

/-- Begins the stop of `count` routes. -/
def beginStop (count : Nat) (error : Option StartError) (run : Run) : RunReaction :=
  let (routes, outputs) := stopRoutes run.routes
  (⟨routes, .stopping error⟩, .event (.engineStopping count) :: .cancelled :: outputs)

/-- The run goes on with stopping, when the routes that it waits for have stopped. -/
def proceed? (run : Run) : Option RunReaction :=
  match run.phase with
  | .retracting e =>
    if run.routes.getLast?.any hasStopped then
      some (run.beginStop (run.routes.length - 1) (some e))
    else none
  | .stopping e =>
    if run.routes.all hasStopped then
      some ({ run with phase := .ended e }, [.event .engineStopped, .ended e])
    else none
  | _ => none

/-- The run after an action and what it tells the outside; `none` if the action cannot happen. -/
def step? (clock : Clock) (run : Run) : RunAction → Option RunReaction
  | .route i a => do
    let r ← run.routes[i]?
    let (r, outputs) ← r.step? clock a
    return ({ run with routes := run.routes.set i r }, outputs.map (.route i))
  | .cancel => some ({ run with routes := run.routes.map fun r ↦ { r with cancelled := true } }, [])
  | .stop =>
    match run.phase with
    | .running => some (run.beginStop run.routes.length none)
    | _ => none
  | .proceed => run.proceed?

/-- The first thing that the run can do by itself, done. -/
def next? (clock : Clock) (run : Run) : Option RunReaction :=
  (run.routes.zipIdx.findSome? fun (r, i) ↦
    (r.next? clock).map fun (r, outputs) ↦
      ({ run with routes := run.routes.set i r }, outputs.map (.route i))).or run.proceed?

/-- Whoever started the run lets go of it; what its routes have under way goes on. -/
def forsake (run : Run) : Run := ⟨run.routes.map Running.forsake, .ended none⟩

/-! ## Starting -/

/-- What came of subscribing routes: those that run, and the one that was refused. -/
structure Attached (σ : Type u) where
  /-- The state of the buses. -/
  state : σ
  /-- The routes that were subscribed. -/
  started : List Running
  /-- The route that was refused, with the error of its bus. -/
  refused : Option (Running × BusError)

/-- Subscribes routes one after the other until one is refused. -/
def attach {σ : Type u} (s : EngineSettings)
    (subscribe : Nat → CompiledRoute → σ → Except BusError Unit × σ) (index : Nat) (state : σ) :
    List CompiledRoute → Attached σ
  | [] => ⟨state, [], none⟩
  | route :: rest =>
    let running := Running.ofRoute s route
    match subscribe index route state with
    | (.ok (), state) =>
      let more := attach s subscribe (index + 1) state rest
      { more with started := running :: more.started }
    | (.error e, state) => ⟨state, [], some (running, e)⟩

/-- The events of a route that was started. -/
def startedEvents (s : EngineSettings) (r : Running) : List Event :=
  r.startEvents s ++
    [.routeStarted r.route.name r.route.source.label r.route.destinations.length r.route.mode]

/-- Starts all routes or none; `buses` is the number of buses that the engine knows. -/
def start {σ : Type u} (s : EngineSettings) (buses : Nat)
    (subscribe : Nat → CompiledRoute → σ → Except BusError Unit × σ) (state : σ)
    (routes : List CompiledRoute) : σ × RunReaction :=
  let attached := attach s subscribe 0 state routes
  let events := (attached.started.flatMap (startedEvents s)).map RunOutput.event
  match attached.refused with
  | none =>
    (attached.state, ⟨attached.started, .running⟩,
      events ++ [.event (.engineStarted attached.started.length buses)])
  | some (refused, e) =>
    let index := attached.started.length
    let (stopping, outputs) := (refused.stop?).getD (refused, [])
    (attached.state,
      ⟨attached.started ++ [stopping], .retracting (.subscribe refused.route.name e)⟩,
      events ++ (refused.startEvents s).map .event ++
        .event (.routeRefused refused.route.name refused.route.source.label e) ::
          outputs.map (.route index))

end Run

end MessageBridge
