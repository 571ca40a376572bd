import MessageBridge.Proofs.Engine.Stop

/-!
# Starting a run

The routes of a run are subscribed one after the other, and the first refusal ends that. So there
are two ways for a start to go: every route was accepted and the run runs, or the routes up to some
place were asked for, all but the last one were accepted, and the run takes itself back. Whatever
the buses answer, they are asked for the routes of the run and for no other, each once and in
order; this is said with a book of the questions kept beside the state of the buses.

A run that takes itself back fires its token when the refused route has stopped, and ends when all
its routes have.
-/

namespace MessageBridge

/-! ## What a route can become -/

namespace Running

variable {clock : Clock} {r r' r'' : Running} {outputs : List Output} {a : Action}

/-- A route becomes another one by steps of its machine, in any number. -/
def Becomes (r r' : Running) : Prop := ∃ past, Execution act r past r'

theorem Becomes.refl (r : Running) : Becomes r r := ⟨[], .refl⟩

theorem Becomes.trans (first : Becomes r r') (second : Becomes r' r'') : Becomes r r'' := by
  obtain ⟨past, first⟩ := first
  obtain ⟨later, second⟩ := second
  exact ⟨past ++ later, first.trans second⟩

theorem becomes_of_step (step : r.step? clock a = some (r', outputs)) : Becomes r r' :=
  ⟨_, Execution.refl.snoc (a := (clock, a)) step⟩

theorem becomes_of_heed (r : Running) (heard : Bool) :
    r.Becomes { r with cancelled := r.cancelled || heard } := by
  obtain same | step := heed_cases ⟨0, 0⟩ r heard
  · rw [same]
    exact .refl r
  · exact becomes_of_step step

theorem Becomes.route (becomes : Becomes r r') : r'.route = r.route := by
  obtain ⟨past, runs⟩ := becomes
  exact runs.invariant (P := fun x ↦ x.route = r.route) rfl
    fun before step ↦ (kept_of_step step).route.trans before

theorem Becomes.orderly (becomes : Becomes r r') (orderly : r.Orderly) : r'.Orderly := by
  obtain ⟨past, runs⟩ := becomes
  exact runs.invariant orderly fun before step ↦ Orderly.step before step

theorem Becomes.atRest (becomes : Becomes r r') (rest : r.AtRest) : r'.AtRest := by
  obtain ⟨past, runs⟩ := becomes
  exact rest.runs runs

/-- A route that is told to stop when it has begun. -/
def refused (s : EngineSettings) (route : CompiledRoute) : Running :=
  { ofRoute s route with cancelled := true, phase := .finishing }

theorem stop?_ofRoute (s : EngineSettings) (route : CompiledRoute) :
    (ofRoute s route).stop? = some (refused s route,
      [.event .route (.routeStopping route.name 0), .cancelled]) := rfl

@[simp] theorem route_ofRoute (s : EngineSettings) (route : CompiledRoute) :
    (ofRoute s route).route = route := rfl

@[simp] theorem route_comp_ofRoute (s : EngineSettings) : Running.route ∘ ofRoute s = id := rfl

@[simp] theorem route_refused (s : EngineSettings) (route : CompiledRoute) :
    (refused s route).route = route := rfl

theorem orderly_refused (s : EngineSettings) (route : CompiledRoute) : (refused s route).Orderly :=
  have step : (ofRoute s route).step? ⟨0, 0⟩ .stop = _ := stop?_ofRoute s route
  (orderly_ofRoute s route).step step

end Running

namespace Run

universe u

/-! ## Asking the buses -/

section Asking

variable {σ : Type u} (s : EngineSettings)
  (subscribe : Nat → CompiledRoute → σ → Except BusError Unit × σ)

/-- The buses accept all routes of a list, one after the other. -/
inductive Accepted : Nat → σ → List CompiledRoute → σ → Prop where
  | nil {index : Nat} {state : σ} : Accepted index state [] state
  | cons {index : Nat} {state next last : σ} {route : CompiledRoute}
      {rest : List CompiledRoute} (first : subscribe index route state = (.ok (), next))
      (others : Accepted (index + 1) next rest last) : Accepted index state (route :: rest) last

/-- How it can go with the routes of a list: all are accepted, or those before one that is refused
are, and those after it are not asked for. -/
inductive Asked (index : Nat) (state : σ) (routes : List CompiledRoute) : Attached σ → Prop where
  | all {last : σ} (accepted : Accepted subscribe index state routes last) :
      Asked index state routes ⟨last, routes.map (.ofRoute s), none⟩
  | refused {before after : List CompiledRoute} {route : CompiledRoute} {middle last : σ}
      {e : BusError} (split : routes = before ++ route :: after)
      (accepted : Accepted subscribe index state before middle)
      (refused : subscribe (index + before.length) route middle = (.error e, last)) :
      Asked index state routes ⟨last, before.map (.ofRoute s), some (.ofRoute s route, e)⟩

theorem asked_attach (routes : List CompiledRoute) (index : Nat) (state : σ) :
    Asked s subscribe index state routes (attach s subscribe index state routes) := by
  induction routes generalizing index state with
  | nil => exact .all .nil
  | cons route rest ih =>
    rw [attach]
    split
    · rename_i next accepted
      dsimp only
      generalize more : attach s subscribe (index + 1) next rest = attached
      have others := ih (index + 1) next
      rw [more] at others
      cases others with
      | all others => exact .all (.cons accepted others)
      | @refused before after x middle last e split others refused =>
        have here : subscribe (index + (route :: before).length) x middle = (.error e, last) := by
          rw [← refused, List.length_cons, Nat.add_right_comm, Nat.add_assoc]
        exact .refused (congrArg (route :: ·) split) (.cons accepted others) here
    · rename_i refused
      exact .refused rfl .nil refused

/-- What comes of a list of routes whose first ones are accepted. -/
theorem attach_append {before : List CompiledRoute} {index : Nat} {state middle : σ}
    (accepted : Accepted subscribe index state before middle) (rest : List CompiledRoute) :
    let more := attach s subscribe (index + before.length) middle rest
    attach s subscribe index state (before ++ rest) =
      { more with started := before.map (.ofRoute s) ++ more.started } := by
  induction accepted with
  | nil => rfl
  | @cons index state next last route others first _ ih =>
    have along : index + (route :: others).length = index + 1 + others.length := by
      rw [List.length_cons]
      omega
    dsimp only at ih ⊢
    rw [List.cons_append, attach, first, along]
    dsimp only
    rw [ih]
    rfl

/-! ## The book -/

/-- The buses with a book beside them of what they are asked for. -/
def booked (index : Nat) (route : CompiledRoute) (p : σ × List CompiledRoute) :
    Except BusError Unit × σ × List CompiledRoute :=
  ((subscribe index route p.1).1, (subscribe index route p.1).2, p.2 ++ [route])

/-- The book changes nothing, and holds the routes that were asked for. -/
theorem attach_booked (routes : List CompiledRoute) (index : Nat) (state : σ)
    (book : List CompiledRoute) :
    let plain := attach s subscribe index state routes
    attach s (booked subscribe) index (state, book) routes =
      ⟨(plain.state, book ++ (plain.started.map Running.route ++
        (plain.refused.map fun p ↦ p.1.route).toList)), plain.started, plain.refused⟩ := by
  induction routes generalizing index state book with
  | nil => simp [attach]
  | cons route rest ih =>
    simp only [attach, booked]
    generalize answered : subscribe index route state = answer
    obtain ⟨⟨e⟩ | ⟨⟩, next⟩ := answer
    · simp
    · simp [ih]

end Asking

/-! ## How a start goes -/

section Start

variable {σ : Type u} (s : EngineSettings) (buses : Nat)
  (subscribe : Nat → CompiledRoute → σ → Except BusError Unit × σ)

/-- How a start can go: every route is accepted and all run, or one is refused and the run that has
begun takes itself back. -/
inductive Begun (state : σ) (routes : List CompiledRoute) : σ × RunReaction → Prop where
  | running {last : σ} {outputs : List RunOutput}
      (accepted : Accepted subscribe 0 state routes last) :
      Begun state routes (last, ⟨routes.map (.ofRoute s), .running⟩, outputs)
  | refused {before after : List CompiledRoute} {route : CompiledRoute} {middle last : σ}
      {e : BusError} {outputs : List RunOutput} (split : routes = before ++ route :: after)
      (accepted : Accepted subscribe 0 state before middle)
      (refused : subscribe before.length route middle = (.error e, last)) :
      Begun state routes (last, ⟨before.map (.ofRoute s) ++ [.refused s route],
        .retracting (.subscribe route.name e)⟩, outputs)

theorem begun_start (state : σ) (routes : List CompiledRoute) :
    Begun s subscribe state routes (start s buses subscribe state routes) := by
  rw [start]
  generalize done : attach s subscribe 0 state routes = attached
  have asked := asked_attach s subscribe routes 0 state
  rw [done] at asked
  cases asked with
  | all accepted => exact .running accepted
  | @refused before after route middle last e split accepted refused =>
    rw [Nat.zero_add] at refused
    simp only [Running.stop?_ofRoute, Option.getD_some]
    exact .refused split accepted refused

/-- **The buses are asked for the routes of the run**, each once and in order, whatever they
answer. -/
theorem start_booked (state : σ) (routes : List CompiledRoute) :
    let plain := start s buses subscribe state routes
    start s buses (booked subscribe) (state, []) routes =
      ((plain.1, plain.2.1.routes.map Running.route), plain.2) := by
  have book := attach_booked s subscribe routes 0 state []
  dsimp only at book
  simp only [start, book]
  generalize done : attach s subscribe 0 state routes = attached
  have asked := asked_attach s subscribe routes 0 state
  rw [done] at asked
  cases asked with
  | all accepted => simp
  | refused => simp [Running.stop?_ofRoute]

/-- A run that begins has not ended. -/
theorem ended_notMem_start (state : σ) (routes : List CompiledRoute) (e : Option StartError) :
    RunOutput.ended e ∉ (start s buses subscribe state routes).2.2 := by
  rw [start]
  generalize attach s subscribe 0 state routes = attached
  obtain ⟨last, started, _ | ⟨refused, _⟩⟩ := attached <;> simp

end Start

/-! ## Steps -/

variable {clock : Clock} {run run' : Run} {outputs : List RunOutput} {a : RunAction}

theorem length_of_step (step : run.step? clock a = some (run', outputs)) :
    run'.routes.length = run.routes.length := by
  cases a with
  | route j b =>
    obtain ⟨_, _, _, -, -, rfl, -⟩ := step?_route_eq_some.mp step
    exact List.length_set
  | cancel =>
    cases step
    exact List.length_map _
  | stop =>
    simp only [step?] at step
    split at step
    · cases step
      exact List.length_map _
    · cases step
  | proceed =>
    obtain ⟨_, -, done⟩ | ⟨_, -, -, rfl, -⟩ := proceed?_cases step
    · cases done
      exact List.length_map _
    · rfl

/-- A step of a run is one of each of its routes, or leaves the route alone. -/
theorem becomes_of_step (step : run.step? clock a = some (run', outputs)) :
    List.Forall₂ Running.Becomes run.routes run'.routes := by
  refine List.forall₂_iff_get.mpr ⟨(length_of_step step).symm, fun i h h' ↦ ?_⟩
  obtain ⟨r', hr', shared⟩ := shared_of_step step (List.getElem?_eq_getElem h)
  rw [List.getElem?_eq_getElem h'] at hr'
  cases hr'
  cases act : share i run run.routes[i] a with
  | none =>
    rw [act] at shared
    rw [List.get_eq_getElem, List.get_eq_getElem, shared.1]
    exact .refl _
  | some b =>
    rw [act] at shared
    exact Running.becomes_of_step shared

/-- How a step can change the phase of a run. -/
inductive Passage (run run' : Run) (outputs : List RunOutput) : Prop where
  | stays (same : run'.phase = run.phase) (silent : ∀ e, RunOutput.ended e ∉ outputs)
  | stops {error : Option StartError}
      (before : run.phase = .running ∧ error = none ∨
        ∃ e, run.phase = .retracting e ∧ error = some e)
      (now : run'.phase = .stopping error) (fires : RunOutput.cancelled ∈ outputs)
      (silent : ∀ e, RunOutput.ended e ∉ outputs)
  | ends {error : Option StartError} (before : run.phase = .stopping error)
      (stopped : ∀ r ∈ run.routes, r.phase = .stopped)
      (now : run' = { run with phase := .ended error })
      (tells : outputs = [.event .engineStopped, .ended error])

theorem ended_notMem_beginStop (count : Nat) (error e : Option StartError) :
    RunOutput.ended e ∉ (run.beginStop count error).2 := by
  intro told
  rcases List.mem_cons.mp told with same | told
  · cases same
  · rcases List.mem_cons.mp told with same | told
    · cases same
    · exact ended_notMem_stopRoutes _ _ told

theorem passage_of_step (step : run.step? clock a = some (run', outputs)) :
    Passage run run' outputs := by
  have fires (count : Nat) (error : Option StartError) :
      RunOutput.cancelled ∈ (run.beginStop count error).2 :=
    List.mem_cons_of_mem _ List.mem_cons_self
  cases a with
  | route j b =>
    obtain ⟨_, _, _, -, -, rfl, rfl⟩ := step?_route_eq_some.mp step
    refine .stays rfl fun e told ↦ ?_
    obtain ⟨o, -, same⟩ := List.mem_map.mp told
    cases same
  | cancel =>
    cases step
    exact .stays rfl fun e ↦ List.not_mem_nil
  | stop =>
    simp only [step?] at step
    split at step
    · rename_i running
      cases step
      exact .stops (.inl ⟨running, rfl⟩) rfl (fires _ none) (ended_notMem_beginStop _ none)
    · cases step
  | proceed =>
    obtain ⟨e, retracting, done⟩ | ⟨e, stopping, all, rfl, rfl⟩ := proceed?_cases step
    · cases done
      exact .stops (.inr ⟨e, retracting, rfl⟩) rfl (fires _ (some e))
        (ended_notMem_beginStop _ (some e))
    · exact .ends stopping (fun r hr ↦ beq_iff_eq.mp (List.all_eq_true.mp all r hr)) rfl rfl

/-- What a run does by itself is one of its steps. -/
theorem exists_step_of_next? {reaction : RunReaction} (next : run.next? clock = some reaction) :
    ∃ a, run.step? clock a = some reaction := by
  rcases Option.or_eq_some_iff.mp next with next | ⟨-, next⟩
  · obtain ⟨⟨r, i⟩, hr, next⟩ := List.exists_of_findSome?_eq_some next
    obtain ⟨⟨r', told⟩, own, rfl⟩ := Option.map_eq_some_iff.mp next
    obtain ⟨b, -, step⟩ := List.exists_of_findSome?_eq_some own
    exact ⟨.route i b, step?_route_eq_some.mpr
      ⟨r, r', told, List.mem_zipIdx_iff_getElem?.mp hr, step, rfl, rfl⟩⟩
  · exact ⟨.proceed, next⟩

end Run

end MessageBridge
