import MessageBridge.Proofs.Engine.Routes
import MessageBridge.Proofs.Route.Stop

/-!
# Stopping a run

A run that is told to stop tells all its routes at once, and ends when all of them have stopped.
Since its history, seen from one place, is a history of the route there, every route stops as
gracefully as it would on its own.
-/

namespace MessageBridge.Run

variable {clock : Clock} {run run' : Run} {outputs : List RunOutput} {a : RunAction} {i : Nat}
  {r : Running} {s : EngineSettings}

/-! ## Starting -/

/-- What a route has been through when its run begins: nothing, or it has been told to stop since
its source refused it. -/
def opening (s : EngineSettings) (r : Running) : Running.Past :=
  if r.phase = .running then []
  else [⟨.ofRoute s r.route, (⟨0, 0⟩, .stop), r,
    [.event .route (.routeStopping r.route.name 0), .cancelled]⟩]

theorem opening_of_fresh (s : EngineSettings) (route : CompiledRoute) :
    Running.Runs s route (opening s (.ofRoute s route)) (.ofRoute s route) :=
  Execution.refl

theorem opening_of_stop {route : CompiledRoute} {told : List Output}
    (stops : (Running.ofRoute s route).stop? = some (r, told)) :
    Running.Runs s route (opening s r) r ∧ r.route = route := by
  obtain ⟨-, rfl, rfl⟩ := Running.stop?_eq_some.mp stops
  have fresh : Running.Runs s route [] (.ofRoute s route) := .refl
  exact ⟨fresh.snoc (a := ((⟨0, 0⟩, .stop) : Clock × Action)) stops, rfl⟩

section Start

variable {σ : Type u} (s) (subscribe : Nat → CompiledRoute → σ → Except BusError Unit × σ)

theorem attach_cases (routes : List CompiledRoute) (index : Nat) (state : σ) :
    (∀ r ∈ (attach s subscribe index state routes).started,
        ∃ route ∈ routes, r = .ofRoute s route) ∧
      ∀ r e, (attach s subscribe index state routes).refused = some (r, e) →
        ∃ route ∈ routes, r = .ofRoute s route := by
  induction routes generalizing index state with
  | nil => exact ⟨fun r hr ↦ (nomatch hr), fun r e h ↦ (nomatch h)⟩
  | cons route rest ih =>
    rw [attach]
    split
    · rename_i state' _
      obtain ⟨started, refused⟩ := ih (index + 1) state'
      refine ⟨fun r hr ↦ ?_, fun r e h ↦ ?_⟩
      · rcases List.mem_cons.mp hr with rfl | hr
        · exact ⟨route, List.mem_cons_self, rfl⟩
        · obtain ⟨x, hx, rfl⟩ := started r hr
          exact ⟨x, List.mem_cons_of_mem _ hx, rfl⟩
      · obtain ⟨x, hx, rfl⟩ := refused r e h
        exact ⟨x, List.mem_cons_of_mem _ hx, rfl⟩
    · refine ⟨fun r hr ↦ (nomatch hr), fun r e h ↦ ?_⟩
      cases h
      exact ⟨route, List.mem_cons_self, rfl⟩

/-- Every route of a run that begins is fresh, or has just been told to stop. -/
theorem opening_runs {buses : Nat} {state : σ} {routes : List CompiledRoute}
    (hr : r ∈ (start s buses subscribe state routes).2.1.routes) :
    ∃ route ∈ routes, Running.Runs s route (opening s r) r := by
  obtain ⟨started, refused⟩ := attach_cases s subscribe routes 0 state
  rw [start] at hr
  split at hr
  · obtain ⟨route, among, rfl⟩ := started r hr
    exact ⟨route, among, opening_of_fresh s route⟩
  · rename_i x e none_left
    obtain ⟨route, among, rfl⟩ := refused x e none_left
    rcases List.mem_append.mp hr with hr | hr
    · obtain ⟨route, among, rfl⟩ := started r hr
      exact ⟨route, among, opening_of_fresh s route⟩
    · have stops := Running.stop?_eq_some.mpr
        (⟨rfl, rfl, rfl⟩ : (Running.ofRoute s route).phase = .running ∧ _ = _ ∧ _ = _)
      rw [List.mem_singleton, stops] at hr
      subst hr
      exact ⟨route, among, (opening_of_stop stops).1⟩

end Start

/-! ## Ending -/

theorem ended_notMem_stopRoutes (routes : List Running) (e : Option StartError) :
    RunOutput.ended e ∉ (stopRoutes routes).2 := by
  intro told
  obtain ⟨t, -, told⟩ := List.mem_flatMap.mp told
  obtain ⟨o, -, same⟩ := List.mem_map.mp told
  cases same

theorem stopped_of_ended (step : run.step? clock a = some (run', outputs)) {e : Option StartError}
    (told : RunOutput.ended e ∈ outputs) : ∀ r ∈ run.routes, r.phase = .stopped := by
  have not_begun {count : Nat} {error : Option StartError}
      (done : (run', outputs) = run.beginStop count error) : False := by
    cases done
    rcases List.mem_cons.mp told with same | told
    · cases same
    · rcases List.mem_cons.mp told with same | told
      · cases same
      · exact ended_notMem_stopRoutes _ _ told
  cases a with
  | route j b =>
    obtain ⟨x, x', said, -, -, -, rfl⟩ := step?_route_eq_some.mp step
    obtain ⟨o, -, same⟩ := List.mem_map.mp told
    cases same
  | cancel =>
    cases step
    cases told
  | stop =>
    simp only [step?] at step
    split at step
    · exact (not_begun (Option.some.inj step).symm).elim
    · cases step
  | proceed =>
    -- a run proceeds from taking back a failed start to a stop, which does not end it yet
    obtain ⟨_, -, done⟩ | ⟨_, -, all, -, -⟩ := proceed?_cases step
    · exact (not_begun done).elim
    · intro r hr
      exact beq_iff_eq.mp (List.all_eq_true.mp all r hr)

/-- When a run is told to stop, every route that runs is told at once. -/
theorem finishing_of_stop (step : run.step? clock .stop = some (run', outputs))
    (hr : run.routes[i]? = some r) (running : r.phase = .running) :
    ∃ r', run'.routes[i]? = some r' ∧ r'.phase = .finishing ∧ r'.cancelled = true := by
  obtain ⟨r', hr', shared⟩ := shared_of_step step hr
  rw [share, if_pos running] at shared
  obtain ⟨-, rfl, -⟩ := Running.stop?_eq_some.mp shared
  exact ⟨_, hr', rfl, rfl⟩

theorem Shared.atRest {r' : Running} {act : Option Action}
    (shared : Shared i clock r r' outputs act) (rest : r.AtRest) : r'.AtRest := by
  cases act with
  | none => rwa [shared.1]
  | some b => exact rest.step shared

/-! ## What a stop guarantees -/

/-- What can be relied on when a run that began in some way is stopped. -/
structure GracefulStop (s : EngineSettings) (first : Run) (past : Past) (run : Run) : Prop where
  /-- Every route that runs is told at once. -/
  together : ∀ {mo : Moment Run (Clock × RunAction) RunOutput}, mo ∈ past →
    mo.action.2 = .stop → ∀ {i : Nat} {r : Running}, mo.before.routes[i]? = some r →
      r.phase = .running →
      ∃ r', mo.after.routes[i]? = some r' ∧ r'.phase = .finishing ∧ r'.cancelled = true
  /-- Every route stops gracefully, and has stopped when the run has ended. -/
  routes : ∀ {i : Nat} {r₀ : Running}, first.routes[i]? = some r₀ →
    ∃ r, run.routes[i]? = some r ∧
      Running.GracefulStop (opening s r₀ ++ past.flatMap (own i)) r ∧
      ∀ {e : Option StartError}, RunOutput.ended e ∈ Moment.told past →
        Output.stopped ∈ Moment.told (opening s r₀ ++ past.flatMap (own i))

/-- **A run stops gracefully**, in whatever order its routes go on. -/
theorem gracefulStop {σ : Type u} {subscribe : Nat → CompiledRoute → σ → Except BusError Unit × σ}
    {buses : Nat} {state : σ} {routes : List CompiledRoute} {past : Past}
    (runs : Execution act (start s buses subscribe state routes).2.1 past run) :
    GracefulStop s (start s buses subscribe state routes).2.1 past run where
  together {mo} hmo told {i r} hr running := by
    obtain ⟨_, _, -, -, step, -⟩ := runs.at_moment hmo
    rw [act, told] at step
    exact finishing_of_stop step hr running
  routes {i r₀} h₀ := by
    obtain ⟨route, -, opened⟩ := opening_runs s subscribe (List.mem_of_getElem? h₀)
    obtain ⟨r, hr, own⟩ := own_runs runs h₀
    have whole := opened.trans own
    refine ⟨r, hr, Running.gracefulStop whole, fun {e} ended ↦ ?_⟩
    rw [Running.stopped_told_iff whole]
    obtain ⟨mo, hmo, told⟩ := Moment.mem_told.mp ended
    obtain ⟨earlier, later, -, before, step, after⟩ := runs.at_moment hmo
    obtain ⟨x, hx, early⟩ := own_runs before h₀
    -- at the moment of the end the route is at rest, and nothing that comes later disturbs it
    have stopped := stopped_of_ended step told x (List.mem_of_getElem? hx)
    have rest := (Running.orderly_of_runs (opened.trans early)).stopped stopped
    obtain ⟨x', hx', shared⟩ := shared_of_step step hx
    obtain ⟨r', hr', late⟩ := own_runs after hx'
    rw [hr] at hr'
    cases hr'
    exact ((shared.atRest rest).runs late).phase

end MessageBridge.Run
