import MessageBridge.Proofs.Route.Story

/-!
# Stopping a route

The order in which a route stops: it refuses messages, waits until no handling is left, tells its
pools to close, joins every worker, and has stopped. Each stage keeps what the one before it has
established, since a cancelled route begins no handling and a worker that is gone stays gone. So
when a stop returns, the route is at rest, and whatever happens to it afterwards leaves it there.
-/

namespace MessageBridge.Running

variable {clock : Clock} {r r' : Running} {outputs : List Output} {a : Action} {past : Past}
  {s : EngineSettings} {route : CompiledRoute}

/-! ## Lanes -/

/-- A lane of a pool. -/
def lane? (i j : Nat) (r : Running) : Option (Lane Job) := (r.pools[i]?).bind fun p ↦ p.lanes[j]?

theorem lane?_eq_some {i j : Nat} {l : Lane Job} :
    r.lane? i j = some l ↔ ∃ p, r.pools[i]? = some p ∧ p.lanes[j]? = some l :=
  Option.bind_eq_some_iff

theorem workerState?_eq_some {place : Nat × Nat} {w : WorkerState} :
    r.workerState? place = some w ↔ ∃ l, r.lane? place.1 place.2 = some l ∧ l.worker = w := by
  simp only [workerState?, lane?, Option.bind_eq_bind, Option.pure_def, Option.bind_eq_some_iff,
    Option.some.injEq]
  constructor
  · rintro ⟨p, hp, l, hl, rfl⟩
    exact ⟨l, ⟨p, hp, hl⟩, rfl⟩
  · rintro ⟨l, ⟨p, hp, hl⟩, rfl⟩
    exact ⟨p, hp, l, hl, rfl⟩

theorem mem_workerPlaces {i j : Nat} {l : Lane Job} (hl : r.lane? i j = some l) :
    (i, j) ∈ r.workerPlaces := by
  obtain ⟨p, hp, hl⟩ := lane?_eq_some.mp hl
  refine List.mem_flatMap.mpr ⟨(p, i), List.mem_zipIdx_iff_getElem?.mpr hp, ?_⟩
  refine List.mem_map.mpr ⟨j, List.mem_range.mpr ?_, rfl⟩
  exact (List.getElem?_eq_some_iff.mp hl).1

theorem lane_of_step (step : r.step? clock a = some (r', outputs)) {i j : Nat} {l' : Lane Job}
    (hl' : r'.lane? i j = some l') : ∃ l, r.lane? i j = some l ∧ (l' = l ∨ l.Move l') := by
  obtain ⟨p', hp', hl'⟩ := lane?_eq_some.mp hl'
  obtain ⟨p, hp, rfl | move⟩ := pool_of_step step hp'
  · exact ⟨l', lane?_eq_some.mpr ⟨p', hp, hl'⟩, .inl rfl⟩
  · obtain ⟨l, hl, moved⟩ := move.moved.lane hl'
    exact ⟨l, lane?_eq_some.mpr ⟨p, hp, hl⟩, moved⟩

theorem Sound.lane (sound : r.Sound) {i j : Nat} {l : Lane Job} (hl : r.lane? i j = some l) :
    l.Sound := by
  obtain ⟨p, hp, hl⟩ := lane?_eq_some.mp hl
  exact sound.pools hp hl

/-! ## Handlings -/

theorem handlings_eq_nil_iff : r.handlings = [] ↔ ∀ call, r.handling? call = none := by
  constructor
  · intro h call
    rw [handling?, h]
    rfl
  · intro h
    rw [List.eq_nil_iff_forall_not_mem]
    intro x hx
    exact handling?_eq_none_iff.mp (h x.call) x hx rfl

/-- A route without handlings gets none as long as no message arrives. -/
theorem idle_of_other (step : r.step? clock a = some (r', outputs)) (idle : r.handlings = [])
    (other : ∀ call m, a ≠ .handle call m) : r'.handlings = [] := by
  rw [handlings_eq_nil_iff] at idle ⊢
  exact fun call ↦ ((effect_of_step step).unhandled (idle call) (other call)).1

/-- A cancelled route without handlings gets none. -/
theorem idle_of_step (step : r.step? clock a = some (r', outputs)) (refusing : r.cancelled = true)
    (idle : r.handlings = []) : r'.handlings = [] := by
  cases a with
  | handle call m =>
    obtain ⟨-, ⟨-, rfl, -⟩ | ⟨_, early, -⟩ | ⟨_, early, -⟩⟩ := handle?_cases step
    · exact idle
    · rw [refusing] at early
      cases early
    · rw [refusing] at early
      cases early
  | _ => exact idle_of_other step idle (by simp)

/-! ## Stages -/

/-- Only the route as a whole gets on with stopping. -/
theorem phase_of_step (step : r.step? clock a = some (r', outputs))
    (apart : a ≠ .stop ∧ a ≠ .closePools ∧ a ≠ .join ∧ a ≠ .forsake ∧ a ≠ .release) :
    r'.phase = r.phase := by
  obtain ⟨not_stop, not_close, not_join, not_forsake, not_release⟩ := apart
  cases a with
  | handle call m =>
    obtain ⟨-, ⟨-, rfl, -⟩ | ⟨_, -, -, rfl, -⟩ | ⟨_, -, -, rfl, -⟩⟩ := handle?_cases step <;> rfl
  | abandon call =>
    obtain ⟨-, rfl, -⟩ := abandon_eq_some.mp step
    rfl
  | submit call d =>
    obtain ⟨-, h, leg, p, -, -, -, -, ⟨-, rfl⟩ | ⟨-, rfl⟩⟩ := submit?_cases step
    · rfl
    · exact loseJobs_phase ..
  | wake call d =>
    obtain ⟨-, h, leg, due, -, -, -, -, rfl⟩ := wake?_cases step
    rfl
  | breakOff call d =>
    obtain ⟨h, leg, due, -, -, -, -, rfl, -⟩ := breakOff?_cases step
    rfl
  | resolve call =>
    obtain ⟨h, -, -, rfl, -⟩ := resolve?_cases step
    rfl
  | take i j =>
    obtain ⟨p, job, p', -, -, rfl, -⟩ := take?_cases step
    rfl
  | reply i j answer =>
    obtain ⟨p, job, p', -, -, ⟨_, _, -, -, -, rfl, -⟩ | ⟨-, rfl, -⟩⟩ := reply?_cases step <;> rfl
  | crash i j =>
    obtain ⟨-, p, lost, p', -, -, rfl⟩ := crash?_cases step
    exact loseJobs_phase ..
  | drain i j =>
    obtain ⟨-, p, refused, p', -, -, rfl⟩ := drain?_cases step
    exact loseJobs_phase ..
  | retire i j =>
    obtain ⟨p, p', -, -, rfl, -⟩ := retire?_cases step
    rfl
  | cancel =>
    cases step
    rfl
  | stop => exact absurd rfl not_stop
  | closePools => exact absurd rfl not_close
  | join => exact absurd rfl not_join
  | forsake => exact absurd rfl not_forsake
  | release => exact absurd rfl not_release

/-- How a step can change the phase of a route. -/
inductive Advance (r r' : Running) (outputs : List Output) : Prop where
  | stays (same : r'.phase = r.phase)
  | stop (before : r.phase = .running) (now : r'.phase = .finishing)
      (refusing : r'.cancelled = true)
  | close (before : r.phase = .finishing) (idle : r.handlings = [])
      (now : r'.phase = .joining r.workerPlaces)
  | join {i j : Nat} {rest : List (Nat × Nat)} {l : Lane Job}
      (before : r.phase = .joining ((i, j) :: rest)) (now : r'.phase = .joining rest)
      (found : r.lane? i j = some l) (gone : l.gone = true)
  | stopped (before : r.phase = .joining []) (now : r'.phase = .stopped)
      (told : Output.stopped ∈ outputs)
  | letGo (before : r.phase ≠ .stopped) (now : r'.phase = .forsaken ∨ r'.phase = .released)

theorem advance_of_step (step : r.step? clock a = some (r', outputs)) : Advance r r' outputs := by
  cases a with
  | stop =>
    obtain ⟨running, rfl, -⟩ := stop?_eq_some.mp step
    exact .stop running rfl rfl
  | closePools =>
    obtain ⟨finishing, idle, rfl, -⟩ := closePools?_eq_some.mp step
    exact .close finishing idle rfl
  | join =>
    obtain ⟨last, rfl, rfl⟩ | ⟨⟨i, j⟩, rest, next, rfl, ⟨state, -⟩ | ⟨state, -⟩⟩ := join?_cases step
    · exact .stopped last rfl (List.mem_cons_of_mem _ List.mem_cons_self)
    all_goals
      obtain ⟨l, hl, worker⟩ := workerState?_eq_some.mp state
      exact .join next rfl hl (by simp [Lane.gone, worker])
  | forsake =>
    cases step
    obtain same | ⟨going, same⟩ := forsake_cases r
    · exact .stays (by rw [same])
    · exact .letGo going (.inl (by rw [same]))
  | release =>
    obtain ⟨forsaken, -, rfl, -⟩ := release?_eq_some.mp step
    refine .letGo ?_ (.inr rfl)
    simp [forsaken]
  | _ => exact .stays (phase_of_step step (by simp))

/-! ## At rest -/

/-- A route whose stop has returned: it refuses messages, nothing is under way, and every worker is
gone. -/
structure AtRest (r : Running) : Prop where
  phase : r.phase = .stopped
  refusing : r.cancelled = true
  idle : r.handlings = []
  gone : ∀ {i j : Nat} {l : Lane Job}, r.lane? i j = some l → l.gone = true

/-- Nothing disturbs a route at rest. -/
theorem AtRest.step (rest : r.AtRest) (step : r.step? clock a = some (r', outputs)) :
    r'.AtRest where
  phase := by
    have before := rest.phase
    cases advance_of_step step with
    | stays same => rw [same, before]
    | stop other => simp [before] at other
    | close other => simp [before] at other
    | join other => simp [before] at other
    | stopped _ now => exact now
    | letGo going => exact absurd before going
  refusing := (kept_of_step step).cancelled rest.refusing
  idle := idle_of_step step rest.refusing rest.idle
  gone {i j l'} hl' := by
    obtain ⟨l, hl, rfl | move⟩ := lane_of_step step hl'
    · exact rest.gone hl
    · exact Lane.gone_move (rest.gone hl) move

theorem AtRest.runs {later : Past} (rest : r.AtRest) (runs : Execution act r later r') :
    r'.AtRest :=
  runs.invariant rest fun rest step ↦ AtRest.step rest step

/-- No worker of a route at rest begins to publish. -/
theorem AtRest.no_publish (rest : r.AtRest) (step : r.step? clock a = some (r', outputs))
    {i j c : Nat} {m : Message} : Output.publish i j c m ∉ outputs := by
  intro told
  obtain ⟨-, p, p', hp, taken⟩ := caused_of_step step _ told
  obtain ⟨l, l', hl, -, taken, -⟩ := Pool.take?_eq_some.mp taken
  obtain ⟨working, -⟩ := Lane.take?_eq_some.mp taken
  have gone := rest.gone (lane?_eq_some.mpr ⟨p, hp, hl⟩)
  rw [Lane.not_working_of_gone gone] at working
  cases working

/-- A route at rest turns every new call away at once. -/
theorem AtRest.refuses (rest : r.AtRest) {call : Nat} (new : r.nextCall ≤ call) (clock : Clock)
    (m : Message) : r.step? clock (.handle call m) = some ({ r with nextCall := call + 1 },
      [.event (.call call) (.turnedAway r.route.name m.idText),
        .verdict call (.error .shuttingDown)]) := by
  have possible : ¬(call < r.nextCall ∨ r.phase = .released) := by
    rw [rest.phase]
    rintro (old | released)
    · omega
    · cases released
  simp only [step?, handle?]
  rw [if_neg possible, if_pos rest.refusing]

/-! ## The order of a stop -/

/-- Only `closePools` tells a pool to close, and no step takes it back. -/
theorem PoolStep.closing_cases {i : Nat} {p p' : Pool Job} (sees : PoolStep r i a p p') :
    p'.closing = p.closing ∨ a = .closePools ∧ p'.closing = true := by
  cases sees with
  | same | leave | release => exact .inl rfl
  | @submit call h _ found =>
    obtain ⟨_, _, -, -, done⟩ | ⟨-, done⟩ := Pool.submit_cases ⟨call, h.message⟩ p <;>
      rw [done] <;> exact .inl rfl
  | take step =>
    obtain ⟨_, _, -, -, -, rfl⟩ := Pool.take?_eq_some.mp step
    exact .inl rfl
  | finish step =>
    obtain ⟨_, _, -, -, rfl⟩ := Pool.finish?_eq_some.mp step
    exact .inl rfl
  | crash step =>
    obtain ⟨_, _, -, -, rfl⟩ := Pool.crash?_eq_some.mp step
    exact .inl rfl
  | drain step =>
    obtain ⟨_, _, -, -, -, rfl⟩ := Pool.drain?_eq_some.mp step
    exact .inl rfl
  | retire step =>
    obtain ⟨_, _, -, -, rfl⟩ := Pool.end?_eq_some.mp step
    exact .inl rfl
  | close => exact .inr ⟨rfl, rfl⟩

theorem PoolStep.still_closing {i : Nat} {p p' : Pool Job} (sees : PoolStep r i a p p')
    (closing : p.closing = true) : p'.closing = true := by
  obtain same | ⟨-, closes⟩ := sees.closing_cases
  · exact same.trans closing
  · exact closes

/-- What the stages of a stop have established. -/
structure Orderly (r : Running) : Prop where
  finishing : r.phase = .finishing → r.cancelled = true
  closing : ∀ {i : Nat} {p : Pool Job}, r.pools[i]? = some p → p.closing = true →
    r.cancelled = true ∧ r.handlings = []
  joining : ∀ {places : List (Nat × Nat)}, r.phase = .joining places →
    r.cancelled = true ∧ r.handlings = [] ∧
      ∀ {i j : Nat} {l : Lane Job}, r.lane? i j = some l → (i, j) ∉ places → l.gone = true
  stopped : r.phase = .stopped → r.AtRest

theorem orderly_ofRoute (s : EngineSettings) (route : CompiledRoute) :
    (ofRoute s route).Orderly where
  finishing h := by cases h
  closing {i p} hp closing := by
    rw [ofRoute, List.getElem?_map, Option.map_eq_some_iff] at hp
    obtain ⟨d, -, rfl⟩ := hp
    cases closing
  joining h := by cases h
  stopped h := by cases h

theorem Orderly.step (orderly : r.Orderly) (step : r.step? clock a = some (r', outputs)) :
    r'.Orderly := by
  have kept := kept_of_step step
  have still (before : r.cancelled = true ∧ r.handlings = []) :
      r'.cancelled = true ∧ r'.handlings = [] :=
    ⟨kept.cancelled before.1, idle_of_step step before.1 before.2⟩
  have gone_before {i j : Nat} {l' : Lane Job} (hl' : r'.lane? i j = some l')
      (gone : ∀ {l}, r.lane? i j = some l → l.gone = true) : l'.gone = true := by
    obtain ⟨l, hl, rfl | move⟩ := lane_of_step step hl'
    · exact gone hl
    · exact Lane.gone_move (gone hl) move
  have nobody_joined (close : a = .closePools) : r.cancelled = true ∧ r.handlings = [] := by
    subst close
    obtain ⟨finishing, idle, -⟩ := closePools?_eq_some.mp step
    exact ⟨orderly.finishing finishing, idle⟩
  refine ⟨fun finishing ↦ ?_, fun {i p'} hp' closing ↦ ?_, fun {places} joining ↦ ?_,
    fun stopped ↦ ?_⟩
  · cases advance_of_step step with
    | stays same => exact kept.cancelled (orderly.finishing (same ▸ finishing))
    | stop _ _ refusing => exact refusing
    | _ => simp_all
  · obtain ⟨p, hp, sees⟩ := (poolSteps_of_step step).2 hp'
    obtain same | ⟨close, -⟩ := sees.closing_cases
    · exact still (orderly.closing hp (same ▸ closing))
    · exact still (nobody_joined close)
  · cases advance_of_step step with
    | stays same =>
      obtain ⟨refusing, idle, gone⟩ := orderly.joining (same ▸ joining)
      obtain ⟨refusing, idle⟩ := still ⟨refusing, idle⟩
      exact ⟨refusing, idle, fun hl' left ↦ gone_before hl' fun hl ↦ gone hl left⟩
    | close before idle now =>
      -- every worker is still to be joined
      obtain ⟨refusing, idle⟩ := still ⟨orderly.finishing before, idle⟩
      refine ⟨refusing, idle, fun {i j l'} hl' left ↦ ?_⟩
      obtain ⟨l, hl, -⟩ := lane_of_step step hl'
      rw [now] at joining
      cases joining
      exact absurd (mem_workerPlaces hl) left
    | @join i₀ j₀ rest l₀ before now found gone =>
      obtain ⟨refusing, idle, others⟩ := orderly.joining before
      obtain ⟨refusing, idle⟩ := still ⟨refusing, idle⟩
      rw [now] at joining
      cases joining
      refine ⟨refusing, idle, fun {i j l'} hl' left ↦ gone_before hl' fun {l} hl ↦ ?_⟩
      -- the worker that is joined is gone, and the others that are not listed were before
      by_cases here : (i, j) = (i₀, j₀)
      · cases here
        rw [found] at hl
        cases hl
        exact gone
      · exact others hl (by simp [here, left])
    | _ => simp_all
  · cases advance_of_step step with
    | stays same => exact (orderly.stopped (same ▸ stopped)).step step
    | stopped before now =>
      obtain ⟨refusing, idle, gone⟩ := orderly.joining before
      obtain ⟨refusing, idle⟩ := still ⟨refusing, idle⟩
      exact ⟨now, refusing, idle, fun hl' ↦ gone_before hl' fun hl ↦ gone hl List.not_mem_nil⟩
    | _ => simp_all

theorem orderly_of_runs (runs : Runs s route past r) : r.Orderly :=
  runs.invariant (orderly_ofRoute s route) fun orderly step ↦ Orderly.step orderly step

/-- When a stop has returned, the route is at rest. -/
theorem atRest_of_stopped (runs : Runs s route past r)
    (stopped : Output.stopped ∈ Moment.told past) : r.AtRest := by
  obtain ⟨mo, hmo, told⟩ := Moment.mem_told.mp stopped
  obtain ⟨earlier, later, -, before, step, after⟩ := runs.at_moment hmo
  refine AtRest.runs ?_ after
  obtain ⟨join, last⟩ := caused_of_step step _ told
  have orderly := (orderly_of_runs before).step step
  refine orderly.stopped ?_
  rw [act, join] at step
  obtain ⟨-, after, -⟩ | ⟨place, rest, next, -⟩ := join?_cases step
  · rw [after]
  · rw [last] at next
    cases next

theorem stopped_told_iff (runs : Runs s route past r) :
    Output.stopped ∈ Moment.told past ↔ r.phase = .stopped := by
  refine ⟨fun stopped ↦ (atRest_of_stopped runs stopped).phase, fun stopped ↦ ?_⟩
  induction runs with
  | refl => cases stopped
  | snoc runs step ih =>
    rw [Moment.told_append, Moment.told_singleton, List.mem_append]
    cases advance_of_step step with
    | stays same => exact .inl (ih (same ▸ stopped))
    | stopped _ _ told => exact .inr told
    | _ => simp_all

/-! ## What a stop guarantees -/

/-- A call that arrived has been given one verdict, or its caller has left without one. -/
def Answered (call : Nat) (past : Past) : Prop :=
  (∃ v, verdicts call past = [v]) ∨ Abandoned call past ∧ verdicts call past = []

theorem answered_of_idle (runs : Runs s route past r) (idle : r.handlings = []) {call : Nat}
    (came : arrivals call past ≠ []) : Answered call past := by
  cases story_of_runs runs call with
  | unheard never => exact absurd never came
  | turnedAway _ _ told => exact .inl ⟨_, told⟩
  | dropped _ _ _ told => exact .inl ⟨_, told⟩
  | handled underway =>
    have nobody := handlings_eq_nil_iff.mp idle call
    rw [underway.found] at nobody
    cases nobody
  | resolved _ _ _ told => exact .inl ⟨_, told⟩
  | abandoned _ _ _ told _ left => exact .inr ⟨left, told⟩

/-- What can be relied on when a route is stopped. -/
structure GracefulStop (past : Past) (r : Running) : Prop where
  /-- Pools begin to close only when all calls have been answered, and no other call gets past the
  token then. -/
  closing : ∀ {i : Nat} {p : Pool Job}, r.pools[i]? = some p → p.closing = true →
    r.cancelled = true ∧ r.handlings = [] ∧ ∀ {call}, arrivals call past ≠ [] → Answered call past
  /-- When the stop has returned, every worker is gone, -/
  workers : Output.stopped ∈ Moment.told past → ∀ {i j : Nat} {l : Lane Job},
    r.lane? i j = some l → l.gone = true ∧ l.inHand = none
  /-- every call has been answered, -/
  answered : Output.stopped ∈ Moment.told past → ∀ {call}, arrivals call past ≠ [] →
    Answered call past
  /-- and from then on nothing is published -/
  silent : Output.stopped ∈ Moment.told past → ∀ {later : Past} {r' : Running},
    Execution act r later r' → ∀ {i j c : Nat} {m : Message},
      Output.publish i j c m ∉ Moment.told later
  /-- and every new call is turned away at once. -/
  refuses : Output.stopped ∈ Moment.told past → ∀ {later : Past} {r' : Running},
    Execution act r later r' → ∀ (clock : Clock) {call : Nat} (m : Message), r'.nextCall ≤ call →
      r'.step? clock (.handle call m) = some ({ r' with nextCall := call + 1 },
        [.event (.call call) (.turnedAway r'.route.name m.idText),
          .verdict call (.error .shuttingDown)])

/-- **A route stops gracefully**, whatever is under way when it is told to. -/
theorem gracefulStop (runs : Runs s route past r) : GracefulStop past r where
  closing hp closing := by
    obtain ⟨refusing, idle⟩ := (orderly_of_runs runs).closing hp closing
    exact ⟨refusing, idle, answered_of_idle runs idle⟩
  workers stopped {i j l} hl := by
    have gone := (atRest_of_stopped runs stopped).gone hl
    exact ⟨gone, ((sound_of_runs runs).lane hl).inHand_eq_none gone⟩
  answered stopped := answered_of_idle runs (atRest_of_stopped runs stopped).idle
  silent stopped {later r'} after {i j c m} told := by
    have rest := atRest_of_stopped runs stopped
    obtain ⟨mo, hmo, told⟩ := Moment.mem_told.mp told
    obtain ⟨earlier, _, -, before, step, -⟩ := after.at_moment hmo
    exact (rest.runs before).no_publish step told
  refuses stopped {later r'} after clock call m new :=
    ((atRest_of_stopped runs stopped).runs after).refuses new clock m

end MessageBridge.Running
