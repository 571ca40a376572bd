import MessageBridge.Proofs.Lane.Load
import MessageBridge.Proofs.Route.Joining

/-!
# Stopping a route that nothing has come to

A route that is told to stop before any message has come to it has little to do until it has
stopped: its pools are told to close, every worker closes its queue, ends and is joined. How much of
this is left is a number, `Running.toStop`, which everything that the route does by itself makes
smaller (`Vacant.own`). As long as it has not stopped there is something to do
(`Vacant.stopped_of_still`), and meanwhile it publishes nothing and gives nobody an answer.
-/

namespace MessageBridge

/-- Whether something that a route tells is neither a publish nor the answer to a call. -/
def Output.hushed : Output → Bool
  | .publish .. | .verdict .. => false
  | _ => true

/-- The most steps until the workers of a pool are gone, if it has been told to close. -/
def Pool.toGo {α : Type*} (p : Pool α) : Nat := (p.lanes.map Lane.toGo).sum

namespace Running

variable {r r' : Running} {clock : Clock} {a : Action} {outputs : List Output} {i j : Nat}

/-! ## What is left to do -/

/-- The most steps that a route as a whole takes until it has stopped. -/
def stages (r : Running) : Nat :=
  match r.phase with
  | .running => r.workerPlaces.length + 3
  | .finishing => r.workerPlaces.length + 2
  | .joining places => places.length + 1
  | .stopped | .forsaken | .released => 0

/-- The most steps until a route has stopped to which no message comes. -/
def toStop (r : Running) : Nat := (r.pools.map Pool.toGo).sum + r.stages

theorem workerPlaces_congr
    (same : r'.pools.map (fun p ↦ p.lanes.length) = r.pools.map fun p ↦ p.lanes.length) :
    r'.workerPlaces = r.workerPlaces := by
  have counted (r : Running) : r.workerPlaces =
      (r.pools.map fun p ↦ p.lanes.length).zipIdx.flatMap fun n ↦
        (List.range n.1).map fun j ↦ (n.2, j) := by
    rw [List.zipIdx_map, List.flatMap_map]
    rfl
  rw [counted, counted, same]

theorem stages_congr (phase : r'.phase = r.phase)
    (same : r'.pools.map (fun p ↦ p.lanes.length) = r.pools.map fun p ↦ p.lanes.length) :
    r'.stages = r.stages := by
  rw [stages, stages, phase, workerPlaces_congr same]

theorem toStop_setLane {p : Pool Job} {l l' : Lane Job} (hp : r.pools[i]? = some p)
    (hl : p.lanes[j]? = some l) (less : l'.toGo < l.toGo)
    (pools : r'.pools = r.pools.set i (p.setLane j l')) (phase : r'.phase = r.phase) :
    r'.toStop < r.toStop := by
  have counts : r'.pools.map (fun p ↦ p.lanes.length) = r.pools.map fun p ↦ p.lanes.length := by
    obtain ⟨hi, rfl⟩ := List.getElem?_eq_some_iff.mp hp
    rw [pools, List.map_set, Pool.setLane_lanes, List.length_set, ← List.map_set,
      List.set_getElem_self]
  have whole := sum_map_set Pool.toGo hp (p.setLane j l')
  have here : (p.setLane j l').toGo + l.toGo = p.toGo + l'.toGo :=
    Pool.sum_setLane Lane.toGo hl l'
  rw [toStop, toStop, stages_congr phase counts, pools]
  omega

/-! ## Routes to which nothing has come -/

/-- No message has come to a route, and nobody has let go of it. -/
structure Vacant (r : Running) : Prop where
  runs : ∃ s route past, Runs s route past r
  idle : r.handlings = []
  empty : ∀ {i j : Nat} {l : Lane Job}, r.lane? i j = some l → l.jobs = []
  kept : r.phase ≠ .forsaken ∧ r.phase ≠ .released

theorem vacant_ofRoute (s : EngineSettings) (route : CompiledRoute) : (ofRoute s route).Vacant where
  runs := ⟨s, route, [], .refl⟩
  idle := rfl
  empty {i j l} hl := by
    obtain ⟨p, hp, hl⟩ := lane?_eq_some.mp hl
    rw [ofRoute, List.getElem?_map, Option.map_eq_some_iff] at hp
    obtain ⟨d, -, rfl⟩ := hp
    rw [(List.mem_replicate.mp (List.mem_of_getElem? hl)).2]
    rfl
  kept := ⟨nofun, nofun⟩

/-- Nothing but a submission brings a job into a lane. -/
theorem LaneStep.jobs_eq_nil {l l' : Lane Job} (seen : LaneStep r i j a l l')
    (nothing : l.jobs = []) (other : ∀ call, a ≠ .submit call i) : l'.jobs = [] := by
  cases seen with
  | same => exact nothing
  | submit => exact absurd rfl (other _)
  | take step => rw [Lane.jobs_take? step, nothing]
  | finish step =>
    have jobs := Lane.jobs_finish? step
    rw [nothing] at jobs
    cases jobs
  | crash step => exact (Lane.jobs_crash? step).2
  | drain _ _ step =>
    have jobs := Lane.jobs_drain? step
    rw [nothing] at jobs
    exact (List.append_eq_nil_iff.mp jobs.symm).1
  | retire step => rw [Lane.jobs_end? step, nothing]
  | withdraw => exact List.sublist_nil.mp (nothing ▸ Lane.jobs_withdraw_sublist _ l)
  | release => exact List.sublist_nil.mp (nothing ▸ Lane.jobs_release_sublist l)

theorem Vacant.step (vacant : r.Vacant) (step : r.step? clock a = some (r', outputs))
    (calm : ∀ call m, a ≠ .handle call m) (held : a ≠ .forsake) : r'.Vacant where
  runs := by
    obtain ⟨s, route, past, runs⟩ := vacant.runs
    exact ⟨s, route, _, runs.snoc (a := (clock, a)) step⟩
  idle := idle_of_other step vacant.idle calm
  empty {i j l'} hl' := by
    obtain ⟨l, hl, -⟩ := lane_of_step step hl'
    obtain ⟨m, hm, seen⟩ := exists_laneStep step hl
    rw [hm] at hl'
    cases hl'
    refine seen.jobs_eq_nil (vacant.empty hl) fun call submits ↦ ?_
    subst submits
    obtain ⟨-, h, -, -, found, -⟩ := submit?_cases step
    rw [handlings_eq_nil_iff.mp vacant.idle] at found
    cases found
  kept := by
    cases a with
    | stop =>
      obtain ⟨-, rfl, -⟩ := stop?_eq_some.mp step
      exact ⟨nofun, nofun⟩
    | closePools =>
      obtain ⟨-, -, rfl, -⟩ := closePools?_eq_some.mp step
      exact ⟨nofun, nofun⟩
    | join =>
      obtain ⟨-, rfl, -⟩ | ⟨_, _, -, rfl, -⟩ := join?_cases step
      · exact ⟨nofun, nofun⟩
      · exact ⟨nofun, nofun⟩
    | forsake => exact absurd rfl held
    | release =>
      obtain ⟨forsaken, -⟩ := release?_eq_some.mp step
      exact absurd forsaken vacant.kept.1
    | _ =>
      rw [phase_of_step step (by simp)]
      exact vacant.kept

theorem Vacant.heed (vacant : r.Vacant) (heard : Bool) :
    ({ r with cancelled := r.cancelled || heard } : Running).Vacant := by
  obtain same | step := heed_cases ⟨0, 0⟩ r heard
  · rwa [same]
  · exact vacant.step step nofun nofun

/-! ## What such a route does by itself -/

theorem told_of_step (step : r.step? clock a = some (r', outputs)) (told : r.phase ≠ .running) :
    r'.phase ≠ .running := by
  cases advance_of_step step with
  | stays same =>
    rw [same]
    exact told
  | stop before => exact absurd before told
  | close _ _ now | join _ now | stopped _ now =>
    rw [now]
    exact nofun
  | letGo _ now => rcases now with now | now <;> rw [now] <;> exact nofun

theorem own_cases (idle : r.handlings = []) (own : a ∈ r.ownActions) :
    (∃ i j, a ∈ turns i j) ∨ a = .closePools ∨ a = .join := by
  rw [ownActions, idle, List.flatMap_nil, List.nil_append, List.mem_append] at own
  obtain turn | whole := own
  · obtain ⟨⟨i, j⟩, -, turn⟩ := List.mem_flatMap.mp turn
    exact .inl ⟨i, j, turn⟩
  · exact .inr (by simpa using whole)

/-- Nobody takes a job from an empty lane, so workers have less to do after whatever they do. -/
theorem Vacant.turn (vacant : r.Vacant) (step : r.step? clock a = some (r', outputs))
    (turn : a ∈ turns i j) : r'.toStop < r.toStop ∧ ∀ o ∈ outputs, o.hushed = true := by
  obtain ⟨s, route, past, runs⟩ := vacant.runs
  have sound := sound_of_runs runs
  rcases mem_turns.mp turn with rfl | rfl | rfl
  · obtain ⟨p, job, p', hp, taken, -⟩ := take?_cases step
    obtain ⟨l, l', hl, -, taken, -⟩ := Pool.take?_eq_some.mp taken
    have jobs := Lane.jobs_take? taken
    rw [vacant.empty (lane?_eq_some.mpr ⟨p, hp, hl⟩)] at jobs
    obtain ⟨-, -, q, -, rfl⟩ := Lane.take?_eq_some.mp taken
    cases jobs
  · obtain ⟨rfl, p, refused, p', hp, drained, rfl⟩ := drain?_cases step
    obtain ⟨l, l', hl, -, closed, rfl⟩ := Pool.drain?_eq_some.mp drained
    refine ⟨?_, fun o ho ↦ by cases ho⟩
    exact toStop_setLane hp hl (Lane.toGo_drain? (sound.pools hp hl) closed)
      (loseJobs_pools ..) (loseJobs_phase ..)
  · obtain ⟨p, p', hp, retired, rfl, rfl⟩ := retire?_cases step
    obtain ⟨l, l', hl, ended, rfl⟩ := Pool.end?_eq_some.mp retired
    refine ⟨toStop_setLane hp hl (Lane.toGo_end? ended) rfl rfl, fun o ho ↦ ?_⟩
    rw [List.mem_singleton.mp ho]
    rfl

theorem toStop_of_closePools (step : r.closePools? = some (r', outputs)) :
    r'.toStop < r.toStop ∧ ∀ o ∈ outputs, o.hushed = true := by
  obtain ⟨finishing, -, rfl, rfl⟩ := closePools?_eq_some.mp step
  constructor
  · have pools : ((r.pools.map fun p ↦ { p with closing := true }).map Pool.toGo).sum =
        (r.pools.map Pool.toGo).sum := by
      rw [List.map_map]
      rfl
    simp only [toStop, stages, pools, finishing]
    omega
  · intro o ho
    obtain ⟨p, -, rfl⟩ := List.mem_map.mp ho
    rfl

theorem toStop_of_join (step : r.join? = some (r', outputs)) :
    r'.toStop < r.toStop ∧ ∀ o ∈ outputs, o.hushed = true := by
  obtain ⟨last, rfl, rfl⟩ | ⟨place, rest, next, rfl, told⟩ := join?_cases step
  · constructor
    · simp [toStop, stages, last]
    · simp [Output.hushed]
  · constructor
    · simp [toStop, stages, next]
    · rcases told with ⟨-, rfl⟩ | ⟨-, rfl⟩ <;> simp [Output.hushed]

/-- **Whatever such a route does by itself brings its end nearer**, and nobody gets an answer. -/
theorem Vacant.own (vacant : r.Vacant) (next : r.next? clock = some (r', outputs)) :
    r'.Vacant ∧ r'.toStop < r.toStop ∧ ∀ o ∈ outputs, o.hushed = true := by
  obtain ⟨a, mem, step⟩ := List.exists_of_findSome?_eq_some next
  obtain ⟨i, j, turn⟩ | rfl | rfl := own_cases vacant.idle mem
  · rcases mem_turns.mp turn with rfl | rfl | rfl
    · exact ⟨vacant.step step nofun nofun, vacant.turn step turn⟩
    · exact ⟨vacant.step step nofun nofun, vacant.turn step turn⟩
    · exact ⟨vacant.step step nofun nofun, vacant.turn step turn⟩
  · exact ⟨vacant.step step nofun nofun, toStop_of_closePools step⟩
  · exact ⟨vacant.step step nofun nofun, toStop_of_join step⟩

theorem Vacant.stop (vacant : r.Vacant) (stops : r.stop? = some (r', outputs)) :
    r'.Vacant ∧ r'.phase = .finishing ∧ r'.toStop < r.toStop ∧ ∀ o ∈ outputs, o.hushed = true := by
  have step : r.step? ⟨0, 0⟩ .stop = some (r', outputs) := stops
  have vacant' := vacant.step step nofun nofun
  obtain ⟨running, rfl, rfl⟩ := stop?_eq_some.mp stops
  refine ⟨vacant', rfl, ?_, by simp [Output.hushed]⟩
  simp only [toStop, stages, running]
  exact Nat.add_lt_add_left (Nat.lt_succ_self (r.workerPlaces.length + 2)) _

/-- **A route that was told to stop has something to do until it has stopped.** -/
theorem Vacant.stopped_of_still (vacant : r.Vacant) (told : r.phase ≠ .running)
    (still : r.next? clock = none) : r.phase = .stopped := by
  have cannot {a : Action} (own : a ∈ r.ownActions) : (r.step? clock a).isSome ≠ true :=
    fun can ↦ next?_ne_none own can still
  cases phase : r.phase with
  | running => exact absurd phase told
  | finishing =>
    have own : .closePools ∈ r.ownActions := List.mem_append_right _ List.mem_cons_self
    refine absurd ?_ (cannot own)
    simp [step?, closePools?, phase, vacant.idle]
  | joining places =>
    obtain ⟨s, route, past, runs⟩ := vacant.runs
    have toJoin := toJoin_of_runs runs phase
    cases places with
    | nil =>
      refine absurd ?_ (cannot join_mem_ownActions)
      simp [step?, join?, phase]
    | cons place rest =>
      obtain ⟨i, j⟩ := place
      obtain ⟨l, hl⟩ := toJoin.lane List.mem_cons_self
      cases gone : l.gone with
      | true => exact absurd (join_of_gone phase hl gone clock) (cannot join_mem_ownActions)
      | false =>
        -- the worker has something to do, since its hands are free
        have free : l.inHand = none := by
          have nothing := (List.append_eq_nil_iff.mp (vacant.empty hl)).1
          simpa using nothing
        obtain ⟨a, turn, can⟩ := exists_worker_turn ((sound_of_runs runs).lane hl) free gone i j
        exact absurd (can clock hl toJoin.closing) (cannot (mem_ownActions_of_turn hl turn))
  | stopped => rfl
  | forsaken => exact absurd phase vacant.kept.1
  | released => exact absurd phase vacant.kept.2

end Running

end MessageBridge
