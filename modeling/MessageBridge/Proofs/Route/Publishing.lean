import MessageBridge.Proofs.Lane.Hands
import MessageBridge.Proofs.Route.Loss

/-!
# What becomes of a publish

A publish that a worker has begun ends in one of two ways: the bus answers it, or the worker crashes
over it. In between it is in the hand of the worker. So of the publishes of a call to a destination
as many have been answered or crashed over as are not in hand any more, whatever else the route is
busy with: `Running.publishes_of_runs`.

A crash takes the job away from its leg, which ends, so a message that is handled meets at most one
of them at each destination.
-/

namespace MessageBridge.Running

variable {s : EngineSettings} {route : CompiledRoute} {past : Past} {r r' : Running} {clock : Clock}
  {a : Action} {outputs : List Output} {c d i j : Nat} {h h' : Handling} {leg leg' : Leg}

/-! ## Crashes over a publish -/

/-- The publishes of a call to a destination over which a worker crashes when something happens. -/
def crashedOver (call d : Nat) (r : Running) : Action → List Message
  | .crash i j =>
    match r.inHand? i j with
    | some job => if i = d ∧ job.call = call then [job.message] else []
    | none => []
  | _ => []

/-- The publishes of a call to a destination over which a worker crashed. -/
def crashes (call d : Nat) (past : Past) : List Message :=
  past.flatMap fun mo ↦ mo.before.crashedOver call d mo.action.2

theorem crashes_append (call d : Nat) (past later : Past) :
    crashes call d (past ++ later) = crashes call d past ++ crashes call d later :=
  List.flatMap_append

theorem crashes_concat (call d : Nat) (past : Past) (mo) :
    crashes call d (past ++ [mo]) =
      crashes call d past ++ mo.before.crashedOver call d mo.action.2 := by
  rw [crashes, List.flatMap_append, List.flatMap_singleton]
  rfl

theorem crashedOver_of_calm (calm : ∀ i j, a ≠ .crash i j) (call d : Nat) :
    r.crashedOver call d a = [] := by
  cases a with
  | crash i j => exact absurd rfl (calm i j)
  | _ => rfl

theorem crashedOver_of_hand {job : Job} (hand : r.inHand? i j = some job) (call d : Nat) :
    r.crashedOver call d (.crash i j) = if i = d ∧ job.call = call then [job.message] else [] := by
  rw [crashedOver, hand]

theorem hand_of_crashedOver (crash : r.crashedOver c d a ≠ []) :
    ∃ j job, a = .crash d j ∧ r.inHand? d j = some job ∧ job.call = c ∧
      r.crashedOver c d a = [job.message] := by
  cases a with
  | crash i j =>
    cases hand : r.inHand? i j with
    | none =>
      rw [crashedOver, hand] at crash
      exact absurd rfl crash
    | some job =>
      rw [crashedOver_of_hand hand] at crash ⊢
      by_cases mine : i = d ∧ job.call = c
      · obtain ⟨rfl, rfl⟩ := mine
        exact ⟨j, job, rfl, hand, rfl, if_pos ⟨rfl, rfl⟩⟩
      · rw [if_neg mine] at crash
        exact absurd rfl crash
  | _ => exact absurd rfl crash

theorem crashedOver_eq_nil (jobs : r.jobsOf c d = []) (a : Action) : r.crashedOver c d a = [] := by
  by_contra crash
  obtain ⟨j, job, -, hand, mine, -⟩ := hand_of_crashedOver crash
  have mem : job ∈ r.jobsOf c d :=
    List.mem_filter.mpr ⟨mem_jobs_of_inHand? hand, by simpa using mine⟩
  rw [jobs] at mem
  exact absurd mem List.not_mem_nil

theorem crashes_of_idle {later : Past} (idle : ∀ mo ∈ later, mo.before.jobsOf c d = []) :
    crashes c d later = [] := by
  apply List.flatMap_eq_nil_iff.mpr
  intro mo hmo
  exact crashedOver_eq_nil (idle mo hmo) mo.action.2

theorem inHand?_of_crash? {p p' : Pool Job} {lost : List Job} (hp : r.pools[i]? = some p)
    (crashed : p.crash? j = some (lost, p')) :
    ∃ l job, p.lanes[j]? = some l ∧ l.inHand = some job ∧ r.inHand? i j = some job ∧
      job ∈ lost := by
  obtain ⟨l, l', hl, here, -⟩ := Pool.crash?_eq_some.mp crashed
  obtain ⟨job, hand, rfl, -⟩ := Lane.crash?_eq_some.mp here
  refine ⟨l, job, hl, hand, ?_, List.mem_cons_self⟩
  rw [inHand?, hp, Option.bind_some, hl, Option.bind_some, hand]

/-! ## Publishes in hand -/

/-- The number of jobs of a call to a destination in the hands of the workers. -/
def held (c d : Nat) (r : Running) : Nat := ((r.pools[d]?).map (Pool.held (·.call == c))).getD 0

theorem held_le (c d : Nat) (r : Running) : r.held c d ≤ (r.jobsOf c d).length := by
  rw [held, jobsOf, jobs, ← List.countP_eq_length_filter]
  cases r.pools[d]? with
  | none => exact Nat.zero_le _
  | some p => exact p.held_le _

theorem held_of_pool {p : Pool Job} (hp : r.pools[d]? = some p) (c : Nat) :
    r.held c d = p.held (·.call == c) := by
  rw [held, hp]
  rfl

theorem held_of_set {p p' : Pool Job} (hp : r.pools[d]? = some p)
    (h : r'.pools = r.pools.set d p') (c : Nat) : r'.held c d = p'.held (·.call == c) := by
  obtain ⟨hd, -⟩ := List.getElem?_eq_some_iff.mp hp
  exact held_of_pool (by rw [h, List.getElem?_set_self hd]) c

theorem held_ofRoute (s : EngineSettings) (route : CompiledRoute) (c d : Nat) :
    (ofRoute s route).held c d = 0 := by
  rw [held, ofRoute, List.getElem?_map, Option.map_map]
  cases route.destinations[d]? with
  | none => rfl
  | some dest => exact Pool.held_ofSettings _ s dest

theorem PoolStep.held_eq {p p' : Pool Job} (sees : PoolStep r d a p p')
    (takes : ∀ j, a ≠ .take d j) (replies : ∀ j x, a ≠ .reply d j x)
    (calm : ∀ j, a ≠ .crash d j) (mine : Job → Bool) : p'.held mine = p.held mine := by
  cases sees with
  | same => rfl
  | submit => exact Pool.held_submit _ _ p
  | take => exact absurd rfl (takes _)
  | finish => exact absurd rfl (replies _ _)
  | crash => exact absurd rfl (calm _)
  | drain step => exact Pool.held_drain? _ step
  | retire step => exact Pool.held_end? _ step
  | leave => exact Pool.held_withdraw _ _ p
  | close => rfl
  | release => exact Pool.held_release _ p

/-- Only a worker that takes a job, hears from the bus or crashes changes what is in hand. -/
theorem held_of_quiet (step : r.step? clock a = some (r', outputs)) (takes : ∀ j, a ≠ .take d j)
    (replies : ∀ j x, a ≠ .reply d j x) (calm : ∀ j, a ≠ .crash d j) (c : Nat) :
    r'.held c d = r.held c d := by
  obtain ⟨length, sees⟩ := poolSteps_of_step step
  cases hp' : r'.pools[d]? with
  | none =>
    have hp : r.pools[d]? = none := by
      rw [List.getElem?_eq_none_iff] at hp' ⊢
      rwa [← length]
    rw [held, held, hp, hp']
  | some p' =>
    obtain ⟨p, hp, seen⟩ := sees hp'
    rw [held_of_pool hp, held_of_pool hp', seen.held_eq takes replies calm]

/-! ## Every publish is in hand, answered or crashed over -/

/-- Only a worker that takes a job begins to publish. -/
theorem no_publish_of_idle (step : r.step? clock a = some (r', outputs))
    (idle : ∀ i j, a ≠ .take i j) (c d : Nat) :
    outputs.filterMap (Output.publish? c d) = [] := by
  rw [List.filterMap_eq_nil_iff]
  intro o told
  cases o with
  | publish i j c' m => exact absurd (caused_of_step step _ told).1 (idle i j)
  | _ => rfl

/-- An event and a publish tell one publish. -/
private theorem publish?_pair (topic : Topic) (e : Event) (call : Nat) (m : Message) :
    [Output.event topic e, .publish i j call m].filterMap (Output.publish? c d) =
      if i = d ∧ call = c then [m] else [] := by
  rw [List.filterMap_cons_none rfl]
  by_cases mine : i = d ∧ call = c
  · have this_one : Output.publish? c d (.publish i j call m) = some m := if_pos mine
    rw [List.filterMap_cons_some this_one, List.filterMap_nil, if_pos mine]
  · have another : Output.publish? c d (.publish i j call m) = none := if_neg mine
    rw [List.filterMap_cons_none another, List.filterMap_nil, if_neg mine]

/-- What a step begins to publish comes into a hand, and what it ends leaves one. -/
theorem publishes_of_step (step : r.step? clock a = some (r', outputs)) (c d : Nat) :
    (outputs.filterMap (Output.publish? c d)).length + r.held c d =
      (r.heard c d (clock, a)).length + (r.crashedOver c d a).length + r'.held c d := by
  cases a with
  | take i j =>
    obtain ⟨p, job, p', hp, taken, rfl, rfl⟩ := take?_cases step
    rw [heard_of_silent (by simp), crashedOver_of_calm (by simp), publish?_pair]
    by_cases here : i = d
    · subst here
      have more := Pool.held_take? (·.call == c) taken
      rw [held_of_pool hp, held_of_set hp rfl, more]
      by_cases mine : job.call = c
      · simp [mine, Nat.add_comm]
      · simp [mine]
    · rw [held_of_quiet step (by simp [here]) (by simp) (by simp)]
      simp [here]
  | reply i j answer =>
    obtain ⟨p, job, p', hp, finished, claimed⟩ := reply?_cases step
    rw [no_publish_of_idle step (by simp), crashedOver_of_calm (by simp),
      heard_of_hand (inHand?_of_finish? hp finished)]
    by_cases here : i = d
    · subst here
      have set : r'.pools = r.pools.set i p' := by
        rcases claimed with ⟨_, _, -, -, -, rfl, -⟩ | ⟨-, rfl, -⟩ <;> rfl
      have fewer := Pool.held_finish? (·.call == c) finished
      rw [held_of_pool hp, held_of_set hp set, fewer]
      by_cases mine : job.call = c
      · simp [mine, Nat.add_comm]
      · simp [mine]
    · rw [held_of_quiet step (by simp) (by simp [here]) (by simp)]
      simp [here]
  | crash i j =>
    obtain ⟨-, p, lost, p', hp, crashed, rfl⟩ := crash?_cases step
    obtain ⟨l, job, hl, hand, in_hand, -⟩ := inHand?_of_crash? hp crashed
    rw [no_publish_of_idle step (by simp), heard_of_silent (by simp), crashedOver_of_hand in_hand]
    by_cases here : i = d
    · subst here
      have fewer := Pool.held_crash? (·.call == c) crashed hl hand
      rw [held_of_pool hp, held_of_set hp (loseJobs_pools ..), fewer]
      by_cases mine : job.call = c
      · simp [mine, Nat.add_comm]
      · simp [mine]
    · rw [held_of_quiet step (by simp) (by simp) (by simp [here])]
      simp [here]
  | _ =>
    rw [no_publish_of_idle step (by simp), heard_of_silent (by simp),
      crashedOver_of_calm (by simp), held_of_quiet step (by simp) (by simp) (by simp)]
    simp

/-- **Every publish is in hand, answered or crashed over.** -/
theorem publishes_of_runs (runs : Runs s route past r) (c d : Nat) :
    (publishes c d past).length =
      (replies c d past).length + (crashes c d past).length + r.held c d := by
  induction runs with
  | refl =>
    rw [held_ofRoute]
    rfl
  | @snoc past r r' act outputs _ step ih =>
    rcases act with ⟨clock, a⟩
    have step : r.step? clock a = some (r', outputs) := step
    have one := publishes_of_step step c d
    rw [publishes_concat, replies_concat, crashes_concat, List.length_append, List.length_append,
      List.length_append, ih]
    dsimp only
    omega

/-! ## At most one crash -/

theorem leg_of_crashedOver (sound : r.Sound) (step : r.step? clock a = some (r', outputs))
    (crash : r.crashedOver c d a ≠ []) (found : r.handling? c = some h)
    (here : h.legs[d]? = some leg) (found' : r'.handling? c = some h')
    (here' : h'.legs[d]? = some leg') : leg.phase = .submitted ∧ leg' = leg.lose := by
  obtain ⟨j, job, rfl, hand, mine, -⟩ := hand_of_crashedOver crash
  obtain ⟨submitted, -⟩ := sound.job_of_mem found here (mem_jobs_of_inHand? hand) mine
  obtain ⟨-, p, lost, p', hp, crashed, rfl⟩ := crash?_cases step
  obtain ⟨l, job', -, -, hand', mem⟩ := inHand?_of_crash? hp crashed
  rw [hand] at hand'
  cases hand'
  have among : c ∈ lost.map Job.call := List.mem_map.mpr ⟨job, mem, mine⟩
  rw [handling?_loseJobs, handling?_setPool, found, Option.map_some, if_pos among] at found'
  cases found'
  rw [Handling.getElem?_loseAt here, if_pos rfl] at here'
  cases here'
  exact ⟨submitted, rfl⟩

theorem crashes_of_new (runs : Runs s route past r) (new : r.nextCall ≤ c) (d : Nat) :
    crashes c d past = [] := by
  have all := publishes_of_runs runs c d
  rw [(untouched_of_new runs new).publishes d, List.length_nil] at all
  exact List.eq_nil_of_length_eq_zero (by omega)

/-- **A handled message meets one crash at most at each destination, which ends its leg.** -/
theorem crashes_of_handled (runs : Runs s route past r) (found : r.handling? c = some h)
    (here : h.legs[d]? = some leg) :
    (crashes c d past).length ≤ 1 ∧
      (crashes c d past ≠ [] → leg.phase = .settled (.failed .laneClosed)) := by
  induction runs generalizing h leg with
  | refl => cases found
  | @snoc past r r' act outputs runs step ih =>
    rcases act with ⟨clock, a⟩
    have sound := sound_of_runs runs
    rw [crashes_concat]
    obtain ⟨h₀, leg₀, found₀, here₀, -, sees⟩ | ⟨rfl, m, rfl⟩ := sound.leg_of_step step found here
    · obtain ⟨at_most, ended⟩ := ih found₀ here₀
      by_cases calm : r.crashedOver c d a = []
      · -- whatever the leg does now, it has not ended before
        rw [calm, List.append_nil]
        refine ⟨at_most, fun met ↦ ?_⟩
        have lost := ended met
        cases sees with
        | same => exact lost
        | submit other => exact absurd (other.symm.trans lost) nofun
        | refuse other => exact absurd (other.symm.trans lost) nofun
        | wake other => exact absurd (other.symm.trans lost) nofun
        | breakOff other => exact absurd (other.symm.trans lost) nofun
        | reply other => exact absurd (other.symm.trans lost) nofun
        | crash other => exact absurd (other.symm.trans lost) nofun
        | drain other => exact absurd (other.symm.trans lost) nofun
      · obtain ⟨submitted, rfl⟩ := leg_of_crashedOver sound step calm found₀ here₀ found here
        obtain ⟨j, job, -, -, -, one⟩ := hand_of_crashedOver calm
        have none_before : crashes c d past = [] := by
          by_contra met
          exact absurd (submitted.symm.trans (ended met)) nofun
        rw [none_before, one]
        exact ⟨Nat.le_refl 1, fun _ ↦ Leg.phase_lose submitted⟩
    · have nothing := crashes_of_new runs (arrival_cases step).1 d
      rw [nothing, crashedOver_of_calm (by simp)]
      exact ⟨Nat.zero_le 1, fun met ↦ absurd rfl met⟩

end MessageBridge.Running
