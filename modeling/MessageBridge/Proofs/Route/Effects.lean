import MessageBridge.Proofs.Route.Steps

/-!
# The effects of a step

However many actions there are, what is under way in a running route changes in eight ways: a
handling begins or leaves, one leg moves on by itself or with an answer, an answer finds nobody,
jobs of one destination are lost, the lanes are released, or nothing happens to handlings and jobs
at all. `Running.effect_of_step` sorts the steps into these, so that invariants over handlings and
jobs are proved for eight cases and survive new actions.

Jobs are counted per destination and compared up to their order.
-/

open scoped List

namespace MessageBridge

namespace Running

variable {clock : Clock} {r r' : Running} {outputs : List Output}

/-! ## Jobs on their way -/

/-- All jobs on their way to a destination. -/
def jobs (d : Nat) (r : Running) : List Job := ((r.pools[d]?).map Pool.jobs).getD []

/-- The job that a worker has in hand. -/
def inHand? (i j : Nat) (r : Running) : Option Job :=
  (r.pools[i]?).bind fun p ↦ (p.lanes[j]?).bind Lane.inHand

theorem jobs_of_pool {d : Nat} {p : Pool Job} (hp : r.pools[d]? = some p) : r.jobs d = p.jobs := by
  rw [jobs, hp]
  rfl

theorem jobs_of_pools_eq (h : r'.pools = r.pools) (d : Nat) : r'.jobs d = r.jobs d := by
  rw [jobs, jobs, h]

theorem jobs_of_set_self {d : Nat} {p p' : Pool Job} (hp : r.pools[d]? = some p)
    (h : r'.pools = r.pools.set d p') : r'.jobs d = p'.jobs := by
  obtain ⟨hd, -⟩ := List.getElem?_eq_some_iff.mp hp
  exact jobs_of_pool (by rw [h, List.getElem?_set_self hd])

theorem jobs_of_set_ne {d i : Nat} {p' : Pool Job} (h : r'.pools = r.pools.set d p') (hi : i ≠ d) :
    r'.jobs i = r.jobs i := by
  rw [jobs, jobs, h, List.getElem?_set_ne (Ne.symm hi)]

theorem jobs_of_map {f : Pool Job → Pool Job} (h : r'.pools = r.pools.map f) (d : Nat) :
    r'.jobs d = ((r.pools[d]?).map fun p ↦ (f p).jobs).getD [] := by
  rw [jobs, h, List.getElem?_map, Option.map_map]
  rfl

theorem jobs_sublist_of_map {f : Pool Job → Pool Job} (h : r'.pools = r.pools.map f)
    (sub : ∀ p : Pool Job, (f p).jobs.Sublist p.jobs) (d : Nat) :
    (r'.jobs d).Sublist (r.jobs d) := by
  rw [jobs_of_map h, jobs]
  cases r.pools[d]? with
  | none => exact .refl _
  | some p => exact sub p

theorem inHand?_of_finish? {i j : Nat} {p p' : Pool Job} {job : Job} (hp : r.pools[i]? = some p)
    (finished : p.finish? j = some (job, p')) : r.inHand? i j = some job := by
  obtain ⟨l, l', hl, done, -⟩ := Pool.finish?_eq_some.mp finished
  rw [inHand?, hp, Option.bind_some, hl, Option.bind_some]
  exact (Lane.finish?_eq_some.mp done).1

theorem mem_jobs_of_inHand? {i j : Nat} {job : Job} (hand : r.inHand? i j = some job) :
    job ∈ r.jobs i := by
  obtain ⟨p, hp, hand⟩ := Option.bind_eq_some_iff.mp hand
  obtain ⟨l, hl, hand⟩ := Option.bind_eq_some_iff.mp hand
  rw [jobs_of_pool hp]
  refine Pool.mem_jobs hl (List.mem_append_left _ ?_)
  rw [hand]
  exact List.mem_singleton_self job

end Running

/-- The job that a leg waits for. -/
def Leg.awaits (job : Job) (leg : Leg) : List Job := if leg.phase = .submitted then [job] else []

theorem Leg.awaits_of_submitted {leg : Leg} (h : leg.phase = .submitted) (job : Job) :
    leg.awaits job = [job] := if_pos h

theorem Leg.awaits_of_ne {leg : Leg} (h : leg.phase ≠ .submitted) (job : Job) :
    leg.awaits job = [] := if_neg h

theorem Leg.phase_answer_ne (plan : RetryPlan) (now : Nat) (age : Option Int) (leg : Leg)
    (a : JobAnswer) : (leg.answer plan now age a).phase ≠ .submitted := by
  cases a with
  | published => exact nofun
  | lost => exact nofun
  | refused e =>
    unfold Leg.answer
    simp only
    split <;> exact nofun

/-! ## Effects -/

namespace Running

/-- What a step does to handlings and jobs. -/
inductive Effect (clock : Clock) (r : Running) : Action → Running → Prop where
  | quiet {a : Action} {r' : Running}
      (handlings : ∀ c, r'.handling? c = r.handling? c) (jobs : ∀ d, r'.jobs d ~ r.jobs d)
      (silent : ∀ i j x, a ≠ .reply i j x) : Effect clock r a r'
  | begun {call : Nat} {m m' : Message} {r' : Running}
      (running : r.cancelled = false) (passed : (r.route.prepare clock.wall m).outcome = .ok m')
      (handlings : ∀ c, r'.handling? c =
        (r.handling? c).or (if c = call then some (r.freshHandling call m') else none))
      (jobs : ∀ d, r'.jobs d = r.jobs d) : Effect clock r (.handle call m) r'
  | moved {a : Action} {call d : Nat} {h : Handling} {leg leg' : Leg} {r' : Running}
      (found : r.handling? call = some h) (here : h.legs[d]? = some leg)
      (step : Leg.Step r.plan h.message [] leg leg')
      (handlings : ∀ c, r'.handling? c =
        if c = call then some (h.withLeg d leg') else r.handling? c)
      (jobs : r'.jobs d ++ leg.awaits ⟨call, h.message⟩ ~ leg'.awaits ⟨call, h.message⟩ ++ r.jobs d)
      (others : ∀ i, i ≠ d → r'.jobs i = r.jobs i)
      (silent : ∀ i j x, a ≠ .reply i j x) : Effect clock r a r'
  | answered {i j : Nat} {answer : Except BusError Unit} {job : Job} {h : Handling} {leg : Leg}
      {r' : Running} (hand : r.inHand? i j = some job)
      (found : r.handling? job.call = some h) (here : h.legs[i]? = some leg)
      (submitted : leg.phase = .submitted)
      (handlings : ∀ c, r'.handling? c = if c = job.call then
        some (h.withLeg i
          (leg.answer r.plan clock.now (h.message.age? clock.wall) (jobAnswer answer)))
        else r.handling? c)
      (jobs : r.jobs i ~ job :: r'.jobs i) (others : ∀ d, d ≠ i → r'.jobs d = r.jobs d) :
      Effect clock r (.reply i j answer) r'
  | unclaimed {i j : Nat} {answer : Except BusError Unit} {job : Job} {r' : Running}
      (hand : r.inHand? i j = some job)
      (nobody : ∀ h leg, r.handling? job.call = some h → h.legs[i]? = some leg →
        leg.phase ≠ .submitted)
      (handlings : ∀ c, r'.handling? c = r.handling? c)
      (jobs : r.jobs i ~ job :: r'.jobs i) (others : ∀ d, d ≠ i → r'.jobs d = r.jobs d) :
      Effect clock r (.reply i j answer) r'
  | shed {a : Action} {d : Nat} {gone : List Job} {r' : Running}
      (handlings : ∀ c, r'.handling? c =
        (r.handling? c).map fun h ↦ if c ∈ gone.map Job.call then h.loseAt d else h)
      (jobs : r.jobs d ~ gone ++ r'.jobs d) (others : ∀ i, i ≠ d → r'.jobs i = r.jobs i)
      (silent : ∀ i j x, a ≠ .reply i j x) : Effect clock r a r'
  | left {a : Action} {call : Nat} {h : Handling} {r' : Running}
      (which : a = .abandon call ∨ a = .resolve call) (found : r.handling? call = some h)
      (handlings : ∀ c, r'.handling? c = if c = call then none else r.handling? c)
      (kept : ∀ c d, c ≠ call → (r'.jobs d).filter (·.call == c) = (r.jobs d).filter (·.call == c))
      (jobs : ∀ d, (r'.jobs d).Sublist (r.jobs d)) : Effect clock r a r'
  | released {r' : Running} (handlings : ∀ c, r.handling? c = none ∧ r'.handling? c = none)
      (jobs : ∀ d, (r'.jobs d).Sublist (r.jobs d)) : Effect clock r .release r'

/-! ## Sorting the steps -/

private theorem effect_of_same {a : Action} (handlings : r'.handlings = r.handlings)
    (pools : r'.pools = r.pools) (silent : ∀ i j x, a ≠ .reply i j x) : Effect clock r a r' :=
  .quiet (fun c ↦ by rw [handling?, handling?, handlings])
    (fun d ↦ .of_eq (jobs_of_pools_eq pools d)) silent

private theorem effect_of_pool {a : Action} {d : Nat} {p p' : Pool Job}
    (hp : r.pools[d]? = some p) (handlings : r'.handlings = r.handlings)
    (pools : r'.pools = r.pools.set d p') (jobs : p'.jobs ~ p.jobs)
    (silent : ∀ i j x, a ≠ .reply i j x) : Effect clock r a r' := by
  refine .quiet (fun c ↦ by rw [handling?, handling?, handlings]) (fun i ↦ ?_) silent
  by_cases hi : i = d
  · rw [hi, jobs_of_set_self hp pools, jobs_of_pool hp]
    exact jobs
  · exact .of_eq (jobs_of_set_ne pools hi)

private theorem effect_of_leg {a : Action} {call d : Nat} {h : Handling} {leg leg' : Leg}
    (found : r.handling? call = some h) (here : h.legs[d]? = some leg)
    (step : Leg.Step r.plan h.message [] leg leg') (before : leg.phase ≠ .submitted)
    (after : leg'.phase ≠ .submitted) (silent : ∀ i j x, a ≠ .reply i j x) :
    Effect clock r a (r.setLeg call d leg') := by
  refine .moved found here step (fun c ↦ ?_) ?_ (fun i _ ↦ rfl) silent
  · rw [handling?_setLeg]
    split
    · rename_i same
      rw [same, found]
      rfl
    · exact Option.map_id'
  · rw [leg.awaits_of_ne before, leg'.awaits_of_ne after, List.append_nil]
    exact .refl _

private theorem effect_of_lost {a : Action} {d : Nat} {p p' : Pool Job} {gone : List Job}
    (hp : r.pools[d]? = some p) (jobs : p.jobs ~ gone ++ p'.jobs)
    (silent : ∀ i j x, a ≠ .reply i j x) :
    Effect clock r a ((r.setPool d p').loseJobs clock d gone) := by
  have pools : ((r.setPool d p').loseJobs clock d gone).pools = r.pools.set d p' :=
    loseJobs_pools ..
  refine .shed (fun c ↦ handling?_loseJobs ..) ?_ (fun i hi ↦ jobs_of_set_ne pools hi) silent
  rw [jobs_of_pool hp, jobs_of_set_self hp pools]
  exact jobs

private theorem effect_of_leaving {a : Action} {call : Nat} {h : Handling}
    (which : a = .abandon call ∨ a = .resolve call) (found : r.handling? call = some h) :
    Effect clock r a (r.withoutHandling call) := by
  have pools : (r.withoutHandling call).pools =
      r.pools.map (Pool.withdraw fun j ↦ j.call == call) := rfl
  refine .left which found (handling?_withoutHandling call) (fun c d hc ↦ ?_)
    (jobs_sublist_of_map pools (Pool.jobs_withdraw_sublist _))
  rw [jobs_of_map pools, jobs]
  cases r.pools[d]? with
  | none => rfl
  | some p =>
    refine Pool.filter_jobs_withdraw (fun j keeps ↦ ?_) p
    rw [beq_iff_eq] at keeps
    rw [keeps]
    exact beq_eq_false_iff_ne.mpr hc

/-- **Every step has one of the eight effects.** -/
theorem effect_of_step {a : Action} (step : r.step? clock a = some (r', outputs)) :
    Effect clock r a r' := by
  cases a with
  | handle call m =>
    obtain ⟨-, ⟨-, rfl, -⟩ | ⟨_, -, -, rfl, -⟩ | ⟨m', running, passed, rfl, -⟩⟩ :=
      handle?_cases step
    · exact effect_of_same rfl rfl (by simp)
    · exact effect_of_same rfl rfl (by simp)
    · exact .begun running passed (handling?_concat rfl) (fun d ↦ rfl)
  | abandon call =>
    obtain ⟨⟨h, found⟩, rfl, -⟩ := abandon_eq_some.mp step
    exact effect_of_leaving (.inl rfl) found
  | submit call d =>
    obtain ⟨-, h, leg, p, found, here, ready, hp, ⟨taken, rfl⟩ | ⟨refused, rfl⟩⟩ :=
      submit?_cases step
    · have pools : ((r.setLeg call d leg.submit).setPool d (p.submit ⟨call, h.message⟩).1).pools =
          r.pools.set d (p.submit ⟨call, h.message⟩).1 := rfl
      refine .moved found here (.submit ready) (fun c ↦ ?_) ?_
        (fun i hi ↦ jobs_of_set_ne pools hi) (by simp)
      · rw [handling?_setPool, handling?_setLeg]
        split
        · rename_i same
          rw [same, found]
          rfl
        · exact Option.map_id'
      · rw [leg.awaits_of_ne (by simp [ready]), Leg.awaits_of_submitted rfl,
          List.append_nil, jobs_of_set_self hp pools, jobs_of_pool hp]
        exact Pool.jobs_submit_true taken
    · -- a refused submission is lost at once, so the leg ends where it would have begun to wait
      have pools : (((r.setLeg call d leg.submit).setPool d
          (p.submit ⟨call, h.message⟩).1).loseJobs clock d [⟨call, h.message⟩]).pools =
          r.pools.set d (p.submit ⟨call, h.message⟩).1 := loseJobs_pools ..
      refine .moved found here (.refuse ready) (fun c ↦ ?_) ?_
        (fun i hi ↦ jobs_of_set_ne pools hi) (by simp)
      · rw [handling?_loseJobs, handling?_setPool, handling?_setLeg, Option.map_map]
        by_cases hc : c = call
        · have there : (h.withLeg d leg.submit).legs[d]? = some leg.submit :=
            List.getElem?_set_self (List.getElem?_eq_some_iff.mp here).1
          simp only [hc, found, Option.map_some, Function.comp, List.map_cons, List.map_nil,
            List.mem_singleton, if_true]
          rw [Handling.loseAt_eq_set there]
          simp [Handling.withLeg]
        · rw [if_neg hc]
          cases r.handling? c with
          | none => rfl
          | some _ => simp [hc]
      · rw [leg.awaits_of_ne (by simp [ready]),
          Leg.awaits_of_ne leg.submit.phase_lose_ne, List.append_nil, List.nil_append,
          jobs_of_set_self hp pools, jobs_of_pool hp, Pool.jobs_submit_false refused]
  | wake call d =>
    obtain ⟨-, h, leg, due, found, here, waiting, -, rfl⟩ := wake?_cases step
    exact effect_of_leg found here (.wake waiting) (by simp [waiting])
      (by simp) (by simp)
  | breakOff call d =>
    obtain ⟨h, leg, due, found, here, waiting, -, rfl, -⟩ := breakOff?_cases step
    exact effect_of_leg found here (.breakOff waiting) (by simp [waiting])
      (by simp [Leg.settle]) (by simp)
  | resolve call =>
    obtain ⟨h, found, -, rfl, -⟩ := resolve?_cases step
    exact effect_of_leaving (.inr rfl) found
  | take i j =>
    obtain ⟨p, job, p', hp, taken, rfl, -⟩ := take?_cases step
    exact effect_of_pool hp rfl rfl (Pool.jobs_take? taken) (by simp)
  | reply i j answer =>
    obtain ⟨p, job, p', hp, finished, claimed⟩ := reply?_cases step
    have hand := inHand?_of_finish? hp finished
    have set : (r.setPool i p').pools = r.pools.set i p' := rfl
    have jobs : r.jobs i ~ job :: (r.setPool i p').jobs i := by
      rw [jobs_of_set_self hp set, jobs_of_pool hp]
      exact Pool.jobs_finish? finished
    -- the worker is done with the job either way; a leg hears of it only if it still waits
    rcases claimed with ⟨h, leg, found, here, submitted, rfl, -⟩ | ⟨nobody, rfl, -⟩
    · refine .answered hand found here submitted (fun c ↦ ?_) jobs
        (fun d hd ↦ jobs_of_set_ne set hd)
      rw [handling?_setLeg, handling?_setPool]
      split
      · rename_i same
        rw [same, found]
        rfl
      · exact Option.map_id'
    · exact .unclaimed hand nobody (fun c ↦ rfl) jobs (fun d hd ↦ jobs_of_set_ne set hd)
  | crash i j =>
    obtain ⟨-, p, lost, p', hp, crashed, rfl⟩ := crash?_cases step
    exact effect_of_lost hp (Pool.jobs_crash? crashed) (by simp)
  | drain i j =>
    obtain ⟨-, p, refused, p', hp, drained, rfl⟩ := drain?_cases step
    exact effect_of_lost hp (Pool.jobs_drain? drained) (by simp)
  | retire i j =>
    obtain ⟨p, p', hp, ended, rfl, -⟩ := retire?_cases step
    exact effect_of_pool hp rfl rfl (Pool.jobs_end? ended) (by simp)
  | cancel =>
    cases step
    exact effect_of_same rfl rfl (by simp)
  | stop =>
    obtain ⟨-, rfl, -⟩ := stop?_eq_some.mp step
    exact effect_of_same rfl rfl (by simp)
  | closePools =>
    obtain ⟨-, -, rfl, -⟩ := closePools?_eq_some.mp step
    refine .quiet (fun c ↦ rfl) (fun d ↦ .of_eq ?_) (by simp)
    rw [jobs_of_map (f := fun p ↦ { p with closing := true }) rfl]
    rfl
  | join =>
    obtain ⟨-, rfl, -⟩ | ⟨_, _, -, rfl, -⟩ := join?_cases step <;>
      exact effect_of_same rfl rfl (by simp)
  | forsake =>
    cases step
    obtain same | ⟨-, same⟩ := forsake_cases r <;> rw [same] <;>
      exact effect_of_same rfl rfl (by simp)
  | release =>
    obtain ⟨-, none_left, rfl, -⟩ := release?_eq_some.mp step
    -- lanes are released only when no handling is left
    have nobody (c : Nat) : r.handling? c = none := by
      rw [handling?, none_left]
      rfl
    exact .released (fun c ↦ ⟨nobody c, nobody c⟩)
      (jobs_sublist_of_map (f := Pool.release) rfl Pool.jobs_release_sublist)

end Running

end MessageBridge
