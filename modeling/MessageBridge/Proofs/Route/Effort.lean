import Mathlib.Algebra.Order.BigOperators.Group.Finset
import MessageBridge.Proofs.Lane.Load
import MessageBridge.Proofs.Route.Turns

/-!
# What is left to do

Once the token of a route has fired, every call comes to its end. For each call and destination
there is a number that says how far off the end is: five while a wait is over that nobody has
noticed, four before a job is submitted, three while it is in a queue, two while it is in hand, one
during a wait, which is about to be broken off. No step makes one of these numbers grow, and every
step that gets on with a call makes one of them smaller. In between the time may only pass when
nothing can be done, and then nobody waits.
-/

namespace MessageBridge

/-- What a leg still takes at a time, beside its job. -/
def Leg.effort (now : Nat) (leg : Leg) : Nat :=
  match leg.phase with
  | .ready => 4
  | .submitted => 0
  | .waiting due => if due ≤ now then 5 else 1
  | .settled _ => 0

/-- Every wait takes some time. -/
def Backoff.Waits (b : Backoff) : Prop := ∀ failures, 0 < (b.delayAfter failures).millisUp

theorem Leg.effort_answer_le (plan : RetryPlan) (waits : plan.backoff.Waits) (now : Nat)
    (age : Option Int) (leg : Leg) (answer : Except BusError Unit) :
    (leg.answer plan now age (Running.jobAnswer answer)).effort now ≤ 1 := by
  cases answer with
  | ok => exact Nat.zero_le 1
  | error e =>
    simp only [Running.jobAnswer, Leg.answer]
    split
    · exact Nat.zero_le 1
    · have later := waits leg.attempts
      simp only [Leg.effort]
      rw [if_neg (by omega)]

namespace Running

variable {s : EngineSettings} {route : CompiledRoute} {past : Past} {r r' : Running} {clock : Clock}
  {a : Action} {outputs : List Output} {c d i j now : Nat} {h : Handling} {leg leg' : Leg}

/-! ## Jobs -/

/-- What the jobs of a call to a destination still take. -/
def load (c d : Nat) (r : Running) : Nat := ((r.pools[d]?).map (Pool.load (·.call == c))).getD 0

theorem load_of_pool {p : Pool Job} (hp : r.pools[d]? = some p) (c : Nat) :
    r.load c d = p.load (·.call == c) := by
  rw [load, hp]
  rfl

theorem load_le (c d : Nat) (r : Running) : r.load c d ≤ 3 * (r.jobsOf c d).length := by
  rw [load, jobsOf, jobs, ← List.countP_eq_length_filter]
  cases r.pools[d]? with
  | none => exact Nat.zero_le _
  | some p => exact p.load_le _

/-- A worker gets on with a job of a call to a destination. -/
inductive Serves (r : Running) (c d : Nat) : Action → Prop where
  | take {j : Nat} {job : Job} {p p' : Pool Job} (pool : r.pools[d]? = some p)
      (taken : p.take? j = some (job, p')) (mine : job.call = c) : Serves r c d (.take d j)
  | reply {j : Nat} {answer : Except BusError Unit} {job : Job} (hand : r.inHand? d j = some job)
      (mine : job.call = c) : Serves r c d (.reply d j answer)
  | crash {j : Nat} {job : Job} (hand : r.inHand? d j = some job) (mine : job.call = c) :
      Serves r c d (.crash d j)

theorem PoolStep.load_le {p p' : Pool Job} (sees : PoolStep r d a p p') (other : a ≠ .submit c d) :
    p'.load (·.call == c) ≤ p.load (·.call == c) := by
  cases sees with
  | same => exact Nat.le_refl _
  | @submit call h _ found =>
    have not_mine : ¬((call == c) = true) := fun same ↦ other (by rw [beq_iff_eq.mp same])
    exact (Pool.load_submit_le _ _ p).trans_eq (by rw [if_neg not_mine, Nat.add_zero])
  | take step => exact (Pool.load_take? _ step).ge.trans' (Nat.le_add_right _ _)
  | finish step => exact (Pool.load_finish? _ step).ge.trans' (Nat.le_add_right _ _)
  | crash step => exact Pool.load_crash?_le _ step
  | drain step => exact Pool.load_drain?_le _ step
  | retire step => exact (Pool.load_end? _ step).le
  | leave => exact Pool.load_map_le _ (Lane.load_withdraw_le _ _)
  | close => exact Nat.le_refl _
  | release => exact Pool.load_map_le _ (Lane.load_release_le _)

theorem load_le_of_step (step : r.step? clock a = some (r', outputs)) (other : a ≠ .submit c d) :
    r'.load c d ≤ r.load c d := by
  cases hp' : r'.pools[d]? with
  | none =>
    rw [load, hp']
    exact Nat.zero_le _
  | some p' =>
    obtain ⟨p, hp, sees⟩ := (poolSteps_of_step step).2 hp'
    rw [load_of_pool hp, load_of_pool hp']
    exact sees.load_le other

theorem load_le_of_submit (step : r.step? clock (.submit c d) = some (r', outputs)) :
    r'.load c d ≤ r.load c d + 3 := by
  obtain ⟨-, h, leg, p, -, -, -, hp, submitted⟩ := submit?_cases step
  have pools : r'.pools = r.pools.set d (p.submit ⟨c, h.message⟩).1 := by
    obtain ⟨-, rfl⟩ | ⟨-, rfl⟩ := submitted
    · rfl
    · exact loseJobs_pools ..
  have hp' : r'.pools[d]? = some (p.submit ⟨c, h.message⟩).1 := by
    rw [pools, List.getElem?_set_self (List.getElem?_eq_some_iff.mp hp).1]
  rw [load_of_pool hp, load_of_pool hp']
  refine (Pool.load_submit_le _ _ p).trans (Nat.add_le_add_left ?_ _)
  split <;> omega

/-- The load of a call at a destination gets smaller when a worker gets on with it, by two when its
publish is answered. -/
theorem load_of_serves (step : r.step? clock a = some (r', outputs)) (serves : Serves r c d a) :
    r'.load c d < r.load c d ∧
      ∀ j answer, a = .reply d j answer → r'.load c d + 2 = r.load c d := by
  have replaced {p p' : Pool Job} (hp : r.pools[d]? = some p)
      (pools : r'.pools = r.pools.set d p') : r'.pools[d]? = some p' := by
    rw [pools, List.getElem?_set_self (List.getElem?_eq_some_iff.mp hp).1]
  cases serves with
  | @take j job p p' hp taken mine =>
    obtain ⟨q, job', q', hq, taken', rfl, -⟩ := take?_cases step
    rw [hp] at hq
    cases hq
    rw [taken] at taken'
    cases taken'
    have spent := Pool.load_take? (·.call == c) taken
    rw [if_pos (by simpa using mine)] at spent
    rw [load_of_pool hp, load_of_pool (replaced hp rfl)]
    exact ⟨by omega, by simp⟩
  | @reply j answer job hand mine =>
    obtain ⟨p, job', p', hp, finished, claimed⟩ := reply?_cases step
    have same := inHand?_of_finish? hp finished
    rw [hand] at same
    cases same
    have pools : r'.pools = r.pools.set d p' := by
      obtain ⟨_, _, -, -, -, rfl, -⟩ | ⟨-, rfl, -⟩ := claimed <;> rfl
    have spent := Pool.load_finish? (·.call == c) finished
    rw [if_pos (by simpa using mine)] at spent
    rw [load_of_pool hp, load_of_pool (replaced hp pools)]
    exact ⟨by omega, fun _ _ _ ↦ spent.symm⟩
  | @crash j job hand mine =>
    obtain ⟨-, p, lost, p', hp, crashed, rfl⟩ := crash?_cases step
    obtain ⟨q, hq, hand⟩ := Option.bind_eq_some_iff.mp hand
    rw [hp] at hq
    cases hq
    obtain ⟨l, hl, hand⟩ := Option.bind_eq_some_iff.mp hand
    rw [load_of_pool hp, load_of_pool (replaced hp (loseJobs_pools ..))]
    exact ⟨Pool.load_crash?_lt _ crashed hl hand (by simpa using mine), by simp⟩

/-! ## A call at one destination -/

/-- What a call still takes at a destination. -/
def effort (c d now : Nat) (r : Running) : Nat :=
  r.load c d + ((r.leg? c d).map (Leg.effort now)).getD 0

/-- A step gets on with a call at a destination. -/
def GetsOn (r : Running) (c d : Nat) (a : Action) : Prop :=
  a = .submit c d ∨ a = .wake c d ∨ a = .breakOff c d ∨ Serves r c d a

theorem effort_of_leg (found : r.handling? c = some h) (here : h.legs[d]? = some leg) (now : Nat) :
    r.effort c d now = r.load c d + leg.effort now := by
  rw [effort, leg?_of_found found here]
  rfl

theorem leg?_of_own (step : r.step? clock a = some (r', outputs))
    (own : a = .submit c d ∨ a = .wake c d ∨ a = .breakOff c d) : ∃ leg, r.leg? c d = some leg := by
  rcases own with rfl | rfl | rfl
  · obtain ⟨-, h, leg, p, found, here, -⟩ := submit?_cases step
    exact ⟨leg, leg?_of_found found here⟩
  · obtain ⟨-, h, leg, due, found, here, -⟩ := wake?_cases step
    exact ⟨leg, leg?_of_found found here⟩
  · obtain ⟨h, leg, due, found, here, -⟩ := breakOff?_cases step
    exact ⟨leg, leg?_of_found found here⟩

theorem unhandled_of_step (step : r.step? clock a = some (r', outputs))
    (cancelled : r.cancelled = true) (nobody : r.handling? c = none) : r'.handling? c = none := by
  by_cases arrives : ∃ m, a = .handle c m
  · obtain ⟨m, rfl⟩ := arrives
    obtain ⟨-, ⟨-, rfl, -⟩ | ⟨_, early, -⟩ | ⟨_, early, -⟩⟩ := handle?_cases step
    · exact nobody
    · simp [cancelled] at early
    · simp [cancelled] at early
  · exact ((effect_of_step step).unhandled nobody fun m same ↦ arrives ⟨m, same⟩).1

private theorem effort_of_others (step : r.step? clock a = some (r', outputs))
    (others : a ≠ .submit c d ∧ a ≠ .wake c d ∧ a ≠ .breakOff c d)
    (legs : ((r'.leg? c d).map (Leg.effort now)).getD 0 ≤
      ((r.leg? c d).map (Leg.effort now)).getD 0) :
    r'.effort c d now ≤ r.effort c d now ∧
      (GetsOn r c d a → r'.effort c d now < r.effort c d now) := by
  have less := load_le_of_step step others.1
  refine ⟨Nat.add_le_add less legs, ?_⟩
  rintro (own | own | own | serves)
  · exact absurd own others.1
  · exact absurd own others.2.1
  · exact absurd own others.2.2
  · exact Nat.add_lt_add_of_lt_of_le (load_of_serves step serves).1 legs

/-- **On a cancelled route no step adds to what a call still takes at a destination, and every step
that gets on with it takes something away.** -/
theorem effort_of_step (sound : r.Sound) (cancelled : r.cancelled = true) (waits : r.backoff.Waits)
    (step : r.step? clock a = some (r', outputs)) (c d : Nat) :
    r'.effort c d clock.now ≤ r.effort c d clock.now ∧
      (GetsOn r c d a → r'.effort c d clock.now < r.effort c d clock.now) := by
  have others_of_absent (absent : r.leg? c d = none) :
      a ≠ .submit c d ∧ a ≠ .wake c d ∧ a ≠ .breakOff c d := by
    have own (own : a = .submit c d ∨ a = .wake c d ∨ a = .breakOff c d) : False := by
      obtain ⟨leg, here⟩ := leg?_of_own step own
      rw [absent] at here
      cases here
    exact ⟨fun h ↦ own (.inl h), fun h ↦ own (.inr (.inl h)), fun h ↦ own (.inr (.inr h))⟩
  -- where there is no leg, all that can be left are jobs whose call has gone
  cases found : r.handling? c with
  | none =>
    have absent : r.leg? c d = none := by
      rw [leg?, found]
      rfl
    have absent' : r'.leg? c d = none := by
      rw [leg?, unhandled_of_step step cancelled found]
      rfl
    exact effort_of_others step (others_of_absent absent) (by rw [absent, absent'])
  | some h =>
    obtain ⟨nobody, which, -⟩ | ⟨h', found', follows⟩ := (effect_of_step step).handled sound found
    · -- the call leaves with its legs
      have absent' : r'.leg? c d = none := by
        rw [leg?, nobody]
        rfl
      have others : a ≠ .submit c d ∧ a ≠ .wake c d ∧ a ≠ .breakOff c d := by
        rcases which with rfl | rfl <;> simp
      exact effort_of_others step others (by rw [absent']; exact Nat.zero_le _)
    · cases here : h.legs[d]? with
      | none =>
        have absent : r.leg? c d = none := by
          rw [leg?, found, Option.bind_some, here]
        have absent' : r'.leg? c d = none := by
          rw [leg?, found', Option.bind_some, List.getElem?_eq_none_iff, follows.length,
            ← List.getElem?_eq_none_iff, here]
        exact effort_of_others step (others_of_absent absent) (by rw [absent, absent'])
      | some leg =>
        obtain ⟨leg', here', sees⟩ := legStep_of_step sound step found here found'
        have before := leg?_of_found found here
        have after := leg?_of_found found' here'
        rw [effort_of_leg found here, effort_of_leg found' here']
        have by_others (others : a ≠ .submit c d ∧ a ≠ .wake c d ∧ a ≠ .breakOff c d)
            (less : leg'.effort clock.now ≤ leg.effort clock.now) :
            r'.load c d + leg'.effort clock.now ≤ r.load c d + leg.effort clock.now ∧
              (GetsOn r c d a →
                r'.load c d + leg'.effort clock.now < r.load c d + leg.effort clock.now) := by
          have legs : ((r'.leg? c d).map (Leg.effort clock.now)).getD 0 ≤
              ((r.leg? c d).map (Leg.effort clock.now)).getD 0 := by
            rw [before, after]
            exact less
          have kept := effort_of_others step others legs
          rwa [effort_of_leg found here, effort_of_leg found' here'] at kept
        have lost_le (lost : leg' = leg.lose) (submitted : leg.phase = .submitted) :
            leg'.effort clock.now ≤ leg.effort clock.now := by
          rw [lost, Leg.effort, Leg.phase_lose submitted]
          exact Nat.zero_le _
        cases sees with
        | same others => exact by_others others (Nat.le_refl _)
        | submit ready =>
          have more := load_le_of_submit step
          have was : leg.effort clock.now = 4 := by rw [Leg.effort, ready]
          have is : leg.submit.effort clock.now = 0 := rfl
          exact ⟨by omega, fun _ ↦ by omega⟩
        | refuse ready =>
          have more := load_le_of_submit step
          have was : leg.effort clock.now = 4 := by rw [Leg.effort, ready]
          have is : leg.submit.lose.effort clock.now = 0 := by
            rw [Leg.effort, Leg.phase_lose rfl]
          exact ⟨by omega, fun _ ↦ by omega⟩
        | wake waiting late =>
          have less := load_le_of_step (c := c) (d := d) step (by simp)
          have was : leg.effort clock.now = 5 := by
            rw [Leg.effort, waiting]
            exact if_pos late
          have is : Leg.effort clock.now { leg with phase := .ready } = 4 := rfl
          exact ⟨by omega, fun _ ↦ by omega⟩
        | breakOff waiting _ =>
          have less := load_le_of_step (c := c) (d := d) step (by simp)
          have was : 0 < leg.effort clock.now := by
            rw [Leg.effort, waiting]
            dsimp only
            split <;> omega
          have is : (leg.settle (.failed .cancelled)).effort clock.now = 0 := rfl
          exact ⟨by omega, fun _ ↦ by omega⟩
        | @reply _ j answer submitted hand =>
          have mine : (⟨c, h.message⟩ : Job).call = c := rfl
          have spent := (load_of_serves step (.reply hand mine)).2 j answer rfl
          have is := Leg.effort_answer_le r.plan waits clock.now
            (h.message.age? clock.wall) leg answer
          exact ⟨by omega, fun _ ↦ by omega⟩
        | crash submitted => exact by_others (by simp) (lost_le rfl submitted)
        | drain submitted => exact by_others (by simp) (lost_le rfl submitted)

/-! ## Calls and destinations that are left -/

/-- Something is left to do for a call at a destination: its leg has not ended, or the call has left
a job behind. -/
def Unresolved (r : Running) (c d : Nat) : Prop :=
  (∃ leg, r.leg? c d = some leg ∧ leg.result? = none) ∨ r.jobsOf c d ≠ []

theorem unresolved_of_effort (left : 0 < r.effort c d now) : r.Unresolved c d := by
  by_cases jobs : r.jobsOf c d = []
  · have no_load := r.load_le c d
    rw [jobs, List.length_nil] at no_load
    cases here : r.leg? c d with
    | none =>
      rw [effort, here, Option.map_none, Option.getD_none] at left
      omega
    | some leg =>
      rw [effort, here, Option.map_some, Option.getD_some] at left
      refine .inl ⟨leg, here, ?_⟩
      cases phase : leg.phase with
      | settled e =>
        have ended : leg.effort now = 0 := by rw [Leg.effort, phase]
        omega
      | _ => rw [Leg.result?, phase]
  · exact .inr jobs

theorem lt_of_unresolved (sound : r.Sound) (left : r.Unresolved c d) :
    c < r.nextCall ∧ d < r.pools.length := by
  obtain ⟨leg, here, -⟩ | jobs := left
  · obtain ⟨h, found, here⟩ := handled_of_leg? here
    refine ⟨sound.handling_lt found, ?_⟩
    rw [← sound.legs found]
    exact (List.getElem?_eq_some_iff.mp here).1
  · constructor
    · by_contra new
      exact jobs (sound.jobsOf_eq_nil (Nat.le_of_not_lt new) d)
    · by_contra none_there
      exact jobs (jobsOf_of_no_pool (List.getElem?_eq_none (Nat.le_of_not_lt none_there)) c)

/-- A publish begins when three or more units are left, and leaves two at most. -/
theorem effort_of_publish (sound : r.Sound) (step : r.step? clock a = some (r', outputs))
    {m : Message} (told : .publish d j c m ∈ outputs) (now : Nat) :
    3 ≤ r.effort c d now ∧ r'.effort c d now ≤ 2 := by
  obtain ⟨rfl, p, p', hp, taken⟩ := caused_of_step step _ told
  obtain ⟨q, job, q', hq, taken', rfl, -⟩ := take?_cases step
  rw [hp] at hq
  cases hq
  rw [taken] at taken'
  cases taken'
  have hp' : (r.setPool d p').pools[d]? = some p' :=
    List.getElem?_set_self (List.getElem?_eq_some_iff.mp hp).1
  have before := load_of_pool hp c
  have after := load_of_pool hp' c
  have spent := Pool.load_take? (·.call == c) taken
  have in_hand := Pool.le_load_of_take? (·.call == c) taken (by simp)
  rw [if_pos (by simp)] at spent
  have at_most := (r.load_le c d).trans (Nat.mul_le_mul_left 3 (sound.single c d))
  have mem : (⟨c, m⟩ : Job) ∈ r.jobs d := by
    rw [jobs_of_pool hp]
    exact Pool.mem_jobs_of_take? taken
  -- whoever waits for the job takes nothing beside it
  have waits : ((r.leg? c d).map (Leg.effort now)).getD 0 = 0 := by
    cases here : r.leg? c d with
    | none => rfl
    | some leg =>
      obtain ⟨h, found, here⟩ := handled_of_leg? here
      have submitted := (sound.job_of_mem found here mem rfl).1
      rw [Option.map_some, Option.getD_some, Leg.effort, submitted]
  have same_leg : (r.setPool d p').leg? c d = r.leg? c d := rfl
  rw [effort, effort, same_leg, waits, before, after]
  omega

/-! ## All calls -/

open Finset in
/-- What a call still takes at all destinations, and its verdict. -/
def callWork (c now : Nat) (r : Running) : Nat :=
  (if (r.handling? c).isSome then 1 else 0) + ∑ d ∈ range r.pools.length, r.effort c d now

open Finset in
/-- What all calls together still take. -/
def work (now : Nat) (r : Running) : Nat := ∑ c ∈ range r.nextCall, r.callWork c now

/-- A step gets on with some call. -/
def Advances (r : Running) (a : Action) : Prop := (∃ c d, r.GetsOn c d a) ∨ ∃ c, a = .resolve c

theorem callWork_of_new (sound : r.Sound) (new : r.nextCall ≤ c) (now : Nat) :
    r.callWork c now = 0 := by
  have nobody : r.handling? c = none := by
    by_contra someone
    obtain ⟨h, found⟩ := Option.ne_none_iff_exists'.mp someone
    exact absurd (sound.handling_lt found) (Nat.not_lt.mpr new)
  have nothing : ∀ d ∈ Finset.range r.pools.length, r.effort c d now = 0 := by
    intro d _
    by_contra some_left
    have left := unresolved_of_effort (Nat.pos_of_ne_zero some_left)
    exact absurd (lt_of_unresolved sound left).1 (Nat.not_lt.mpr new)
  rw [callWork, nobody, Finset.sum_eq_zero nothing]
  rfl

/-- No step adds to what a call still takes, and every step that gets on with it takes something
away. -/
theorem callWork_of_step (sound : r.Sound) (cancelled : r.cancelled = true)
    (waits : r.backoff.Waits) (step : r.step? clock a = some (r', outputs)) (c : Nat) :
    r'.callWork c clock.now ≤ r.callWork c clock.now ∧
      ((∃ d, r.GetsOn c d a) ∨ a = .resolve c →
        r'.callWork c clock.now < r.callWork c clock.now) := by
  have same_pools : r'.pools.length = r.pools.length := (poolSteps_of_step step).1
  have each := effort_of_step sound cancelled waits step c
  have verdict : (if (r'.handling? c).isSome then 1 else 0) ≤
      if (r.handling? c).isSome then 1 else 0 := by
    cases before : r.handling? c with
    | none => rw [unhandled_of_step step cancelled before]
    | some h => split <;> simp
  rw [callWork, callWork, same_pools]
  refine ⟨Nat.add_le_add verdict (Finset.sum_le_sum fun d _ ↦ (each d).1), ?_⟩
  rintro (⟨d, gets_on⟩ | rfl)
  · have less := (each d).2 gets_on
    have left := unresolved_of_effort (Nat.zero_lt_of_lt less)
    have here := Finset.mem_range.mpr (lt_of_unresolved sound left).2
    exact Nat.add_lt_add_of_le_of_lt verdict
      (Finset.sum_lt_sum (fun d _ ↦ (each d).1) ⟨d, here, less⟩)
  · obtain ⟨h, found, -, rfl, -⟩ := resolve?_cases step
    refine Nat.add_lt_add_of_lt_of_le ?_ (Finset.sum_le_sum fun d _ ↦ (each d).1)
    rw [handling?_withoutHandling, if_pos rfl, found]
    exact Nat.zero_lt_one

/-- **On a cancelled route no step adds to what is left, and every step that gets on with some call
takes something away.** -/
theorem work_of_step (sound : r.Sound) (cancelled : r.cancelled = true) (waits : r.backoff.Waits)
    (step : r.step? clock a = some (r', outputs)) :
    r'.work clock.now ≤ r.work clock.now ∧
      (r.Advances a → r'.work clock.now < r.work clock.now) := by
  have each := callWork_of_step sound cancelled waits step
  have more := (kept_of_step step).nextCall
  -- the calls that have arrived in between were turned away
  have widened : r.work clock.now = ∑ c ∈ Finset.range r'.nextCall, r.callWork c clock.now := by
    refine Finset.sum_subset (Finset.range_mono more) fun c _ new ↦ ?_
    exact callWork_of_new sound (Nat.le_of_not_lt fun old ↦ new (Finset.mem_range.mpr old)) _
  rw [widened, work]
  refine ⟨Finset.sum_le_sum fun c _ ↦ (each c).1, ?_⟩
  intro advances
  obtain ⟨c, which⟩ : ∃ c, (∃ d, r.GetsOn c d a) ∨ a = .resolve c := by
    obtain ⟨c, d, gets_on⟩ | ⟨c, resolves⟩ := advances
    · exact ⟨c, .inl ⟨d, gets_on⟩⟩
    · exact ⟨c, .inr resolves⟩
  have less := (each c).2 which
  have old : c < r.nextCall := by
    by_contra new
    rw [callWork_of_new sound (Nat.le_of_not_lt new)] at less
    exact absurd less (Nat.not_lt_zero _)
  exact Finset.sum_lt_sum (fun c _ ↦ (each c).1)
    ⟨c, Finset.mem_range.mpr (old.trans_le more), less⟩

/-! ## What a cancelled route does by itself -/

theorem busy_of_waiting (cancelled : r.cancelled = true) (found : r.handling? c = some h)
    (here : h.legs[d]? = some leg) {due : Nat} (waiting : leg.phase = .waiting due)
    (clock : Clock) : r.next? clock ≠ none := by
  have hd := (List.getElem?_eq_some_iff.mp here).1
  apply next?_ne_none (breakOff_mem_ownActions cancelled found hd)
  exact breakOff_of_waiting cancelled found here waiting clock

/-- As long as a message is handled, a cancelled route can do something by itself, or waits for the
bus. -/
theorem ready_of_handled (runs : Runs s route past r) (cancelled : r.cancelled = true)
    (found : r.handling? c = some h) (clock : Clock) :
    r.next? clock ≠ none ∨ ∃ i j job, r.inHand? i j = some job := by
  cases next_of_handled runs found with
  | verdict can => exact .inl (next?_ne_none (resolve_mem_ownActions found) (can clock))
  | lane hd can => exact .inl (next?_ne_none (submit_mem_ownActions found hd) (can clock))
  | time here waiting => exact .inl (busy_of_waiting cancelled found here waiting clock)
  | worker lane can => exact .inl (next?_ne_none (take_mem_ownActions lane) (can clock))
  | bus hand => exact .inr ⟨_, _, _, hand⟩

/-- As long as a message is handled, whatever a route does by itself gets on with some call: no pool
has been told to close, so no worker can end. -/
theorem advances_of_own (runs : Runs s route past r) (found : r.handling? c = some h)
    (own : a ∈ r.ownActions) (step : r.step? clock a = some (r', outputs)) : r.Advances a := by
  have busy : r.handlings ≠ [] := by
    intro idle
    rw [handlings_eq_nil_iff.mp idle] at found
    cases found
  rcases List.mem_append.mp own with own | own
  · rcases List.mem_append.mp own with own | own
    · obtain ⟨h', -, own⟩ := List.mem_flatMap.mp own
      rcases List.mem_cons.mp own with rfl | own
      · exact .inr ⟨_, rfl⟩
      · obtain ⟨d, -, own⟩ := List.mem_flatMap.mp own
        rcases List.mem_cons.mp own with rfl | own
        · exact .inl ⟨_, d, .inl rfl⟩
        · rcases List.mem_append.mp own with own | own
          · split at own
            · rw [List.mem_singleton.mp own]
              exact .inl ⟨_, d, .inr (.inr (.inl rfl))⟩
            · cases own
          · rw [List.mem_singleton.mp own]
            exact .inl ⟨_, d, .inr (.inl rfl)⟩
    · obtain ⟨⟨i, j⟩, -, own⟩ := List.mem_flatMap.mp own
      simp only [List.mem_cons, List.not_mem_nil, or_false] at own
      rcases own with rfl | rfl | rfl
      · obtain ⟨p, job, p', hp, taken, -⟩ := take?_cases step
        exact .inl ⟨job.call, i, .inr (.inr (.inr (.take hp taken rfl)))⟩
      · obtain ⟨-, p, refused, p', hp, drained, -⟩ := drain?_cases step
        obtain ⟨l, l', -, closing, -⟩ := Pool.drain?_eq_some.mp drained
        exact absurd ((orderly_of_runs runs).closing hp closing).2 busy
      · obtain ⟨p, p', hp, ended, -⟩ := retire?_cases step
        obtain ⟨l, l', hl, ended, -⟩ := Pool.end?_eq_some.mp ended
        obtain ⟨working, closed, -⟩ := Lane.end?_eq_some.mp ended
        have crashed := crashed_of_closed runs found (lane?_eq_some.mpr ⟨p, hp, hl⟩) closed
        simp [Lane.working, crashed] at working
  · simp only [List.mem_cons, List.not_mem_nil, or_false] at own
    rcases own with rfl | rfl
    · obtain ⟨-, idle, -⟩ := closePools?_eq_some.mp step
      exact absurd idle busy
    · obtain ⟨joining, -⟩ | ⟨_, _, joining, -⟩ := join?_cases step <;>
        exact absurd ((orderly_of_runs runs).joining joining).2.1 busy

theorem advances_of_answer (step : r.step? clock a = some (r', outputs))
    (which : (∃ answer, a = .reply i j answer) ∨ a = .crash i j) : r.Advances a := by
  rcases which with ⟨answer, rfl⟩ | rfl
  · obtain ⟨p, job, p', hp, finished, -⟩ := reply?_cases step
    have hand := inHand?_of_finish? hp finished
    exact .inl ⟨job.call, i, .inr (.inr (.inr (.reply hand rfl)))⟩
  · obtain ⟨-, p, lost, p', hp, crashed, -⟩ := crash?_cases step
    obtain ⟨l, l', hl, crashed, -⟩ := Pool.crash?_eq_some.mp crashed
    obtain ⟨job, held, -⟩ := Lane.crash?_eq_some.mp crashed
    have hand : r.inHand? i j = some job := by
      rw [inHand?, hp, Option.bind_some, hl, Option.bind_some, held]
    exact .inl ⟨job.call, i, .inr (.inr (.inr (.crash hand rfl)))⟩

/-! ## Time -/

theorem effort_of_idle (cancelled : r.cancelled = true) (idle : r.next? clock = none)
    (c d now later : Nat) :
    r.effort c d later = r.effort c d now := by
  rw [effort, effort]
  cases here : r.leg? c d with
  | none => rfl
  | some leg =>
    obtain ⟨h, found, here⟩ := handled_of_leg? here
    cases phase : leg.phase with
    | waiting due => exact absurd idle (busy_of_waiting cancelled found here phase clock)
    | _ => simp [Leg.effort, phase]

theorem work_of_idle (cancelled : r.cancelled = true) (idle : r.next? clock = none)
    (now later : Nat) : r.work later = r.work now := by
  have same := effort_of_idle cancelled idle
  refine Finset.sum_congr rfl fun c _ ↦ ?_
  rw [callWork, callWork, Finset.sum_congr rfl fun d _ ↦ same c d now later]

end Running

end MessageBridge
