import Mathlib.Order.Nat
import MessageBridge.Proofs.Route.Effects

/-!
# Outstanding jobs

A leg that waits for an answer has exactly one job on its way, with the prepared message; a leg
that does not wait has none. `Running.Sound` states this for all handlings at once, together with
what makes it inductive: calls are numbered upwards, so neither a handling nor a job that was left
behind can be mistaken for that of a new call.

Jobs of a call without a handling are left over from a caller that went away. They only get fewer.
-/

open scoped List

namespace MessageBridge

namespace Running

variable {clock : Clock} {r r' : Running} {outputs : List Output} {a : Action}

/-! ## What a step keeps -/

/-- What every step keeps of a running route. -/
structure Kept (r r' : Running) : Prop where
  route : r'.route = r.route
  backoff : r'.backoff = r.backoff
  nextCall : r.nextCall ≤ r'.nextCall
  cancelled : r.cancelled = true → r'.cancelled = true

theorem Kept.loseJobs (kept : Kept r r') (clock : Clock) (d : Nat) (jobs : List Job) :
    Kept r (r'.loseJobs clock d jobs) := by
  obtain ⟨handlings, -, done⟩ := loseJobs_frame (r := r') clock d jobs
  rw [done]
  exact ⟨kept.route, kept.backoff, kept.nextCall, kept.cancelled⟩

theorem Kept.plan (kept : Kept r r') : r'.plan = r.plan := by
  rw [Running.plan, Running.plan, kept.route, kept.backoff]

theorem kept_of_step (step : r.step? clock a = some (r', outputs)) : Kept r r' := by
  cases a with
  | handle call m =>
    obtain ⟨new, ⟨-, rfl, -⟩ | ⟨_, -, -, rfl, -⟩ | ⟨_, -, -, rfl, -⟩⟩ := handle?_cases step <;>
      exact ⟨rfl, rfl, Nat.le_succ_of_le new, id⟩
  | abandon call =>
    obtain ⟨-, rfl, -⟩ := abandon_eq_some.mp step
    exact ⟨rfl, rfl, Nat.le_refl _, id⟩
  | submit call d =>
    obtain ⟨-, h, leg, p, -, -, -, -, ⟨-, rfl⟩ | ⟨-, rfl⟩⟩ := submit?_cases step
    · exact ⟨rfl, rfl, Nat.le_refl _, id⟩
    · refine Kept.loseJobs ?_ ..
      exact ⟨rfl, rfl, Nat.le_refl _, id⟩
  | wake call d =>
    obtain ⟨-, h, leg, due, -, -, -, -, rfl⟩ := wake?_cases step
    exact ⟨rfl, rfl, Nat.le_refl _, id⟩
  | breakOff call d =>
    obtain ⟨h, leg, due, -, -, -, -, rfl, -⟩ := breakOff?_cases step
    exact ⟨rfl, rfl, Nat.le_refl _, id⟩
  | resolve call =>
    obtain ⟨h, -, -, rfl, -⟩ := resolve?_cases step
    exact ⟨rfl, rfl, Nat.le_refl _, id⟩
  | take i j =>
    obtain ⟨p, job, p', -, -, rfl, -⟩ := take?_cases step
    exact ⟨rfl, rfl, Nat.le_refl _, id⟩
  | reply i j answer =>
    obtain ⟨p, job, p', -, -, ⟨_, _, -, -, -, rfl, -⟩ | ⟨-, rfl, -⟩⟩ := reply?_cases step <;>
      exact ⟨rfl, rfl, Nat.le_refl _, id⟩
  | crash i j =>
    obtain ⟨-, p, lost, p', -, -, rfl⟩ := crash?_cases step
    refine Kept.loseJobs ?_ ..
    exact ⟨rfl, rfl, Nat.le_refl _, id⟩
  | drain i j =>
    obtain ⟨-, p, refused, p', -, -, rfl⟩ := drain?_cases step
    refine Kept.loseJobs ?_ ..
    exact ⟨rfl, rfl, Nat.le_refl _, id⟩
  | retire i j =>
    obtain ⟨p, p', -, -, rfl, -⟩ := retire?_cases step
    exact ⟨rfl, rfl, Nat.le_refl _, id⟩
  | cancel =>
    cases step
    exact ⟨rfl, rfl, Nat.le_refl _, fun _ ↦ rfl⟩
  | stop =>
    obtain ⟨-, rfl, -⟩ := stop?_eq_some.mp step
    exact ⟨rfl, rfl, Nat.le_refl _, fun _ ↦ rfl⟩
  | closePools =>
    obtain ⟨-, -, rfl, -⟩ := closePools?_eq_some.mp step
    exact ⟨rfl, rfl, Nat.le_refl _, id⟩
  | join =>
    obtain ⟨-, rfl, -⟩ | ⟨_, _, -, rfl, -⟩ := join?_cases step <;>
      exact ⟨rfl, rfl, Nat.le_refl _, id⟩
  | forsake =>
    cases step
    obtain same | ⟨-, same⟩ := forsake_cases r <;> rw [same] <;> exact ⟨rfl, rfl, Nat.le_refl _, id⟩
  | release =>
    obtain ⟨-, -, rfl, -⟩ := release?_eq_some.mp step
    exact ⟨rfl, rfl, Nat.le_refl _, id⟩

/-! ## Jobs of a call -/

/-- The jobs of a call on their way to a destination. -/
def jobsOf (call d : Nat) (r : Running) : List Job := (r.jobs d).filter (·.call == call)

theorem jobs_ofRoute (s : EngineSettings) (route : CompiledRoute) (d : Nat) :
    (ofRoute s route).jobs d = [] := by
  rw [jobs, ofRoute, List.getElem?_map, Option.map_map]
  cases route.destinations[d]? with
  | none => rfl
  | some dest => exact Pool.jobs_ofSettings s dest

/-- The answers that a call hears from a destination when something happens. -/
def heard (call d : Nat) (r : Running) : Clock × Action → List Reply
  | (clock, .reply i j answer) =>
    match r.inHand? i j with
    | some job => if i = d ∧ job.call = call then [⟨clock, job.message, answer⟩] else []
    | none => []
  | _ => []

theorem heard_of_silent (silent : ∀ i j x, a ≠ .reply i j x) (call d : Nat) :
    r.heard call d (clock, a) = [] := by
  cases a with
  | reply i j x => exact absurd rfl (silent i j x)
  | _ => rfl

theorem heard_of_hand {i j : Nat} {answer : Except BusError Unit} {job : Job}
    (hand : r.inHand? i j = some job) (call d : Nat) :
    r.heard call d (clock, .reply i j answer) =
      if i = d ∧ job.call = call then [⟨clock, job.message, answer⟩] else [] := by
  rw [heard, hand]

theorem filter_call_of_ne {call c : Nat} (h : call ≠ c) (leg : Leg) (m : Message) :
    (leg.awaits ⟨call, m⟩).filter (·.call == c) = [] := by
  unfold Leg.awaits
  split <;> simp [h]

theorem filter_call_awaits (call : Nat) (leg : Leg) (m : Message) :
    (leg.awaits ⟨call, m⟩).filter (·.call == call) = leg.awaits ⟨call, m⟩ := by
  unfold Leg.awaits
  split <;> simp

theorem eq_awaits_of_perm {jobs : List Job} {leg : Leg} {job : Job} (h : jobs ~ leg.awaits job) :
    jobs = leg.awaits job := by
  by_cases submitted : leg.phase = .submitted
  · rw [leg.awaits_of_submitted submitted] at h ⊢
    exact List.perm_singleton.mp h
  · rw [leg.awaits_of_ne submitted] at h ⊢
    exact h.eq_nil

/-! ## The invariant -/

/-- Calls are numbered upwards, every handling has a leg to every destination, and exactly the
legs that wait for an answer have a job on its way. -/
structure Sound (r : Running) : Prop where
  destinations : r.pools.map Pool.destination = r.route.destinations
  pools : ∀ {d : Nat} {p : Pool Job}, r.pools[d]? = some p → p.Sound
  handling_lt : ∀ {c : Nat} {h : Handling}, r.handling? c = some h → c < r.nextCall
  job_lt : ∀ {d : Nat} {j : Job}, j ∈ r.jobs d → j.call < r.nextCall
  legs : ∀ {c : Nat} {h : Handling}, r.handling? c = some h → h.legs.length = r.pools.length
  awaited : ∀ {c d : Nat} {h : Handling} {leg : Leg}, r.handling? c = some h →
    h.legs[d]? = some leg → r.jobsOf c d = leg.awaits ⟨c, h.message⟩
  single : ∀ c d : Nat, (r.jobsOf c d).length ≤ 1

theorem Sound.jobsOf_eq_nil (sound : r.Sound) {c : Nat} (new : r.nextCall ≤ c) (d : Nat) :
    r.jobsOf c d = [] := by
  rw [jobsOf, List.filter_eq_nil_iff]
  intro j mem
  have := sound.job_lt mem
  rw [beq_iff_eq]
  omega

theorem sound_ofRoute (s : EngineSettings) (route : CompiledRoute) : (ofRoute s route).Sound where
  destinations := by
    rw [ofRoute, List.map_map]
    exact List.map_id' _
  pools hp := by
    rw [ofRoute, List.getElem?_map, Option.map_eq_some_iff] at hp
    obtain ⟨dest, -, rfl⟩ := hp
    exact Pool.sound_ofSettings s dest
  handling_lt found := by cases found
  job_lt {d j} mem := by
    rw [jobs_ofRoute] at mem
    exact absurd mem List.not_mem_nil
  legs found := by cases found
  awaited found := by cases found
  single c d := by
    rw [jobsOf, jobs_ofRoute]
    exact Nat.zero_le 1

/-! ## Calls without a handling -/

theorem jobsOf_perm {d : Nat} {jobs : List Job} (h : r.jobs d ~ jobs) (c : Nat) :
    r.jobsOf c d ~ jobs.filter (·.call == c) := h.filter _

theorem jobsOf_congr {d : Nat} (h : r'.jobs d = r.jobs d) (c : Nat) :
    r'.jobsOf c d = r.jobsOf c d := by
  rw [jobsOf, jobsOf, h]

/-- Nobody takes up a call again that is not handled, and its jobs that are left over get fewer
with every answer. -/
theorem Effect.unhandled (effect : Effect clock r a r') {c : Nat} (nobody : r.handling? c = none)
    (other : ∀ m, a ≠ .handle c m) :
    r'.handling? c = none ∧
      ∀ d, (r.heard c d (clock, a)).length + (r'.jobsOf c d).length ≤ (r.jobsOf c d).length := by
  have silently (silent : ∀ i j x, a ≠ .reply i j x) {d : Nat}
      (fewer : (r'.jobsOf c d).length ≤ (r.jobsOf c d).length) :
      (r.heard c d (clock, a)).length + (r'.jobsOf c d).length ≤ (r.jobsOf c d).length := by
    rw [heard_of_silent silent, List.length_nil, Nat.zero_add]
    exact fewer
  -- only an unclaimed answer is heard without a handling, and it uses up the job it belongs to
  cases effect with
  | quiet handlings jobs silent =>
    exact ⟨(handlings c).trans nobody,
      fun d ↦ silently silent (jobsOf_perm (jobs d) c).length_eq.le⟩
  | @begun call m m' r' running passed handlings jobs =>
    have hc : c ≠ call := fun same ↦ other m (by rw [same])
    refine ⟨by rw [handlings, nobody, if_neg hc]; rfl, fun d ↦ silently (by simp) ?_⟩
    rw [jobsOf_congr (jobs d)]
  | @moved _ call d h leg leg' _ found here step handlings jobs others silent =>
    have hc : c ≠ call := fun same ↦ by rw [← same, nobody] at found; cases found
    refine ⟨by rw [handlings, if_neg hc, nobody], fun i ↦ silently silent ?_⟩
    by_cases hi : i = d
    · have same := (jobs.filter (·.call == c)).length_eq
      rw [List.filter_append, List.filter_append, filter_call_of_ne (Ne.symm hc),
        filter_call_of_ne (Ne.symm hc), List.append_nil, List.nil_append] at same
      rw [hi]
      exact same.le
    · rw [jobsOf_congr (others i hi)]
  | @answered i j answer job h leg _ hand found here submitted handlings jobs others =>
    have hc : c ≠ job.call := fun same ↦ by rw [← same, nobody] at found; cases found
    refine ⟨by rw [handlings, if_neg hc, nobody], fun d ↦ ?_⟩
    rw [heard_of_hand hand, if_neg (fun h ↦ hc h.2.symm), List.length_nil, Nat.zero_add]
    by_cases hd : d = i
    · have same := (jobsOf_perm jobs c).length_eq
      rw [List.filter_cons_of_neg (by simpa using Ne.symm hc)] at same
      rw [hd]
      exact same.ge
    · rw [jobsOf_congr (others d hd)]
  | @unclaimed i j answer job _ hand nobody' handlings jobs others =>
    refine ⟨(handlings c).trans nobody, fun d ↦ ?_⟩
    rw [heard_of_hand hand]
    by_cases hd : d = i
    · have same := (jobsOf_perm jobs c).length_eq
      rw [List.filter_cons] at same
      subst hd
      by_cases hc : job.call = c
      · rw [if_pos (by simpa using hc), List.length_cons] at same
        rw [if_pos ⟨rfl, hc⟩, List.length_singleton, jobsOf, same, Nat.add_comm]
      · rw [if_neg (by simpa using hc)] at same
        rw [if_neg (fun h ↦ hc h.2), List.length_nil, Nat.zero_add]
        exact same.ge
    · rw [if_neg (fun h ↦ hd h.1.symm), List.length_nil, Nat.zero_add,
        jobsOf_congr (others d hd)]
  | @shed _ d gone _ handlings jobs others silent =>
    refine ⟨by rw [handlings, nobody]; rfl, fun i ↦ silently silent ?_⟩
    by_cases hi : i = d
    · have same := (jobsOf_perm jobs c).length_eq
      rw [List.filter_append, List.length_append] at same
      rw [hi, same]
      exact Nat.le_add_left ..
    · rw [jobsOf_congr (others i hi)]
  | @left _ call h _ which found handlings kept jobs =>
    have silent : ∀ i j x, a ≠ .reply i j x := by
      rcases which with rfl | rfl <;> simp
    refine ⟨?_, fun d ↦ silently silent ((jobs d).filter _).length_le⟩
    rw [handlings]
    split
    · rfl
    · exact nobody
  | released handlings jobs =>
    exact ⟨(handlings c).2, fun d ↦ silently (by simp) ((jobs d).filter _).length_le⟩

/-! ## Calls with a handling -/

/-- What a step leaves of a handling that goes on: each leg stays as it is without hearing
anything, or makes one step with what it hears. -/
structure Follows (clock : Clock) (a : Action) (c : Nat) (h : Handling) (r r' : Running)
    (h' : Handling) : Prop where
  message : h'.message = h.message
  length : h'.legs.length = h.legs.length
  leg : ∀ {d : Nat} {leg : Leg}, h.legs[d]? = some leg → ∃ leg', h'.legs[d]? = some leg' ∧
    r'.jobsOf c d = leg'.awaits ⟨c, h.message⟩ ∧
    (leg' = leg ∧ r.heard c d (clock, a) = [] ∨
      Leg.Step r.plan h.message (r.heard c d (clock, a)) leg leg')

theorem Handling.getElem?_withLeg {d i : Nat} {leg leg' : Leg} {h : Handling}
    (here : h.legs[i]? = some leg) :
    (h.withLeg d leg').legs[i]? = some (if d = i then leg' else leg) := by
  rw [Handling.withLeg, List.getElem?_set]
  have := (List.getElem?_eq_some_iff.mp here).1
  by_cases hd : d = i
  · rw [if_pos hd, if_pos hd, if_pos (hd ▸ this)]
  · rw [if_neg hd, if_neg hd, here]

/-- A handling that nothing happens to goes on as it is. -/
private theorem follows_self (sound : r.Sound) {c : Nat} {h : Handling}
    (found : r.handling? c = some h) (jobs : ∀ d, r'.jobsOf c d ~ r.jobsOf c d)
    (unheard : ∀ d, r.heard c d (clock, a) = []) : Follows clock a c h r r' h := by
  refine ⟨rfl, rfl, fun {d leg} here ↦ ⟨leg, here, ?_, .inl ⟨rfl, unheard d⟩⟩⟩
  have before := jobs d
  rw [sound.awaited found here] at before
  exact eq_awaits_of_perm before

/-- A handling of which one leg moves on goes on with that leg. -/
private theorem follows_withLeg (sound : r.Sound) {c d : Nat} {h : Handling} {leg leg' : Leg}
    (found : r.handling? c = some h) (here : h.legs[d]? = some leg)
    (step : Leg.Step r.plan h.message (r.heard c d (clock, a)) leg leg')
    (job : r'.jobsOf c d = leg'.awaits ⟨c, h.message⟩)
    (others : ∀ i, i ≠ d → r'.jobsOf c i = r.jobsOf c i)
    (unheard : ∀ i, i ≠ d → r.heard c i (clock, a) = []) :
    Follows clock a c h r r' (h.withLeg d leg') := by
  refine ⟨rfl, List.length_set, fun {i leg₀} there ↦ ?_⟩
  refine ⟨_, Handling.getElem?_withLeg there, ?_⟩
  by_cases hi : i = d
  · -- the leg that moves on
    subst hi
    rw [here] at there
    cases there
    rw [if_pos rfl]
    exact ⟨job, .inr step⟩
  · rw [if_neg (Ne.symm hi)]
    refine ⟨?_, .inl ⟨rfl, unheard i hi⟩⟩
    rw [others i hi]
    exact sound.awaited found there

/-- Losing the jobs of a call is a step of its leg, unless there is no job to lose. -/
private theorem follows_shed (sound : r.Sound) {c d : Nat} {h : Handling} {gone : List Job}
    (found : r.handling? c = some h) (jobs : r.jobs d ~ gone ++ r'.jobs d)
    (others : ∀ i, i ≠ d → r'.jobs i = r.jobs i) (unheard : ∀ i, r.heard c i (clock, a) = []) :
    Follows clock a c h r r' (if c ∈ gone.map Job.call then h.loseAt d else h) := by
  have split := jobsOf_perm jobs c
  rw [List.filter_append] at split
  split
  · rename_i mem
    obtain ⟨j, mem, hj⟩ := List.mem_map.mp mem
    have lost : j ∈ gone.filter (·.call == c) := List.mem_filter.mpr ⟨mem, by simpa using hj⟩
    cases here : h.legs[d]? with
    | none =>
      -- there is no such destination, so there are no jobs for it either
      have hd : r.pools[d]? = none := by
        rw [List.getElem?_eq_none_iff] at here ⊢
        rwa [← sound.legs found]
      have no_jobs : r.jobs d = [] := by
        rw [Running.jobs, hd]
        rfl
      rw [jobsOf, no_jobs] at split
      exact absurd (split.symm.subset (List.mem_append_left _ lost)) List.not_mem_nil
    | some leg =>
      -- the call has one job at most on the way there, which is the one that is lost
      have one := sound.single c d
      rw [split.length_eq, List.length_append] at one
      have pos := List.length_pos_of_mem lost
      have rest : r'.jobsOf c d = [] := List.eq_nil_of_length_eq_zero (by rw [jobsOf]; omega)
      have submitted : leg.phase = .submitted := by
        by_contra idle
        rw [sound.awaited found here, leg.awaits_of_ne idle] at split
        exact absurd (split.symm.subset (List.mem_append_left _ lost)) List.not_mem_nil
      rw [Handling.loseAt_eq_set here]
      refine follows_withLeg sound found here ?_ ?_ (fun i hi ↦ jobsOf_congr (others i hi) c)
        fun i _ ↦ unheard i
      · rw [unheard]
        exact .lose submitted
      · rw [rest, Leg.awaits_of_ne leg.phase_lose_ne]
  · rename_i mem
    -- none of the lost jobs is of this call
    have none_lost : gone.filter (·.call == c) = [] := by
      rw [List.filter_eq_nil_iff]
      exact fun j hj same ↦ mem (List.mem_map.mpr ⟨j, hj, by simpa using same⟩)
    rw [none_lost, List.nil_append] at split
    refine follows_self sound found (fun i ↦ ?_) unheard
    by_cases hi : i = d
    · rw [hi]
      exact split.symm
    · exact .of_eq (jobsOf_congr (others i hi) c)

/-- **A handling goes on until its caller leaves or it is resolved.** -/
theorem Effect.handled (effect : Effect clock r a r') (sound : r.Sound) {c : Nat} {h : Handling}
    (found : r.handling? c = some h) :
    (r'.handling? c = none ∧ (a = .abandon c ∨ a = .resolve c) ∧
        ∀ d, (r'.jobsOf c d).length ≤ (r.jobsOf c d).length) ∨
      ∃ h', r'.handling? c = some h' ∧ Follows clock a c h r r' h' := by
  cases effect with
  | quiet handlings jobs silent =>
    exact .inr ⟨h, (handlings c).trans found, follows_self sound found
      (fun d ↦ jobsOf_perm (jobs d) c) (heard_of_silent silent c)⟩
  | begun running passed handlings jobs =>
    refine .inr ⟨h, by rw [handlings, found, Option.some_or], follows_self sound found
      (fun d ↦ .of_eq (jobsOf_congr (jobs d) c)) (heard_of_silent (by simp) c)⟩
  | @moved _ call d h₀ leg leg' _ found₀ here step handlings jobs others silent =>
    have unheard (i : Nat) : r.heard c i (clock, a) = [] := heard_of_silent silent c i
    by_cases hc : c = call
    · subst hc
      rw [found] at found₀
      cases found₀
      refine .inr ⟨_, by rw [handlings, if_pos rfl], follows_withLeg sound found here ?_ ?_
        (fun i hi ↦ jobsOf_congr (others i hi) c) fun i _ ↦ unheard i⟩
      · rw [unheard]
        exact step
      · have same := jobs.filter (·.call == c)
        rw [List.filter_append, List.filter_append, filter_call_awaits, filter_call_awaits,
          show (r.jobs d).filter (·.call == c) = leg.awaits ⟨c, h.message⟩ from
            sound.awaited found here] at same
        exact eq_awaits_of_perm ((List.perm_append_right_iff _).mp same)
    · refine .inr ⟨h, by rw [handlings, if_neg hc, found], follows_self sound found
        (fun i ↦ ?_) unheard⟩
      by_cases hi : i = d
      · have same := jobs.filter (·.call == c)
        rw [List.filter_append, List.filter_append, filter_call_of_ne (Ne.symm hc),
          filter_call_of_ne (Ne.symm hc), List.append_nil, List.nil_append] at same
        rw [hi]
        exact same
      · exact .of_eq (jobsOf_congr (others i hi) c)
  | @answered i j answer job h₀ leg _ hand found₀ here submitted handlings jobs others =>
    by_cases hc : c = job.call
    · subst hc
      rw [found] at found₀
      cases found₀
      have now := jobsOf_perm jobs job.call
      rw [List.filter_cons_of_pos (by simp), sound.awaited found here,
        leg.awaits_of_submitted submitted] at now
      have same := (List.perm_singleton.mp now.symm)
      obtain ⟨this, rest⟩ := List.cons.inj same
      refine .inr ⟨_, by rw [handlings, if_pos rfl], follows_withLeg sound found here ?_ ?_
        (fun d hd ↦ jobsOf_congr (others d hd) job.call) fun d hd ↦ ?_⟩
      · rw [heard_of_hand hand, if_pos ⟨rfl, rfl⟩, show job.message = h.message by rw [this]]
        exact .reply clock answer submitted
      · rw [Leg.awaits_of_ne (Leg.phase_answer_ne _ _ _ _ _)]
        exact rest
      · rw [heard_of_hand hand, if_neg (fun h ↦ hd h.1.symm)]
    · refine .inr ⟨h, by rw [handlings, if_neg hc, found], follows_self sound found
        (fun d ↦ ?_) fun d ↦ ?_⟩
      · by_cases hd : d = i
        · have same := jobsOf_perm jobs c
          rw [List.filter_cons_of_neg (by simpa using Ne.symm hc)] at same
          rw [hd]
          exact same.symm
        · exact .of_eq (jobsOf_congr (others d hd) c)
      · rw [heard_of_hand hand, if_neg (fun h ↦ hc h.2.symm)]
  | @unclaimed i j answer job _ hand nobody handlings jobs others =>
    -- an answer to a job of this call would be claimed, since its leg has a job on the way
    have hc : c ≠ job.call := by
      rintro rfl
      have mem : job ∈ r.jobsOf job.call i :=
        List.mem_filter.mpr ⟨jobs.symm.subset List.mem_cons_self, by simp⟩
      cases here : h.legs[i]? with
      | none =>
        have hi : r.pools[i]? = none := by
          rw [List.getElem?_eq_none_iff] at here ⊢
          rwa [← sound.legs found]
        rw [inHand?, hi] at hand
        cases hand
      | some leg =>
        rw [sound.awaited found here, leg.awaits_of_ne (nobody h leg found here)] at mem
        exact absurd mem List.not_mem_nil
    refine .inr ⟨h, (handlings c).trans found, follows_self sound found (fun d ↦ ?_) fun d ↦ ?_⟩
    · by_cases hd : d = i
      · have same := jobsOf_perm jobs c
        rw [List.filter_cons_of_neg (by simpa using Ne.symm hc)] at same
        rw [hd]
        exact same.symm
      · exact .of_eq (jobsOf_congr (others d hd) c)
    · rw [heard_of_hand hand, if_neg (fun h ↦ hc h.2.symm)]
  | shed handlings jobs others silent =>
    exact .inr ⟨_, by rw [handlings, found]; rfl, follows_shed sound found jobs others
      (heard_of_silent silent c)⟩
  | @left _ call h₀ _ which found₀ handlings kept jobs =>
    by_cases hc : c = call
    · rw [hc]
      exact .inl ⟨by rw [handlings, if_pos rfl], which,
        fun d ↦ ((jobs d).filter _).length_le⟩
    · have silent : ∀ i j x, a ≠ .reply i j x := by
        rcases which with rfl | rfl <;> simp
      exact .inr ⟨h, by rw [handlings, if_neg hc, found], follows_self sound found
        (fun d ↦ .of_eq (kept c d hc)) (heard_of_silent silent c)⟩
  | released handlings jobs =>
    rw [(handlings c).1] at found
    cases found

/-! ## The invariant is kept -/

theorem jobsOf_of_no_pool {d : Nat} (hd : r.pools[d]? = none) (c : Nat) : r.jobsOf c d = [] := by
  rw [jobsOf, jobs, hd]
  rfl

/-- An arrival takes a new number and leaves the lanes alone; unless it is answered at once, it
opens a handling. -/
theorem arrival_cases {call : Nat} {m : Message}
    (step : r.step? clock (.handle call m) = some (r', outputs)) :
    r.nextCall ≤ call ∧ r'.nextCall = call + 1 ∧ r'.pools = r.pools ∧
      ((∀ c, r'.handling? c = r.handling? c) ∨ ∃ m', ∀ c, r'.handling? c =
        (r.handling? c).or (if c = call then some (r.freshHandling call m') else none)) := by
  obtain ⟨new, ⟨-, rfl, -⟩ | ⟨_, -, -, rfl, -⟩ | ⟨m', -, -, rfl, -⟩⟩ := handle?_cases step
  · exact ⟨new, rfl, rfl, .inl fun c ↦ rfl⟩
  · exact ⟨new, rfl, rfl, .inl fun c ↦ rfl⟩
  · exact ⟨new, rfl, rfl, .inr ⟨m', handling?_concat rfl⟩⟩

/-- The call of a handling after a step is handled before it, or it has just arrived. -/
theorem Sound.handling_of_step (sound : r.Sound) (step : r.step? clock a = some (r', outputs))
    {c : Nat} {h' : Handling} (found : r'.handling? c = some h') :
    (∃ h, r.handling? c = some h ∧ Follows clock a c h r r' h') ∨
      ∃ m m', a = .handle c m ∧ h' = r.freshHandling c m' := by
  cases before : r.handling? c with
  | some h =>
    obtain ⟨gone, -⟩ | ⟨h'', found', follows⟩ := (effect_of_step step).handled sound before
    · rw [gone] at found
      cases found
    · rw [found'] at found
      cases found
      exact .inl ⟨h, rfl, follows⟩
  | none =>
    by_cases arrives : ∃ m, a = .handle c m
    · obtain ⟨m, rfl⟩ := arrives
      obtain ⟨-, -, -, same | ⟨m', opened⟩⟩ := arrival_cases step
      · rw [same, before] at found
        cases found
      · rw [opened, before, if_pos rfl] at found
        cases found
        exact .inr ⟨m, m', rfl, rfl⟩
    · have other (m : Message) : a ≠ .handle c m := fun same ↦ arrives ⟨m, same⟩
      rw [((effect_of_step step).unhandled before other).1] at found
      cases found

theorem Sound.jobsOf_length_le (sound : r.Sound) (step : r.step? clock a = some (r', outputs))
    (c d : Nat) : (r'.jobsOf c d).length ≤ 1 := by
  cases before : r.handling? c with
  | some h =>
    obtain ⟨-, -, fewer⟩ | ⟨h', found, follows⟩ := (effect_of_step step).handled sound before
    · exact (fewer d).trans (sound.single c d)
    · cases here : h.legs[d]? with
      | none =>
        have hd : r'.pools[d]? = none := by
          rw [List.getElem?_eq_none_iff] at here ⊢
          rwa [(poolSteps_of_step step).1, ← sound.legs before]
        rw [jobsOf_of_no_pool hd]
        exact Nat.zero_le 1
      | some leg =>
        obtain ⟨leg', -, job, -⟩ := follows.leg here
        rw [job, Leg.awaits]
        split <;> simp
  | none =>
    by_cases arrives : ∃ m, a = .handle c m
    · obtain ⟨m, rfl⟩ := arrives
      obtain ⟨-, -, pools, -⟩ := arrival_cases step
      rw [jobsOf_congr (jobs_of_pools_eq pools d)]
      exact sound.single c d
    · have other (m : Message) : a ≠ .handle c m := fun same ↦ arrives ⟨m, same⟩
      have fewer := ((effect_of_step step).unhandled before other).2 d
      exact ((Nat.le_add_left ..).trans fewer).trans (sound.single c d)

/-- **Every step keeps the invariant.** -/
theorem Sound.step (sound : r.Sound) (step : r.step? clock a = some (r', outputs)) :
    r'.Sound where
  destinations := by
    have length := (poolSteps_of_step step).1
    rw [(kept_of_step step).route, ← sound.destinations]
    refine List.ext_getElem? fun d ↦ ?_
    rw [List.getElem?_map, List.getElem?_map]
    cases hp' : r'.pools[d]? with
    | none =>
      rw [List.getElem?_eq_none_iff, length, ← List.getElem?_eq_none_iff] at hp'
      rw [hp']
    | some p' =>
      obtain ⟨p, hp, rfl | move⟩ := pool_of_step step hp'
      · rw [hp]
      · rw [hp, Option.map_some, Option.map_some, move.moved.destination]
  pools hp' := by
    obtain ⟨p, hp, rfl | move⟩ := pool_of_step step hp'
    · exact sound.pools hp
    · exact Pool.Sound.move (sound.pools hp) move
  handling_lt found := by
    obtain ⟨h, before, -⟩ | ⟨m, m', rfl, -⟩ := sound.handling_of_step step found
    · exact (sound.handling_lt before).trans_le (kept_of_step step).nextCall
    · rw [(arrival_cases step).2.1]
      exact Nat.lt_succ_self _
  job_lt {d j} mem := by
    by_cases arrives : ∃ m, a = .handle j.call m
    · obtain ⟨m, rfl⟩ := arrives
      rw [(arrival_cases step).2.1]
      exact Nat.lt_succ_self _
    · have other (m : Message) : a ≠ .handle j.call m := fun same ↦ arrives ⟨m, same⟩
      refine lt_of_lt_of_le ?_ (kept_of_step step).nextCall
      cases before : r.handling? j.call with
      | some h => exact sound.handling_lt before
      | none =>
        -- a job without a handling was there before, since such jobs only get fewer
        have fewer := ((effect_of_step step).unhandled before other).2 d
        have here : j ∈ r'.jobsOf j.call d := List.mem_filter.mpr ⟨mem, by simp⟩
        have pos := List.length_pos_of_mem here
        obtain ⟨k, hk⟩ := List.exists_mem_of_length_pos (l := r.jobsOf j.call d) (by omega)
        obtain ⟨hk, same⟩ := List.mem_filter.mp hk
        rw [← beq_iff_eq.mp same]
        exact sound.job_lt hk
  legs found := by
    rw [(poolSteps_of_step step).1]
    obtain ⟨h, before, follows⟩ | ⟨m, m', -, rfl⟩ := sound.handling_of_step step found
    · rw [follows.length]
      exact sound.legs before
    · exact List.length_map ..
  awaited {c d h' leg'} found there := by
    obtain ⟨h, before, follows⟩ | ⟨m, m', rfl, rfl⟩ := sound.handling_of_step step found
    · have hd : d < h.legs.length := by
        rw [← follows.length]
        exact (List.getElem?_eq_some_iff.mp there).1
      obtain ⟨leg'', there', job, -⟩ := follows.leg (List.getElem?_eq_getElem hd)
      rw [there] at there'
      cases there'
      rw [follows.message]
      exact job
    · obtain ⟨new, -, pools, -⟩ := arrival_cases step
      rw [freshHandling, List.getElem?_map, Option.map_eq_some_iff] at there
      obtain ⟨p, -, rfl⟩ := there
      rw [jobsOf_congr (jobs_of_pools_eq pools d), sound.jobsOf_eq_nil new]
      rfl
  single := sound.jobsOf_length_le step

end Running

end MessageBridge
