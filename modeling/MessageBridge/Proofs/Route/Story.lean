import MessageBridge.Proofs.Route.History

/-!
# The story of a call

Whatever else a running route is busy with, the story of one call is simple. It arrives once. It is
turned away or dropped, and then no worker ever hears of it; or it is handled, and then each of its
legs follows a course along exactly the answers that the bus gave to its publishes. A handling ends
once: with the verdict that its legs add up to, or without one since the caller has left.

`Running.Story` lists these six states with everything that can be said of the history in each of
them, and `Running.story_of_runs` says that every call of every execution is in one of them.
-/

namespace MessageBridge

/-- The errors of the legs that failed, in the order of the destinations. -/
def Handling.failures (destinations : List Destination) (h : Handling) : List PublishError :=
  (h.legs.zip destinations).filterMap fun (leg, d) ↦ leg.error? d.label

/-- The verdict that the legs of a handling add up to. -/
def Handling.verdict (route : CompiledRoute) (h : Handling) : Verdict :=
  match h.failures route.destinations with
  | [] => .ok ()
  | e :: errors => .error (.undelivered ⟨route.name, e :: errors⟩)

/-- The number of acceptances among answers. -/
def acceptances (replies : List Reply) : Nat := replies.countP fun reply ↦ reply.answer.isOk

@[simp] theorem acceptances_append (replies new : List Reply) :
    acceptances (replies ++ new) = acceptances replies + acceptances new := List.countP_append

theorem acceptances_le_length (replies : List Reply) : acceptances replies ≤ replies.length :=
  List.countP_le_length

theorem AllRefused.acceptances_eq_zero {replies : List Reply} (h : AllRefused replies) :
    acceptances replies = 0 := by
  rw [acceptances, List.countP_eq_zero]
  intro reply mem
  obtain ⟨e, refused⟩ := h reply mem
  rw [refused]
  exact nofun

/-- The bus has accepted the message of a published leg once, and that of no other leg. -/
theorem Leg.Course.acceptances_eq {plan : RetryPlan} {m : Message} {replies : List Reply}
    {leg : Leg} (course : Course plan m replies leg) :
    acceptances replies = if leg.phase = .settled .published then 1 else 0 := by
  have agrees := course.agrees
  rw [Agrees] at agrees
  split at agrees
  all_goals rename_i phase
  · rw [agrees.1.refused.acceptances_eq_zero, if_neg (by simp [phase])]
  · rw [agrees.1.refused.acceptances_eq_zero, if_neg (by simp [phase])]
  · rw [agrees.1.refused.acceptances_eq_zero, if_neg (by simp [phase])]
  · obtain ⟨front, last, rfl, refused, ok⟩ := agrees
    rw [acceptances_append, refused.acceptances_eq_zero, if_pos phase, acceptances,
      List.countP_singleton, ok]
    rfl
  · rw [agrees.1.acceptances_eq_zero, if_neg (by simp [phase])]
  · rw [agrees.refused.acceptances_eq_zero, if_neg (by simp [phase])]

namespace Running

variable {clock : Clock} {r r' : Running} {outputs : List Output} {a : Action} {past : Past}
  {call : Nat}

/-! ## The six states -/

/-- No worker and no bus has ever heard of the call. -/
structure Untouched (call : Nat) (past : Past) (r : Running) : Prop where
  nobody : r.handling? call = none
  jobs : ∀ d, r.jobsOf call d = []
  publishes : ∀ d, publishes call d past = []
  replies : ∀ d, replies call d past = []

/-- The call of an arrival is handled, with the message that it was prepared to. -/
structure Underway (call : Nat) (past : Past) (r : Running) (x : Arrival) (m : Message)
    (h : Handling) : Prop where
  came : arrivals call past = [x]
  early : x.late = false
  outcome : (r.route.prepare x.clock.wall x.message).outcome = .ok m
  told : verdicts call past = []
  found : r.handling? call = some h
  message : h.message = m
  courses : ∀ {d : Nat} {leg : Leg}, h.legs[d]? = some leg →
    Leg.Course r.plan m (replies call d past) leg

/-- How far the story of a call has come. -/
inductive Story (call : Nat) (past : Past) (r : Running) : Prop where
  | unheard (came : arrivals call past = []) (told : verdicts call past = [])
      (untouched : Untouched call past r)
  | turnedAway {x : Arrival} (came : arrivals call past = [x]) (late : x.late = true)
      (told : verdicts call past = [.error .shuttingDown]) (untouched : Untouched call past r)
  | dropped {x : Arrival} {reason : DropReason} (came : arrivals call past = [x])
      (early : x.late = false)
      (outcome : (r.route.prepare x.clock.wall x.message).outcome = .error reason)
      (told : verdicts call past = [.ok ()]) (untouched : Untouched call past r)
  | handled {x : Arrival} {m : Message} {h : Handling} (underway : Underway call past r x m h)
  | resolved {x : Arrival} {m : Message} {h : Handling} (came : arrivals call past = [x])
      (early : x.late = false)
      (outcome : (r.route.prepare x.clock.wall x.message).outcome = .ok m)
      (told : verdicts call past = [h.verdict r.route]) (nobody : r.handling? call = none)
      (jobs : ∀ d, r.jobsOf call d = [])
      (legs : h.legs.length = r.route.destinations.length)
      (settled : ∀ leg ∈ h.legs, leg.result?.isSome = true)
      (courses : ∀ {d : Nat} {leg : Leg}, h.legs[d]? = some leg →
        Leg.Course r.plan m (replies call d past) leg)
  | abandoned {x : Arrival} {m : Message} (came : arrivals call past = [x])
      (early : x.late = false)
      (outcome : (r.route.prepare x.clock.wall x.message).outcome = .ok m)
      (told : verdicts call past = []) (nobody : r.handling? call = none)
      (left : Abandoned call past)
      (once : ∀ d, d < r.route.destinations.length →
        acceptances (replies call d past) + (r.jobsOf call d).length ≤ 1)

/-! ## Verdicts -/

theorem Sound.failures (sound : r.Sound) (h : Handling) :
    r.failures h = h.failures r.route.destinations := by
  rw [Running.failures, Handling.failures, ← sound.destinations, List.zip_map_right,
    List.filterMap_map]
  rfl

theorem Sound.length_destinations (sound : r.Sound) :
    r.pools.length = r.route.destinations.length := by
  rw [← sound.destinations, List.length_map]

theorem Sound.length_legs (sound : r.Sound) {h : Handling} (found : r.handling? call = some h) :
    h.legs.length = r.route.destinations.length := by
  rw [sound.legs found, sound.length_destinations]

/-- An event and a verdict tell one verdict. -/
private theorem verdict?_pair (topic : Topic) (e : Event) (c : Nat) (v : Verdict) :
    [Output.event topic e, .verdict c v].filterMap (Output.verdict? c) = [v] := by
  have this_one : Output.verdict? c (.verdict c v) = some v := if_pos rfl
  rw [List.filterMap_cons_none rfl, List.filterMap_cons_some this_one, List.filterMap_nil]

theorem Sound.verdict_of_resolve (sound : r.Sound) {h : Handling}
    (step : r.step? clock (.resolve call) = some (r', outputs))
    (found : r.handling? call = some h) :
    (∀ leg ∈ h.legs, leg.result?.isSome = true) ∧
      outputs.filterMap (Output.verdict? call) = [h.verdict r.route] := by
  obtain ⟨h', found', settled, -, told⟩ := resolve?_cases step
  rw [found] at found'
  cases found'
  refine ⟨settled, ?_⟩
  rw [sound.failures] at told
  rcases told with ⟨good, rfl⟩ | ⟨bad, rfl⟩
  · rw [verdict?_pair, Handling.verdict, good]
  · rw [verdict?_pair, Handling.verdict]
    cases errors : h.failures r.route.destinations with
    | nil => exact absurd errors bad
    | cons e es => rfl

theorem phase_of_result? {leg : Leg} {e : LegEnd} (ended : leg.result? = some e) :
    leg.phase = .settled e := by
  unfold Leg.result? at ended
  split at ended
  · rename_i result phase
    rw [phase, Option.some.inj ended]
  · cases ended

theorem result?_of_isSome {leg : Leg} (h : leg.result?.isSome = true) :
    ∃ result, leg.phase = .settled result := by
  obtain ⟨result, ended⟩ := Option.isSome_iff_exists.mp h
  exact ⟨result, phase_of_result? ended⟩

/-! ## One step further -/

/-- What is over stays over: without jobs and without a handling nothing is heard of a call. -/
private theorem over_of_step (step : r.step? clock a = some (r', outputs))
    (other : ∀ m, a ≠ .handle call m) (nobody : r.handling? call = none)
    (jobs : ∀ d, r.jobsOf call d = []) :
    r'.handling? call = none ∧ (∀ d, r'.jobsOf call d = []) ∧
      ∀ {past : Past} (d),
        replies call d (past ++ [⟨r, (clock, a), r', outputs⟩]) = replies call d past := by
  obtain ⟨nobody', fewer⟩ := (effect_of_step step).unhandled nobody other
  refine ⟨nobody', fun d ↦ ?_, fun {past} d ↦ ?_⟩
  · have := fewer d
    rw [jobs, List.length_nil] at this
    exact List.eq_nil_of_length_eq_zero (by omega)
  · rw [replies_concat, heard_eq_nil (jobs d), List.append_nil]

/-- However the run goes on, a call that is over stays over. -/
theorem stays_over {later : Past} (exec : Execution act r later r') (old : call < r.nextCall)
    (nobody : r.handling? call = none) (jobs : ∀ d, r.jobsOf call d = []) :
    ∀ mo ∈ later, mo.before.handling? call = none ∧ ∀ d, mo.before.jobsOf call d = [] := by
  intro mo hmo
  obtain ⟨earlier, -, -, reach, -⟩ := exec.at_moment hmo
  have gone := reach.invariant
    (P := fun r ↦ call < r.nextCall ∧ r.handling? call = none ∧ ∀ d, r.jobsOf call d = [])
    ⟨old, nobody, jobs⟩ fun {r r' act outputs} gone step ↦ by
      obtain ⟨old, nobody, jobs⟩ := gone
      have other (m : Message) : act.2 ≠ .handle call m := by
        intro arrives
        rcases act with ⟨clock, a⟩
        obtain rfl : a = .handle call m := arrives
        exact absurd (arrival_cases step).1 (Nat.not_le.mpr old)
      obtain ⟨nobody', jobs', -⟩ := over_of_step step other nobody jobs
      exact ⟨old.trans_le (kept_of_step step).nextCall, nobody', jobs'⟩
  exact gone.2

theorem replies_of_over {later : Past} (exec : Execution act r later r') (old : call < r.nextCall)
    (nobody : r.handling? call = none) (jobs : ∀ d, r.jobsOf call d = []) (d : Nat) :
    replies call d later = [] :=
  replies_of_idle fun mo hmo ↦ (stays_over exec old nobody jobs mo hmo).2 d

theorem Untouched.step (untouched : Untouched call past r)
    (step : r.step? clock a = some (r', outputs)) (other : ∀ m, a ≠ .handle call m) :
    Untouched call (past ++ [⟨r, (clock, a), r', outputs⟩]) r' := by
  obtain ⟨nobody, jobs, same⟩ := over_of_step step other untouched.nobody untouched.jobs
  refine ⟨nobody, jobs, fun d ↦ ?_, fun d ↦ (same d).trans (untouched.replies d)⟩
  rw [publishes_concat, untouched.publishes, no_publish_of_step step (untouched.jobs d)]
  rfl

private theorem no_verdict (step : r.step? clock a = some (r', outputs))
    (nobody : r.handling? call = none) (other : ∀ m, a ≠ .handle call m) :
    outputs.filterMap (Output.verdict? call) = [] := by
  refine no_verdict_of_step step other fun resolves ↦ ?_
  subst resolves
  obtain ⟨h, found, -⟩ := resolve?_cases step
  rw [nobody] at found
  cases found

private theorem verdicts_quiet (quiet : outputs.filterMap (Output.verdict? call) = []) :
    verdicts call (past ++ [⟨r, (clock, a), r', outputs⟩]) = verdicts call past := by
  rw [verdicts_concat, quiet, List.append_nil]

private theorem arrivals_quiet (other : ∀ m, a ≠ .handle call m) :
    arrivals call (past ++ [⟨r, (clock, a), r', outputs⟩]) = arrivals call past := by
  rw [arrivals_concat, arrival?_of_other other]
  exact List.append_nil _

private theorem verdict?_arrivalOutputs {m : Message} (c : Nat) :
    (r.arrivalOutputs clock call m).filterMap (Output.verdict? c) = [] := by
  rw [List.filterMap_eq_nil_iff]
  intro o told
  rcases List.mem_cons.mp told with rfl | told
  · rfl
  · obtain ⟨p, -, rfl⟩ := Option.map_eq_some_iff.mp (Option.mem_toList.mp told)
    rfl

/-- An arrival is answered at once or opens a handling. -/
private theorem Story.arrive {m : Message}
    (step : r.step? clock (.handle call m) = some (r', outputs))
    (came : arrivals call past = []) (told : verdicts call past = [])
    (untouched : Untouched call past r) :
    Story call (past ++ [⟨r, (clock, .handle call m), r', outputs⟩]) r' := by
  have came' : arrivals call (past ++ [⟨r, (clock, .handle call m), r', outputs⟩]) =
      [⟨clock, m, r.cancelled⟩] := by
    have this_one : arrival? call ⟨r, (clock, .handle call m), r', outputs⟩ =
        some ⟨clock, m, r.cancelled⟩ := if_pos rfl
    rw [arrivals_concat, came, this_one]
    rfl
  have publishes' (d : Nat) :
      publishes call d (past ++ [⟨r, (clock, .handle call m), r', outputs⟩]) = [] := by
    rw [publishes_concat, untouched.publishes, no_publish_of_step step (untouched.jobs d)]
    rfl
  have replies' (d : Nat) :
      replies call d (past ++ [⟨r, (clock, .handle call m), r', outputs⟩]) = [] := by
    rw [replies_concat, untouched.replies, heard_eq_nil (untouched.jobs d)]
    rfl
  have verdicts' : verdicts call (past ++ [⟨r, (clock, .handle call m), r', outputs⟩]) =
      outputs.filterMap (Output.verdict? call) := by
    rw [verdicts_concat, told]
    rfl
  obtain ⟨-, ⟨cancelled, rfl, rfl⟩ | ⟨reason, running, dropped, rfl, rfl⟩ |
    ⟨m', running, passed, done, rfl⟩⟩ := handle?_cases step
  · exact .turnedAway came' cancelled (verdicts'.trans (verdict?_pair ..))
      ⟨untouched.nobody, untouched.jobs, publishes', replies'⟩
  · refine .dropped came' running dropped ?_
      ⟨untouched.nobody, untouched.jobs, publishes', replies'⟩
    rw [verdicts', List.filterMap_append, verdict?_arrivalOutputs, verdict?_pair]
    rfl
  · have found : r'.handling? call = some (r.freshHandling call m') := by
      rw [handling?_concat (by rw [done]), untouched.nobody, if_pos rfl]
      rfl
    have route : r'.route = r.route := by rw [done]
    refine .handled ⟨came', running, by rw [route]; exact passed,
      verdicts'.trans (verdict?_arrivalOutputs call), found, rfl, fun {d leg} here ↦ ?_⟩
    rw [freshHandling, List.getElem?_map, Option.map_eq_some_iff] at here
    obtain ⟨p, -, rfl⟩ := here
    rw [replies']
    exact .fresh

namespace Underway

variable {x : Arrival} {m : Message} {h h' : Handling}

private theorem outcome_of_kept (underway : Underway call past r x m h) (kept : Kept r r') :
    (r'.route.prepare x.clock.wall x.message).outcome = .ok m := by
  rw [kept.route]
  exact underway.outcome

theorem replies_of_silent (silent : ∀ i j x, a ≠ .reply i j x) (d : Nat) :
    replies call d (past ++ [⟨r, (clock, a), r', outputs⟩]) = replies call d past := by
  rw [replies_concat, heard_of_silent silent, List.append_nil]

/-- A handling that goes on stays under way, and each leg follows its course. -/
theorem follow (underway : Underway call past r x m h)
    (step : r.step? clock a = some (r', outputs)) (other : ∀ m, a ≠ .handle call m)
    (found' : r'.handling? call = some h') (follows : Follows clock a call h r r' h') :
    Underway call (past ++ [⟨r, (clock, a), r', outputs⟩]) r' x m h' := by
  have kept := kept_of_step step
  have resolves : a ≠ .resolve call := by
    rintro rfl
    obtain ⟨-, -, -, rfl, -⟩ := resolve?_cases step
    rw [handling?_withoutHandling, if_pos rfl] at found'
    cases found'
  refine ⟨(arrivals_quiet other).trans underway.came, underway.early,
    underway.outcome_of_kept kept,
    (verdicts_quiet (no_verdict_of_step step other resolves)).trans underway.told, found',
    follows.message.trans underway.message, fun {d leg'} here' ↦ ?_⟩
  have hd : d < h.legs.length := by
    rw [← follows.length]
    exact (List.getElem?_eq_some_iff.mp here').1
  have here := List.getElem?_eq_getElem hd
  obtain ⟨leg'', here'', -, heard⟩ := follows.leg here
  rw [here'] at here''
  cases here''
  rw [replies_concat, kept.plan]
  -- a leg that hears nothing stays where it is, and any other takes the next step of its course
  rcases heard with ⟨same, nothing⟩ | moved
  · rw [nothing, List.append_nil, same]
    exact underway.courses here
  · rw [underway.message] at moved
    exact (underway.courses here).step moved

/-- When the caller leaves, at most one job or one acceptance is left behind for a destination. -/
theorem abandon (underway : Underway call past r x m h) (sound : r.Sound)
    (step : r.step? clock (.abandon call) = some (r', outputs)) (nobody : r'.handling? call = none)
    (fewer : ∀ d, (r'.jobsOf call d).length ≤ (r.jobsOf call d).length) :
    Story call (past ++ [⟨r, (clock, .abandon call), r', outputs⟩]) r' := by
  have kept := kept_of_step step
  refine .abandoned ((arrivals_quiet (by simp)).trans underway.came) underway.early
    (underway.outcome_of_kept kept) ?_ nobody
    ⟨_, List.mem_append_right _ (List.mem_singleton_self _), rfl⟩ fun d hd ↦ ?_
  · rw [verdicts_quiet (no_verdict_of_step step (by simp) (by simp)), underway.told]
  · rw [kept.route, ← sound.length_legs underway.found] at hd
    have here := List.getElem?_eq_getElem hd
    have left_over := fewer d
    rw [replies_of_silent (by simp), (underway.courses here).acceptances_eq]
    by_cases published : h.legs[d].phase = .settled .published
    · rw [sound.awaited underway.found here,
        Leg.awaits_of_ne (by simp [published]), List.length_nil] at left_over
      rw [if_pos published]
      omega
    · have single := sound.single call d
      rw [if_neg published]
      omega

theorem jobsOf_of_settled (underway : Underway call past r x m h) (sound : r.Sound)
    (settled : ∀ leg ∈ h.legs, leg.result?.isSome = true) (d : Nat) : r.jobsOf call d = [] := by
  cases here : h.legs[d]? with
  | none =>
    refine jobsOf_of_no_pool ?_ call
    rw [List.getElem?_eq_none_iff] at here ⊢
    rwa [← sound.legs underway.found]
  | some leg =>
    obtain ⟨result, phase⟩ := result?_of_isSome (settled leg (List.mem_of_getElem? here))
    rw [sound.awaited underway.found here, leg.awaits_of_ne (by simp [phase])]

theorem resolve (underway : Underway call past r x m h) (sound : r.Sound)
    (step : r.step? clock (.resolve call) = some (r', outputs)) (nobody : r'.handling? call = none)
    (fewer : ∀ d, (r'.jobsOf call d).length ≤ (r.jobsOf call d).length) :
    Story call (past ++ [⟨r, (clock, .resolve call), r', outputs⟩]) r' := by
  have kept := kept_of_step step
  obtain ⟨settled, given⟩ := sound.verdict_of_resolve step underway.found
  refine .resolved ((arrivals_quiet (by simp)).trans underway.came) underway.early
    (underway.outcome_of_kept kept) ?_ nobody (fun d ↦ ?_) ?_ settled fun {d leg} here ↦ ?_
  · rw [verdicts_concat, underway.told, given, kept.route]
    rfl
  · have left_over := fewer d
    rw [underway.jobsOf_of_settled sound settled, List.length_nil] at left_over
    exact List.eq_nil_of_length_eq_zero (by omega)
  · rw [kept.route, sound.length_legs underway.found]
  · rw [replies_of_silent (by simp), kept.plan]
    exact underway.courses here

theorem departed (underway : Underway call past r x m h) (sound : r.Sound)
    (step : r.step? clock (.resolve call) = some (r', outputs)) :
    call < r'.nextCall ∧ r'.handling? call = none ∧ ∀ d, r'.jobsOf call d = [] := by
  obtain ⟨h', found, settled, rfl, -⟩ := resolve?_cases step
  rw [underway.found] at found
  cases found
  have nobody : (r.withoutHandling call).handling? call = none := by
    rw [handling?_withoutHandling, if_pos rfl]
  refine ⟨sound.handling_lt underway.found, nobody, fun d ↦ ?_⟩
  obtain ⟨-, -, fewer⟩ | ⟨h', found', -⟩ := (effect_of_step step).handled sound underway.found
  · have left_over := fewer d
    rw [underway.jobsOf_of_settled sound settled, List.length_nil] at left_over
    exact List.eq_nil_of_length_eq_zero (by omega)
  · rw [nobody] at found'
    cases found'

end Underway

theorem Story.arrivals_le_one (story : Story call past r) : (arrivals call past).length ≤ 1 := by
  cases story with
  | unheard came => simp [came]
  | handled underway => simp [underway.came]
  | _ came => simp [came]

theorem Story.underway {h : Handling} (story : Story call past r)
    (found : r.handling? call = some h) : ∃ x m, Underway call past r x m h := by
  have absent (nobody : r.handling? call = none) : ∃ x m, Underway call past r x m h := by
    rw [nobody] at found
    cases found
  cases story with
  | unheard _ _ untouched => exact absent untouched.nobody
  | turnedAway _ _ _ untouched => exact absent untouched.nobody
  | dropped _ _ _ _ untouched => exact absent untouched.nobody
  | handled underway =>
    have same := underway.found
    rw [found] at same
    cases same
    exact ⟨_, _, underway⟩
  | resolved _ _ _ _ nobody => exact absent nobody
  | abandoned _ _ _ _ nobody => exact absent nobody

/-! ## All calls of all executions -/

theorem Story.step (story : Story call past r) (sound : r.Sound)
    (old : arrivals call past ≠ [] → call < r.nextCall)
    (step : r.step? clock a = some (r', outputs)) :
    Story call (past ++ [⟨r, (clock, a), r', outputs⟩]) r' := by
  by_cases arrives : ∃ m, a = .handle call m
  · -- the number of the call is new, so nothing has been heard of it before
    obtain ⟨m, rfl⟩ := arrives
    have new := (arrival_cases step).1
    have never : arrivals call past = [] := by
      by_contra came
      exact absurd (old came) (Nat.not_lt.mpr new)
    cases story with
    | unheard came told untouched => exact .arrive step came told untouched
    | handled underway =>
      have came := underway.came
      rw [never] at came
      cases came
    | _ came =>
      rw [never] at came
      cases came
  · -- otherwise the story goes on from where it stands
    have other (m : Message) : a ≠ .handle call m := fun same ↦ arrives ⟨m, same⟩
    have kept := kept_of_step step
    cases story with
    | unheard came told untouched =>
      exact .unheard ((arrivals_quiet other).trans came)
        ((verdicts_quiet (no_verdict step untouched.nobody other)).trans told)
        (untouched.step step other)
    | turnedAway came late told untouched =>
      exact .turnedAway ((arrivals_quiet other).trans came) late
        ((verdicts_quiet (no_verdict step untouched.nobody other)).trans told)
        (untouched.step step other)
    | dropped came early outcome told untouched =>
      exact .dropped ((arrivals_quiet other).trans came) early (by rw [kept.route]; exact outcome)
        ((verdicts_quiet (no_verdict step untouched.nobody other)).trans told)
        (untouched.step step other)
    | handled underway =>
      obtain ⟨nobody, rfl | rfl, fewer⟩ | ⟨h', found', follows⟩ :=
        (effect_of_step step).handled sound underway.found
      · exact underway.abandon sound step nobody fewer
      · exact underway.resolve sound step nobody fewer
      · exact .handled (underway.follow step other found' follows)
    | resolved came early outcome told nobody jobs legs settled courses =>
      obtain ⟨nobody', jobs', same⟩ := over_of_step step other nobody jobs
      refine .resolved ((arrivals_quiet other).trans came) early (by rw [kept.route]; exact outcome)
        ((verdicts_quiet (no_verdict step nobody other)).trans ?_) nobody' jobs' ?_ settled
        fun {d leg} here ↦ ?_
      · rw [told, kept.route]
      · rw [legs, kept.route]
      · rw [same, kept.plan]
        exact courses here
    | abandoned came early outcome told nobody left once =>
      obtain ⟨nobody', fewer⟩ := (effect_of_step step).unhandled nobody other
      obtain ⟨mo, mem, leaves⟩ := left
      refine .abandoned ((arrivals_quiet other).trans came) early
        (by rw [kept.route]; exact outcome)
        ((verdicts_quiet (no_verdict step nobody other)).trans told) nobody'
        ⟨mo, List.mem_append_left _ mem, leaves⟩ fun d hd ↦ ?_
      rw [kept.route] at hd
      rw [replies_concat, acceptances_append]
      have before := once d hd
      have after := fewer d
      have accepted := acceptances_le_length (r.heard call d (clock, a))
      simp only at accepted ⊢
      omega

theorem call_lt_of_arrivals {s : EngineSettings} {route : CompiledRoute}
    (runs : Runs s route past r) (came : arrivals call past ≠ []) : call < r.nextCall := by
  induction runs with
  | refl => exact absurd rfl came
  | @snoc past r r' act outputs _ step ih =>
    rcases act with ⟨clock, a⟩
    by_cases arrives : ∃ m, a = .handle call m
    · obtain ⟨m, rfl⟩ := arrives
      rw [(arrival_cases step).2.1]
      exact Nat.lt_succ_self call
    · have other (m : Message) : a ≠ .handle call m := fun same ↦ arrives ⟨m, same⟩
      rw [arrivals_quiet other] at came
      exact (ih came).trans_le (kept_of_step step).nextCall

theorem sound_of_runs {s : EngineSettings} {route : CompiledRoute} (runs : Runs s route past r) :
    r.Sound :=
  runs.invariant (sound_ofRoute s route) fun sound step ↦ Sound.step sound step

theorem kept_of_runs {s : EngineSettings} {route : CompiledRoute} (runs : Runs s route past r) :
    Kept (ofRoute s route) r := by
  induction runs with
  | refl => exact ⟨rfl, rfl, Nat.le_refl _, id⟩
  | snoc _ step ih =>
    have kept := kept_of_step step
    exact ⟨kept.route.trans ih.route, kept.backoff.trans ih.backoff,
      ih.nextCall.trans kept.nextCall, fun h ↦ kept.cancelled (ih.cancelled h)⟩

theorem mode_of_runs {s : EngineSettings} {route : CompiledRoute} (runs : Runs s route past r) :
    r.plan.mode = route.mode := by
  rw [plan, (kept_of_runs runs).route]
  rfl

theorem length_legs_of_runs {s : EngineSettings} {route : CompiledRoute} {h : Handling}
    (runs : Runs s route past r) (found : r.handling? call = some h) :
    h.legs.length = route.destinations.length := by
  rw [(sound_of_runs runs).length_legs found, (kept_of_runs runs).route]
  rfl

/-- **Every call of every execution is in one of the six states.** -/
theorem story_of_runs {s : EngineSettings} {route : CompiledRoute} (runs : Runs s route past r)
    (call : Nat) : Story call past r := by
  induction runs with
  | refl =>
    refine .unheard rfl rfl ⟨rfl, fun d ↦ ?_, fun d ↦ rfl, fun d ↦ rfl⟩
    rw [jobsOf, jobs_ofRoute]
    rfl
  | snoc runs step ih => exact ih.step (sound_of_runs runs) (call_lt_of_arrivals runs) step

theorem untouched_of_new {s : EngineSettings} {route : CompiledRoute} (runs : Runs s route past r)
    (new : r.nextCall ≤ call) : Untouched call past r := by
  have never : arrivals call past = [] := by
    by_contra came
    exact absurd (call_lt_of_arrivals runs came) (Nat.not_lt.mpr new)
  cases story_of_runs runs call with
  | unheard _ _ untouched => exact untouched
  | handled underway =>
    have came := underway.came
    rw [never] at came
    cases came
  | _ came =>
    rw [never] at came
    cases came

theorem idle_of_no_destination {s : EngineSettings} {route : CompiledRoute} {d : Nat}
    (runs : Runs s route past r) (hd : route.destinations.length ≤ d) (call : Nat) :
    r.jobsOf call d = [] ∧ ∀ mo ∈ past, mo.before.jobsOf call d = [] := by
  have idle {past : Past} {r : Running} (runs : Runs s route past r) : r.jobsOf call d = [] := by
    refine jobsOf_of_no_pool ?_ call
    rw [List.getElem?_eq_none_iff, (sound_of_runs runs).length_destinations,
      (kept_of_runs runs).route]
    exact hd
  refine ⟨idle runs, fun mo hmo ↦ ?_⟩
  obtain ⟨earlier, -, -, before, -⟩ := runs.at_moment hmo
  exact idle before

end Running

end MessageBridge
