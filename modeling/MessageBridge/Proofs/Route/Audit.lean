import MessageBridge.Proofs.Route.Journal

/-!
# What the log of a route accounts for

Whoever looks for lost messages reads the log. It can be relied on in two ways. An invocation of the
handler that returns has written one event that ends it, with the name that belongs to its verdict
and, if the message was dropped, to the reason; an invocation that does not return has written none
(`Running.endings_of_runs`). And for each destination of an invocation that has returned the numbers
add up: the publishes that were attempted have succeeded or failed, and after each failure the
destination was tried again or given up.

A worker that crashes writes nothing about the publish that it was at, so the first sum needs that
none does.
-/

namespace MessageBridge

/-! ## The ends of invocations -/

/-- The call that something is about. -/
def Topic.call? : Topic → Option Nat
  | .route => none
  | .call c | .leg c _ => some c

/-- The names of the events that end an invocation. -/
def Event.endingNames : List String :=
  ["ingress_reject_shutting_down", "pipeline_delivered", "pipeline_undelivered",
    "pipeline_decode_failed", "pipeline_filtered", "pipeline_filter_failed",
    "pipeline_projection_missing_field", "pipeline_projection_failed", "pipeline_encode_failed"]

/-- The event that ends the invocation of a call, if the output is one. -/
def Output.ending? (call : Nat) : Output → Option Event
  | .event t e => if t.call? = some call ∧ e.name ∈ Event.endingNames then some e else none
  | _ => none

/-- The name of the event of a dropped message. -/
def DropReason.eventName : DropReason → String
  | .undecodable _ => "pipeline_decode_failed"
  | .filtered _ => "pipeline_filtered"
  | .filterFailed _ _ => "pipeline_filter_failed"
  | .projectionFailed (.missingField _ _) => "pipeline_projection_missing_field"
  | .projectionFailed _ => "pipeline_projection_failed"
  | .unencodable _ => "pipeline_encode_failed"

theorem Event.name_dropped (route source message : String) (reason : DropReason) :
    (dropped route source message reason).name = reason.eventName := by
  cases reason with
  | projectionFailed e => cases e <;> rfl
  | _ => rfl

theorem DropReason.eventName_mem (reason : DropReason) : reason.eventName ∈ Event.endingNames := by
  cases reason with
  | projectionFailed e => cases e <;> simp [eventName, Event.endingNames]
  | _ => simp [eventName, Event.endingNames]

namespace Running

variable {s : EngineSettings} {route : CompiledRoute} {past later : Past} {r r' : Running}
  {clock : Clock} {a : Action} {outputs : List Output} {c d call : Nat}

/-- Why the message of an arrival is dropped, if it is. -/
def dropped? (route : CompiledRoute) (x : Arrival) : Option DropReason :=
  match (route.prepare x.clock.wall x.message).outcome with
  | .error reason => some reason
  | .ok _ => none

/-- The name of the event that goes with a verdict. -/
def endingName (dropped : Option DropReason) : Verdict → String
  | .error .shuttingDown => "ingress_reject_shutting_down"
  | .error (.undelivered _) => "pipeline_undelivered"
  | .ok () =>
    match dropped with
    | some reason => reason.eventName
    | none => "pipeline_delivered"

/-- The event goes with the verdict on an arrival. -/
structure Fits (route : CompiledRoute) (x : Arrival) (v : Verdict) (e : Event) : Prop where
  name : e.name = endingName (dropped? route x) v
  late : x.late = true ↔ v = .error .shuttingDown

/-- The events that ended the invocation of a call. -/
def endings (call : Nat) (past : Past) : List Event :=
  (Moment.told past).filterMap (Output.ending? call)

theorem endings_concat (call : Nat) (past : Past) (mo) :
    endings call (past ++ [mo]) =
      endings call past ++ mo.outputs.filterMap (Output.ending? call) := by
  rw [endings, Moment.told_append, Moment.told_singleton, List.filterMap_append]
  rfl

/-! ## One step -/

theorem notMem_endingNames {name : String} (leg : name ∈ Event.legNames) :
    name ∉ Event.endingNames :=
  (by decide : ∀ n ∈ Event.legNames, n ∉ Event.endingNames) name leg

/-- Only an arrival or a resolution ends an invocation. -/
theorem no_ending_of_step (sound : r.Sound) (step : r.step? clock a = some (r', outputs))
    (arrives : ∀ m, a ≠ .handle call m) (resolves : a ≠ .resolve call) :
    outputs.filterMap (Output.ending? call) = [] := by
  rw [List.filterMap_eq_nil_iff]
  intro o told
  cases o with
  | event t e =>
    refine if_neg fun ⟨about, ends⟩ ↦ ?_
    cases t with
    | route => cases about
    | call c =>
      cases about
      obtain ⟨m, arrival⟩ | resolution := cause_of_event step told
      · exact arrives m arrival
      · exact resolves resolution
    | leg c d =>
      cases about
      have written : e ∈ outputs.filterMap (Output.event? (.leg call d)) :=
        List.mem_filterMap.mpr ⟨_, told, if_pos rfl⟩
      have leg := ((report_of_step sound step call d).written e written).1
      exact notMem_endingNames leg ends
  | _ => rfl

/-- What is told about a message before its fate is known ends nothing. -/
theorem arrivalOutputs_quiet (clock : Clock) (m : Message) (r : Running) (call : Nat) :
    (r.arrivalOutputs clock call m).filterMap (Output.ending? call) = [] ∧
      (r.arrivalOutputs clock call m).filterMap (Output.verdict? call) = [] := by
  have written : ∀ o ∈ r.arrivalOutputs clock call m,
      ∃ t e, o = .event t e ∧ e.name ∉ Event.endingNames := by
    intro o told
    rcases List.mem_cons.mp told with rfl | told
    · exact ⟨_, _, rfl, by simp [Event.endingNames, Event.name, Event.line, Event.lineOf]⟩
    · obtain ⟨p, -, rfl⟩ := Option.map_eq_some_iff.mp (Option.mem_toList.mp told)
      exact ⟨_, _, rfl, by simp [Event.endingNames, Event.name, Event.line, Event.lineOf]⟩
  refine ⟨List.filterMap_eq_nil_iff.mpr fun o told ↦ ?_,
    List.filterMap_eq_nil_iff.mpr fun o told ↦ ?_⟩
  · obtain ⟨t, e, rfl, goes_on⟩ := written o told
    exact if_neg fun ends ↦ goes_on ends.2
  · obtain ⟨t, e, rfl, -⟩ := written o told
    rfl

theorem ends_pair {e : Event} (ends : e.name ∈ Event.endingNames) (v : Verdict) (call : Nat) :
    [Output.event (.call call) e, .verdict call v].filterMap (Output.ending? call) = [e] ∧
      [Output.event (.call call) e, .verdict call v].filterMap (Output.verdict? call) = [v] := by
  have this_event : Output.ending? call (.event (.call call) e) = some e := if_pos ⟨rfl, ends⟩
  have this_verdict : Output.verdict? call (.verdict call v) = some v := if_pos rfl
  rw [List.filterMap_cons_some this_event, List.filterMap_cons_none rfl,
    List.filterMap_cons_none rfl, List.filterMap_cons_some this_verdict]
  exact ⟨rfl, rfl⟩

theorem dropped?_of_error {x : Arrival} {reason : DropReason}
    (dropped : (route.prepare x.clock.wall x.message).outcome = .error reason) :
    dropped? route x = some reason := by
  rw [dropped?, dropped]

theorem dropped?_of_ok {x : Arrival} {m : Message}
    (passed : (route.prepare x.clock.wall x.message).outcome = .ok m) :
    dropped? route x = none := by
  rw [dropped?, passed]

/-- The verdicts and the events that end invocations go together in every step. -/
theorem fits_of_step (runs : Runs s route past r) (step : r.step? clock a = some (r', outputs))
    (call : Nat) :
    List.Forall₂ (fun v e ↦ ∃ x ∈ arrivals call (past ++ [⟨r, (clock, a), r', outputs⟩]),
        Fits route x v e)
      (outputs.filterMap (Output.verdict? call)) (outputs.filterMap (Output.ending? call)) := by
  have same_route : r.route = route := (kept_of_runs runs).route
  -- verdicts are given on arrival and at the end of a call, each beside its event
  by_cases arrives : ∃ m, a = .handle call m
  · obtain ⟨m, rfl⟩ := arrives
    have now : (⟨clock, m, r.cancelled⟩ : Arrival) ∈
        arrivals call (past ++ [⟨r, (clock, .handle call m), r', outputs⟩]) :=
      mem_arrivals (List.mem_append_right _ (List.mem_singleton_self _)) rfl
    obtain ⟨quiet, undecided⟩ := arrivalOutputs_quiet clock m r call
    obtain ⟨-, ⟨late, -, rfl⟩ | ⟨reason, early, dropped, -, rfl⟩ | ⟨m', -, -, -, rfl⟩⟩ :=
      handle?_cases step
    · obtain ⟨ending, verdict⟩ := ends_pair (e := .turnedAway r.route.name m.idText)
        (by simp [Event.endingNames, Event.name, Event.line, Event.lineOf])
        (.error .shuttingDown) call
      rw [ending, verdict]
      exact .cons ⟨_, now, rfl, iff_of_true late rfl⟩ .nil
    · obtain ⟨ending, verdict⟩ := ends_pair
        (e := .dropped r.route.name r.route.source.label m.idText reason)
        (by rw [Event.name_dropped]; exact reason.eventName_mem) (.ok ()) call
      rw [List.filterMap_append, List.filterMap_append, quiet, undecided, ending, verdict]
      refine .cons ⟨_, now, ?_, iff_of_false (by simp [early]) (by simp)⟩ .nil
      rw [Event.name_dropped, dropped?_of_error (same_route ▸ dropped)]
      rfl
    · rw [quiet, undecided]
      exact .nil
  · by_cases resolves : a = .resolve call
    · subst resolves
      obtain ⟨h, found, -, -, told⟩ := resolve?_cases step
      obtain ⟨x, sent, underway⟩ := (story_of_runs runs call).underway found
      have came : x ∈ arrivals call (past ++ [⟨r, (clock, .resolve call), r', outputs⟩]) := by
        rw [arrivals_concat, underway.came]
        exact List.mem_append_left _ (List.mem_singleton_self x)
      have passed := dropped?_of_ok (same_route ▸ underway.outcome)
      rcases told with ⟨-, rfl⟩ | ⟨-, rfl⟩
      · obtain ⟨ending, verdict⟩ := ends_pair (e := .delivered r.route.name h.message.idText _ _)
          (by simp [Event.endingNames, Event.name, Event.line, Event.lineOf]) (.ok ()) call
        rw [ending, verdict]
        refine .cons ⟨x, came, ?_, iff_of_false (by simp [underway.early]) (by simp)⟩ .nil
        rw [passed]
        rfl
      · obtain ⟨ending, verdict⟩ := ends_pair (e := .undelivered h.message.idText _)
          (by simp [Event.endingNames, Event.name, Event.line, Event.lineOf])
          (.error (.undelivered _)) call
        rw [ending, verdict]
        exact .cons ⟨x, came, rfl, iff_of_false (by simp [underway.early]) (by simp)⟩ .nil
    · rw [no_ending_of_step (sound_of_runs runs) step (fun m same ↦ arrives ⟨m, same⟩) resolves,
        no_verdict_of_step step (fun m same ↦ arrives ⟨m, same⟩) resolves]
      exact .nil

/-! ## All steps -/

/-- **The verdicts of a call and the events that ended its invocations go together.** -/
theorem endings_of_runs (runs : Runs s route past r) (call : Nat) :
    List.Forall₂ (fun v e ↦ ∃ x ∈ arrivals call past, Fits route x v e)
      (verdicts call past) (endings call past) := by
  induction runs with
  | refl => exact .nil
  | @snoc past r r' act outputs before step ih =>
    rcases act with ⟨clock, a⟩
    rw [verdicts_concat, endings_concat]
    refine List.rel_append (ih.imp fun v e ⟨x, came, fits⟩ ↦ ⟨x, ?_, fits⟩)
      (fits_of_step before step call)
    rw [arrivals_concat]
    exact List.mem_append_left _ came

theorem Story.verdicts_cases (story : Story call past r) :
    verdicts call past = [] ∨ ∃ x v, arrivals call past = [x] ∧ verdicts call past = [v] := by
  cases story with
  | unheard _ told _ => exact .inl told
  | turnedAway came _ told _ => exact .inr ⟨_, _, came, told⟩
  | dropped came _ _ told _ => exact .inr ⟨_, _, came, told⟩
  | handled underway => exact .inl underway.told
  | resolved came _ _ told _ _ _ _ _ => exact .inr ⟨_, _, came, told⟩
  | abandoned _ _ _ told _ _ _ => exact .inl told

theorem jobsOf_of_returned (runs : Runs s route past r) (returned : verdicts call past ≠ [])
    (d : Nat) : r.jobsOf call d = [] := by
  cases story_of_runs runs call with
  | unheard _ told _ => exact absurd told returned
  | turnedAway _ _ _ untouched => exact untouched.jobs d
  | dropped _ _ _ _ untouched => exact untouched.jobs d
  | handled underway => exact absurd underway.told returned
  | resolved _ _ _ _ _ jobs _ _ _ => exact jobs d
  | abandoned _ _ _ told _ _ _ => exact absurd told returned

theorem legLog_of_resolve {mo : Moment Running (Clock × Action) Output} {earlier : Past}
    (runs : Runs s route (earlier ++ mo :: later) r) (resolves : mo.action.2 = .resolve call)
    (d : Nat) :
    legLog call d (earlier ++ mo :: later) = legLog call d earlier ∧
      replies call d (earlier ++ mo :: later) = replies call d earlier := by
  obtain ⟨before, step, after⟩ := runs.at_split
  rcases mo with ⟨r₀, ⟨clock, a⟩, r₁, outputs⟩
  obtain rfl : a = .resolve call := resolves
  have sound := sound_of_runs before
  obtain ⟨h, found, -, -, -⟩ := resolve?_cases step
  obtain ⟨x, sent, underway⟩ := (story_of_runs before call).underway found
  obtain ⟨old, nobody, jobs⟩ := underway.departed sound step
  have this_one := legEvents_of_quiet step (c := call) (d := d) (by simp) (by simp) (by simp)
  have then_on := legLog_of_over (before.snoc step) after old nobody jobs d
  rw [List.append_cons]
  constructor
  · rw [legLog_append, legLog_concat, this_one, then_on, List.append_nil, List.append_nil]
  · rw [replies_append, replies_concat, heard_of_silent (by simp),
      replies_of_over after old nobody jobs d, List.append_nil, List.append_nil]

theorem legLog_of_arrival {mo : Moment Running (Clock × Action) Output} {earlier : Past}
    {m : Message} {v : Verdict} (runs : Runs s route (earlier ++ mo :: later) r)
    (arrives : mo.action.2 = .handle call m) (told : .verdict call v ∈ mo.outputs) (d : Nat) :
    legLog call d (earlier ++ mo :: later) = [] := by
  obtain ⟨before, step, after⟩ := runs.at_split
  rcases mo with ⟨r₀, ⟨clock, a⟩, r₁, outputs⟩
  obtain rfl : a = .handle call m := arrives
  change Runs s route earlier r₀ at before
  change r₀.act (clock, .handle call m) = some (r₁, outputs) at step
  obtain ⟨new, next, pools, -⟩ := arrival_cases step
  have untouched := untouched_of_new before new
  -- with the verdict no handling has begun
  have nobody : r₁.handling? call = none := by
    obtain ⟨-, ⟨-, rfl, -⟩ | ⟨reason, -, -, rfl, -⟩ | ⟨m', -, -, -, outputs_eq⟩⟩ :=
      handle?_cases step
    · exact untouched.nobody
    · exact untouched.nobody
    · have undecided := (arrivalOutputs_quiet clock m r₀ call).2
      rw [← outputs_eq, List.filterMap_eq_nil_iff] at undecided
      exact absurd (undecided _ told) (by simp [Output.verdict?])
  have jobs (d : Nat) : r₁.jobsOf call d = [] := by
    rw [jobsOf_congr (jobs_of_pools_eq pools d)]
    exact untouched.jobs d
  have this_one := legEvents_of_quiet step (c := call) (d := d) (by simp) (by simp) (by simp)
  have then_on := legLog_of_over (before.snoc step) after
    (by rw [next]; exact Nat.lt_succ_self call) nobody jobs d
  rw [List.append_cons, legLog_append, legLog_concat, legLog_of_new before new, this_one, then_on]
  rfl

/-! ## The audit -/

/-- The numbers of what was written about the way of a message to one destination add up. -/
structure Balanced (log : List Event) : Prop where
  attempts : Event.count "lane_publish_attempt" log =
    Event.count "lane_publish_ok" log + Event.count "lane_publish_failed" log
  failures : Event.count "lane_publish_failed" log =
    Event.count "delivery_retry_scheduled" log + Event.count "delivery_tolerated" log

/-- What the log says about a call. -/
structure Audit (route : CompiledRoute) (past : Past) (call : Nat) : Prop where
  /-- An invocation that has returned has written one event that ends it, which goes with its
  verdict. One that has not returned has written none. -/
  ending : verdicts call past = [] ∧ endings call past = [] ∨
    ∃ x v e, arrivals call past = [x] ∧ verdicts call past = [v] ∧ endings call past = [e] ∧
      Fits route x v e
  /-- When it has returned, the numbers add up for each destination. -/
  balanced : verdicts call past ≠ [] → ∀ d < route.destinations.length,
    Balanced (legLog call d past)
  /-- When all destinations have reached an end, each that was given up or broken off has written
  one event of that, and no other has. -/
  ends : ∀ mo ∈ past, mo.action.2 = .resolve call → ∃ sent ends,
    Resolution route past call sent mo ends ∧ ∀ d e, ends[d]? = some e →
      Event.count "delivery_tolerated" (legLog call d past) = (if e.isTolerated then 1 else 0) ∧
      Event.count "delivery_cancelled" (legLog call d past) = if e.isCancelled then 1 else 0
  /-- What is counted for a destination names it. -/
  destination : ∀ d dest, route.destinations[d]? = some dest → ∀ e ∈ legLog call d past,
    ("destination", dest.label) ∈ e.line.fields

theorem crashes_of_calm (calm : ∀ mo ∈ past, ∀ i j, mo.action.2 ≠ .crash i j) (c d : Nat) :
    crashes c d past = [] :=
  List.flatMap_eq_nil_iff.mpr fun mo mem ↦ crashedOver_of_calm (calm mo mem) c d

/-- Each publish of an invocation that has returned has succeeded or failed, unless a worker crashed
over it. -/
theorem attempts_of_returned (runs : Runs s route past r) (returned : verdicts call past ≠ [])
    (d : Nat) : Event.count "lane_publish_attempt" (legLog call d past) =
      Event.count "lane_publish_ok" (legLog call d past) +
        Event.count "lane_publish_failed" (legLog call d past) + (crashes call d past).length := by
  obtain ⟨attempts, accepted, refused⟩ := workers_of_runs runs call d
  have all := publishes_of_runs runs call d
  have none_held : r.held call d = 0 := by
    have at_most := r.held_le call d
    rw [jobsOf_of_returned runs returned d, List.length_nil] at at_most
    exact Nat.le_zero.mp at_most
  rw [attempts, accepted, refused, acceptances_add_denials, all, none_held, Nat.add_zero]

/-- After each failure of a resolved call the destination was tried again or given up, and the log
says what became of it. -/
theorem logged_of_resolve {mo : Moment Running (Clock × Action) Output} {h : Handling} {leg : Leg}
    (runs : Runs s route past r) (mem : mo ∈ past) (resolves : mo.action.2 = .resolve call)
    (found : mo.before.handling? call = some h) (here : h.legs[d]? = some leg) :
    Logged (legLog call d past) (replies call d past) leg := by
  obtain ⟨earlier, later, rfl, before, -⟩ := runs.at_moment mem
  obtain ⟨log, replies⟩ := legLog_of_resolve runs resolves d
  rw [log, replies]
  exact logged_of_runs before found here

theorem moment_of_returned (runs : Runs s route past r) (returned : verdicts call past ≠ []) :
    (∃ mo ∈ past, mo.action.2 = .resolve call) ∨ ∀ d, legLog call d past = [] := by
  obtain ⟨v, mem⟩ := List.exists_mem_of_ne_nil _ returned
  obtain ⟨o, told, this⟩ := List.mem_filterMap.mp mem
  cases o with
  | verdict c v' =>
    rw [Output.verdict?, Option.ite_none_right_eq_some] at this
    obtain ⟨rfl, -⟩ := this
    obtain ⟨mo, here, given⟩ := Moment.mem_told.mp told
    obtain ⟨earlier, later, rfl, -, step, -⟩ := runs.at_moment here
    obtain ⟨m, arrives⟩ | resolves := caused_of_step step _ given
    · exact .inr (legLog_of_arrival runs arrives given)
    · exact .inl ⟨mo, here, resolves⟩
  | _ => cases this

theorem resolution_of_resolve {mo : Moment Running (Clock × Action) Output}
    (runs : Runs s route past r) (mem : mo ∈ past) (resolves : mo.action.2 = .resolve call) :
    ∃ sent ends, Resolution route past call sent mo ends := by
  obtain ⟨earlier, later, rfl, before, step, -⟩ := runs.at_moment mem
  have unchanged (d : Nat) := (legLog_of_resolve runs resolves d).2
  rcases mo with ⟨r₀, ⟨clock, a⟩, r₁, outputs⟩
  obtain rfl : a = .resolve call := resolves
  obtain ⟨h, found, -, -, -⟩ := resolve?_cases step
  obtain ⟨x, sent, underway⟩ := (story_of_runs before call).underway found
  exact ⟨sent, underway.resolution (sound_of_runs before) step (kept_of_runs before).route
    unchanged⟩

theorem Resolution.leg {mo : Moment Running (Clock × Action) Output} {sent : Message}
    {ends : List LegEnd} {e : LegEnd} (resolution : Resolution route past call sent mo ends)
    (there : ends[d]? = some e) : ∃ h leg, mo.before.handling? call = some h ∧
      h.legs[d]? = some leg ∧ leg.phase = .settled e := by
  obtain ⟨h, found, -, each⟩ := resolution.final
  have at_d := congrArg (·[d]?) each
  simp only [List.getElem?_map, there, Option.map_some] at at_d
  obtain ⟨leg, here, ended⟩ := Option.map_eq_some_iff.mp at_d
  exact ⟨h, leg, found, here, phase_of_result? ended⟩

/-- **The log accounts for every attempt.** An invocation that returns writes one event that ends it
and goes with its verdict. As long as no worker crashes, the events about each of its destinations
add up, and they say which destinations were given up or broken off. -/
theorem audit (runs : Runs s route past r)
    (calm : ∀ mo ∈ past, ∀ i j, mo.action.2 ≠ .crash i j) (call : Nat) :
    Audit route past call := by
  refine ⟨?_, ?_, ?_, fun d dest there ↦ destination_of_runs runs there call⟩
  · have together := endings_of_runs runs call
    obtain none_given | ⟨x, v, came, given⟩ := (story_of_runs runs call).verdicts_cases
    · rw [none_given] at together
      exact .inl ⟨none_given, List.forall₂_nil_left_iff.mp together⟩
    · rw [given] at together
      obtain ⟨e, rest, ⟨x', mem, fits⟩, others, endings_eq⟩ :=
        List.forall₂_cons_left_iff.mp together
      rw [List.forall₂_nil_left_iff.mp others] at endings_eq
      rw [came, List.mem_singleton] at mem
      exact .inr ⟨x, v, e, came, given, endings_eq, mem ▸ fits⟩
  · intro returned d hd
    refine ⟨?_, ?_⟩
    · rw [attempts_of_returned runs returned d, crashes_of_calm calm call d]
      rfl
    · obtain ⟨mo, mem, resolves⟩ | nothing := moment_of_returned runs returned
      · obtain ⟨sent, ends, resolution⟩ := resolution_of_resolve runs mem resolves
        rw [← resolution.length] at hd
        obtain ⟨h, leg, found, here, -⟩ := resolution.leg (List.getElem?_eq_getElem hd)
        have logged := logged_of_resolve runs mem resolves found here
        rw [(workers_of_runs runs call d).2.2, ← logged.followed]
      · rw [nothing]
        rfl
  · intro mo mem resolves
    obtain ⟨sent, ends, resolution⟩ := resolution_of_resolve runs mem resolves
    refine ⟨sent, ends, resolution, fun d e there ↦ ?_⟩
    obtain ⟨h, leg, found, here, settled⟩ := resolution.leg there
    have logged := logged_of_resolve runs mem resolves found here
    rw [logged.tolerated, logged.cancelled, Leg.endedAs_of_settled settled,
      Leg.endedAs_of_settled settled]
    exact ⟨rfl, rfl⟩

/-- One destination accepts the message and the other refuses it, which the mode tolerates. A second
message finds the route stopping. -/
theorem audit_of_refusal : ∃ past r, Runs oneLane pairOnce past r ∧
    Audit pairOnce past 0 ∧ Audit pairOnce past 1 ∧
    (endings 0 past).map Event.name = ["pipeline_delivered"] ∧
    (endings 1 past).map Event.name = ["ingress_reject_shutting_down"] ∧
    (legLog 0 0 past).map Event.name = ["lane_publish_attempt", "lane_publish_ok"] ∧
    (legLog 0 1 past).map Event.name =
      ["lane_publish_attempt", "lane_publish_failed", "delivery_tolerated"] := by
  have runs := (Execution.refl : Runs oneLane pairOnce [] _)
    |>.snoc (a := (⟨0, 0⟩, .handle 0 note)) rfl
    |>.snoc (a := (⟨0, 0⟩, .submit 0 0)) rfl
    |>.snoc (a := (⟨0, 0⟩, .submit 0 1)) rfl
    |>.snoc (a := (⟨0, 0⟩, .take 0 0)) rfl
    |>.snoc (a := (⟨0, 0⟩, .take 1 0)) rfl
    |>.snoc (a := (⟨1, 1⟩, .reply 0 0 (.ok ()))) rfl
    |>.snoc (a := (⟨1, 1⟩, .reply 1 0 (.error (.publish "no")))) rfl
    |>.snoc (a := (⟨2, 2⟩, .resolve 0)) rfl
    |>.snoc (a := (⟨3, 3⟩, .cancel)) rfl
    |>.snoc (a := (⟨3, 3⟩, .handle 1 note)) rfl
  have calm := fun call ↦ audit runs (by simp) call
  exact ⟨_, _, runs, calm 0, calm 1, rfl, rfl, rfl, rfl⟩

end Running

end MessageBridge
