import MessageBridge.Proofs.Delivery.Rounds
import MessageBridge.Proofs.Route.Story

/-!
# The deliveries of a route

Every leg of every execution is a delivery under some circumstances (`Running.delivery_of_runs`).
What it does is read off the history of the route: a job where the leg leaves the state in which it
is ready for one, a wait where it begins to wait. The circumstances are not known beforehand. When
an answer is heard, or a wait ends, those met so far are changed at the last job
(`Circumstances.record`), and that changes nothing about the jobs before it.

So the loop and the machine tell the same, and `Running.delivers` says it of both: how a delivery
runs under given circumstances, and that a leg of a running route is one.
-/

namespace MessageBridge

/-! ## Circumstances that become known -/

namespace Circumstances

/-- The circumstances with those of one job replaced. -/
def record (k : Nat) (answer : JobAnswer) (clock : Clock) (brokenOff : Bool)
    (meets : Circumstances) : Circumstances :=
  ⟨Function.update meets.answer k answer, Function.update meets.clock k clock,
    Function.update meets.brokenOff k brokenOff⟩

section Record

variable (k : Nat) (answer : JobAnswer) (clock : Clock) (brokenOff : Bool) (meets : Circumstances)

@[simp] theorem answer_record : (meets.record k answer clock brokenOff).answer k = answer :=
  Function.update_self ..

@[simp] theorem clock_record : (meets.record k answer clock brokenOff).clock k = clock :=
  Function.update_self ..

@[simp] theorem brokenOff_record :
    (meets.record k answer clock brokenOff).brokenOff k = brokenOff := Function.update_self ..

end Record

/-- The answers to the first `k` jobs are the same, and heard at the same times. -/
def HeardTo (k : Nat) (meets meets' : Circumstances) : Prop :=
  ∀ i ≤ k, meets'.answer i = meets.answer i ∧ meets'.clock i = meets.clock i

/-- Besides, the waits after these jobs end in the same way. -/
def SameTo (k : Nat) (meets meets' : Circumstances) : Prop :=
  HeardTo k meets meets' ∧ ∀ i ≤ k, meets'.brokenOff i = meets.brokenOff i

variable {plan : RetryPlan} {m : Message} {meets meets' : Circumstances} {k i : Nat}

theorem sameTo_record (k : Nat) (answer : JobAnswer) (clock : Clock) (brokenOff : Bool)
    (meets : Circumstances) : SameTo k meets (meets.record (k + 1) answer clock brokenOff) := by
  have other {i : Nat} (hi : i ≤ k) : i ≠ k + 1 := by omega
  refine ⟨fun i hi ↦ ⟨?_, ?_⟩, fun i hi ↦ ?_⟩ <;> exact Function.update_of_ne (other hi) ..

/-- Only the end of its wait is new for a job whose answer was heard. -/
theorem heardTo_record (k : Nat) (brokenOff : Bool) (meets : Circumstances) :
    HeardTo k meets (meets.record k (meets.answer k) (meets.clock k) brokenOff) := by
  refine fun i _ ↦ ⟨?_, ?_⟩ <;> exact congrFun (Function.update_eq_self k _) i

namespace HeardTo

theorem error? (same : HeardTo k meets meets') : meets'.error? k = meets.error? k := by
  cases k with
  | zero => rfl
  | succ k => simp only [Circumstances.error?, (same (k + 1) (Nat.le_refl _)).1]

theorem rounds (same : HeardTo k meets meets') (plan : RetryPlan) :
    meets'.rounds plan k = meets.rounds plan k := by
  apply List.flatMap_congr
  intro i mem
  rw [due, due, (same (i + 1) (List.mem_range.mp mem)).2]

/-- If it depended on the wait before how the delivery ends, it does so now. -/
theorem ends? (same : HeardTo k meets meets')
    (waits : meets.ends? plan m k =
      if meets.brokenOff k then some (.failed .cancelled) else none) :
    meets'.ends? plan m k = if meets'.brokenOff k then some (.failed .cancelled) else none := by
  obtain ⟨answer, clock⟩ := same k (Nat.le_refl k)
  simp only [Circumstances.ends?, answer, clock] at waits ⊢
  cases heard : meets.answer k with
  | refused error =>
    simp only [heard] at waits ⊢
    cases decision : plan.mode.onFailure (min k Leg.greatestCount)
        (m.age? (meets.clock k).wall) with
    | retry => rfl
    | tolerate reason =>
      simp only [decision] at waits
      split at waits <;> cases waits
  | _ =>
    simp only [heard] at waits
    split at waits <;> cases waits

end HeardTo

namespace SameTo

theorem ends? (same : SameTo k meets meets') (hi : i ≤ k) :
    meets'.ends? plan m i = meets.ends? plan m i := by
  obtain ⟨answer, clock⟩ := same.1 i hi
  simp only [Circumstances.ends?, answer, clock, same.2 i hi]

theorem goesOn (same : SameTo k meets meets') (on : meets.GoesOn plan m k) :
    meets'.GoesOn plan m k := fun i one hi ↦ (same.ends? hi).trans (on i one hi)

/-- What the delivery is after its next job does not depend on what becomes of that. -/
theorem submitted (same : SameTo k meets meets') (plan : RetryPlan) :
    meets'.submitted plan k = meets.submitted plan k := by
  rw [Circumstances.submitted, Circumstances.submitted, same.1.rounds, same.1.error?]

end SameTo

/-- The first answers of the bus are those of the circumstances. -/
def Fits (meets : Circumstances) (replies : List Reply) : Prop :=
  ∀ i reply, replies[i]? = some reply →
    meets.answer (i + 1) = Running.jobAnswer reply.answer ∧ meets.clock (i + 1) = reply.clock

theorem Fits.of_heardTo {replies : List Reply} (fits : meets.Fits replies)
    (same : HeardTo replies.length meets meets') : meets'.Fits replies := by
  intro i reply here
  obtain ⟨hi, -⟩ := List.getElem?_eq_some_iff.mp here
  obtain ⟨answer, clock⟩ := same (i + 1) hi
  rw [answer, clock]
  exact fits i reply here

theorem Fits.concat {replies : List Reply} {reply : Reply} (fits : meets.Fits replies)
    (answer : meets.answer (replies.length + 1) = Running.jobAnswer reply.answer)
    (clock : meets.clock (replies.length + 1) = reply.clock) : meets.Fits (replies ++ [reply]) := by
  intro i reply' here
  rcases Nat.lt_or_ge i replies.length with before | last
  · rw [List.getElem?_append_left before] at here
    exact fits i reply' here
  · rw [List.getElem?_append_right last, List.getElem?_singleton] at here
    split at here
    · obtain rfl : i = replies.length := by omega
      cases here
      exact ⟨answer, clock⟩
    · cases here

end Circumstances

/-! ## Deeds of a leg -/

/-- What a leg has done when it has changed into another. -/
def Leg.deeds (leg leg' : Leg) : List Deed :=
  match leg.phase, leg'.phase with
  | .ready, .ready => []
  | .ready, _ => [.submit]
  | .submitted, .waiting due => [.wait due]
  | _, _ => []

theorem Leg.deeds_of_ready {leg leg' : Leg} (ready : leg.phase = .ready)
    (leaves : leg'.phase ≠ .ready) : leg.deeds leg' = [.submit] := by
  unfold Leg.deeds
  rw [ready]
  cases phase : leg'.phase with
  | ready => exact absurd phase leaves
  | _ => rfl

theorem Leg.deeds_of_waiting {leg : Leg} {due : Nat} (waiting : leg.phase = .waiting due)
    (leg' : Leg) : leg.deeds leg' = [] := by
  unfold Leg.deeds
  rw [waiting]

theorem Leg.waits_lose (leg : Leg) (submitted : leg.phase = .submitted) : leg.lose.waits = [] := by
  rw [Leg.waits, Leg.phase_lose submitted]

@[simp] theorem Leg.deeds_self (leg : Leg) : leg.deeds leg = [] := by
  unfold Leg.deeds
  cases leg.phase <;> rfl

theorem Leg.deeds_of_submitted {leg : Leg} (submitted : leg.phase = .submitted) (leg' : Leg) :
    leg.deeds leg' = leg'.waits := by
  unfold Leg.deeds Leg.waits
  rw [submitted]
  cases leg'.phase <;> rfl

namespace Delivery

/-- Under some circumstances in which the bus gives these answers, the delivery is on its way. -/
def Meets (plan : RetryPlan) (m : Message) (replies : List Reply) (d : Delivery) : Prop :=
  ∃ meets, Stands plan m meets replies.length d ∧ meets.Fits replies

variable {plan : RetryPlan} {m : Message} {replies new : List Reply} {d : Delivery} {leg' : Leg}

/-- A delivery that has submitted a job goes on with whatever answer it hears. -/
private theorem Stands.hear {meets : Circumstances} {k : Nat} {d : Delivery}
    (on : meets.GoesOn plan m k) (here : d = meets.submitted plan k) (answer : JobAnswer)
    (clock : Clock) :
    Stands plan m (meets.record (k + 1) answer clock false) (if answer = .lost then k else k + 1)
      ⟨d.deeds ++ (d.leg.answer plan clock.now (m.age? clock.wall) answer).waits,
        d.leg.answer plan clock.now (m.age? clock.wall) answer⟩ := by
  subst here
  have same := Circumstances.sameTo_record k answer clock false meets
  have lost := @Circumstances.ends?_eq_laneClosed plan m (meets.record (k + 1) answer clock false)
    (k + 1)
  have next := Circumstances.next_submitted plan m (meets.record (k + 1) answer clock false) k
  have phase : (meets.submitted plan k).leg.phase = .submitted := rfl
  rw [same.submitted, Delivery.next, phase] at next
  simp only [Circumstances.jobs_submitted, Circumstances.answer_record,
    Circumstances.clock_record] at next lost
  rcases next with ⟨next, waits⟩ | ⟨e, ends, -, next⟩
  · rw [next, if_neg]
    · exact .waiting (same.goesOn on) waits
    · rw [← lost, waits, Circumstances.brokenOff_record]
      simp
  · rw [ends, Option.some.injEq] at lost
    rw [next]
    simp only [← lost]
    exact .ended (same.goesOn on) ends

/-- A delivery whose job is lost has ended. -/
private theorem Stands.lose {meets : Circumstances} (on : meets.GoesOn plan m replies.length)
    (fits : meets.Fits replies) (here : d = meets.submitted plan replies.length) :
    Meets plan m replies ⟨d.deeds, d.leg.lose⟩ := by
  have submitted : d.leg.phase = .submitted := by rw [here]; rfl
  have stands := Stands.hear on here .lost ⟨0, 0⟩
  rw [← Leg.lose_of_submitted submitted, Leg.waits_lose _ submitted, List.append_nil,
    if_pos rfl] at stands
  exact ⟨_, stands, fits.of_heardTo (Circumstances.sameTo_record ..).1⟩

/-- A wait that ends is one more circumstance. -/
private theorem Stands.end_wait {meets : Circumstances} {due answered : Nat}
    (stands : Stands plan m meets answered d) (waiting : d.leg.phase = .waiting due)
    (brokenOff : Bool) :
    ∃ meets', Circumstances.HeardTo answered meets meets' ∧
      Stands plan m meets' answered
        ⟨d.deeds, if brokenOff then d.leg.settle (.failed .cancelled)
          else { d.leg with phase := .ready }⟩ := by
  obtain ⟨k, rfl, on, rfl, waits⟩ := stands.of_waiting waiting
  have heard := Circumstances.heardTo_record (k + 1) brokenOff meets
  have same := Circumstances.sameTo_record k (meets.answer (k + 1)) (meets.clock (k + 1)) brokenOff
    meets
  refine ⟨_, heard, ?_⟩
  have ends := heard.ends? waits
  rw [Circumstances.brokenOff_record] at ends
  cases brokenOff with
  | true =>
    have stands := Stands.ended (same.goesOn on) ends
    rw [Circumstances.ended, heard.rounds, heard.error?] at stands
    exact stands
  | false =>
    have stands := Stands.between ((same.goesOn on).succ ends)
    rw [Circumstances.between, heard.rounds, heard.error?] at stands
    exact stands

/-- **What a leg does and hears is the next step of its delivery.** -/
theorem Meets.step (met : Meets plan m replies d) (step : Leg.Step plan m new d.leg leg') :
    Meets plan m (replies ++ new) ⟨d.deeds ++ d.leg.deeds leg', leg'⟩ := by
  obtain ⟨meets, stands, fits⟩ := met
  -- a leg that is ready submits its job, whether or not the lane takes it
  have submits (ready : d.leg.phase = .ready) : meets.GoesOn plan m replies.length ∧
      ⟨d.deeds ++ [.submit], d.leg.submit⟩ = meets.submitted plan replies.length := by
    obtain ⟨on, here⟩ := stands.of_ready ready
    have next := Circumstances.next_between plan m meets replies.length
    rw [← here, Delivery.next, ready] at next
    exact ⟨on, next⟩
  generalize same : d.leg = leg at step
  cases step with
  | submit ready =>
    subst same
    obtain ⟨on, here⟩ := submits ready
    rw [List.append_nil, Leg.deeds_of_ready ready (by simp [Leg.submit]), here]
    exact ⟨meets, .submitted on, fits⟩
  | refuse ready =>
    subst same
    obtain ⟨on, here⟩ := submits ready
    have leaves : d.leg.submit.lose.phase ≠ .ready := by
      rw [Leg.phase_lose rfl]
      simp
    rw [List.append_nil, Leg.deeds_of_ready ready leaves]
    exact Stands.lose on fits here
  | lose submitted =>
    subst same
    obtain ⟨on, here⟩ := stands.of_submitted submitted
    rw [List.append_nil, Leg.deeds_of_submitted submitted, Leg.waits_lose _ submitted,
      List.append_nil]
    exact Stands.lose on fits here
  | wake waiting =>
    subst same
    obtain ⟨meets', heard, stands⟩ := stands.end_wait waiting false
    rw [List.append_nil, Leg.deeds_of_waiting waiting, List.append_nil]
    exact ⟨meets', stands, fits.of_heardTo heard⟩
  | breakOff waiting =>
    subst same
    obtain ⟨meets', heard, stands⟩ := stands.end_wait waiting true
    rw [List.append_nil, Leg.deeds_of_waiting waiting, List.append_nil]
    exact ⟨meets', stands, fits.of_heardTo heard⟩
  | reply clock answer submitted =>
    subst same
    obtain ⟨on, here⟩ := stands.of_submitted submitted
    have stands := Stands.hear on here (Running.jobAnswer answer) clock
    have heard : Running.jobAnswer answer ≠ .lost := by cases answer <;> simp [Running.jobAnswer]
    rw [if_neg heard] at stands
    rw [Leg.deeds_of_submitted submitted]
    refine ⟨_, by rw [List.length_append]; exact stands, Circumstances.Fits.concat ?_ ?_ ?_⟩
    · exact fits.of_heardTo (Circumstances.sameTo_record ..).1
    · exact Circumstances.answer_record ..
    · exact Circumstances.clock_record ..

end Delivery

/-! ## Legs of a running route -/

namespace Running

variable {s : EngineSettings} {route : CompiledRoute} {past : Past} {r : Running} {call d : Nat}
  {h : Handling} {leg : Leg}

/-- What the leg of a call to a destination does at a moment. -/
def deedsAt (call d : Nat) (mo : Moment Running (Clock × Action) Output) : List Deed :=
  match mo.before.leg? call d, mo.after.leg? call d with
  | some leg, some leg' => leg.deeds leg'
  | _, _ => []

/-- What the leg of a call to a destination has done. -/
def deeds (call d : Nat) (past : Past) : List Deed := past.flatMap (deedsAt call d)

theorem deeds_concat (call d : Nat) (past : Past) (mo) :
    deeds call d (past ++ [mo]) = deeds call d past ++ deedsAt call d mo := by
  rw [deeds, List.flatMap_append, List.flatMap_singleton]
  rfl

theorem deedsAt_of_new {mo : Moment Running (Clock × Action) Output}
    (new : mo.before.handling? call = none) : deedsAt call d mo = [] := by
  have nobody : mo.before.leg? call d = none := by
    rw [leg?, new]
    rfl
  rw [deedsAt, nobody]

/-- Nothing is done or heard for a call that has not arrived. -/
theorem quiet_of_new (runs : Runs s route past r) (new : r.nextCall ≤ call) (d : Nat) :
    deeds call d past = [] ∧ replies call d past = [] := by
  induction runs with
  | refl => exact ⟨rfl, rfl⟩
  | @snoc past r r' act outputs runs step ih =>
    have sound := sound_of_runs runs
    have before : r.nextCall ≤ call := (kept_of_step step).nextCall.trans new
    obtain ⟨nothing, silence⟩ := ih before
    have nobody : r.handling? call = none :=
      Option.eq_none_iff_forall_not_mem.mpr fun h found ↦
        absurd (sound.handling_lt found) (Nat.not_lt.mpr before)
    rw [deeds_concat, replies_concat, nothing, silence, deedsAt_of_new nobody]
    exact ⟨rfl, heard_eq_nil (sound.jobsOf_eq_nil before d) act⟩

/-- **Every leg of every execution is a delivery that is on its way**, with the answers of the bus
that the leg has heard. -/
theorem delivery_of_runs (runs : Runs s route past r) (found : r.handling? call = some h)
    (here : h.legs[d]? = some leg) :
    Delivery.Meets r.plan h.message (replies call d past) ⟨deeds call d past, leg⟩ := by
  induction runs generalizing h leg with
  | refl => cases found
  | @snoc past r r' act outputs runs step ih =>
    rcases act with ⟨clock, a⟩
    have sound := sound_of_runs runs
    rw [deeds_concat, replies_concat, (kept_of_step step).plan]
    obtain ⟨h₀, before, follows⟩ | ⟨m, m', rfl, rfl⟩ := sound.handling_of_step step found
    · have hd : d < h₀.legs.length := by
        rw [← follows.length]
        exact (List.getElem?_eq_some_iff.mp here).1
      have there := List.getElem?_eq_getElem hd
      obtain ⟨leg', here', -, heard⟩ := follows.leg there
      rw [here] at here'
      cases here'
      have met := ih before there
      have at_moment : deedsAt call d ⟨r, (clock, a), r', outputs⟩ = h₀.legs[d].deeds leg := by
        have leg_before : r.leg? call d = some h₀.legs[d] := by rw [leg?, before]; exact there
        have leg_after : r'.leg? call d = some leg := by rw [leg?, found]; exact here
        simp only [deedsAt, leg_before, leg_after]
      rw [at_moment, follows.message]
      rcases heard with ⟨rfl, nothing⟩ | moved
      · rw [nothing, Leg.deeds_self, List.append_nil, List.append_nil]
        exact met
      · exact met.step moved
    · -- the leg of a call that has just arrived has done and heard nothing
      have new := (arrival_cases step).1
      obtain ⟨nothing, silence⟩ := quiet_of_new runs new d
      have nobody : r.handling? call = none :=
        Option.eq_none_iff_forall_not_mem.mpr fun h found ↦
          absurd (sound.handling_lt found) (Nat.not_lt.mpr new)
      rw [freshHandling, List.getElem?_map, Option.map_eq_some_iff] at here
      obtain ⟨p, -, rfl⟩ := here
      rw [nothing, silence, deedsAt_of_new nobody, heard_eq_nil (sound.jobsOf_eq_nil new d)]
      exact ⟨⟨fun _ ↦ .lost, fun _ ↦ ⟨0, 0⟩, fun _ ↦ false⟩, .between .zero,
        fun _ _ here ↦ by simp at here⟩

end Running

/-! ## What deliveries come to -/

/-- What becomes of a delivery under circumstances. -/
structure Circumstances.Decide (plan : RetryPlan) (m : Message) (meets : Circumstances) : Prop where
  /-- The first job that ends the delivery is its last. -/
  ends : ∀ {k : Nat} {e : LegEnd}, 1 ≤ k →
    (∀ i, 1 ≤ i → i < k → meets.ends? plan m i = none) → meets.ends? plan m k = some e →
    ∀ {n : Nat}, 3 * k ≤ n → Delivery.after plan m meets n = meets.ended plan k e ∧
      (Delivery.after plan m meets n).jobs = k ∧
      (Delivery.after plan m meets n).leg.result? = some e
  /-- Without such a job there is always a next one. -/
  endless : (∀ i, 1 ≤ i → meets.ends? plan m i = none) →
    ∀ k, Delivery.after plan m meets (3 * k) = meets.between plan k
  /-- A delivery ends in no other way, and not before its first job. -/
  only : ∀ {n : Nat} {e : LegEnd}, (Delivery.after plan m meets n).leg.result? = some e →
    ∃ k, 1 ≤ k ∧ (∀ i, 1 ≤ i → i < k → meets.ends? plan m i = none) ∧
      meets.ends? plan m k = some e
  /-- A message that is given up was refused, and its mode is not persistent. -/
  tolerated : ∀ {k : Nat} {reason : GiveUpReason},
    meets.ends? plan m k = some (.tolerated reason) →
      plan.mode ≠ .persistent ∧ ∃ error, meets.answer k = .refused error
  /-- A delivery that fails reports the last error exactly if it reports an attempt. -/
  failed : ∀ {k : Nat} {kind : PublishFailure}, 1 ≤ k →
    (∀ i, 1 ≤ i → i < k → meets.ends? plan m i = none) →
    meets.ends? plan m k = some (.failed kind) → ∀ destination,
      ∃ error, (meets.ended plan k (.failed kind)).leg.error? destination = some error ∧
        error.kind = kind ∧ (error.lastError = none ↔ error.attempts = 0)

theorem Circumstances.decide (plan : RetryPlan) (m : Message) (meets : Circumstances) :
    meets.Decide plan m := by
  have goesOn {k : Nat} (on : ∀ i, 1 ≤ i → i < k + 1 → meets.ends? plan m i = none) :
      meets.GoesOn plan m k := fun i one hi ↦ on i one (Nat.lt_succ_of_le hi)
  refine ⟨fun {k e} one on ends n late ↦ ?_, fun on k ↦ ?_, fun {n e} ended ↦ ?_,
    fun {k reason} ends ↦ ⟨fun persistent ↦ ?_, ?_⟩, fun {k kind} one on ends ↦ ?_⟩
  · obtain ⟨k, rfl⟩ := Nat.exists_eq_add_of_le' one
    rw [Delivery.after_of_ends (goesOn on) ends late]
    exact ⟨rfl, jobs_ended plan meets one e, result?_ended plan meets (k + 1) e⟩
  · exact Delivery.after_of_goesOn fun i one _ ↦ on i one
  · obtain ⟨k, on, ends⟩ := Delivery.ends_of_result? ended
    exact ⟨k + 1, by omega, fun i one hi ↦ on i one (Nat.le_of_lt_succ hi), ends⟩
  · exact ends?_of_persistent persistent reason ends
  · exact refused_of_ends? ends (.inl ⟨reason, rfl⟩)
  · obtain ⟨k, rfl⟩ := Nat.exists_eq_add_of_le' one
    exact error?_ended one (goesOn on) ends

namespace Running

/-- **The way of a message to one destination.** Under all circumstances a delivery submits one job
after the other, with the wait of the backoff between them, up to the first job that is accepted,
lost or given up, or whose wait is broken off; and it ends accordingly. Every leg of every execution
of a route is such a delivery, in what it has done as in where it stands. -/
theorem delivers :
    (∀ (plan : RetryPlan) (m : Message) (meets : Circumstances), meets.Decide plan m) ∧
    ∀ {s : EngineSettings} {route : CompiledRoute} {past : Past} {r : Running} {call d : Nat}
      {h : Handling} {leg : Leg},
      Runs s route past r → r.handling? call = some h → h.legs[d]? = some leg →
      ∃ meets n, Delivery.after ⟨route.mode, s.backoff⟩ h.message meets n =
          ⟨deeds call d past, leg⟩ ∧
        meets.Fits (replies call d past) := by
  refine ⟨Circumstances.decide, fun runs found here ↦ ?_⟩
  obtain ⟨meets, stands, fits⟩ := delivery_of_runs runs found here
  obtain ⟨n, there⟩ := stands.exists_after
  rw [(kept_of_runs runs).plan] at there
  exact ⟨meets, n, there, fits⟩

/-- A job is refused, and the one after it is lost: the leg of a persistent route ends with its
second job and reports the attempt and the error of the first. -/
theorem delivers_over_crash :
    let plan : RetryPlan := ⟨.persistent, .standard⟩
    let meets : Circumstances :=
      ⟨fun k ↦ if k = 1 then .refused .closed else .lost, fun _ ↦ ⟨0, 0⟩, fun _ ↦ false⟩
    Delivery.after plan note meets 6 = meets.ended plan 2 (.failed .laneClosed) ∧
    ∃ past r h leg, Runs oneLane { pairOnce with mode := .persistent } past r ∧
      r.handling? 0 = some h ∧ h.legs[0]? = some leg ∧
      deeds 0 0 past = [.submit, .wait 50, .submit] ∧
      leg.error? "out:copies" = some ⟨.laneClosed, "out:copies", 1, some .closed⟩ ∧
      ∃ meets n, Delivery.after plan h.message meets n = ⟨deeds 0 0 past, leg⟩ ∧
        meets.Fits (replies 0 0 past) := by
  intro plan meets
  have runs := (Execution.refl : Runs oneLane { pairOnce with mode := .persistent } [] _)
    |>.snoc (a := (⟨0, 0⟩, .handle 0 note)) rfl
    |>.snoc (a := (⟨0, 0⟩, .submit 0 0)) rfl
    |>.snoc (a := (⟨0, 0⟩, .take 0 0)) rfl
    |>.snoc (a := (⟨0, 0⟩, .reply 0 0 (.error .closed))) rfl
    |>.snoc (a := (⟨50, 50⟩, .wake 0 0)) rfl
    |>.snoc (a := (⟨50, 50⟩, .submit 0 0)) rfl
    |>.snoc (a := (⟨50, 50⟩, .take 0 0)) rfl
    |>.snoc (a := (⟨51, 51⟩, .crash 0 0)) rfl
  have first (i : Nat) (one : 1 ≤ i) (two : i < 2) : meets.ends? plan note i = none := by
    obtain rfl : i = 1 := by omega
    rfl
  exact ⟨((delivers.1 plan note meets).ends (by decide) first rfl (Nat.le_refl 6)).1,
    _, _, _, _, runs, rfl, rfl, rfl, rfl, delivers.2 runs rfl rfl⟩

end Running

end MessageBridge
