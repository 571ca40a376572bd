import MessageBridge.Proofs.Delivery.Expiry
import MessageBridge.Proofs.Delivery.Rounds
import MessageBridge.Proofs.Route.Publishing

/-!
# Deliveries that come to an end

A delivery under a drop policy whose publishes all fail ends with the first failure at which the
policy gives up (`Circumstances.Failing.gives_up`). With a bound on the attempts there is one, since
the count of the attempts reaches every bound that a policy can have before it saturates. With a
time to live there is one as soon as the clock shows that it has passed.

In a running route more can happen: a worker crashes, the caller leaves and its job stays behind,
the token fires. A publish that is still to come is then a job on its way, so what stays within the
bound is the number of answers, crashes and jobs together (`Running.spent`). While the message is
handled that is so because of the course of its leg, and afterwards the number does not grow any
more.
-/

namespace MessageBridge

variable {policy : DropPolicy} {m : Message} {plan : RetryPlan} {k bound : Nat}

/-- The policy is one that can be asked for: it has a bound, its bounds are positive, and the number
of attempts has 32 bits. -/
structure DropPolicy.Valid (policy : DropPolicy) : Prop where
  accepted : DeliveryMode.dropping policy.ttl policy.maxAttempts = .ok (.drop policy)
  counted : ∀ {bound}, policy.maxAttempts = some bound → bound ≤ Leg.greatestCount

theorem DropPolicy.Valid.pos (valid : policy.Valid) (limited : policy.maxAttempts = some bound) :
    0 < bound := by
  have accepted := valid.accepted
  refine Nat.pos_of_ne_zero fun zero ↦ ?_
  rw [limited, zero] at accepted
  cases live : policy.ttl with
  | none => simp [live, DeliveryMode.dropping] at accepted
  | some ttl =>
    by_cases zero_ttl : ttl.nanos = 0
    · simp [live, DeliveryMode.dropping, zero_ttl] at accepted
    · simp [live, DeliveryMode.dropping, zero_ttl] at accepted

/-- Counting up to the greatest number of attempts is enough for every bound. -/
theorem DropPolicy.Valid.exhausted_min_iff (valid : policy.Valid) :
    policy.Exhausted (min k Leg.greatestCount) ↔ policy.Exhausted k := by
  constructor
  · exact fun exhausted ↦ exhausted.mono (Nat.min_le_left ..)
  · rintro ⟨bound, limited, reached⟩
    exact ⟨bound, limited, le_min reached (valid.counted limited)⟩

/-! ## Deliveries whose publishes all fail -/

namespace Circumstances

variable {meets : Circumstances}

/-- Every publish is refused and no wait is broken off. -/
structure Failing (meets : Circumstances) : Prop where
  refused : ∀ k, 1 ≤ k → ∃ e, meets.answer k = .refused e
  unbroken : ∀ k, 1 ≤ k → meets.brokenOff k = false

/-- After so many publishes the delivery has ended, and the message was given up. -/
def ToleratedAfter (plan : RetryPlan) (m : Message) (meets : Circumstances) (k : Nat) : Prop :=
  ∃ reason, ∀ n, 3 * k ≤ n → (Delivery.after plan m meets n).jobs = k ∧
    (Delivery.after plan m meets n).leg.result? = some (.tolerated reason)

theorem Failing.ends?_cases (failing : meets.Failing) (valid : policy.Valid)
    (drop : plan.mode = .drop policy) (one : 1 ≤ k) :
    (∃ reason, meets.ends? plan m k = some (.tolerated reason)) ∧
        (policy.Exhausted k ∨ policy.Overdue m (meets.clock k).wall) ∨
      meets.ends? plan m k = none ∧
        ¬ (policy.Exhausted k ∨ policy.Overdue m (meets.clock k).wall) := by
  obtain ⟨e, refused⟩ := failing.refused k one
  have tolerates := @DropPolicy.tolerates_iff m policy (meets.clock k).wall
    (min k Leg.greatestCount)
  rw [valid.exhausted_min_iff] at tolerates
  unfold ends?
  rw [refused, drop, ← tolerates]
  dsimp only
  cases (DeliveryMode.drop policy).onFailure (min k Leg.greatestCount)
      (m.age? (meets.clock k).wall) with
  | retry => exact .inr ⟨by simp [failing.unbroken k one], by simp⟩
  | tolerate reason => exact .inl ⟨⟨reason, rfl⟩, reason, rfl⟩

/-- **A delivery whose publishes all fail ends with the first at which the policy gives up.** -/
theorem Failing.gives_up (failing : meets.Failing) (valid : policy.Valid)
    (drop : plan.mode = .drop policy) (one : 1 ≤ k)
    (gives_up : policy.Exhausted k ∨ policy.Overdue m (meets.clock k).wall)
    (first : ∀ i, 1 ≤ i → i < k →
      ¬ (policy.Exhausted i ∨ policy.Overdue m (meets.clock i).wall)) :
    meets.ToleratedAfter plan m k := by
  obtain ⟨k, rfl⟩ := Nat.exists_eq_add_of_le' one
  have on : meets.GoesOn plan m k := by
    intro i one_i le
    obtain ⟨-, gives_up⟩ | ⟨goes_on, -⟩ := failing.ends?_cases (m := m) valid drop one_i
    · exact absurd gives_up (first i one_i (Nat.lt_succ_of_le le))
    · exact goes_on
  obtain ⟨⟨reason, ends⟩, -⟩ | ⟨-, goes_on⟩ := failing.ends?_cases (m := m) valid drop one
  · refine ⟨reason, fun n late ↦ ?_⟩
    rw [Delivery.after_of_ends on ends late]
    exact ⟨jobs_ended plan meets one _, result?_ended plan meets (k + 1) _⟩
  · exact absurd gives_up goes_on

theorem Failing.exists_toleratedAfter (failing : meets.Failing) (valid : policy.Valid)
    (drop : plan.mode = .drop policy) (one : 1 ≤ k)
    (gives_up : policy.Exhausted k ∨ policy.Overdue m (meets.clock k).wall) :
    ∃ j, 1 ≤ j ∧ j ≤ k ∧ meets.ToleratedAfter plan m j ∧
      (policy.Exhausted j ∨ policy.Overdue m (meets.clock j).wall) := by
  induction k using Nat.strong_induction_on with
  | h k earlier =>
    by_cases before : ∃ i, 1 ≤ i ∧ i < k ∧
        (policy.Exhausted i ∨ policy.Overdue m (meets.clock i).wall)
    · obtain ⟨i, one_i, lt, gives_up_i⟩ := before
      obtain ⟨j, one_j, le, tolerated⟩ := earlier i lt one_i gives_up_i
      exact ⟨j, one_j, le.trans lt.le, tolerated⟩
    · refine ⟨k, one, Nat.le_refl k, failing.gives_up valid drop one gives_up ?_, gives_up⟩
      exact fun i one_i lt gives_up_i ↦ before ⟨i, one_i, lt, gives_up_i⟩

/-- When a delivery ends whose publishes all fail. -/
structure EndsInTime (policy : DropPolicy) (plan : RetryPlan) (m : Message)
    (meets : Circumstances) : Prop where
  /-- With a bound on the attempts it makes no more of them, and as many unless the message is
  overdue before. -/
  attempts : ∀ {bound}, policy.maxAttempts = some bound →
    ∃ k, k ≤ bound ∧ meets.ToleratedAfter plan m k ∧
      ((∀ i, 1 ≤ i → i < bound → ¬ policy.Overdue m (meets.clock i).wall) → k = bound)
  /-- With a time to live it makes none after the failure at which the clock first shows that it has
  passed since the message was created. -/
  expiry : ∀ {ttl t k}, policy.ttl = some ttl → m.Created t → 1 ≤ k →
    t * 1000000 + ttl.nanos < (meets.clock k).wall * 1000000 →
    ∃ j, j ≤ k ∧ meets.ToleratedAfter plan m j

theorem Failing.endsInTime (failing : meets.Failing) (valid : policy.Valid)
    (drop : plan.mode = .drop policy) : meets.EndsInTime policy plan m := by
  refine ⟨fun {bound} limited ↦ ?_, fun {ttl t k} live created one passed ↦ ?_⟩
  · have one : 1 ≤ bound := valid.pos limited
    obtain ⟨k, one_k, le, tolerated, gives_up⟩ := failing.exists_toleratedAfter (m := m) valid drop
      one (.inl ⟨bound, limited, Nat.le_refl bound⟩)
    refine ⟨k, le, tolerated, fun fresh ↦ le.antisymm (Nat.le_of_not_lt fun lt ↦ ?_)⟩
    rcases gives_up with ⟨bound', limited', reached⟩ | overdue
    · rw [limited] at limited'
      cases limited'
      omega
    · exact fresh k one_k lt overdue
  · obtain ⟨j, -, le, tolerated, -⟩ := failing.exists_toleratedAfter (m := m) valid drop one
      (.inr ⟨ttl, t, live, created, passed⟩)
    exact ⟨j, le, tolerated⟩

end Circumstances

/-! ## The answers that a leg can hear -/

section Course

variable {replies front rest : List Reply} {last : Reply} {leg : Leg}

theorem Leg.Course.unfinished_before (course : Leg.Course plan m replies leg)
    (split : replies = front ++ last :: rest) : Unfinished plan.mode m front := by
  induction course generalizing rest with
  | fresh => simp at split
  | @step replies new leg leg' course step ih =>
    cases step with
    | reply clock answer submitted =>
      have agrees := course.agrees
      rw [Leg.Agrees, submitted] at agrees
      obtain rfl | ⟨others, final, rfl⟩ := rest.eq_nil_or_concat'
      · obtain ⟨rfl, -⟩ := List.append_inj' split rfl
        exact agrees.1
      · rw [← List.cons_append, ← List.append_assoc] at split
        exact ih (List.append_inj' split rfl).1
    | _ =>
      rw [List.append_nil] at split
      exact ih split

theorem Unfinished.length_lt {mode : DeliveryMode} (unfinished : Unfinished mode m replies)
    (valid : policy.Valid) (drop : mode = .drop policy)
    (limited : policy.maxAttempts = some bound) : replies.length < bound := by
  by_contra reached
  obtain rfl | ⟨front, last, rfl⟩ := replies.eq_nil_or_concat'
  · exact reached (valid.pos limited)
  · refine onFailure_ne_retry_iff.mpr ⟨policy, drop, .inl ⟨bound, limited, ?_⟩⟩
      (unfinished.retried List.getLast?_concat)
    exact le_min (Nat.not_lt.mp reached) (valid.counted limited)

theorem Leg.Course.length_le (course : Leg.Course plan m replies leg) (valid : policy.Valid)
    (drop : plan.mode = .drop policy) (limited : policy.maxAttempts = some bound) :
    replies.length ≤ bound := by
  obtain rfl | ⟨front, last, rfl⟩ := replies.eq_nil_or_concat'
  · exact Nat.zero_le bound
  · have fewer := (course.unfinished_before rfl).length_lt valid drop limited
    rw [List.length_append, List.length_singleton]
    exact fewer

theorem Leg.Course.length_lt (course : Leg.Course plan m replies leg) (valid : policy.Valid)
    (drop : plan.mode = .drop policy) (limited : policy.maxAttempts = some bound)
    (here : leg.phase = .submitted ∨ ∃ kind, leg.phase = .settled (.failed kind)) :
    replies.length < bound := by
  have agrees := course.agrees
  obtain phase | ⟨kind, phase⟩ := here
  · rw [Leg.Agrees, phase] at agrees
    exact agrees.1.length_lt valid drop limited
  · rw [Leg.Agrees, phase] at agrees
    exact agrees.length_lt valid drop limited

/-- **A refusal after which the policy gives up is the last answer that a leg hears.** -/
theorem Leg.Course.tolerated_of_gives_up (course : Leg.Course plan m replies leg)
    (valid : policy.Valid) (drop : plan.mode = .drop policy)
    (split : replies = front ++ last :: rest) (refused : ∃ e, last.answer = .error e)
    (gives_up : policy.Exhausted (front.length + 1) ∨ policy.Overdue m last.clock.wall) :
    rest = [] ∧ ∃ reason, leg.phase = .settled (.tolerated reason) := by
  have stops : ¬ Unfinished plan.mode m (front ++ [last]) := by
    intro unfinished
    have retried := unfinished.retried List.getLast?_concat
    have tolerates := @DropPolicy.tolerates_iff m policy last.clock.wall
      (min (front.length + 1) Leg.greatestCount)
    rw [valid.exhausted_min_iff] at tolerates
    obtain ⟨reason, tolerates⟩ := tolerates.mpr gives_up
    rw [drop, Leg.counted, List.length_append, List.length_singleton, tolerates] at retried
    cases retried
  cases rest with
  | cons next others =>
    have further : replies = (front ++ [last]) ++ next :: others := by
      rw [split, List.append_assoc]
      rfl
    exact absurd (course.unfinished_before further) stops
  | nil =>
    subst split
    have agrees := course.agrees
    rw [Leg.Agrees] at agrees
    split at agrees
    all_goals rename_i phase
    · exact absurd agrees.1 stops
    · exact absurd agrees.1 stops
    · exact absurd agrees.1 stops
    · obtain ⟨front', last', same, -, ok⟩ := agrees
      obtain ⟨-, same⟩ := List.append_inj' same rfl
      obtain ⟨e, refused⟩ := refused
      cases same
      rw [ok] at refused
      cases refused
    · exact ⟨rfl, _, phase⟩
    · exact absurd agrees stops

end Course

/-! ## Publishes that can still come -/

namespace Running

variable {s : EngineSettings} {route : CompiledRoute} {past : Past} {r r' : Running} {clock : Clock}
  {a : Action} {outputs : List Output} {c d : Nat} {h : Handling} {leg : Leg}

/-- The publishes of a call to a destination that have come to an end, and those that are under way
or can still come. -/
def spent (c d : Nat) (past : Past) (r : Running) : Nat :=
  (replies c d past).length + (crashes c d past).length + (r.jobsOf c d).length

theorem publishes_le_spent (runs : Runs s route past r) (c d : Nat) :
    (publishes c d past).length ≤ spent c d past r := by
  rw [publishes_of_runs runs, spent]
  exact Nat.add_le_add_left (held_le c d r) _

theorem jobsOf_of_crashedOver (step : r.step? clock a = some (r', outputs))
    (crash : r.crashedOver c d a ≠ []) :
    (r.crashedOver c d a).length + (r'.jobsOf c d).length ≤ (r.jobsOf c d).length := by
  obtain ⟨j, job, rfl, hand, mine, one⟩ := hand_of_crashedOver crash
  obtain ⟨-, p, lost, p', hp, crashed, rfl⟩ := crash?_cases step
  obtain ⟨l, job', -, -, hand', mem⟩ := inHand?_of_crash? hp crashed
  rw [hand] at hand'
  cases hand'
  have all := ((Pool.jobs_crash? crashed).filter (·.call == c)).length_eq
  rw [List.filter_append, List.length_append] at all
  have lost_one : 0 < (lost.filter (·.call == c)).length :=
    List.length_pos_of_mem (List.mem_filter.mpr ⟨mem, by simpa using mine⟩)
  rw [one, List.length_singleton, jobsOf, jobsOf, jobs_of_pool hp,
    jobs_of_set_self hp (loseJobs_pools ..)]
  omega

/-- Without a handling every publish that ends or that a worker crashes over uses up a job. -/
theorem spent_of_unhandled (step : r.step? clock a = some (r', outputs))
    (nobody : r.handling? c = none) (other : ∀ m, a ≠ .handle c m) (d : Nat) :
    spent c d (past ++ [⟨r, (clock, a), r', outputs⟩]) r' ≤ spent c d past r := by
  obtain ⟨-, fewer⟩ := (effect_of_step step).unhandled nobody other
  have fewer := fewer d
  rw [spent, spent, replies_concat, crashes_concat, List.length_append, List.length_append]
  dsimp only
  by_cases calm : r.crashedOver c d a = []
  · rw [calm, List.length_nil]
    omega
  · obtain ⟨j, job, rfl, -⟩ := hand_of_crashedOver calm
    have lost := jobsOf_of_crashedOver step calm
    rw [heard_of_silent (by simp), List.length_nil]
    omega

theorem spent_of_new (runs : Runs s route past r) (new : r.nextCall ≤ c) (d : Nat) :
    spent c d past r = 0 := by
  have untouched := untouched_of_new runs new
  rw [spent, untouched.replies, crashes_of_new runs new d, untouched.jobs]
  rfl

theorem spent_of_no_destination (runs : Runs s route past r)
    (hd : route.destinations.length ≤ d) (c : Nat) : spent c d past r = 0 := by
  obtain ⟨now, always⟩ := idle_of_no_destination runs hd c
  rw [spent, replies_of_idle always, crashes_of_idle always, now]
  rfl

section Bounded

variable (valid : policy.Valid) (drop : route.mode = .drop policy)
  (limited : policy.maxAttempts = some bound)

include valid drop limited

theorem spent_le_of_handled (runs : Runs s route past r) (found : r.handling? c = some h)
    (d : Nat) : spent c d past r ≤ bound := by
  have sound := sound_of_runs runs
  have mode : r.plan.mode = .drop policy := (mode_of_runs runs).trans drop
  cases here : h.legs[d]? with
  | none =>
    rw [List.getElem?_eq_none_iff, length_legs_of_runs runs found] at here
    rw [spent_of_no_destination runs here c]
    exact Nat.zero_le bound
  | some leg =>
    obtain ⟨x, m, underway⟩ := (story_of_runs runs c).underway found
    have course := underway.courses here
    obtain ⟨one_crash, failed⟩ := crashes_of_handled runs found here
    rw [spent, sound.awaited found here]
    by_cases met : crashes c d past = []
    · rw [met, List.length_nil]
      by_cases submitted : leg.phase = .submitted
      · rw [leg.awaits_of_submitted submitted]
        exact course.length_lt valid mode limited (.inl submitted)
      · rw [leg.awaits_of_ne submitted]
        exact course.length_le valid mode limited
    · -- the leg over whose publish a worker crashed has failed
      have fewer := course.length_lt valid mode limited (.inr ⟨_, failed met⟩)
      rw [leg.awaits_of_ne (by simp [failed met]), List.length_nil]
      omega

/-- **What is spent on a message stays within the bound**, also when its caller has left. -/
theorem spent_le_of_runs (runs : Runs s route past r) (c d : Nat) : spent c d past r ≤ bound := by
  induction runs with
  | refl =>
    rw [spent, jobsOf, jobs_ofRoute]
    exact Nat.zero_le bound
  | @snoc past r r' act outputs runs happens ih =>
    rcases act with ⟨clock, a⟩
    have step : r.step? clock a = some (r', outputs) := happens
    cases found' : r'.handling? c with
    | some h => exact spent_le_of_handled valid drop limited (runs.snoc happens) found' d
    | none =>
      by_cases arrives : ∃ m, a = .handle c m
      · -- a message that is answered on the spot costs nothing
        obtain ⟨m, rfl⟩ := arrives
        obtain ⟨new, -, pools, -⟩ := arrival_cases step
        have nothing := spent_of_new runs new d
        rw [spent] at nothing ⊢
        rw [replies_concat, crashes_concat, heard_of_silent (by simp),
          crashedOver_of_calm (by simp), List.append_nil, List.append_nil,
          jobsOf_congr (jobs_of_pools_eq pools d) c]
        omega
      · have other (m : Message) : a ≠ .handle c m := fun same ↦ arrives ⟨m, same⟩
        cases found : r.handling? c with
        | none => exact (spent_of_unhandled step found other d).trans ih
        | some h =>
          obtain ⟨-, leaves, fewer⟩ | ⟨h', goes_on, -⟩ :=
            (effect_of_step step).handled (sound_of_runs runs) found
          · -- the caller leaves, or is given the verdict
            have fewer := fewer d
            rw [spent] at ih ⊢
            rw [replies_concat, crashes_concat]
            rcases leaves with rfl | rfl
            · rw [heard_of_silent (by simp), crashedOver_of_calm (by simp), List.append_nil,
                List.append_nil]
              omega
            · rw [heard_of_silent (by simp), crashedOver_of_calm (by simp), List.append_nil,
                List.append_nil]
              omega
          · rw [found'] at goes_on
            cases goes_on

end Bounded

/-! ## Drop mode ends -/

/-- What a drop policy bounds in an execution of a route. -/
structure Bounded (policy : DropPolicy) (past : Past) (r : Running) : Prop where
  /-- Nothing is published more often to a destination than the policy allows attempts. -/
  publishes : ∀ {bound}, policy.maxAttempts = some bound →
    ∀ call d, (publishes call d past).length ≤ bound
  /-- A refusal after as many attempts, or later than the time to live allows, is the last that a
  leg hears, and with it the leg ends: the message is given up. -/
  tolerates : ∀ {call d h leg front last rest}, r.handling? call = some h → h.legs[d]? = some leg →
    replies call d past = front ++ last :: rest → (∃ e, last.answer = .error e) →
    policy.Exhausted (front.length + 1) ∨ policy.Overdue h.message last.clock.wall →
    rest = [] ∧ ∃ reason, leg.phase = .settled (.tolerated reason)

theorem bounded_of_runs (valid : policy.Valid) (drop : route.mode = .drop policy)
    (runs : Runs s route past r) : Bounded policy past r := by
  refine ⟨fun limited call d ↦ ?_, fun {call d h leg front last rest} found here ↦ ?_⟩
  · exact (publishes_le_spent runs call d).trans (spent_le_of_runs valid drop limited runs call d)
  · obtain ⟨x, m, underway⟩ := (story_of_runs runs call).underway found
    have mode : r.plan.mode = .drop policy := (mode_of_runs runs).trans drop
    rw [underway.message]
    exact (underway.courses here).tolerated_of_gives_up valid mode

/-- **Drop mode ends.** A delivery whose publishes all fail is given up in time, and no execution of
a route publishes a message more often to a destination than the policy allows. -/
theorem drop_mode_ends (valid : policy.Valid) :
    (∀ {plan : RetryPlan} {m : Message} {meets : Circumstances}, plan.mode = .drop policy →
      meets.Failing → meets.EndsInTime policy plan m) ∧
    ∀ {s : EngineSettings} {route : CompiledRoute} {past : Past} {r : Running},
      route.mode = .drop policy → Runs s route past r → Bounded policy past r :=
  ⟨fun drop failing ↦ failing.endsInTime valid drop, fun drop ↦ bounded_of_runs valid drop⟩

/-- Publishes that are refused, one a millisecond. -/
def refusals : Circumstances where
  answer _ := .refused .closed
  clock k := ⟨k, 1000 + k⟩
  brokenOff _ := false

/-- A message of unknown age is tried three times, and one whose time is over by the second refusal
no more often than twice. In a route the first refusal is the last if it comes late enough. -/
theorem drop_mode_ends_brief :
    refusals.ToleratedAfter ⟨.drop .brief, .standard⟩ note 3 ∧
    (∃ k, k ≤ 2 ∧
      refusals.ToleratedAfter ⟨.drop .brief, .standard⟩ (DropPolicy.dated (.ofNat 1000)) k) ∧
    ∃ past r h leg, Runs oneLane { pairOnce with mode := .drop .brief } past r ∧
      r.handling? 0 = some h ∧ h.legs[0]? = some leg ∧
      (∃ reason, leg.phase = .settled (.tolerated reason)) ∧
      (publishes 0 0 past).length ≤ 3 := by
  have valid : DropPolicy.brief.Valid := ⟨rfl, fun {_} limited ↦ by cases limited; decide⟩
  have failing : refusals.Failing := ⟨fun _ _ ↦ ⟨_, rfl⟩, fun _ _ ↦ rfl⟩
  have in_time {m : Message} :
      refusals.EndsInTime .brief ⟨.drop .brief, .standard⟩ m :=
    (drop_mode_ends valid).1 rfl failing
  have created : (DropPolicy.dated (.ofNat 1000)).Created 1000 :=
    Message.createdAt?_eq_some_iff.mp (by decide)
  have unknown (now : Int) : ¬ DropPolicy.brief.Overdue note now := by
    rintro ⟨ttl, t, -, ⟨v, found, -⟩, -⟩
    cases found
  refine ⟨?_, in_time.expiry (k := 2) rfl created (by decide) (by decide), ?_⟩
  · obtain ⟨k, -, tolerated, exact_count⟩ := in_time.attempts rfl
    rw [exact_count fun _ _ _ ↦ unknown _] at tolerated
    exact tolerated
  · have runs := (Execution.refl : Runs oneLane { pairOnce with mode := .drop .brief } [] _)
      |>.snoc (a := (⟨0, 1000⟩, .handle 0 (DropPolicy.dated (.ofNat 1000)))) rfl
      |>.snoc (a := (⟨0, 1000⟩, .submit 0 0)) rfl
      |>.snoc (a := (⟨0, 1000⟩, .take 0 0)) rfl
      |>.snoc (a := (⟨2, 1002⟩, .reply 0 0 (.error .closed))) rfl
    have bounded := (drop_mode_ends valid).2 rfl runs
    have tolerates := @bounded.tolerates 0 0 _ _ [] ⟨⟨2, 1002⟩, _, .error .closed⟩ [] rfl rfl rfl
      ⟨_, rfl⟩ (.inr ⟨_, 1000, rfl, Message.createdAt?_eq_some_iff.mp (by decide), by decide⟩)
    exact ⟨_, _, _, _, runs, rfl, rfl, tolerates.2, bounded.publishes rfl 0 0⟩

end Running

end MessageBridge
