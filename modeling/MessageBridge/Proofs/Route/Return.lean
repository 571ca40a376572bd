import MessageBridge.Proofs.Delivery.Alone
import MessageBridge.Proofs.Route.Turns

/-!
# Every call returns

A route that is neither stopped nor hit by a crash is still busy with other messages, so that it
gets on is not enough for one of them to get on. In an even run everyone has their turn: time goes
on, whatever the route can do by itself from some time on is done, and every publish is answered.
Then each leg of a call goes on until it has ended, if the answers let it end. The one place where
it depends on others is the queue of its lane, and there the jobs before its own only get fewer.
-/

namespace MessageBridge

universe u

/-! ## Places in a lane -/

private theorem findIdx_filter_le {α : Type u} {mine keep : α → Bool}
    (kept : ∀ a, mine a = true → keep a = true) (l : List α) :
    (l.filter keep).findIdx mine ≤ l.findIdx mine := by
  induction l with
  | nil => exact Nat.le_refl _
  | cons a l ih =>
    cases ha : mine a with
    | true => simp [kept a ha, ha, List.findIdx_cons]
    | false =>
      cases hk : keep a with
      | true => simpa [hk, ha, List.findIdx_cons] using ih
      | false =>
        rw [List.filter_cons_of_neg (by simp [hk])]
        simp only [List.findIdx_cons, ha, cond_false]
        omega

/-- The number of jobs in a lane before the first of some kind. -/
def Lane.ahead {α : Type u} (mine : α → Bool) (l : Lane α) : Nat := l.jobs.findIdx mine

namespace Lane

variable {α : Type u} (mine : α → Bool) {a b : α} {l l' : Lane α}

theorem ahead_submit? (step : l.submit? b = some l') (mem : a ∈ l.jobs) (ha : mine a = true) :
    l'.ahead mine = l.ahead mine := by
  rw [ahead, jobs_submit? step, List.findIdx_append]
  exact if_pos (List.findIdx_lt_length_of_exists ⟨a, mem, ha⟩)

theorem ahead_finish? (step : l.finish? = some (b, l')) (other : mine b = false) :
    l.ahead mine = l'.ahead mine + 1 := by
  rw [ahead, jobs_finish? step, List.findIdx_cons, other]
  rfl

theorem ahead_withdraw_le {givesUp : α → Bool} (kept : ∀ a, mine a = true → givesUp a = false)
    (l : Lane α) : (l.withdraw givesUp).ahead mine ≤ l.ahead mine := by
  have before : l.jobs = (l.inHand.toList ++ l.queue.accepted) ++ l.queue.waiting := by
    rw [jobs, Queue.contents, List.append_assoc]
  have after : (l.withdraw givesUp).jobs = (l.inHand.toList ++ l.queue.accepted) ++
      l.queue.waiting.filter fun a ↦ !givesUp a := by
    rw [jobs, Queue.contents, List.append_assoc]
    rfl
  have fewer : (l.queue.waiting.filter fun a ↦ !givesUp a).findIdx mine ≤
      l.queue.waiting.findIdx mine := by
    apply findIdx_filter_le
    intro a ha
    rw [kept a ha]
    rfl
  rw [ahead, ahead, before, after]
  generalize l.inHand.toList ++ l.queue.accepted = front
  rw [List.findIdx_append, List.findIdx_append]
  split
  · exact Nat.le_refl _
  · exact Nat.add_le_add_right fewer _

end Lane

/-! ## Steps of a leg to its next answer -/

/-- The number of steps until a leg has submitted its next job. -/
def Leg.stage (leg : Leg) : Nat :=
  match leg.phase with
  | .ready => 1
  | .waiting _ => 2
  | .submitted | .settled _ => 0

theorem Leg.Step.left {plan : RetryPlan} {m : Message} {new : List Reply} {leg leg' : Leg}
    (step : Leg.Step plan m new leg leg') : leg.result? = none := by
  cases step with
  | submit phase | refuse phase | lose phase | wake phase | breakOff phase | reply _ _ phase =>
    rw [Leg.result?, phase]

/-- How far a leg is from its end, if `n` answers are enough. -/
def Leg.distance (n : Nat) (replies : List Reply) (leg : Leg) : Nat :=
  3 * (n - replies.length) + leg.stage

/-- Every step of a leg that does not fail brings it nearer to its end. -/
theorem Leg.Step.distance_lt {plan : RetryPlan} {m : Message} {replies new : List Reply}
    {leg leg' : Leg} {n : Nat} (step : Leg.Step plan m new leg leg')
    (safe : ∀ kind, leg'.phase ≠ .settled (.failed kind)) (room : replies.length < n) :
    leg'.distance n (replies ++ new) < leg.distance n replies := by
  have stage_le : leg'.stage ≤ 2 := by
    rw [Leg.stage]
    split <;> omega
  rw [Leg.distance, Leg.distance, List.length_append]
  cases step with
  | submit ready =>
    simp [Leg.stage, Leg.submit, ready]
  | refuse => exact absurd (Leg.phase_lose rfl) (safe _)
  | lose submitted => exact absurd (Leg.phase_lose submitted) (safe _)
  | wake waiting =>
    simp [Leg.stage, waiting]
  | breakOff => exact absurd rfl (safe _)
  | reply =>
    rw [List.length_singleton]
    omega

namespace Running

variable {s : EngineSettings} {route : CompiledRoute} {past : Past} {r r' : Running}
  {clock : Clock} {a : Action} {outputs : List Output} {c d i j : Nat} {h h' : Handling}
  {leg leg' : Leg} {l l' : Lane Job} {m : Message}

/-- The number of jobs in a lane of a destination before that of a call. -/
def ahead (c d j : Nat) (r : Running) : Nat :=
  ((r.lane? d j).map (Lane.ahead (·.call == c))).getD 0

theorem ahead_of_lane (hl : r.lane? d j = some l) : r.ahead c d j = l.ahead (·.call == c) := by
  rw [ahead, hl]
  rfl

/-- While its leg waits, a job stays in its lane, and nothing gets before it; each job that is done
is one less. -/
theorem ahead_of_step (seen : LaneStep r i j a l l') (calm : a ≠ .crash i j)
    (still_open : ∀ p, r.pools[i]? = some p → p.closing = false) (held : a ≠ .release)
    (stays : a ≠ .abandon c ∧ a ≠ .resolve c)
    (unheard : ∀ answer job, a = .reply i j answer → l.inHand = some job → job.call ≠ c)
    (mem : ⟨c, m⟩ ∈ l.jobs) :
    ⟨c, m⟩ ∈ l'.jobs ∧ l'.ahead (·.call == c) ≤ l.ahead (·.call == c) ∧
      ∀ answer, a = .reply i j answer → l'.ahead (·.call == c) < l.ahead (·.call == c) := by
  have mine : ((⟨c, m⟩ : Job).call == c) = true := beq_self_eq_true c
  cases seen with
  | same quiet => exact ⟨mem, Nat.le_refl _, fun answer same ↦ absurd same (quiet answer)⟩
  | submit step =>
    rw [Lane.ahead_submit? _ step mem mine, Lane.jobs_submit? step]
    exact ⟨List.mem_append_left _ mem, Nat.le_refl _, by simp⟩
  | take step =>
    rw [Lane.ahead, Lane.ahead, Lane.jobs_take? step]
    exact ⟨mem, Nat.le_refl _, by simp⟩
  | @finish answer job l l' step =>
    obtain ⟨hand, -⟩ := Lane.finish?_eq_some.mp step
    have other := unheard answer job rfl hand
    have nearer := Lane.ahead_finish? (·.call == c) step (by simpa using other)
    rw [Lane.jobs_finish? step] at mem
    obtain same | mem := List.mem_cons.mp mem
    · exact absurd (congrArg Job.call same).symm other
    · exact ⟨mem, by omega, fun _ _ ↦ by omega⟩
  | crash => exact absurd rfl calm
  | drain pool closing =>
    rw [still_open _ pool] at closing
    cases closing
  | retire step =>
    rw [Lane.ahead, Lane.ahead, Lane.jobs_end? step]
    exact ⟨mem, Nat.le_refl _, by simp⟩
  | @withdraw _ call l which =>
    have other : c ≠ call := by
      rintro rfl
      rcases which with rfl | rfl
      · exact stays.1 rfl
      · exact stays.2 rfl
    have kept (job : Job) (hj : (job.call == c) = true) : (job.call == call) = false := by
      rw [beq_iff_eq] at hj
      simp [hj, other]
    refine ⟨?_, Lane.ahead_withdraw_le _ kept l, ?_⟩
    · have before : (⟨c, m⟩ : Job) ∈ l.jobs.filter (·.call == c) :=
        List.mem_filter.mpr ⟨mem, mine⟩
      rw [← Lane.filter_jobs_withdraw kept] at before
      exact List.mem_of_mem_filter before
    · rcases which with rfl | rfl <;> simp
  | release => exact absurd rfl held

/-! ## Runs in which everyone has their turn -/

/-- A run that never ends and in which everyone has their turn. -/
structure Even (run : Endless act r) : Prop where
  /-- Time goes on. -/
  time : ∀ now, ∃ u, ∀ t, u ≤ t → now ≤ (run.action t).1.now
  /-- What the route can do by itself from some time on, it does. -/
  turn : ∀ a t, (∀ u, t ≤ u → a ∈ (run.state u).ownActions ∧
      ((run.state u).step? (run.action u).1 a).isSome = true) →
    ∃ u, t ≤ u ∧ (run.action u).2 = a
  /-- Every publish is answered, or crashes its worker. -/
  answered : ∀ t i j job, (run.state t).inHand? i j = some job →
    ∃ u, t ≤ u ∧ ((∃ answer, (run.action u).2 = .reply i j answer) ∨ (run.action u).2 = .crash i j)

theorem even_ofRest {later : Past} {idle : Nat → Clock × Action} (exec : Execution act r later r')
    (rest : ∀ t, act r' (idle t) = some (r', []))
    (time : ∀ now, ∃ u, ∀ t, u ≤ t → now ≤ (idle t).1.now) (stuck : ∀ now, r'.next? now = none)
    (no_hand : ∀ i j, r'.inHand? i j = none) : Even (.ofRest exec rest) := by
  refine ⟨fun now ↦ ?_, fun a t can ↦ ?_, answered_of_rest exec rest no_hand⟩
  · obtain ⟨u, late⟩ := time now
    refine ⟨max u later.length, fun t ht ↦ ?_⟩
    rw [Endless.action_ofRest exec rest ((Nat.le_max_right _ _).trans ht)]
    exact late t ((Nat.le_max_left _ _).trans ht)
  · obtain ⟨own, possible⟩ := can (max t later.length) (Nat.le_max_left _ _)
    rw [Endless.state_ofRest exec rest (Nat.le_max_right _ _)] at own possible
    exact absurd (stuck _) (next?_ne_none own possible)

/-- A message that came with a call was prepared to another one. -/
def PreparedTo (route : CompiledRoute) (c : Nat) (past : Past) (sent : Message) : Prop :=
  ∀ x ∈ arrivals c past, (route.prepare x.clock.wall x.message).outcome = .ok sent

theorem PreparedTo.append {sent : Message} {later : Past} (prepared : PreparedTo route c past sent)
    (came : arrivals c past ≠ []) (runs : Runs s route (past ++ later) r) :
    PreparedTo route c (past ++ later) sent := by
  have only := (story_of_runs runs c).arrivals_le_one
  have split : arrivals c (past ++ later) = arrivals c past ++ arrivals c later :=
    List.filterMap_append
  have nothing : arrivals c later = [] := by
    have some_arrival := List.length_pos_iff.mpr came
    rw [split, List.length_append] at only
    exact List.eq_nil_of_length_eq_zero (by omega)
  intro x mem
  rw [split, nothing, List.append_nil] at mem
  exact prepared x mem

theorem underway_of_prepared {sent : Message} (runs : Runs s route past r)
    (prepared : PreparedTo route c past sent) (found : r.handling? c = some h) :
    ∃ x, Underway c past r x sent h := by
  obtain ⟨x, m, underway⟩ := (story_of_runs runs c).underway found
  have outcome := prepared x (by rw [underway.came]; exact List.mem_singleton_self x)
  have same_route : r.route = route := (kept_of_runs runs).route
  rw [← same_route, underway.outcome] at outcome
  cases outcome
  exact ⟨x, underway⟩

/-- No publish has crashed. -/
def Calm (past : Past) : Prop := ∀ mo ∈ past, ∀ i j, mo.action.2 ≠ .crash i j

instance (past : Past) : Decidable (Calm past) :=
  decidable_of_iff (∀ mo ∈ past, (match mo.action.2 with | .crash _ _ => true | _ => false) = false)
    ⟨fun all mo here i j crashes ↦ by simpa [crashes] using all mo here,
      fun calm mo here ↦ by
        split
        · rename_i crashes
          exact absurd crashes (calm mo here _ _)
        · rfl⟩

theorem safe_of_calm (runs : Runs s route past r) (running : r.cancelled = false) (calm : Calm past)
    (found : r.handling? c = some h) (here : h.legs[d]? = some leg) (kind : PublishFailure) :
    leg.phase ≠ .settled (.failed kind) := by
  intro failed
  obtain ⟨-, cancelled⟩ | ⟨-, mo, hmo, taken⟩ := excused_of_runs runs found here failed
  · rw [running] at cancelled
    cases cancelled
  · obtain ⟨j, mo', hmo', crashes⟩ := taken.crash runs hmo
    exact calm mo' hmo' d j crashes

/-- A run from a state that was reached, in which the token does not fire and no publish crashes. -/
structure Undisturbed (s : EngineSettings) (route : CompiledRoute) (past : Past)
    (run : Endless act r) : Prop where
  runs : Runs s route past r
  running : ∀ t, (run.state t).cancelled = false
  calm : ∀ t, Calm (past ++ run.past t)

namespace Undisturbed

variable {run : Endless act r} {t u : Nat}

theorem reached (und : Undisturbed s route past run) (t : Nat) :
    Runs s route (past ++ run.past t) (run.state t) := und.runs.trans (run.execution t)

theorem sound (und : Undisturbed s route past run) (t : Nat) : (run.state t).Sound :=
  sound_of_runs (und.reached t)

theorem no_crash (und : Undisturbed s route past run) (t i j : Nat) :
    (run.action t).2 ≠ .crash i j := by
  apply und.calm (t + 1) (run.moment t)
  rw [run.past_succ]
  exact List.mem_append_right _ (List.mem_append_right _ List.mem_cons_self)

/-- While its leg hears nothing of it, a job stays in its lane, and nothing gets before it. -/
theorem queued (und : Undisturbed s route past run) (found : (run.state t).handling? c = some h)
    (handled : (run.state (t + 1)).handling? c ≠ none)
    (unheard : (run.state t).heard c d (run.action t) = [])
    (hl : (run.state t).lane? d j = some l) (mem : ⟨c, m⟩ ∈ l.jobs) :
    ∃ l', (run.state (t + 1)).lane? d j = some l' ∧ ⟨c, m⟩ ∈ l'.jobs ∧
      l'.ahead (·.call == c) ≤ l.ahead (·.call == c) ∧
      ∀ answer, (run.action t).2 = .reply d j answer →
        l'.ahead (·.call == c) < l.ahead (·.call == c) := by
  have step : (run.state t).step? (run.action t).1 (run.action t).2 =
      some (run.state (t + 1), run.outputs t) := run.steps t
  have busy : (run.state t).handlings ≠ [] := by
    intro idle
    rw [handlings_eq_nil_iff.mp idle] at found
    cases found
  obtain ⟨l', hl', seen⟩ := exists_laneStep step hl
  refine ⟨l', hl', ahead_of_step seen (und.no_crash t d j) ?_ ?_ ⟨?_, ?_⟩ ?_ mem⟩
  · intro p hp
    by_contra closing
    exact busy ((orderly_of_runs (und.reached t)).closing hp (by simpa using closing)).2
  · intro releases
    rw [releases] at step
    obtain ⟨-, idle, -⟩ := release?_eq_some.mp step
    exact busy idle
  · intro abandons
    rw [abandons] at step
    obtain ⟨-, left, -⟩ := abandon_eq_some.mp step
    rw [left, handling?_withoutHandling, if_pos rfl] at handled
    exact handled rfl
  · intro resolves
    rw [resolves] at step
    obtain ⟨-, -, -, left, -⟩ := resolve?_cases step
    rw [left, handling?_withoutHandling, if_pos rfl] at handled
    exact handled rfl
  · intro answer job replies hand mine
    have act_eq : run.action t = ((run.action t).1, .reply d j answer) := Prod.ext rfl replies
    rw [act_eq, heard_of_hand ((inHand?_of_lane hl).trans hand), if_pos ⟨rfl, mine⟩] at unheard
    cases unheard

theorem not_queued (und : Undisturbed s route past run) (even : Even run)
    (handled : ∀ u, t ≤ u → ∃ h, (run.state u).handling? c = some h)
    (unheard : ∀ u, t ≤ u → (run.state u).heard c d (run.action u) = [])
    (hl : (run.state t).lane? d j = some l) (mem : ⟨c, m⟩ ∈ l.jobs) : False := by
  have handled_next (u : Nat) (hu : t ≤ u) : (run.state (u + 1)).handling? c ≠ none := by
    obtain ⟨h, found⟩ := handled (u + 1) (Nat.le_succ_of_le hu)
    rw [found]
    exact nofun
  have there (u : Nat) (hu : t ≤ u) :
      ∃ l, (run.state u).lane? d j = some l ∧ (⟨c, m⟩ : Job) ∈ l.jobs := by
    induction u, hu using Nat.le_induction with
    | base => exact ⟨l, hl, mem⟩
    | succ u hu ih =>
      obtain ⟨l, hl, mem⟩ := ih
      obtain ⟨h, found⟩ := handled u hu
      obtain ⟨l', hl', mem', -⟩ := und.queued found (handled_next u hu) (unheard u hu) hl mem
      exact ⟨l', hl', mem'⟩
  have of_hand {u v : Nat} (hv : u ≤ v) {job : Job}
      (hand : (run.state v).inHand? d j = some job) :
      ∃ w, u ≤ w ∧ ∃ answer, (run.action w).2 = .reply d j answer := by
    obtain ⟨w, hw, replies | crashes⟩ := even.answered v d j job hand
    · exact ⟨w, hv.trans hw, replies⟩
    · exact absurd crashes (und.no_crash w d j)
  have answered (u : Nat) (hu : t ≤ u) :
      ∃ w, u ≤ w ∧ ∃ answer, (run.action w).2 = .reply d j answer := by
    by_cases busy : ∃ v, u ≤ v ∧ ∃ job, (run.state v).inHand? d j = some job
    · obtain ⟨v, hv, job, hand⟩ := busy
      exact of_hand hv hand
    · -- a worker whose hands are free takes the next job when it has its turn
      have free (v : Nat) (hv : u ≤ v) {l : Lane Job}
          (hl : (run.state v).lane? d j = some l) : l.inHand = none := by
        by_contra some_job
        obtain ⟨job, hand⟩ := Option.ne_none_iff_exists'.mp some_job
        exact busy ⟨v, hv, job, (inHand?_of_lane hl).trans hand⟩
      obtain ⟨v, hv, takes⟩ := even.turn (.take d j) u fun v hv ↦ by
        obtain ⟨l, hl, mem⟩ := there v (hu.trans hv)
        obtain ⟨h, found⟩ := handled v (hu.trans hv)
        exact ⟨take_mem_ownActions hl,
          take_of_job (und.reached v) found hl (free v hv hl) mem _⟩
      have step : (run.state v).step? (run.action v).1 (.take d j) =
          some (run.state (v + 1), run.outputs v) := takes ▸ run.steps v
      obtain ⟨p, job, p', hp, taken, after, -⟩ := take?_cases step
      refine absurd ⟨v + 1, Nat.le_succ_of_le hv, job, ?_⟩ busy
      rw [after]
      exact inHand?_of_take? hp taken
  -- the jobs before it only get fewer, and do so with every answer that its worker hears
  have stays (u : Nat) (hu : ¬ ¬ t ≤ u) :
      (run.state (u + 1)).ahead c d j ≤ (run.state u).ahead c d j := by
    have hu := Classical.not_not.mp hu
    obtain ⟨l, hl, mem⟩ := there u hu
    obtain ⟨h, found⟩ := handled u hu
    obtain ⟨l', hl', -, less, -⟩ := und.queued found (handled_next u hu) (unheard u hu) hl mem
    rw [ahead_of_lane hl, ahead_of_lane hl']
    exact less
  have falls (u : Nat) (hu : ¬ ¬ t ≤ u) : ∃ w, u ≤ w ∧
      (¬ t ≤ w ∨ (run.state (w + 1)).ahead c d j < (run.state w).ahead c d j) := by
    have hu := Classical.not_not.mp hu
    obtain ⟨w, hw, answer, replies⟩ := answered u hu
    obtain ⟨l, hl, mem⟩ := there w (hu.trans hw)
    obtain ⟨h, found⟩ := handled w (hu.trans hw)
    obtain ⟨l', hl', -, -, fewer⟩ :=
      und.queued found (handled_next w (hu.trans hw)) (unheard w (hu.trans hw)) hl mem
    refine ⟨w, hw, .inr ?_⟩
    rw [ahead_of_lane hl, ahead_of_lane hl']
    exact fewer answer replies
  obtain ⟨u, hu, early⟩ := eventually_of_rank (fun u ↦ ¬ t ≤ u)
    (fun u ↦ (run.state u).ahead c d j) stays falls t
  exact early hu

/-- In an even run no leg that has not ended stands still for ever. -/
theorem not_still (und : Undisturbed s route past run) (even : Even run)
    (left : leg.result? = none)
    (still : ∀ u, t ≤ u → (run.state u).leg? c d = some leg ∧
      (run.state u).heard c d (run.action u) = []) : False := by
  have there (u : Nat) (hu : t ≤ u) :
      ∃ h, (run.state u).handling? c = some h ∧ h.legs[d]? = some leg :=
    handled_of_leg? (still u hu).1
  have sees (u : Nat) (hu : t ≤ u) : ∃ m leg', leg' = leg ∧
      LegStep (run.action u).1 (run.state u) c d m (run.action u).2 leg leg' := by
    obtain ⟨h, found, here⟩ := there u hu
    obtain ⟨h', found', here'⟩ := there (u + 1) (Nat.le_succ_of_le hu)
    obtain ⟨leg', there', sees⟩ := legStep_of_step (und.sound u) (run.steps u) found here found'
    rw [here'] at there'
    cases there'
    exact ⟨h.message, leg, rfl, sees⟩
  -- in each open phase somebody has a turn that would move the leg
  cases phase : leg.phase with
  | ready =>
    obtain ⟨u, hu, submits⟩ := even.turn (.submit c d) t fun u hu ↦ by
      obtain ⟨h, found, here⟩ := there u hu
      exact ⟨submit_mem_ownActions found (List.getElem?_eq_some_iff.mp here).1,
        submit_of_ready (und.sound u) found here phase _⟩
    obtain ⟨m, leg', same, sees⟩ := sees u hu
    rw [submits] at sees
    cases sees with
    | same others => exact others.1 rfl
    | submit =>
      have moved := congrArg Leg.phase same
      rw [phase] at moved
      cases moved
    | refuse =>
      have moved := congrArg Leg.phase same
      rw [phase, Leg.phase_lose rfl] at moved
      cases moved
  | waiting due =>
    obtain ⟨v, late⟩ := even.time due
    obtain ⟨u, hu, wakes⟩ := even.turn (.wake c d) (max t v) fun u hu ↦ by
      obtain ⟨h, found, here⟩ := there u ((Nat.le_max_left t v).trans hu)
      exact ⟨wake_mem_ownActions found (List.getElem?_eq_some_iff.mp here).1,
        wake_of_waiting found here phase (late u ((Nat.le_max_right t v).trans hu))⟩
    obtain ⟨m, leg', same, sees⟩ := sees u ((Nat.le_max_left t v).trans hu)
    rw [wakes] at sees
    cases sees with
    | same others => exact others.2.1 rfl
    | wake =>
      have moved := congrArg Leg.phase same
      rw [phase] at moved
      cases moved
  | submitted =>
    obtain ⟨h, found, here⟩ := there t (Nat.le_refl t)
    obtain ⟨j, l, lane, mem⟩ := lane_of_submitted (und.sound t) found here phase
    refine und.not_queued even (fun u hu ↦ ?_) (fun u hu ↦ (still u hu).2) lane mem
    obtain ⟨h, found, -⟩ := there u hu
    exact ⟨h, found⟩
  | settled e => simp [Leg.result?, phase] at left

/-- With every step a leg stays as it is and hears nothing, or moves. -/
theorem stands_or_moves (und : Undisturbed s route past run)
    (found : (run.state t).handling? c = some h) (here : h.legs[d]? = some leg)
    (found' : (run.state (t + 1)).handling? c = some h') (here' : h'.legs[d]? = some leg') :
    leg' = leg ∧ (run.state t).heard c d (run.action t) = [] ∨
      Leg.Step (run.state t).plan h.message ((run.state t).heard c d (run.action t)) leg leg' := by
  obtain ⟨nobody, -⟩ | ⟨_, found'', follows⟩ :=
    (effect_of_step (run.steps t)).handled (und.sound t) found
  · rw [found'] at nobody
    cases nobody
  · rw [found'] at found''
    cases found''
    obtain ⟨_, here'', -, moves⟩ := follows.leg here
    rw [here'] at here''
    cases here''
    exact moves

/-- A leg that has not ended has heard fewer replies than end it alone: with `n` of them it stood
where it stands alone, and there it is not ready. -/
theorem few_replies (und : Undisturbed s route past run) {sent : Message}
    (prepared : PreparedTo route c past sent) (came : arrivals c past ≠ []) {script : Script}
    (followed : script.Followed (replies c d (past ++ run.past t))) {n : Nat}
    (ends : (Leg.alone route.mode sent script n).phase ≠ .ready)
    (found : (run.state t).handling? c = some h) (here : h.legs[d]? = some leg)
    (left : leg.result? = none) : (replies c d (past ++ run.past t)).length < n := by
  by_contra enough
  obtain ⟨x, underway⟩ := underway_of_prepared (und.reached t)
    (prepared.append came (und.reached t)) found
  have tracks := (underway.courses here).tracks followed
  rw [mode_of_runs (und.reached t)] at tracks
  have ready := tracks.ready_of_left left
  rw [Leg.alone_of_ended ends (Nat.le_of_not_lt enough)] at ready
  exact ends ready

/-- **In an even run a leg that would end alone ends.** -/
theorem settles (und : Undisturbed s route past run) (even : Even run) {sent : Message}
    (prepared : PreparedTo route c past sent) (came : arrivals c past ≠ [])
    (handled : ∀ t, ∃ h, (run.state t).handling? c = some h)
    (hd : d < route.destinations.length) {script : Script}
    (followed : ∀ t, script.Followed (replies c d (past ++ run.past t))) {n : Nat}
    (ends : (Leg.alone route.mode sent script n).phase ≠ .ready) :
    ∃ t, ∀ u, t ≤ u → ∃ leg, (run.state u).leg? c d = some leg ∧ leg.result?.isSome = true := by
  have in_place (t : Nat) :
      ∃ h leg, (run.state t).handling? c = some h ∧ h.legs[d]? = some leg := by
    obtain ⟨h, found⟩ := handled t
    exact ⟨h, _, found, List.getElem?_eq_getElem (length_legs_of_runs (und.reached t) found ▸ hd)⟩
  choose h leg found here using in_place
  have safe (t : Nat) : ∀ kind, (leg t).phase ≠ .settled (.failed kind) :=
    safe_of_calm (und.reached t) (und.running t) (und.calm t) (found t) (here t)
  have next (t : Nat) := und.stands_or_moves (found t) (here t) (found (t + 1)) (here (t + 1))
  have more (t : Nat) : replies c d (past ++ run.past (t + 1)) =
      replies c d (past ++ run.past t) ++ (run.state t).heard c d (run.action t) := by
    rw [run.past_succ, ← List.append_assoc, replies_concat]
    rfl
  have nearer {t : Nat} (left : (leg t).result? = none)
      (moves : Leg.Step (run.state t).plan (h t).message
        ((run.state t).heard c d (run.action t)) (leg t) (leg (t + 1))) :
      (leg (t + 1)).distance n (replies c d (past ++ run.past (t + 1))) <
        (leg t).distance n (replies c d (past ++ run.past t)) := by
    rw [more]
    exact moves.distance_lt (safe (t + 1))
      (und.few_replies prepared came (followed t) ends (found t) (here t) left)
  -- the distance to the end never grows, and were it never to fall, the leg would stand still
  have stays (t : Nat) (left : ¬ (leg t).result?.isSome = true) :
      (leg (t + 1)).distance n (replies c d (past ++ run.past (t + 1))) ≤
        (leg t).distance n (replies c d (past ++ run.past t)) := by
    obtain ⟨same, nothing⟩ | moves := next t
    · rw [more, same, nothing, List.append_nil]
    · exact (nearer (by simpa using left) moves).le
  have falls (t : Nat) (left : ¬ (leg t).result?.isSome = true) :
      ∃ u, t ≤ u ∧ ((leg u).result?.isSome = true ∨
        (leg (u + 1)).distance n (replies c d (past ++ run.past (u + 1))) <
          (leg u).distance n (replies c d (past ++ run.past u))) := by
    by_contra stuck
    have left_at (u : Nat) (hu : t ≤ u) : (leg u).result? = none := by
      by_contra ended
      exact stuck ⟨u, hu, .inl (Option.isSome_iff_ne_none.mpr ended)⟩
    have stands (u : Nat) (hu : t ≤ u) :
        leg (u + 1) = leg u ∧ (run.state u).heard c d (run.action u) = [] := by
      obtain same | moves := next u
      · exact same
      · exact absurd ⟨u, hu, .inr (nearer (left_at u hu) moves)⟩ stuck
    have same (u : Nat) (hu : t ≤ u) : leg u = leg t := by
      induction u, hu using Nat.le_induction with
      | base => rfl
      | succ u hu ih => exact (stands u hu).1.trans ih
    refine und.not_still even (left_at t (Nat.le_refl t)) fun u hu ↦ ⟨?_, (stands u hu).2⟩
    rw [← same u hu]
    exact leg?_of_found (found u) (here u)
  obtain ⟨t, -, ended⟩ := eventually_of_rank (fun t ↦ (leg t).result?.isSome = true)
    (fun t ↦ (leg t).distance n (replies c d (past ++ run.past t))) stays falls 0
  refine ⟨t, fun u hu ↦ ⟨leg u, leg?_of_found (found u) (here u), ?_⟩⟩
  induction u, hu using Nat.le_induction with
  | base => exact ended
  | succ u _ ih =>
    obtain ⟨same, -⟩ | moves := next u
    · rw [same]
      exact ih
    · rw [moves.left] at ih
      cases ih

/-- **In an even run a call leaves the route if every destination would come to its end alone.** -/
theorem leaves (und : Undisturbed s route past run) (even : Even run) {sent : Message}
    (prepared : PreparedTo route c past sent) (came : arrivals c past ≠ [])
    {scripts : Nat → Script}
    (followed : ∀ t d, (scripts d).Followed (replies c d (past ++ run.past t)))
    (ends : ∀ d, d < route.destinations.length →
      ∃ leg, Leg.EndsAlone route.mode sent (scripts d) leg) :
    ∃ u, (run.state u).handling? c = none := by
  by_contra never
  have handled (t : Nat) : ∃ h, (run.state t).handling? c = some h := by
    apply Option.ne_none_iff_exists'.mp
    exact fun nobody ↦ never ⟨t, nobody⟩
  obtain ⟨t, settled⟩ := eventually_all fun d hd ↦ by
    obtain ⟨leg, n, rfl, ended⟩ := ends d hd
    exact und.settles even prepared came handled hd (fun t ↦ followed t d) ended
  have all_settled (u : Nat) (hu : t ≤ u) {h : Handling}
      (found : (run.state u).handling? c = some h) :
      ∀ leg ∈ h.legs, leg.result?.isSome = true := by
    intro leg mem
    obtain ⟨d, here⟩ := List.mem_iff_getElem?.mp mem
    have hd : d < route.destinations.length :=
      length_legs_of_runs (und.reached u) found ▸ (List.getElem?_eq_some_iff.mp here).1
    obtain ⟨leg', here', ended⟩ := settled d hd u hu
    rw [leg?_of_found found here] at here'
    cases here'
    exact ended
  obtain ⟨u, hu, resolves⟩ := even.turn (.resolve c) t fun u hu ↦ by
    obtain ⟨h, found⟩ := handled u
    exact ⟨resolve_mem_ownActions found, resolve_of_settled found (all_settled u hu found) _⟩
  have step : (run.state u).step? (run.action u).1 (.resolve c) =
      some (run.state (u + 1), run.outputs u) := resolves ▸ run.steps u
  obtain ⟨-, -, -, after, -⟩ := resolve?_cases step
  refine never ⟨u + 1, ?_⟩
  rw [after, handling?_withoutHandling, if_pos rfl]

end Undisturbed

end Running

end MessageBridge
