import MessageBridge.Proofs.Endless
import MessageBridge.Proofs.Lane.Crash

/-!
# Closing a pool

A pool that has been told to close comes to its end, whatever became of some of its workers. Every
other worker closes its queue, serves what is left in it and ends, if it has its turns and if the
bus answers. For a worker has only so much to do before it is gone (`Lane.toGo`): as long as its
queue is open at most what fits into it, and then what is in it. Nothing that happens to the pool
makes this more, and each step of the worker makes it less.
-/

namespace MessageBridge

universe u

variable {α : Type u}

/-! ## The end of a worker -/

namespace Lane

variable {a : α} {l l' : Lane α}

/-- The most steps until the worker of a lane is gone, if the lane has been told to close. -/
def toGo (l : Lane α) : Nat :=
  match l.worker with
  | .serving => 2 * l.queue.depth + l.inHand.toList.length + 2
  | .draining => 2 * l.queue.accepted.length + l.inHand.toList.length + 1
  | .ended | .crashed => 0

theorem toGo_of_serving (serving : l.worker = .serving) :
    l.toGo = 2 * l.queue.depth + l.inHand.toList.length + 2 := by
  rw [toGo, serving]

theorem toGo_of_draining (draining : l.worker = .draining) :
    l.toGo = 2 * l.queue.accepted.length + l.inHand.toList.length + 1 := by
  rw [toGo, draining]

theorem working_cases (working : l.working = true) :
    l.worker = .serving ∨ l.worker = .draining := by
  cases worker : l.worker <;> simp_all [Lane.working]

theorem toGo_of_gone (gone : l.gone = true) : l.toGo = 0 := by
  cases worker : l.worker <;> simp_all [Lane.gone, toGo]

theorem toGo_pos (working : l.working = true) : 0 < l.toGo := by
  obtain serving | draining := working_cases working
  · rw [toGo_of_serving serving]
    omega
  · rw [toGo_of_draining draining]
    omega

theorem toGo_submit? (sound : l.Sound) (step : l.submit? a = some l') : l'.toGo = l.toGo := by
  obtain ⟨q, offered, rfl⟩ := submit?_eq_some.mp step
  have still_open := Queue.closed_eq_false_of_offer? offered
  have depth : q.depth = l.queue.depth := by
    unfold Queue.offer? at offered
    split at offered
    · cases offered
    · split at offered <;> cases offered <;> rfl
  cases worker : l.worker with
  | serving =>
    rw [toGo_of_serving worker, ← depth]
    rfl
  | draining =>
    rw [sound.closed_of_draining worker] at still_open
    cases still_open
  | ended | crashed => rw [toGo, toGo, worker]

theorem toGo_take? (sound : l.Sound) (closing : l.worker ≠ .serving)
    (step : l.take? = some (a, l')) : l'.toGo < l.toGo := by
  obtain ⟨working, free, q, taken, rfl⟩ := take?_eq_some.mp step
  have draining := (working_cases working).resolve_left closing
  have nobody : l.queue.waiting = [] := by
    by_contra some_wait
    have still_open := (sound.queue.full_of_waiting some_wait).2
    rw [sound.closed_of_draining draining] at still_open
    cases still_open
  have fewer : l.queue.accepted.length = q.accepted.length + 1 := by
    have contents := congrArg List.length (Queue.contents_take? taken)
    have still_nobody : q.waiting = [] := by
      simp only [Queue.take?, nobody] at taken
      split at taken <;> cases taken
      rfl
    simpa [Queue.contents, nobody, still_nobody] using contents
  rw [toGo_of_draining draining, toGo_of_draining (by exact draining), fewer, free]
  simp only [Option.toList_some, List.length_singleton]
  omega

theorem toGo_finish? (sound : l.Sound) (step : l.finish? = some (a, l')) : l'.toGo < l.toGo := by
  obtain ⟨hand, rfl⟩ := finish?_eq_some.mp step
  obtain serving | draining := working_cases (sound.working_of_inHand (by rw [hand]; rfl))
  · rw [toGo_of_serving serving, toGo_of_serving (by exact serving), hand]
    exact Nat.lt_succ_self _
  · rw [toGo_of_draining draining, toGo_of_draining (by exact draining), hand]
    exact Nat.lt_succ_self _

theorem toGo_crash? {lost : List α} (sound : l.Sound) (step : l.crash? = some (lost, l')) :
    l'.toGo < l.toGo := by
  obtain ⟨b, hand, -, rfl⟩ := crash?_eq_some.mp step
  exact toGo_pos (sound.working_of_inHand (by rw [hand]; rfl))

/-- What is in the queue when it is closed has found a place there. -/
theorem toGo_drain? {refused : List α} (sound : l.Sound) (step : l.drain? = some (refused, l')) :
    l'.toGo < l.toGo := by
  obtain ⟨serving, free, -, rfl⟩ := drain?_eq_some.mp step
  have le_depth := sound.queue.le_depth
  rw [toGo_of_serving serving, toGo_of_draining rfl]
  simp only [Queue.close]
  omega

theorem toGo_end? (step : l.end? = some l') : l'.toGo < l.toGo := by
  obtain ⟨working, -, -, -, rfl⟩ := end?_eq_some.mp step
  exact toGo_pos working

/-- A worker with free hands that is not gone can close its queue, take a job from the closed queue
or end. -/
theorem goes_on (sound : l.Sound) (free : l.inHand = none) (here : l.gone = false) :
    (∃ refused l', l.drain? = some (refused, l')) ∨
      (∃ a l', l.worker ≠ .serving ∧ l.take? = some (a, l')) ∨ ∃ l', l.end? = some l' := by
  have working := working_of_not_gone here
  obtain serving | draining := working_cases working
  · exact .inl ⟨_, _, drain?_eq_some.mpr ⟨serving, free, rfl, rfl⟩⟩
  · refine .inr ?_
    by_cases nothing : l.queue.accepted = []
    · have closed := sound.closed_of_draining draining
      exact .inr ⟨_, end?_eq_some.mpr ⟨working, closed, free, nothing, rfl⟩⟩
    · have not_serving : l.worker ≠ .serving := by
        rw [draining]
        exact nofun
      obtain ⟨b, l', taken⟩ := sound.exists_take? free nothing
      exact .inl ⟨b, l', not_serving, taken⟩

/-- **A worker whose work only gets less is gone in the end**, if a job in its hands gets done and
free hands do something. -/
theorem eventually_gone {lane : Nat → Lane α}
    (moves : ∀ t, lane (t + 1) = lane t ∨ (lane t).Move (lane (t + 1)))
    (stays : ∀ t, (lane (t + 1)).toGo ≤ (lane t).toGo)
    (busy : ∀ t, (lane t).inHand.isSome = true →
      ∃ u, t ≤ u ∧ (lane (u + 1)).toGo < (lane u).toGo)
    (idle : ∀ t, (∀ u, t ≤ u → (lane u).inHand = none ∧ (lane u).gone = false) →
      ∃ u, t ≤ u ∧ (lane (u + 1)).toGo < (lane u).toGo) :
    ∃ t, ∀ u, t ≤ u → (lane u).gone = true := by
  have falls (t : Nat) (_ : ¬ (lane t).gone = true) :
      ∃ u, t ≤ u ∧ ((lane u).gone = true ∨ (lane (u + 1)).toGo < (lane u).toGo) := by
    by_cases hand : ∃ u, t ≤ u ∧ (lane u).inHand.isSome = true
    · obtain ⟨u, hu, hand⟩ := hand
      obtain ⟨v, hv, less⟩ := busy u hand
      exact ⟨v, hu.trans hv, .inr less⟩
    · by_cases gone : ∃ u, t ≤ u ∧ (lane u).gone = true
      · obtain ⟨u, hu, gone⟩ := gone
        exact ⟨u, hu, .inl gone⟩
      · obtain ⟨u, hu, less⟩ := idle t fun u hu ↦ by
          constructor
          · rw [← Option.not_isSome_iff_eq_none]
            exact fun some_job ↦ hand ⟨u, hu, some_job⟩
          · rw [← Bool.not_eq_true]
            exact fun gone_now ↦ gone ⟨u, hu, gone_now⟩
        exact ⟨u, hu, .inr less⟩
  obtain ⟨t, -, gone⟩ := eventually_of_rank (fun t ↦ (lane t).gone = true)
    (fun t ↦ (lane t).toGo) (fun t _ ↦ stays t) falls 0
  refine ⟨t, fun u hu ↦ ?_⟩
  induction u, hu using Nat.le_induction with
  | base => exact gone
  | succ u _ ih =>
    obtain same | move := moves u
    · rw [same]
      exact ih
    · exact gone_move ih move

end Lane

/-! ## The workers of a pool -/

namespace Pool

variable {i : Nat} {p p' : Pool α} {l l' : Lane α}

theorem Move.closing (move : Move p p') (closing : p.closing = true) : p'.closing = true := by
  cases move with
  | submit a =>
    obtain ⟨m, m', -, -, done⟩ | ⟨-, done⟩ := submit_cases a p <;> rw [done] <;> exact closing
  | take step =>
    obtain ⟨m, m', -, -, -, rfl⟩ := take?_eq_some.mp step
    exact closing
  | finish step =>
    obtain ⟨m, m', -, -, rfl⟩ := finish?_eq_some.mp step
    exact closing
  | crash step =>
    obtain ⟨m, m', -, -, rfl⟩ := crash?_eq_some.mp step
    exact closing
  | drain step =>
    obtain ⟨m, m', -, -, -, rfl⟩ := drain?_eq_some.mp step
    exact closing
  | retire step =>
    obtain ⟨m, m', -, -, rfl⟩ := end?_eq_some.mp step
    exact closing
  | close => rfl
  | release => exact closing
  | withdraw => exact closing

/-- The worker of a lane does something, or its publish comes to an end. -/
inductive Works (i : Nat) (p p' : Pool α) : Prop where
  | take {a : α} (step : p.take? i = some (a, p'))
  | finish {a : α} (step : p.finish? i = some (a, p'))
  | crash {lost : List α} (step : p.crash? i = some (lost, p'))
  | drain {refused : List α} (step : p.drain? i = some (refused, p'))
  | retire (step : p.end? i = some p')

theorem Works.toGo_lt (works : Works i p p') (closing : p.closing = true) (sound : p.Sound) :
    ∃ l l', p.lanes[i]? = some l ∧ p' = p.setLane i l' ∧ l'.toGo < l.toGo := by
  cases works with
  | take step =>
    obtain ⟨l, l', hl, may, taken, rfl⟩ := take?_eq_some.mp step
    exact ⟨l, l', hl, rfl, Lane.toGo_take? (sound hl) (may closing) taken⟩
  | finish step =>
    obtain ⟨l, l', hl, finished, rfl⟩ := finish?_eq_some.mp step
    exact ⟨l, l', hl, rfl, Lane.toGo_finish? (sound hl) finished⟩
  | crash step =>
    obtain ⟨l, l', hl, crashed, rfl⟩ := crash?_eq_some.mp step
    exact ⟨l, l', hl, rfl, Lane.toGo_crash? (sound hl) crashed⟩
  | drain step =>
    obtain ⟨l, l', hl, -, drained, rfl⟩ := drain?_eq_some.mp step
    exact ⟨l, l', hl, rfl, Lane.toGo_drain? (sound hl) drained⟩
  | retire step =>
    obtain ⟨l, l', hl, ended, rfl⟩ := end?_eq_some.mp step
    exact ⟨l, l', hl, rfl, Lane.toGo_end? ended⟩

theorem Works.lane_toGo_lt (works : Works i p p') (closing : p.closing = true) (sound : p.Sound)
    (hl : p.lanes[i]? = some l) (hl' : p'.lanes[i]? = some l') : l'.toGo < l.toGo := by
  obtain ⟨m, m', hm, rfl, less⟩ := works.toGo_lt closing sound
  rw [hl] at hm
  cases hm
  rw [setLane_lanes, List.getElem?_set_self (List.getElem?_eq_some_iff.mp hl).1] at hl'
  cases hl'
  exact less

private theorem toGo_setLane_le {k : Nat} {m m' : Lane α} (hm : p.lanes[k]? = some m)
    (less : m'.toGo ≤ m.toGo) (hl : p.lanes[i]? = some l)
    (hl' : (p.setLane k m').lanes[i]? = some l') : l'.toGo ≤ l.toGo := by
  rw [setLane_lanes, List.getElem?_set] at hl'
  by_cases here : k = i
  · subst here
    rw [if_pos rfl, if_pos (List.getElem?_eq_some_iff.mp hm).1] at hl'
    cases hl'
    rw [hl] at hm
    cases hm
    exact less
  · rw [if_neg here, hl] at hl'
    cases hl'
    exact Nat.le_refl _

/-- **No worker of a closing pool ever gets more to do.** -/
theorem Move.toGo_le (move : Move p p') (closing : p.closing = true) (sound : p.Sound)
    (hl : p.lanes[i]? = some l) (hl' : p'.lanes[i]? = some l') : l'.toGo ≤ l.toGo := by
  have of_works {k : Nat} (works : Works k p p') : l'.toGo ≤ l.toGo := by
    obtain ⟨m, m', hm, rfl, less⟩ := works.toGo_lt closing sound
    exact toGo_setLane_le hm less.le hl hl'
  cases move with
  | submit a =>
    obtain ⟨m, m', hm, submitted, done⟩ | ⟨-, done⟩ := submit_cases a p
    · rw [done] at hl'
      exact toGo_setLane_le (p := p.pick.2) hm (Lane.toGo_submit? (sound hm) submitted).le hl hl'
    · rw [done, pick_lanes, hl] at hl'
      cases hl'
      exact Nat.le_refl _
  | take step => exact of_works (.take step)
  | finish step => exact of_works (.finish step)
  | crash step => exact of_works (.crash step)
  | drain step => exact of_works (.drain step)
  | retire step => exact of_works (.retire step)
  | close =>
    rw [hl] at hl'
    cases hl'
    exact Nat.le_refl _
  | release =>
    rw [Pool.release, List.getElem?_map, hl] at hl'
    cases hl'
    exact Nat.le_refl _
  | withdraw givesUp =>
    rw [Pool.withdraw, List.getElem?_map, hl] at hl'
    cases hl'
    exact Nat.le_refl _

end Pool

/-! ## Fair runs -/

namespace Service

variable {s : EngineSettings} {d : Destination} {past later : List (Event α)} {S S' : Service α}
  {a : ServiceAction α} {outputs : List (ServiceOutput α)} {i : Nat} {l : Lane (Submission α)}

/-- What a worker does by itself. -/
def turns (i : Nat) : List (ServiceAction α) := [.take i, .drain i, .retire i]

/-- A run that never ends, in which every worker has its turns and the bus answers. -/
structure Fair (run : Endless step? S) : Prop where
  /-- A worker that can always do something by itself from some time on does something. -/
  turn : ∀ i t, (∀ u, t ≤ u → ∃ a ∈ turns i, ((run.state u).step? a).isSome = true) →
    ∃ u, t ≤ u ∧ run.action u ∈ turns i
  /-- Every publish is answered, or crashes its worker. -/
  answered : ∀ i t l, (run.state t).pool.lanes[i]? = some l → l.inHand.isSome = true →
    ∃ u, t ≤ u ∧ (run.action u = .crash i ∨ ∃ answer, run.action u = .reply i answer)

theorem works_of_turn (step : S.step? a = some (S', outputs)) (turn : a ∈ turns i) :
    S.pool.Works i S'.pool := by
  simp only [turns, List.mem_cons, List.not_mem_nil, or_false] at turn
  rcases turn with rfl | rfl | rfl
  · obtain ⟨⟨y, p⟩, taken, step⟩ := Option.bind_eq_some_iff.mp step
    cases step
    exact .take taken
  · obtain ⟨⟨refused, p⟩, drained, step⟩ := Option.bind_eq_some_iff.mp step
    cases step
    exact .drain drained
  · obtain ⟨p, ended, step⟩ := Option.bind_eq_some_iff.mp step
    cases step
    exact .retire ended

theorem works_of_answer (step : S.step? a = some (S', outputs))
    (answered : a = .crash i ∨ ∃ answer, a = .reply i answer) : S.pool.Works i S'.pool := by
  rcases answered with rfl | ⟨answer, rfl⟩
  · obtain ⟨⟨lost, p⟩, crashed, step⟩ := Option.bind_eq_some_iff.mp step
    cases step
    exact .crash crashed
  · obtain ⟨⟨y, p⟩, finished, step⟩ := Option.bind_eq_some_iff.mp step
    cases step
    exact .finish finished

/-- In a closing pool a worker with free hands can do something until it is gone. -/
theorem exists_turn (closing : S.pool.closing = true) (hl : S.pool.lanes[i]? = some l)
    (sound : l.Sound) (free : l.inHand = none) (here : l.gone = false) :
    ∃ a ∈ turns i, (S.step? a).isSome = true := by
  obtain ⟨refused, l', drains⟩ | ⟨x, l', may, takes⟩ | ⟨l', ends⟩ := Lane.goes_on sound free here
  · have drained := Pool.drain?_eq_some.mpr ⟨l, l', hl, closing, drains, rfl⟩
    exact ⟨.drain i, by simp [turns], by simp [step?, drained]⟩
  · have taken := Pool.take?_eq_some.mpr ⟨l, l', hl, fun _ ↦ may, takes, rfl⟩
    exact ⟨.take i, by simp [turns], by simp [step?, taken]⟩
  · have ended := Pool.end?_eq_some.mpr ⟨l, l', hl, ends, rfl⟩
    exact ⟨.retire i, by simp [turns], by simp [step?, ended]⟩

theorem closing_after (after : Execution step? S later S') (closing : S.pool.closing = true) :
    S'.pool.closing = true :=
  after.invariant closing fun closing step ↦ (move_of_step step).closing closing

theorem length_after (after : Execution step? S later S') :
    S'.pool.lanes.length = S.pool.lanes.length :=
  after.invariant (P := fun S' ↦ S'.pool.lanes.length = S.pool.lanes.length) rfl
    fun same step ↦ (move_of_step step).moved.length.trans same

/-- **Every worker of a closing pool is gone in the end.** -/
theorem gone_of_fair (exec : Execution step? (ofSettings s d) past S)
    (closing : S.pool.closing = true) {run : Endless step? S} (fair : Fair run)
    (hl : S.pool.lanes[i]? = some l) :
    ∃ t, ∀ u, t ≤ u → ∀ {m}, (run.state u).pool.lanes[i]? = some m → m.gone = true := by
  choose lane there using fun t ↦ exists_lane (run.execution t) hl
  have reached (t : Nat) := exec.trans (run.execution t)
  have still_closing (t : Nat) := closing_after (run.execution t) closing
  have sound (t : Nat) : (run.state t).pool.Sound := fun hm ↦ lane_sound (reached t) hm
  have falls {t : Nat} (works : (run.state t).pool.Works i (run.state (t + 1)).pool) :
      (lane (t + 1)).toGo < (lane t).toGo :=
    works.lane_toGo_lt (still_closing t) (sound t) (there t) (there (t + 1))
  have moves (t : Nat) : lane (t + 1) = lane t ∨ (lane t).Move (lane (t + 1)) := by
    obtain ⟨m, hm, seen⟩ := seen_of_step (run.steps t) (there (t + 1))
    rw [there t] at hm
    cases hm
    exact seen.moved
  have stays (t : Nat) : (lane (t + 1)).toGo ≤ (lane t).toGo :=
    (move_of_step (run.steps t)).toGo_le (still_closing t) (sound t) (there t) (there (t + 1))
  have busy (t : Nat) (hand : (lane t).inHand.isSome = true) :
      ∃ u, t ≤ u ∧ (lane (u + 1)).toGo < (lane u).toGo := by
    obtain ⟨u, hu, answered⟩ := fair.answered i t _ (there t) hand
    exact ⟨u, hu, falls (works_of_answer (run.steps u) answered)⟩
  have idle (t : Nat) (free : ∀ u, t ≤ u → (lane u).inHand = none ∧ (lane u).gone = false) :
      ∃ u, t ≤ u ∧ (lane (u + 1)).toGo < (lane u).toGo := by
    obtain ⟨u, hu, turn⟩ := fair.turn i t fun u hu ↦
      exists_turn (still_closing u) (there u) (sound u (there u)) (free u hu).1 (free u hu).2
    exact ⟨u, hu, falls (works_of_turn (run.steps u) turn)⟩
  obtain ⟨t, gone⟩ := Lane.eventually_gone moves stays busy idle
  refine ⟨t, fun u hu m hm ↦ ?_⟩
  rw [there u] at hm
  cases hm
  exact gone u hu

/-- Nothing but the end of its publish takes a job out of the hand of a worker. -/
theorem Seen.inHand {l' : Lane (Submission α)} {x : Submission α} (seen : Seen S i a l l')
    (hand : l.inHand = some x) (going : ¬(a = .crash i ∨ ∃ answer, a = .reply i answer)) :
    l'.inHand = some x := by
  cases seen with
  | same => exact hand
  | submit _ step =>
    obtain ⟨q, -, rfl⟩ := Lane.submit?_eq_some.mp step
    exact hand
  | abandon => exact hand
  | release => exact hand
  | take _ step =>
    obtain ⟨-, idle, -⟩ := Lane.take?_eq_some.mp step
    rw [hand] at idle
    cases idle
  | @finish _ answer => exact absurd (.inr ⟨answer, rfl⟩) going
  | crash => exact absurd (.inl rfl) going
  | drain _ step =>
    obtain ⟨-, idle, -⟩ := Lane.drain?_eq_some.mp step
    rw [hand] at idle
    cases idle
  | retire step =>
    obtain ⟨-, -, -, -, rfl⟩ := Lane.end?_eq_some.mp step
    exact hand

/-- A run that has come to rest is fair if all workers of the closing pool are gone by then. -/
theorem fair_ofRest {idle : Nat → ServiceAction α} (exec : Execution step? (ofSettings s d) past S)
    (more : Execution step? S later S') (closing : S.pool.closing = true)
    (rest : ∀ t, S'.step? (idle t) = some (S', []))
    (all_gone : S'.pool.lanes.all Lane.gone = true) : Fair (.ofRest more rest) := by
  have gone {i : Nat} {l : Lane (Submission α)} (hl : S'.pool.lanes[i]? = some l) :
      l.gone = true := List.all_eq_true.mp all_gone l (List.mem_of_getElem? hl)
  constructor
  · intro i t can
    obtain ⟨a, turn, possible⟩ := can (max t later.length) (Nat.le_max_left _ _)
    rw [Endless.state_ofRest more rest (Nat.le_max_right _ _)] at possible
    obtain ⟨⟨S'', outputs⟩, step⟩ := Option.isSome_iff_exists.mp possible
    have sound : S'.pool.Sound := fun hl ↦ lane_sound (exec.trans more) hl
    obtain ⟨l, l', hl, -, less⟩ :=
      (works_of_turn step turn).toGo_lt (closing_after more closing) sound
    rw [Lane.toGo_of_gone (gone hl)] at less
    exact absurd less (Nat.not_lt_zero _)
  · intro i t l hl hand
    obtain ⟨x, hand⟩ := Option.isSome_iff_exists.mp hand
    by_contra never
    have held (u : Nat) (hu : t ≤ u) : ∃ m,
        ((Endless.ofRest more rest).state u).pool.lanes[i]? = some m ∧ m.inHand = some x := by
      induction u, hu using Nat.le_induction with
      | base => exact ⟨l, hl, hand⟩
      | succ u hu ih =>
        obtain ⟨m, hm, hand⟩ := ih
        obtain ⟨m', hm', seen⟩ := exists_seen ((Endless.ofRest more rest).steps u) hm
        exact ⟨m', hm', seen.inHand hand fun ends ↦ never ⟨u, hu, ends⟩⟩
    obtain ⟨m, hm, hand⟩ := held (max t later.length) (Nat.le_max_left _ _)
    rw [Endless.state_ofRest more rest (Nat.le_max_right _ _)] at hm
    rw [(lane_sound (exec.trans more) hm).inHand_eq_none (gone hm)] at hand
    cases hand

/-- What is left of a pool when it has come to its end. -/
structure Drained (past : List (Event α)) (S : Service α) : Prop where
  /-- All workers are gone, -/
  gone : ∀ {i : Nat} {l : Lane (Submission α)}, S.pool.lanes[i]? = some l → l.gone = true
  /-- nobody waits, -/
  nobody : S.waiters = []
  /-- and a worker without a crash has returned when everything that its queue accepted had been
  published and answered. -/
  served : ∀ {i : Nat} {l : Lane (Submission α)}, S.pool.lanes[i]? = some l →
    (∀ e ∈ past, e.action ≠ .crash i) →
    l.worker = .ended ∧ entered i past = (finished i past).map Prod.fst

theorem drained_of_gone (exec : Execution step? (ofSettings s d) past S)
    (gone : ∀ {i : Nat} {l : Lane (Submission α)}, S.pool.lanes[i]? = some l → l.gone = true) :
    Drained past S where
  gone := gone
  nobody := by
    rw [List.eq_nil_iff_forall_not_mem]
    intro n waits
    obtain ⟨i, l, x, hl, hx, -⟩ := held_of_waiter exec waits
    rw [jobs_of_gone exec hl (gone hl)] at hx
    cases hx
  served {i l} hl calm := by
    have sound := lane_sound exec hl
    have not_crashed := worker_ne_crashed exec calm hl
    have ended : l.worker = .ended := by
      simpa [Lane.gone, not_crashed] using gone hl
    refine ⟨ended, ?_⟩
    rw [entered_eq exec calm hl, (sound.left_nothing (gone hl)).2,
      sound.inHand_eq_none (gone hl)]
    exact List.append_nil _

/-- **A closing pool comes to its end**, whatever became of some of its workers. -/
theorem drains (exec : Execution step? (ofSettings s d) past S) (closing : S.pool.closing = true)
    {run : Endless step? S} (fair : Fair run) :
    ∃ t, ∀ u, t ≤ u → Drained (past ++ run.past u) (run.state u) := by
  obtain ⟨t, gone⟩ := eventually_all fun i (hi : i < S.pool.lanes.length) ↦
    gone_of_fair exec closing fair (List.getElem?_eq_getElem hi)
  refine ⟨t, fun u hu ↦ drained_of_gone (exec.trans (run.execution u)) fun {i l} hl ↦ ?_⟩
  have hi : i < S.pool.lanes.length := by
    rw [← length_after (run.execution u)]
    exact (List.getElem?_eq_some_iff.mp hl).1
  exact gone i hi u hu hl

end Service

end MessageBridge
