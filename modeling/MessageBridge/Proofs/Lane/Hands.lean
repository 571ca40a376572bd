import MessageBridge.Proofs.Lane.Load

/-!
# Jobs in hand

A job is in hand from the moment its worker takes it until the worker is done with it or crashes
over it. No other operation of a lane moves a job into a hand or out of one, whatever it does to the
queue. So the number of jobs in hand is the number of those taken, less the number of those finished
and of those crashed over.
-/

namespace MessageBridge

universe u

variable {α : Type u} (mine : α → Bool) {a : α}

namespace Lane

variable {l l' : Lane α}

/-- The number of jobs of some kind in the hand of the worker, which is one at most. -/
def held (mine : α → Bool) (l : Lane α) : Nat := l.inHand.toList.countP mine

theorem held_of_inHand (hand : l.inHand = some a) : l.held mine = if mine a then 1 else 0 := by
  rw [held, hand, Option.toList_some, List.countP_singleton]

theorem held_of_idle (idle : l.inHand = none) : l.held mine = 0 := by
  rw [held, idle, Option.toList_none, List.countP_nil]

theorem held_le (l : Lane α) : l.held mine ≤ l.jobs.countP mine := by
  rw [held, jobs, List.countP_append]
  exact Nat.le_add_right _ _

theorem held_submit? (step : l.submit? a = some l') : l'.held mine = l.held mine := by
  obtain ⟨q, -, rfl⟩ := submit?_eq_some.mp step
  rfl

theorem held_take? (step : l.take? = some (a, l')) :
    l.held mine = 0 ∧ l'.held mine = if mine a then 1 else 0 := by
  obtain ⟨-, idle, q, -, rfl⟩ := take?_eq_some.mp step
  exact ⟨held_of_idle mine idle, held_of_inHand mine rfl⟩

theorem held_finish? (step : l.finish? = some (a, l')) :
    (l.held mine = if mine a then 1 else 0) ∧ l'.held mine = 0 := by
  obtain ⟨hand, rfl⟩ := finish?_eq_some.mp step
  exact ⟨held_of_inHand mine hand, rfl⟩

theorem held_crash? {lost : List α} (step : l.crash? = some (lost, l')) : l'.held mine = 0 := by
  obtain ⟨b, -, -, rfl⟩ := crash?_eq_some.mp step
  rfl

theorem held_drain? {refused : List α} (step : l.drain? = some (refused, l')) :
    l'.held mine = l.held mine := by
  obtain ⟨-, -, -, rfl⟩ := drain?_eq_some.mp step
  rfl

theorem held_end? (step : l.end? = some l') : l'.held mine = l.held mine := by
  obtain ⟨-, -, -, -, rfl⟩ := end?_eq_some.mp step
  rfl

end Lane

namespace Pool

variable {p p' : Pool α} {i : Nat} {l : Lane α}

/-- The number of jobs of some kind in the hands of the workers. -/
def held (mine : α → Bool) (p : Pool α) : Nat := (p.lanes.map (Lane.held mine)).sum

theorem held_le (p : Pool α) : p.held mine ≤ p.jobs.countP mine := by
  rw [held, jobs]
  induction p.lanes with
  | nil => exact Nat.zero_le _
  | cons l lanes ih =>
    rw [List.map_cons, List.sum_cons, List.flatMap_cons, List.countP_append]
    exact Nat.add_le_add (l.held_le mine) ih

theorem held_ofSettings (s : EngineSettings) (d : Destination) :
    (ofSettings s d : Pool α).held mine = 0 := by
  simp [held, ofSettings, Lane.held, Lane.idle]

/-- The jobs in hand change with those of the lane that is replaced. -/
theorem held_setLane (hl : p.lanes[i]? = some l) (l' : Lane α) :
    (p.setLane i l').held mine + l.held mine = p.held mine + l'.held mine :=
  sum_setLane (Lane.held mine) hl l'

/-- A change that leaves all hands alone. -/
theorem held_map {f : Lane α → Lane α} (same : ∀ l : Lane α, (f l).inHand = l.inHand)
    (h : p'.lanes = p.lanes.map f) : p'.held mine = p.held mine := by
  rw [held, held, h, List.map_map]
  congr 2
  funext l
  rw [Function.comp, Lane.held, Lane.held, same]

theorem held_submit (a : α) (p : Pool α) : (p.submit a).1.held mine = p.held mine := by
  obtain ⟨l, l', hl, step, done⟩ | ⟨-, done⟩ := submit_cases a p
  · have picked : p.pick.2.lanes[p.turn]? = some l := hl
    have replaced := held_setLane mine picked l'
    rw [done]
    rw [Lane.held_submit? mine step] at replaced
    exact Nat.add_right_cancel replaced
  · rw [done]
    rfl

theorem held_take? (step : p.take? i = some (a, p')) :
    p'.held mine = p.held mine + if mine a then 1 else 0 := by
  obtain ⟨l, l', hl, -, taken, rfl⟩ := take?_eq_some.mp step
  have replaced := held_setLane mine hl l'
  obtain ⟨before, after⟩ := Lane.held_take? mine taken
  omega

theorem held_finish? (step : p.finish? i = some (a, p')) :
    p.held mine = p'.held mine + if mine a then 1 else 0 := by
  obtain ⟨l, l', hl, finished, rfl⟩ := finish?_eq_some.mp step
  have replaced := held_setLane mine hl l'
  obtain ⟨before, after⟩ := Lane.held_finish? mine finished
  omega

theorem held_crash? {lost : List α} (step : p.crash? i = some (lost, p'))
    (hl : p.lanes[i]? = some l) (hand : l.inHand = some a) :
    p.held mine = p'.held mine + if mine a then 1 else 0 := by
  obtain ⟨m, l', hm, crashed, rfl⟩ := crash?_eq_some.mp step
  rw [hl] at hm
  cases hm
  have replaced := held_setLane mine hl l'
  have before := Lane.held_of_inHand mine hand
  have after := Lane.held_crash? mine crashed
  omega

theorem held_drain? {refused : List α} (step : p.drain? i = some (refused, p')) :
    p'.held mine = p.held mine := by
  obtain ⟨l, l', hl, -, drained, rfl⟩ := drain?_eq_some.mp step
  have replaced := held_setLane mine hl l'
  rw [Lane.held_drain? mine drained] at replaced
  exact Nat.add_right_cancel replaced

theorem held_end? (step : p.end? i = some p') : p'.held mine = p.held mine := by
  obtain ⟨l, l', hl, ended, rfl⟩ := end?_eq_some.mp step
  have replaced := held_setLane mine hl l'
  rw [Lane.held_end? mine ended] at replaced
  exact Nat.add_right_cancel replaced

theorem held_release (p : Pool α) : p.release.held mine = p.held mine :=
  held_map mine (f := Lane.release) (fun _ ↦ rfl) rfl

theorem held_withdraw (givesUp : α → Bool) (p : Pool α) :
    (p.withdraw givesUp).held mine = p.held mine :=
  held_map mine (f := Lane.withdraw givesUp) (fun _ ↦ rfl) rfl

end Pool

end MessageBridge
