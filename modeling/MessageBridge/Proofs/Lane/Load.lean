import Mathlib.Algebra.GroupWithZero.Nat
import Mathlib.Algebra.Order.Group.Nat
import MessageBridge.Proofs.Lane.Moves

/-!
# The load of a lane

What the jobs of some kind in a lane still take of its worker: three units for a job in the queue,
one of which is spent when the worker takes it in hand and two when it is done with it. No operation
of a lane but a submission adds to the load, and a crash clears it.
-/

namespace MessageBridge

universe u

/-- A sum over a list changes with the term of the element that is replaced. -/
theorem sum_map_set {α : Type u} (weight : α → Nat) {xs : List α} {i : Nat} {a : α}
    (here : xs[i]? = some a) (b : α) :
    ((xs.set i b).map weight).sum + weight a = (xs.map weight).sum + weight b := by
  obtain ⟨hi, rfl⟩ := List.getElem?_eq_some_iff.mp here
  have before : xs = xs.take i ++ xs[i] :: xs.drop (i + 1) := by
    rw [List.getElem_cons_drop, List.take_append_drop]
  rw [List.set_eq_take_append_cons_drop, if_pos hi]
  conv_rhs => rw [before]
  simp only [List.map_append, List.map_cons, List.sum_append, List.sum_cons]
  omega

variable {α : Type u} (mine : α → Bool) {a : α}

namespace Lane

variable {l l' : Lane α}

/-- What the jobs of some kind in a lane still take. -/
def load (mine : α → Bool) (l : Lane α) : Nat :=
  2 * l.inHand.toList.countP mine + 3 * l.queue.contents.countP mine

theorem load_le (l : Lane α) : l.load mine ≤ 3 * l.jobs.countP mine := by
  rw [load, jobs, List.countP_append]
  omega

theorem load_submit? (step : l.submit? a = some l') :
    l'.load mine = l.load mine + if mine a then 3 else 0 := by
  obtain ⟨q, offered, rfl⟩ := submit?_eq_some.mp step
  simp only [load, Queue.contents_offer? offered, List.countP_append, List.countP_singleton]
  split <;> omega

theorem load_take? (step : l.take? = some (a, l')) :
    l.load mine = l'.load mine + if mine a then 1 else 0 := by
  obtain ⟨-, idle, q, taken, rfl⟩ := take?_eq_some.mp step
  simp only [load, idle, Queue.contents_take? taken, List.countP_cons, Option.toList_none,
    List.countP_nil, Option.toList_some]
  split <;> omega

/-- A job in hand is part of the load. -/
theorem le_load_of_inHand (hand : l.inHand = some a) (ha : mine a = true) : 2 ≤ l.load mine := by
  rw [load, hand, Option.toList_some, List.countP_singleton, if_pos ha]
  omega

theorem load_finish? (step : l.finish? = some (a, l')) :
    l.load mine = l'.load mine + if mine a then 2 else 0 := by
  obtain ⟨hand, rfl⟩ := finish?_eq_some.mp step
  simp only [load, hand, Option.toList_some, List.countP_singleton, Option.toList_none,
    List.countP_nil]
  split <;> omega

theorem load_crash? {lost : List α} (step : l.crash? = some (lost, l')) : l'.load mine = 0 := by
  obtain ⟨b, -, -, rfl⟩ := crash?_eq_some.mp step
  rfl

theorem load_drain? {refused : List α} (step : l.drain? = some (refused, l')) :
    l'.load mine ≤ l.load mine := by
  obtain ⟨-, idle, -, rfl⟩ := drain?_eq_some.mp step
  simp only [load, idle, Queue.close, Queue.contents, List.countP_append, List.countP_nil]
  omega

theorem load_end? (step : l.end? = some l') : l'.load mine = l.load mine := by
  obtain ⟨-, -, -, -, rfl⟩ := end?_eq_some.mp step
  rfl

theorem load_release_le (l : Lane α) : l.release.load mine ≤ l.load mine := by
  simp only [load, release, Queue.close, Queue.contents, List.countP_append, List.countP_nil]
  omega

theorem load_withdraw_le (givesUp : α → Bool) (l : Lane α) :
    (l.withdraw givesUp).load mine ≤ l.load mine := by
  have fewer : (l.withdraw givesUp).queue.contents.Sublist l.queue.contents :=
    (List.Sublist.refl _).append List.filter_sublist
  exact Nat.add_le_add_left (Nat.mul_le_mul_left 3 (fewer.countP_le)) _

end Lane

namespace Pool

variable {p p' : Pool α} {i : Nat} {l l' : Lane α}

/-- What the jobs of some kind in a pool still take. -/
def load (mine : α → Bool) (p : Pool α) : Nat := (p.lanes.map (Lane.load mine)).sum

theorem load_le (p : Pool α) : p.load mine ≤ 3 * p.jobs.countP mine := by
  rw [load, jobs]
  induction p.lanes with
  | nil => exact Nat.zero_le _
  | cons l lanes ih =>
    rw [List.map_cons, List.sum_cons, List.flatMap_cons, List.countP_append, Nat.mul_add]
    exact Nat.add_le_add (l.load_le mine) ih

/-- A sum over the lanes changes with the term of the lane that is replaced. -/
theorem sum_setLane (weight : Lane α → Nat) (hl : p.lanes[i]? = some l) (l' : Lane α) :
    ((p.setLane i l').lanes.map weight).sum + weight l = (p.lanes.map weight).sum + weight l' := by
  rw [setLane_lanes]
  exact sum_map_set weight hl l'

/-- The load of a pool changes with that of the lane that is replaced. -/
theorem load_setLane (hl : p.lanes[i]? = some l) (l' : Lane α) :
    (p.setLane i l').load mine + l.load mine = p.load mine + l'.load mine :=
  sum_setLane (Lane.load mine) hl l'

theorem lane_load_le (hl : p.lanes[i]? = some l) : l.load mine ≤ p.load mine := by
  have nothing : (Lane.idle 0 : Lane α).load mine = 0 := rfl
  have replaced := load_setLane mine hl (.idle 0)
  omega

theorem load_map_le {f : Lane α → Lane α} (less : ∀ l : Lane α, (f l).load mine ≤ l.load mine) :
    ((p.lanes.map f).map (Lane.load mine)).sum ≤ p.load mine := by
  rw [load]
  induction p.lanes with
  | nil => exact Nat.le_refl _
  | cons l lanes ih =>
    rw [List.map_cons, List.map_cons, List.map_cons, List.sum_cons, List.sum_cons]
    exact Nat.add_le_add (less l) ih

theorem load_submit_le (a : α) (p : Pool α) :
    (p.submit a).1.load mine ≤ p.load mine + if mine a then 3 else 0 := by
  obtain ⟨l, l', hl, step, done⟩ | ⟨-, done⟩ := submit_cases a p
  · have picked : p.pick.2.lanes[p.turn]? = some l := hl
    have replaced := load_setLane mine picked l'
    have same : p.pick.2.load mine = p.load mine := rfl
    rw [done]
    rw [Lane.load_submit? mine step] at replaced
    dsimp only
    omega
  · rw [done]
    exact Nat.le_add_right _ _

theorem load_take? (step : p.take? i = some (a, p')) :
    p.load mine = p'.load mine + if mine a then 1 else 0 := by
  obtain ⟨l, l', hl, -, taken, rfl⟩ := take?_eq_some.mp step
  have replaced := load_setLane mine hl l'
  have spent := Lane.load_take? mine taken
  omega

/-- A job that has just been taken is in hand. -/
theorem le_load_of_take? (step : p.take? i = some (a, p')) (ha : mine a = true) :
    2 ≤ p'.load mine := by
  obtain ⟨l, l', hl, -, taken, rfl⟩ := take?_eq_some.mp step
  obtain ⟨-, -, q, -, rfl⟩ := Lane.take?_eq_some.mp taken
  have here : (p.setLane i { l with queue := q, inHand := some a }).lanes[i]? =
      some { l with queue := q, inHand := some a } :=
    List.getElem?_set_self (List.getElem?_eq_some_iff.mp hl).1
  exact (Lane.le_load_of_inHand mine rfl ha).trans (lane_load_le mine here)

theorem load_finish? (step : p.finish? i = some (a, p')) :
    p.load mine = p'.load mine + if mine a then 2 else 0 := by
  obtain ⟨l, l', hl, finished, rfl⟩ := finish?_eq_some.mp step
  have replaced := load_setLane mine hl l'
  have spent := Lane.load_finish? mine finished
  omega

theorem load_crash?_le {lost : List α} (step : p.crash? i = some (lost, p')) :
    p'.load mine ≤ p.load mine := by
  obtain ⟨l, l', hl, crashed, rfl⟩ := crash?_eq_some.mp step
  have replaced := load_setLane mine hl l'
  have cleared := Lane.load_crash? mine crashed
  omega

/-- A crash over a job clears what that job took. -/
theorem load_crash?_lt {lost : List α} (step : p.crash? i = some (lost, p'))
    (hl : p.lanes[i]? = some l) (hand : l.inHand = some a) (ha : mine a = true) :
    p'.load mine < p.load mine := by
  obtain ⟨m, l', hm, crashed, rfl⟩ := crash?_eq_some.mp step
  rw [hl] at hm
  cases hm
  have replaced := load_setLane mine hl l'
  have cleared := Lane.load_crash? mine crashed
  have held := Lane.le_load_of_inHand mine hand ha
  omega

theorem load_drain?_le {refused : List α} (step : p.drain? i = some (refused, p')) :
    p'.load mine ≤ p.load mine := by
  obtain ⟨l, l', hl, -, drained, rfl⟩ := drain?_eq_some.mp step
  have replaced := load_setLane mine hl l'
  have less := Lane.load_drain? mine drained
  omega

theorem load_end? (step : p.end? i = some p') : p'.load mine = p.load mine := by
  obtain ⟨l, l', hl, ended, rfl⟩ := end?_eq_some.mp step
  have replaced := load_setLane mine hl l'
  have same := Lane.load_end? mine ended
  omega

end Pool

end MessageBridge
