import Mathlib.Data.List.Perm.Basic
import MessageBridge.Lane.Pool

/-!
# What a lane can do

Every change of a lane is one of eight moves, and every change of a pool moves each of its lanes at
most once. Two things follow for all machines that are made of pools. A lane stays *sound*: its
queue is never overfull, nobody waits for a place that is free or in a closed queue, and a worker
that is gone has left nothing behind. And the jobs in it are accounted for: each operation adds or
removes exactly the jobs that it names.

The jobs are compared up to their order. A pool holds the jobs of all its lanes, and the order
between lanes means nothing.
-/

open scoped List

namespace MessageBridge

universe u

variable {α : Type u}

/-! ## Queues -/

namespace Queue

/-- At most as many jobs are accepted as there are places, and whoever waits does so since all
places of an open queue are taken. -/
structure Sound (q : Queue α) : Prop where
  le_depth : q.accepted.length ≤ q.depth
  full_of_waiting : q.waiting ≠ [] → q.accepted.length = q.depth ∧ q.closed = false

theorem sound_empty (depth : Nat) : (empty depth : Queue α).Sound :=
  ⟨Nat.zero_le _, fun h ↦ absurd rfl h⟩

theorem Sound.offer? {a : α} {q r : Queue α} (h : q.Sound) (step : q.offer? a = some r) :
    r.Sound := by
  unfold Queue.offer? at step
  split at step
  · cases step
  · rename_i open_
    split at step
    · rename_i place
      cases step
      simp only [hasPlace, Bool.and_eq_true, List.isEmpty_iff, decide_eq_true_eq] at place
      exact ⟨by simp only [List.length_append, List.length_singleton]; omega,
        fun hne ↦ absurd place.1 hne⟩
    · rename_i full
      cases step
      -- without a place the queue is full, or some wait already, who know that it is
      refine ⟨h.le_depth, fun _ ↦ ⟨?_, by simpa using open_⟩⟩
      by_cases hw : q.waiting = []
      · simp only [hasPlace, hw, List.isEmpty_nil, Bool.true_and, decide_eq_true_eq] at full
        exact Nat.le_antisymm h.le_depth (Nat.le_of_not_lt full)
      · exact (h.full_of_waiting hw).1

theorem Sound.take? {a : α} {q r : Queue α} (h : q.Sound) (step : q.take? = some (a, r)) :
    r.Sound := by
  unfold Queue.take? at step
  have hle := h.le_depth
  split at step
  · cases step
  · rename_i b rest accepted
    rw [accepted, List.length_cons] at hle
    split at step
    · rename_i waiting
      cases step
      exact ⟨Nat.le_of_succ_le hle, fun hne ↦ absurd waiting hne⟩
    · rename_i c others waiting
      cases step
      obtain ⟨full, open_⟩ := h.full_of_waiting (by simp [waiting])
      rw [accepted, List.length_cons] at full
      exact ⟨by simpa using hle, fun _ ↦ ⟨by simpa using full, open_⟩⟩

theorem closed_eq_false_of_offer? {a : α} {q r : Queue α} (step : q.offer? a = some r) :
    q.closed = false := by
  unfold Queue.offer? at step
  split at step
  · cases step
  · rename_i still_open
    simpa using still_open

theorem closed_take? {a : α} {q r : Queue α} (step : q.take? = some (a, r)) :
    r.closed = q.closed := by
  unfold Queue.take? at step
  split at step
  · cases step
  · split at step <;> cases step <;> rfl

theorem Sound.withdraw {q : Queue α} (h : q.Sound) (givesUp : α → Bool) :
    (q.withdraw givesUp).Sound := by
  refine ⟨h.le_depth, fun hne ↦ h.full_of_waiting fun hw ↦ hne ?_⟩
  simp [Queue.withdraw, hw]

/-- A queue that is closed without waiting ones and not overfull is sound. -/
theorem sound_of_closed {q : Queue α} (hle : q.accepted.length ≤ q.depth) (hw : q.waiting = []) :
    q.Sound := ⟨hle, fun hne ↦ absurd hw hne⟩

end Queue

/-! ## Lanes -/

namespace Lane

/-- One change of a lane. -/
inductive Move : Lane α → Lane α → Prop where
  | submit {a : α} {l l' : Lane α} : l.submit? a = some l' → Move l l'
  | take {a : α} {l l' : Lane α} : l.take? = some (a, l') → Move l l'
  | finish {a : α} {l l' : Lane α} : l.finish? = some (a, l') → Move l l'
  | crash {lost : List α} {l l' : Lane α} : l.crash? = some (lost, l') → Move l l'
  | drain {refused : List α} {l l' : Lane α} : l.drain? = some (refused, l') → Move l l'
  | retire {l l' : Lane α} : l.end? = some l' → Move l l'
  | release (l : Lane α) : Move l l.release
  | withdraw (givesUp : α → Bool) (l : Lane α) : Move l (l.withdraw givesUp)

theorem submit?_eq_some {a : α} {l l' : Lane α} :
    l.submit? a = some l' ↔ ∃ q, l.queue.offer? a = some q ∧ l' = { l with queue := q } := by
  simp only [submit?, Option.map_eq_some_iff, eq_comm (a := l')]

/-- Only a closed queue refuses a job. -/
theorem closed_of_submit? {a : α} {l : Lane α} (refused : l.submit? a = none) :
    l.queue.closed = true := by
  by_contra still_open
  simp only [submit?, Option.map_eq_none_iff, Queue.offer?, if_neg still_open] at refused
  split at refused <;> cases refused

theorem take?_eq_some {a : α} {l l' : Lane α} :
    l.take? = some (a, l') ↔ l.working = true ∧ l.inHand = none ∧
      ∃ q, l.queue.take? = some (a, q) ∧ l' = { l with queue := q, inHand := some a } := by
  unfold take?
  split
  · rename_i idle
    simp only [Bool.and_eq_true, Option.isNone_iff_eq_none] at idle
    simp only [Option.map_eq_some_iff, Prod.exists, Prod.mk.injEq, idle, true_and]
    constructor
    · rintro ⟨b, q, taken, rfl, rfl⟩
      exact ⟨q, taken, rfl⟩
    · rintro ⟨q, taken, rfl⟩
      exact ⟨a, q, taken, rfl, rfl⟩
  · rename_i busy
    simp only [Bool.and_eq_true, Option.isNone_iff_eq_none] at busy
    exact ⟨fun h ↦ (nomatch h), fun h ↦ absurd ⟨h.1, h.2.1⟩ busy⟩

theorem finish?_eq_some {a : α} {l l' : Lane α} :
    l.finish? = some (a, l') ↔ l.inHand = some a ∧ l' = { l with inHand := none } := by
  simp only [finish?, Option.map_eq_some_iff, Prod.mk.injEq]
  constructor
  · rintro ⟨b, hand, rfl, rfl⟩
    exact ⟨hand, rfl⟩
  · rintro ⟨hand, rfl⟩
    exact ⟨a, hand, rfl, rfl⟩

theorem crash?_eq_some {lost : List α} {l l' : Lane α} :
    l.crash? = some (lost, l') ↔ ∃ a, l.inHand = some a ∧
      lost = a :: (l.queue.accepted ++ l.queue.waiting) ∧
      l' = ⟨l.queue.discard.2, none, .crashed⟩ := by
  simp only [crash?, Queue.discard, Option.map_eq_some_iff, Prod.mk.injEq, eq_comm (a := lost),
    eq_comm (a := l')]

theorem drain?_eq_some {refused : List α} {l l' : Lane α} :
    l.drain? = some (refused, l') ↔
      l.worker = .serving ∧ l.inHand = none ∧ refused = l.queue.waiting ∧
        l' = { l with queue := l.queue.close.2, worker := .draining } := by
  unfold drain?
  split
  · rename_i idle
    simp only [Bool.and_eq_true, Option.isNone_iff_eq_none, beq_iff_eq] at idle
    simp only [Queue.close, Option.some.injEq, Prod.mk.injEq, idle, true_and, eq_comm]
  · rename_i busy
    simp only [Bool.and_eq_true, Option.isNone_iff_eq_none, beq_iff_eq] at busy
    exact ⟨fun h ↦ (nomatch h), fun h ↦ absurd ⟨h.1, h.2.1⟩ busy⟩

theorem end?_eq_some {l l' : Lane α} :
    l.end? = some l' ↔ l.working = true ∧ l.queue.closed = true ∧ l.inHand = none ∧
      l.queue.accepted = [] ∧ l' = { l with worker := .ended } := by
  unfold end?
  split
  · rename_i done
    simp only [Bool.and_eq_true, Option.isNone_iff_eq_none, List.isEmpty_iff] at done
    simp only [Option.some.injEq, done, true_and, eq_comm]
  · rename_i more
    simp only [Bool.and_eq_true, Option.isNone_iff_eq_none, List.isEmpty_iff] at more
    exact ⟨fun h ↦ (nomatch h), fun h ↦ absurd ⟨⟨⟨h.1, h.2.1⟩, h.2.2.1⟩, h.2.2.2.1⟩ more⟩

/-- The queue is sound, only a worker that works has a job in hand, and one that is gone has left
a closed queue with nothing in it. -/
structure Sound (l : Lane α) : Prop where
  queue : l.queue.Sound
  working_of_inHand : l.inHand.isSome = true → l.working = true
  closed_of_draining : l.worker = .draining → l.queue.closed = true
  left_nothing : l.gone = true → l.queue.closed = true ∧ l.queue.accepted = []

theorem not_working_of_gone {l : Lane α} (h : l.gone = true) : l.working = false := by
  cases hw : l.worker <;> simp_all [gone, working]

theorem working_of_not_gone {l : Lane α} (here : l.gone = false) : l.working = true := by
  cases hw : l.worker <;> simp_all [gone, working]

theorem gone_of_serving {l : Lane α} (h : l.worker = .serving) : l.gone = false := by
  simp [gone, h]

theorem Sound.inHand_eq_none {l : Lane α} (h : l.Sound) (gone : l.gone = true) :
    l.inHand = none := by
  cases hand : l.inHand with
  | none => rfl
  | some a =>
    have := h.working_of_inHand (by simp [hand])
    rw [not_working_of_gone gone] at this
    cases this

/-- A worker with free hands can take a job as long as its queue has accepted some. -/
theorem Sound.exists_take? {l : Lane α} (h : l.Sound) (free : l.inHand = none)
    (some_job : l.queue.accepted ≠ []) : ∃ a l', l.take? = some (a, l') := by
  have working : l.working = true := by
    apply working_of_not_gone
    rw [← Bool.not_eq_true]
    exact fun gone ↦ some_job (h.left_nothing gone).2
  obtain ⟨a, rest, accepted⟩ := List.exists_cons_of_ne_nil some_job
  obtain ⟨q, taken⟩ : ∃ q, l.queue.take? = some (a, q) := by
    rw [Queue.take?, accepted]
    cases l.queue.waiting <;> exact ⟨_, rfl⟩
  exact ⟨a, _, take?_eq_some.mpr ⟨working, free, q, taken, rfl⟩⟩

theorem sound_idle (depth : Nat) : (idle depth : Lane α).Sound where
  queue := Queue.sound_empty depth
  working_of_inHand h := by cases h
  closed_of_draining h := by cases h
  left_nothing h := by cases h

theorem Sound.move {l l' : Lane α} (h : l.Sound) (move : Move l l') : l'.Sound := by
  cases move with
  | submit step =>
    obtain ⟨q, offered, rfl⟩ := submit?_eq_some.mp step
    have still_open := Queue.closed_eq_false_of_offer? offered
    refine ⟨h.queue.offer? offered, h.working_of_inHand, fun draining ↦ ?_, fun gone ↦ ?_⟩
    · rw [h.closed_of_draining draining] at still_open
      cases still_open
    · rw [(h.left_nothing gone).1] at still_open
      cases still_open
  | take step =>
    obtain ⟨working, -, q, taken, rfl⟩ := take?_eq_some.mp step
    refine ⟨h.queue.take? taken, fun _ ↦ working, fun draining ↦ ?_, fun gone ↦ ?_⟩
    · exact (Queue.closed_take? taken).trans (h.closed_of_draining draining)
    · rw [show l.working = false from not_working_of_gone gone] at working
      cases working
  | finish step =>
    obtain ⟨-, rfl⟩ := finish?_eq_some.mp step
    exact ⟨h.queue, fun hand ↦ (nomatch hand), h.closed_of_draining, h.left_nothing⟩
  | crash step =>
    obtain ⟨a, -, -, rfl⟩ := crash?_eq_some.mp step
    exact ⟨Queue.sound_of_closed (Nat.zero_le _) rfl, fun hand ↦ (nomatch hand),
      fun draining ↦ (nomatch draining), fun _ ↦ ⟨rfl, rfl⟩⟩
  | drain step =>
    obtain ⟨-, idle, -, rfl⟩ := drain?_eq_some.mp step
    exact ⟨Queue.sound_of_closed h.queue.le_depth rfl, fun hand ↦ by simp [idle] at hand,
      fun _ ↦ rfl, fun gone ↦ nomatch gone⟩
  | retire step =>
    obtain ⟨-, closed, idle, nothing, rfl⟩ := end?_eq_some.mp step
    exact ⟨h.queue, fun hand ↦ by simp [idle] at hand, fun draining ↦ (nomatch draining),
      fun _ ↦ ⟨closed, nothing⟩⟩
  | release =>
    exact ⟨Queue.sound_of_closed h.queue.le_depth rfl, h.working_of_inHand, fun _ ↦ rfl,
      fun gone ↦ ⟨rfl, (h.left_nothing gone).2⟩⟩
  | withdraw givesUp =>
    exact ⟨h.queue.withdraw givesUp, h.working_of_inHand, h.closed_of_draining, h.left_nothing⟩

/-- A worker that is gone stays gone. -/
theorem gone_move {l l' : Lane α} (gone : l.gone = true) (move : Move l l') : l'.gone = true := by
  have idle := not_working_of_gone gone
  cases move with
  | submit step =>
    obtain ⟨q, -, rfl⟩ := submit?_eq_some.mp step
    exact gone
  | take step =>
    obtain ⟨working, -⟩ := take?_eq_some.mp step
    rw [idle] at working
    cases working
  | finish step =>
    obtain ⟨-, rfl⟩ := finish?_eq_some.mp step
    exact gone
  | crash step =>
    obtain ⟨a, -, -, rfl⟩ := crash?_eq_some.mp step
    rfl
  | drain step =>
    obtain ⟨serving, -⟩ := drain?_eq_some.mp step
    rw [gone_of_serving serving] at gone
    cases gone
  | retire step =>
    obtain ⟨-, -, -, -, rfl⟩ := end?_eq_some.mp step
    rfl
  | release => exact gone
  | withdraw givesUp => exact gone

/-! ## The jobs of a lane -/

/-- All jobs in a lane, in the order in which they are served. -/
def jobs (l : Lane α) : List α := l.inHand.toList ++ l.queue.contents

theorem jobs_submit? {a : α} {l l' : Lane α} (step : l.submit? a = some l') :
    l'.jobs = l.jobs ++ [a] := by
  obtain ⟨q, offered, rfl⟩ := submit?_eq_some.mp step
  rw [jobs, jobs, Queue.contents_offer? offered, List.append_assoc]

theorem jobs_take? {a : α} {l l' : Lane α} (step : l.take? = some (a, l')) :
    l'.jobs = l.jobs := by
  obtain ⟨-, idle, q, taken, rfl⟩ := take?_eq_some.mp step
  rw [jobs, jobs, idle, Queue.contents_take? taken]
  rfl

theorem jobs_finish? {a : α} {l l' : Lane α} (step : l.finish? = some (a, l')) :
    l.jobs = a :: l'.jobs := by
  obtain ⟨hand, rfl⟩ := finish?_eq_some.mp step
  rw [jobs, jobs, hand]
  rfl

theorem jobs_crash? {lost : List α} {l l' : Lane α} (step : l.crash? = some (lost, l')) :
    l.jobs = lost ∧ l'.jobs = [] := by
  obtain ⟨a, hand, rfl, rfl⟩ := crash?_eq_some.mp step
  exact ⟨by rw [jobs, hand]; rfl, rfl⟩

theorem jobs_drain? {refused : List α} {l l' : Lane α} (step : l.drain? = some (refused, l')) :
    l.jobs = l'.jobs ++ refused := by
  obtain ⟨-, idle, rfl, rfl⟩ := drain?_eq_some.mp step
  simp [jobs, idle, Queue.contents, Queue.close]

theorem jobs_end? {l l' : Lane α} (step : l.end? = some l') : l'.jobs = l.jobs := by
  obtain ⟨-, -, -, -, rfl⟩ := end?_eq_some.mp step
  rfl

theorem jobs_release_sublist (l : Lane α) : l.release.jobs.Sublist l.jobs := by
  simp [jobs, release, Queue.contents, Queue.close]

theorem jobs_withdraw_sublist (givesUp : α → Bool) (l : Lane α) :
    (l.withdraw givesUp).jobs.Sublist l.jobs := by
  refine List.Sublist.append (List.Sublist.refl _) (List.Sublist.append (List.Sublist.refl _) ?_)
  exact List.filter_sublist

/-- Those who do not give up keep their jobs. -/
theorem filter_jobs_withdraw {givesUp keeps : α → Bool}
    (h : ∀ a, keeps a = true → givesUp a = false) (l : Lane α) :
    (l.withdraw givesUp).jobs.filter keeps = l.jobs.filter keeps := by
  simp only [jobs, withdraw, Queue.withdraw, Queue.contents, List.filter_append,
    List.filter_filter]
  congr 2
  refine List.filter_congr fun a _ ↦ ?_
  cases hk : keeps a with
  | false => rfl
  | true => simp [h a hk]

end Lane

/-! ## Pools -/

namespace Pool

/-- One change of a pool. -/
inductive Move : Pool α → Pool α → Prop where
  | submit (a : α) (p : Pool α) : Move p (p.submit a).1
  | take {i : Nat} {a : α} {p p' : Pool α} : p.take? i = some (a, p') → Move p p'
  | finish {i : Nat} {a : α} {p p' : Pool α} : p.finish? i = some (a, p') → Move p p'
  | crash {i : Nat} {lost : List α} {p p' : Pool α} : p.crash? i = some (lost, p') → Move p p'
  | drain {i : Nat} {refused : List α} {p p' : Pool α} :
      p.drain? i = some (refused, p') → Move p p'
  | retire {i : Nat} {p p' : Pool α} : p.end? i = some p' → Move p p'
  | close (p : Pool α) : Move p { p with closing := true }
  | release (p : Pool α) : Move p p.release
  | withdraw (givesUp : α → Bool) (p : Pool α) : Move p (p.withdraw givesUp)

@[simp] theorem setLane_lanes (i : Nat) (l : Lane α) (p : Pool α) :
    (p.setLane i l).lanes = p.lanes.set i l := rfl

theorem take?_eq_some {i : Nat} {a : α} {p p' : Pool α} :
    p.take? i = some (a, p') ↔ ∃ l l', p.lanes[i]? = some l ∧
      (p.closing = true → l.worker ≠ .serving) ∧ l.take? = some (a, l') ∧ p' = p.setLane i l' := by
  simp only [take?, Option.bind_eq_bind, Option.bind_eq_some_iff, Option.pure_def]
  constructor
  · rintro ⟨l, hl, step⟩
    split at step
    · cases step
    · rename_i may
      obtain ⟨⟨b, l'⟩, taken, done⟩ := Option.bind_eq_some_iff.mp step
      cases done
      exact ⟨l, l', hl, by simpa using may, taken, rfl⟩
  · rintro ⟨l, l', hl, may, taken, rfl⟩
    refine ⟨l, hl, ?_⟩
    rw [if_neg (by simpa using may), taken]
    rfl

theorem finish?_eq_some {i : Nat} {a : α} {p p' : Pool α} :
    p.finish? i = some (a, p') ↔ ∃ l l', p.lanes[i]? = some l ∧ l.finish? = some (a, l') ∧
      p' = p.setLane i l' := by
  simp [finish?, Option.bind_eq_some_iff, eq_comm (a := p')]

theorem crash?_eq_some {i : Nat} {lost : List α} {p p' : Pool α} :
    p.crash? i = some (lost, p') ↔ ∃ l l', p.lanes[i]? = some l ∧ l.crash? = some (lost, l') ∧
      p' = p.setLane i l' := by
  simp [crash?, Option.bind_eq_some_iff, eq_comm (a := p')]

theorem drain?_eq_some {i : Nat} {refused : List α} {p p' : Pool α} :
    p.drain? i = some (refused, p') ↔ ∃ l l', p.lanes[i]? = some l ∧ p.closing = true ∧
      l.drain? = some (refused, l') ∧ p' = p.setLane i l' := by
  simp only [drain?, Option.bind_eq_bind, Option.bind_eq_some_iff, Option.pure_def]
  constructor
  · rintro ⟨l, hl, step⟩
    split at step
    · rename_i closing
      obtain ⟨⟨b, l'⟩, drained, done⟩ := Option.bind_eq_some_iff.mp step
      cases done
      exact ⟨l, l', hl, closing, drained, rfl⟩
    · cases step
  · rintro ⟨l, l', hl, closing, drained, rfl⟩
    refine ⟨l, hl, ?_⟩
    rw [if_pos closing, drained]
    rfl

theorem end?_eq_some {i : Nat} {p p' : Pool α} :
    p.end? i = some p' ↔ ∃ l l', p.lanes[i]? = some l ∧ l.end? = some l' ∧
      p' = p.setLane i l' := by
  simp [end?, Option.bind_eq_some_iff, eq_comm (a := p')]

/-- The lane whose turn it is. -/
def turn (p : Pool α) : Nat := p.pick.1

@[simp] theorem pick_lanes (p : Pool α) : p.pick.2.lanes = p.lanes := rfl

/-- A submission passes the turn on, and either the lane takes the job or nothing else happens. -/
theorem submit_cases (a : α) (p : Pool α) :
    (∃ l l', p.lanes[p.turn]? = some l ∧ l.submit? a = some l' ∧
        p.submit a = (p.pick.2.setLane p.turn l', true)) ∨
      (∀ l, p.lanes[p.turn]? = some l → l.submit? a = none) ∧ p.submit a = (p.pick.2, false) := by
  have whose : p.pick = (p.turn, p.pick.2) := rfl
  rw [submit, whose]
  simp only [pick_lanes]
  cases hl : p.lanes[p.turn]? with
  | none => exact .inr ⟨by simp, rfl⟩
  | some l =>
    cases hs : l.submit? a with
    | none => exact .inr ⟨by simpa using hs, by simp only [hs]⟩
    | some l' => exact .inl ⟨l, l', rfl, hs, by simp only [hs]⟩

/-! ### Lane by lane -/

/-- A move of a pool keeps the destination and the number of lanes, and moves each lane at most
once. -/
structure Moved (p p' : Pool α) : Prop where
  destination : p'.destination = p.destination
  length : p'.lanes.length = p.lanes.length
  lane : ∀ {i : Nat} {l' : Lane α}, p'.lanes[i]? = some l' →
    ∃ l, p.lanes[i]? = some l ∧ (l' = l ∨ l.Move l')

theorem moved_setLane {i : Nat} {l l' : Lane α} {p : Pool α} (hl : p.lanes[i]? = some l)
    (move : l.Move l') : Moved p (p.setLane i l') := by
  refine ⟨rfl, List.length_set, fun {j m} hm ↦ ?_⟩
  rw [setLane_lanes, List.getElem?_set] at hm
  split at hm
  · rename_i same
    subst same
    split at hm
    · cases hm
      exact ⟨l, hl, .inr move⟩
    · cases hm
  · exact ⟨m, hm, .inl rfl⟩

theorem moved_map {f : Lane α → Lane α} {p p' : Pool α} (hd : p'.destination = p.destination)
    (hp : p'.lanes = p.lanes.map f) (move : ∀ l : Lane α, l.Move (f l)) : Moved p p' := by
  refine ⟨hd, by rw [hp, List.length_map], fun {i l'} hl' ↦ ?_⟩
  rw [hp, List.getElem?_map, Option.map_eq_some_iff] at hl'
  obtain ⟨l, hl, rfl⟩ := hl'
  exact ⟨l, hl, .inr (move l)⟩

theorem Move.moved {p p' : Pool α} (move : Move p p') : Moved p p' := by
  cases move with
  | submit a =>
    obtain ⟨l, l', hl, step, done⟩ | ⟨-, done⟩ := submit_cases a p
    · rw [done]
      exact ⟨rfl, List.length_set, (moved_setLane hl (.submit step)).lane⟩
    · rw [done]
      exact ⟨rfl, rfl, fun {i l} hl ↦ ⟨l, hl, .inl rfl⟩⟩
  | take step =>
    obtain ⟨l, l', hl, -, taken, rfl⟩ := take?_eq_some.mp step
    exact moved_setLane hl (.take taken)
  | finish step =>
    obtain ⟨l, l', hl, finished, rfl⟩ := finish?_eq_some.mp step
    exact moved_setLane hl (.finish finished)
  | crash step =>
    obtain ⟨l, l', hl, crashed, rfl⟩ := crash?_eq_some.mp step
    exact moved_setLane hl (.crash crashed)
  | drain step =>
    obtain ⟨l, l', hl, -, drained, rfl⟩ := drain?_eq_some.mp step
    exact moved_setLane hl (.drain drained)
  | retire step =>
    obtain ⟨l, l', hl, ended, rfl⟩ := end?_eq_some.mp step
    exact moved_setLane hl (.retire ended)
  | close => exact ⟨rfl, rfl, fun {i l} hl ↦ ⟨l, hl, .inl rfl⟩⟩
  | release => exact moved_map rfl rfl .release
  | withdraw givesUp => exact moved_map rfl rfl (.withdraw givesUp)

/-- All lanes of a pool are sound. -/
def Sound (p : Pool α) : Prop := ∀ {i : Nat} {l : Lane α}, p.lanes[i]? = some l → l.Sound

theorem sound_ofSettings (s : EngineSettings) (d : Destination) :
    (ofSettings s d : Pool α).Sound := by
  intro i l hl
  rw [ofSettings, List.getElem?_replicate] at hl
  split at hl
  · cases hl
    exact Lane.sound_idle _
  · cases hl

theorem Sound.move {p p' : Pool α} (h : p.Sound) (move : Move p p') : p'.Sound := by
  intro i l' hl'
  obtain ⟨l, hl, rfl | moved⟩ := move.moved.lane hl'
  · exact h hl
  · exact (h hl).move moved

/-! ### The jobs of a pool -/

/-- All jobs of a pool. -/
def jobs (p : Pool α) : List α := p.lanes.flatMap Lane.jobs

theorem mem_jobs {i : Nat} {a : α} {l : Lane α} {p : Pool α} (hl : p.lanes[i]? = some l)
    (ha : a ∈ l.jobs) : a ∈ p.jobs :=
  List.mem_flatMap.mpr ⟨l, List.mem_of_getElem? hl, ha⟩

theorem lane_of_mem_jobs {a : α} {p : Pool α} (ha : a ∈ p.jobs) :
    ∃ (i : Nat) (l : Lane α), p.lanes[i]? = some l ∧ a ∈ l.jobs := by
  obtain ⟨l, hl, ha⟩ := List.mem_flatMap.mp ha
  obtain ⟨i, hi⟩ := List.mem_iff_getElem?.mp hl
  exact ⟨i, l, hi, ha⟩

theorem mem_jobs_of_take? {i : Nat} {a : α} {p p' : Pool α} (step : p.take? i = some (a, p')) :
    a ∈ p.jobs := by
  obtain ⟨l, l', hl, -, taken, -⟩ := take?_eq_some.mp step
  obtain ⟨-, -, q, taken, -⟩ := Lane.take?_eq_some.mp taken
  refine mem_jobs hl (List.mem_append_right _ ?_)
  rw [Queue.contents_take? taken]
  exact List.mem_cons_self

/-- The jobs of one lane, and those of all others, which replacing the lane does not touch. -/
theorem jobs_setLane {i : Nat} {l : Lane α} {p : Pool α} (hl : p.lanes[i]? = some l) :
    ∃ others : List α, p.jobs.Perm (l.jobs ++ others) ∧
      ∀ l', (p.setLane i l').jobs.Perm (l'.jobs ++ others) := by
  obtain ⟨hi, rfl⟩ := List.getElem?_eq_some_iff.mp hl
  -- the lane in question, between those before it and those after it
  have aside (l' : Lane α) : (p.setLane i l').jobs =
      (p.lanes.take i).flatMap Lane.jobs ++
        (l'.jobs ++ (p.lanes.drop (i + 1)).flatMap Lane.jobs) := by
    rw [jobs, setLane_lanes, List.set_eq_take_append_cons_drop, if_pos hi, List.flatMap_append,
      List.flatMap_cons]
  refine ⟨(p.lanes.take i).flatMap Lane.jobs ++ (p.lanes.drop (i + 1)).flatMap Lane.jobs, ?_,
    fun l' ↦ ?_⟩
  · have same : p.jobs = (p.setLane i p.lanes[i]).jobs := by
      rw [jobs, jobs, setLane_lanes, List.set_getElem_self]
    rw [same, aside]
    exact List.perm_append_comm_assoc _ _ _
  · rw [aside]
    exact List.perm_append_comm_assoc _ _ _

theorem jobs_submit_true {a : α} {p : Pool α} (taken : (p.submit a).2 = true) :
    (p.submit a).1.jobs.Perm (a :: p.jobs) := by
  obtain ⟨l, l', hl, step, done⟩ | ⟨-, done⟩ := submit_cases a p
  · obtain ⟨others, before, after⟩ := jobs_setLane hl
    rw [done]
    calc (p.setLane p.turn l').jobs
        ~ l'.jobs ++ others := after l'
      _ = (l.jobs ++ [a]) ++ others := by rw [Lane.jobs_submit? step]
      _ ~ a :: (l.jobs ++ others) := by
        rw [List.append_assoc, List.singleton_append]
        exact List.perm_middle
      _ ~ a :: p.jobs := before.symm.cons a
  · rw [done] at taken
    cases taken

theorem jobs_submit_false {a : α} {p : Pool α} (refused : (p.submit a).2 = false) :
    (p.submit a).1.jobs = p.jobs := by
  obtain ⟨l, l', -, -, done⟩ | ⟨-, done⟩ := submit_cases a p
  · rw [done] at refused
    cases refused
  · rw [done]
    rfl

theorem jobs_take? {i : Nat} {a : α} {p p' : Pool α} (step : p.take? i = some (a, p')) :
    p'.jobs.Perm p.jobs := by
  obtain ⟨l, l', hl, -, taken, rfl⟩ := take?_eq_some.mp step
  obtain ⟨others, before, after⟩ := jobs_setLane hl
  rw [← Lane.jobs_take? taken] at before
  exact (after l').trans before.symm

theorem jobs_finish? {i : Nat} {a : α} {p p' : Pool α} (step : p.finish? i = some (a, p')) :
    p.jobs.Perm (a :: p'.jobs) := by
  obtain ⟨l, l', hl, finished, rfl⟩ := finish?_eq_some.mp step
  obtain ⟨others, before, after⟩ := jobs_setLane hl
  rw [Lane.jobs_finish? finished] at before
  exact before.trans ((after l').symm.cons a)

theorem jobs_crash? {i : Nat} {lost : List α} {p p' : Pool α}
    (step : p.crash? i = some (lost, p')) : p.jobs.Perm (lost ++ p'.jobs) := by
  obtain ⟨l, l', hl, crashed, rfl⟩ := crash?_eq_some.mp step
  obtain ⟨others, before, after⟩ := jobs_setLane hl
  obtain ⟨all, nothing⟩ := Lane.jobs_crash? crashed
  rw [all] at before
  refine before.trans (List.Perm.append_left lost ?_)
  simpa [nothing] using (after l').symm

theorem jobs_drain? {i : Nat} {refused : List α} {p p' : Pool α}
    (step : p.drain? i = some (refused, p')) : p.jobs.Perm (refused ++ p'.jobs) := by
  obtain ⟨l, l', hl, -, drained, rfl⟩ := drain?_eq_some.mp step
  obtain ⟨others, before, after⟩ := jobs_setLane hl
  rw [Lane.jobs_drain? drained] at before
  calc p.jobs
      ~ l'.jobs ++ refused ++ others := before
    _ ~ refused ++ (l'.jobs ++ others) := by
      rw [List.append_assoc]
      exact List.perm_append_comm_assoc _ _ _
    _ ~ refused ++ (p.setLane i l').jobs := (after l').symm.append_left refused

theorem jobs_end? {i : Nat} {p p' : Pool α} (step : p.end? i = some p') : p'.jobs.Perm p.jobs := by
  obtain ⟨l, l', hl, ended, rfl⟩ := end?_eq_some.mp step
  obtain ⟨others, before, after⟩ := jobs_setLane hl
  rw [← Lane.jobs_end? ended] at before
  exact (after l').trans before.symm

private theorem flatMap_sublist {f g : Lane α → List α} (h : ∀ l, (f l).Sublist (g l)) :
    ∀ lanes : List (Lane α), (lanes.flatMap f).Sublist (lanes.flatMap g) := by
  intro lanes
  induction lanes with
  | nil => exact .slnil
  | cons l lanes ih =>
    rw [List.flatMap_cons, List.flatMap_cons]
    exact (h l).append ih

theorem jobs_release_sublist (p : Pool α) : p.release.jobs.Sublist p.jobs := by
  rw [jobs, release, List.flatMap_map]
  exact flatMap_sublist Lane.jobs_release_sublist p.lanes

theorem jobs_withdraw_sublist (givesUp : α → Bool) (p : Pool α) :
    (p.withdraw givesUp).jobs.Sublist p.jobs := by
  rw [jobs, withdraw, List.flatMap_map]
  exact flatMap_sublist (Lane.jobs_withdraw_sublist givesUp) p.lanes

/-- Those who do not give up keep their jobs. -/
theorem filter_jobs_withdraw {givesUp keeps : α → Bool}
    (h : ∀ a, keeps a = true → givesUp a = false) (p : Pool α) :
    (p.withdraw givesUp).jobs.filter keeps = p.jobs.filter keeps := by
  rw [jobs, jobs, withdraw, List.flatMap_map, List.filter_flatMap, List.filter_flatMap]
  exact List.flatMap_congr fun l _ ↦ Lane.filter_jobs_withdraw h l

/-- Only those who wait for a place are asked whether they give up. -/
theorem withdraw_congr {givesUp leaves : α → Bool} {p : Pool α}
    (same : ∀ l ∈ p.lanes, ∀ a ∈ l.queue.waiting, givesUp a = leaves a) :
    p.withdraw givesUp = p.withdraw leaves := by
  have lanes : p.lanes.map (Lane.withdraw givesUp) = p.lanes.map (Lane.withdraw leaves) := by
    refine List.map_congr_left fun l hl ↦ ?_
    rw [Lane.withdraw, Queue.withdraw, List.filter_congr fun a ha ↦ by rw [same l hl a ha]]
    rfl
  rw [withdraw, lanes]
  rfl

theorem withdraw_nobody (p : Pool α) : p.withdraw (fun _ ↦ false) = p := by
  have same : Lane.withdraw (fun _ ↦ false) = (id : Lane α → Lane α) := by
    funext l
    simp [Lane.withdraw, Queue.withdraw]
  rw [withdraw, same, List.map_id]

theorem withdraw_withdraw (givesUp leaves : α → Bool) (p : Pool α) :
    (p.withdraw givesUp).withdraw leaves = p.withdraw fun a ↦ givesUp a || leaves a := by
  simp [withdraw, Lane.withdraw, Queue.withdraw, List.filter_filter, Function.comp_def,
    Bool.and_comm]

theorem jobs_ofSettings (s : EngineSettings) (d : Destination) :
    (ofSettings s d : Pool α).jobs = [] := by
  simp [jobs, ofSettings, Lane.jobs, Lane.idle, Queue.empty, Queue.contents]

end Pool

end MessageBridge
