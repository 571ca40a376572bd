import MessageBridge.Proofs.Execution
import MessageBridge.Proofs.Lane.Moves

/-!
# Lanes and their submitters

A pool of lanes on its own, with whoever may submit jobs to it. Any number of submitters come and
go; each submission has a number, and its submitter waits for one answer unless it leaves before.
All that happens to the lanes are the operations of pools, in any order in which they can happen.
The pools of a running route do nothing else (`Running.served_of_runs`).

The history of a lane is read off an execution: the jobs that its queue accepted, the publishes
that its worker began, and those that the bus answered.
-/

namespace MessageBridge

universe u

/-! ## The machine -/

/-- A job with the number of its submission. -/
structure Submission (α : Type u) where
  /-- The number. -/
  number : Nat
  /-- The job. -/
  job : α

/-- A pool of lanes with the submitters that wait for answers. -/
structure Service (α : Type u) where
  /-- The lanes. -/
  pool : Pool (Submission α)
  /-- The numbers of the submissions whose submitters wait for an answer. -/
  waiters : List Nat
  /-- The number of the next submission. -/
  next : Nat

/-- What can happen to a pool of lanes. -/
inductive ServiceAction (α : Type u) where
  /-- Somebody submits a job. -/
  | submit (job : α)
  /-- A submitter leaves. -/
  | abandon (number : Nat)
  /-- The lanes are told to close. -/
  | close
  /-- Nobody can submit any more. -/
  | release
  /-- A worker takes its next job and begins to publish it. -/
  | take (lane : Nat)
  /-- The bus answers the publish of a worker. -/
  | reply (lane : Nat) (answer : Except BusError Unit)
  /-- The publish of a worker crashes. -/
  | crash (lane : Nat)
  /-- A worker closes its queue. -/
  | drain (lane : Nat)
  /-- A worker ends. -/
  | retire (lane : Nat)

/-- What a pool of lanes tells the outside. -/
inductive ServiceOutput (α : Type u) where
  /-- A worker asks the bus to publish a job. -/
  | publish (lane : Nat) (submission : Submission α)
  /-- A submitter is answered. -/
  | answer (number : Nat) (answer : JobAnswer)

namespace Service

variable {α : Type u}

/-- Fresh lanes in front of a destination. -/
def ofSettings (s : EngineSettings) (d : Destination) : Service α := ⟨.ofSettings s d, [], 0⟩

/-- Some submissions are answered, as far as their submitters still wait. -/
def settle (pool : Pool (Submission α)) (numbers : List Nat) (a : JobAnswer) (S : Service α) :
    Service α × List (ServiceOutput α) :=
  ({ S with pool, waiters := S.waiters.filter fun n ↦ !numbers.contains n },
    (numbers.filter fun n ↦ S.waiters.contains n).map (.answer · a))

/-- The pool after an action and what it tells the outside; `none` if the action cannot happen. A
pool that nobody can submit to has no submitters that wait for a place. -/
def step? (S : Service α) : ServiceAction α → Option (Service α × List (ServiceOutput α))
  | .submit job =>
    let (pool, taken) := S.pool.submit ⟨S.next, job⟩
    if taken then some (⟨pool, S.waiters ++ [S.next], S.next + 1⟩, [])
    else some ({ S with pool, next := S.next + 1 }, [.answer S.next .lost])
  | .abandon n =>
    if S.waiters.contains n then
      some ({ S with
        pool := S.pool.withdraw fun x ↦ x.number == n
        waiters := S.waiters.filter fun m ↦ m != n }, [])
    else none
  | .close => some ({ S with pool := { S.pool with closing := true } }, [])
  | .release =>
    if S.pool.lanes.all fun l ↦ l.queue.waiting.isEmpty then
      some ({ S with pool := S.pool.release }, [])
    else none
  | .take i => do
    let (x, pool) ← S.pool.take? i
    return ({ S with pool }, [.publish i x])
  | .reply i answer => do
    let (x, pool) ← S.pool.finish? i
    return S.settle pool [x.number] (Running.jobAnswer answer)
  | .crash i => do
    let (lost, pool) ← S.pool.crash? i
    return S.settle pool (lost.map Submission.number) .lost
  | .drain i => do
    let (refused, pool) ← S.pool.drain? i
    return S.settle pool (refused.map Submission.number) .lost
  | .retire i => do
    let pool ← S.pool.end? i
    return ({ S with pool }, [])

/-! ## Histories -/

/-- One step of a pool of lanes. -/
abbrev Event (α : Type u) := Moment (Service α) (ServiceAction α) (ServiceOutput α)

/-- The publish that the worker of a lane begins in a step. -/
def beginning (i : Nat) (e : Event α) : List (Submission α) :=
  e.outputs.filterMap fun
    | .publish j x => if j = i then some x else none
    | .answer _ _ => none

/-- The jobs that the queue of a lane accepts in a step: what is new at its end, when those in front
have been taken whose publish begins. -/
def entering (i : Nat) (e : Event α) : List (Submission α) :=
  match e.before.pool.lanes[i]?, e.after.pool.lanes[i]? with
  | some l, some l' =>
    l'.queue.accepted.drop (l.queue.accepted.length - (beginning i e).length)
  | _, _ => []

/-- The publish of a lane that the bus answers in a step. -/
def finishing (i : Nat) (e : Event α) : List (Submission α × Except BusError Unit) :=
  match e.action with
  | .reply j answer =>
    if j = i then
      (((e.before.pool.lanes[i]?).bind Lane.inHand).map fun x ↦ (x, answer)).toList
    else []
  | _ => []

/-- The submission of a step, with the lane whose turn it is. -/
def issuing (e : Event α) : List (Nat × Submission α) :=
  match e.action with
  | .submit job => [(e.before.pool.turn, ⟨e.before.next, job⟩)]
  | _ => []

/-- The answers that a submitter gets in a step. -/
def answering (n : Nat) (e : Event α) : List JobAnswer :=
  e.outputs.filterMap fun
    | .answer m a => if m = n then some a else none
    | .publish _ _ => none

/-- The jobs that the queue of a lane has accepted, in order. -/
def entered (i : Nat) (past : List (Event α)) : List (Submission α) := past.flatMap (entering i)

/-- The publishes that the worker of a lane has begun, in order. -/
def begun (i : Nat) (past : List (Event α)) : List (Submission α) := past.flatMap (beginning i)

/-- The publishes of a lane that the bus has answered, in order. -/
def finished (i : Nat) (past : List (Event α)) : List (Submission α × Except BusError Unit) :=
  past.flatMap (finishing i)

/-- All submissions with their lanes, in order. -/
def issued (past : List (Event α)) : List (Nat × Submission α) := past.flatMap issuing

/-- The answers that a submitter has got. -/
def answers (n : Nat) (past : List (Event α)) : List JobAnswer := past.flatMap (answering n)

/-- Whether a submitter has left. -/
def Abandoned (n : Nat) (past : List (Event α)) : Prop := ∃ e ∈ past, e.action = .abandon n

/-- Whether nobody can submit any more. -/
def Released (past : List (Event α)) : Prop := ∃ e ∈ past, e.action = .release

/-! ## Steps of a lane -/

/-- What a step means for one lane, with the jobs that its queue accepts, that its worker begins to
publish and that the bus answers. -/
inductive Seen (S : Service α) (i : Nat) : ServiceAction α → Lane (Submission α) →
    Lane (Submission α) → Prop where
  | same {a : ServiceAction α} {l : Lane (Submission α)} (took : a ≠ .take i)
      (silent : ∀ x, a ≠ .reply i x) : Seen S i a l l
  | submit {job : α} {l l' : Lane (Submission α)} (turn : S.pool.turn = i)
      (step : l.submit? ⟨S.next, job⟩ = some l') : Seen S i (.submit job) l l'
  | abandon {n : Nat} {l : Lane (Submission α)} :
      Seen S i (.abandon n) l (l.withdraw fun x ↦ x.number == n)
  | release {l : Lane (Submission α)} (nobody : l.queue.waiting = []) :
      Seen S i .release l l.release
  | take {x : Submission α} {l l' : Lane (Submission α)}
      (may : S.pool.closing = true → l.worker ≠ .serving) (step : l.take? = some (x, l')) :
      Seen S i (.take i) l l'
  | finish {x : Submission α} {answer : Except BusError Unit} {l l' : Lane (Submission α)}
      (step : l.finish? = some (x, l')) : Seen S i (.reply i answer) l l'
  | crash {lost : List (Submission α)} {l l' : Lane (Submission α)}
      (step : l.crash? = some (lost, l')) : Seen S i (.crash i) l l'
  | drain {refused : List (Submission α)} {l l' : Lane (Submission α)}
      (closing : S.pool.closing = true) (step : l.drain? = some (refused, l')) :
      Seen S i (.drain i) l l'
  | retire {l l' : Lane (Submission α)} (step : l.end? = some l') : Seen S i (.retire i) l l'

theorem Seen.of_ne {S : Service α} {i j : Nat} {l : Lane (Submission α)} (other : j ≠ i) :
    Seen S i (.take j) l l ∧ (∀ x, Seen S i (.reply j x) l l) ∧ Seen S i (.crash j) l l ∧
      Seen S i (.drain j) l l ∧ Seen S i (.retire j) l l := by
  refine ⟨.same ?_ (by simp), fun x ↦ .same (by simp) ?_, .same (by simp)
    (by simp), .same (by simp) (by simp), .same (by simp)
    (by simp)⟩
  · rintro ⟨⟩
    exact other rfl
  · rintro y ⟨⟩
    exact other rfl

theorem getElem?_setLane {p : Pool (Submission α)} {i j : Nat} {l l' : Lane (Submission α)}
    (hl : p.lanes[j]? = some l) :
    (p.setLane j l').lanes[i]? = if j = i then some l' else p.lanes[i]? := by
  rw [Pool.setLane_lanes, List.getElem?_set, if_pos (List.getElem?_eq_some_iff.mp hl).1]

/-- A lane that a step replaces sees what the step did to it, and every other lane sees nothing. -/
private theorem seen_setLane {S : Service α} {a : ServiceAction α} {i j : Nat}
    {l l' m : Lane (Submission α)} (hl : S.pool.lanes[j]? = some l)
    (here : j = i → Seen S i a l l') (elsewhere : ∀ m, j ≠ i → Seen S i a m m)
    (hm : (S.pool.setLane j l').lanes[i]? = some m) :
    ∃ m₀, S.pool.lanes[i]? = some m₀ ∧ Seen S i a m₀ m := by
  rw [getElem?_setLane hl] at hm
  by_cases hj : j = i
  · rw [if_pos hj] at hm
    cases hm
    exact ⟨l, hj ▸ hl, here hj⟩
  · rw [if_neg hj] at hm
    exact ⟨m, hm, elsewhere m hj⟩

private theorem seen_map {S : Service α} {a : ServiceAction α} {i : Nat} {m : Lane (Submission α)}
    {f : Lane (Submission α) → Lane (Submission α)}
    (each : ∀ l, S.pool.lanes[i]? = some l → Seen S i a l (f l))
    (hm : (S.pool.lanes.map f)[i]? = some m) :
    ∃ m₀, S.pool.lanes[i]? = some m₀ ∧ Seen S i a m₀ m := by
  rw [List.getElem?_map, Option.map_eq_some_iff] at hm
  obtain ⟨l, hl, rfl⟩ := hm
  exact ⟨l, hl, each l hl⟩

/-- **Every lane sees what a step means for it.** -/
theorem seen_of_step {S S' : Service α} {a : ServiceAction α} {outputs : List (ServiceOutput α)}
    (step : S.step? a = some (S', outputs)) {i : Nat} {l' : Lane (Submission α)}
    (hl' : S'.pool.lanes[i]? = some l') :
    ∃ l, S.pool.lanes[i]? = some l ∧ Seen S i a l l' := by
  cases a with
  | submit job =>
    have pool : S'.pool = (S.pool.submit ⟨S.next, job⟩).1 := by
      simp only [step?] at step
      split at step <;> cases step <;> rfl
    rw [pool] at hl'
    -- the turn passes to the next lane in any case, but no lane can tell
    obtain ⟨l, l₁, hl, submitted, done⟩ | ⟨-, done⟩ := Pool.submit_cases ⟨S.next, job⟩ S.pool
    · rw [done] at hl'
      have turn : S.pool.pick.2.lanes[S.pool.turn]? = some l := hl
      rw [getElem?_setLane turn] at hl'
      by_cases here : S.pool.turn = i
      · rw [if_pos here] at hl'
        cases hl'
        exact ⟨l, here ▸ hl, .submit here submitted⟩
      · rw [if_neg here] at hl'
        exact ⟨l', hl', .same (by simp) (by simp)⟩
    · rw [done] at hl'
      exact ⟨l', hl', .same (by simp) (by simp)⟩
  | abandon n =>
    simp only [step?] at step
    split at step
    · cases step
      exact seen_map (fun l _ ↦ .abandon) hl'
    · cases step
  | close =>
    cases step
    exact ⟨l', hl', .same (by simp) (by simp)⟩
  | release =>
    simp only [step?] at step
    split at step
    · rename_i nobody
      cases step
      refine seen_map (fun l hl ↦ .release ?_) hl'
      rw [List.all_eq_true] at nobody
      exact List.isEmpty_iff.mp (nobody l (List.mem_of_getElem? hl))
    · cases step
  | take j =>
    obtain ⟨⟨x, p⟩, taken, step⟩ := Option.bind_eq_some_iff.mp step
    cases step
    obtain ⟨l, l₁, hl, may, here, rfl⟩ := Pool.take?_eq_some.mp taken
    exact seen_setLane hl (fun same ↦ same ▸ .take may here) (fun m hj ↦ (Seen.of_ne hj).1) hl'
  | reply j answer =>
    obtain ⟨⟨x, p⟩, finished, step⟩ := Option.bind_eq_some_iff.mp step
    cases step
    obtain ⟨l, l₁, hl, here, rfl⟩ := Pool.finish?_eq_some.mp finished
    exact seen_setLane hl (fun same ↦ same ▸ .finish here)
      (fun m hj ↦ (Seen.of_ne hj).2.1 answer) hl'
  | crash j =>
    obtain ⟨⟨lost, p⟩, crashed, step⟩ := Option.bind_eq_some_iff.mp step
    cases step
    obtain ⟨l, l₁, hl, here, rfl⟩ := Pool.crash?_eq_some.mp crashed
    exact seen_setLane hl (fun same ↦ same ▸ .crash here)
      (fun m hj ↦ (Seen.of_ne hj).2.2.1) hl'
  | drain j =>
    obtain ⟨⟨refused, p⟩, drained, step⟩ := Option.bind_eq_some_iff.mp step
    cases step
    obtain ⟨l, l₁, hl, closing, here, rfl⟩ := Pool.drain?_eq_some.mp drained
    exact seen_setLane hl (fun same ↦ same ▸ .drain closing here)
      (fun m hj ↦ (Seen.of_ne hj).2.2.2.1) hl'
  | retire j =>
    obtain ⟨p, ended, step⟩ := Option.bind_eq_some_iff.mp step
    cases step
    obtain ⟨l, l₁, hl, here, rfl⟩ := Pool.end?_eq_some.mp ended
    exact seen_setLane hl (fun same ↦ same ▸ .retire here)
      (fun m hj ↦ (Seen.of_ne hj).2.2.2.2) hl'

end Service

end MessageBridge
