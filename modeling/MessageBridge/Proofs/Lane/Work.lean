import MessageBridge.Proofs.Lane.Fate

/-!
# What a worker does

A worker takes a job, ends its publish or crashes over it, closes its queue or returns. All of these
actions have one form: they replace the lane of the worker, perhaps begin a publish, and settle
some of the jobs that were in the lane, all with the same answer. What comes of an action depends on
the lane alone, and on whether the pool closes.
-/

namespace MessageBridge

universe u

variable {α : Type u}

/-- The lane of the worker that acts, or whose publish comes to its end. -/
def ServiceAction.worker? : ServiceAction α → Option Nat
  | .take i | .reply i _ | .crash i | .drain i | .retire i => some i
  | .submit _ | .abandon _ | .close | .release => none

namespace Service

/-- What comes of an action of a worker. -/
structure Work (α : Type u) where
  /-- The lane after it. -/
  lane : Lane (Submission α)
  /-- The publish that begins. -/
  began : List (Submission α)
  /-- The submissions that are answered. -/
  settled : List Nat
  /-- Their answer. -/
  answer : JobAnswer

/-- What comes of an action of a worker depends on its lane and on whether the pool closes. -/
def work? (closing : Bool) (l : Lane (Submission α)) : ServiceAction α → Option (Work α)
  | .take _ =>
    if closing && l.worker == .serving then none
    else l.take?.map fun (x, l') ↦ ⟨l', [x], [], .lost⟩
  | .reply _ answer => l.finish?.map fun (x, l') ↦ ⟨l', [], [x.number], Running.jobAnswer answer⟩
  | .crash _ => l.crash?.map fun (lost, l') ↦ ⟨l', [], lost.map Submission.number, .lost⟩
  | .drain _ =>
    if closing then
      l.drain?.map fun (refused, l') ↦ ⟨l', [], refused.map Submission.number, .lost⟩
    else none
  | .retire _ => l.end?.map fun l' ↦ ⟨l', [], [], .lost⟩
  | .submit _ | .abandon _ | .close | .release => none

/-- A pool after an action of a worker, with what it tells the outside. -/
def afterWork (k : Nat) (w : Work α) (S : Service α) : Service α × List (ServiceOutput α) :=
  let (S', answers) := S.settle (S.pool.setLane k w.lane) w.settled w.answer
  (S', w.began.map (.publish k) ++ answers)

variable {S S' : Service α} {a : ServiceAction α} {outputs : List (ServiceOutput α)}
  {j k n : Nat} {l : Lane (Submission α)} {w : Work α}

theorem worker_cases (step : S.step? a = some (S', outputs)) (acts : a.worker? = some k) :
    ∃ l w, S.pool.lanes[k]? = some l ∧ work? S.pool.closing l a = some w ∧
      S.afterWork k w = (S', outputs) := by
  cases a with
  | submit | abandon | close | release => cases acts
  | take i =>
    cases acts
    obtain ⟨⟨x, p⟩, taken, step⟩ := Option.bind_eq_some_iff.mp step
    cases step
    obtain ⟨l, l', hl, may, here, rfl⟩ := Pool.take?_eq_some.mp taken
    refine ⟨l, ⟨l', [x], [], .lost⟩, hl, ?_, by simp [afterWork, settle]⟩
    simpa [work?, here] using may
  | reply i answer =>
    cases acts
    obtain ⟨⟨x, p⟩, finished, step⟩ := Option.bind_eq_some_iff.mp step
    cases step
    obtain ⟨l, l', hl, here, rfl⟩ := Pool.finish?_eq_some.mp finished
    exact ⟨l, _, hl, by rw [work?, here]; rfl, rfl⟩
  | crash i =>
    cases acts
    obtain ⟨⟨lost, p⟩, crashed, step⟩ := Option.bind_eq_some_iff.mp step
    cases step
    obtain ⟨l, l', hl, here, rfl⟩ := Pool.crash?_eq_some.mp crashed
    exact ⟨l, _, hl, by rw [work?, here]; rfl, rfl⟩
  | drain i =>
    cases acts
    obtain ⟨⟨refused, p⟩, drained, step⟩ := Option.bind_eq_some_iff.mp step
    cases step
    obtain ⟨l, l', hl, closing, here, rfl⟩ := Pool.drain?_eq_some.mp drained
    exact ⟨l, _, hl, by rw [work?, if_pos closing, here]; rfl, rfl⟩
  | retire i =>
    cases acts
    obtain ⟨p, ended, step⟩ := Option.bind_eq_some_iff.mp step
    cases step
    obtain ⟨l, l', hl, here, rfl⟩ := Pool.end?_eq_some.mp ended
    exact ⟨l, ⟨l', [], [], .lost⟩, hl, by rw [work?, here]; rfl, by simp [afterWork, settle]⟩

/-- A worker can do whatever its lane allows. -/
theorem step_of_work (hl : S.pool.lanes[k]? = some l) (acts : a.worker? = some k)
    (work : work? S.pool.closing l a = some w) : S.step? a = some (S.afterWork k w) := by
  cases a with
  | submit | abandon | close | release => cases acts
  | take =>
    cases acts
    simp only [work?] at work
    split at work
    · cases work
    · rename_i may
      obtain ⟨⟨x, l'⟩, taken, rfl⟩ := Option.map_eq_some_iff.mp work
      have step := Pool.take?_eq_some.mpr ⟨l, l', hl, by simpa using may, taken, rfl⟩
      simp [step?, step, afterWork, settle]
  | reply =>
    cases acts
    obtain ⟨⟨x, l'⟩, finished, rfl⟩ := Option.map_eq_some_iff.mp work
    have step := Pool.finish?_eq_some.mpr ⟨l, l', hl, finished, rfl⟩
    simp [step?, step, afterWork]
  | crash =>
    cases acts
    obtain ⟨⟨lost, l'⟩, crashed, rfl⟩ := Option.map_eq_some_iff.mp work
    have step := Pool.crash?_eq_some.mpr ⟨l, l', hl, crashed, rfl⟩
    simp [step?, step, afterWork]
  | drain =>
    cases acts
    simp only [work?] at work
    split at work
    · rename_i closing
      obtain ⟨⟨refused, l'⟩, drained, rfl⟩ := Option.map_eq_some_iff.mp work
      have step := Pool.drain?_eq_some.mpr ⟨l, l', hl, closing, drained, rfl⟩
      simp [step?, step, afterWork]
    · cases work
  | retire =>
    cases acts
    obtain ⟨l', ended, rfl⟩ := Option.map_eq_some_iff.mp work
    have step := Pool.end?_eq_some.mpr ⟨l, l', hl, ended, rfl⟩
    simp [step?, step, afterWork, settle]

theorem exists_of_settled {closing : Bool} (work : work? closing l a = some w)
    (settled : n ∈ w.settled) : ∃ y ∈ l.jobs, y.number = n := by
  cases a with
  | submit | abandon | close | release => cases work
  | take =>
    simp only [work?] at work
    split at work
    · cases work
    · obtain ⟨⟨x, l'⟩, -, rfl⟩ := Option.map_eq_some_iff.mp work
      cases settled
  | reply =>
    obtain ⟨⟨x, l'⟩, finished, rfl⟩ := Option.map_eq_some_iff.mp work
    rw [List.mem_singleton] at settled
    rw [Lane.jobs_finish? finished]
    exact ⟨x, List.mem_cons_self, settled.symm⟩
  | crash =>
    obtain ⟨⟨lost, l'⟩, crashed, rfl⟩ := Option.map_eq_some_iff.mp work
    rw [(Lane.jobs_crash? crashed).1]
    exact List.mem_map.mp settled
  | drain =>
    simp only [work?] at work
    split at work
    · obtain ⟨⟨refused, l'⟩, drained, rfl⟩ := Option.map_eq_some_iff.mp work
      obtain ⟨y, hy, same⟩ := List.mem_map.mp settled
      rw [Lane.jobs_drain? drained]
      exact ⟨y, List.mem_append_right _ hy, same⟩
    · cases work
  | retire =>
    obtain ⟨l', -, rfl⟩ := Option.map_eq_some_iff.mp work
    cases settled

theorem beginning_afterWork :
    beginning j ⟨S, a, (S.afterWork k w).1, (S.afterWork k w).2⟩ =
      if k = j then w.began else [] := by
  simp only [beginning, afterWork, settle, List.filterMap_append]
  by_cases here : k = j <;> simp [here, List.filterMap_map]

theorem answering_afterWork :
    answering n ⟨S, a, (S.afterWork k w).1, (S.afterWork k w).2⟩ =
      if n ∈ S.waiters then List.replicate (w.settled.count n) w.answer else [] := by
  let after := S.settle (S.pool.setLane k w.lane) w.settled w.answer
  have told : answering n ⟨S, a, after.1, after.2⟩ = _ := answering_settle
  rw [← told]
  simp only [answering, afterWork, List.filterMap_append]
  simp [after, List.filterMap_map]

end Service

end MessageBridge
