import MessageBridge.Lane.Queue

/-!
# Lanes

A lane is a bounded queue of jobs with one worker, which serves one job at a time in the order of
acceptance. When the lane is told to close, its worker finishes the job in hand, closes the queue,
serves what the queue accepted and ends. When nobody can submit a job any more, the queue is closed
without the worker, which then serves the rest and ends all the same. A worker may also crash over a
job; then the job and everything in the queue is lost.

Every operation is partial: `none` says that the lane cannot do it in its present state.
-/

namespace MessageBridge

/-- What the worker of a lane is about. -/
inductive WorkerState where
  /-- It takes jobs as they come. -/
  | serving
  /-- It has closed the queue and takes what is left. -/
  | draining
  /-- It has taken everything and returned. -/
  | ended
  /-- It crashed over a job. -/
  | crashed
deriving DecidableEq, Repr

/-- A queue of jobs with one worker. -/
structure Lane (α : Type u) where
  /-- The jobs to come. -/
  queue : Queue α
  /-- The job in hand. -/
  inHand : Option α
  /-- What the worker is about. -/
  worker : WorkerState
deriving Repr

namespace Lane

variable {α : Type u}

/-- A lane without jobs. -/
def idle (depth : Nat) : Lane α := ⟨.empty depth, none, .serving⟩

/-- Whether the worker takes jobs. -/
def working (l : Lane α) : Bool := l.worker == .serving || l.worker == .draining

/-- Whether the worker is gone. -/
def gone (l : Lane α) : Bool := l.worker == .ended || l.worker == .crashed

/-- A job is submitted. -/
def submit? (a : α) (l : Lane α) : Option (Lane α) :=
  (l.queue.offer? a).map fun q ↦ { l with queue := q }

/-- The worker takes the next job in hand. -/
def take? (l : Lane α) : Option (α × Lane α) :=
  if l.working && l.inHand.isNone then
    l.queue.take?.map fun (a, q) ↦ (a, { l with queue := q, inHand := some a })
  else none

/-- The worker is done with the job in hand. -/
def finish? (l : Lane α) : Option (α × Lane α) :=
  l.inHand.map fun a ↦ (a, { l with inHand := none })

/-- The worker crashes over the job in hand, which is lost with all jobs of the queue. -/
def crash? (l : Lane α) : Option (List α × Lane α) :=
  l.inHand.map fun a ↦
    let (lost, q) := l.queue.discard
    (a :: lost, ⟨q, none, .crashed⟩)

/-- The worker closes the queue; the jobs that waited for a place are refused. -/
def drain? (l : Lane α) : Option (List α × Lane α) :=
  if l.worker == .serving && l.inHand.isNone then
    let (refused, q) := l.queue.close
    some (refused, { l with queue := q, worker := .draining })
  else none

/-- The worker ends, since the closed queue is empty. -/
def end? (l : Lane α) : Option (Lane α) :=
  if l.working && l.queue.closed && l.inHand.isNone && l.queue.accepted.isEmpty then
    some { l with worker := .ended }
  else none

/-- Nobody can submit a job any more, so the queue is closed. -/
def release (l : Lane α) : Lane α := { l with queue := l.queue.close.2 }

/-- Submitters give up waiting for a place. -/
def withdraw (givesUp : α → Bool) (l : Lane α) : Lane α :=
  { l with queue := l.queue.withdraw givesUp }

end Lane

end MessageBridge
