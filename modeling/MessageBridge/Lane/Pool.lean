import MessageBridge.Delivery.Settings
import MessageBridge.Lane.Basic
import MessageBridge.Route.Compile

/-!
# Lane pools

The lanes in front of one destination. Submissions go round the lanes by a 64-bit counter, which
wraps.
-/

namespace MessageBridge

/-! ## Names -/

/-- The name of one lane of one destination of one route. -/
def laneLabel (route destination : String) (lane : Nat) : String :=
  route ++ ":" ++ destination ++ "#" ++ toString lane

/-! ## Limits -/

/-- The greatest number of lanes that a pool can have, which is the greatest of 58 bits. -/
def greatestLaneCount : Nat := 288230376151711743

/-- Whether pools with these settings can be made: every queue has a place and none has too many,
and there is a lane and there are not too many. -/
def EngineSettings.realizable (s : EngineSettings) : Bool :=
  decide (1 ≤ s.depth ∧ s.depth ≤ Queue.greatestDepth ∧ 1 ≤ s.lanes ∧ s.lanes ≤ greatestLaneCount)

/-! ## Pools -/

/-- The lanes in front of a destination. -/
structure Pool (α : Type u) where
  /-- The destination. -/
  destination : Destination
  /-- The lanes. -/
  lanes : List (Lane α)
  /-- The number of submissions so far, modulo 2^64. -/
  picks : UInt64
  /-- Whether the workers have been told to close. -/
  closing : Bool
deriving Repr

namespace Pool

variable {α : Type u}

/-- Fresh lanes in front of a destination, at least one, each with at least one place. -/
def ofSettings (s : EngineSettings) (d : Destination) : Pool α :=
  ⟨d, List.replicate (max s.lanes 1) (.idle (max s.depth 1)), 0, false⟩

/-- The lane whose turn it is, and the pool in which it is the next one's turn. -/
def pick (p : Pool α) : Nat × Pool α :=
  (p.picks.toNat % p.lanes.length, { p with picks := p.picks + 1 })

/-- The pool with one lane replaced. -/
def setLane (i : Nat) (l : Lane α) (p : Pool α) : Pool α := { p with lanes := p.lanes.set i l }

/-- A job is submitted to the lane whose turn it is. The turn passes even if the lane refuses,
which the second part says. -/
def submit (a : α) (p : Pool α) : Pool α × Bool :=
  let (i, p) := p.pick
  match p.lanes[i]? with
  | none => (p, false)
  | some l =>
    match l.submit? a with
    | none => (p, false)
    | some l => (p.setLane i l, true)

/-- The worker of a lane takes its next job, unless it has to close the queue first. -/
def take? (i : Nat) (p : Pool α) : Option (α × Pool α) := do
  let l ← p.lanes[i]?
  if p.closing && l.worker == .serving then none
  else
    let (a, l) ← l.take?
    return (a, p.setLane i l)

/-- The worker of a lane is done with its job. -/
def finish? (i : Nat) (p : Pool α) : Option (α × Pool α) := do
  let l ← p.lanes[i]?
  let (a, l) ← l.finish?
  return (a, p.setLane i l)

/-- The worker of a lane crashes; the first part are the jobs that are lost. -/
def crash? (i : Nat) (p : Pool α) : Option (List α × Pool α) := do
  let l ← p.lanes[i]?
  let (lost, l) ← l.crash?
  return (lost, p.setLane i l)

/-- The worker of a lane that has been told to close closes its queue; the first part are the jobs
that are refused. -/
def drain? (i : Nat) (p : Pool α) : Option (List α × Pool α) := do
  let l ← p.lanes[i]?
  if p.closing then
    let (refused, l) ← l.drain?
    return (refused, p.setLane i l)
  else none

/-- The worker of a lane ends. -/
def end? (i : Nat) (p : Pool α) : Option (Pool α) := do
  let l ← p.lanes[i]?
  let l ← l.end?
  return p.setLane i l

/-- Nobody can submit to the lanes any more. -/
def release (p : Pool α) : Pool α := { p with lanes := p.lanes.map Lane.release }

/-- Submitters give up waiting for a place. -/
def withdraw (givesUp : α → Bool) (p : Pool α) : Pool α :=
  { p with lanes := p.lanes.map (Lane.withdraw givesUp) }

end Pool

end MessageBridge
