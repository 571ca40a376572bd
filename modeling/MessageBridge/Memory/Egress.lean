import MessageBridge.Bus.Error
import MessageBridge.Message

/-!
# Egress points in memory

A point that records what it is asked to publish. It can be made slow, and it can be made to
reject. A publish begins with the look whether the point is closed; if it is slow, the publish
then waits; whether it is rejected is decided last, and what is not rejected is recorded.

Others can wait until a number of messages was recorded. Calls are named by numbers, and times are
whole milliseconds.
-/

namespace MessageBridge.Memory

/-- A publish that has begun and not ended. -/
structure PendingPublish where
  /-- The call. -/
  call : Nat
  /-- The message. -/
  message : Message
  /-- The time at which it is decided. -/
  due : Nat

/-- A call that waits for a number of records. -/
structure PendingWait where
  /-- The call. -/
  call : Nat
  /-- The number of records. -/
  count : Nat
  /-- The time at which it gives up. -/
  due : Nat
deriving DecidableEq, Repr

/-- A point that records what it is asked to publish. -/
structure Egress where
  /-- The name. -/
  target : String
  /-- The messages that were accepted, oldest first. -/
  published : List Message
  /-- The number of publishes that were begun. -/
  attempts : Nat
  /-- The number of publishes to reject next. -/
  failNext : Nat
  /-- Whether all publishes are rejected. -/
  failAlways : Bool
  /-- The time that a publish takes, if it takes any. -/
  delay : Option Nat
  /-- Whether the point is closed. -/
  closed : Bool
  /-- The publishes under way, oldest first. -/
  pending : List PendingPublish
  /-- The calls that wait for records. -/
  waits : List PendingWait

namespace Egress

/-- An open point that accepts everything at once. -/
def ofName (target : String) : Egress := ⟨target, [], 0, 0, false, none, false, [], []⟩

/-! ## Publishing -/

/-- A publish begins; the first part is its answer if it ends at once. -/
def begin (now call : Nat) (m : Message) (e : Egress) : Option BusError × Egress :=
  let e := { e with attempts := e.attempts + 1 }
  if e.closed then (some .closed, e)
  else (none, { e with pending := e.pending ++ [⟨call, m, now + e.delay.getD 0⟩] })

/-- The publish under way of a call. -/
def pending? (call : Nat) (e : Egress) : Option PendingPublish :=
  e.pending.find? fun p ↦ p.call == call

/-- Whether the next decision is a rejection. -/
def rejects (e : Egress) : Bool := e.failAlways || decide (0 < e.failNext)

/-- The decision on a publish under way. A rejection that `failAlways` does not ask for uses up one
of `failNext`. -/
def decide? (call : Nat) (e : Egress) : Option (Except BusError Unit × Egress) := do
  let p ← e.pending? call
  let e := { e with pending := e.pending.filter fun p ↦ p.call != call }
  if e.failAlways then return (.error (.publish (e.target ++ " rejected the message")), e)
  else if 0 < e.failNext then
    return (.error (.publish (e.target ++ " rejected the message")),
      { e with failNext := e.failNext - 1 })
  else return (.ok (), { e with published := e.published ++ [p.message] })

/-! ## Settings -/

/-- The next `n` publishes are rejected. -/
def setFailNext (n : Nat) (e : Egress) : Egress := { e with failNext := n }

/-- All publishes are rejected, or no longer. -/
def setFailAlways (on : Bool) (e : Egress) : Egress := { e with failAlways := on }

/-- Publishes that begin from now on take some time. -/
def setDelay (millis : Nat) (e : Egress) : Egress := { e with delay := some millis }

/-- The point is closed. -/
def close (e : Egress) : Egress := { e with closed := true }

/-! ## Waiting for records -/

/-- A call waits for a number of records, unless there are as many already. -/
def await (now call count timeout : Nat) (e : Egress) : Bool × Egress :=
  if count ≤ e.published.length then (true, e)
  else (false, { e with waits := e.waits ++ [⟨call, count, now + timeout⟩] })

/-- A call whose records are there stops waiting. -/
def reached? (e : Egress) : Option (Nat × Egress) :=
  (e.waits.find? fun w ↦ decide (w.count ≤ e.published.length)).map fun w ↦
    (w.call, { e with waits := e.waits.filter fun v ↦ v.call != w.call })

/-- A call whose time is over stops waiting. -/
def expired? (now : Nat) (e : Egress) : Option (Nat × Egress) :=
  (e.waits.find? fun w ↦ decide (w.due ≤ now)).map fun w ↦
    (w.call, { e with waits := e.waits.filter fun v ↦ v.call != w.call })

/-- The times at which something happens by itself. -/
def times (e : Egress) : List Nat :=
  e.pending.map PendingPublish.due ++ e.waits.map PendingWait.due

end Egress

end MessageBridge.Memory
