import MessageBridge.Bus.Error
import MessageBridge.Delivery.Backoff
import MessageBridge.Delivery.Mode

/-!
# Delivery legs

The way of one message to one destination. A leg submits a job to the destination's lanes and
waits for its answer. A refusal by the bus either ends the leg, when the route's mode tolerates
it, or is followed by a wait and the next job. The wait is the only place where a leg notices that
its route is stopping.

Times are whole milliseconds of a steady clock.
-/

namespace MessageBridge

/-! ## Answers and ends -/

/-- What a leg hears about the job that it submitted. -/
inductive JobAnswer where
  /-- The bus accepted the message. -/
  | published
  /-- The bus refused the message. -/
  | refused (error : BusError)
  /-- The lane takes no jobs, or lost this one. -/
  | lost
deriving DecidableEq, Repr

/-- How a leg ended. -/
inductive LegEnd where
  /-- The destination has the message. -/
  | published
  /-- The destination is given up under the drop policy. -/
  | tolerated (reason : GiveUpReason)
  /-- The destination is without the message. -/
  | failed (kind : PublishFailure)
deriving DecidableEq, Repr

/-- Where a leg stands. -/
inductive LegPhase where
  /-- The next job is to be submitted. -/
  | ready
  /-- A job is submitted and not answered. -/
  | submitted
  /-- The next job is submitted at the given time. -/
  | waiting (due : Nat)
  /-- The leg has ended. -/
  | settled (result : LegEnd)
deriving DecidableEq, Repr

/-- The way of one message to one destination. -/
structure Leg where
  /-- The number of jobs submitted, up to the greatest 32-bit number. -/
  attempts : Nat
  /-- The last refusal. -/
  lastError : Option BusError
  /-- Where it stands. -/
  phase : LegPhase
deriving DecidableEq, Repr

/-! ## Steps -/

/-- What decides about failed attempts of a route. -/
structure RetryPlan where
  /-- The mode of the route. -/
  mode : DeliveryMode
  /-- The waits between attempts. -/
  backoff : Backoff
deriving DecidableEq, Repr

namespace Leg

/-- The greatest number of attempts that is counted, which is the greatest of 32 bits. -/
def greatestCount : Nat := 4294967295

/-- A leg before its first job. -/
def fresh : Leg := ⟨0, none, .ready⟩

/-- How the leg ended, if it has. -/
def result? (leg : Leg) : Option LegEnd :=
  match leg.phase with
  | .settled result => some result
  | _ => none

/-- The leg with its end. -/
def settle (result : LegEnd) (leg : Leg) : Leg := { leg with phase := .settled result }

/-- The next job is submitted. -/
def submit (leg : Leg) : Leg :=
  { leg with attempts := min (leg.attempts + 1) greatestCount, phase := .submitted }

/-- The answer to the job arrives at a time `now`, when the message is `age` old. A lost job does
not count as an attempt. -/
def answer (plan : RetryPlan) (now : Nat) (age : Option Int) (leg : Leg) : JobAnswer → Leg
  | .published => leg.settle .published
  | .lost => { leg with attempts := leg.attempts - 1, phase := .settled (.failed .laneClosed) }
  | .refused error =>
    let leg := { leg with lastError := some error }
    match plan.mode.onFailure leg.attempts age with
    | .tolerate reason => leg.settle (.tolerated reason)
    | .retry =>
      { leg with phase := .waiting (now + (plan.backoff.delayAfter leg.attempts).millisUp) }

/-- The wait is over. -/
def wake? (now : Nat) (leg : Leg) : Option Leg :=
  match leg.phase with
  | .waiting due => if due ≤ now then some { leg with phase := .ready } else none
  | _ => none

/-- The wait is broken off since the route is stopping. -/
def breakOff? (leg : Leg) : Option Leg :=
  match leg.phase with
  | .waiting _ => some (leg.settle (.failed .cancelled))
  | _ => none

/-- The error of a leg that failed. -/
def error? (destination : String) (leg : Leg) : Option PublishError :=
  match leg.phase with
  | .settled (.failed kind) => some ⟨kind, destination, leg.attempts, leg.lastError⟩
  | _ => none

end Leg

end MessageBridge
