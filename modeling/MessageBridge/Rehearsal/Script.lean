import MessageBridge.Bus.Error
import MessageBridge.Message

/-!
# Scripted targets

A target for rehearsals that answers by a script: every publish takes the next outcome, waits for
the script's delay and then has that outcome. When the script is used up, publishes are accepted.
-/

namespace MessageBridge.Rehearsal

/-- What becomes of a publish. -/
inductive Outcome where
  | accepted
  | closed
  | unknownTarget
  /-- The task that publishes crashes. -/
  | crash
  | refused (reason : String)
deriving DecidableEq, Repr

namespace Outcome

/-- The outcomes that have a name of their own. -/
def named : List (String × Outcome) :=
  [("ok", accepted), ("closed", closed), ("unknown", unknownTarget), ("panic", crash)]

/-- The outcome of a name; any other text is the reason of a refusal. -/
def ofText (s : String) : Outcome := (Named.get? s named).getD (refused s)

/-- The name of an outcome. -/
def text : Outcome → String
  | accepted => "ok"
  | closed => "closed"
  | unknownTarget => "unknown"
  | crash => "panic"
  | refused reason => reason

/-- The answer of a bus, or `none` for a crash. -/
def answer? (bus target : String) : Outcome → Option (Except BusError Unit)
  | accepted => some (.ok ())
  | closed => some (.error .closed)
  | unknownTarget => some (.error (.unknownTarget bus target))
  | crash => none
  | refused reason => some (.error (.publish reason))

end Outcome

/-- A publish on a scripted target. -/
structure Attempt where
  /-- The call that publishes. -/
  call : Nat
  /-- The time at which it began. -/
  began : Nat
  /-- The time at which it ends. -/
  due : Nat
  /-- The message. -/
  message : Message
  /-- What becomes of it. -/
  outcome : Outcome
  /-- Whether it has ended. -/
  ended : Bool

/-- The outcome as it is seen from outside: a publish that has not ended counts as a crash. -/
def Attempt.seen (a : Attempt) : Outcome := if a.ended then a.outcome else .crash

/-- A target that answers by a script. -/
structure ScriptedTarget where
  /-- The name. -/
  name : String
  /-- The outcomes to come. -/
  outcomes : List Outcome
  /-- The time that a publish takes. -/
  delay : Nat
  /-- The publishes so far, oldest first. -/
  attempts : List Attempt

namespace ScriptedTarget

/-- A publish begins. -/
def begin (now call : Nat) (m : Message) (t : ScriptedTarget) : ScriptedTarget :=
  { t with
    outcomes := t.outcomes.tail
    attempts := t.attempts ++
      [⟨call, now, now + t.delay, m, t.outcomes.head?.getD .accepted, false⟩] }

/-- The first publish whose time has come ends. -/
def conclude? (now : Nat) (t : ScriptedTarget) : Option (Attempt × ScriptedTarget) :=
  (t.attempts.find? fun a ↦ !a.ended && decide (a.due ≤ now)).map fun a ↦
    (a, { t with attempts := t.attempts.map fun b ↦
      if b.call = a.call then { b with ended := true } else b })

/-- The times at which publishes end. -/
def times (t : ScriptedTarget) : List Nat :=
  t.attempts.filterMap fun a ↦ if a.ended then none else some a.due

end ScriptedTarget

end MessageBridge.Rehearsal
