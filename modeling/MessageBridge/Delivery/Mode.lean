import MessageBridge.Duration

/-!
# Delivery modes

What a route does about a destination that refuses a message. A persistent route tries again until
the destination accepts. A route that may drop gives up once the message has been tried often
enough or has become too old; a message of unknown age is never too old.
-/

namespace MessageBridge

/-! ## Modes -/

/-- The bounds of a route that may drop. -/
structure DropPolicy where
  /-- The age beyond which a message is given up. -/
  ttl : Option Duration
  /-- The number of attempts after which a message is given up. -/
  maxAttempts : Option Nat
deriving DecidableEq, Repr

/-- What a route does about a failing destination. -/
inductive DeliveryMode where
  | persistent
  | drop (policy : DropPolicy)
deriving DecidableEq, Repr

/-- Why a mode is not one. -/
inductive InvalidMode where
  | unbounded
  | zeroTtl
  | zeroMaxAttempts
  | persistentWithBounds
deriving DecidableEq, Repr

/-- The text of an invalid mode. -/
def InvalidMode.message : InvalidMode → String
  | unbounded => "drop mode requires ttl_ms, max_attempts or both"
  | zeroTtl => "drop mode ttl_ms must be positive"
  | zeroMaxAttempts => "drop mode max_attempts must be positive"
  | persistentWithBounds => "persistent mode does not take ttl_ms or max_attempts"

/-- Why a destination is given up. -/
inductive GiveUpReason where
  | attemptsExhausted
  | expired
deriving DecidableEq, Repr

/-- The reason as log lines show it. -/
def GiveUpReason.text : GiveUpReason → String
  | attemptsExhausted => "max_attempts_exhausted"
  | expired => "ttl_expired"

/-- What to do after one more failed attempt. -/
inductive FailureAction where
  | retry
  | tolerate (reason : GiveUpReason)
deriving DecidableEq, Repr

namespace DropPolicy

/-- Whether the attempts made so far are enough. -/
def exhaustedAt (policy : DropPolicy) (attempts : Nat) : Bool :=
  match policy.maxAttempts with
  | some bound => decide (bound ≤ attempts)
  | none => false

/-- Whether a message of this age is too old. Ages are whole milliseconds, and so is the bound
once its fraction is cut off. -/
def expiredAt (policy : DropPolicy) (age : Option Int) : Bool :=
  match policy.ttl, age with
  | some ttl, some age => decide (0 < age ∧ (ttl.millis : Int) < age)
  | _, _ => false

end DropPolicy

namespace DeliveryMode

/-- The mode that gives up at the given bounds: at least one is set and none is zero. -/
def dropping (ttl : Option Duration) (maxAttempts : Option Nat) :
    Except InvalidMode DeliveryMode :=
  match ttl, maxAttempts with
  | none, none => .error .unbounded
  | some ttl, maxAttempts =>
    if ttl.nanos = 0 then .error .zeroTtl
    else if maxAttempts = some 0 then .error .zeroMaxAttempts
    else .ok (.drop ⟨some ttl, maxAttempts⟩)
  | none, some attempts =>
    if attempts = 0 then .error .zeroMaxAttempts else .ok (.drop ⟨none, some attempts⟩)

/-- The name of a mode. -/
def label : DeliveryMode → String
  | persistent => "persistent"
  | drop _ => "drop"

/-- The decision after `attempts` failed attempts with a message of the given age. -/
def onFailure (mode : DeliveryMode) (attempts : Nat) (age : Option Int) : FailureAction :=
  match mode with
  | persistent => .retry
  | drop policy =>
    if policy.exhaustedAt attempts then .tolerate .attemptsExhausted
    else if policy.expiredAt age then .tolerate .expired
    else .retry

/-- The mode with its bounds. -/
def display : DeliveryMode → String
  | persistent => "persistent"
  | drop policy =>
    let ttl := match policy.ttl with
      | some ttl => toString ttl.millis ++ "ms"
      | none => "none"
    let attempts := match policy.maxAttempts with
      | some n => toString n
      | none => "none"
    "drop(ttl=" ++ ttl ++ ", max_attempts=" ++ attempts ++ ")"

/-- An optional text as diagnostics show it. -/
def describeOption : Option String → String
  | some s => "Some(" ++ s ++ ")"
  | none => "None"

/-- The mode as diagnostics show it. -/
def describe : DeliveryMode → String
  | persistent => "Persistent"
  | drop policy =>
    "Drop(DropPolicy \x7b ttl: " ++ describeOption (policy.ttl.map Duration.describe) ++
      ", max_attempts: " ++ describeOption (policy.maxAttempts.map toString) ++ " \x7d)"

end DeliveryMode

end MessageBridge
