import MessageBridge.Text.Quoted

/-!
# Errors of buses and handlers

What can go wrong on the way of a message: a bus refuses, a destination ends up without the
message, a handler refuses to let the source commit. Each error has one text; the errors that wrap
others also have a chain of causes, nearest first.
-/

namespace MessageBridge

/-! ## Buses -/

/-- A failure reported by a bus, a connector or one of its points. -/
inductive BusError where
  | unknownSource (bus source : String)
  | unknownTarget (bus target : String)
  | subscribe (reason : String)
  | publish (reason : String)
  | close (reason : String)
  | closed
deriving DecidableEq, Repr, Inhabited

/-- The text of a bus error. -/
def BusError.message : BusError → String
  | unknownSource bus source => "bus[" ++ bus ++ "]: ingress " ++ Text.quoted source ++ " not found"
  | unknownTarget bus target => "bus[" ++ bus ++ "]: egress " ++ Text.quoted target ++ " not found"
  | subscribe reason => "subscribe failed: " ++ reason
  | publish reason => "publish failed: " ++ reason
  | close reason => "close failed: " ++ reason
  | closed => "bus is closed"

/-! ## Destinations -/

/-- How a destination ended up without a message. -/
inductive PublishFailure where
  /-- The route stopped while the destination was still failing. -/
  | cancelled
  /-- The lanes of the destination took no more jobs. -/
  | laneClosed
deriving DecidableEq, Repr

/-- The failure in words. -/
def PublishFailure.text : PublishFailure → String
  | cancelled => "cancelled"
  | laneClosed => "lane closed"

/-- A destination without the message, the attempts on it and the last error of its bus. -/
structure PublishError where
  /-- How it ended up without the message. -/
  kind : PublishFailure
  /-- The label of the destination. -/
  destination : String
  /-- The attempts that are reported. -/
  attempts : Nat
  /-- The last error of the bus. -/
  lastError : Option BusError
deriving DecidableEq, Repr

/-- The text of a publish error. -/
def PublishError.message (e : PublishError) : String :=
  let what :=
    e.destination ++ ": " ++ e.kind.text ++ " after " ++ toString e.attempts ++ " attempt(s)"
  match e.lastError with
  | some err => what ++ ", last error: " ++ err.message
  | none => what

/-- The destinations of one message that neither accepted it nor were released from it. -/
structure AggregateError where
  /-- The route. -/
  route : String
  /-- The failures in the order of the destinations. -/
  failures : List PublishError
deriving DecidableEq, Repr

/-- The text of an aggregate error. -/
def AggregateError.message (e : AggregateError) : String :=
  let heading := "route " ++ Text.quoted e.route ++ ": " ++ toString e.failures.length ++
    " destination(s) undelivered"
  match e.failures with
  | [] => heading
  | failures => heading ++ ": " ++ "; ".intercalate (failures.map PublishError.message)

/-! ## Handlers -/

/-- Why a handler refused to let the source commit a message. -/
inductive HandleError where
  /-- At least one destination did not accept the message. -/
  | undelivered (error : AggregateError)
  /-- The route is stopping and takes no more messages. -/
  | shuttingDown
deriving DecidableEq, Repr

namespace HandleError

/-- The text of a handler error. -/
def message : HandleError → String
  | undelivered error => "message undelivered: " ++ error.message
  | shuttingDown => "route is shutting down"

/-- The texts of the causes below the error. -/
def causes : HandleError → List String
  | undelivered error =>
    error.message ::
      match error.failures with
      | [] => []
      | first :: _ =>
        first.message ::
          match first.lastError with
          | some err => [err.message]
          | none => []
  | shuttingDown => []

end HandleError

/-! ## Injection -/

/-- Why an injected message was not committed. -/
inductive InjectError where
  /-- No handler has been subscribed yet. -/
  | notSubscribed
  /-- The point was stopped or its subscription cancelled. -/
  | stopped
  /-- The handler refused to commit. -/
  | refused (error : HandleError)
deriving DecidableEq, Repr

namespace InjectError

/-- The text of an injection error. -/
def message : InjectError → String
  | notSubscribed => "no handler subscribed"
  | stopped => "ingress stopped"
  | refused error => "handler refused message: " ++ error.message

/-- The texts of the causes below the error. -/
def causes : InjectError → List String
  | refused error => error.message :: error.causes
  | _ => []

end InjectError

end MessageBridge
