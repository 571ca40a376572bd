import MessageBridge.Event

/-!
# Bus adapters

A bus over the points of a connector. The adapter looks points up by name; of two points with one
name it knows the later. Closing it closes everything that it knows, once: the ingress points, the
egress points, then the connector. Failures do not stop it, and the first one is its answer.

What the calls on points do is left to the caller, as a function on some state.
-/

namespace MessageBridge

/-- A call on the points of a connector that closing makes. -/
inductive ClosingCall where
  | ingress (name : String) (index : Nat)
  | egress (name : String) (index : Nat)
  | connector
deriving DecidableEq, Repr

/-- A bus over the points of a connector. -/
structure Adapter where
  /-- The name of the connector. -/
  name : String
  /-- The places of the ingress points by name. -/
  ingresses : List (String × Nat)
  /-- The places of the egress points by name. -/
  egresses : List (String × Nat)
  /-- Whether the bus was closed. -/
  closed : Bool
deriving DecidableEq, Repr

namespace Adapter

/-- The adapter of a connector with points of the given names. -/
def ofNames (name : String) (ingresses egresses : List String) : Adapter :=
  ⟨name, Named.ofList ingresses.zipIdx, Named.ofList egresses.zipIdx, false⟩

/-- What compilation sees of the bus with a handle. -/
def view (handle : Nat) (a : Adapter) : BusView :=
  ⟨handle, Named.names a.ingresses, Named.names a.egresses⟩

/-- The ingress point to subscribe to. -/
def ingress (source : String) (a : Adapter) : Except BusError Nat :=
  if a.closed then .error .closed
  else
    match Named.get? source a.ingresses with
    | some i => .ok i
    | none => .error (.unknownSource a.name source)

/-- The egress point to publish on. -/
def egress (target : String) (a : Adapter) : Except BusError Nat :=
  if a.closed then .error .closed
  else
    match Named.get? target a.egresses with
    | some i => .ok i
    | none => .error (.unknownTarget a.name target)

/-! ## Closing -/

/-- The calls that closing makes, in order. -/
def closingCalls (a : Adapter) : List ClosingCall :=
  a.ingresses.map (fun p ↦ .ingress p.1 p.2) ++ a.egresses.map (fun p ↦ .egress p.1 p.2) ++
    [.connector]

/-- The event about a call that failed; the connector's own failure has none. -/
def failureEvent? (bus : String) (e : BusError) : ClosingCall → Option Event
  | .ingress name _ => some (.pointNotClosed bus (.ingress name) e)
  | .egress name _ => some (.pointNotClosed bus (.egress name) e)
  | .connector => none

/-- The error of the bus when a call failed. -/
def failure (bus : String) (e : BusError) : ClosingCall → BusError
  | .ingress name _ =>
    .close ("bus[" ++ bus ++ "]: stop ingress " ++ Text.quoted name ++ ": " ++ e.message)
  | .egress name _ =>
    .close ("bus[" ++ bus ++ "]: close egress " ++ Text.quoted name ++ ": " ++ e.message)
  | .connector => e

/-- Makes calls one after the other; the second part are the failures. -/
def makeCalls {σ : Type u} (perform : ClosingCall → σ → Except BusError Unit × σ) (s : σ) :
    List ClosingCall → σ × List (ClosingCall × BusError)
  | [] => (s, [])
  | c :: rest =>
    match perform c s with
    | (.ok (), s) => makeCalls perform s rest
    | (.error e, s) =>
      let (s, failures) := makeCalls perform s rest
      (s, (c, e) :: failures)

/-- The outcome of closing a bus. -/
structure Closing (σ : Type u) where
  /-- The state after all calls. -/
  state : σ
  /-- The events. -/
  events : List Event
  /-- The answer: the first failure. -/
  answer : Except BusError Unit

/-- Closes everything that the adapter knows, unless it was closed before. -/
def close {σ : Type u} (perform : ClosingCall → σ → Except BusError Unit × σ) (s : σ)
    (a : Adapter) : Adapter × Closing σ :=
  if a.closed then (a, ⟨s, [], .ok ()⟩)
  else
    let (s, failures) := makeCalls perform s a.closingCalls
    let events := failures.filterMap fun (c, e) ↦ failureEvent? a.name e c
    let answer := match failures with
      | [] => .ok ()
      | (c, e) :: _ => .error (failure a.name e c)
    ({ a with closed := true }, ⟨s, events ++ [.busClosed a.name], answer⟩)

end Adapter

/-! ## Registry -/

/-- Buses by connector name. -/
abbrev BusRegistry := List (String × BusView)

/-- The registry of some adapters, each with its place as handle; of two with one name the later
counts. -/
def BusRegistry.ofAdapters (adapters : List Adapter) : BusRegistry :=
  Named.ofList (adapters.zipIdx.map fun (a, i) ↦ (a.name, a.view i))

end MessageBridge
