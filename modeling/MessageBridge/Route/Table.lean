/-!
# Route tables

A route table is the declaration of what a bridge does: routes from one source point to one target
point or to the targets of a named group. It only names things; whether the names exist is found
out when the table is compiled.
-/

namespace MessageBridge

/-! ## Points -/

/-- A source point of a connector. -/
structure SourcePoint where
  /-- The connector. -/
  connector : String
  /-- The point. -/
  source : String
deriving DecidableEq, Repr, Inhabited

/-- A target point of a connector. -/
structure TargetPoint where
  /-- The connector. -/
  connector : String
  /-- The point. -/
  target : String
deriving DecidableEq, Repr, Inhabited

/-- A named list of targets. -/
structure TargetGroup where
  /-- The name that routes use. -/
  name : String
  /-- The targets, each of which gets every message. -/
  targets : List TargetPoint
deriving DecidableEq, Repr, Inhabited

/-! ## Modes -/

/-- The kind of a declared delivery mode. -/
inductive ModeKind where
  | persistent
  | drop
deriving DecidableEq, Repr, Inhabited

/-- The name of a kind. -/
def ModeKind.name : ModeKind → String
  | persistent => "persistent"
  | drop => "drop"

/-- A declared delivery mode, valid or not. -/
structure ModeSpec where
  /-- The kind. -/
  kind : ModeKind := .persistent
  /-- The time to live in milliseconds. -/
  ttlMs : Option Nat := none
  /-- The greatest number of attempts. -/
  maxAttempts : Option Nat := none
deriving DecidableEq, Repr, Inhabited

namespace ModeSpec

/-- Persistent delivery. -/
def persistent : ModeSpec := {}

/-- Delivery that gives up at the given bounds. -/
def drop (ttlMs maxAttempts : Option Nat) : ModeSpec := ⟨.drop, ttlMs, maxAttempts⟩

end ModeSpec

/-! ## Routes -/

/-- A declared route. -/
structure RouteSpec where
  /-- The name of the route. -/
  name : String
  /-- Where messages come from. -/
  source : SourcePoint
  /-- The only target, when the route goes straight to one. -/
  target : Option TargetPoint := none
  /-- The group, when the route goes to one. -/
  group : Option String := none
  /-- What happens when a target refuses a message. -/
  mode : ModeSpec := {}
  /-- The filters in the order in which they are asked. -/
  filters : List String := []
  /-- The projection. -/
  projection : Option String := none
deriving DecidableEq, Repr, Inhabited

namespace RouteSpec

/-- A persistent route to one target. -/
def direct (name : String) (source : SourcePoint) (target : TargetPoint) : RouteSpec :=
  { name, source, target := some target }

/-- A persistent route to a group. -/
def toGroup (name : String) (source : SourcePoint) (group : String) : RouteSpec :=
  { name, source, group := some group }

/-- The route with another mode. -/
def withMode (mode : ModeSpec) (r : RouteSpec) : RouteSpec := { r with mode }

/-- The route with other filters. -/
def withFilters (filters : List String) (r : RouteSpec) : RouteSpec := { r with filters }

/-- The route with a projection. -/
def withProjection (projection : String) (r : RouteSpec) : RouteSpec :=
  { r with projection := some projection }

end RouteSpec

/-- Routes, and the groups that they may go to. -/
structure RouteTable where
  /-- The routes. -/
  routes : List RouteSpec := []
  /-- The groups. -/
  groups : List TargetGroup := []
deriving DecidableEq, Repr, Inhabited

end MessageBridge
