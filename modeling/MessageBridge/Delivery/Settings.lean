import MessageBridge.Delivery.Backoff

/-!
# Engine settings

The tuning that all routes of an engine share. There is at least one lane per destination and at
least one place in the queue of a lane, whatever values are asked for.
-/

namespace MessageBridge

/-- The tuning of an engine. -/
structure EngineSettings where
  /-- The number of lanes in front of each destination. -/
  lanes : Nat
  /-- The number of places in the queue of a lane. -/
  depth : Nat
  /-- The waits between attempts. -/
  backoff : Backoff
deriving DecidableEq, Repr

namespace EngineSettings

/-- Sixteen lanes of 8192 places, with the standard backoff. -/
def standard : EngineSettings := ⟨16, 8192, .standard⟩

/-- The settings with another number of lanes, at least one. -/
def withLanes (n : Nat) (s : EngineSettings) : EngineSettings := { s with lanes := max n 1 }

/-- The settings with another queue depth, at least one. -/
def withDepth (n : Nat) (s : EngineSettings) : EngineSettings := { s with depth := max n 1 }

/-- The settings with other waits. -/
def withBackoff (b : Backoff) (s : EngineSettings) : EngineSettings := { s with backoff := b }

end EngineSettings

end MessageBridge
