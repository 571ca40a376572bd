import MessageBridge.Memory.Egress
import MessageBridge.Memory.Ingress

/-!
# Connectors in memory

A connector whose points live in this process. Points of one kind have different names: repeated
names collapse into one point.
-/

namespace MessageBridge

/-- The names in order of first appearance, each once. -/
def distinctNames (seen : List String) : List String → List String
  | [] => []
  | name :: rest =>
    if seen.contains name then distinctNames seen rest
    else name :: distinctNames (name :: seen) rest

namespace Memory

/-- A connector whose points live in this process. -/
structure Connector (Handler : Type) where
  /-- The name. -/
  name : String
  /-- The points to inject into. -/
  ingresses : List (Ingress Handler)
  /-- The points that record. -/
  egresses : List Egress

namespace Connector

variable {Handler : Type}

/-- A connector with fresh points of the given names. -/
def ofNames (name : String) (sources targets : List String) : Connector Handler :=
  ⟨name, (distinctNames [] sources).map .ofName, (distinctNames [] targets).map .ofName⟩

/-- The names of the points to inject into. -/
def sources (c : Connector Handler) : List String := c.ingresses.map Ingress.source

/-- The names of the points that record. -/
def targets (c : Connector Handler) : List String := c.egresses.map Egress.target

/-- The point of a name to inject into. -/
def ingress? (source : String) (c : Connector Handler) : Option (Ingress Handler) :=
  c.ingresses.find? fun i ↦ i.source == source

/-- The point of a name that records. -/
def egress? (target : String) (c : Connector Handler) : Option Egress :=
  c.egresses.find? fun e ↦ e.target == target

/-- The connector with every point to inject into stopped. -/
def close (c : Connector Handler) : Connector Handler :=
  { c with ingresses := c.ingresses.map Ingress.stop }

end Connector

end Memory

end MessageBridge
