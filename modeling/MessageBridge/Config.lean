import MessageBridge.Bus.Adapter
import MessageBridge.Delivery.Settings
import MessageBridge.Document.Scanner
import MessageBridge.Memory.Connector
import MessageBridge.Route.TableText

/-!
# Configuration

A configuration declares connectors, schemas, groups and routes, and the tuning of the engine that
runs them. It is read from the relaxed notation and written as JSON. Connector names are distinct
in every configuration that is read.
-/

namespace MessageBridge

open Json (Value)
open Document (Field)

/-! ## Declarations -/

/-- The tuning of the engine. -/
structure BridgeSpec where
  /-- The number of lanes in front of each destination. -/
  lanes : Nat := 16
  /-- The number of places in the queue of a lane. -/
  depth : Nat := 8192
  /-- The first wait before a retry, in milliseconds. -/
  retryInitialMs : Nat := 50
  /-- The greatest wait before a retry, in milliseconds. -/
  retryMaxMs : Nat := 5000
deriving DecidableEq, Repr

/-- The kinds of connectors. -/
inductive ConnectorKind where
  | memory
deriving DecidableEq, Repr, Inhabited

/-- The name of a kind. -/
def ConnectorKind.name : ConnectorKind → String
  | memory => "memory"

/-- A declared connector. -/
structure ConnectorSpec where
  /-- The name. -/
  name : String
  /-- The kind. -/
  kind : ConnectorKind
  /-- The names of its sources, which may repeat. -/
  sources : List String := []
  /-- The names of its targets, which may repeat. -/
  targets : List String := []
deriving DecidableEq, Repr, Inhabited

/-- The schema of the messages of one source. -/
structure SourceSchema where
  /-- The source. -/
  source : String
  /-- The schema. -/
  schema : Schema
deriving DecidableEq, Repr, Inhabited

/-- A configuration. -/
structure Config where
  /-- The tuning of the engine. -/
  bridge : BridgeSpec := {}
  /-- The connectors. -/
  connectors : List ConnectorSpec := []
  /-- The schema of all sources without one of their own. -/
  defaultSchema : Option Schema := none
  /-- The schemas of single sources. -/
  schemas : List SourceSchema := []
  /-- The groups. -/
  groups : List TargetGroup := []
  /-- The routes. -/
  routes : List RouteSpec := []
deriving DecidableEq, Repr

/-! ## Writing -/

/-- The tuning as JSON. -/
def BridgeSpec.toJson (b : BridgeSpec) : Value :=
  .object [("lanes_per_destination", .ofNat b.lanes), ("lane_queue_depth", .ofNat b.depth),
    ("retry_initial_ms", .ofNat b.retryInitialMs), ("retry_max_ms", .ofNat b.retryMaxMs)]

/-- A connector as JSON. -/
def ConnectorSpec.toJson (c : ConnectorSpec) : Value :=
  .object [("name", .string c.name), ("kind", .string c.kind.name),
    ("sources", .ofStrings c.sources), ("targets", .ofStrings c.targets)]

/-- The schema of a source as JSON. -/
def SourceSchema.toJson (s : SourceSchema) : Value :=
  .object [("source", .string s.source), ("schema", s.schema.toJson)]

/-- A configuration as JSON. -/
def Config.toJson (c : Config) : Value :=
  .object [("bridge", c.bridge.toJson),
    ("connectors", .array (c.connectors.map ConnectorSpec.toJson)),
    ("default_schema", (c.defaultSchema.map Schema.toJson).getD .null),
    ("schemas", .array (c.schemas.map SourceSchema.toJson)),
    ("group_receivers", .array (c.groups.map TargetGroup.toJson)),
    ("routes", .array (c.routes.map RouteSpec.toJson))]

/-! ## Reading -/

namespace Document

/-- An unsigned number of 64 bits. -/
def uint64? (dialect : Dialect) : Document → Except ReadError Nat :=
  natural? dialect "u64" maxUInt64

/-- The tuning of the engine. -/
def bridgeSpec? (dialect : Dialect) : Document → Except ReadError BridgeSpec :=
  record? dialect "BridgeConfig"
    [ Field.defaulted "lanes_per_destination" (uint64? dialect) fun v b ↦ { b with lanes := v },
      Field.defaulted "lane_queue_depth" (uint64? dialect) fun v b ↦ { b with depth := v },
      Field.defaulted "retry_initial_ms" (uint64? dialect) fun v b ↦
        { b with retryInitialMs := v },
      Field.defaulted "retry_max_ms" (uint64? dialect) fun v b ↦ { b with retryMaxMs := v } ]
    {}

/-- The kinds of connectors by name. -/
def connectorKinds : List (String × ConnectorKind) := [("memory", .memory)]

/-- A connector. -/
def connectorSpec? (dialect : Dialect) : Document → Except ReadError ConnectorSpec :=
  record? dialect "ConnectorConfig"
    [ Field.required "name" (text? dialect) fun v c ↦ { c with name := v },
      Field.required "kind" (choice? dialect connectorKinds) fun v c ↦ { c with kind := v },
      Field.defaulted "sources" (texts? dialect) fun v c ↦ { c with sources := v },
      Field.defaulted "targets" (texts? dialect) fun v c ↦ { c with targets := v } ]
    { name := "", kind := .memory }

/-- The schema of a source. -/
def sourceSchema? (dialect : Dialect) : Document → Except ReadError SourceSchema :=
  record? dialect "SourceSchema"
    [ Field.required "source" (text? dialect) fun v s ↦ { s with source := v },
      Field.required "schema" (schema? dialect) fun v s ↦ { s with schema := v } ]
    default

/-- A configuration. -/
def config? (dialect : Dialect) : Document → Except ReadError Config :=
  record? dialect "Config"
    [ Field.defaulted "bridge" (bridgeSpec? dialect) fun v c ↦ { c with bridge := v },
      Field.required "connectors" (list? dialect (connectorSpec? dialect)) fun v c ↦
        { c with connectors := v },
      Field.defaulted "default_schema" (optional? (schema? dialect)) fun v c ↦
        { c with defaultSchema := v },
      Field.defaulted "schemas" (list? dialect (sourceSchema? dialect)) fun v c ↦
        { c with schemas := v },
      Field.defaulted "group_receivers" (targetGroups? dialect) fun v c ↦ { c with groups := v },
      Field.required "routes" (routeSpecs? dialect) fun v c ↦ { c with routes := v } ]
    {}

end Document

/-- Why a text is not a configuration. -/
inductive ConfigError where
  /-- The text is not in the relaxed notation. -/
  | malformed
  /-- The document does not fit. -/
  | unreadable (error : ReadError)
  /-- Two connectors have the same name. -/
  | duplicateConnector (name : String)
deriving DecidableEq, Repr

/-- The text of a configuration error. -/
def ConfigError.message : ConfigError → String
  | malformed => "syntax error"
  | unreadable error => error.message
  | duplicateConnector name => "Duplicate connector name found: " ++ name

/-- The first name that repeats an earlier one. -/
def firstRepeated? (seen : List String) : List String → Option String
  | [] => none
  | name :: rest => if seen.contains name then some name else firstRepeated? (name :: seen) rest

namespace Config

/-- The configuration that a text of the relaxed notation declares. -/
def ofString? (s : String) : Except ConfigError Config :=
  match Document.ofRelaxed? s with
  | none => .error .malformed
  | some d =>
    match Document.config? .relaxed d with
    | .error e => .error (.unreadable e)
    | .ok config =>
      match firstRepeated? [] (config.connectors.map ConnectorSpec.name) with
      | some name => .error (.duplicateConnector name)
      | none => .ok config

/-! ## What a configuration stands for -/

/-- The settings of the engine. -/
def settings (c : Config) : EngineSettings :=
  ((EngineSettings.standard.withLanes c.bridge.lanes).withDepth c.bridge.depth).withBackoff
    (.ofBounds (.ofMillis c.bridge.retryInitialMs) (.ofMillis c.bridge.retryMaxMs))

/-- The route table. -/
def table (c : Config) : RouteTable := ⟨c.routes, c.groups⟩

/-- The codecs: of two schemas for one source the later counts. -/
def codecs (c : Config) : CodecRegistry :=
  c.schemas.foldl (fun registry s ↦ registry.withSource s.source s.schema.codec)
    ⟨c.defaultSchema.map Schema.codec, []⟩

end Config

/-- The connector that a declaration stands for, with handlers of some type. -/
def ConnectorSpec.build (Handler : Type) (c : ConnectorSpec) : Memory.Connector Handler :=
  .ofNames c.name c.sources c.targets

namespace Config

/-- The connectors, with handlers of some type. -/
def buildConnectors (Handler : Type) (c : Config) : List (Memory.Connector Handler) :=
  c.connectors.map (ConnectorSpec.build Handler)

/-- The buses of the connectors by name. -/
def buses (c : Config) : BusRegistry :=
  .ofAdapters ((c.buildConnectors Unit).map fun m ↦ .ofNames m.name m.sources m.targets)

/-- The environment of the route table: its own connectors and the built-in filters and
projections. -/
def environment (c : Config) : Environment :=
  ⟨c.buses, FilterRegistry.builtins, ProjectionRegistry.builtins, c.codecs⟩

end Config

end MessageBridge
