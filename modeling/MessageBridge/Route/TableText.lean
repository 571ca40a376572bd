import MessageBridge.Codec
import MessageBridge.Document.Reader
import MessageBridge.Json.Value
import MessageBridge.Route.Table

/-!
# Route tables as documents

Reading route tables and schemas from documents and writing them as JSON. Optional entries that
are not set are left out when writing, and everything that is written is read back.
-/

namespace MessageBridge

open Json (Value)
open Document (Field)

/-! ## Writing -/

/-- The member for a value that may be missing. -/
def optionalMember (name : String) : Option Value → List (String × Value)
  | some v => [(name, v)]
  | none => []

/-- A source point as JSON. -/
def SourcePoint.toJson (p : SourcePoint) : Value :=
  .object [("connector", .string p.connector), ("source", .string p.source)]

/-- A target point as JSON. -/
def TargetPoint.toJson (p : TargetPoint) : Value :=
  .object [("connector", .string p.connector), ("target", .string p.target)]

/-- A group as JSON. -/
def TargetGroup.toJson (g : TargetGroup) : Value :=
  .object [("name", .string g.name), ("targets", .array (g.targets.map TargetPoint.toJson))]

/-- A declared mode as JSON. -/
def ModeSpec.toJson (m : ModeSpec) : Value :=
  .object (("type", .string m.kind.name) ::
    (optionalMember "ttl_ms" (m.ttlMs.map .ofNat) ++
      optionalMember "max_attempts" (m.maxAttempts.map .ofNat)))

/-- A declared route as JSON. -/
def RouteSpec.toJson (r : RouteSpec) : Value :=
  .object ([("name", .string r.name), ("from", r.source.toJson)] ++
    optionalMember "to" (r.target.map TargetPoint.toJson) ++
    optionalMember "to_group" (r.group.map .string) ++
    [("mode", r.mode.toJson), ("filters", .ofStrings r.filters)] ++
    optionalMember "projection" (r.projection.map .string))

/-- A route table as JSON. -/
def RouteTable.toJson (t : RouteTable) : Value :=
  .object [("routes", .array (t.routes.map RouteSpec.toJson)),
    ("group_receivers", .array (t.groups.map TargetGroup.toJson))]

/-- A schema as JSON. -/
def Schema.toJson (s : Schema) : Value :=
  .object [("name", .string s.name), ("content_type", .string s.contentType),
    ("required_fields", .ofStrings s.requiredFields)]

/-! ## Reading -/

namespace Document

/-- The greatest unsigned number of 64 bits. -/
def maxUInt64 : Nat := 18446744073709551615

/-- The greatest unsigned number of 32 bits. -/
def maxUInt32 : Nat := 4294967295

/-- A list of texts. -/
def texts? (dialect : Dialect) : Document → Except ReadError (List String) :=
  list? dialect (text? dialect)

/-- A source point. -/
def sourcePoint? (dialect : Dialect) : Document → Except ReadError SourcePoint :=
  record? dialect "SourceConfig"
    [ Field.required "connector" (text? dialect) fun v p ↦ { p with connector := v },
      Field.required "source" (text? dialect) fun v p ↦ { p with source := v } ]
    default

/-- A target point. -/
def targetPoint? (dialect : Dialect) : Document → Except ReadError TargetPoint :=
  record? dialect "TargetConfig"
    [ Field.required "connector" (text? dialect) fun v p ↦ { p with connector := v },
      Field.required "target" (text? dialect) fun v p ↦ { p with target := v } ]
    default

/-- A group. -/
def targetGroup? (dialect : Dialect) : Document → Except ReadError TargetGroup :=
  record? dialect "GroupReceiverConfig"
    [ Field.required "name" (text? dialect) fun v g ↦ { g with name := v },
      Field.required "targets" (list? dialect (targetPoint? dialect)) fun v g ↦
        { g with targets := v } ]
    default

/-- The kinds of delivery modes by name. -/
def modeKinds : List (String × ModeKind) := [("persistent", .persistent), ("drop", .drop)]

/-- A declared mode. -/
def modeSpec? (dialect : Dialect) : Document → Except ReadError ModeSpec :=
  record? dialect "ModeConfig"
    [ Field.defaulted "type" (choice? dialect modeKinds) fun v m ↦ { m with kind := v },
      Field.defaulted "ttl_ms" (optional? (natural? dialect "u64" maxUInt64)) fun v m ↦
        { m with ttlMs := v },
      Field.defaulted "max_attempts" (optional? (natural? dialect "u32" maxUInt32)) fun v m ↦
        { m with maxAttempts := v } ]
    {}

/-- A declared route. -/
def routeSpec? (dialect : Dialect) : Document → Except ReadError RouteSpec :=
  record? dialect "RouteConfig"
    [ Field.required "name" (text? dialect) fun v r ↦ { r with name := v },
      Field.required "from" (sourcePoint? dialect) fun v r ↦ { r with source := v },
      Field.defaulted "to" (optional? (targetPoint? dialect)) fun v r ↦ { r with target := v },
      Field.defaulted "to_group" (optional? (text? dialect)) fun v r ↦ { r with group := v },
      Field.defaulted "mode" (modeSpec? dialect) fun v r ↦ { r with mode := v },
      Field.defaulted "filters" (texts? dialect) fun v r ↦ { r with filters := v },
      Field.defaulted "projection" (optional? (text? dialect)) fun v r ↦
        { r with projection := v } ]
    { name := "", source := default }

/-- The routes of a table. -/
def routeSpecs? (dialect : Dialect) : Document → Except ReadError (List RouteSpec) :=
  list? dialect (routeSpec? dialect)

/-- The groups of a table. -/
def targetGroups? (dialect : Dialect) : Document → Except ReadError (List TargetGroup) :=
  list? dialect (targetGroup? dialect)

/-- A route table. -/
def routeTable? (dialect : Dialect) : Document → Except ReadError RouteTable :=
  record? dialect "RouteTable"
    [ Field.defaulted "routes" (routeSpecs? dialect) fun v t ↦ { t with routes := v },
      Field.defaulted "group_receivers" (targetGroups? dialect) fun v t ↦ { t with groups := v } ]
    {}

/-- A schema. -/
def schema? (dialect : Dialect) : Document → Except ReadError Schema :=
  record? dialect "SchemaDescriptor"
    [ Field.required "name" (text? dialect) fun v s ↦ { s with name := v },
      Field.defaulted "content_type" (text? dialect) fun v s ↦ { s with contentType := v },
      Field.defaulted "required_fields" (texts? dialect) fun v s ↦ { s with requiredFields := v } ]
    (Schema.ofName "" [])

end Document

/-- The route table that a JSON value declares. -/
def RouteTable.ofJson? (v : Value) : Except ReadError RouteTable :=
  Document.routeTable? .json (Document.ofJson v)

end MessageBridge
