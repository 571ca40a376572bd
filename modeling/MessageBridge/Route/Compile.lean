import MessageBridge.Codec
import MessageBridge.Delivery.Mode
import MessageBridge.Filter
import MessageBridge.Projection
import MessageBridge.Route.Table

/-!
# Compiling route tables

Compilation resolves every name of a route table against buses and registries. It is all or
nothing: the first defect in checking order is the result, or else every route is complete.

## Checking order

Groups come first, in table order: a repeated name, an empty group, then the targets one by one.
Routes follow in table order: a repeated name, the source, the destination, the filters one by
one, the projection, the codec that the projection needs, and the mode.
-/

namespace MessageBridge

/-! ## Environment -/

/-- What compilation sees of a bus: a handle to it and the names of its points. -/
structure BusView where
  /-- The handle of the bus. -/
  bus : Nat
  /-- Its sources. -/
  sources : List String
  /-- Its targets. -/
  targets : List String
deriving DecidableEq, Repr

/-- The buses and registries that a table is compiled against. -/
structure Environment where
  /-- The buses by connector name. -/
  buses : List (String × BusView)
  /-- The filters by name. -/
  filters : FilterRegistry
  /-- The projections by name. -/
  projections : ProjectionRegistry
  /-- The codecs by source. -/
  codecs : CodecRegistry

/-! ## Errors -/

/-- The table entry that an error is about. -/
inductive Owner where
  | route (name : String)
  | group (name : String)
deriving DecidableEq, Repr

/-- The owner in words. -/
def Owner.text : Owner → String
  | route name => "route " ++ Text.quoted name
  | group name => "group receiver " ++ Text.quoted name

/-- A defect of a route table. -/
inductive CompileError where
  | duplicateRoute (name : String)
  | duplicateGroup (name : String)
  | emptyGroup (name : String)
  | invalidDestination (route : String)
  | unknownConnector (owner : Owner) (connector : String)
  | unknownSource (route connector source : String)
  | unknownTarget (owner : Owner) (connector target : String)
  | unknownGroup (route group : String)
  | unknownFilter (route filter : String)
  | unknownProjection (route projection : String)
  | projectionWithoutCodec (route projection : String)
  | invalidMode (route : String) (error : InvalidMode)
deriving DecidableEq, Repr

namespace CompileError

/-- A route in words, for errors. -/
def aboutRoute (name : String) : String := "route " ++ Text.quoted name ++ ": "

/-- The text of a compile error. -/
def message : CompileError → String
  | duplicateRoute name => "duplicate route name " ++ Text.quoted name
  | duplicateGroup name => "duplicate group receiver name " ++ Text.quoted name
  | emptyGroup name => "group receiver " ++ Text.quoted name ++ " has no targets"
  | invalidDestination route =>
    aboutRoute route ++ "exactly one of `to` or `to_group` must be set"
  | unknownConnector owner connector =>
    owner.text ++ ": connector " ++ Text.quoted connector ++ " not found"
  | unknownSource route connector source =>
    aboutRoute route ++ "source " ++ Text.quoted source ++ " not found on connector " ++
      Text.quoted connector
  | unknownTarget owner connector target =>
    owner.text ++ ": target " ++ Text.quoted target ++ " not found on connector " ++
      Text.quoted connector
  | unknownGroup route group =>
    aboutRoute route ++ "group receiver " ++ Text.quoted group ++ " not found"
  | unknownFilter route filter =>
    aboutRoute route ++ "filter " ++ Text.quoted filter ++ " not registered"
  | unknownProjection route projection =>
    aboutRoute route ++ "projection " ++ Text.quoted projection ++ " not registered"
  | projectionWithoutCodec route projection =>
    aboutRoute route ++ "projection " ++ Text.quoted projection ++ " needs a codec for its source"
  | invalidMode route error => aboutRoute route ++ "invalid mode: " ++ error.message

/-- The texts of the causes below the error. -/
def causes : CompileError → List String
  | invalidMode _ error => [error.message]
  | _ => []

/-- The name of an invalid mode as diagnostics show it. -/
def invalidModeName : InvalidMode → String
  | .unbounded => "Unbounded"
  | .zeroTtl => "ZeroTtl"
  | .zeroMaxAttempts => "ZeroMaxAttempts"
  | .persistentWithBounds => "PersistentWithBounds"

/-- The name of an error as diagnostics show it. -/
def label : CompileError → String
  | duplicateRoute _ => "DuplicateRoute"
  | duplicateGroup _ => "DuplicateGroup"
  | emptyGroup _ => "EmptyGroup"
  | invalidDestination _ => "InvalidDestination"
  | unknownConnector _ _ => "UnknownConnector"
  | unknownSource _ _ _ => "UnknownSource"
  | unknownTarget _ _ _ => "UnknownTarget"
  | unknownGroup _ _ => "UnknownGroup"
  | unknownFilter _ _ => "UnknownFilter"
  | unknownProjection _ _ => "UnknownProjection"
  | projectionWithoutCodec _ _ => "ProjectionWithoutCodec"
  | invalidMode _ _ => "InvalidMode"

/-- The owner as diagnostics show it. -/
def describeOwner : Owner → String
  | .route name => "Route(" ++ Text.quoted name ++ ")"
  | .group name => "Group(" ++ Text.quoted name ++ ")"

/-- Named parts between braces, as diagnostics show them. -/
def describeParts (name : String) (parts : List (String × String)) : String :=
  name ++ " \x7b " ++ ", ".intercalate (parts.map fun p ↦ p.1 ++ ": " ++ p.2) ++ " \x7d"

/-- The error as diagnostics show it. -/
def describe (e : CompileError) : String :=
  match e with
  | duplicateRoute name | duplicateGroup name | emptyGroup name =>
    e.label ++ "(" ++ Text.quoted name ++ ")"
  | invalidDestination route => describeParts e.label [("route", Text.quoted route)]
  | unknownConnector owner connector =>
    describeParts e.label [("owner", describeOwner owner), ("connector", Text.quoted connector)]
  | unknownSource route connector source =>
    describeParts e.label [("route", Text.quoted route), ("connector", Text.quoted connector),
      ("source", Text.quoted source)]
  | unknownTarget owner connector target =>
    describeParts e.label [("owner", describeOwner owner), ("connector", Text.quoted connector),
      ("target", Text.quoted target)]
  | unknownGroup route group =>
    describeParts e.label [("route", Text.quoted route), ("group", Text.quoted group)]
  | unknownFilter route filter =>
    describeParts e.label [("route", Text.quoted route), ("filter", Text.quoted filter)]
  | unknownProjection route projection | projectionWithoutCodec route projection =>
    describeParts e.label [("route", Text.quoted route), ("projection", Text.quoted projection)]
  | invalidMode route error =>
    describeParts e.label [("route", Text.quoted route), ("err", invalidModeName error)]

end CompileError

/-! ## Compiled routes -/

/-- A point of a connector, as log lines show it. -/
def pointLabel (connector point : String) : String := connector ++ "/" ++ point

/-- A resolved source. -/
structure Source where
  /-- The bus. -/
  bus : Nat
  /-- The point on it. -/
  point : String
  /-- The label of the point. -/
  label : String
deriving DecidableEq, Repr

/-- A resolved target. -/
structure Destination where
  /-- The bus. -/
  bus : Nat
  /-- The connector. -/
  connector : String
  /-- The point on it. -/
  target : String
  /-- The label of the point. -/
  label : String
deriving DecidableEq, Repr

/-- A route with every name resolved. -/
structure CompiledRoute where
  /-- The name. -/
  name : String
  /-- Where messages come from. -/
  source : Source
  /-- Where every message goes. -/
  destinations : List Destination
  /-- The filters in order. -/
  filters : FilterChain
  /-- The projection. -/
  projection : Option Projection
  /-- The codec of the source. -/
  codec : Option Codec
  /-- What happens when a destination refuses a message. -/
  mode : DeliveryMode

/-- The route as diagnostics show it. -/
def CompiledRoute.describe (r : CompiledRoute) : String :=
  let quotedOption (s : Option String) := DeliveryMode.describeOption (s.map Text.quoted)
  CompileError.describeParts "CompiledRoute"
    [ ("name", Text.quoted r.name),
      ("source", "Source(" ++ Text.quoted r.source.label ++ ")"),
      ("destinations", "[" ++ ", ".intercalate (r.destinations.map fun d ↦
        "Destination(" ++ Text.quoted d.label ++ ")") ++ "]"),
      ("filters", Text.quotedList r.filters.names),
      ("projection", quotedOption (r.projection.map Projection.name)),
      ("codec", quotedOption (r.codec.map Codec.contentType)),
      ("mode", r.mode.describe) ]

/-! ## Compilation -/

namespace Environment

/-- The bus of a connector. -/
def bus? (env : Environment) (owner : Owner) (connector : String) : Except CompileError BusView :=
  match Named.get? connector env.buses with
  | some bus => .ok bus
  | none => .error (.unknownConnector owner connector)

/-- A target point, for a route or a group. -/
def target (env : Environment) (owner : Owner) (p : TargetPoint) :
    Except CompileError Destination :=
  match env.bus? owner p.connector with
  | .error e => .error e
  | .ok bus =>
    if bus.targets.contains p.target then
      .ok ⟨bus.bus, p.connector, p.target, pointLabel p.connector p.target⟩
    else .error (.unknownTarget owner p.connector p.target)

/-- The target points of an owner, in order. -/
def targets (env : Environment) (owner : Owner) :
    List TargetPoint → Except CompileError (List Destination)
  | [] => .ok []
  | p :: rest =>
    match env.target owner p with
    | .error e => .error e
    | .ok d =>
      match env.targets owner rest with
      | .error e => .error e
      | .ok ds => .ok (d :: ds)

/-- The groups of a table, after those already resolved. -/
def groups (env : Environment) (resolved : List (String × List Destination)) :
    List TargetGroup → Except CompileError (List (String × List Destination))
  | [] => .ok resolved
  | g :: rest =>
    if Named.contains g.name resolved then .error (.duplicateGroup g.name)
    else if g.targets.isEmpty then .error (.emptyGroup g.name)
    else
      match env.targets (.group g.name) g.targets with
      | .error e => .error e
      | .ok ds => env.groups (resolved ++ [(g.name, ds)]) rest

/-- The source of a route. -/
def source (env : Environment) (r : RouteSpec) : Except CompileError Source :=
  match env.bus? (.route r.name) r.source.connector with
  | .error e => .error e
  | .ok bus =>
    if bus.sources.contains r.source.source then
      .ok ⟨bus.bus, r.source.source, pointLabel r.source.connector r.source.source⟩
    else .error (.unknownSource r.name r.source.connector r.source.source)

/-- The destinations of a route: its target, or the targets of its group. -/
def destinations (env : Environment) (groups : List (String × List Destination))
    (r : RouteSpec) : Except CompileError (List Destination) :=
  match r.target, r.group with
  | some p, none => (env.target (.route r.name) p).map fun d ↦ [d]
  | none, some g =>
    match Named.get? g groups with
    | some ds => .ok ds
    | none => .error (.unknownGroup r.name g)
  | _, _ => .error (.invalidDestination r.name)

/-- The filters of a route. -/
def chain (env : Environment) (route : String) : List String → Except CompileError FilterChain
  | [] => .ok []
  | name :: rest =>
    match Named.get? name env.filters with
    | none => .error (.unknownFilter route name)
    | some f =>
      match env.chain route rest with
      | .error e => .error e
      | .ok fs => .ok (f :: fs)

/-- The projection of a route, which needs a codec. -/
def projection (env : Environment) (route : String) (codec : Option Codec) :
    Option String → Except CompileError (Option Projection)
  | none => .ok none
  | some name =>
    match Named.get? name env.projections with
    | none => .error (.unknownProjection route name)
    | some p => if codec.isNone then .error (.projectionWithoutCodec route name) else .ok (some p)

end Environment

/-- The delivery mode that a declaration stands for. -/
def ModeSpec.compile (m : ModeSpec) : Except InvalidMode DeliveryMode :=
  match m.kind with
  | .persistent =>
    if m.ttlMs.isSome || m.maxAttempts.isSome then .error .persistentWithBounds
    else .ok .persistent
  | .drop => DeliveryMode.dropping (m.ttlMs.map Duration.ofMillis) m.maxAttempts

namespace Environment

/-- One route, against the groups of its table. -/
def route (env : Environment) (groups : List (String × List Destination)) (r : RouteSpec) :
    Except CompileError CompiledRoute :=
  (env.source r).bind fun source ↦
  (env.destinations groups r).bind fun destinations ↦
  (env.chain r.name r.filters).bind fun filters ↦
  let codec := env.codecs.resolve r.source.source
  (env.projection r.name codec r.projection).bind fun projection ↦
  match r.mode.compile with
  | .error e => .error (.invalidMode r.name e)
  | .ok mode => .ok { name := r.name, source, destinations, filters, projection, codec, mode }

/-- The routes of a table. `seen` holds the names of the routes before. -/
def routes (env : Environment) (groups : List (String × List Destination)) (seen : List String) :
    List RouteSpec → Except CompileError (List CompiledRoute)
  | [] => .ok []
  | r :: rest =>
    if seen.contains r.name then .error (.duplicateRoute r.name)
    else
      match env.route groups r with
      | .error e => .error e
      | .ok compiled =>
        match env.routes groups (r.name :: seen) rest with
        | .error e => .error e
        | .ok more => .ok (compiled :: more)

/-- All routes of a table, or its first defect. -/
def compile (env : Environment) (table : RouteTable) : Except CompileError (List CompiledRoute) :=
  (env.groups [] table.groups).bind fun groups ↦ env.routes groups [] table.routes

end Environment

end MessageBridge
