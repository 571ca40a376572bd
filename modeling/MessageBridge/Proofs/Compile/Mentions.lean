import Mathlib.Data.Option.Basic
import MessageBridge.Proofs.Named
import MessageBridge.Route.Compile

/-!
# What compilation looks at

Compilation looks up what a table names, and nothing else: the bus of each connector that it names
and whether that bus has the points named with it, each filter and projection that it names, and the
codec of each source. Environments that agree on these (`Environment.Agree`) compile the table to
the same result, be it routes or an error.

How the registries came to be is therefore of no account. Registries in which no name was used twice
agree on a name if it was given the same entry in both, whenever that was and whatever else was
registered.
-/

namespace MessageBridge

/-- Tables without repetition that have the same entry under a name have the same to find there. -/
theorem Named.get?_congr {α : Type*} {name : String} {entries others : List (String × α)}
    (distinct : Distinct entries) (distinct' : Distinct others)
    (same : ∀ value, (name, value) ∈ entries ↔ (name, value) ∈ others) :
    get? name entries = get? name others :=
  Option.ext fun value ↦ ⟨fun found ↦ get?_of_mem distinct' ((same value).mp (mem_of_get? found)),
    fun found ↦ get?_of_mem distinct ((same value).mpr (mem_of_get? found))⟩

/-! ## What a table names -/

namespace RouteTable

/-- The sources that a table names. -/
def sources (t : RouteTable) : List SourcePoint := t.routes.map RouteSpec.source

/-- The targets that a table names, those of groups that no route uses among them. -/
def targets (t : RouteTable) : List TargetPoint :=
  t.groups.flatMap TargetGroup.targets ++ t.routes.filterMap RouteSpec.target

/-- The connectors that a table names. -/
def connectors (t : RouteTable) : List String :=
  t.sources.map SourcePoint.connector ++ t.targets.map TargetPoint.connector

/-- The filters that a table names. -/
def filters (t : RouteTable) : List String := t.routes.flatMap RouteSpec.filters

/-- The projections that a table names. -/
def projections (t : RouteTable) : List String := t.routes.filterMap RouteSpec.projection

end RouteTable

namespace Environment

/-! ## Agreement -/

/-- Two environments have the same bus for a connector, or none, and of some point on it they say
alike whether it is there. -/
def AgreeAt (connector point : String) (points : BusView → List String) (env env' : Environment) :
    Prop :=
  Option.Rel (fun b b' ↦ b.bus = b'.bus ∧ (point ∈ points b ↔ point ∈ points b'))
    (Named.get? connector env.buses) (Named.get? connector env'.buses)

/-- Two environments agree on all that a table names. -/
structure Agree (table : RouteTable) (env env' : Environment) : Prop where
  sources : ∀ p ∈ table.sources, AgreeAt p.connector p.source BusView.sources env env'
  targets : ∀ p ∈ table.targets, AgreeAt p.connector p.target BusView.targets env env'
  filters : ∀ name ∈ table.filters, Named.get? name env.filters = Named.get? name env'.filters
  projections : ∀ name ∈ table.projections,
    Named.get? name env.projections = Named.get? name env'.projections
  codecs : ∀ p ∈ table.sources, env.codecs.resolve p.source = env'.codecs.resolve p.source

variable {env env' : Environment}

/-! ## Compiling in two environments -/

theorem target_congr {p : TargetPoint}
    (agree : AgreeAt p.connector p.target BusView.targets env env') (owner : Owner) :
    env.target owner p = env'.target owner p := by
  rw [AgreeAt] at agree
  simp only [target, bus?]
  generalize Named.get? _ env.buses = here, Named.get? _ env'.buses = there at agree ⊢
  cases agree with
  | none => rfl
  | some both =>
    obtain ⟨same, has⟩ := both
    simp only [same, List.contains_iff_mem, has]

theorem source_congr {r : RouteSpec}
    (agree : AgreeAt r.source.connector r.source.source BusView.sources env env') :
    env.source r = env'.source r := by
  rw [AgreeAt] at agree
  simp only [source, bus?]
  generalize Named.get? _ env.buses = here, Named.get? _ env'.buses = there at agree ⊢
  cases agree with
  | none => rfl
  | some both =>
    obtain ⟨same, has⟩ := both
    simp only [same, List.contains_iff_mem, has]

theorem targets_congr {owner : Owner} {points : List TargetPoint}
    (same : ∀ p ∈ points, env.target owner p = env'.target owner p) :
    env.targets owner points = env'.targets owner points := by
  induction points with
  | nil => rfl
  | cons p rest ih =>
    obtain ⟨first, others⟩ := List.forall_mem_cons.mp same
    rw [targets, targets, first, ih others]

theorem groups_congr {gs : List TargetGroup}
    (same : ∀ g ∈ gs,
      env.targets (.group g.name) g.targets = env'.targets (.group g.name) g.targets)
    (resolved : List (String × List Destination)) :
    env.groups resolved gs = env'.groups resolved gs := by
  induction gs generalizing resolved with
  | nil => rfl
  | cons g rest ih =>
    obtain ⟨first, others⟩ := List.forall_mem_cons.mp same
    simp only [groups, first, ih others]

theorem chain_congr {names : List String}
    (same : ∀ name ∈ names, Named.get? name env.filters = Named.get? name env'.filters)
    (route : String) : env.chain route names = env'.chain route names := by
  induction names with
  | nil => rfl
  | cons name rest ih =>
    obtain ⟨first, others⟩ := List.forall_mem_cons.mp same
    rw [chain, chain, first, ih others]

theorem projection_congr {name? : Option String}
    (same : ∀ name ∈ name?, Named.get? name env.projections = Named.get? name env'.projections)
    (route : String) (codec : Option Codec) :
    env.projection route codec name? = env'.projection route codec name? := by
  cases name? with
  | none => rfl
  | some name => rw [projection, projection, same name rfl]

/-- The parts of one route look the same in both environments. -/
structure AgreeOn (r : RouteSpec) (env env' : Environment) : Prop where
  source : AgreeAt r.source.connector r.source.source BusView.sources env env'
  target : ∀ p ∈ r.target, AgreeAt p.connector p.target BusView.targets env env'
  filters : ∀ name ∈ r.filters, Named.get? name env.filters = Named.get? name env'.filters
  projection : ∀ name ∈ r.projection,
    Named.get? name env.projections = Named.get? name env'.projections
  codec : env.codecs.resolve r.source.source = env'.codecs.resolve r.source.source

theorem Agree.on {table : RouteTable} (agree : Agree table env env') {r : RouteSpec}
    (mem : r ∈ table.routes) : AgreeOn r env env' := by
  have named : r.source ∈ table.sources := List.mem_map.mpr ⟨r, mem, rfl⟩
  constructor
  · exact agree.sources _ named
  · intro p set
    exact agree.targets p
      (List.mem_append_right _ (List.mem_filterMap.mpr ⟨r, mem, set⟩))
  · exact fun name asked ↦ agree.filters name (List.mem_flatMap.mpr ⟨r, mem, asked⟩)
  · exact fun name set ↦ agree.projections name (List.mem_filterMap.mpr ⟨r, mem, set⟩)
  · exact agree.codecs _ named

theorem destinations_congr {r : RouteSpec} (agree : AgreeOn r env env')
    (resolved : List (String × List Destination)) :
    env.destinations resolved r = env'.destinations resolved r := by
  unfold destinations
  split
  · rename_i p set _
    rw [target_congr (agree.target p set)]
  · rfl
  · rfl

theorem route_congr {r : RouteSpec} (agree : AgreeOn r env env')
    (resolved : List (String × List Destination)) :
    env.route resolved r = env'.route resolved r := by
  unfold route
  rw [source_congr agree.source, destinations_congr agree, chain_congr agree.filters, agree.codec]
  simp only [projection_congr agree.projection]

theorem routes_congr {rs : List RouteSpec} (agree : ∀ r ∈ rs, AgreeOn r env env')
    (resolved : List (String × List Destination)) (seen : List String) :
    env.routes resolved seen rs = env'.routes resolved seen rs := by
  induction rs generalizing seen with
  | nil => rfl
  | cons r rest ih =>
    obtain ⟨first, others⟩ := List.forall_mem_cons.mp agree
    simp only [routes, route_congr first, ih others]

/-- Environments that agree on all that a table names compile it alike. -/
theorem Agree.compile_eq {table : RouteTable} (agree : Agree table env env') :
    env.compile table = env'.compile table := by
  have groups : env.groups [] table.groups = env'.groups [] table.groups := by
    refine groups_congr (fun g mem ↦ targets_congr fun p among ↦ target_congr ?_ _) []
    exact agree.targets p (List.mem_append_left _ (List.mem_flatMap.mpr ⟨g, mem, among⟩))
  rw [compile, compile, groups]
  simp only [routes_congr fun r mem ↦ agree.on mem]

end Environment

/-! ## Registering -/

/-- What is registered, in order. -/
structure Registrations where
  /-- The buses, with the names of their connectors. -/
  buses : List (String × BusView)
  /-- The filters. -/
  filters : List Filter
  /-- The projections. -/
  projections : List Projection
  /-- The codec for sources without one of their own. -/
  fallback : Option Codec
  /-- The codecs of single sources. -/
  codecs : List (String × Codec)

namespace Registrations

/-- The environment after registering one after the other. -/
def environment (r : Registrations) : Environment where
  buses := Named.ofList r.buses
  filters := r.filters.foldl (fun registry f ↦ FilterRegistry.register f registry) []
  projections := r.projections.foldl (fun registry p ↦ ProjectionRegistry.register p registry) []
  codecs := r.codecs.foldl (fun registry c ↦ registry.withSource c.1 c.2) ⟨r.fallback, []⟩

/-- Nothing is registered under a name that was used before. -/
structure Distinct (r : Registrations) : Prop where
  buses : (r.buses.map Prod.fst).Nodup
  filters : (r.filters.map Filter.name).Nodup
  projections : (r.projections.map Projection.name).Nodup
  codecs : (r.codecs.map Prod.fst).Nodup

/-- Under each name that a table mentions the same is registered, at whatever time. -/
structure Alike (table : RouteTable) (r r' : Registrations) : Prop where
  buses : ∀ entry, entry.1 ∈ table.connectors → (entry ∈ r.buses ↔ entry ∈ r'.buses)
  filters : ∀ f, f.name ∈ table.filters → (f ∈ r.filters ↔ f ∈ r'.filters)
  projections : ∀ p, p.name ∈ table.projections → (p ∈ r.projections ↔ p ∈ r'.projections)
  fallback : r.fallback = r'.fallback
  codecs : ∀ entry, entry.1 ∈ table.sources.map SourcePoint.source →
    (entry ∈ r.codecs ↔ entry ∈ r'.codecs)

variable {r r' : Registrations} {table : RouteTable}

/-- Registering under names of their own that are all different leaves the entries as they are. -/
theorem foldl_insert {α : Type} {key : α → String} {xs : List α} (distinct : (xs.map key).Nodup) :
    xs.foldl (fun registry x ↦ Named.insert (key x) x registry) [] = xs.map fun x ↦ (key x, x) := by
  have separate : Named.Distinct (xs.map fun x ↦ (key x, x)) := by
    rwa [Named.Distinct, Named.names, List.map_map]
  rw [← Named.ofList_of_distinct separate, Named.ofList, List.foldl_map]

theorem get?_foldl_insert {α : Type} {key : α → String} {name : String} {xs ys : List α}
    (distinct : (xs.map key).Nodup) (distinct' : (ys.map key).Nodup)
    (same : ∀ x, key x = name → (x ∈ xs ↔ x ∈ ys)) :
    Named.get? name (xs.foldl (fun registry x ↦ Named.insert (key x) x registry) []) =
      Named.get? name (ys.foldl (fun registry x ↦ Named.insert (key x) x registry) []) := by
  rw [foldl_insert distinct, foldl_insert distinct']
  refine Named.get?_congr ?_ ?_ fun value ↦ ?_
  · rwa [Named.Distinct, Named.names, List.map_map]
  · rwa [Named.Distinct, Named.names, List.map_map]
  · simp only [List.mem_map, Prod.mk.injEq, exists_eq_right_right]
    exact and_congr_left (same value)

theorem codecs_environment (r : Registrations) :
    r.environment.codecs = ⟨r.fallback, Named.ofList r.codecs⟩ := by
  change r.codecs.foldl (fun registry c ↦ CodecRegistry.withSource c.1 c.2 registry)
    (⟨r.fallback, []⟩ : CodecRegistry) = ⟨r.fallback, Named.ofList r.codecs⟩
  rw [Named.ofList]
  generalize ([] : List (String × Codec)) = table
  induction r.codecs generalizing table with
  | nil => rfl
  | cons entry rest ih => exact ih _

/-- What is the same under the names of a table makes environments that agree on it. -/
theorem Alike.agree (alike : Alike table r r') (distinct : r.Distinct) (distinct' : r'.Distinct) :
    Environment.Agree table r.environment r'.environment := by
  have buses {connector : String} (named : connector ∈ table.connectors) (point : String)
      (points : BusView → List String) :
      Environment.AgreeAt connector point points r.environment r'.environment := by
    have same : Named.get? connector r.environment.buses =
        Named.get? connector r'.environment.buses := by
      simp only [environment, Named.ofList_of_distinct distinct.buses,
        Named.ofList_of_distinct distinct'.buses]
      exact Named.get?_congr distinct.buses distinct'.buses fun v ↦ alike.buses (_, v) named
    rw [Environment.AgreeAt, same]
    cases Named.get? connector r'.environment.buses with
    | none => exact .none
    | some b => exact .some ⟨rfl, .rfl⟩
  constructor
  · exact fun p mem ↦ buses (List.mem_append_left _ (List.mem_map.mpr ⟨p, mem, rfl⟩)) _ _
  · exact fun p mem ↦ buses (List.mem_append_right _ (List.mem_map.mpr ⟨p, mem, rfl⟩)) _ _
  · intro name mem
    exact get?_foldl_insert distinct.filters distinct'.filters
      fun f named ↦ alike.filters f (named ▸ mem)
  · intro name mem
    exact get?_foldl_insert distinct.projections distinct'.projections
      fun p named ↦ alike.projections p (named ▸ mem)
  · intro p mem
    have same : Named.get? p.source r.codecs = Named.get? p.source r'.codecs :=
      Named.get?_congr distinct.codecs distinct'.codecs
        fun v ↦ alike.codecs (_, v) (List.mem_map.mpr ⟨p, mem, rfl⟩)
    simp only [codecs_environment, CodecRegistry.resolve, alike.fallback, same,
      Named.ofList_of_distinct distinct.codecs, Named.ofList_of_distinct distinct'.codecs]

end Registrations

/-! ## The result -/

namespace RouteTable

/-- **Compilation depends only on what a table names**: on the lookups of these names, hence neither
on the order in which different names were registered nor on what else was. -/
theorem compiled_by_mention (table : RouteTable) :
    (∀ env env' : Environment, Environment.Agree table env env' →
      env.compile table = env'.compile table) ∧
    ∀ r r' : Registrations, r.Distinct → r'.Distinct → Registrations.Alike table r r' →
      r.environment.compile table = r'.environment.compile table :=
  ⟨fun _ _ agree ↦ agree.compile_eq, fun _ _ distinct distinct' alike ↦
    (alike.agree distinct distinct').compile_eq⟩

/-- A route from one point to another, asked about by one filter. -/
def mentioning : RouteTable :=
  ⟨[(RouteSpec.direct "r" ⟨"a", "in"⟩ ⟨"b", "out"⟩).withFilters ["recent_1h"]], []⟩

/-- What that table names and a filter that it does not name, -/
def registered : Registrations where
  buses := [("a", ⟨0, ["in"], []⟩), ("b", ⟨1, [], ["out"]⟩)]
  filters := [.recent, .sizeLimit]
  projections := []
  fallback := none
  codecs := [("in", (Schema.ofName "s" []).codec)]

/-- the same in another order, with a bus, a filter and a codec more. -/
def reordered : Registrations where
  buses := [("c", ⟨2, ["in"], ["out"]⟩), ("b", ⟨1, [], ["out"]⟩), ("a", ⟨0, ["in"], []⟩)]
  filters := [.basicUser, .recent]
  projections := []
  fallback := none
  codecs := [("other", (Schema.ofName "t" []).codec), ("in", (Schema.ofName "s" []).codec)]

/-- and the first with points that it does not name on its buses. -/
def widened : Environment :=
  { registered.environment with
    buses := [("b", ⟨1, ["in"], ["more", "out"]⟩), ("a", ⟨0, ["more", "in"], ["out"]⟩)] }

theorem compiled_by_mention_of_reordered :
    (Environment.Agree mentioning registered.environment widened ∧
      registered.environment.compile mentioning = widened.compile mentioning) ∧
    Registrations.Alike mentioning registered reordered ∧
      registered.environment.compile mentioning = reordered.environment.compile mentioning ∧
      ∃ routes, registered.environment.compile mentioning = .ok routes := by
  have agree : Environment.Agree mentioning registered.environment widened := by
    constructor
    · intro p mem
      obtain rfl := List.mem_singleton.mp mem
      exact .some ⟨rfl, by decide⟩
    · intro p mem
      obtain rfl := List.mem_singleton.mp mem
      exact .some ⟨rfl, by decide⟩
    · exact fun _ _ ↦ rfl
    · exact fun _ _ ↦ rfl
    · exact fun _ _ ↦ rfl
  have alike : Registrations.Alike mentioning registered reordered := by
    constructor
    · rintro ⟨connector, bus⟩ named
      replace named : connector ∈ ["a", "b"] := named
      simp only [registered, reordered, List.mem_cons, Prod.mk.injEq] at named ⊢
      grind
    · intro f named
      obtain same := List.mem_singleton.mp named
      have others : f ≠ .sizeLimit ∧ f ≠ .basicUser :=
        ⟨fun other ↦ absurd (other ▸ same) (by decide),
          fun other ↦ absurd (other ▸ same) (by decide)⟩
      simp [registered, reordered, others]
    · exact nofun
    · rfl
    · rintro ⟨source, codec⟩ named
      replace named : source ∈ ["in"] := named
      obtain rfl := List.mem_singleton.mp named
      simp [registered, reordered]
  have distinct : registered.Distinct := ⟨by decide, by decide, by decide, by decide⟩
  have distinct' : reordered.Distinct := ⟨by decide, by decide, by decide, by decide⟩
  exact ⟨⟨agree, (compiled_by_mention mentioning).1 _ _ agree⟩, alike,
    (compiled_by_mention mentioning).2 _ _ distinct distinct' alike, _, rfl⟩

end RouteTable

end MessageBridge
