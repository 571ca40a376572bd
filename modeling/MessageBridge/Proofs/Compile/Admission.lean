import MessageBridge.Proofs.Compile.Checks

/-!
# Which tables compile

A table compiles just when it is free of defects, and its routes then are what it declares, one for
each entry and in the same order. Freedom from defects is stated for the table as a whole, without
an order of checks; that all checks pass says the same, since an entry is new among those before it
for every entry just when all names are distinct.
-/

namespace MessageBridge

/-- A declared mode is persistent and has no bounds, or drops and has some, none of them zero. -/
def ModeSpec.Valid (m : ModeSpec) : Prop :=
  m.kind = .persistent ∧ m.ttlMs = none ∧ m.maxAttempts = none ∨
    m.kind = .drop ∧ (m.ttlMs ≠ none ∨ m.maxAttempts ≠ none) ∧ m.ttlMs ≠ some 0 ∧
      m.maxAttempts ≠ some 0

namespace Environment

open Check

variable {env : Environment}

/-- A route sets exactly one of a target and a group, and the one that it sets is there. -/
def HasDestination (env : Environment) (groups : List TargetGroup) (r : RouteSpec) : Prop :=
  (∃ p, r.target = some p ∧ r.group = none ∧ env.HasTarget p) ∨
    ∃ name, r.target = none ∧ r.group = some name ∧ ∃ g ∈ groups, g.name = name

/-- The parts of a route are all there, and its mode is one. -/
structure Completes (env : Environment) (groups : List TargetGroup) (r : RouteSpec) : Prop where
  source : env.HasSource r.source
  destination : env.HasDestination groups r
  filters : ∀ name ∈ r.filters, name ∈ Named.names env.filters
  projection : ∀ name, r.projection = some name → name ∈ Named.names env.projections
  codec : r.projection ≠ none → env.codecs.resolve r.source.source ≠ none
  mode : r.mode.Valid

/-- A table is free of defects. -/
structure Admits (env : Environment) (table : RouteTable) : Prop where
  /-- The names of groups are distinct, -/
  groups : (table.groups.map TargetGroup.name).Nodup
  /-- no group is empty, -/
  nonempty : ∀ g ∈ table.groups, g.targets ≠ []
  /-- every target of a group is there, -/
  targets : ∀ g ∈ table.groups, ∀ p ∈ g.targets, env.HasTarget p
  /-- the names of routes are distinct, -/
  routes : (table.routes.map RouteSpec.name).Nodup
  /-- and every route is complete. -/
  complete : ∀ r ∈ table.routes, env.Completes table.groups r

/-! ## Distinct names -/

/-- The names of some elements are distinct from each other and from those of earlier elements. -/
def Apart {α : Type} (name : α → String) (earlier rest : List α) : Prop :=
  (rest.map name).Nodup ∧ ∀ x ∈ rest, ∀ other ∈ earlier, name other ≠ name x

theorem apart_nil {α : Type} {name : α → String} {rest : List α} :
    Apart name [] rest ↔ (rest.map name).Nodup := by simp [Apart]

theorem apart_cons {α : Type} {name : α → String} {earlier rest : List α} {x : α} :
    Apart name earlier (x :: rest) ↔
      (∀ other ∈ earlier, name other ≠ name x) ∧ Apart name (earlier ++ [x]) rest := by
  simp only [Apart, List.map_cons, List.nodup_cons, List.mem_map, List.mem_cons,
    List.mem_append, List.not_mem_nil, or_false, or_imp, forall_and, forall_eq]
  constructor
  · rintro ⟨⟨new, distinct⟩, here, others⟩
    exact ⟨here, distinct, others, fun y hy same ↦ new ⟨y, hy, same.symm⟩⟩
  · rintro ⟨here, distinct, others, new⟩
    exact ⟨⟨fun ⟨y, hy, same⟩ ↦ new y hy same.symm, distinct⟩, here, others⟩

/-! ## When all checks pass -/

theorem HasTarget.knows {p : TargetPoint} (has : env.HasTarget p) : env.Knows p.connector :=
  has.imp fun _ found ↦ found.1

theorem HasSource.knows {p : SourcePoint} (has : env.HasSource p) : env.Knows p.connector :=
  has.imp fun _ found ↦ found.1

theorem allPass_targetChecks {owner : Owner} {p : TargetPoint} :
    AllPass (env.targetChecks owner p) ↔ env.HasTarget p := by
  simpa [targetChecks] using HasTarget.knows

theorem allPass_sourceChecks {r : RouteSpec} :
    AllPass (env.sourceChecks r) ↔ env.HasSource r.source := by
  simpa [sourceChecks] using HasSource.knows

theorem allPass_destinationChecks {groups : List TargetGroup} {r : RouteSpec} :
    AllPass (env.destinationChecks groups r) ↔ env.HasDestination groups r := by
  rw [destinationChecks, HasDestination]
  cases r.target <;> cases r.group <;> simp [allPass_targetChecks, eq_comm, and_comm]

theorem allPass_filterChecks {r : RouteSpec} :
    AllPass (env.filterChecks r) ↔ ∀ name ∈ r.filters, name ∈ Named.names env.filters := by
  simp [filterChecks, AllPass]

theorem allPass_projectionChecks {r : RouteSpec} :
    AllPass (env.projectionChecks r) ↔
      (∀ name, r.projection = some name → name ∈ Named.names env.projections) ∧
        (r.projection ≠ none → env.codecs.resolve r.source.source ≠ none) := by
  rw [projectionChecks]
  cases r.projection <;> simp

theorem allPass_modeChecks {r : RouteSpec} : AllPass (modeChecks r) ↔ r.mode.Valid := by
  rw [modeChecks, ModeSpec.Valid]
  cases r.mode.kind <;> simp

theorem allPass_partChecks {groups : List TargetGroup} {r : RouteSpec} :
    AllPass (env.partChecks groups r) ↔ env.Completes groups r := by
  simp only [partChecks, allPass_append, allPass_sourceChecks, allPass_destinationChecks,
    allPass_filterChecks, allPass_projectionChecks, allPass_modeChecks]
  constructor
  · rintro ⟨source, destination, filters, ⟨projection, codec⟩, mode⟩
    exact ⟨source, destination, filters, projection, codec, mode⟩
  · rintro ⟨source, destination, filters, projection, codec, mode⟩
    exact ⟨source, destination, filters, ⟨projection, codec⟩, mode⟩

/-- All entries pass just when their names are distinct and each passes its own checks. -/
theorem allPass_inOrder {α : Type} {check : List α → α → List Check} {name : α → String}
    {own : α → Prop} (each : ∀ earlier x, AllPass (check earlier x) ↔
      (∀ other ∈ earlier, name other ≠ name x) ∧ own x) {earlier xs : List α} :
    AllPass (inOrder check earlier xs) ↔ Apart name earlier xs ∧ ∀ x ∈ xs, own x := by
  induction xs generalizing earlier with
  | nil => simp [inOrder, Apart]
  | cons x rest ih =>
    rw [inOrder, allPass_append, each, ih, apart_cons, List.forall_mem_cons]
    tauto

theorem allPass_groupChecks {earlier : List TargetGroup} {g : TargetGroup} :
    AllPass (env.groupChecks earlier g) ↔ (∀ other ∈ earlier, other.name ≠ g.name) ∧
      g.targets ≠ [] ∧ ∀ p ∈ g.targets, env.HasTarget p := by
  simp only [groupChecks, allPass_cons, allPass_flatMap, allPass_targetChecks]

theorem allPass_routeChecks {groups : List TargetGroup} {earlier : List RouteSpec}
    {r : RouteSpec} :
    AllPass (env.routeChecks groups earlier r) ↔ (∀ other ∈ earlier, other.name ≠ r.name) ∧
      env.Completes groups r := by
  simp only [routeChecks, allPass_cons, allPass_partChecks]

theorem allPass_checks {table : RouteTable} : AllPass (env.checks table) ↔ env.Admits table := by
  rw [checks, allPass_append, allPass_inOrder fun _ _ ↦ allPass_groupChecks,
    allPass_inOrder fun _ _ ↦ allPass_routeChecks, apart_nil, apart_nil]
  constructor
  · rintro ⟨⟨distinct, groups⟩, distinct', complete⟩
    exact ⟨distinct, fun g hg ↦ (groups g hg).1, fun g hg ↦ (groups g hg).2, distinct', complete⟩
  · rintro ⟨distinct, nonempty, targets, distinct', complete⟩
    exact ⟨⟨distinct, fun g hg ↦ ⟨nonempty g hg, targets g hg⟩⟩, distinct', complete⟩

/-! ## Soundness and completeness -/

/-- **A table compiles just when it is free of defects**, and then every entry has become the route
that it declares, in table order. -/
theorem compiles_iff_admits (env : Environment) (table : RouteTable) :
    ((∃ routes, env.compile table = .ok routes) ↔ env.Admits table) ∧
      ∀ routes, env.compile table = .ok routes →
        List.Forall₂ (env.Renders table.groups) table.routes routes := by
  have decided := compile_decides env table
  refine ⟨⟨?_, fun admits ↦ ?_⟩, fun routes compiled ↦ ?_⟩
  · rintro ⟨routes, compiled⟩
    rw [compiled, decide_ok_iff] at decided
    exact allPass_checks.mp decided.1
  · cases compiled : env.compile table with
    | ok routes => exact ⟨routes, rfl⟩
    | error e =>
      rw [compiled, decide_error_iff] at decided
      exact absurd (allPass_checks.mpr admits) decided.not_allPass
  · rw [compiled, decide_ok_iff] at decided
    exact decided.2

/-- A group that names a target twice, and a route to it that filters, projects and may drop. -/
def groupTable : RouteTable where
  routes := [((RouteSpec.toGroup "notes" ⟨"bus", "in"⟩ "all").withMode (.drop (some 5) none)
    |>.withFilters ["recent_1h"]).withProjection "keep_name_age_strict"]
  groups := [⟨"all", [⟨"bus", "a"⟩, ⟨"bus", "b"⟩, ⟨"bus", "a"⟩]⟩]

/-- The route of the table gets every target of its group, in order and as often as it is named. -/
theorem compiles_iff_admits_of_group :
    ofOneBus.Admits groupTable ∧ ∃ routes, ofOneBus.compile groupTable = .ok routes ∧
      List.Forall₂ (ofOneBus.Renders groupTable.groups) groupTable.routes routes ∧
      routes.map (fun c ↦ c.destinations.map Destination.label) =
        [["bus/a", "bus/b", "bus/a"]] := by
  obtain ⟨compiles, renders⟩ := compiles_iff_admits ofOneBus groupTable
  exact ⟨compiles.mp ⟨_, rfl⟩, _, rfl, renders _ rfl, rfl⟩

end Environment

end MessageBridge
