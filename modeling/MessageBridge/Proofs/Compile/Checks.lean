import Mathlib.Data.List.Forall2
import MessageBridge.Proofs.Named
import MessageBridge.Route.Compile

/-!
# The checks of compilation

Compilation makes checks one after the other and stops at the first that fails. This module says
what is checked, in which order and with which error, by listing the checks of a table; nothing in
the lists refers to how compilation goes about them. Every function of the compiler is then given
one statement: it decides its own part of the list, and if all of that passes, its result is the
one that the names stand for.

An entry is checked against the entries before it, so the lists carry those along.
-/

namespace MessageBridge

/-- The table entry that an error names. -/
def CompileError.owner : CompileError → Owner
  | duplicateGroup name | emptyGroup name => .group name
  | unknownConnector owner _ | unknownTarget owner _ _ => owner
  | duplicateRoute route | invalidDestination route | unknownSource route _ _
  | unknownGroup route _ | unknownFilter route _ | unknownProjection route _
  | projectionWithoutCodec route _ | invalidMode route _ => .route route

/-! ## Lists of checks -/

/-- A condition, and the error if it does not hold. -/
structure Check where
  /-- The condition. -/
  passes : Prop
  /-- The error. -/
  error : CompileError

namespace Check

/-- All checks pass. -/
def AllPass (checks : List Check) : Prop := ∀ c ∈ checks, c.passes

/-- All checks before some check pass, that one fails, and the error is its own. -/
def FirstFails (checks : List Check) (e : CompileError) : Prop :=
  ∃ before c after, checks = before ++ c :: after ∧ AllPass before ∧ ¬c.passes ∧ c.error = e

/-- The checks of entries in order, each made against the entries before it. -/
def inOrder {α : Type} (check : List α → α → List Check) (earlier : List α) : List α → List Check
  | [] => []
  | x :: rest => check earlier x ++ inOrder check (earlier ++ [x]) rest

variable {checks more : List Check} {c : Check} {e : CompileError}

@[simp] theorem allPass_nil : AllPass [] := by simp [AllPass]

@[simp] theorem allPass_cons : AllPass (c :: checks) ↔ c.passes ∧ AllPass checks := by
  simp [AllPass]

@[simp] theorem allPass_append : AllPass (checks ++ more) ↔ AllPass checks ∧ AllPass more := by
  simp [AllPass, or_imp, forall_and]

theorem allPass_flatMap {α : Type} {f : α → List Check} {xs : List α} :
    AllPass (xs.flatMap f) ↔ ∀ x ∈ xs, AllPass (f x) := by
  simp only [AllPass, List.mem_flatMap]
  constructor
  · intro h x hx c hc
    exact h c ⟨x, hx, hc⟩
  · rintro h c ⟨x, hx, hc⟩
    exact h x hx c hc

theorem firstFails_of_head (fails : ¬c.passes) : FirstFails (c :: checks) c.error :=
  ⟨[], c, checks, rfl, allPass_nil, fails, rfl⟩

theorem FirstFails.append_right (fails : FirstFails checks e) (more : List Check) :
    FirstFails (checks ++ more) e := by
  obtain ⟨before, c, after, rfl, pass, fails, named⟩ := fails
  exact ⟨before, c, after ++ more, by simp, pass, fails, named⟩

theorem FirstFails.append_left (pass : AllPass checks) (fails : FirstFails more e) :
    FirstFails (checks ++ more) e := by
  obtain ⟨before, c, after, rfl, others, fails, named⟩ := fails
  exact ⟨checks ++ before, c, after, by simp, allPass_append.mpr ⟨pass, others⟩, fails, named⟩

theorem FirstFails.cons (fails : FirstFails checks e) (pass : c.passes) :
    FirstFails (c :: checks) e := by
  obtain ⟨before, d, after, rfl, others, fails, named⟩ := fails
  exact ⟨c :: before, d, after, rfl, allPass_cons.mpr ⟨pass, others⟩, fails, named⟩

theorem FirstFails.not_allPass (fails : FirstFails checks e) : ¬AllPass checks := by
  obtain ⟨before, c, after, rfl, -, fails, -⟩ := fails
  intro pass
  exact fails (pass c (by simp))

/-- The first check that fails is one of those it is looked for in. -/
theorem FirstFails.mem (fails : FirstFails checks e) : ∃ c ∈ checks, ¬c.passes ∧ c.error = e := by
  obtain ⟨before, c, after, rfl, -, fails, named⟩ := fails
  exact ⟨c, by simp, fails, named⟩

theorem firstFails_append :
    FirstFails (checks ++ more) e ↔ FirstFails checks e ∨ AllPass checks ∧ FirstFails more e := by
  constructor
  · rintro ⟨before, c, after, split, pass, fails, named⟩
    obtain ⟨rest, rfl, rfl⟩ | ⟨rest, rfl, here⟩ := List.append_eq_append_iff.mp split
    · exact .inr ⟨fun b hb ↦ pass b (List.mem_append_left _ hb), rest, c, after, rfl,
        fun b hb ↦ pass b (List.mem_append_right _ hb), fails, named⟩
    · cases rest with
      | nil =>
        -- the check that fails is the first of `more`
        rw [List.nil_append] at here
        subst here
        rw [List.append_nil]
        exact .inr ⟨pass, [], c, after, rfl, allPass_nil, fails, named⟩
      | cons d rest =>
        obtain ⟨rfl, rfl⟩ := List.cons_eq_cons.mp here
        exact .inl ⟨before, c, rest, rfl, pass, fails, named⟩
  · rintro (fails | ⟨pass, fails⟩)
    · exact fails.append_right more
    · exact fails.append_left pass

theorem firstFails_cons :
    FirstFails (c :: checks) e ↔
      ¬c.passes ∧ c.error = e ∨ c.passes ∧ FirstFails checks e := by
  constructor
  · rintro ⟨_ | ⟨b, before⟩, d, after, split, pass, fails, named⟩
    · obtain ⟨rfl, rfl⟩ := List.cons_eq_cons.mp split
      exact .inl ⟨fails, named⟩
    · obtain ⟨rfl, rfl⟩ := List.cons_eq_cons.mp split
      obtain ⟨first, others⟩ := allPass_cons.mp pass
      exact .inr ⟨first, before, d, after, rfl, others, fails, named⟩
  · rintro (⟨fails, rfl⟩ | ⟨pass, fails⟩)
    · exact firstFails_of_head fails
    · exact fails.cons pass

/-- There is one first check that fails. -/
theorem FirstFails.unique {e' : CompileError} (fails : FirstFails checks e)
    (fails' : FirstFails checks e') : e = e' := by
  induction checks with
  | nil =>
    obtain ⟨c, hc, -⟩ := fails.mem
    cases hc
  | cons c checks ih =>
    obtain ⟨here, rfl⟩ | ⟨pass, fails⟩ := firstFails_cons.mp fails <;>
      obtain ⟨here', rfl⟩ | ⟨pass', fails'⟩ := firstFails_cons.mp fails'
    · rfl
    · exact absurd pass' here
    · exact absurd pass here'
    · exact ih fails fails'

section InOrder

variable {α : Type} {check : List α → α → List Check} {earlier xs ys : List α}

theorem inOrder_append :
    inOrder check earlier (xs ++ ys) =
      inOrder check earlier xs ++ inOrder check (earlier ++ xs) ys := by
  induction xs generalizing earlier with
  | nil => simp [inOrder]
  | cons x xs ih => simp [inOrder, ih]

/-- The first check that fails is made for some entry, and all entries before it pass. -/
theorem FirstFails.entry (fails : FirstFails (inOrder check earlier xs) e) :
    ∃ before x after, xs = before ++ x :: after ∧ AllPass (inOrder check earlier before) ∧
      FirstFails (check (earlier ++ before) x) e := by
  induction xs generalizing earlier with
  | nil =>
    obtain ⟨c, hc, -⟩ := fails.mem
    cases hc
  | cons x rest ih =>
    rw [inOrder] at fails
    obtain here | ⟨pass, fails⟩ := firstFails_append.mp fails
    · exact ⟨[], x, rest, rfl, allPass_nil, by simpa using here⟩
    · obtain ⟨before, y, after, rfl, others, fails⟩ := ih fails
      refine ⟨x :: before, y, after, rfl, ?_, by simpa using fails⟩
      rw [inOrder]
      exact allPass_append.mpr ⟨pass, others⟩

/-- What fails for an entry fails whatever comes after it. -/
theorem FirstFails.of_entry {x : α} (pass : AllPass (inOrder check earlier xs))
    (fails : FirstFails (check (earlier ++ xs) x) e) (after : List α) :
    FirstFails (inOrder check earlier (xs ++ x :: after)) e := by
  rw [inOrder_append, inOrder]
  exact (fails.append_right _).append_left pass

end InOrder

/-- A result that checks decide: the error of the first that fails, or else something that has a
property. -/
inductive Decide {α : Type} (checks : List Check) (P : α → Prop) :
    Except CompileError α → Prop where
  | ok {a : α} (pass : AllPass checks) (holds : P a) : Decide checks P (.ok a)
  | error {e : CompileError} (fails : FirstFails checks e) : Decide checks P (.error e)

section Decide

variable {α β : Type} {P Q : α → Prop} {R : β → Prop} {x : Except CompileError α} {a : α}

theorem decide_ok_iff : Decide checks P (.ok a) ↔ AllPass checks ∧ P a :=
  ⟨fun | .ok pass holds => ⟨pass, holds⟩, fun ⟨pass, holds⟩ ↦ .ok pass holds⟩

theorem decide_error_iff :
    Decide checks P (.error e : Except CompileError α) ↔ FirstFails checks e :=
  ⟨fun | .error fails => fails, .error⟩

/-- Checks are made in two parts, the second with the result of the first. -/
theorem Decide.bind {f : α → Except CompileError β} (first : Decide checks P x)
    (second : ∀ a, P a → Decide more R (f a)) : Decide (checks ++ more) R (x.bind f) := by
  cases first with
  | error fails => exact .error (fails.append_right more)
  | @ok a pass holds =>
    show Decide (checks ++ more) R (f a)
    cases h : f a with
    | error e => exact .error ((decide_error_iff.mp (h ▸ second a holds)).append_left pass)
    | ok b =>
      obtain ⟨others, made⟩ := decide_ok_iff.mp (h ▸ second a holds)
      exact .ok (allPass_append.mpr ⟨pass, others⟩) made

theorem Decide.map {g : α → β} (decided : Decide checks P x) (made : ∀ a, P a → R (g a)) :
    Decide checks R (x.map g) := by
  cases decided with
  | error fails => exact .error fails
  | ok pass holds => exact .ok pass (made _ holds)

theorem Decide.congr {y : Except CompileError α} (same : y = x) (decided : Decide checks P x) :
    Decide checks P y := same ▸ decided

/-- One more check that passes. -/
theorem Decide.cons (decided : Decide checks P x) (pass : c.passes) :
    Decide (c :: checks) P x := by
  cases decided with
  | error fails => exact .error (fails.cons pass)
  | ok others holds => exact .ok (allPass_cons.mpr ⟨pass, others⟩) holds

end Decide

end Check

/-! ## The checks of a table -/

namespace Environment

open Check (inOrder)

/-- Some bus belongs to the connector. -/
def Knows (env : Environment) (connector : String) : Prop :=
  ∃ bus, Named.get? connector env.buses = some bus

/-- Some bus belongs to the connector of the point, and has it as a source. -/
def HasSource (env : Environment) (p : SourcePoint) : Prop :=
  ∃ bus, Named.get? p.connector env.buses = some bus ∧ p.source ∈ bus.sources

/-- Some bus belongs to the connector of the point, and has it as a target. -/
def HasTarget (env : Environment) (p : TargetPoint) : Prop :=
  ∃ bus, Named.get? p.connector env.buses = some bus ∧ p.target ∈ bus.targets

/-- A target point: the connector, then the point. -/
def targetChecks (env : Environment) (owner : Owner) (p : TargetPoint) : List Check :=
  [⟨env.Knows p.connector, .unknownConnector owner p.connector⟩,
    ⟨env.HasTarget p, .unknownTarget owner p.connector p.target⟩]

/-- The source of a route: the connector, then the point. -/
def sourceChecks (env : Environment) (r : RouteSpec) : List Check :=
  [⟨env.Knows r.source.connector, .unknownConnector (.route r.name) r.source.connector⟩,
    ⟨env.HasSource r.source, .unknownSource r.name r.source.connector r.source.source⟩]

/-- A group: its name among those before it, whether it is empty, then its targets in order. -/
def groupChecks (env : Environment) (earlier : List TargetGroup) (g : TargetGroup) : List Check :=
  ⟨∀ other ∈ earlier, other.name ≠ g.name, .duplicateGroup g.name⟩ ::
    ⟨g.targets ≠ [], .emptyGroup g.name⟩ ::
      g.targets.flatMap (env.targetChecks (.group g.name))

/-- The destination of a route: exactly one of a target and a group is set, and is there. -/
def destinationChecks (env : Environment) (groups : List TargetGroup) (r : RouteSpec) :
    List Check :=
  match r.target, r.group with
  | some p, none => env.targetChecks (.route r.name) p
  | none, some name => [⟨∃ g ∈ groups, g.name = name, .unknownGroup r.name name⟩]
  | _, _ => [⟨False, .invalidDestination r.name⟩]

/-- The filters of a route, in order. -/
def filterChecks (env : Environment) (r : RouteSpec) : List Check :=
  r.filters.map fun name ↦ ⟨name ∈ Named.names env.filters, .unknownFilter r.name name⟩

/-- The projection of a route, and the codec that it needs. -/
def projectionChecks (env : Environment) (r : RouteSpec) : List Check :=
  match r.projection with
  | none => []
  | some name =>
    [⟨name ∈ Named.names env.projections, .unknownProjection r.name name⟩,
      ⟨env.codecs.resolve r.source.source ≠ none, .projectionWithoutCodec r.name name⟩]

/-- The mode of a route. -/
def modeChecks (r : RouteSpec) : List Check :=
  match r.mode.kind with
  | .persistent =>
    [⟨r.mode.ttlMs = none ∧ r.mode.maxAttempts = none, .invalidMode r.name .persistentWithBounds⟩]
  | .drop =>
    [⟨r.mode.ttlMs ≠ none ∨ r.mode.maxAttempts ≠ none, .invalidMode r.name .unbounded⟩,
      ⟨r.mode.ttlMs ≠ some 0, .invalidMode r.name .zeroTtl⟩,
      ⟨r.mode.maxAttempts ≠ some 0, .invalidMode r.name .zeroMaxAttempts⟩]

/-- The parts of a route one by one, its own name left out. -/
def partChecks (env : Environment) (groups : List TargetGroup) (r : RouteSpec) : List Check :=
  env.sourceChecks r ++ (env.destinationChecks groups r ++
    (env.filterChecks r ++ (env.projectionChecks r ++ modeChecks r)))

/-- A route: its name among those before it, then its parts. -/
def routeChecks (env : Environment) (groups : List TargetGroup) (earlier : List RouteSpec)
    (r : RouteSpec) : List Check :=
  ⟨∀ other ∈ earlier, other.name ≠ r.name, .duplicateRoute r.name⟩ :: env.partChecks groups r

/-- All checks of a table: first its groups, then its routes. -/
def checks (env : Environment) (table : RouteTable) : List Check :=
  inOrder env.groupChecks [] table.groups ++ inOrder (env.routeChecks table.groups) [] table.routes

/-! ## What a table stands for -/

/-- A destination is what a target point stands for. -/
def Leads (env : Environment) (p : TargetPoint) (d : Destination) : Prop :=
  ∃ bus, Named.get? p.connector env.buses = some bus ∧
    d = ⟨bus.bus, p.connector, p.target, p.connector ++ "/" ++ p.target⟩

/-- A source is what a source point stands for. -/
def Comes (env : Environment) (p : SourcePoint) (s : Source) : Prop :=
  ∃ bus, Named.get? p.connector env.buses = some bus ∧
    s = ⟨bus.bus, p.source, p.connector ++ "/" ++ p.source⟩

/-- A resolved group is what a declared one stands for: its targets in order. -/
def Gathers (env : Environment) (g : TargetGroup) (resolved : String × List Destination) : Prop :=
  resolved.1 = g.name ∧ List.Forall₂ env.Leads g.targets resolved.2

/-- The destinations of a route are what its target stands for, or what the targets of its group
stand for, in order. -/
def Reaches (env : Environment) (groups : List TargetGroup) (r : RouteSpec)
    (destinations : List Destination) : Prop :=
  (∃ p, r.target = some p ∧ r.group = none ∧ List.Forall₂ env.Leads [p] destinations) ∨
    ∃ g ∈ groups, r.target = none ∧ r.group = some g.name ∧
      List.Forall₂ env.Leads g.targets destinations

/-- The delivery mode that a declaration stands for. -/
def modeMeaning (m : ModeSpec) : DeliveryMode :=
  match m.kind with
  | .persistent => .persistent
  | .drop => .drop ⟨m.ttlMs.map Duration.ofMillis, m.maxAttempts⟩

/-- A compiled route is what a declared one stands for. -/
structure Renders (env : Environment) (groups : List TargetGroup) (r : RouteSpec)
    (c : CompiledRoute) : Prop where
  name : c.name = r.name
  source : env.Comes r.source c.source
  destinations : env.Reaches groups r c.destinations
  filters : List.Forall₂ (fun name f ↦ Named.get? name env.filters = some f) r.filters c.filters
  projection : Option.Rel (fun name p ↦ Named.get? name env.projections = some p) r.projection
    c.projection
  codec : c.codec = env.codecs.resolve r.source.source
  mode : c.mode = modeMeaning r.mode

end Environment

/-! ## What each function decides -/

namespace Environment

open Check

variable {env : Environment} {groups earlier : List TargetGroup} {r : RouteSpec}
  {resolved : List (String × List Destination)}

/-- A point is looked up on the bus of its connector. -/
theorem point_decides {α : Type} (owner : Owner) (missing : CompileError)
    (connector point : String) (points : BusView → List String) (made : BusView → α) :
    Decide [⟨env.Knows connector, .unknownConnector owner connector⟩,
        ⟨∃ bus, Named.get? connector env.buses = some bus ∧ point ∈ points bus, missing⟩]
      (fun a ↦ ∃ bus, Named.get? connector env.buses = some bus ∧ a = made bus)
      (match env.bus? owner connector with
        | .error e => .error e
        | .ok bus => if (points bus).contains point then .ok (made bus) else .error missing) := by
  rw [bus?]
  cases found : Named.get? connector env.buses with
  | none =>
    refine .error (firstFails_of_head ?_)
    rintro ⟨bus, same⟩
    rw [found] at same
    cases same
  | some bus =>
    refine Decide.cons ?_ ⟨bus, found⟩
    by_cases has : point ∈ points bus
    · dsimp only
      rw [if_pos (List.contains_iff_mem.mpr has)]
      exact .ok (by simpa using has) ⟨bus, rfl, rfl⟩
    · dsimp only
      rw [if_neg fun yes ↦ has (List.contains_iff_mem.mp yes)]
      refine .error (firstFails_of_head ?_)
      rintro ⟨other, same, has'⟩
      cases same
      exact has has'

theorem target_decides (owner : Owner) (p : TargetPoint) :
    Decide (env.targetChecks owner p) (env.Leads p) (env.target owner p) :=
  point_decides owner _ p.connector p.target BusView.targets _

theorem source_decides (r : RouteSpec) :
    Decide (env.sourceChecks r) (env.Comes r.source) (env.source r) :=
  point_decides _ _ r.source.connector r.source.source BusView.sources _

theorem targets_decides (owner : Owner) (points : List TargetPoint) :
    Decide (points.flatMap (env.targetChecks owner)) (List.Forall₂ env.Leads points)
      (env.targets owner points) := by
  induction points with
  | nil => exact .ok allPass_nil .nil
  | cons p rest ih =>
    rw [List.flatMap_cons, targets]
    refine .congr (x := (env.target owner p).bind fun d ↦ (env.targets owner rest).map (d :: ·))
      (by cases env.target owner p <;> cases env.targets owner rest <;> rfl) ?_
    exact (target_decides owner p).bind fun d leads ↦ ih.map fun ds others ↦ .cons leads others

/-- What is found under a name is what a group of that name stands for. -/
theorem group_of_get? (gathered : List.Forall₂ env.Gathers earlier resolved) {name : String}
    {ds : List Destination} (found : Named.get? name resolved = some ds) :
    ∃ g ∈ earlier, g.name = name ∧ List.Forall₂ env.Leads g.targets ds := by
  induction gathered with
  | nil => cases found
  | @cons g entry gs entries here _ ih =>
    obtain ⟨same, leads⟩ := here
    rw [Named.get?] at found
    split at found
    · rename_i this
      cases found
      exact ⟨g, List.mem_cons_self, same.symm.trans this, leads⟩
    · obtain ⟨g', among, rest⟩ := ih found
      exact ⟨g', List.mem_cons_of_mem _ among, rest⟩

theorem name_ne_of_get? (gathered : List.Forall₂ env.Gathers earlier resolved) {name : String}
    (none_found : Named.get? name resolved = none) : ∀ g ∈ earlier, g.name ≠ name := by
  induction gathered with
  | nil => exact fun g hg ↦ (nomatch hg)
  | @cons g entry gs entries here _ ih =>
    rw [Named.get?] at none_found
    split at none_found
    · cases none_found
    · rename_i other
      intro g' among
      rcases List.mem_cons.mp among with rfl | among
      · exact fun same ↦ other (here.1.trans same)
      · exact ih none_found g' among

theorem groups_decides (gathered : List.Forall₂ env.Gathers earlier resolved)
    (gs : List TargetGroup) :
    Decide (inOrder env.groupChecks earlier gs) (List.Forall₂ env.Gathers (earlier ++ gs))
      (env.groups resolved gs) := by
  induction gs generalizing earlier resolved with
  | nil => exact .ok allPass_nil (by simpa using gathered)
  | cons g rest ih =>
    rw [inOrder, Environment.groups, groupChecks, Named.contains]
    cases taken : Named.get? g.name resolved with
    | some ds =>
      obtain ⟨other, among, same, -⟩ := group_of_get? gathered taken
      exact .error (firstFails_of_head fun fresh ↦ fresh other among same)
    | none =>
      refine Decide.cons ?_ (name_ne_of_get? gathered taken)
      by_cases empty : g.targets = []
      · rw [if_neg (by simp), if_pos (by simp [empty])]
        exact .error (firstFails_of_head fun full ↦ full empty)
      · rw [if_neg (by simp), if_neg (by simpa using empty)]
        refine Decide.cons ?_ empty
        refine .congr (x := (env.targets (.group g.name) g.targets).bind fun ds ↦
          env.groups (resolved ++ [(g.name, ds)]) rest)
          (by cases env.targets (.group g.name) g.targets <;> rfl) ?_
        refine (targets_decides _ g.targets).bind fun ds leads ↦ ?_
        have longer : List.Forall₂ env.Gathers (earlier ++ [g]) (resolved ++ [(g.name, ds)]) :=
          List.rel_append gathered (.cons ⟨rfl, leads⟩ .nil)
        simpa using ih longer

theorem destinations_decides (gathered : List.Forall₂ env.Gathers groups resolved)
    (r : RouteSpec) :
    Decide (env.destinationChecks groups r) (env.Reaches groups r)
      (env.destinations resolved r) := by
  rw [destinationChecks, destinations]
  cases direct : r.target with
  | some p =>
    cases toGroup : r.group with
    | none =>
      exact (target_decides _ p).map fun d leads ↦ .inl ⟨p, direct, toGroup, .cons leads .nil⟩
    | some name => exact .error (firstFails_of_head id)
  | none =>
    cases toGroup : r.group with
    | none => exact .error (firstFails_of_head id)
    | some name =>
      dsimp only
      cases found : Named.get? name resolved with
      | none =>
        refine .error (firstFails_of_head ?_)
        rintro ⟨g, among, same⟩
        exact name_ne_of_get? gathered found g among same
      | some ds =>
        obtain ⟨g, among, same, leads⟩ := group_of_get? gathered found
        refine .ok (by simpa using ⟨g, among, same⟩) (.inr ⟨g, among, direct, ?_, leads⟩)
        rw [toGroup, same]

theorem chain_decides (route : String) (names : List String) :
    Decide (names.map fun name ↦ ⟨name ∈ Named.names env.filters, .unknownFilter route name⟩)
      (List.Forall₂ (fun name f ↦ Named.get? name env.filters = some f) names)
      (env.chain route names) := by
  induction names with
  | nil => exact .ok allPass_nil .nil
  | cons name rest ih =>
    rw [List.map_cons, chain]
    cases found : Named.get? name env.filters with
    | none =>
      refine .error (firstFails_of_head fun there ↦ ?_)
      obtain ⟨f, same⟩ := Named.mem_names_iff.mp there
      rw [found] at same
      cases same
    | some f =>
      refine Decide.cons ?_ (Named.mem_names_iff.mpr ⟨f, found⟩)
      refine .congr (x := (env.chain route rest).map (f :: ·))
        (by cases env.chain route rest <;> rfl) ?_
      exact ih.map fun fs others ↦ .cons found others

theorem projection_decides (r : RouteSpec) :
    Decide (env.projectionChecks r)
      (Option.Rel (fun name p ↦ Named.get? name env.projections = some p) r.projection)
      (env.projection r.name (env.codecs.resolve r.source.source) r.projection) := by
  rw [projectionChecks]
  cases r.projection with
  | none => exact .ok allPass_nil .none
  | some name =>
    rw [projection]
    cases found : Named.get? name env.projections with
    | none =>
      refine .error (firstFails_of_head fun there ↦ ?_)
      obtain ⟨p, same⟩ := Named.mem_names_iff.mp there
      rw [found] at same
      cases same
    | some p =>
      refine Decide.cons ?_ (Named.mem_names_iff.mpr ⟨p, found⟩)
      cases env.codecs.resolve r.source.source with
      | none => exact .error (firstFails_of_head fun there ↦ there rfl)
      | some codec => exact .ok (by simp) (.some found)

theorem mode_decides (r : RouteSpec) :
    Decide (modeChecks r) (· = modeMeaning r.mode)
      (r.mode.compile.mapError (.invalidMode r.name)) := by
  rw [modeChecks, modeMeaning, ModeSpec.compile]
  cases r.mode.kind with
  | persistent =>
    by_cases bounded : r.mode.ttlMs = none ∧ r.mode.maxAttempts = none
    · rw [if_neg (by simp [bounded])]
      exact .ok (by simp [bounded]) rfl
    · rw [if_pos (by simpa [Option.isSome_iff_ne_none, or_iff_not_imp_left] using bounded)]
      exact .error (firstFails_of_head bounded)
  | drop =>
    dsimp only
    cases ttl : r.mode.ttlMs with
    | none =>
      cases attempts : r.mode.maxAttempts with
      | none => exact .error (firstFails_of_head (by simp))
      | some n =>
        refine (Decide.cons ?_ (by simp)).cons (by simp)
        by_cases zero : n = 0
        · subst zero
          exact .error (firstFails_of_head (by simp))
        · simp only [DeliveryMode.dropping, Option.map_none, if_neg zero]
          exact .ok (by simp [zero]) rfl
    | some t =>
      refine Decide.cons ?_ (by simp)
      by_cases still : t = 0
      · subst still
        exact .error (firstFails_of_head (by simp))
      · refine Decide.cons ?_ (by simpa using still)
        have passes : (Duration.ofMillis t).nanos ≠ 0 := Nat.mul_ne_zero still (by decide)
        simp only [DeliveryMode.dropping, Option.map_some, if_neg passes]
        by_cases zero : r.mode.maxAttempts = some 0
        · rw [if_pos zero]
          exact .error (firstFails_of_head fun other ↦ other zero)
        · rw [if_neg zero]
          exact .ok (by simp [zero]) rfl

theorem route_decides (gathered : List.Forall₂ env.Gathers groups resolved) (r : RouteSpec) :
    Decide (env.partChecks groups r) (env.Renders groups r) (env.route resolved r) := by
  rw [partChecks, route]
  refine (source_decides r).bind fun source comes ↦ ?_
  refine (destinations_decides gathered r).bind fun destinations reaches ↦ ?_
  refine (chain_decides r.name r.filters).bind fun filters asked ↦ ?_
  refine (projection_decides r).bind fun projection chosen ↦ ?_
  refine .congr (x := (r.mode.compile.mapError (CompileError.invalidMode r.name)).map fun mode ↦
    { name := r.name, source, destinations, filters, projection,
      codec := env.codecs.resolve r.source.source, mode }) (by cases r.mode.compile <;> rfl) ?_
  exact (mode_decides r).map fun mode meant ↦
    ⟨rfl, comes, reaches, asked, chosen, rfl, meant⟩

theorem routes_decides (gathered : List.Forall₂ env.Gathers groups resolved)
    {before : List RouteSpec} {seen : List String}
    (names : ∀ name, name ∈ seen ↔ ∃ r ∈ before, r.name = name) (rs : List RouteSpec) :
    Decide (inOrder (env.routeChecks groups) before rs) (List.Forall₂ (env.Renders groups) rs)
      (env.routes resolved seen rs) := by
  induction rs generalizing before seen with
  | nil => exact .ok allPass_nil .nil
  | cons r rest ih =>
    rw [inOrder, routeChecks, routes]
    by_cases taken : r.name ∈ seen
    · rw [if_pos (List.contains_iff_mem.mpr taken)]
      obtain ⟨other, among, same⟩ := (names r.name).mp taken
      exact .error (firstFails_of_head fun fresh ↦ fresh other among same)
    · rw [if_neg fun yes ↦ taken (List.contains_iff_mem.mp yes)]
      refine Decide.cons ?_ fun other among same ↦ taken ((names r.name).mpr ⟨other, among, same⟩)
      refine .congr (x := (env.route resolved r).bind fun compiled ↦
        (env.routes resolved (r.name :: seen) rest).map (compiled :: ·))
        (by cases env.route resolved r <;>
          cases env.routes resolved (r.name :: seen) rest <;> rfl) ?_
      refine (route_decides gathered r).bind fun compiled rendered ↦ ?_
      have longer (name : String) : name ∈ r.name :: seen ↔
          ∃ r' ∈ before ++ [r], r'.name = name := by
        simp [names, or_and_right, exists_or, or_comm, eq_comm]
      exact (ih longer).map fun more others ↦ .cons rendered others

/-- **What compilation decides**: all checks of the table, in order. -/
theorem compile_decides (env : Environment) (table : RouteTable) :
    Decide (env.checks table) (List.Forall₂ (env.Renders table.groups) table.routes)
      (env.compile table) := by
  rw [checks, compile]
  refine (groups_decides .nil table.groups).bind fun resolved gathered ↦ ?_
  exact routes_decides gathered (by simp) table.routes

/-- A table that compiles becomes routes of the same names, in the same order. -/
theorem names_of_compile {table : RouteTable} {routes : List CompiledRoute}
    (compiled : env.compile table = .ok routes) :
    routes.map CompiledRoute.name = table.routes.map RouteSpec.name := by
  have decided := compile_decides env table
  rw [compiled, decide_ok_iff] at decided
  have renders := decided.2
  clear decided compiled
  generalize table.routes = specs at renders ⊢
  induction renders with
  | nil => rfl
  | cons first _ ih => rw [List.map_cons, List.map_cons, first.name, ih]

/-- One bus with a source and two targets, the built-in filters and projections, and a codec for
every source. -/
def ofOneBus : Environment :=
  ⟨[("bus", ⟨0, ["in"], ["a", "b"]⟩)], .builtins, .builtins,
    CodecRegistry.empty.withFallback (Schema.ofName "any" []).codec⟩

end Environment

end MessageBridge
