import MessageBridge.Proofs.Compile.Admission
import MessageBridge.Proofs.Rehearsal.Restart

/-!
# Sources and seats

Buses over connectors in memory that have just been built. Whatever a route table names as a source
is a seat there, if the table compiles, and different sources are different seats
(`Wired.sourcePlace_inj`). So the only thing that can keep the routes of such a table from taking
their seats is that two of them name one source; the route that is refused is then the first whose
source was named before (`New.firstRepeat_of_blocked`).
-/

namespace MessageBridge

universe u

theorem Named.get?_map {α β : Type u} (f : α → β) (name : String) (entries : List (String × α)) :
    Named.get? name (entries.map fun (key, value) ↦ (key, f value)) =
      (Named.get? name entries).map f := by
  induction entries with
  | nil => rfl
  | cons entry rest ih =>
    obtain ⟨key, value⟩ := entry
    rw [List.map_cons, Named.get?, Named.get?, ih]
    split <;> rfl

/-- The first route of a table whose source is that of an earlier route. -/
def RouteTable.FirstRepeat (table : RouteTable) (r : RouteSpec) : Prop :=
  ∃ before after, table.routes = before ++ r :: after ∧
    (before.map RouteSpec.source).Nodup ∧ r.source ∈ before.map RouteSpec.source

theorem RouteTable.not_nodup_of_named {before later : List RouteSpec} {r : RouteSpec}
    (named : r.source ∈ before.map RouteSpec.source) :
    ¬((before ++ r :: later).map RouteSpec.source).Nodup := by
  intro distinct
  rw [List.map_append, List.map_cons] at distinct
  exact (List.nodup_append.mp distinct).2.2 _ named _ List.mem_cons_self rfl

theorem RouteTable.FirstRepeat.unique {table : RouteTable} {r r' : RouteSpec}
    (first : table.FirstRepeat r) (first' : table.FirstRepeat r') : r = r' := by
  obtain ⟨before, after, split, distinct, named⟩ := first
  obtain ⟨before', after', split', distinct', named'⟩ := first'
  obtain ⟨between, rfl, rest⟩ | ⟨between, rfl, rest⟩ :=
    List.append_eq_append_iff.mp (split.symm.trans split')
  · cases between with
    | nil => exact (List.cons.inj rest).1
    | cons x between =>
      obtain ⟨rfl, -⟩ := List.cons.inj rest
      exact absurd distinct' (not_nodup_of_named named)
  · cases between with
    | nil => exact (List.cons.inj rest).1.symm
    | cons x between =>
      obtain ⟨rfl, -⟩ := List.cons.inj rest
      exact absurd distinct (not_nodup_of_named named')

namespace Rehearsal

/-! ## Connectors to build -/

/-- What a connector in memory is built from. -/
structure Layout where
  /-- The name. -/
  name : String
  /-- The names of its sources. -/
  sources : List String
  /-- The names of its targets. -/
  targets : List String

/-- The connector as it is when it has been built. -/
def Layout.connector (l : Layout) : Connector := .memory (.ofNames l.name l.sources l.targets)

namespace World

variable {w : World} {table : RouteTable} {routes : List CompiledRoute}

/-- Buses over the connectors at some places are registered, one after the other. -/
def registerAll (order : List Nat) (w : World) : World :=
  order.foldl (fun w i ↦ (w.register i).2) w

/-- A world of connectors in memory that have just been built, with buses over some of them. -/
def built (wall : Int) (parts : EngineParts) (tokens : Tokens) (layouts : List Layout)
    (order : List Nat) : World :=
  registerAll order { empty wall parts with tokens, connectors := layouts.map Layout.connector }

/-! ## Registered buses -/

/-- Every registered bus leads to a connector in memory of its name, and knows the sources there. -/
def Wired (w : World) : Prop :=
  ∀ name bus, Named.get? name w.registry = some bus → ∃ i k,
    w.connectors[i]? = some (.memory k) ∧ k.name = name ∧
      w.buses[bus]? = some (.adapter i (.ofNames name k.sources k.targets))

theorem register_frame (i : Nat) (w : World) : ∃ buses registry,
    (w.register i).2 = { w with buses := buses, registry := registry } := by
  rw [register]
  split
  · exact ⟨_, _, rfl⟩
  · exact ⟨_, _, rfl⟩

theorem Wired.register (wired : w.Wired) (memory : w.seats.InMemory) (i : Nat) :
    (w.register i).2.Wired := by
  intro name bus found
  obtain ⟨absent, -⟩ | ⟨k, here, -⟩ := exists_of_at? memory (i, 0)
  · rw [World.register, absent] at found ⊢
    exact wired _ _ found
  · have here : w.connectors[i]? = some (.memory k) := here
    simp only [World.register, here, Connector.name] at found ⊢
    by_cases same : k.name = name
    · subst same
      rw [Named.get?_insert_self] at found
      cases found
      exact ⟨i, k, here, rfl, List.getElem?_concat_length⟩
    · rw [Named.get?_insert_of_ne same] at found
      obtain ⟨j, m, there, named, old⟩ := wired _ _ found
      refine ⟨j, m, there, named, ?_⟩
      rw [List.getElem?_append_left (List.getElem?_eq_some_iff.mp old).1, old]

/-- Nothing has happened yet to freshly built connectors and the buses over them. -/
structure New (parts : EngineParts) (w : World) : Prop where
  wired : w.Wired
  fresh : w.Fresh
  parts : w.parts = parts
  runs : w.runs = []
  calls : w.calls = []
  answers : w.answers = []
  sane : w.crashed = false

theorem New.register {parts : EngineParts} (new : w.New parts) (i : Nat) :
    (w.register i).2.New parts := by
  have wired := new.wired.register new.fresh.inMemory i
  obtain ⟨buses, registry, done⟩ := register_frame i w
  rw [done] at wired ⊢
  exact ⟨wired, new.fresh, new.parts, new.runs, new.calls, new.answers, new.sane⟩

theorem new_built (wall : Int) (parts : EngineParts) (tokens : Tokens) (layouts : List Layout)
    (order : List Nat) : (built wall parts tokens layouts order).New parts := by
  rw [built, registerAll]
  induction order using List.reverseRecOn with
  | nil =>
    refine ⟨?_, fun c hc ↦ ?_, rfl, rfl, rfl, rfl, rfl⟩
    · intro name bus found
      cases found
    · obtain ⟨l, -, rfl⟩ := List.mem_map.mp hc
      exact ⟨l.name, l.sources, l.targets, rfl⟩
  | append_singleton rest i ih =>
    rw [List.foldl_append, List.foldl_cons, List.foldl_nil]
    exact ih.register i

/-! ## The seat of a source -/

/-- The place of the ingress point that a source point names. -/
def sourcePlace? (p : SourcePoint) (w : World) : Option Place :=
  (Named.get? p.connector w.registry).bind fun bus ↦ w.placeOf? bus p.source

theorem bus_view (handle : Nat) (w : World) : (w.view handle).bus = handle := by
  rw [view]
  split
  · rfl
  · split <;> rfl
  · rfl

theorem get?_environment (name : String) (w : World) :
    Named.get? name w.environment.buses = (Named.get? name w.registry).map w.view :=
  Named.get?_map w.view name w.registry

theorem place?_of_comes {route : CompiledRoute} {p : SourcePoint}
    (comes : w.environment.Comes p route.source) : w.place? route = w.sourcePlace? p := by
  obtain ⟨view, found, same⟩ := comes
  rw [get?_environment, Option.map_eq_some_iff] at found
  obtain ⟨bus, found, rfl⟩ := found
  rw [place?, sourcePlace?, found, same, bus_view]
  rfl

theorem Wired.of_sourcePlace (wired : w.Wired) {p : SourcePoint} {q : Place}
    (here : w.sourcePlace? p = some q) : ∃ k, w.connectors[q.1]? = some (.memory k) ∧
      k.name = p.connector ∧ k.sources[q.2]? = some p.source := by
  obtain ⟨bus, found, here⟩ := Option.bind_eq_some_iff.mp here
  obtain ⟨i, k, there, named, adapter⟩ := wired _ _ found
  rw [placeOf?, adapter] at here
  obtain ⟨j, known, rfl⟩ := Option.map_eq_some_iff.mp here
  refine ⟨k, there, named, ?_⟩
  cases looked : Named.get? p.source (Named.ofList k.sources.zipIdx) with
  | none => simp [Adapter.ingress, Adapter.ofNames, looked, Except.toOption] at known
  | some j' =>
    simp only [Adapter.ingress, Adapter.ofNames, looked, Except.toOption] at known
    cases known
    exact List.mem_zipIdx_iff_getElem?.mp (Named.mem_of_mem_ofList (Named.mem_of_get? looked))

/-- **Different sources have different seats.** -/
theorem Wired.sourcePlace_inj (wired : w.Wired) {p p' : SourcePoint} {q : Place}
    (here : w.sourcePlace? p = some q) (here' : w.sourcePlace? p' = some q) : p = p' := by
  obtain ⟨k, found, named, source⟩ := wired.of_sourcePlace here
  obtain ⟨k', found', named', source'⟩ := wired.of_sourcePlace here'
  rw [found] at found'
  cases found'
  rw [source] at source'
  cases p
  cases p'
  cases named
  cases named'
  cases source'
  rfl

theorem Wired.exists_sourcePlace (wired : w.Wired) {p : SourcePoint}
    (has : w.environment.HasSource p) : ∃ q, w.sourcePlace? p = some q := by
  obtain ⟨view, found, among⟩ := has
  rw [get?_environment, Option.map_eq_some_iff] at found
  obtain ⟨bus, found, rfl⟩ := found
  obtain ⟨i, k, there, named, adapter⟩ := wired _ _ found
  rw [World.view, adapter] at among
  obtain ⟨j, known⟩ := Named.mem_names_iff.mp among
  refine ⟨(i, j), ?_⟩
  rw [sourcePlace?, found, Option.bind_some, placeOf?, adapter]
  simp only [Adapter.ofNames] at known
  simp [Adapter.ingress, Adapter.ofNames, known, Except.toOption]

theorem New.free {parts : EngineParts} (new : w.New parts) {p : SourcePoint} {q : Place}
    (here : w.sourcePlace? p = some q) :
    ∃ x, w.seats.at? q = some x ∧ x.free = true ∧ x.source = p.source := by
  obtain ⟨k, found, -, source⟩ := new.wired.of_sourcePlace here
  obtain ⟨absent, -⟩ | ⟨k', found', cell⟩ := exists_of_at? new.fresh.inMemory q
  · rw [absent] at found
    cases found
  · rw [found'] at found
    cases found
    rw [Memory.Connector.sources, List.getElem?_map, Option.map_eq_some_iff] at source
    obtain ⟨i, hi, named⟩ := source
    rw [hi, Option.map_some] at cell
    exact ⟨_, cell, new.fresh.free cell, named⟩

/-! ## The seats of a table -/

theorem render_of_compile (compiled : w.environment.compile table = .ok routes) :
    routes.map (fun c ↦ (c.name, w.place? c)) =
      table.routes.map fun r ↦ (r.name, w.sourcePlace? r.source) := by
  have decided := Environment.compile_decides w.environment table
  rw [compiled, Check.decide_ok_iff] at decided
  have renders := decided.2
  clear decided compiled
  generalize table.routes = specs at renders ⊢
  induction renders with
  | nil => rfl
  | cons first _ ih =>
    rw [List.map_cons, List.map_cons, first.name, place?_of_comes first.source, ih]

theorem hasSource_of_compile (compiled : w.environment.compile table = .ok routes) :
    ∀ r ∈ table.routes, w.environment.HasSource r.source := by
  have decided := Environment.compile_decides w.environment table
  rw [compiled, Check.decide_ok_iff] at decided
  exact fun r hr ↦ ((Environment.allPass_checks.mp decided.1).complete r hr).source

variable {parts : EngineParts} {specs : List RouteSpec} {places : List Place}

theorem Wired.nodup_iff (wired : w.Wired)
    (there : (specs.map fun r ↦ w.sourcePlace? r.source) = places.map some) :
    places.Nodup ↔ (specs.map RouteSpec.source).Nodup := by
  rw [← List.nodup_map_iff (Option.some_injective Place), ← there]
  have composed : (specs.map fun r ↦ w.sourcePlace? r.source) =
      (specs.map RouteSpec.source).map w.sourcePlace? := by
    rw [List.map_map]
    rfl
  rw [composed]
  constructor
  · exact List.Nodup.of_map _
  · intro distinct
    refine List.Nodup.map_on (fun p hp p' _ same ↦ ?_) distinct
    obtain ⟨r, hr, rfl⟩ := List.mem_map.mp hp
    have mem : w.sourcePlace? r.source ∈ places.map some :=
      there ▸ List.mem_map_of_mem (f := fun r ↦ w.sourcePlace? r.source) hr
    obtain ⟨q, -, here⟩ := List.mem_map.mp mem
    exact wired.sourcePlace_inj here.symm (same.symm.trans here.symm)

/-- The routes of a table that compiles have places of their own just if its sources are
different. -/
theorem New.places_iff (new : w.New parts) (compiled : w.environment.compile table = .ok routes) :
    (∃ places, Places w routes places) ↔ (table.routes.map RouteSpec.source).Nodup := by
  have same := congrArg (List.map Prod.snd) (render_of_compile compiled)
  rw [List.map_map, List.map_map] at same
  constructor
  · rintro ⟨places, there, different, -⟩
    exact (new.wired.nodup_iff (same.symm.trans there)).mp different
  · intro distinct
    have all := fun r hr ↦ new.wired.exists_sourcePlace (hasSource_of_compile compiled r hr)
    choose! place here using all
    have there : (table.routes.map fun r ↦ w.sourcePlace? r.source) =
        (table.routes.map place).map some := by
      rw [List.map_map]
      exact List.map_congr_left here
    refine ⟨table.routes.map place, same.trans there, (new.wired.nodup_iff there).mpr distinct, ?_⟩
    intro q hq
    obtain ⟨r, hr, rfl⟩ := List.mem_map.mp hq
    obtain ⟨x, found, free, -⟩ := new.free (here r hr)
    exact ⟨x, found, free⟩

/-- The route of a table that finds its seat taken is the first whose source was named before. -/
theorem New.firstRepeat_of_blocked (new : w.New parts) {before after : List CompiledRoute}
    {route : CompiledRoute} {e : BusError}
    (compiled : w.environment.compile table = .ok (before ++ route :: after))
    (blocked : Blocked w before route e places) :
    ∃ r, table.FirstRepeat r ∧ route.name = r.name ∧
      e = .subscribe (Text.quoted r.source.source ++ " already has a subscriber") := by
  have same := render_of_compile compiled
  rw [List.map_append, List.map_cons] at same
  obtain ⟨earlier, rest, split, first, others⟩ := List.map_eq_append_iff.mp same.symm
  obtain ⟨r, later, rfl, here, -⟩ := List.map_eq_cons_iff.mp others
  obtain ⟨name, here⟩ := Prod.mk.inj here
  have there := congrArg (List.map Prod.snd) first
  rw [List.map_map, List.map_map] at there
  have there : (earlier.map fun r ↦ w.sourcePlace? r.source) = places.map some :=
    there.trans blocked.before.there
  have hr : r ∈ table.routes := by simp [split]
  obtain ⟨q, place⟩ := new.wired.exists_sourcePlace (hasSource_of_compile compiled r hr)
  obtain ⟨x, found, free, named⟩ := new.free place
  have place' : w.place? route = some q := here.symm.trans place
  refine ⟨r, ⟨earlier, later, split, ?_, ?_⟩, name.symm, ?_⟩
  · exact (new.wired.nodup_iff there).mp blocked.before.different
  · have taken : some q ∈ earlier.map fun r ↦ w.sourcePlace? r.source :=
      there ▸ List.mem_map_of_mem (blocked.occupied q place' ⟨x, found, free⟩)
    obtain ⟨r', hr', place''⟩ := List.mem_map.mp taken
    rw [← new.wired.sourcePlace_inj place'' place]
    exact List.mem_map_of_mem hr'
  · rw [← named]
    exact blocked.reason place' found (new.fresh.going found)

/-! ## Starting -/

variable {above : Nat}

/-- **A table starts on connectors that have just been built** just if it compiles and no two of its
routes name one source. -/
theorem New.starts_iff (new : w.New parts) (realizable : parts.settings.realizable = true) :
    w.Starts table above ↔ (∃ routes, w.environment.compile table = .ok routes) ∧
      (table.routes.map RouteSpec.source).Nodup := by
  rw [World.starts_iff new.fresh.inMemory]
  have fits (routes : List CompiledRoute) : w.fits routes = true := by
    rw [World.fits, new.parts, realizable, Bool.or_true]
  constructor
  · rintro ⟨-, routes, places, compiled, -, fit⟩
    exact ⟨⟨routes, compiled⟩, (new.places_iff compiled).mp ⟨places, fit⟩⟩
  · rintro ⟨⟨routes, compiled⟩, distinct⟩
    obtain ⟨places, fit⟩ := (new.places_iff compiled).mpr distinct
    exact ⟨new.sane, routes, places, compiled, fits routes, fit⟩

/-- Of routes that name one source the second is refused, and the run takes itself back. -/
theorem New.refused_of_repeated (new : w.New parts)
    (compiled : w.environment.compile table = .ok routes)
    (repeated : ¬(table.routes.map RouteSpec.source).Nodup) :
    ∃ r id w' record, table.FirstRepeat r ∧ w.start table above = (.ok (0, some id), w') ∧
      w'.runs[0]? = some record ∧ record.run.phase = .retracting (.subscribe r.name
        (.subscribe (Text.quoted r.source.source ++ " already has a subscriber"))) := by
  have index : w.runs.length = 0 := by rw [new.runs]; rfl
  generalize taking new.fresh.inMemory table above = goes
  generalize w.start table above = result at goes
  cases goes with
  | rejected defect _ =>
    rw [defect] at compiled
    cases compiled
  | runs compiled' fit _ _ =>
    exact absurd ((new.places_iff compiled').mp ⟨_, fit⟩) repeated
  | @refused before after route places e id w' compiled' blocked _ retracts =>
    obtain ⟨record, entered, phase⟩ := retracts
    obtain ⟨r, first, name, rfl⟩ := new.firstRepeat_of_blocked compiled' blocked
    rw [index] at entered ⊢
    exact ⟨r, id, w', record, first, rfl, entered, name ▸ phase⟩

end World

end Rehearsal

end MessageBridge
