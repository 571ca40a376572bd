import Mathlib.Data.Option.Basic
import MessageBridge.Proofs.Rehearsal.Start

/-!
# Free and taken seats

An ingress point in memory is a seat: it takes one handler in its life. A subscription succeeds
exactly on a seat that is free, and takes it (`seating_subscribe`). Hence routes that the buses
accept have places that are there, free and different (`places_of_accepted`), and a route is refused
if its place is not free or one of its table has just taken it (`blocked_of_refused`). With the
checks of the compiler and the limits of the lanes this decides which starts bring all routes of a
table to run (`starts_iff`).

All of this is about worlds whose connectors are all in memory. What is known of such a world is in
its `Seats`, and starts change them by taking seats one after the other.
-/

namespace MessageBridge

namespace Rehearsal

/-! ## Seats -/

/-- The place of an ingress point: the place of its connector, and its own there. -/
abbrev Place := Nat × Nat

/-- A seat that whoever wants to subscribe gets. -/
def Seat.free (x : Seat) : Bool := !x.taken && !x.stopped

namespace Seats

variable {s : Seats} {p q : Place} {places : List Place}

/-- The seat at a place. -/
def at? (p : Place) (s : Seats) : Option Seat := (s[p.1]?.join).bind fun row ↦ row[p.2]?

/-- There is a free seat at a place. -/
def Free (p : Place) (s : Seats) : Prop := ∃ x, s.at? p = some x ∧ x.free = true

/-- All connectors are in memory. -/
def InMemory (s : Seats) : Prop := ∀ row ∈ s, row.isSome

/-- The seats after the one at a place was taken. -/
def take (p : Place) (s : Seats) : Seats :=
  s.modify p.1 (Option.map fun row ↦ row.modify p.2 fun x ↦ { x with taken := true })

/-- The seats after those at some places were taken. -/
def takeAll (places : List Place) (s : Seats) : Seats := places.foldl (fun s p ↦ s.take p) s

theorem at?_take (p q : Place) (s : Seats) :
    (s.take p).at? q = (s.at? q).map fun x ↦ if q = p then { x with taken := true } else x := by
  rw [at?, at?, take, List.getElem?_modify]
  by_cases row : p.1 = q.1
  · cases found : s[q.1]? with
    | none => rfl
    | some cells =>
      cases cells with
      | none => simp [row]
      | some cells =>
        by_cases cell : p.2 = q.2
        · simp [row, cell, Prod.ext_iff]
        · simp [row, cell, Prod.ext_iff, Ne.symm cell]
  · have other : q ≠ p := fun same ↦ row (congrArg Prod.fst same).symm
    simp [row, other]

theorem free_take : (s.take p).Free q ↔ q ≠ p ∧ s.Free q := by
  rw [Free, Free, at?_take]
  by_cases same : q = p
  · simp [same, Seat.free]
  · simp [same]

theorem InMemory.take (memory : s.InMemory) (p : Place) : (s.take p).InMemory := by
  intro row hrow
  obtain ⟨i, hi⟩ := List.mem_iff_getElem?.mp hrow
  rw [Seats.take, List.getElem?_modify] at hi
  obtain ⟨before, found, rfl⟩ := Option.map_eq_some_iff.mp hi
  have there := memory before (List.mem_of_getElem? found)
  split
  · rw [Option.isSome_map, there]
  · exact there

theorem InMemory.takeAll (memory : s.InMemory) (places : List Place) :
    (s.takeAll places).InMemory := by
  induction places generalizing s with
  | nil => exact memory
  | cons p places ih => exact ih (memory.take p)

/-- Taking seats changes nothing but that they are taken. -/
theorem at?_takeAll (places : List Place) (q : Place) (s : Seats) :
    (s.takeAll places).at? q =
      (s.at? q).map fun x ↦ if q ∈ places then { x with taken := true } else x := by
  induction places generalizing s with
  | nil => simp [takeAll]
  | cons p places ih =>
    have first : s.takeAll (p :: places) = (s.take p).takeAll places := rfl
    rw [first, ih, at?_take, Option.map_map]
    refine congrArg (Option.map · _) (funext fun x ↦ ?_)
    by_cases here : q = p
    · by_cases later : q ∈ places <;> simp [here]
    · simp [here]

theorem free_takeAll : (s.takeAll places).Free q ↔ q ∉ places ∧ s.Free q := by
  rw [Free, Free, at?_takeAll]
  by_cases among : q ∈ places
  · simp [among, Seat.free]
  · simp [among]

theorem takeAll_append (first second : List Place) (s : Seats) :
    s.takeAll (first ++ second) = (s.takeAll first).takeAll second := List.foldl_append

end Seats

namespace World

variable {w x next last : World} {table : RouteTable} {above : Nat}

/-! ## Subscribing -/

/-- The place of the ingress point to which a bus leads. -/
def placeOf? (bus : Nat) (source : String) (w : World) : Option Place :=
  match w.buses[bus]? with
  | some (.adapter i a) => (a.ingress source).toOption.map fun place ↦ (i, place)
  | _ => none

/-- The place of the source of a route. -/
def place? (w : World) (route : CompiledRoute) : Option Place :=
  w.placeOf? route.source.bus route.source.point

theorem place?_congr (buses : x.buses = w.buses) (route : CompiledRoute) :
    x.place? route = w.place? route := by
  rw [place?, place?, placeOf?, placeOf?, buses]

/-- How a subscription can go: a free seat is taken, or there is none and nothing changes. -/
inductive Seating (w : World) (place : Option Place) : Except BusError Unit × World → Prop where
  | seated {p : Place} {x : World} (here : place = some p) (free : w.seats.Free p)
      (seats : x.seats = w.seats.take p) : Seating w place (.ok (), x)
  | refused {e : BusError} {x : World} (occupied : ∀ p, place = some p → ¬w.seats.Free p)
      (reason : ∀ {p seat}, place = some p → w.seats.at? p = some seat → seat.stopped = false →
        e = .subscribe (Text.quoted seat.source ++ " already has a subscriber"))
      (seats : x.seats = w.seats) : Seating w place (.error e, x)

/-- Nothing can be taken where there is no seat. -/
theorem Seating.nobody {place : Option Place} {e : BusError}
    (nobody : ∀ p, place = some p → w.seats.at? p = none) (seats : x.seats = w.seats) :
    Seating w place (.error e, x) := by
  refine .refused (fun p here ↦ ?_) (fun {p seat} here found ↦ ?_) seats
  · rintro ⟨seat, found, -⟩
    rw [nobody p here] at found
    cases found
  · rw [nobody p here] at found
    cases found

/-- An ingress point takes a handler exactly if its seat is free. -/
theorem start_ingress (i : Memory.Ingress Subscriber) (s : Subscriber) :
    ((seat i).free = true ∧ ∃ i', i.start s = .ok i' ∧ seat i' = { seat i with taken := true }) ∨
      (seat i).free = false ∧ ∃ e, i.start s = .error e ∧ ((seat i).stopped = false →
        e = .subscribe (Text.quoted (seat i).source ++ " already has a subscriber")) := by
  rw [Memory.Ingress.start]
  cases stopped : i.stopped with
  | true =>
    refine .inr ⟨by simp [seat, Seat.free, stopped], _, rfl, fun going ↦ ?_⟩
    rw [seat, stopped] at going
    cases going
  | false =>
    cases taken : i.subscribed with
    | true => exact .inr ⟨by simp [seat, Seat.free, taken], _, rfl, fun _ ↦ rfl⟩
    | false =>
      exact .inl ⟨by simp [seat, Seat.free, taken, stopped], _, rfl, by simp [seat, stopped]⟩

/-- What is at a place, in a world whose connectors are in memory. -/
theorem exists_of_at? (memory : w.seats.InMemory) (p : Place) :
    (w.connectors[p.1]? = none ∧ w.seats.at? p = none) ∨
      ∃ k, w.connectors[p.1]? = some (.memory k) ∧ w.seats.at? p = k.ingresses[p.2]?.map seat := by
  rw [Seats.at?, seats, List.getElem?_map]
  cases found : w.connectors[p.1]? with
  | none => exact .inl ⟨rfl, rfl⟩
  | some c =>
    have there := memory c.seats (List.mem_map_of_mem (List.mem_of_getElem? found))
    cases c with
    | memory k => exact .inr ⟨k, rfl, by simp [Connector.seats]⟩
    | points k => cases there
    | scripted b => cases there

/-- A point that gets a handler takes its seat. -/
theorem seats_setIngress {p : Place} {k : Memory.Connector Subscriber}
    {i i' : Memory.Ingress Subscriber} (here : w.connectors[p.1]? = some (.memory k))
    (found : k.ingresses[p.2]? = some i) (taken : seat i' = { seat i with taken := true }) :
    (w.connectors.set p.1 (.memory { k with ingresses := k.ingresses.set p.2 i' })).map
      Connector.seats = w.seats.take p := by
  have row : w.seats[p.1]? = some (some (k.ingresses.map seat)) := by
    rw [seats, List.getElem?_map, here]
    rfl
  have cell : (k.ingresses.map seat)[p.2]? = some (seat i) := by
    rw [List.getElem?_map, found]
    rfl
  rw [List.map_set, Seats.take, List.modify_eq_set_getElem?, row]
  simp [Connector.seats, List.map_set, taken, List.modify_eq_set_getElem?, cell, seats]

theorem seating_startIngress (memory : w.seats.InMemory) (p : Place) (s : Subscriber) :
    Seating w (some p) (match w.updateConnector? p.1 fun c ↦ some (c.startIngress p.2 s) with
      | some (answer, w) => (answer, w.heed)
      | none => (.error .closed, w)) := by
  obtain ⟨absent, nobody⟩ | ⟨k, here, cell⟩ := exists_of_at? memory p
  · simp only [updateConnector?, absent, Option.bind_eq_bind, Option.bind_none]
    refine .nobody (fun q same ↦ ?_) rfl
    cases same
    exact nobody
  · -- nothing changes if the point refuses
    have unchanged : { w with connectors := w.connectors.set p.1 (.memory k) } = w := by
      obtain ⟨inside, same⟩ := List.getElem?_eq_some_iff.mp here
      rw [← same, List.set_getElem_self]
    simp only [updateConnector?, here, Option.bind_eq_bind, Option.bind_some, Option.pure_def,
      Connector.startIngress]
    cases found : k.ingresses[p.2]? with
    | none =>
      simp only [unchanged]
      refine .nobody (fun q same ↦ ?_) (still_heed w).seats
      cases same
      rw [cell, found]
      rfl
    | some i =>
      rw [found, Option.map_some] at cell
      obtain ⟨free, i', started, taken⟩ | ⟨occupied, e, refused, reason⟩ := start_ingress i s
      · simp only [started]
        exact .seated rfl ⟨_, cell, free⟩ ((still_heed _).seats.trans
          (seats_setIngress here found taken))
      · simp only [refused, unchanged]
        refine .refused (fun q same ↦ ?_) (fun {q x} same there going ↦ ?_) (still_heed w).seats
        · rintro ⟨x, there, free⟩
          cases same
          rw [cell] at there
          cases there
          rw [occupied] at free
          cases free
        · cases same
          rw [cell] at there
          cases there
          exact reason going

/-- **A subscription succeeds exactly on a free seat**, and takes it. -/
theorem seating_subscribe (memory : w.seats.InMemory) (bus : Nat) (source : String)
    (s : Subscriber) : Seating w (w.placeOf? bus source) (w.subscribe bus source s) := by
  rw [subscribe, placeOf?]
  cases w.buses[bus]? with
  | none => exact .nobody (fun p here ↦ by cases here) rfl
  | some b =>
    cases b with
    | adapter i a =>
      dsimp only
      cases a.ingress source with
      | error e => exact .nobody (fun p here ↦ by cases here) rfl
      | ok place => exact seating_startIngress memory (i, place) s
    | scripted i =>
      -- there is no scripted bus among connectors in memory
      obtain ⟨absent, -⟩ | ⟨k, here, -⟩ := exists_of_at? memory (i, 0)
      · simp only [updateConnector?, absent, Option.bind_eq_bind, Option.bind_none,
          Option.getD_none]
        exact .nobody (fun p here ↦ by cases here) rfl
      · simp only [updateConnector?, here, Option.bind_eq_bind, Option.bind_some, Option.bind_none,
          Option.getD_none]
        exact .nobody (fun p here ↦ by cases here) rfl

/-! ## Subscribing one after the other -/

variable {count index : Nat} {routes : List CompiledRoute} {places : List Place}

theorem seating_ask (memory : x.seats.InMemory) (count i : Nat) (route : CompiledRoute) :
    Seating x (x.place? route) (w.ask count i route x) := seating_subscribe memory _ _ _

/-- The places of some routes are there, free and different. -/
structure Places (x : World) (routes : List CompiledRoute) (places : List Place) : Prop where
  there : routes.map x.place? = places.map some
  different : places.Nodup
  free : ∀ p ∈ places, x.seats.Free p

theorem map_place?_congr (buses : next.buses = x.buses) (routes : List CompiledRoute) :
    routes.map next.place? = routes.map x.place? :=
  List.map_congr_left fun route _ ↦ place?_congr buses route

/-- Routes that are accepted take seats. -/
theorem places_of_accepted (memory : x.seats.InMemory)
    (accepted : Run.Accepted (w.ask count) index x routes last) :
    ∃ places, Places x routes places ∧ last.seats = x.seats.takeAll places := by
  induction accepted with
  | nil => exact ⟨[], ⟨rfl, List.nodup_nil, fun p hp ↦ by cases hp⟩, rfl⟩
  | @cons index x next last route rest first _ ih =>
    have buses := (quiet_ask first).buses
    have seating := seating_ask (w := w) memory count index route
    rw [first] at seating
    cases seating with
    | @seated p _ here free seats =>
      obtain ⟨places, others, done⟩ := ih (seats ▸ memory.take p)
      have later := fun q hq ↦ Seats.free_take.mp (seats ▸ others.free q hq)
      refine ⟨p :: places, ⟨?_, ?_, ?_⟩, done.trans (by rw [seats]; rfl)⟩
      · rw [List.map_cons, List.map_cons, here, ← map_place?_congr buses, others.there]
      · exact List.nodup_cons.mpr ⟨fun among ↦ (later p among).1 rfl, others.different⟩
      · rintro q (_ | ⟨_, hq⟩)
        · exact free
        · exact (later q hq).2

/-- What is known when a route is refused after others were accepted. -/
structure Blocked (x : World) (before : List CompiledRoute) (route : CompiledRoute) (e : BusError)
    (places : List Place) : Prop where
  before : Places x before places
  occupied : ∀ p, x.place? route = some p → x.seats.Free p → p ∈ places
  reason : ∀ {p seat}, x.place? route = some p → x.seats.at? p = some seat → seat.stopped = false →
    e = .subscribe (Text.quoted seat.source ++ " already has a subscriber")

/-- A route is refused if its place is not free or another route of the list has taken it. -/
theorem blocked_of_refused {before : List CompiledRoute} {route : CompiledRoute} {middle : World}
    {e : BusError} {i : Nat} (memory : x.seats.InMemory)
    (accepted : Run.Accepted (w.ask count) index x before middle)
    (refused : w.ask count i route middle = (.error e, last)) :
    ∃ places, Blocked x before route e places ∧ last.seats = x.seats.takeAll places := by
  obtain ⟨places, fit, seats⟩ := places_of_accepted memory accepted
  have buses := (quiet_accepted accepted).buses
  have seating := seating_ask (w := w) (seats ▸ memory.takeAll places) count i route
  rw [refused] at seating
  cases seating with
  | refused occupied reason same =>
    rw [place?_congr buses] at occupied reason
    refine ⟨places, ⟨fit, fun p here free ↦ ?_, fun {p seat} here found going ↦ ?_⟩,
      same.trans seats⟩
    · by_contra notMem
      exact occupied p here (seats ▸ Seats.free_takeAll.mpr ⟨notMem, free⟩)
    · -- the name of the seat and whether it was stopped are as before
      have later : middle.seats.at? p =
          some (if p ∈ places then { seat with taken := true } else seat) := by
        rw [seats, Seats.at?_takeAll, found, Option.map_some]
      split at later
      · have told := reason here later
        exact told going
      · exact reason here later going

theorem Places.append_cons {before after : List CompiledRoute} {route : CompiledRoute}
    (fit : Places x (before ++ route :: after) places) :
    ∃ first p, Places x before first ∧ x.place? route = some p ∧ x.seats.Free p ∧ p ∉ first := by
  obtain ⟨there, different, free⟩ := fit
  rw [List.map_append, List.map_cons] at there
  obtain ⟨first, rest, rfl, hfirst, hrest⟩ := List.map_eq_append_iff.mp there.symm
  obtain ⟨p, others, rfl, here, -⟩ := List.map_eq_cons_iff.mp hrest
  have apart := List.nodup_append.mp different
  refine ⟨first, p, ⟨hfirst.symm, apart.1, fun q hq ↦ ?_⟩, here.symm, ?_, fun among ↦ ?_⟩
  · exact free q (List.mem_append_left _ hq)
  · exact free p (List.mem_append_right _ List.mem_cons_self)
  · exact apart.2.2 p among p List.mem_cons_self rfl

/-- Routes have their places in one way only. -/
theorem Places.unique {places' : List Place} (fit : Places x routes places)
    (fit' : Places x routes places') : places = places' :=
  List.map_injective_iff.mpr (Option.some_injective Place) (fit.there.symm.trans fit'.there)

/-- Routes that all have places of their own are not blocked. -/
theorem Blocked.not_places {before after : List CompiledRoute} {route : CompiledRoute}
    {e : BusError} {first : List Place} (blocked : Blocked x before route e first) :
    ¬Places x (before ++ route :: after) places := by
  intro fit
  obtain ⟨first', p, earlier, here, free, apart⟩ := fit.append_cons
  exact apart (blocked.before.unique earlier ▸ blocked.occupied p here free)

/-! ## Starting -/

/-- A start brings all routes of a table to run. -/
def Starts (table : RouteTable) (above : Nat) (w : World) : Prop :=
  ∃ index w', w.start table above = (.ok (index, none), w') ∧ w'.crashed = false

theorem Places.congr (fit : Places x routes places) (buses : next.buses = x.buses)
    (seats : next.seats = x.seats) : Places next routes places :=
  ⟨by rw [map_place?_congr buses, fit.there], fit.different, by rw [seats]; exact fit.free⟩

theorem Blocked.congr {before : List CompiledRoute} {route : CompiledRoute} {e : BusError}
    (blocked : Blocked x before route e places) (buses : next.buses = x.buses)
    (seats : next.seats = x.seats) : Blocked next before route e places where
  before := blocked.before.congr buses seats
  occupied := by rw [place?_congr buses, seats]; exact blocked.occupied
  reason := by rw [place?_congr buses, seats]; exact blocked.reason

/-- The places on which a start puts handlers: those of the routes that buses accept, which are left
there when a later one is refused. -/
def seated (table : RouteTable) (above : Nat) (w : World) : List Place :=
  match w.environment.compile table with
  | .error _ => []
  | .ok routes =>
    (Run.attach w.parts.settings (w.ask routes.length) 0 (w.handOut above routes.length)
      routes).started.filterMap fun r ↦ w.place? r.route

theorem Places.filterMap (fit : Places x routes places) : routes.filterMap x.place? = places := by
  have same := congrArg (List.filterMap id) fit.there
  rwa [List.filterMap_map, List.filterMap_map, Function.id_comp, Function.id_comp,
    List.filterMap_some] at same

/-- How a start goes where all connectors are in memory: it depends on the seats. -/
inductive Taking (w : World) (table : RouteTable) (above : Nat) :
    Except CompileError (Nat × Option Nat) × World → Prop where
  | rejected {e : CompileError} {w' : World} (defect : w.environment.compile table = .error e)
      (seats : w'.seats = w.seats.takeAll (w.seated table above)) :
      Taking w table above (.error e, w')
  | runs {routes : List CompiledRoute} {places : List Place} {w' : World}
      (compiled : w.environment.compile table = .ok routes) (fit : Places w routes places)
      (crashed : w'.crashed = (w.crashed || !w.fits routes))
      (seats : w'.seats = w.seats.takeAll (w.seated table above)) :
      Taking w table above (.ok (w.runs.length, none), w')
  | refused {before after : List CompiledRoute} {route : CompiledRoute} {places : List Place}
      {e : BusError} {id : Nat} {w' : World}
      (compiled : w.environment.compile table = .ok (before ++ route :: after))
      (blocked : Blocked w before route e places)
      (seats : w'.seats = w.seats.takeAll (w.seated table above))
      (retracts : ∃ r, w'.runs[w.runs.length]? = some r ∧
        r.run.phase = .retracting (.subscribe route.name e)) :
      Taking w table above (.ok (w.runs.length, some id), w')

theorem taking (memory : w.seats.InMemory) (table : RouteTable) (above : Nat) :
    Taking w table above (w.start table above) := by
  generalize started w table above = began
  generalize w.start table above = result at began
  cases began with
  | rejected defect => exact .rejected defect (by rw [seated, defect]; rfl)
  | @runs routes last w' compiled accepted _ still =>
    have out := still_handOut above routes.length w
    obtain ⟨places, fit, taken⟩ := places_of_accepted (out.seats ▸ memory) accepted
    have fit := fit.congr out.buses.symm out.seats.symm
    have attached := Run.attach_append w.parts.settings (w.ask routes.length) accepted []
    rw [List.append_nil] at attached
    have seated : w.seated table above = places := by
      rw [World.seated, compiled]
      simp only [attached, Run.attach, List.append_nil, List.filterMap_map]
      exact fit.filterMap
    refine .runs compiled fit ?_ ?_
    · exact crashed_of_entered (quiet_of_accepted accepted) still.crashed
    · rw [seated, ← out.seats, ← taken]
      exact still.seats
  | @refused routes before after route middle last w' e compiled split accepted refused _ still =>
    have out := still_handOut above routes.length w
    obtain ⟨places, blocked, taken⟩ := blocked_of_refused (out.seats ▸ memory) accepted refused
    have blocked := blocked.congr out.buses.symm out.seats.symm
    have attached := Run.attach_append w.parts.settings (w.ask routes.length) accepted
      (route :: after)
    have seated : w.seated table above = places := by
      rw [World.seated, compiled]
      rw [← split, Nat.zero_add, Run.attach, refused] at attached
      simp only [attached, List.append_nil, List.filterMap_map]
      exact blocked.before.filterMap
    refine .refused (split ▸ compiled) blocked ?_ ?_
    · rw [seated, ← out.seats, ← taken]
      exact still.seats
    · have earlier := quiet_of_refused accepted refused
      obtain ⟨r, found, listens⟩ := exists_of_forall₂ still.runs (getElem?_enrolled earlier _)
      exact ⟨r, found, listens.phase⟩

/-- **A start brings all routes of a table to run** if the table compiles, there can be lanes, and
the places of the routes are there, free and different. -/
theorem starts_iff (memory : w.seats.InMemory) : w.Starts table above ↔ w.crashed = false ∧
    ∃ routes places, w.environment.compile table = .ok routes ∧ w.fits routes = true ∧
      Places w routes places := by
  rw [Starts]
  generalize taking memory table above = goes
  generalize w.start table above = result at goes
  constructor
  · rintro ⟨index, w', same, sane⟩
    subst same
    cases goes with
    | runs compiled fit crashed _ =>
      rw [sane, eq_comm, Bool.or_eq_false_iff, Bool.not_eq_false'] at crashed
      exact ⟨crashed.1, _, _, compiled, crashed.2, fit⟩
  · rintro ⟨sane, routes, places, compiled, fits, fit⟩
    cases goes with
    | rejected defect _ =>
      rw [defect] at compiled
      cases compiled
    | @runs routes' _ w' compiled' _ crashed _ =>
      rw [compiled'] at compiled
      cases compiled
      exact ⟨_, _, rfl, by rw [crashed, sane, fits]; rfl⟩
    | refused compiled' blocked _ _ =>
      rw [compiled'] at compiled
      cases compiled
      exact absurd fit blocked.not_places

end World

end Rehearsal

end MessageBridge
