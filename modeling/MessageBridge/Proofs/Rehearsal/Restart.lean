import MessageBridge.Proofs.Rehearsal.Later
import MessageBridge.Proofs.Rehearsal.Seats
import MessageBridge.Proofs.Rehearsal.Stop

/-!
# Starting again

What a history of starts leaves behind on connectors in memory. A seat that a start took stays
taken: neither the end of the run nor that of a failed start gives it back. `Course` follows the
seats through everything that can happen without a closing, with a list of those that were taken;
hence a table that would start if the connectors were built anew starts exactly if none of its
places is on that list (`restart`).
-/

namespace MessageBridge

namespace Rehearsal.World

variable {w₀ w w' : World} {taken : List Place} {table : RouteTable} {above : Nat}

/-! ## Histories -/

/-- What can come of a world without a closing, and the places on which starts have put handlers in
the course of it. -/
inductive Course (w₀ : World) : List Place → World → Prop where
  | refl : Course w₀ [] w₀
  /-- The routes of a table are started, whatever comes of it. -/
  | start {taken : List Place} {w : World} (table : RouteTable) (above : Nat)
      (course : Course w₀ taken w) :
      Course w₀ (taken ++ w.seated table above) (w.start table above).2
  /-- A run is told to stop. -/
  | stop {taken : List Place} {w : World} (run : Nat) (course : Course w₀ taken w) :
      Course w₀ taken (w.stop run).2
  /-- A message is injected. -/
  | inject {taken : List Place} {w : World} (connector : Nat) (source : String) (m : Message)
      (course : Course w₀ taken w) : Course w₀ taken (w.inject connector source m).2
  /-- Somebody fires a token. -/
  | fire {taken : List Place} {w : World} (token : Nat) (course : Course w₀ taken w) :
      Course w₀ taken (w.fire token)
  /-- Things happen by themselves. -/
  | advance {taken : List Place} {w : World} (purpose : World → Bool) (limit : Option Nat)
      (fuel : Nat) (course : Course w₀ taken w) : Course w₀ taken (w.advance purpose limit fuel)
  /-- Anything else happens that leaves ingress points as free or occupied as they are. Another
  engine may take over. -/
  | other {taken : List Place} {w w' : World} (course : Course w₀ taken w)
      (seats : w'.seats = w.seats) : Course w₀ taken w'

theorem seats_stop (run : Nat) (w : World) : (w.stop run).2.seats = w.seats := by
  rw [stop_eq, seats_stepRun]
  rfl

theorem seats_start (memory : w.seats.InMemory) (table : RouteTable) (above : Nat) :
    (w.start table above).2.seats = w.seats.takeAll (w.seated table above) := by
  generalize taking memory table above = goes
  generalize w.start table above = result at goes
  cases goes with
  | rejected _ seats => exact seats
  | runs _ _ _ seats => exact seats
  | refused _ _ seats _ => exact seats

/-- **Seats that were taken stay taken**, and no others are. -/
theorem Course.seats (course : Course w₀ taken w) (memory : w₀.seats.InMemory) :
    w.seats = w₀.seats.takeAll taken := by
  induction course with
  | refl => rfl
  | start table above _ ih =>
    rw [seats_start (ih ▸ memory.takeAll _), Seats.takeAll_append, ih]
  | stop run _ ih => exact (seats_stop run _).trans ih
  | inject connector source m _ ih => exact (ticks_inject connector source m _).seats.trans ih
  | fire token _ ih => exact (still_fire token _).seats.trans ih
  | advance purpose limit fuel _ ih => exact (ticks_advance purpose limit fuel _).seats.trans ih
  | other _ seats ih => exact seats.trans ih

/-! ## Building anew -/

/-- All connectors are in memory and freshly built. -/
def Fresh (w : World) : Prop :=
  ∀ c ∈ w.connectors, ∃ name sources targets, c = .memory (.ofNames name sources targets)

theorem Fresh.inMemory (fresh : w.Fresh) : w.seats.InMemory := by
  intro row hrow
  obtain ⟨c, hc, rfl⟩ := List.mem_map.mp hrow
  obtain ⟨name, sources, targets, rfl⟩ := fresh c hc
  rfl

theorem Fresh.free (fresh : w.Fresh) {p : Place} {x : Seat} (found : w.seats.at? p = some x) :
    x.free = true := by
  obtain ⟨-, nobody⟩ | ⟨k, here, cell⟩ := exists_of_at? fresh.inMemory p
  · rw [nobody] at found
    cases found
  · obtain ⟨name, sources, targets, same⟩ := fresh _ (List.mem_of_getElem? here)
    cases same
    rw [cell] at found
    obtain ⟨i, hi, rfl⟩ := Option.map_eq_some_iff.mp found
    obtain ⟨source, -, rfl⟩ := List.mem_map.mp (List.mem_of_getElem? hi)
    rfl

theorem Fresh.going (fresh : w.Fresh) {p : Place} {x : Seat} (found : w.seats.at? p = some x) :
    x.stopped = false := by
  have free := fresh.free found
  rw [Seat.free, Bool.and_eq_true, Bool.not_eq_true'] at free
  simpa using free.2

/-- A world as it would be if its connectors were those of another one. -/
def rebuilt (w w₀ : World) : World := { w with connectors := w₀.connectors }

/-- What is compiled against buses over connectors does not depend on how far these have come. -/
theorem environment_rebuilt (adapters : ∀ b ∈ w.buses, ∃ i a, b = .adapter i a) (w₀ : World) :
    (w.rebuilt w₀).environment = w.environment := by
  have same (handle : Nat) : (w.rebuilt w₀).view handle = w.view handle := by
    rw [view, view, rebuilt]
    cases found : w.buses[handle]? with
    | none => rfl
    | some b =>
      obtain ⟨i, a, rfl⟩ := adapters b (List.mem_of_getElem? found)
      rfl
  rw [environment, environment]
  simp only [same]
  rfl

/-- The places of the routes of a table. -/
def places (table : RouteTable) (w : World) : List Place :=
  match w.environment.compile table with
  | .error _ => []
  | .ok routes => routes.filterMap w.place?

/-- Places fit in the course of a world if they would if it were built anew, and are not taken. -/
theorem Course.places_iff (course : Course w₀ taken w) (fresh : w₀.Fresh)
    {routes : List CompiledRoute} {places : List Place} :
    Places w routes places ↔
      Places (w.rebuilt w₀) routes places ∧ ∀ p ∈ places, p ∉ taken := by
  have free (p : Place) : w.seats.Free p ↔ p ∉ taken ∧ (w.rebuilt w₀).seats.Free p := by
    rw [course.seats fresh.inMemory]
    exact Seats.free_takeAll
  constructor
  · rintro ⟨there, different, all⟩
    exact ⟨⟨there, different, fun p hp ↦ ((free p).mp (all p hp)).2⟩,
      fun p hp ↦ ((free p).mp (all p hp)).1⟩
  · rintro ⟨⟨there, different, all⟩, apart⟩
    exact ⟨there, different, fun p hp ↦ (free p).mpr ⟨apart p hp, all p hp⟩⟩

/-! ## The whole history -/

/-- A start is turned away: it is refused for its first route whose place was taken in the course of
the world, and takes itself back with the error that this place has a subscriber. -/
inductive TurnedAway (w₀ : World) (taken : List Place) (w : World) (table : RouteTable) :
    Except CompileError (Nat × Option Nat) × World → Prop where
  | intro {before after : List CompiledRoute} {route : CompiledRoute} {p : Place} {seat : Seat}
      {id : Nat} {w' : World} {r : RunRecord}
      (compiled : w.environment.compile table = .ok (before ++ route :: after))
      (earlier : ∀ q ∈ before.filterMap w.place?, q ∉ taken) (here : w.place? route = some p)
      (occupied : p ∈ taken) (found : w₀.seats.at? p = some seat)
      (entered : w'.runs[w.runs.length]? = some r)
      (retracts : r.run.phase = .retracting (.subscribe route.name
        (.subscribe (Text.quoted seat.source ++ " already has a subscriber")))) :
      TurnedAway w₀ taken w table (.ok (w.runs.length, some id), w')

/-- **A source serves one run.** After any history without closings, a table that would start if the
connectors were built anew starts if none of its sources was subscribed by an earlier start of the
history, no matter how that ended; otherwise it is turned away. -/
theorem restart (fresh : w₀.Fresh) (course : Course w₀ taken w)
    (adapters : ∀ b ∈ w.buses, ∃ i a, b = .adapter i a)
    (would : (w.rebuilt w₀).Starts table above) :
    (w.Starts table above ↔ ∀ p ∈ w.places table, p ∉ taken) ∧
      (¬w.Starts table above → TurnedAway w₀ taken w table (w.start table above)) := by
  have memory : w.seats.InMemory := course.seats fresh.inMemory ▸ fresh.inMemory.takeAll taken
  obtain ⟨sane, routes, places, compiled, fits, fit⟩ :=
    (starts_iff (w := w.rebuilt w₀) fresh.inMemory).mp would
  rw [environment_rebuilt adapters] at compiled
  have all : w.places table = places := by
    rw [World.places, compiled]
    exact fit.filterMap
  have decided : w.Starts table above ↔ ∀ p ∈ w.places table, p ∉ taken := by
    rw [all, starts_iff memory]
    constructor
    · rintro ⟨-, routes', places', compiled', -, fit'⟩
      rw [compiled'] at compiled
      cases compiled
      obtain ⟨again, apart⟩ := (course.places_iff fresh).mp fit'
      rwa [again.unique fit] at apart
    · intro apart
      exact ⟨sane, routes, places, compiled, fits, (course.places_iff fresh).mpr ⟨fit, apart⟩⟩
  refine ⟨decided, fun stays ↦ ?_⟩
  -- the table compiles and does not start, so it is refused at a source
  generalize taking memory table above = goes
  generalize w.start table above = result at goes
  cases goes with
  | rejected defect _ =>
    rw [defect] at compiled
    cases compiled
  | runs compiled' fit' _ _ =>
    rw [compiled'] at compiled
    cases compiled
    exact absurd ((starts_iff memory).mpr ⟨sane, _, _, compiled', fits, fit'⟩) stays
  | @refused before after route first e id w' compiled' blocked _ retracts =>
    rw [compiled'] at compiled
    cases compiled
    obtain ⟨r, entered, phase⟩ := retracts
    obtain ⟨first', p, earlier, here, ⟨seat, found, _⟩, apart⟩ := fit.append_cons
    obtain ⟨before', free⟩ := (course.places_iff fresh).mp blocked.before
    have later : w.seats.at? p =
        some (if p ∈ taken then { seat with taken := true } else seat) := by
      have there : w₀.seats.at? p = some seat := found
      rw [course.seats fresh.inMemory, Seats.at?_takeAll, there, Option.map_some]
    have occupied : p ∈ taken := by
      by_contra notMem
      rw [if_neg notMem] at later
      exact apart (before'.unique earlier ▸ blocked.occupied p here ⟨seat, later, ‹_›⟩)
    rw [if_pos occupied] at later
    have going : seat.stopped = false := fresh.going found
    have reason := blocked.reason here later going
    refine .intro compiled' ?_ here occupied found entered (reason ▸ phase)
    rw [blocked.before.filterMap]
    exact free

/-! ## A history -/

/-- A route from another source of the bus to its target. -/
def beside : RouteTable := ⟨[.direct "beside" ⟨"bus", "side"⟩ ⟨"bus", "out"⟩], []⟩

/-- A world in which a run has come and gone. -/
def afterStop (s : EngineSettings) (sources : List String) : World :=
  (((inMemory s sources).start through 0).2.stop 0).2.awaitCall 0

theorem course_afterStop (s : EngineSettings) (sources : List String) :
    Course (inMemory s sources) ((inMemory s sources).seated through 0) (afterStop s sources) :=
  ((Course.refl.start through 0).stop 0).advance _ _ _

theorem fresh_inMemory (s : EngineSettings) (sources : List String) :
    (inMemory s sources).Fresh := by
  intro c hc
  rw [List.mem_singleton.mp hc]
  exact ⟨_, _, _, rfl⟩

/-- After a run from one of two sources has stopped, a run from the other starts, and one from the
same is turned away. -/
theorem restart_of_stopped :
    (afterStop Running.oneLane ["in", "side"]).runs.map (fun r ↦ r.run.phase) = [.ended none] ∧
      (afterStop Running.oneLane ["in", "side"]).Starts beside 0 ∧
      TurnedAway (inMemory Running.oneLane ["in", "side"]) [(0, 0)]
        (afterStop Running.oneLane ["in", "side"]) through
        ((afterStop Running.oneLane ["in", "side"]).start through 0) := by
  have adapters : ∀ b ∈ (afterStop Running.oneLane ["in", "side"]).buses,
      ∃ i a, b = .adapter i a := by
    intro b hb
    rw [List.mem_singleton.mp hb]
    exact ⟨_, _, rfl⟩
  have course := course_afterStop Running.oneLane ["in", "side"]
  have fresh := fresh_inMemory Running.oneLane ["in", "side"]
  have would (table : RouteTable) (known : table = beside ∨ table = through) :
      ((afterStop Running.oneLane ["in", "side"]).rebuilt
        (inMemory Running.oneLane ["in", "side"])).Starts table 0 := by
    rcases known with rfl | rfl <;> exact ⟨_, _, Prod.ext rfl rfl, rfl⟩
  have other := restart fresh course adapters (would beside (.inl rfl))
  have same := restart fresh course adapters (would through (.inr rfl))
  refine ⟨rfl, other.1.mpr ?_, same.2 fun starts ↦ ?_⟩
  · decide
  · exact absurd (same.1.mp starts) (by decide)

/-- A run from a source has stopped, and nothing runs; yet a table that would start on connectors
built anew does not start. -/
theorem occupied_after_stop :
    (afterStop Running.oneLane ["in"]).runs.map (fun r ↦ r.run.phase) = [.ended none] ∧
      ((afterStop Running.oneLane ["in"]).rebuilt (inMemory Running.oneLane ["in"])).Starts
        through 0 ∧
      ¬(afterStop Running.oneLane ["in"]).Starts through 0 := by
  refine ⟨rfl, ⟨_, _, Prod.ext rfl rfl, rfl⟩, ?_⟩
  rintro ⟨index, w', started, -⟩
  have answer : ((afterStop Running.oneLane ["in"]).start through 0).1 = .ok (1, some 1) := rfl
  rw [started] at answer
  cases answer

end Rehearsal.World

end MessageBridge
