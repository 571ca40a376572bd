import MessageBridge.Check
import MessageBridge.Proofs.Config.Reload
import MessageBridge.Proofs.Rehearsal.Start
import MessageBridge.Proofs.Rehearsal.Stop

/-!
# Tuning that can be run

The number of lanes and the depth of their queues come from a configuration, or are set on the
engine. Each of them is raised to one, wherever it comes from and once more when a pool is made. So
no pool is without a lane and no queue without a place (`Config.Tuned`). Nothing lowers them,
however: a declared number is clamped to 64 bits only, while queues can have 61 bits of places and
pools 58 bits of lanes. Beyond that a start comes to grief, and the check of a configuration, which
starts nothing, does not notice (`Config.deep_but_checked`).
-/

namespace MessageBridge

open Document (maxUInt64)

/-! ## Settings -/

/-- A setting of an engine. -/
inductive Setting where
  /-- Another number of lanes. -/
  | lanes (n : Nat)
  /-- Another queue depth. -/
  | depth (n : Nat)
  /-- Other waits. -/
  | backoff (b : Backoff)

namespace Setting

/-- The numbers have 64 bits. -/
def Fits : Setting → Prop
  | lanes n | depth n => n ≤ maxUInt64
  | backoff _ => True

/-- The number of lanes that is asked for. -/
def lanes? : Setting → Option Nat
  | lanes n => some n
  | _ => none

/-- The queue depth that is asked for. -/
def depth? : Setting → Option Nat
  | depth n => some n
  | _ => none

end Setting

namespace EngineSettings

variable {s : EngineSettings} {changes : List Setting}

/-- The settings after one of them is set. -/
def set (s : EngineSettings) : Setting → EngineSettings
  | .lanes n => s.withLanes n
  | .depth n => s.withDepth n
  | .backoff b => s.withBackoff b

/-- The settings after some are set, one after the other. -/
def setAll (changes : List Setting) (s : EngineSettings) : EngineSettings := changes.foldl set s

/-- There is a lane and a place, and the numbers have 64 bits. -/
structure Sized (s : EngineSettings) : Prop where
  lanes : 1 ≤ s.lanes
  lanes_le : s.lanes ≤ maxUInt64
  depth : 1 ≤ s.depth
  depth_le : s.depth ≤ maxUInt64

theorem raised {n : Nat} (range : n ≤ maxUInt64) : 1 ≤ max n 1 ∧ max n 1 ≤ maxUInt64 :=
  ⟨Nat.le_max_right n 1, Nat.max_le.mpr ⟨range, by decide⟩⟩

theorem Sized.set (sized : s.Sized) {x : Setting} (fits : x.Fits) : (s.set x).Sized := by
  obtain ⟨lanes, lanes_le, depth, depth_le⟩ := sized
  cases x with
  | lanes n => exact ⟨(raised fits).1, (raised fits).2, depth, depth_le⟩
  | depth n => exact ⟨lanes, lanes_le, (raised fits).1, (raised fits).2⟩
  | backoff b => exact ⟨lanes, lanes_le, depth, depth_le⟩

theorem Sized.setAll (sized : s.Sized) (fits : ∀ x ∈ changes, x.Fits) :
    (s.setAll changes).Sized := by
  induction changes generalizing s with
  | nil => exact sized
  | cons x rest ih =>
    obtain ⟨first, others⟩ := List.forall_mem_cons.mp fits
    exact ih (sized.set first) others

/-- A number that is raised to one whenever it is set is the last one that was asked for. -/
theorem setAll_eq {number : EngineSettings → Nat} {asks? : Setting → Option Nat}
    (obeys : ∀ s x, number (s.set x) = match asks? x with
      | some n => max n 1
      | none => number s) {n : Nat} (start : number s = max n 1) :
    number (s.setAll changes) = max ((changes.filterMap asks?).getLast?.getD n) 1 := by
  induction changes generalizing s n with
  | nil => exact start
  | cons x rest ih =>
    have first := obeys s x
    cases asked : asks? x with
    | none =>
      rw [asked] at first
      rw [List.filterMap_cons_none asked]
      exact ih (first.trans start)
    | some m =>
      rw [asked] at first
      rw [List.filterMap_cons_some asked, List.getLast?_cons, Option.getD_some]
      exact ih first

theorem lanes_set (s : EngineSettings) (x : Setting) : (s.set x).lanes = match x.lanes? with
    | some n => max n 1
    | none => s.lanes := by
  cases x <;> rfl

theorem depth_set (s : EngineSettings) (x : Setting) : (s.set x).depth = match x.depth? with
    | some n => max n 1
    | none => s.depth := by
  cases x <;> rfl

theorem Sized.realizable_iff (sized : s.Sized) : s.realizable = false ↔
    Queue.greatestDepth < s.depth ∨ greatestLaneCount < s.lanes := by
  have lanes := sized.lanes
  have depth := sized.depth
  rw [realizable, decide_eq_false_iff_not]
  omega

end EngineSettings

/-! ## Starting -/

/-- A start of routes comes to grief just if their pools cannot be made. -/
theorem Rehearsal.World.crashed_start {w : World} {table : RouteTable} {above : Nat}
    {routes : List CompiledRoute} (compiled : w.environment.compile table = .ok routes) :
    (w.start table above).2.crashed = (w.crashed || !w.fits routes) := by
  generalize started w table above = began
  generalize w.start table above = result at began
  cases began with
  | rejected defect =>
    rw [compiled] at defect
    cases defect
  | runs compiled' accepted _ still =>
    rw [compiled] at compiled'
    cases compiled'
    exact crashed_of_entered (quiet_of_accepted accepted) still.crashed
  | refused compiled' _ accepted refused _ still =>
    rw [compiled] at compiled'
    cases compiled'
    exact crashed_of_entered (quiet_of_refused accepted refused) still.crashed

namespace Config

variable {text : String} {c : Config} {changes : List Setting}

/-- What becomes of the tuning of a configuration after some settings. -/
structure Tuned (c : Config) (changes : List Setting) (s : EngineSettings) : Prop where
  /-- The last numbers that were asked for count, and are raised to one. -/
  lanes : s.lanes = max ((changes.filterMap Setting.lanes?).getLast?.getD c.bridge.lanes) 1
  depth : s.depth = max ((changes.filterMap Setting.depth?).getLast?.getD c.bridge.depth) 1
  /-- There is a lane and a place, and the numbers have 64 bits. -/
  sized : s.Sized
  /-- Every pool has these lanes and places. -/
  pools : ∀ d : Destination, (Pool.ofSettings s d : Pool Job).lanes.length = s.lanes ∧
    ∀ l ∈ (Pool.ofSettings s d : Pool Job).lanes, l.queue.depth = s.depth
  /-- A start comes to grief just if there are more of them than a queue or a pool can have. -/
  grief : ∀ (w : Rehearsal.World) (table : RouteTable) (above : Nat) (routes : List CompiledRoute),
    w.parts.settings = s → w.crashed = false → w.environment.compile table = .ok routes →
      routes ≠ [] → ((w.start table above).2.crashed = true ↔
        Queue.greatestDepth < s.depth ∨ greatestLaneCount < s.lanes)

theorem sized_settings (read : ofString? text = .ok c) : c.settings.Sized := by
  obtain ⟨_, -, declares, -⟩ := ofString?_eq_ok_iff.mp read
  obtain ⟨⟨lanes, depth, -, -⟩, -⟩ := (sound_iff.mp (Document.sound_of_config? declares)).1
  exact ⟨(EngineSettings.raised lanes).1, (EngineSettings.raised lanes).2,
    (EngineSettings.raised depth).1, (EngineSettings.raised depth).2⟩

/-- **Whatever a text declares and is set after that, there is a lane and a place**, and a start
comes to grief just if there are too many. -/
theorem tuned (read : ofString? text = .ok c) (fits : ∀ x ∈ changes, x.Fits) :
    c.Tuned changes (c.settings.setAll changes) := by
  have sized := (sized_settings read).setAll fits
  refine ⟨EngineSettings.setAll_eq EngineSettings.lanes_set rfl,
    EngineSettings.setAll_eq EngineSettings.depth_set rfl, sized, fun d ↦ ?_,
    fun w table above routes same sane compiled some_route ↦ ?_⟩
  · refine ⟨List.length_replicate.trans (Nat.max_eq_left sized.lanes), fun l mem ↦ ?_⟩
    rw [List.eq_of_mem_replicate mem]
    exact Nat.max_eq_left sized.depth
  · have fit : w.fits routes = (c.settings.setAll changes).realizable := by
      rw [Rehearsal.World.fits, same, List.isEmpty_eq_false_iff.mpr some_route, Bool.false_or]
    rw [Rehearsal.World.crashed_start compiled, sane, fit, Bool.false_or, Bool.not_eq_true',
      sized.realizable_iff]

/-- A declaration of one route, with no lanes and far too many places. -/
def deepText : String :=
  "\x7bbridge: \x7blanes_per_destination: -1, lane_queue_depth: 1e30\x7d, " ++
    "connectors: [\x7bname: 'bus', kind: 'memory', sources: ['in'], targets: ['out']\x7d], " ++
      "routes: [\x7bname: 'through', from: \x7bconnector: 'bus', source: 'in'\x7d, " ++
        "to: \x7bconnector: 'bus', target: 'out'\x7d\x7d]\x7d"

/-- What that text declares. -/
def deep : Config :=
  { bridge := { lanes := 0, depth := 18446744073709551615 }
    connectors := [⟨"bus", .memory, ["in"], ["out"]⟩]
    routes := Rehearsal.World.through.routes }

theorem read_deep : ofString? deepText = .ok deep := by decide +kernel

/-- The declared numbers are raised and clamped, and a start with them comes to grief; with another
depth it does not. -/
theorem tuned_of_deep :
    ofString? deepText = .ok deep ∧ deep.Tuned [] ⟨1, 18446744073709551615, deep.settings.backoff⟩ ∧
      ((Rehearsal.World.inMemory deep.settings ["in"]).start deep.table 0).2.crashed = true ∧
      deep.Tuned [.depth 7, .lanes 0, .depth 8] ⟨1, 8, deep.settings.backoff⟩ ∧
      ((Rehearsal.World.inMemory ⟨1, 8, deep.settings.backoff⟩ ["in"]).start
        deep.table 0).2.crashed = false := by
  have declared : deep.Tuned [] _ := tuned read_deep (by simp)
  have changed : deep.Tuned [.depth 7, .lanes 0, .depth 8] _ :=
    tuned read_deep (by simp [Setting.Fits, maxUInt64])
  refine ⟨read_deep, declared, ?_, changed, ?_⟩
  · exact (declared.grief _ _ 0 _ rfl rfl rfl (List.cons_ne_nil _ _)).mpr (.inl (by decide))
  · have sane := not_congr (changed.grief (Rehearsal.World.inMemory
      ⟨1, 8, deep.settings.backoff⟩ ["in"]) deep.table 0 _ rfl rfl rfl (List.cons_ne_nil _ _))
    exact Bool.eq_false_iff.mpr (sane.mpr (by decide))

/-- The check of a configuration accepts its route, which cannot be started. -/
theorem deep_but_checked :
    ∃ routes, CheckOutcome.ofContents (.ok deepText) = .accepted routes ∧
      ofString? deepText = .ok deep ∧
      (Rehearsal.World.inMemory deep.settings ["in"]).connectors =
        (deep.buildConnectors Rehearsal.Subscriber).map .memory ∧
      (Rehearsal.World.inMemory deep.settings ["in"]).environment.compile deep.table = .ok routes ∧
      (Rehearsal.World.inMemory deep.settings ["in"]).crashed = false ∧
      ((Rehearsal.World.inMemory deep.settings ["in"]).start deep.table 0).2.crashed = true := by
  have compiled : ∃ routes, deep.environment.compile deep.table = .ok routes ∧
      (Rehearsal.World.inMemory deep.settings ["in"]).environment.compile deep.table = .ok routes :=
    ⟨_, rfl, rfl⟩
  obtain ⟨routes, checked, compiled⟩ := compiled
  refine ⟨routes, ?_, read_deep, rfl, compiled, rfl, rfl⟩
  rw [CheckOutcome.ofContents, read_deep]
  dsimp only
  rw [checked]

end Config

end MessageBridge
