import MessageBridge.Proofs.Lane.Fairness
import MessageBridge.Proofs.Route.Story

/-!
# The lanes of a route take turns

The legs of all calls submit to the lanes of a destination, each of them once and then again after
every wait, in any order among each other and with whatever else happens to the route. The counter
of the lanes sees none of this but the number of submissions (`Running.picks_of_step`), so each lane
gets its share of them (`Running.fair_turns`).
-/

namespace MessageBridge.Running

universe u

variable {s : EngineSettings} {route : CompiledRoute} {past : Past} {r r' : Running} {clock : Clock}
  {a : Action} {outputs : List Output} {i : Nat} {p p' : Pool Job}

/-- The lane of a destination that is picked in a step. -/
def picking (i : Nat) (mo : Moment Running (Clock × Action) Output) : List Nat :=
  match mo.action.2 with
  | .submit _ d => if d = i then ((mo.before.pools[i]?).map Pool.turn).toList else []
  | _ => []

/-- The lanes of a destination that were picked, in order. -/
def picked (i : Nat) (past : Past) : List Nat := past.flatMap (picking i)

theorem picked_concat (i : Nat) (past : Past) (mo) :
    picked i (past ++ [mo]) = picked i past ++ picking i mo := by
  rw [picked, List.flatMap_append, List.flatMap_singleton]
  rfl

/-! ## Steps -/

theorem picking_eq_nil (other : ∀ call, a ≠ .submit call i) :
    picking i ⟨r, (clock, a), r', outputs⟩ = [] := by
  cases a with
  | submit call d =>
    refine if_neg ?_
    rintro rfl
    exact other call rfl
  | _ => rfl

theorem PoolStep.picks (sees : PoolStep r i a p p') (other : ∀ call, a ≠ .submit call i) :
    p.Picks [] p' := by
  cases sees with
  | same => exact Pool.picks_nil rfl rfl
  | submit => exact absurd rfl (other _)
  | take taken => exact Pool.picks_take? taken
  | finish finished => exact Pool.picks_finish? finished
  | crash crashed => exact Pool.picks_crash? crashed
  | drain drained => exact Pool.picks_drain? drained
  | retire ended => exact Pool.picks_end? ended
  | leave => exact Pool.picks_map _ p
  | close => exact Pool.picks_nil rfl rfl
  | release => exact Pool.picks_map _ p

/-- A step of a route picks a lane of a destination just if a leg submits a job there. -/
theorem picks_of_step (step : r.step? clock a = some (r', outputs)) (hp' : r'.pools[i]? = some p') :
    ∃ p, r.pools[i]? = some p ∧ p.Picks (picking i ⟨r, (clock, a), r', outputs⟩) p' := by
  by_cases submits : ∃ call, a = .submit call i
  · obtain ⟨call, rfl⟩ := submits
    obtain ⟨-, h, leg, p, -, -, -, hp, done⟩ := submit?_cases step
    have pools : r'.pools = r.pools.set i (p.submit ⟨call, h.message⟩).1 := by
      rcases done with ⟨-, rfl⟩ | ⟨-, rfl⟩
      · rfl
      · exact loseJobs_pools ..
    rw [pools, List.getElem?_set_self (List.getElem?_eq_some_iff.mp hp).1] at hp'
    cases hp'
    have turn : picking i ⟨r, (clock, .submit call i), r', outputs⟩ = [p.turn] := by
      simp [picking, hp]
    exact ⟨p, hp, turn ▸ Pool.picks_submit _ p⟩
  · have other : ∀ call, a ≠ .submit call i := fun call same ↦ submits ⟨call, same⟩
    obtain ⟨p, hp, sees⟩ := (poolSteps_of_step step).2 hp'
    exact ⟨p, hp, picking_eq_nil other ▸ sees.picks other⟩

/-! ## Whole runs -/

theorem picks_of_runs (runs : Runs s route past r) (hp : r.pools[i]? = some p) :
    ∃ d, (Pool.ofSettings s d).Picks (picked i past) p := by
  induction runs generalizing p with
  | refl =>
    rw [ofRoute, List.getElem?_map, Option.map_eq_some_iff] at hp
    obtain ⟨d, -, rfl⟩ := hp
    exact ⟨d, Pool.picks_nil rfl rfl⟩
  | snoc _ step ih =>
    obtain ⟨q, hq, picks⟩ := picks_of_step step hp
    obtain ⟨d, before⟩ := ih hq
    rw [picked_concat]
    exact ⟨d, before.trans picks⟩

/-- **The lanes of a pool take turns.** Whatever its counter says, the lane that is picked is there
and alone gets the job. Whoever submits and whatever else happens, from any counter on, the lanes
are picked fairly; and so are those of each destination of a route, from its start on. -/
theorem fair_turns {α : Type u} :
    (∀ (p : Pool α) (job : α), p.lanes ≠ [] →
      ∃ l, p.lanes[p.turn]? = some l ∧
        ((p.submit job).1.lanes, (p.submit job).2) =
          match l.submit? job with
          | some l' => (p.lanes.set p.turn l', true)
          | none => (p.lanes, false)) ∧
      (∀ {S S' : Service α} {own : List (Service.Event α)}, Execution Service.step? S own S' →
        S.pool.lanes ≠ [] → Pool.Fair S.pool.lanes.length S.pool.picks (Service.picked own)) ∧
      ∀ {s : EngineSettings} {route : CompiledRoute} {past : Past} {r : Running} {i : Nat}
        {p : Pool Job}, Runs s route past r → r.pools[i]? = some p →
          p.lanes.length = max s.lanes 1 ∧ Pool.Fair p.lanes.length 0 (picked i past) := by
  refine ⟨fun p job some_lane ↦ ?_, fun exec some_lane ↦ ?_, fun {s _ _ _ _ _} runs hp ↦ ?_⟩
  · have there : p.turn < p.lanes.length := Nat.mod_lt _ (List.length_pos_iff.mpr some_lane)
    refine ⟨_, List.getElem?_eq_getElem there, ?_⟩
    obtain ⟨l, l', hl, submitted, done⟩ | ⟨refuses, done⟩ := Pool.submit_cases job p
    · rw [List.getElem?_eq_getElem there] at hl
      cases hl
      rw [done, submitted]
      rfl
    · rw [done, refuses _ (List.getElem?_eq_getElem there)]
      rfl
  · exact (Service.picks_of_exec exec).fair some_lane
  · obtain ⟨d, picks⟩ := picks_of_runs runs hp
    have lanes : (Pool.ofSettings s d : Pool Job).lanes.length = max s.lanes 1 :=
      List.length_replicate
    have some_lane : (Pool.ofSettings s d : Pool Job).lanes ≠ [] := by
      rw [← List.length_pos_iff, lanes]
      exact Nat.le_max_right s.lanes 1
    exact ⟨picks.lanes.trans lanes, picks.lanes ▸ picks.fair some_lane⟩

/-- Three lanes whose counter is about to wrap: the first one is picked twice in a row, the second
time in vain, since its worker has crashed. And a route with two lanes in front of each destination,
the first of which refuses the message twice. -/
theorem fair_turns_of_wrap :
    (∃ (S S' : Service Nat) (own : List (Service.Event Nat)),
      Execution Service.step? S own S' ∧ S.pool.lanes ≠ [] ∧ S.pool.picks = 18446744073709551615 ∧
        S.pool.lanes.length = 3 ∧ Service.picked own = [0, 0, 1] ∧
        Pool.Fair 3 18446744073709551615 (Service.picked own)) ∧
      ∃ (past : Past) (r : Running) (p : Pool Job),
        Runs ⟨2, 1, .standard⟩ { pairOnce with mode := .persistent } past r ∧
          r.pools[0]? = some p ∧ picked 0 past = [0, 1, 0] ∧ picked 1 past = [0] ∧
          p.lanes.length = 2 ∧ Pool.Fair p.lanes.length 0 (picked 0 past) := by
  have exec := (Execution.refl : Execution Service.step?
      (⟨⟨⟨0, "out", "copies", "out:copies"⟩, List.replicate 3 (.idle 1), 18446744073709551615,
        false⟩, [], 0⟩ : Service Nat) [] _)
    |>.snoc (a := .submit 10) rfl |>.snoc (a := .take 0) rfl |>.snoc (a := .crash 0) rfl
    |>.snoc (a := .submit 20) rfl |>.snoc (a := .submit 30) rfl
  have runs := (Execution.refl :
      Runs ⟨2, 1, .standard⟩ { pairOnce with mode := .persistent } [] _)
    |>.snoc (a := (⟨0, 0⟩, .handle 0 note)) rfl
    |>.snoc (a := (⟨0, 0⟩, .submit 0 0)) rfl
    |>.snoc (a := (⟨0, 0⟩, .submit 0 1)) rfl
    |>.snoc (a := (⟨0, 0⟩, .take 0 0)) rfl
    |>.snoc (a := (⟨0, 0⟩, .reply 0 0 (.error .closed))) rfl
    |>.snoc (a := (⟨50, 50⟩, .wake 0 0)) rfl
    |>.snoc (a := (⟨50, 50⟩, .submit 0 0)) rfl
    |>.snoc (a := (⟨50, 50⟩, .take 0 1)) rfl
    |>.snoc (a := (⟨50, 50⟩, .reply 0 1 (.error .closed))) rfl
    |>.snoc (a := (⟨150, 150⟩, .wake 0 0)) rfl
    |>.snoc (a := (⟨150, 150⟩, .submit 0 0)) rfl
  have own := (fair_turns (α := Nat)).2.1 exec (List.cons_ne_nil _ _)
  have fair := (fair_turns (α := Nat)).2.2 runs (i := 0) rfl
  exact ⟨⟨_, _, _, exec, List.cons_ne_nil _ _, rfl, rfl, rfl, own⟩,
    _, _, _, runs, rfl, rfl, rfl, fair⟩

end MessageBridge.Running
