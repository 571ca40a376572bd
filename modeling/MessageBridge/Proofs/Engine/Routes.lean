import MessageBridge.Engine
import MessageBridge.Proofs.Route.History

/-!
# The routes of a run

A run is its routes side by side. Each step of a run means at most one step for each of its routes,
and what the run tells about a route is what that step tells. So the history of a run, seen from a
place, is a history of the route at that place, and everything that holds of all histories of
routes holds there.
-/

namespace MessageBridge

/-- What is told about the route at a place. -/
def RunOutput.about? (i : Nat) : RunOutput → Option Output
  | .route j o => if j = i then some o else none
  | _ => none

namespace Run

variable {clock : Clock} {run run' : Run} {outputs : List RunOutput} {a : RunAction} {i : Nat}
  {r : Running}

/-- The machine of a run, with the clock readings as part of the action. -/
def act (run : Run) (a : Clock × RunAction) : Option RunReaction := run.step? a.1 a.2

/-- What has happened to a run. -/
abbrev Past := List (Moment Run (Clock × RunAction) RunOutput)

/-! ## One place -/

/-- What an action of a run is for the route at a place. -/
def share (i : Nat) (run : Run) (r : Running) : RunAction → Option Action
  | .route j a => if j = i then some a else none
  | .cancel => some .cancel
  | .stop => if r.phase = .running then some .stop else none
  | .proceed =>
    match run.phase with
    | .retracting _ => if r.phase = .running then some .stop else none
    | _ => none

/-- What a step of a run is for the route at a place. -/
def own (i : Nat) (mo : Moment Run (Clock × RunAction) RunOutput) : Running.Past :=
  match mo.before.routes[i]?, mo.after.routes[i]? with
  | some r, some r' =>
    (share i mo.before r mo.action.2).toList.map fun a ↦
      ⟨r, (mo.action.1, a), r', mo.outputs.filterMap (RunOutput.about? i)⟩
  | _, _ => []

/-! ## Stopping all routes -/

theorem about?_of_route (i j : Nat) (told : List Output) :
    (told.map (RunOutput.route j)).filterMap (RunOutput.about? i) = if j = i then told else [] := by
  rw [List.filterMap_map]
  split
  · rename_i here
    subst here
    have all : RunOutput.about? j ∘ RunOutput.route j = some := by
      funext o
      exact if_pos rfl
    rw [all, List.filterMap_some]
  · rename_i other
    exact List.filterMap_eq_nil_iff.mpr fun o _ ↦ if_neg other

private theorem flatMap_zipIdx (f : Running → List Output) (routes : List Running) (i k : Nat) :
    (routes.zipIdx k).flatMap (fun t ↦ if t.2 = k + i then f t.1 else []) =
      ((routes[i]?).map f).getD [] := by
  induction routes generalizing i k with
  | nil => rfl
  | cons r routes ih =>
    rw [List.zipIdx_cons, List.flatMap_cons]
    cases i with
    | zero =>
      -- every other place comes later
      have others : ((routes.zipIdx (k + 1)).flatMap fun t ↦ if t.2 = k + 0 then f t.1 else []) =
          [] := by
        rw [List.flatMap_eq_nil_iff]
        rintro ⟨x, j⟩ hx
        have := List.le_snd_of_mem_zipIdx hx
        exact if_neg (by omega)
      rw [others]
      simp
    | succ i =>
      have here := ih i (k + 1)
      rw [show k + 1 + i = k + (i + 1) from by omega] at here
      rw [here]
      simp

theorem stopRoutes_getElem? (routes : List Running) (i : Nat) :
    (stopRoutes routes).1[i]? = (routes[i]?).map fun r ↦ (r.stop?.map Prod.fst).getD r :=
  List.getElem?_map

theorem stopRoutes_told (routes : List Running) (i : Nat) :
    (stopRoutes routes).2.filterMap (RunOutput.about? i) =
      ((routes[i]?).map fun r ↦ (r.stop?.map Prod.snd).getD []).getD [] := by
  have told := flatMap_zipIdx (fun r ↦ (r.stop?.map Prod.snd).getD []) routes i 0
  rw [← told, stopRoutes, List.filterMap_flatMap]
  refine List.flatMap_congr fun t _ ↦ ?_
  rw [about?_of_route, Nat.zero_add]

theorem stopRoutes_of_running {routes : List Running} (hr : routes[i]? = some r)
    (running : r.phase = .running) : ∃ r', (stopRoutes routes).1[i]? = some r' ∧
      r.stop? = some (r', (stopRoutes routes).2.filterMap (RunOutput.about? i)) := by
  have stops := Running.stop?_eq_some.mpr ⟨running, rfl, rfl⟩
  rw [stopRoutes_getElem?, stopRoutes_told, hr]
  simp only [Option.map_some, Option.getD_some, stops]
  exact ⟨_, rfl, rfl⟩

theorem stopRoutes_of_not_running {routes : List Running} (hr : routes[i]? = some r)
    (told_before : r.phase ≠ .running) : (stopRoutes routes).1[i]? = some r ∧
      (stopRoutes routes).2.filterMap (RunOutput.about? i) = [] := by
  have stays : r.stop? = none := if_neg told_before
  rw [stopRoutes_getElem?, stopRoutes_told, hr]
  simp only [Option.map_some, Option.getD_some, stays]
  exact ⟨rfl, rfl⟩

/-! ## One step -/

/-- The step of the route at a place, if there is one, with what is told about it. -/
def Shared (i : Nat) (clock : Clock) (r r' : Running) (outputs : List RunOutput) :
    Option Action → Prop
  | some a => r.step? clock a = some (r', outputs.filterMap (RunOutput.about? i))
  | none => r' = r ∧ outputs.filterMap (RunOutput.about? i) = []

theorem shared_of_beginStop (count : Nat) (error : Option StartError)
    (hr : run.routes[i]? = some r) :
    ∃ r', (run.beginStop count error).1.routes[i]? = some r' ∧
      Shared i clock r r' (run.beginStop count error).2
        (if r.phase = .running then some .stop else none) := by
  by_cases running : r.phase = .running
  · obtain ⟨r', hr', stops⟩ := stopRoutes_of_running hr running
    rw [if_pos running]
    exact ⟨r', hr', stops⟩
  · obtain ⟨hr', silent⟩ := stopRoutes_of_not_running hr running
    rw [if_neg running]
    exact ⟨r, hr', rfl, silent⟩

theorem step?_route_eq_some {j : Nat} {b : Action} :
    run.step? clock (.route j b) = some (run', outputs) ↔ ∃ r r' told, run.routes[j]? = some r ∧
      r.step? clock b = some (r', told) ∧ run' = { run with routes := run.routes.set j r' } ∧
      outputs = told.map (.route j) := by
  simp only [step?, Option.bind_eq_bind, Option.bind_eq_some_iff, Option.pure_def,
    Option.some.injEq, Prod.mk.injEq, Prod.exists]
  constructor
  · rintro ⟨r, hr, r', told, step, rfl, rfl⟩
    exact ⟨r, r', told, hr, step, rfl, rfl⟩
  · rintro ⟨r, r', told, hr, step, rfl, rfl⟩
    exact ⟨r, hr, r', told, step, rfl, rfl⟩

theorem proceed?_cases (step : run.proceed? = some (run', outputs)) :
    (∃ e, run.phase = .retracting e ∧
        (run', outputs) = run.beginStop (run.routes.length - 1) (some e)) ∨
      ∃ e, run.phase = .stopping e ∧ run.routes.all hasStopped = true ∧
        run' = { run with phase := .ended e } ∧ outputs = [.event .engineStopped, .ended e] := by
  unfold proceed? at step
  split at step
  · rename_i e retracting
    split at step
    · exact .inl ⟨e, retracting, (Option.some.inj step).symm⟩
    · cases step
  · rename_i e stopping
    split at step
    · rename_i all
      cases step
      exact .inr ⟨e, stopping, all, rfl, rfl⟩
    · cases step
  · cases step

/-- **What a step of a run is for one of its routes.** -/
theorem shared_of_step (step : run.step? clock a = some (run', outputs))
    (hr : run.routes[i]? = some r) :
    ∃ r', run'.routes[i]? = some r' ∧ Shared i clock r r' outputs (share i run r a) := by
  cases a with
  | route j b =>
    obtain ⟨x, x', told, hx, step, rfl, rfl⟩ := step?_route_eq_some.mp step
    rw [List.getElem?_set, share]
    by_cases here : j = i
    · subst here
      rw [hx] at hr
      cases hr
      rw [if_pos rfl, if_pos (List.getElem?_eq_some_iff.mp hx).1, if_pos rfl]
      refine ⟨x', rfl, ?_⟩
      rw [Shared, about?_of_route, if_pos rfl]
      exact step
    · rw [if_neg here, if_neg here]
      refine ⟨r, hr, rfl, ?_⟩
      rw [about?_of_route, if_neg here]
  | cancel =>
    cases step
    refine ⟨{ r with cancelled := true }, ?_, rfl⟩
    rw [List.getElem?_map, hr]
    rfl
  | stop =>
    simp only [step?] at step
    split at step
    · cases step
      exact shared_of_beginStop _ _ hr
    · cases step
  | proceed =>
    obtain ⟨e, retracting, done⟩ | ⟨e, stopping, -, rfl, rfl⟩ := proceed?_cases step
    · rw [share, retracting]
      cases done
      exact shared_of_beginStop _ _ hr
    · rw [share, stopping]
      exact ⟨r, hr, rfl, rfl⟩

/-! ## Whole runs -/

/-- **The history of a run, seen from a place, is a history of the route there.** -/
theorem own_runs {start : Run} {past : Past} {r₀ : Running} (runs : Execution act start past run)
    (h₀ : start.routes[i]? = some r₀) :
    ∃ r, run.routes[i]? = some r ∧ Execution Running.act r₀ (past.flatMap (own i)) r := by
  induction runs with
  | refl => exact ⟨r₀, h₀, .refl⟩
  | @snoc past run run' ca outputs runs step ih =>
    rcases ca with ⟨clock, a⟩
    obtain ⟨r, hr, before⟩ := ih
    obtain ⟨r', hr', shared⟩ := shared_of_step step hr
    refine ⟨r', hr', ?_⟩
    have last : own i ⟨run, (clock, a), run', outputs⟩ =
        (share i run r a).toList.map fun b ↦
          ⟨r, (clock, b), r', outputs.filterMap (RunOutput.about? i)⟩ := by
      simp only [own, hr, hr']
    rw [List.flatMap_append, List.flatMap_singleton, last]
    -- a step that has nothing for the route leaves it as it is
    cases b : share i run r a with
    | none =>
      rw [b] at shared
      rw [shared.1]
      simpa using before
    | some b' =>
      rw [b] at shared
      exact before.snoc shared

end Run

end MessageBridge
