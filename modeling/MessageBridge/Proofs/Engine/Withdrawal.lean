import Mathlib.Algebra.Order.BigOperators.Group.List
import MessageBridge.Proofs.Engine.Start
import MessageBridge.Proofs.Route.Vacant

/-!
# How a run takes itself back

A run that takes itself back before any message has come to its routes comes to an end. It stops the
route that was refused, then all others, and each of them has only so much to do until it has
stopped. So there is a number, `Run.toEnd`, that everything that the run does by itself makes
smaller (`Withdraws.own`), and as long as the run has not ended there is something to do
(`Withdraws.ended_of_still`).
-/

namespace MessageBridge

/-- Whether something that a run tells is neither a publish, nor the answer to a call, nor its
end. -/
def RunOutput.hushed : RunOutput → Bool
  | .route _ o => o.hushed
  | .ended _ => false
  | .event _ | .cancelled => true

namespace Run

variable {run run' : Run} {clock : Clock} {outputs : List RunOutput} {r r' : Running}
  {e : StartError}

/-! ## What is left to do -/

/-- The most steps until a run has ended that takes itself back. -/
def toEnd (run : Run) : Nat :=
  (run.routes.map Running.toStop).sum + match run.phase with
    | .running => 3
    | .retracting _ => 2
    | .stopping _ => 1
    | .ended _ => 0

/-- How far a run has come with taking itself back. -/
inductive Withdrawing (e : StartError) (run : Run) : Prop where
  /-- The last route stops. -/
  | retracting {r : Running} (phase : run.phase = .retracting e)
      (last : run.routes.getLast? = some r) (told : r.phase ≠ .running)
  /-- All routes stop. -/
  | stopping (phase : run.phase = .stopping (some e))
      (told : ∀ r ∈ run.routes, r.phase ≠ .running)
  /-- It has ended. -/
  | ended (phase : run.phase = .ended (some e))

theorem Withdrawing.same {e' : StartError} (far : run.Withdrawing e)
    (phase : run.phase = .retracting e') : e = e' := by
  cases far with
  | retracting phase' _ _ =>
    cases phase.symm.trans phase'
    rfl
  | stopping phase' _ => cases phase.symm.trans phase'
  | ended phase' => cases phase.symm.trans phase'

/-- A run takes itself back, and no message has come to its routes. -/
structure Withdraws (e : StartError) (run : Run) : Prop where
  vacant : ∀ r ∈ run.routes, r.Vacant
  far : run.Withdrawing e

/-! ## One route -/

theorem Withdraws.route {i : Nat} {told : List Output} (withdraws : run.Withdraws e)
    (hr : run.routes[i]? = some r) (own : r.next? clock = some (r', told)) :
    ({ run with routes := run.routes.set i r' } : Run).Withdraws e ∧
      toEnd { run with routes := run.routes.set i r' } < run.toEnd ∧
        ∀ o ∈ told, o.hushed = true := by
  obtain ⟨a, -, step⟩ := List.exists_of_findSome?_eq_some own
  obtain ⟨vacant, less, hushed⟩ := (withdraws.vacant r (List.mem_of_getElem? hr)).own own
  refine ⟨⟨fun x hx ↦ ?_, ?_⟩, ?_, hushed⟩
  · rcases List.mem_or_eq_of_mem_set hx with hx | rfl
    · exact withdraws.vacant x hx
    · exact vacant
  · cases withdraws.far with
    | @retracting x phase last told =>
      rw [List.getLast?_eq_getElem?] at last
      by_cases here : i = run.routes.length - 1
      · subst here
        rw [hr] at last
        cases last
        refine .retracting (r := r') phase ?_ (Running.told_of_step step told)
        rw [List.getLast?_eq_getElem?, List.length_set]
        exact List.getElem?_set_self (List.getElem?_eq_some_iff.mp hr).1
      · refine .retracting (r := x) phase ?_ told
        rw [List.getLast?_eq_getElem?, List.length_set, List.getElem?_set_ne here, last]
    | stopping phase told =>
      refine .stopping phase fun x hx ↦ ?_
      rcases List.mem_or_eq_of_mem_set hx with hx | rfl
      · exact told x hx
      · exact Running.told_of_step step (told r (List.mem_of_getElem? hr))
    | ended phase => exact .ended phase
  · have replaced := sum_map_set Running.toStop hr r'
    simp only [toEnd]
    omega

/-! ## All routes -/

/-- A route that is told to stop, if it was not before. -/
def told (r : Running) : Running := (r.stop?.map Prod.fst).getD r

theorem told_spec (vacant : r.Vacant) : (told r).Vacant ∧ (told r).phase ≠ .running ∧
    (told r).toStop ≤ r.toStop ∧ ∀ o ∈ (r.stop?.map Prod.snd).getD [], o.hushed = true := by
  rw [told]
  cases stops : r.stop? with
  | none =>
    refine ⟨vacant, fun running ↦ ?_, Nat.le_refl _, fun o ho ↦ by cases ho⟩
    have can : r.stop? = some _ := Running.stop?_eq_some.mpr ⟨running, rfl, rfl⟩
    rw [stops] at can
    cases can
  | some reaction =>
    obtain ⟨vacant', phase, less, hushed⟩ := vacant.stop stops
    refine ⟨vacant', ?_, less.le, hushed⟩
    rw [Option.map_some, Option.getD_some, phase]
    exact nofun

theorem Withdraws.beginStop (withdraws : run.Withdraws e) (retracting : run.phase = .retracting e)
    (count : Nat) : (run.beginStop count (some e)).1.Withdraws e ∧
      (run.beginStop count (some e)).1.toEnd < run.toEnd ∧
        ∀ o ∈ (run.beginStop count (some e)).2, o.hushed = true := by
  refine ⟨⟨fun x hx ↦ ?_, .stopping rfl fun x hx ↦ ?_⟩, ?_, fun o ho ↦ ?_⟩
  · obtain ⟨r, hr, rfl⟩ := List.mem_map.mp hx
    exact (told_spec (withdraws.vacant r hr)).1
  · obtain ⟨r, hr, rfl⟩ := List.mem_map.mp hx
    exact (told_spec (withdraws.vacant r hr)).2.1
  · have fewer : (((stopRoutes run.routes).1).map Running.toStop).sum ≤
        (run.routes.map Running.toStop).sum := by
      rw [stopRoutes, List.map_map]
      exact List.sum_le_sum fun r hr ↦ (told_spec (withdraws.vacant r hr)).2.2.1
    simp only [toEnd, Run.beginStop, retracting]
    omega
  · rcases List.mem_cons.mp ho with rfl | ho
    · rfl
    · rcases List.mem_cons.mp ho with rfl | ho
      · rfl
      · obtain ⟨⟨r, i⟩, hr, ho⟩ := List.mem_flatMap.mp ho
        obtain ⟨x, hx, rfl⟩ := List.mem_map.mp ho
        have mem := List.mem_of_getElem? (List.mem_zipIdx_iff_getElem?.mp hr)
        exact (told_spec (withdraws.vacant r mem)).2.2.2 x hx

/-! ## The whole run -/

/-- **Whatever such a run does by itself brings its end nearer**, and nobody gets an answer before
that. -/
theorem Withdraws.own (withdraws : run.Withdraws e)
    (next : run.next? clock = some (run', outputs)) :
    run'.Withdraws e ∧ run'.toEnd < run.toEnd ∧
      ((∀ o ∈ outputs, o.hushed = true) ∧ (run'.phase = .ended (some e) → run.phase = run'.phase) ∨
        outputs = [.event .engineStopped, .ended (some e)]) := by
  rcases Option.or_eq_some_iff.mp next with next | ⟨-, next⟩
  · obtain ⟨⟨r, i⟩, hr, next⟩ := List.exists_of_findSome?_eq_some next
    obtain ⟨⟨r', told⟩, own, done⟩ := Option.map_eq_some_iff.mp next
    cases done
    obtain ⟨withdraws', less, hushed⟩ :=
      withdraws.route (List.mem_zipIdx_iff_getElem?.mp hr) own
    refine ⟨withdraws', less, .inl ⟨fun o ho ↦ ?_, fun _ ↦ rfl⟩⟩
    obtain ⟨x, hx, rfl⟩ := List.mem_map.mp ho
    exact hushed x hx
  · obtain ⟨e', retracting, done⟩ | ⟨e', stopping, -, rfl, rfl⟩ := proceed?_cases next
    · have same : e = e' := withdraws.far.same retracting
      subst same
      cases done
      obtain ⟨withdraws', less, hushed⟩ :=
        withdraws.beginStop retracting (run.routes.length - 1)
      exact ⟨withdraws', less, .inl ⟨hushed, nofun⟩⟩
    · have same : e' = some e := by
        cases withdraws.far with
        | stopping phase => exact RunPhase.stopping.inj (stopping.symm.trans phase)
        | retracting phase | ended phase =>
          rw [stopping] at phase
          cases phase
      subst same
      refine ⟨⟨withdraws.vacant, .ended rfl⟩, ?_, .inr rfl⟩
      simp only [toEnd, stopping]
      omega

/-- **A run that takes itself back has something to do until it has ended.** -/
theorem Withdraws.ended_of_still (withdraws : run.Withdraws e) (still : run.next? clock = none) :
    run.phase = .ended (some e) := by
  obtain ⟨routes, proceeds⟩ := Option.or_eq_none_iff.mp still
  have stopped {r : Running} (hr : r ∈ run.routes) (told : r.phase ≠ .running) :
      hasStopped r = true := by
    obtain ⟨i, hi⟩ := List.mem_iff_getElem?.mp hr
    have quiet := List.findSome?_eq_none_iff.mp routes (r, i) (List.mem_zipIdx_iff_getElem?.mpr hi)
    have phase := (withdraws.vacant r hr).stopped_of_still told (Option.map_eq_none_iff.mp quiet)
    rw [hasStopped, phase]
    rfl
  cases withdraws.far with
  | @retracting r phase last told =>
    have there := stopped (List.mem_of_getLast? last) told
    simp [proceed?, phase, last, there] at proceeds
  | stopping phase told =>
    have all : run.routes.all hasStopped = true :=
      List.all_eq_true.mpr fun r hr ↦ stopped hr (told r hr)
    simp [proceed?, phase, all] at proceeds
  | ended phase => exact phase

theorem Withdraws.heed {tokens : List Nat} (withdraws : run.Withdraws e)
    (enough : run.routes.length ≤ tokens.length) (cancelled : Nat → Bool) :
    let heard : Run := { run with routes := (run.routes.zip tokens).map fun (x, token) ↦
      { x with cancelled := x.cancelled || cancelled token } }
    heard.Withdraws e ∧ heard.toEnd = run.toEnd ∧ heard.routes.length = run.routes.length := by
  have fst : (run.routes.zip tokens).map Prod.fst = run.routes := List.map_fst_zip enough
  have length : (run.routes.zip tokens).length = run.routes.length := by
    rw [List.length_zip, Nat.min_eq_left enough]
  refine ⟨⟨fun x hx ↦ ?_, ?_⟩, ?_, by rw [List.length_map, length]⟩
  · obtain ⟨⟨r, t⟩, hr, rfl⟩ := List.mem_map.mp hx
    exact (withdraws.vacant r (List.of_mem_zip hr).1).heed (cancelled t)
  · cases withdraws.far with
    | @retracting r phase last told =>
      rw [← fst, List.getLast?_map, Option.map_eq_some_iff] at last
      obtain ⟨⟨x, t⟩, last, rfl⟩ := last
      refine .retracting (r := { x with cancelled := x.cancelled || cancelled t }) phase ?_ told
      rw [List.getLast?_map, last]
      rfl
    | stopping phase told =>
      refine .stopping phase fun x hx ↦ ?_
      obtain ⟨⟨r, t⟩, hr, rfl⟩ := List.mem_map.mp hx
      exact told r (List.of_mem_zip hr).1
    | ended phase => exact .ended phase
  · have sums : ((run.routes.zip tokens).map fun (x, token) ↦
        ({ x with cancelled := x.cancelled || cancelled token } : Running)).map Running.toStop =
          run.routes.map Running.toStop := by
      conv_rhs => rw [← fst, List.map_map]
      rw [List.map_map]
      rfl
    rw [toEnd, toEnd, sums]

/-! ## The beginning -/

universe u

variable (s : EngineSettings)

theorem withdraws_refused (before : List CompiledRoute) (route : CompiledRoute) (e : StartError) :
    Withdraws e ⟨before.map (.ofRoute s) ++ [.refused s route], .retracting e⟩ where
  vacant x hx := by
    rcases List.mem_append.mp hx with hx | hx
    · obtain ⟨route, -, rfl⟩ := List.mem_map.mp hx
      exact Running.vacant_ofRoute s route
    · rw [List.mem_singleton.mp hx]
      exact ((Running.vacant_ofRoute s route).stop (Running.stop?_ofRoute s route)).1
  far := .retracting rfl List.getLast?_concat nofun

theorem hushed_start {σ : Type u} (buses : Nat)
    (subscribe : Nat → CompiledRoute → σ → Except BusError Unit × σ) (state : σ)
    (routes : List CompiledRoute) :
    ∀ o ∈ (start s buses subscribe state routes).2.2, o.hushed = true := by
  have events (told : List Event) : ∀ o ∈ told.map RunOutput.event, o.hushed = true := by
    intro o ho
    obtain ⟨event, -, rfl⟩ := List.mem_map.mp ho
    rfl
  rw [start]
  generalize done : attach s subscribe 0 state routes = attached
  have asked := asked_attach s subscribe routes 0 state
  rw [done] at asked
  cases asked with
  | all => exact List.forall_mem_append.mpr ⟨events _, by simp [RunOutput.hushed]⟩
  | refused =>
    simp only [Running.stop?_ofRoute, Option.getD_some]
    refine List.forall_mem_append.mpr ⟨List.forall_mem_append.mpr ⟨events _, events _⟩, ?_⟩
    simp [RunOutput.hushed, Output.hushed]

end Run

end MessageBridge
