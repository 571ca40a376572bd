import Mathlib.Algebra.Group.Nat.Defs
import MessageBridge.Proofs.Compile.Checks
import MessageBridge.Proofs.Rehearsal.Later
import MessageBridge.Proofs.Rehearsal.Stop

/-!
# All routes or none

A start either brings all routes of a table to run or leaves none of them behind. If the table has a
defect, no bus is asked for anything. If a subscription is refused, the routes that were subscribed
before are stopped like the refused one, and whoever waits for the start hears of the refusal only
when they have: every token of the run is cancelled then, every worker is gone and no message is
under way. Only where the queues of the engine cannot be made does a start come to grief instead.

That the call cannot hear of it earlier is an invariant of everything that can happen, `Retreat`: as
long as the call waits for the run, the run takes itself back with the error of the bus, and has
fired its token unless it is about to do so; and the call hears only from this run.
-/

namespace MessageBridge.Rehearsal

/-! ## Records of a failed start -/

namespace RunRecord

variable {r r' : RunRecord} {tokens tokens' : Tokens} {e : StartError}

/-- Every route has a token below that of the run, and stops in order. -/
structure WellMade (tokens : Tokens) (r : RunRecord) : Prop where
  enough : r.run.routes.length ≤ r.routeTokens.length
  there : r.token < tokens.length
  below : ∀ t ∈ r.routeTokens, tokens.parent? t = some r.token ∧ r.token < t
  orderly : ∀ x ∈ r.run.routes, x.Orderly

/-- The run takes itself back. -/
def TakesBack (e : StartError) (tokens : Tokens) (r : RunRecord) : Prop :=
  r.run.phase = .retracting e ∨
    tokens.isCancelled r.token = true ∧
      (r.run.phase = .stopping (some e) ∨ r.run.phase = .ended (some e))

/-- Nothing of the run goes on. -/
structure Cleared (tokens : Tokens) (r : RunRecord) : Prop where
  cancelled : tokens.isCancelled r.token = true
  rest : ∀ x ∈ r.run.routes, x.AtRest

theorem exists_of_becomes (becomes : r.Becomes r')
    (enough : r.run.routes.length ≤ r.routeTokens.length) {x' : Running}
    (hx' : x' ∈ r'.run.routes) :
    ∃ x ∈ r.run.routes, x.Becomes x' := by
  obtain ⟨i, hi⟩ := List.mem_iff_getElem?.mp hx'
  obtain ⟨x, hx, steps⟩ := exists_of_forall₂ (becomes.routes enough).flip hi
  exact ⟨x, List.mem_of_getElem? hx, steps⟩

theorem WellMade.becomes (well : r.WellMade tokens) (becomes : r.Becomes r')
    (grows : tokens.Grows tokens') : r'.WellMade tokens' where
  enough := by
    rw [← (becomes.routes well.enough).length_eq, becomes.routeTokens]
    exact well.enough
  there := by
    rw [becomes.token]
    exact well.there.trans_le grows.length
  below t ht := by
    rw [becomes.routeTokens] at ht
    rw [becomes.token]
    exact ⟨grows.parent (well.below t ht).1, (well.below t ht).2⟩
  orderly x' hx' := by
    obtain ⟨x, hx, steps⟩ := exists_of_becomes becomes well.enough hx'
    exact steps.orderly (well.orderly x hx)

theorem Cleared.becomes (cleared : r.Cleared tokens) (well : r.WellMade tokens)
    (becomes : r.Becomes r') (grows : tokens.Grows tokens') : r'.Cleared tokens' where
  cancelled := by
    rw [becomes.token]
    exact grows.cancelled cleared.cancelled
  rest x' hx' := by
    obtain ⟨x, hx, steps⟩ := exists_of_becomes becomes well.enough hx'
    exact steps.atRest (cleared.rest x hx)

theorem TakesBack.of_same (takes : r.TakesBack e tokens) (token : r'.token = r.token)
    (phase : r'.run.phase = r.run.phase) (grows : tokens.Grows tokens') :
    r'.TakesBack e tokens' := by
  rw [TakesBack, token, phase]
  exact takes.imp_right fun ⟨cancelled, far⟩ ↦ ⟨grows.cancelled cancelled, far⟩

end RunRecord

namespace World

variable {w w' : World} {run id : Nat} {e : StartError}

/-! ## The invariant -/

/-- A call that waits for the end of a failed start hears of it when the run is cleared away, and
with the error of the bus. -/
structure Retreat (run id : Nat) (e : StartError) (w : World) : Prop where
  numbered : w.Numbered
  given : id < w.nextCall
  alone : ∀ {i : Nat} {r : RunRecord}, w.runs[i]? = some r → r.awaitedBy = some id → i = run
  record : ∃ r, w.runs[run]? = some r ∧ r.WellMade w.tokens ∧
    (r.awaitedBy = some id → r.TakesBack e w.tokens) ∧
    ∀ {e' t}, w.outcome? id = some (.notStarted e', t) → e' = e ∧ r.Cleared w.tokens

theorem Retreat.of_onward (retreat : Retreat run id e w) (onward : Onward w w')
    (awaits : ∀ {i : Nat} {r' : RunRecord}, w'.runs[i]? = some r' → r'.awaitedBy = some id →
      ∃ r, w.runs[i]? = some r ∧ r.awaitedBy = some id ∧
        (r.TakesBack e w.tokens → r'.TakesBack e w'.tokens))
    (told : ∀ {e' t}, w'.outcome? id = some (.notStarted e', t) →
      w.outcome? id = some (.notStarted e', t) ∨
        e' = e ∧ ∃ r, w'.runs[run]? = some r ∧ r.Cleared w'.tokens) :
    Retreat run id e w' where
  numbered := onward.numbered retreat.numbered
  given := retreat.given.trans_le onward.nextCall
  alone found' awaited' := by
    obtain ⟨r, found, awaited, -⟩ := awaits found' awaited'
    exact retreat.alone found awaited
  record := by
    obtain ⟨r, found, well, takes, heard⟩ := retreat.record
    obtain ⟨r', found', becomes⟩ := onward.runs found
    refine ⟨r', found', well.becomes becomes onward.tokens, fun awaited' ↦ ?_, fun known ↦ ?_⟩
    · obtain ⟨x, hx, awaited, kept⟩ := awaits found' awaited'
      rw [found] at hx
      cases hx
      exact kept (takes awaited)
    · obtain known | ⟨same, x, hx, cleared⟩ := told known
      · obtain ⟨same, cleared⟩ := heard known
        exact ⟨same, cleared.becomes well becomes onward.tokens⟩
      · rw [found'] at hx
        cases hx
        exact ⟨same, cleared⟩

theorem Retreat.quiet (retreat : Retreat run id e w) (quiet : Quiet w w') :
    Retreat run id e w' := by
  refine retreat.of_onward quiet.onward (fun {i r'} found' awaited' ↦ ?_)
    fun known ↦ .inl (quiet.outcomes known)
  obtain ⟨r, found, listens⟩ := exists_of_forall₂ quiet.runs.flip found'
  refine ⟨r, found, listens.awaitedBy ▸ awaited', fun takes ↦ ?_⟩
  exact takes.of_same listens.token listens.phase quiet.tokens

/-- A run that is not awaited by the call any more than before may change, as long as it still takes
itself back. -/
theorem Retreat.put {j : Nat} {x x' : RunRecord} (retreat : Retreat run id e w)
    (found : w.runs[j]? = some x) (becomes : x.Becomes x')
    (numbers : ∀ id', x'.awaitedBy = some id' → x.awaitedBy = some id' ∨ id' < w.nextCall)
    (quiet : Quiet (w.putRun j x') w')
    (kept : x'.awaitedBy = some id → x.awaitedBy = some id ∧
      (x.TakesBack e w.tokens → x'.TakesBack e w'.tokens)) : Retreat run id e w' := by
  have put := onward_putRun found becomes numbers
  refine retreat.of_onward (put.trans quiet.onward) (fun {i r'} found' awaited' ↦ ?_)
    fun known ↦ .inl (quiet.outcomes known)
  obtain ⟨r, between, listens⟩ := exists_of_forall₂ quiet.runs.flip found'
  rw [listens.awaitedBy] at awaited'
  by_cases here : j = i
  · subst here
    rw [putRun_self x' found] at between
    cases between
    obtain ⟨awaited, kept⟩ := kept awaited'
    refine ⟨x, found, awaited, fun takes ↦ ?_⟩
    exact (kept takes).of_same listens.token listens.phase (.refl _)
  · rw [putRun_of_ne here] at between
    exact ⟨r, between, awaited', fun takes ↦ takes.of_same listens.token listens.phase quiet.tokens⟩

theorem Retreat.elsewhere (retreat : Retreat run id e w) (change : Elsewhere w w') :
    Retreat run id e w' :=
  retreat.of_onward change.onward
    (fun {_ r'} found' awaited' ↦ ⟨r', change.runs ▸ found', awaited', fun takes ↦
      takes.of_same rfl rfl change.onward.tokens⟩)
    fun known ↦ .inl (change.outcomes known)

theorem runs_ended (j : Nat) (r : RunRecord) (error : Option StartError) (w : World) :
    (w.hear j r (.ended error)).runs = w.runs ∧ (w.hear j r (.ended error)).tokens = w.tokens := by
  simp only [hear]
  split <;> exact ⟨rfl, rfl⟩

/-- Only the call that waits for a run hears of its end, and it hears the error of the run. -/
theorem outcome?_ended {j : Nat} {r : RunRecord} {error : Option StartError} {e' : StartError}
    {t : Nat} (known : (w.hear j r (.ended error)).outcome? id = some (.notStarted e', t)) :
    w.outcome? id = some (.notStarted e', t) ∨ r.awaitedBy = some id ∧ error = some e' := by
  have of_close {other : Nat} {result : Result} (awaited : r.awaitedBy = some other)
      (known : (w.close other result).outcome? id = some (.notStarted e', t)) :
      w.outcome? id = some (.notStarted e', t) ∨
        r.awaitedBy = some id ∧ result = .notStarted e' := by
    by_cases here : id = other
    · subst here
      exact (outcome?_close known).imp_right fun h ↦ ⟨awaited, h.2.symm⟩
    · rw [outcome?_close_of_ne here] at known
      exact .inl known
  simp only [hear] at known
  split at known
  · rename_i awaited
    exact (of_close awaited known).imp_right fun h ↦ by cases h.2
  · rename_i awaited
    refine (of_close awaited known).imp_right fun h ↦ ⟨h.1, ?_⟩
    cases h.2
    rfl
  · exact .inl known

/-- When a run ends, the call that waits for it hears of that, and its routes have all stopped. -/
theorem Retreat.ends {j : Nat} {x : RunRecord} {error : Option StartError}
    (retreat : Retreat run id e w) (found : w.runs[j]? = some x)
    (before : x.run.phase = .stopping error) (stopped : ∀ y ∈ x.run.routes, y.phase = .stopped)
    (done : w' = ((w.putRun j { x with run.phase := .ended error }).emit [.engineStopped]).hear j
      { x with run.phase := .ended error } (.ended error)) (onward : Onward w w') :
    Retreat run id e w' := by
  have runs : w'.runs = (w.putRun j { x with run.phase := .ended error }).runs := by
    rw [done, (runs_ended _ _ _ _).1]
    rfl
  have tokens : w'.tokens = w.tokens := by
    rw [done, (runs_ended _ _ _ _).2]
    rfl
  -- the run that ends took itself back, if the call waits for it
  have far (takes : x.TakesBack e w.tokens) : w.tokens.isCancelled x.token = true ∧
      error = some e := by
    obtain other | ⟨cancelled, now | other⟩ := takes
    · rw [before] at other
      cases other
    · rw [before] at now
      cases now
      exact ⟨cancelled, rfl⟩
    · rw [before] at other
      cases other
  refine retreat.of_onward onward (fun {i r'} found' awaited' ↦ ?_) fun known ↦ ?_
  · rw [runs] at found'
    by_cases here : j = i
    · subst here
      rw [putRun_self _ found] at found'
      cases found'
      refine ⟨x, found, awaited', fun takes ↦ .inr ?_⟩
      obtain ⟨cancelled, rfl⟩ := far takes
      exact ⟨tokens ▸ cancelled, .inr rfl⟩
    · rw [putRun_of_ne here] at found'
      refine ⟨r', found', awaited', fun takes ↦ ?_⟩
      exact takes.of_same rfl rfl onward.tokens
  · rw [done] at known
    obtain known | ⟨awaited, rfl⟩ := outcome?_ended known
    · exact .inl known
    · have here := retreat.alone found awaited
      subst here
      obtain ⟨r, found', well, takes, -⟩ := retreat.record
      rw [found] at found'
      cases found'
      obtain ⟨cancelled, same⟩ := far (takes awaited)
      have put := runs ▸ putRun_self { x with run.phase := .ended _ } found
      exact .inr ⟨Option.some.inj same, _, put, tokens ▸ cancelled,
        fun y hy ↦ (well.orderly y hy).stopped (stopped y hy)⟩

theorem Retreat.stepRun (retreat : Retreat run id e w) (j : Nat) (a : RunAction) :
    Retreat run id e (w.stepRun j a) := by
  have onward := onward_stepRun j a w
  generalize stepped j a w = changed
  generalize w.stepRun j a = w' at changed onward
  cases changed with
  | nothing => exact retreat
  | @goes r run' w' found routes same still =>
    refine retreat.put found (becomes_run routes) (fun _ ↦ .inl) still.toQuiet fun awaited ↦ ?_
    exact ⟨awaited, fun takes ↦ takes.of_same rfl same still.tokens⟩
  | @stops r run' w' error found routes before now fires still =>
    refine retreat.put found (becomes_run routes) (fun _ ↦ .inl) still.toQuiet fun awaited ↦ ?_
    refine ⟨awaited, fun takes ↦ .inr ⟨fires ?_, .inl ?_⟩⟩
    · have here := retreat.alone found awaited
      subst here
      obtain ⟨r', found', well, -⟩ := retreat.record
      rw [found] at found'
      cases found'
      exact well.there
    · -- a run that takes itself back stops with the error with which it does so
      refine now.trans (congrArg _ ?_)
      rcases before with ⟨other, -⟩ | ⟨e₁, retracting, rfl⟩
      · rcases takes with back | ⟨-, back | back⟩ <;> rw [other] at back <;> cases back
      · rcases takes with back | ⟨-, back | back⟩ <;> rw [retracting] at back <;> cases back
        rfl
  | ends found before stopped w' done => exact retreat.ends found before stopped done onward

/-- A run that enters the world is not awaited by a call that was given before. -/
theorem Retreat.enrol {record : RunRecord} (retreat : Retreat run id e w)
    (numbers : ∀ id', record.awaitedBy = some id' → id' < w.nextCall)
    (other : record.awaitedBy ≠ some id) : Retreat run id e (w.enrol record) := by
  refine retreat.of_onward (onward_enrol numbers) (fun {i r'} found' awaited' ↦ ?_) .inl
  refine ⟨r', ?_, awaited', fun takes ↦ takes⟩
  rw [World.enrol, List.getElem?_append] at found'
  split at found'
  · exact found'
  · rw [List.mem_singleton.mp (List.mem_of_getElem? found')] at awaited'
    exact absurd awaited' other

theorem Retreat.start (retreat : Retreat run id e w) (table : RouteTable) (above : Nat) :
    Retreat run id e (w.start table above).2 := by
  generalize started w table above = began
  generalize w.start table above = result at began
  cases began with
  | rejected _ => exact retreat.quiet (aside_emit _ w).toQuiet
  | @runs routes last w' _ accepted _ still =>
    have before := quiet_of_accepted accepted
    have failed := (retreat.quiet before).elsewhere (elsewhere_failUnless (w.fits routes) last)
    exact (failed.enrol (fun _ awaits ↦ by cases awaits) (fun awaits ↦ by cases awaits)).quiet
      still.toQuiet
  | @refused routes _ _ _ _ last w' _ _ _ accepted refused _ still =>
    have before := quiet_of_refused accepted refused
    have failed := (retreat.quiet before).elsewhere (elsewhere_failUnless (w.fits routes) last)
    have opened := failed.quiet (aside_openCall (.run w.runs.length) _).toQuiet
    refine (opened.enrol (fun _ awaits ↦ ?_) fun awaits ↦ ?_).quiet still.toQuiet
    · cases awaits
      exact Nat.lt_succ_self _
    · cases awaits
      exact Nat.lt_irrefl _ (retreat.given.trans_le before.nextCall)

theorem Retreat.await (retreat : Retreat run id e w) (j : Nat) : Retreat run id e (w.await j) := by
  have opened := retreat.quiet (aside_openCall (.run j) w).toQuiet
  obtain same | ⟨r, found, done⟩ := modify_runs j
    (fun r ↦ { r with awaitedBy := some w.nextCall }) (w.openCall (.run j)).2
  · rw [World.await, show w.runs = (w.openCall (.run j)).2.runs from rfl, same]
    exact opened
  · rw [World.await, show w.runs = (w.openCall (.run j)).2.runs from rfl, done]
    have same : r.Becomes { r with awaitedBy := some w.nextCall } :=
      ⟨rfl, rfl, (RunRecord.Becomes.refl r).routes⟩
    refine opened.put found same (fun id' awaits ↦ ?_) (.refl _) fun awaits ↦ ?_
    · cases awaits
      exact .inr (Nat.lt_succ_self _)
    · cases awaits
      exact absurd retreat.given (Nat.lt_irrefl _)

theorem Retreat.forsake (retreat : Retreat run id e w) (j : Nat) :
    Retreat run id e (w.forsake j) := by
  obtain same | ⟨r, found, done⟩ := modify_runs j
    (fun r ↦ { r with run := r.run.forsake, awaitedBy := none }) w
  · rw [World.forsake, same]
    exact retreat
  · rw [World.forsake, done]
    exact retreat.put found (becomes_forsake r) (fun _ awaits ↦ by cases awaits) (.refl _)
      fun awaits ↦ by cases awaits

/-- **A failed start is heard of when nothing of it is left**, whatever happens in the meantime. -/
theorem Retreat.later (retreat : Retreat run id e w) (later : Later w w') :
    Retreat run id e w' := by
  induction later with
  | refl => exact retreat
  | step j a _ ih => exact ih.stepRun j a
  | start table above _ ih => exact ih.start table above
  | stop j _ ih => exact (ih.await j).stepRun j .stop
  | forsake j _ ih => exact ih.forsake j
  | fire token _ ih => exact ih.quiet (still_fire token _).toQuiet
  | newToken above _ ih => exact ih.quiet (still_newToken above _).toQuiet
  | elsewhere _ change ih => exact ih.elsewhere change

/-! ## The beginning of a retreat -/

theorem map_route_of_becomes {routes routes' : List Running}
    (becomes : List.Forall₂ Running.Becomes routes routes') :
    routes'.map Running.route = routes.map Running.route := by
  induction becomes with
  | nil => rfl
  | cons first _ ih => rw [List.map_cons, List.map_cons, first.route, ih]

theorem parent?_handOut (above count : Nat) {t : Nat} (ht : t ∈ w.routeTokens count) :
    (w.handOut above count).tokens.parent? t = some w.tokens.length := by
  induction count with
  | zero => cases ht
  | succ count ih =>
    have made : (w.handOut above (count + 1)).tokens =
      ⟨some w.tokens.length, false⟩ :: (w.handOut above count).tokens := rfl
    have length : (w.handOut above count).tokens.length = w.tokens.length + 1 + count := by
      simp [handOut]
      omega
    rw [made, Tokens.parent?, length]
    rw [routeTokens, List.range'_1_concat, List.mem_append, List.mem_singleton] at ht
    split
    · rfl
    · exact ih (ht.resolve_right ‹_›)

theorem wellMade_recordRefused {above count id : Nat} {before : List CompiledRoute}
    {x : World} (grows : (w.handOut above count).tokens.Grows x.tokens)
    (few : before.length < count) (route : CompiledRoute) (e : BusError) :
    (w.recordRefused count before route e id).WellMade x.tokens where
  enough := by
    simp [recordRefused, routeTokens]
    omega
  there := by
    have made := grows.length
    change w.tokens.length < x.tokens.length
    simp only [handOut, List.length_append, List.length_replicate, List.length_cons] at made
    omega
  below t ht := by
    refine ⟨grows.parent (parent?_handOut above count ht), ?_⟩
    exact (List.mem_range'_1.mp ht).1
  orderly r hr := by
    rcases List.mem_append.mp hr with hr | hr
    · obtain ⟨route, -, rfl⟩ := List.mem_map.mp hr
      exact Running.orderly_ofRoute _ route
    · rw [List.mem_singleton.mp hr]
      exact Running.orderly_refused _ route

theorem retreat_enrol {subject : Subject} {record : RunRecord} (numbered : w.Numbered)
    (well : record.WellMade w.tokens) (back : record.run.phase = .retracting e)
    (awaited : record.awaitedBy = some w.nextCall) :
    Retreat w.runs.length w.nextCall e ((w.openCall subject).2.enrol record) where
  numbered := by
    refine (onward_enrol fun id awaits ↦ ?_).numbered
      ((aside_openCall subject w).toQuiet.numbered numbered)
    rw [awaited] at awaits
    cases awaits
    exact Nat.lt_succ_self _
  given := Nat.lt_succ_self _
  alone {i r} found awaits := by
    change (w.runs ++ [record])[i]? = some r at found
    rw [List.getElem?_append] at found
    split at found
    · have older := numbered.awaited r (List.mem_of_getElem? found) _ awaits
      exact absurd older (Nat.lt_irrefl _)
    · obtain ⟨inside, -⟩ := List.getElem?_eq_some_iff.mp found
      rw [List.length_singleton] at inside
      omega
  record := by
    refine ⟨record, List.getElem?_concat_length, well, fun _ ↦ .inl back, fun known ↦ ?_⟩
    -- the new call has no outcome
    have unknown := (aside_openCall subject w).outcomes known
    rw [outcome?, call?, List.find?_eq_none.mpr fun c hc same ↦ ?_] at unknown
    · cases unknown
    · have older := numbered.calls c hc
      rw [beq_iff_eq.mp same] at older
      exact Nat.lt_irrefl _ older

/-! ## The whole start -/

/-- What is left of a run whose start has failed: cancelled tokens, and routes at rest. -/
structure CleanedUp (run : Nat) (routes : List CompiledRoute) (token : Nat) (tokens : List Nat)
    (w : World) : Prop where
  token : w.tokens.isCancelled token = true
  tokens : ∀ t ∈ tokens, w.tokens.isCancelled t = true
  routes : ∃ r, w.runs[run]? = some r ∧ r.run.routes.map Running.route = routes ∧
    ∀ x ∈ r.run.routes, x.AtRest

/-- How a start can end. -/
inductive AllOrNothing (w : World) (table : RouteTable) (above : Nat) :
    Except CompileError (Nat × Option Nat) × World → Prop where
  /-- The table has a defect. No bus is asked for anything and no run begins. -/
  | rejected {e : CompileError} (defect : w.environment.compile table = .error e) :
      AllOrNothing w table above (.error e, w.emit [.tableRejected e])
  /-- There cannot be lanes with the settings of the engine, and the rehearsal comes to grief. -/
  | crashes {routes : List CompiledRoute} {answer : Except CompileError (Nat × Option Nat)}
      {w' : World} (compiled : w.environment.compile table = .ok routes) (some : routes ≠ [])
      (unrealizable : w.parts.settings.realizable = false) (crashed : w'.crashed = true) :
      AllOrNothing w table above (answer, w')
  /-- All routes are asked for in order and accepted, and they run under the names of the table. -/
  | runs {routes : List CompiledRoute} {last w' : World}
      (compiled : w.environment.compile table = .ok routes)
      (accepted : Run.Accepted (w.ask routes.length) 0 (w.handOut above routes.length) routes last)
      (asked : w.startBooked above routes = (last, routes)) (sane : w'.crashed = w.crashed)
      (running : ∃ r, w'.runs[w.runs.length]? = Option.some r ∧ r.run.phase = .running ∧
        r.run.routes.map Running.route = routes ∧
        (r.run.routes.map fun x ↦ x.route.name) = table.routes.map RouteSpec.name) :
      AllOrNothing w table above (.ok (w.runs.length, none), w')
  /-- A route is refused after those before it were accepted, and those after it are not asked for.
  A call waits for the end of this, and when it hears of it, it hears the error of the bus with the
  name of that route, and nothing of the run is left. -/
  | refused {routes before after : List CompiledRoute} {route : CompiledRoute}
      {middle last w' : World} {e : BusError}
      (compiled : w.environment.compile table = .ok routes)
      (split : routes = before ++ route :: after)
      (accepted : Run.Accepted (w.ask routes.length) 0 (w.handOut above routes.length) before
        middle)
      (refused : w.ask routes.length before.length route middle = (.error e, last))
      (asked : w.startBooked above routes = (last, before ++ [route]))
      (sane : w'.crashed = w.crashed)
      (cleaned : ∀ {w'' e' t}, Later w' w'' →
        w''.outcome? last.nextCall = Option.some (.notStarted e', t) →
          e' = .subscribe route.name e ∧ CleanedUp w.runs.length (before ++ [route])
            w.tokens.length (w.routeTokens routes.length) w'')
      (waits : Later w' (w'.awaitCall last.nextCall)) :
      AllOrNothing w table above (.ok (w.runs.length, Option.some last.nextCall), w')

/-- A start that is refused is the beginning of a retreat. -/
theorem retreat_refused {above count : Nat} {before : List CompiledRoute} {last : World}
    (numbered : w.Numbered) (earlier : Quiet w last)
    (grows : (w.handOut above count).tokens.Grows last.tokens) (few : before.length < count)
    (route : CompiledRoute) (e : BusError) (fits : Bool) :
    Retreat w.runs.length last.nextCall (.subscribe route.name e)
      (((last.failUnless fits).openCall (.run w.runs.length)).2.enrol
        (w.recordRefused count before route e last.nextCall)) := by
  have here : (last.failUnless fits).runs.length = w.runs.length := earlier.runs.length_eq.symm
  have later := (elsewhere_failUnless fits last).onward
  have well : (w.recordRefused count before route e last.nextCall).WellMade
      (last.failUnless fits).tokens := wellMade_recordRefused grows few route e
  have retreat : Retreat (last.failUnless fits).runs.length last.nextCall _
      (((last.failUnless fits).openCall (.run w.runs.length)).2.enrol _) :=
    retreat_enrol (later.numbered (earlier.numbered numbered)) well rfl rfl
  rwa [here] at retreat

/-- When the call hears of a failed start, everything is cleaned up that entered with the run. -/
theorem Retreat.cleanedUp {record : RunRecord} {e' : StartError} {t : Nat}
    (retreat : Retreat run id e w) (entered : w.runs[run]? = some record)
    (quiet : Quiet w w') {w'' : World} (later : Later w' w'')
    (heard : w''.outcome? id = some (.notStarted e', t)) :
    e' = e ∧ CleanedUp run (record.run.routes.map Running.route) record.token record.routeTokens
      w'' := by
  obtain ⟨r₀, found₀, well₀, -⟩ := retreat.record
  rw [entered] at found₀
  cases found₀
  obtain ⟨r, found, becomes⟩ := (quiet.onward.trans later.onward).runs entered
  obtain ⟨r', found', well, -, told⟩ := ((retreat.quiet quiet).later later).record
  rw [found] at found'
  cases found'
  obtain ⟨same, cleared⟩ := told heard
  refine ⟨same, becomes.token ▸ cleared.cancelled, fun t ht ↦ ?_, r, found,
    map_route_of_becomes (becomes.routes well₀.enough), cleared.rest⟩
  rw [← becomes.routeTokens] at ht
  obtain ⟨below, older⟩ := well.below t ht
  exact Tokens.isCancelled_of_parent below older cleared.cancelled

theorem ne_nil_of_not_fits {routes : List CompiledRoute} (unfit : w.fits routes = false) :
    routes ≠ [] ∧ w.parts.settings.realizable = false := by
  rw [fits, Bool.or_eq_false_iff] at unfit
  refine ⟨fun none ↦ ?_, unfit.2⟩
  rw [none] at unfit
  cases unfit.1

variable {table : RouteTable} {above : Nat} {routes : List CompiledRoute}

theorem crashes_or_sane {answer : Except CompileError (Nat × Option Nat)}
    (compiled : w.environment.compile table = .ok routes)
    (crashed : w'.crashed = (w.crashed || !w.fits routes)) :
    AllOrNothing w table above (answer, w') ∨ w'.crashed = w.crashed := by
  cases fits : w.fits routes with
  | false =>
    obtain ⟨some, unrealizable⟩ := ne_nil_of_not_fits fits
    rw [fits, Bool.not_false, Bool.or_true] at crashed
    exact .inl (.crashes compiled some unrealizable crashed)
  | true =>
    rw [fits, Bool.not_true, Bool.or_false] at crashed
    exact .inr crashed

theorem exists_running {last : World} (before : Quiet w last)
    (compiled : w.environment.compile table = .ok routes)
    (still : Still ((last.failUnless (w.fits routes)).enrol (w.recordRunning routes)) w') :
    ∃ r, w'.runs[w.runs.length]? = some r ∧ r.run.phase = .running ∧
      r.run.routes.map Running.route = routes ∧
      (r.run.routes.map fun x ↦ x.route.name) = table.routes.map RouteSpec.name := by
  obtain ⟨r, found, listens⟩ := exists_of_forall₂ still.runs (getElem?_enrolled before _)
  have same : r.run.routes.map Running.route = routes := by
    have becomes := listens.routes (by simp [recordRunning, routeTokens])
    simpa [recordRunning] using map_route_of_becomes becomes
  refine ⟨r, found, listens.phase, same, ?_⟩
  rw [← Environment.names_of_compile compiled, ← same, List.map_map]
  rfl

theorem allOrNothing_start (table : RouteTable) (above : Nat) (numbered : w.Numbered) :
    AllOrNothing w table above (w.start table above) := by
  generalize started w table above = began
  generalize w.start table above = result at began
  cases began with
  | rejected defect => exact .rejected defect
  | @runs routes last w' compiled accepted asked still =>
    have before := quiet_of_accepted accepted
    obtain crashes | sane := crashes_or_sane compiled (crashed_of_entered before still.crashed)
    · exact crashes
    · exact .runs compiled accepted asked sane (exists_running before compiled still)
  | @refused routes before after route middle last w' e compiled split accepted refused asked
    still =>
    have earlier := quiet_of_refused accepted refused
    obtain crashes | sane := crashes_or_sane compiled (crashed_of_entered earlier still.crashed)
    · exact crashes
    · refine .refused compiled split accepted refused asked sane (fun later heard ↦ ?_)
        (ticks_advance _ _ _ _).later
      have few : before.length < routes.length := by
        rw [split, List.length_append, List.length_cons]
        omega
      have grows := ((quiet_accepted accepted).trans (quiet_ask refused)).tokens
      have retreat := retreat_refused numbered earlier grows few route e (w.fits routes)
      have entered := getElem?_enrolled earlier
        (w.recordRefused routes.length before route e last.nextCall)
      simpa [recordRefused] using retreat.cleanedUp entered still.toQuiet later heard

/-- **A start brings all routes of a table to run or leaves nothing of them behind**, and neither it
nor its run, whatever becomes of that, reaches the token of its caller. -/
theorem all_or_nothing (table : RouteTable) {above : Nat} (numbered : w.Numbered)
    (known : above < w.tokens.length) :
    AllOrNothing w table above (w.start table above) ∧
      (w.start table above).2.tokens.isCancelled above = w.tokens.isCancelled above ∧
      ∀ {index : Nat} {awaited : Option Nat} {w' : World},
        (w.start table above).1 = .ok (index, awaited) →
        Meanwhile index (w.start table above).2 w' →
          w'.tokens.isCancelled above = w.tokens.isCancelled above := by
  refine ⟨allOrNothing_start table above numbered, ?_, fun {index awaited w'} begun meanwhile ↦ ?_⟩
  · cases answered : w.start table above with
    | mk answer w' =>
      cases answer with
      | error e =>
        have began := started w table above
        rw [answered] at began
        cases began
        rfl
      | ok begun => exact caller_spared known answered .refl
  · exact caller_spared known (Prod.ext begun rfl) meanwhile

/-! ## A refusal -/

/-- Two routes from the source of the bus to its target. -/
def twice : RouteTable :=
  ⟨[.direct "first" ⟨"bus", "in"⟩ ⟨"bus", "out"⟩,
    .direct "second" ⟨"bus", "in"⟩ ⟨"bus", "out"⟩], []⟩

/-- The second of two routes from one source is refused. Whoever waits for the start hears so when
all that was begun is cleaned up, and the token of the caller is left alone. -/
theorem all_or_nothing_of_refusal :
    (inMemory Running.oneLane ["in"]).Numbered ∧
      AllOrNothing (inMemory Running.oneLane ["in"]) twice 0
        ((inMemory Running.oneLane ["in"]).start twice 0) ∧
      ∃ w, (inMemory Running.oneLane ["in"]).start twice 0 = (.ok (0, some 0), w) ∧
        (w.stepRun 0 .proceed).tokens.isCancelled 0 = false ∧
        (w.awaitCall 0).outcome? 0 = some (.notStarted (.subscribe "second"
          (.subscribe "\"in\" already has a subscriber")), 0) ∧
        (w.awaitCall 0).tokens =
          [⟨some 1, true⟩, ⟨some 1, true⟩, ⟨some 0, true⟩, ⟨none, false⟩] := by
  have numbered : (inMemory Running.oneLane ["in"]).Numbered := by
    refine ⟨fun c hc ↦ ?_, fun r hr ↦ ?_⟩
    · cases hc
    · cases hr
  have known : 0 < (inMemory Running.oneLane ["in"]).tokens.length := by decide
  have whole := all_or_nothing twice numbered known
  exact ⟨numbered, whole.1, _, Prod.ext rfl rfl, whole.2.2 rfl (.step .proceed .refl), rfl, rfl⟩

/-! ## Queues that cannot be made -/

/-- No route of the table is refused, yet the start does not come back: the queues of the engine are
deeper than any channel can be. -/
theorem crash_of_deep_queues :
    ∃ routes last,
      (inMemory ⟨1, 2 ^ 61, .standard⟩ ["in"]).environment.compile through = .ok routes ∧
      Run.Accepted ((inMemory ⟨1, 2 ^ 61, .standard⟩ ["in"]).ask routes.length) 0
        ((inMemory ⟨1, 2 ^ 61, .standard⟩ ["in"]).handOut 0 routes.length) routes last ∧
      (inMemory ⟨1, 2 ^ 61, .standard⟩ ["in"]).crashed = false ∧
      ((inMemory ⟨1, 2 ^ 61, .standard⟩ ["in"]).start through 0).2.crashed = true :=
  ⟨_, _, rfl, .cons rfl .nil, rfl, rfl⟩

end World

end MessageBridge.Rehearsal
