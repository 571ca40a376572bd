import Mathlib.Data.List.Basic
import MessageBridge.Proofs.Rehearsal.Start

/-!
# What becomes of runs

Whatever happens in a world, runs are only added. A run that is there keeps its tokens, and its
routes go on by the steps of their own machines; tokens stay cancelled, and calls are numbered
upwards. `Onward` says this of one change, and `Later` relates a world to every world that can come
of it: runs are started, make their steps, are stopped and are let go of, tokens fire, and in
between anything happens that is not about runs and tokens.

Everything that the clockwork does by itself is among this, `Ticks`, and takes or leaves no seat.
-/

namespace MessageBridge.Rehearsal.World

variable {w w' w'' : World} {run : Nat} {a : RunAction} {r r' : RunRecord}

/-! ## One change -/

/-- What every change keeps. -/
structure Onward (w w' : World) : Prop where
  tokens : w.tokens.Grows w'.tokens
  runs : ∀ {i : Nat} {r : RunRecord}, w.runs[i]? = some r → ∃ r', w'.runs[i]? = some r' ∧
    r.Becomes r'
  nextCall : w.nextCall ≤ w'.nextCall
  numbered : w.Numbered → w'.Numbered

theorem Onward.refl (w : World) : Onward w w :=
  ⟨.refl _, fun {_ r} found ↦ ⟨r, found, .refl r⟩, Nat.le_refl _, id⟩

theorem Onward.trans (first : Onward w w') (second : Onward w' w'') : Onward w w'' where
  tokens := first.tokens.trans second.tokens
  runs found := by
    obtain ⟨r', found', becomes⟩ := first.runs found
    obtain ⟨r'', found'', becomes'⟩ := second.runs found'
    exact ⟨r'', found'', becomes.trans becomes'⟩
  nextCall := first.nextCall.trans second.nextCall
  numbered := second.numbered ∘ first.numbered

theorem Quiet.onward (quiet : Quiet w w') : Onward w w' where
  tokens := quiet.tokens
  runs found := by
    obtain ⟨r', found', listens⟩ := exists_of_forall₂ quiet.runs found
    exact ⟨r', found', listens.toBecomes⟩
  nextCall := quiet.nextCall
  numbered := quiet.numbered

/-- A change that is not about runs and tokens, and starts and ends no call that waits for a
start. -/
structure Elsewhere (w w' : World) : Prop where
  tokens : w'.tokens = w.tokens
  runs : w'.runs = w.runs
  nextCall : w.nextCall ≤ w'.nextCall
  calls : (∀ c ∈ w.calls, c.id < w.nextCall) → ∀ c ∈ w'.calls, c.id < w'.nextCall
  outcomes : ∀ {id e t}, w'.outcome? id = some (.notStarted e, t) →
    w.outcome? id = some (.notStarted e, t)

theorem Elsewhere.onward (elsewhere : Elsewhere w w') : Onward w w' where
  tokens := elsewhere.tokens ▸ .refl _
  runs {_ r} found := ⟨r, elsewhere.runs ▸ found, .refl r⟩
  nextCall := elsewhere.nextCall
  numbered before := ⟨elsewhere.calls before.calls, fun r hr id awaits ↦
    (before.awaited r (elsewhere.runs ▸ hr) id awaits).trans_le elsewhere.nextCall⟩

theorem Aside.elsewhere (aside : Aside w w') : Elsewhere w w' :=
  ⟨aside.sameTokens, aside.sameRuns, aside.nextCall, aside.calls, aside.outcomes⟩

/-! ## Records -/

/-- The world with the record of a run replaced. -/
def putRun (run : Nat) (r : RunRecord) (w : World) : World := { w with runs := w.runs.set run r }

theorem putRun_self (r : RunRecord) (found : w.runs[run]? = some r') :
    (w.putRun run r).runs[run]? = some r := by
  rw [putRun, List.getElem?_set, if_pos rfl, if_pos (List.getElem?_eq_some_iff.mp found).1]

theorem putRun_of_ne {other : Nat} (ne : run ≠ other) (r : RunRecord) (w : World) :
    (w.putRun run r).runs[other]? = w.runs[other]? := by
  rw [putRun, List.getElem?_set, if_neg ne]

theorem onward_putRun (found : w.runs[run]? = some r) (becomes : r.Becomes r')
    (awaited : ∀ id, r'.awaitedBy = some id → r.awaitedBy = some id ∨ id < w.nextCall) :
    Onward w (w.putRun run r') where
  tokens := .refl _
  runs {i x} hx := by
    by_cases here : run = i
    · subst here
      rw [found] at hx
      cases hx
      exact ⟨r', putRun_self r' found, becomes⟩
    · exact ⟨x, by rw [putRun_of_ne here, hx], .refl x⟩
  nextCall := Nat.le_refl _
  numbered before := by
    refine ⟨before.calls, fun x hx id awaits ↦ ?_⟩
    rcases List.mem_or_eq_of_mem_set hx with hx | rfl
    · exact before.awaited x hx id awaits
    · rcases awaited id awaits with awaits | new
      · exact before.awaited r (List.mem_of_getElem? found) id awaits
      · exact new

/-- Changing a record is putting the changed record. -/
theorem modify_runs (run : Nat) (f : RunRecord → RunRecord) (w : World) :
    { w with runs := w.runs.modify run f } = w ∨ ∃ r, w.runs[run]? = some r ∧
      { w with runs := w.runs.modify run f } = w.putRun run (f r) := by
  rw [List.modify_eq_set_getElem?]
  cases found : w.runs[run]? with
  | none => exact .inl rfl
  | some r => exact .inr ⟨r, rfl, rfl⟩

/-! ## Steps of runs -/

/-- How the step of a run can change a world: there is none, the run is as far as before, it begins
to stop and fires its token, or it ends, which whoever waits for it is told. -/
inductive Stepped (run : Nat) (w : World) : World → Prop where
  | nothing : Stepped run w w
  | goes {r : RunRecord} {run' : Run} {w' : World} (found : w.runs[run]? = some r)
      (routes : List.Forall₂ Running.Becomes r.run.routes run'.routes)
      (same : run'.phase = r.run.phase) (still : Still (w.putRun run { r with run := run' }) w') :
      Stepped run w w'
  | stops {r : RunRecord} {run' : Run} {w' : World} {error : Option StartError}
      (found : w.runs[run]? = some r)
      (routes : List.Forall₂ Running.Becomes r.run.routes run'.routes)
      (before : r.run.phase = .running ∧ error = none ∨
        ∃ e, r.run.phase = .retracting e ∧ error = some e)
      (now : run'.phase = .stopping error)
      (fires : r.token < w.tokens.length → w'.tokens.isCancelled r.token = true)
      (still : Still (w.putRun run { r with run := run' }) w') : Stepped run w w'
  | ends {r : RunRecord} {error : Option StartError} (found : w.runs[run]? = some r)
      (before : r.run.phase = .stopping error) (stopped : ∀ x ∈ r.run.routes, x.phase = .stopped)
      (w' : World)
      (done : w' = (((w.putRun run { r with run.phase := .ended error }).emit
        [.engineStopped]).hear run { r with run.phase := .ended error } (.ended error))) :
      Stepped run w w'

theorem stepped (run : Nat) (a : RunAction) (w : World) : Stepped run w (w.stepRun run a) := by
  unfold stepRun
  cases found : w.runs[run]? with
  | none => exact .nothing
  | some r =>
    rw [Option.bind_some]
    cases step : r.run.step? w.clock a with
    | none => exact .nothing
    | some reaction =>
      obtain ⟨run', outputs⟩ := reaction
      have routes := Run.becomes_of_step step
      simp only [react, found]
      cases Run.passage_of_step step with
      | stays same silent => exact .goes found routes same (still_hears run _ silent _)
      | stops before now fires silent =>
        exact .stops found routes before now
          (fun there ↦ isCancelled_hears (r := { r with run := run' }) silent fires there)
          (still_hears run _ silent _)
      | ends before stopped now tells =>
        subst now tells
        exact .ends found before stopped _ rfl

theorem becomes_run {run' : Run} (routes : List.Forall₂ Running.Becomes r.run.routes run'.routes) :
    r.Becomes { r with run := run' } := ⟨rfl, rfl, fun _ ↦ routes⟩

theorem onward_close (id : Nat) (result : Result) (w : World) : Onward w (w.close id result) where
  tokens := .refl _
  runs {_ r} found := ⟨r, found, .refl r⟩
  nextCall := Nat.le_refl _
  numbered before := ⟨numbers_close before.calls, before.awaited⟩

theorem onward_ended (r : RunRecord) (error : Option StartError) (w : World) :
    Onward w (w.hear run r (.ended error)) := by
  simp only [hear]
  split
  · exact onward_close _ _ w
  · exact onward_close _ _ w
  · exact .refl w

theorem onward_stepRun (run : Nat) (a : RunAction) (w : World) : Onward w (w.stepRun run a) := by
  generalize stepped run a w = changed
  generalize w.stepRun run a = w' at changed
  cases changed with
  | nothing => exact .refl w
  | goes found routes _ still =>
    exact (onward_putRun found (becomes_run routes) fun _ ↦ .inl).trans still.toQuiet.onward
  | stops found routes _ _ _ still =>
    exact (onward_putRun found (becomes_run routes) fun _ ↦ .inl).trans still.toQuiet.onward
  | @ends r error found before stopped w' done =>
    have same : r.Becomes { r with run.phase := .ended error } :=
      ⟨rfl, rfl, fun _ ↦ List.forall₂_same.mpr fun x _ ↦ .refl x⟩
    rw [done]
    exact ((onward_putRun found same fun _ ↦ .inl).trans
      (aside_emit _ _).toQuiet.onward).trans (onward_ended _ _ _)

/-! ## All changes -/

theorem elsewhere_of_eq (tokens : w'.tokens = w.tokens) (runs : w'.runs = w.runs)
    (calls : w'.calls = w.calls) (nextCall : w'.nextCall = w.nextCall) : Elsewhere w w' where
  tokens := tokens
  runs := runs
  nextCall := nextCall.ge
  calls := by rw [calls, nextCall]; exact id
  outcomes {id e t} known := by
    rw [outcome?, call?, calls] at known
    exact known

theorem elsewhere_failUnless (fits : Bool) (w : World) : Elsewhere w (w.failUnless fits) :=
  elsewhere_of_eq rfl rfl rfl rfl

theorem onward_enrol {record : RunRecord}
    (new : ∀ id, record.awaitedBy = some id → id < w.nextCall) : Onward w (w.enrol record) where
  tokens := .refl _
  runs {i r} found := by
    refine ⟨r, ?_, .refl r⟩
    rw [enrol, List.getElem?_append_left (List.getElem?_eq_some_iff.mp found).1, found]
  nextCall := Nat.le_refl _
  numbered before := by
    refine ⟨before.calls, fun x hx id awaits ↦ ?_⟩
    rcases List.mem_append.mp hx with hx | hx
    · exact before.awaited x hx id awaits
    · rw [List.mem_singleton.mp hx] at awaits
      exact new id awaits

theorem onward_start (table : RouteTable) (above : Nat) (w : World) :
    Onward w (w.start table above).2 := by
  generalize started w table above = began
  generalize w.start table above = result at began
  cases began with
  | rejected _ => exact (aside_emit _ w).toQuiet.onward
  | @runs routes last w' _ accepted _ still =>
    have before := quiet_of_accepted accepted
    have failed := (elsewhere_failUnless (w.fits routes) last).onward
    refine ((before.onward.trans failed).trans (onward_enrol ?_)).trans still.toQuiet.onward
    intro id awaits
    cases awaits
  | @refused routes _ _ _ _ last w' _ _ _ accepted refused _ still =>
    have before := quiet_of_refused accepted refused
    have opened := (elsewhere_failUnless (w.fits routes) last).onward.trans
      (aside_openCall (.run w.runs.length) _).toQuiet.onward
    refine ((before.onward.trans opened).trans (onward_enrol ?_)).trans still.toQuiet.onward
    intro id awaits
    cases awaits
    exact Nat.lt_succ_self _

theorem becomes_forsake (r : RunRecord) :
    r.Becomes { r with run := r.run.forsake, awaitedBy := none } where
  token := rfl
  routeTokens := rfl
  routes _ := by
    refine List.forall₂_map_right_iff.mpr (List.forall₂_same.mpr fun x _ ↦ ?_)
    have step : x.step? ⟨0, 0⟩ .forsake = some (x.forsake, []) := rfl
    exact Running.becomes_of_step step

theorem onward_forsake (run : Nat) (w : World) : Onward w (w.forsake run) := by
  obtain same | ⟨r, found, done⟩ := modify_runs run
    (fun r ↦ { r with run := r.run.forsake, awaitedBy := none }) w
  · rw [forsake, same]
    exact .refl w
  · rw [forsake, done]
    exact onward_putRun found (becomes_forsake r) fun id awaits ↦ by cases awaits

/-- The world in which a new call waits for the end of a run. -/
def await (run : Nat) (w : World) : World :=
  { (w.openCall (.run run)).2 with
    runs := w.runs.modify run fun r ↦ { r with awaitedBy := some w.nextCall } }

theorem stop_eq (run : Nat) (w : World) : (w.stop run).2 = (w.await run).stepRun run .stop := rfl

theorem onward_await (run : Nat) (w : World) : Onward w (w.await run) := by
  have opened := (aside_openCall (.run run) w).toQuiet.onward
  obtain same | ⟨r, found, done⟩ := modify_runs run
    (fun r ↦ { r with awaitedBy := some w.nextCall }) (w.openCall (.run run)).2
  · rw [await, show w.runs = (w.openCall (.run run)).2.runs from rfl, same]
    exact opened
  · rw [await, show w.runs = (w.openCall (.run run)).2.runs from rfl, done]
    refine opened.trans (onward_putRun found ⟨rfl, rfl, (RunRecord.Becomes.refl r).routes⟩ ?_)
    intro id awaits
    cases awaits
    exact .inr (Nat.lt_succ_self _)

/-- What can come of a world. -/
inductive Later (w : World) : World → Prop where
  | refl : Later w w
  | step {w' : World} (run : Nat) (a : RunAction) (later : Later w w') : Later w (w'.stepRun run a)
  | start {w' : World} (table : RouteTable) (above : Nat) (later : Later w w') :
      Later w (w'.start table above).2
  | stop {w' : World} (run : Nat) (later : Later w w') : Later w (w'.stop run).2
  | forsake {w' : World} (run : Nat) (later : Later w w') : Later w (w'.forsake run)
  | fire {w' : World} (token : Nat) (later : Later w w') : Later w (w'.fire token)
  | newToken {w' : World} (above : Option Nat) (later : Later w w') :
      Later w (w'.newToken above).2
  | elsewhere {w' w'' : World} (later : Later w w') (change : Elsewhere w' w'') : Later w w''

/-- **Runs go on**, whatever happens. -/
theorem Later.onward (later : Later w w') : Onward w w' := by
  induction later with
  | refl => exact .refl w
  | step run a _ ih => exact ih.trans (onward_stepRun run a _)
  | start table above _ ih => exact ih.trans (onward_start table above _)
  | stop run _ ih => exact (ih.trans (onward_await run _)).trans (onward_stepRun run .stop _)
  | forsake run _ ih => exact ih.trans (onward_forsake run _)
  | fire token _ ih => exact ih.trans (still_fire token _).toQuiet.onward
  | newToken above _ ih => exact ih.trans (still_newToken above _).toQuiet.onward
  | elsewhere _ change ih => exact ih.trans change.onward

/-! ## The clockwork -/

/-- What comes of a world by itself: runs make steps, and in between happens what is not about runs
and tokens and leaves ingress points as free or occupied as they are. -/
inductive Ticks (w : World) : World → Prop where
  | refl : Ticks w w
  | step {w' : World} (run : Nat) (a : RunAction) (ticks : Ticks w w') : Ticks w (w'.stepRun run a)
  | elsewhere {w' w'' : World} (ticks : Ticks w w') (change : Elsewhere w' w'')
      (seats : w''.seats = w'.seats) : Ticks w w''

theorem Ticks.trans (first : Ticks w w') (second : Ticks w' w'') : Ticks w w'' := by
  induction second with
  | refl => exact first
  | step run a _ ih => exact ih.step run a
  | elsewhere _ change seats ih => exact ih.elsewhere change seats

theorem Ticks.later (ticks : Ticks w w') : Later w w' := by
  induction ticks with
  | refl => exact .refl
  | step run a _ ih => exact ih.step run a
  | elsewhere _ change _ ih => exact ih.elsewhere change

theorem seats_ended (r : RunRecord) (error : Option StartError) (w : World) :
    (w.hear run r (.ended error)).seats = w.seats := by
  simp only [hear]
  split <;> rfl

/-- No step of a run takes a seat or leaves one. -/
theorem seats_stepRun (run : Nat) (a : RunAction) (w : World) :
    (w.stepRun run a).seats = w.seats := by
  generalize stepped run a w = changed
  generalize w.stepRun run a = w' at changed
  cases changed with
  | nothing => rfl
  | goes _ _ _ still => exact still.seats
  | stops _ _ _ _ _ still => exact still.seats
  | ends _ _ _ w' done => rw [done, seats_ended]; rfl

theorem Ticks.seats (ticks : Ticks w w') : w'.seats = w.seats := by
  induction ticks with
  | refl => rfl
  | step run a _ ih => exact (seats_stepRun run a _).trans ih
  | elsewhere _ _ seats ih => exact seats.trans ih

theorem Aside.ticks (aside : Aside w w') : Ticks w w' :=
  Ticks.refl.elsewhere aside.elsewhere aside.seats

theorem ticks_react {reaction : RunReaction} (found : w.runs[run]? = some r)
    (step : r.run.step? w.clock a = some reaction) : Ticks w (w.react run reaction) := by
  have same : w.stepRun run a = w.react run reaction := by
    rw [stepRun, found, Option.bind_some, step]
  rw [← same]
  exact Ticks.refl.step run a

theorem ticks_passOn (id : Nat) (answer : Option (Except BusError Unit)) (w : World) :
    Ticks w (w.passOn id answer) := by
  unfold passOn
  split
  · have passed : Elsewhere w { w with publishes := w.publishes.filter fun x ↦ x.1 != id } :=
      elsewhere_of_eq rfl rfl rfl rfl
    exact (Ticks.refl.elsewhere passed rfl).step _ _
  · split
    · exact (aside_close (fun _ same ↦ by cases same) _ w).ticks
    · exact Ticks.refl.elsewhere (elsewhere_of_eq rfl rfl rfl rfl) rfl

theorem ticks_handle (h : Handler) (id : Nat) (m : Message) (w : World) :
    Ticks w (w.handle h id m) := by
  cases h with
  | route run i => exact Ticks.refl.step _ _
  | recorder i =>
    have kept (recorders : List Recorder) : Ticks w { w with recorders := recorders } :=
      Ticks.refl.elsewhere (elsewhere_of_eq rfl rfl rfl rfl) rfl
    exact (kept _).trans (aside_verdict _ _ _).ticks

theorem ticks_nextAnswer? (next : w.nextAnswer? = some w') : Ticks w w' := by
  unfold nextAnswer? at next
  split at next
  · cases next
  · cases next
    have taken (answers : List (Nat × Option (Except BusError Unit))) :
        Ticks w { w with answers := answers } :=
      Ticks.refl.elsewhere (elsewhere_of_eq rfl rfl rfl rfl) rfl
    exact (taken _).trans (ticks_passOn _ _ _)

theorem ticks_nextRun? (next : w.nextRun? = some w') : Ticks w w' := by
  obtain ⟨⟨r, i⟩, hr, next⟩ := List.exists_of_findSome?_eq_some next
  obtain ⟨reaction, own, rfl⟩ := Option.map_eq_some_iff.mp next
  obtain ⟨a, step⟩ := Run.exists_step_of_next? own
  exact ticks_react (List.mem_zipIdx_iff_getElem?.mp hr) step

theorem ticks_nextHalt? (next : w.nextHalt? = some w') : Ticks w w' := by
  obtain ⟨⟨calls, x⟩, halted, rfl⟩ := Option.map_eq_some_iff.mp next
  refine (aside_nextConnector? Connector.seats_halt? halted).ticks.trans ?_
  clear halted next
  induction calls generalizing x with
  | nil => exact .refl
  | cons id calls ih => exact (aside_close (fun _ same ↦ by cases same) id x).ticks.trans (ih _)

theorem ticks_nextHandOver? (next : w.nextHandOver? = some w') : Ticks w w' := by
  obtain ⟨⟨⟨s, d⟩, x⟩, handed, rfl⟩ := Option.map_eq_some_iff.mp next
  exact (aside_nextConnector? Connector.seats_handOver? handed).ticks.trans (ticks_handle _ _ _ x)

theorem ticks_nextRelease? (next : w.nextRelease? = some w') : Ticks w w' := by
  obtain ⟨⟨r, run⟩, hr, next⟩ := List.exists_of_findSome?_eq_some next
  obtain ⟨i, -, next⟩ := List.exists_of_findSome?_eq_some next
  split at next
  · cases next
  · obtain ⟨reaction, step, rfl⟩ := Option.map_eq_some_iff.mp next
    exact ticks_react (List.mem_zipIdx_iff_getElem?.mp hr) step

theorem ticks_nextPublish? (next : w.nextPublish? = some w') : Ticks w w' := by
  obtain ⟨⟨c, x⟩, ended, rfl⟩ := Option.map_eq_some_iff.mp next
  exact ((aside_nextConnector? Connector.seats_conclude? ended).trans
    (aside_concludePoint c x)).ticks

theorem ticks_nextWait? (next : w.nextWait? = some w') : Ticks w w' := by
  obtain ⟨⟨⟨id, inTime⟩, x⟩, ended, rfl⟩ := Option.map_eq_some_iff.mp next
  exact ((aside_nextConnector? Connector.seats_endWait? ended).trans
    (aside_close (fun _ same ↦ by cases same) id x)).ticks

theorem ticks_next? (next : w.next? = some w') : Ticks w w' := by
  simp only [next?, Option.orElse_eq_orElse, Option.orElse_eq_or, Option.or_eq_some_iff] at next
  rcases next with next | ⟨-, next | ⟨-, next | ⟨-, next | ⟨-, next | ⟨-, next | ⟨-, next⟩⟩⟩⟩⟩⟩
  · exact ticks_nextAnswer? next
  · exact ticks_nextRun? next
  · exact ticks_nextHalt? next
  · exact ticks_nextHandOver? next
  · exact ticks_nextRelease? next
  · exact ticks_nextPublish? next
  · exact ticks_nextWait? next

/-- Whatever the clockwork does, it does in this way. -/
theorem ticks_advance (purpose : World → Bool) (limit : Option Nat) (fuel : Nat) (w : World) :
    Ticks w (w.advance purpose limit fuel) := by
  induction fuel generalizing w with
  | zero => exact .refl
  | succ fuel ih =>
    rw [advance]
    split
    · rename_i next
      exact (ticks_next? next).trans (ih _)
    · split
      · exact .refl
      · split
        · exact .refl
        · split
          · have jumped (clock : Clock) : Ticks w { w with clock := clock } :=
              Ticks.refl.elsewhere (elsewhere_of_eq rfl rfl rfl rfl) rfl
            exact (jumped _).trans (ih _)
          · exact .refl

/-- An injection leaves every handler at its seat. -/
theorem seats_injection {c c' : Connector} {source : String} {id : Nat} {m : Message}
    {refusal : Option InjectError}
    (step : c.updateIngress? source (fun i ↦ match i.inject id m with
      | .ok i => some (none, i)
      | .error e => some (some e, i)) = some (refusal, c')) : c'.seats = c.seats := by
  refine Connector.seats_updateIngress? (fun done ↦ ?_) step
  split at done
  · rename_i injected
    cases done
    exact seat_inject injected
  · cases done
    rfl

/-- An injected message is handed over, or its call ends at once. -/
theorem ticks_inject (connector : Nat) (source : String) (m : Message) (w : World) :
    Ticks w (w.inject connector source m).2 := by
  unfold inject
  split
  · split
    · rename_i h _
      exact (aside_openCall (.handling h) w).ticks.trans (ticks_handle _ _ _ _)
    · exact .refl
  · have opened := (aside_openCall (.injection connector source) w).ticks
    dsimp only
    split
    · rename_i changed
      exact opened.trans (aside_updateConnector? seats_injection changed).ticks
    · rename_i changed
      exact (opened.trans (aside_updateConnector? seats_injection changed).ticks).trans
        (aside_close (fun _ same ↦ by cases same) _ _).ticks
    · exact opened
  · exact .refl

end MessageBridge.Rehearsal.World
