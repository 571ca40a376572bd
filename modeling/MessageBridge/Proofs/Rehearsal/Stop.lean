import MessageBridge.Proofs.Engine.Stop
import MessageBridge.Proofs.Rehearsal.Quiet

/-!
# Stopping and tokens

The tokens of a run are made when it starts, so they are newer than the token that it was started
below. Firing a token cannot touch an older one, and a run fires only its own. Hence nothing that a
run does, its stop included, reaches the token of its caller.
-/

namespace MessageBridge

universe u

/-! ## Forests -/

namespace Tokens

variable {n m : Nat} {tokens : Tokens}

theorem fire_of_length_le (new : tokens.length ≤ n) : fire n tokens = tokens := by
  induction tokens with
  | nil => rfl
  | cons t older ih =>
    rw [List.length_cons] at new
    have other : n ≠ older.length := by omega
    rw [fire, if_neg other, ih (by omega)]

/-- Firing a token cannot touch an older one. -/
theorem isCancelled_fire_of_lt (older : m < n) (tokens : Tokens) :
    isCancelled m (fire n tokens) = isCancelled m tokens := by
  induction tokens with
  | nil => rfl
  | cons t rest ih =>
    rw [fire]
    by_cases here : n = rest.length
    · have other : m ≠ rest.length := by omega
      rw [if_pos here, isCancelled, isCancelled, if_neg other, if_neg other]
    · rw [if_neg here, isCancelled, isCancelled, length_fire]
      by_cases found : m = rest.length
      · rw [if_pos found, if_pos found, fire_of_length_le (by omega)]
      · rw [if_neg found, if_neg found, ih]

theorem isCancelled_create (above : Option Nat) (h : m < tokens.length) :
    isCancelled m (create above tokens).2 = isCancelled m tokens := by
  have other : m ≠ tokens.length := by omega
  rw [create, isCancelled, if_neg other]

end Tokens

namespace Rehearsal.World

variable {w w' w'' : World} {n run : Nat}

/-! ## What a change spares -/

/-- The tokens of all runs. -/
def marks (w : World) : List (Nat × List Nat) := w.runs.map fun r ↦ (r.token, r.routeTokens)

/-- The runs keep their tokens, and a token stays as it is. -/
structure Spares (n : Nat) (w w' : World) : Prop where
  marks : w'.marks = w.marks
  token : w'.tokens.isCancelled n = w.tokens.isCancelled n

theorem Spares.refl (n : Nat) (w : World) : Spares n w w := ⟨rfl, rfl⟩

theorem Spares.trans (first : Spares n w w') (second : Spares n w' w'') : Spares n w w'' :=
  ⟨second.marks.trans first.marks, second.token.trans first.token⟩

/-- A change that touches neither tokens nor runs spares every token. -/
theorem spares_of_eq (tokens : w'.tokens = w.tokens) (runs : w'.runs = w.runs) : Spares n w w' :=
  ⟨by rw [World.marks, World.marks, runs], by rw [tokens]⟩

theorem Aside.spares (aside : Aside w w') : Spares n w w' :=
  spares_of_eq aside.sameTokens aside.sameRuns

theorem spares_heed (w : World) : Spares n w w.heed := by
  refine ⟨?_, rfl⟩
  simp only [World.marks, heed, List.map_map]
  rfl

theorem spares_fire {token : Nat} (older : n < token) (w : World) : Spares n w (w.fire token) := by
  have fired : Spares n w { w with tokens := w.tokens.fire token } :=
    ⟨rfl, Tokens.isCancelled_fire_of_lt older w.tokens⟩
  exact fired.trans (spares_heed _)

theorem spares_updateConnector? {β : Type} {i : Nat} {f : Connector → Option (β × Connector)}
    {b : β} (changed : w.updateConnector? i f = some (b, w')) : Spares n w w' := by
  obtain ⟨c, c', -, -, rfl⟩ := updateConnector?_cases changed
  exact spares_of_eq rfl rfl

theorem spares_getD {β : Type} {i : Nat} (f : Connector → Option (β × Connector)) (b : β)
    (w : World) : Spares n w ((w.updateConnector? i f).getD (b, w)).2 := by
  cases changed : w.updateConnector? i f with
  | none => exact .refl n w
  | some t => exact spares_updateConnector? changed

theorem spares_subscribe (bus : Nat) (source : String) (x : Subscriber) (w : World) :
    Spares n w (w.subscribe bus source x).2 := by
  unfold subscribe
  split
  · split
    · exact .refl n w
    · split
      · rename_i changed
        exact (spares_updateConnector? changed).trans (spares_heed _)
      · exact .refl n w
  · exact spares_getD _ _ w
  · exact .refl n w

/-! ## What a run does -/

/-- The tokens of a run are newer than a token. -/
def Newer (n : Nat) (r : RunRecord) : Prop := n < r.token ∧ ∀ token ∈ r.routeTokens, n < token

theorem spares_hearRoute {r : RunRecord} (newer : Newer n r) (route : Nat) (o : Output)
    (w : World) : Spares n w (w.hearRoute run route r o) := by
  cases o with
  | event _ e => exact spares_of_eq rfl rfl
  | verdict id v => exact (aside_verdict id v w).spares
  | cancelled =>
    simp only [hearRoute]
    split
    · rename_i token found
      exact spares_fire (newer.2 token (List.mem_of_getElem? found)) w
    · exact .refl n w
  | stopped => exact .refl n w
  | publish pool lane c m =>
    simp only [hearRoute]
    split
    · rename_i p _
      have noted : Spares n w { w with
          nextCall := w.nextCall + 1
          publishes := (w.nextCall, ⟨run, route, pool, lane⟩) :: w.publishes } :=
        spares_of_eq rfl rfl
      exact noted.trans (aside_publish _ _ _ _ _).spares
    · exact .refl n w

theorem spares_hear {r : RunRecord} (newer : Newer n r) (o : RunOutput) (w : World) :
    Spares n w (w.hear run r o) := by
  cases o with
  | route i o => exact spares_hearRoute newer i o w
  | event e => exact spares_of_eq rfl rfl
  | cancelled => exact spares_fire newer.1 w
  | ended error =>
    simp only [hear]
    split
    · exact spares_of_eq rfl rfl
    · exact spares_of_eq rfl rfl
    · exact .refl n w

/-- A run may change in everything but its tokens. -/
theorem marks_modify {f : RunRecord → RunRecord}
    (same : ∀ r, (f r).token = r.token ∧ (f r).routeTokens = r.routeTokens) (run : Nat)
    (runs : List RunRecord) : (runs.modify run f).map (fun r ↦ (r.token, r.routeTokens)) =
      runs.map fun r ↦ (r.token, r.routeTokens) := by
  refine List.ext_getElem? fun i ↦ ?_
  rw [List.getElem?_map, List.getElem?_map, List.getElem?_modify]
  cases runs[i]? with
  | none => rfl
  | some r =>
    by_cases here : run = i
    · simp [here, same r]
    · simp [here]

theorem marks_set {r r' : RunRecord} (found : w.runs[run]? = some r) (token : r'.token = r.token)
    (routeTokens : r'.routeTokens = r.routeTokens) :
    (w.runs.set run r').map (fun x ↦ (x.token, x.routeTokens)) = w.marks := by
  have inside : run < w.runs.length := (List.getElem?_eq_some_iff.mp found).1
  refine List.ext_getElem? fun i ↦ ?_
  rw [World.marks, List.getElem?_map, List.getElem?_map, List.getElem?_set]
  by_cases here : run = i
  · subst here
    rw [if_pos rfl, if_pos inside, found]
    simp [token, routeTokens]
  · rw [if_neg here]

theorem spares_react {r : RunRecord} (found : w.runs[run]? = some r) (newer : Newer n r)
    (reaction : RunReaction) : Spares n w (w.react run reaction) := by
  have heard (outputs : List RunOutput) (x : World) :
      Spares n x (outputs.foldl (hear run { r with run := reaction.1 }) x) := by
    induction outputs generalizing x with
    | nil => exact .refl n x
    | cons o outputs ih =>
      have same : Newer n { r with run := reaction.1 } := newer
      exact (spares_hear same o x).trans (ih _)
  have replaced : Spares n w { w with runs := w.runs.set run { r with run := reaction.1 } } :=
    ⟨marks_set found rfl rfl, rfl⟩
  unfold react
  rw [found]
  exact replaced.trans (heard _ _)

theorem spares_stepRun {r : RunRecord} (found : w.runs[run]? = some r) (newer : Newer n r)
    (a : RunAction) : Spares n w (w.stepRun run a) := by
  unfold stepRun
  split
  · exact spares_react found newer _
  · exact .refl n w

theorem newer_of_spares {r : RunRecord} (spared : Spares n w w') (found : w.runs[run]? = some r)
    (newer : Newer n r) : ∃ r', w'.runs[run]? = some r' ∧ Newer n r' := by
  have mark : w'.marks[run]? = some (r.token, r.routeTokens) := by
    rw [spared.marks, World.marks, List.getElem?_map, found]
    rfl
  rw [World.marks, List.getElem?_map, Option.map_eq_some_iff] at mark
  obtain ⟨r', found', same⟩ := mark
  obtain ⟨token, routeTokens⟩ := Prod.mk.inj same
  refine ⟨r', found', ?_, ?_⟩
  · rw [token]
    exact newer.1
  · rw [routeTokens]
    exact newer.2

theorem spares_stop {r : RunRecord} (found : w.runs[run]? = some r) (newer : Newer n r) :
    Spares n w (w.stop run).2 := by
  have awaited : Spares n w { (w.openCall (.run run)).2 with
      runs := w.runs.modify run fun x ↦ { x with awaitedBy := some w.nextCall } } :=
    ⟨marks_modify (fun r ↦ by exact ⟨rfl, rfl⟩) run w.runs, rfl⟩
  obtain ⟨r', found', newer'⟩ := newer_of_spares awaited found newer
  exact awaited.trans (spares_stepRun found' newer' .stop)

/-! ## Starting -/

/-- What a subscription of one route spares, a start of routes spares. -/
theorem spares_attach {s : EngineSettings}
    {subscribe : Nat → CompiledRoute → World → Except BusError Unit × World}
    (each : ∀ i route w, Spares n w (subscribe i route w).2) (routes : List CompiledRoute)
    (index : Nat) (w : World) : Spares n w (Run.attach s subscribe index w routes).state := by
  induction routes generalizing index w with
  | nil => exact .refl n w
  | cons route rest ih =>
    have first := each index route w
    rw [Run.attach]
    split
    · rename_i subscribed
      rw [subscribed] at first
      exact first.trans (ih _ _)
    · rename_i subscribed
      rw [subscribed] at first
      exact first

theorem spares_startRun {s : EngineSettings} {buses : Nat}
    {subscribe : Nat → CompiledRoute → World → Except BusError Unit × World}
    (each : ∀ i route w, Spares n w (subscribe i route w).2) (routes : List CompiledRoute)
    (w : World) : Spares n w (Run.start s buses subscribe w routes).1 := by
  have attached := spares_attach (s := s) each routes 0 w
  rw [Run.start]
  split <;> exact attached

theorem spares_newToken (above : Option Nat) (h : n < w.tokens.length) :
    Spares n w (w.newToken above).2 ∧ (w.newToken above).1 = w.tokens.length ∧
      (w.newToken above).2.tokens.length = w.tokens.length + 1 :=
  ⟨⟨rfl, Tokens.isCancelled_create above h⟩, rfl, rfl⟩

/-- The tokens of the routes are newer than any token that was there before. -/
theorem spares_routeTokens (token : Nat) (routes : List CompiledRoute) (tokens : List Nat)
    (newer : ∀ t ∈ tokens, n < t) (h : n < w.tokens.length) :
    let made := routes.foldl (fun (p : List Nat × World) (_ : CompiledRoute) ↦
      (p.1 ++ [(p.2.newToken (some token)).1], (p.2.newToken (some token)).2)) (tokens, w)
    Spares n w made.2 ∧ ∀ t ∈ made.1, n < t := by
  induction routes generalizing tokens w with
  | nil => exact ⟨.refl n w, newer⟩
  | cons route routes ih =>
    obtain ⟨spared, made, grown⟩ := spares_newToken (some token) h
    have later := ih (w := (w.newToken (some token)).2) (tokens ++ [(w.newToken (some token)).1])
      (fun t ht ↦ ?_) (by omega)
    · exact ⟨spared.trans later.1, later.2⟩
    · rcases List.mem_append.mp ht with ht | ht
      · exact newer t ht
      · rw [List.mem_singleton.mp ht, made]
        exact h

theorem Spares.length (spared : Spares n w w') : w'.runs.length = w.runs.length := by
  have := congrArg List.length spared.marks
  simpa [World.marks] using this

/-- A new run spares a token that its own are newer than. -/
theorem newer_of_append {index : Nat} {record : RunRecord} (last : w.runs.length = index)
    (newer : Newer n record) (reaction : RunReaction) :
    let started := ({ w with runs := w.runs ++ [record] }.react index reaction).heed
    started.tokens.isCancelled n = w.tokens.isCancelled n ∧
      ∃ r, started.runs[index]? = some r ∧ Newer n r := by
  have found : (w.runs ++ [record])[index]? = some record := by
    rw [← last]
    exact List.getElem?_concat_length
  have spared := (spares_react (w := { w with runs := w.runs ++ [record] }) found newer
    reaction).trans (spares_heed _)
  exact ⟨spared.token, newer_of_spares spared found newer⟩

/-- A run that starts has tokens that are newer than any token that was there before, and leaves
each of those as it is. -/
theorem newer_of_start {table : RouteTable} {above index : Nat} {awaited : Option Nat}
    (h : n < w.tokens.length) (started : w.start table above = (.ok (index, awaited), w')) :
    w'.tokens.isCancelled n = w.tokens.isCancelled n ∧
      ∃ r, w'.runs[index]? = some r ∧ Newer n r := by
  rw [start] at started
  split at started
  · cases started
  · rename_i routes _
    obtain ⟨first, made, grown⟩ := spares_newToken (some above) h
    have room : n < (w.newToken (some above)).2.tokens.length := by omega
    obtain ⟨second, newer⟩ := spares_routeTokens (n := n) (w.newToken (some above)).1 routes []
      (fun t ht ↦ (nomatch ht)) room
    dsimp only at started
    generalize folded : List.foldl _ _ routes = made₁ at started
    rw [show List.foldl _ _ routes = made₁ from folded] at second newer
    obtain ⟨routeTokens, w₂⟩ := made₁
    dsimp only at started
    generalize begun : Run.start _ _ _ w₂ routes = result at started
    have third : Spares n w₂ result.1 := by
      rw [← begun]
      exact spares_startRun (fun _ _ _ ↦ spares_subscribe _ _ _ _) routes w₂
    generalize checked : (if routes.isEmpty || result.1.parts.settings.realizable then result.1
      else { result.1 with crashed := true }) = w₃ at started
    have fourth : Spares n result.1 w₃ := by
      rw [← checked]
      split <;> exact spares_of_eq rfl rfl
    have spared := ((first.trans second).trans third).trans fourth
    -- the record of the run holds the tokens that were made for it, all of them after `above`
    have fresh (awaitedBy : Option Nat) :
        Newer n ⟨⟨[], .running⟩, (w.newToken (some above)).1, routeTokens, awaitedBy⟩ :=
      ⟨by rw [made]; exact h, newer⟩
    split at started
    · cases started
      obtain ⟨token, run⟩ := newer_of_append spared.length (fresh none) result.2
      exact ⟨token.trans spared.token, run⟩
    · cases started
      have opened : Spares n w (w₃.openCall (.run w.runs.length)).2 :=
        spared.trans (spares_of_eq rfl rfl)
      obtain ⟨token, run⟩ := newer_of_append opened.length (fresh _) result.2
      exact ⟨token.trans opened.token, run⟩

/-- What can become of a world while a run goes on: the run does something, it is told to stop, or
something happens that is none of the runs' and tokens' business. -/
inductive Meanwhile (run : Nat) (w : World) : World → Prop where
  | refl : Meanwhile run w w
  | step {w' : World} (a : RunAction) : Meanwhile run w w' → Meanwhile run w (w'.stepRun run a)
  | stop {w' : World} : Meanwhile run w w' → Meanwhile run w (w'.stop run).2
  | other {w' w'' : World} (tokens : w''.tokens = w'.tokens) (runs : w''.runs = w'.runs) :
      Meanwhile run w w' → Meanwhile run w w''

theorem spares_of_meanwhile {r : RunRecord} (found : w.runs[run]? = some r) (newer : Newer n r)
    (meanwhile : Meanwhile run w w') : Spares n w w' := by
  induction meanwhile with
  | refl => exact .refl n w
  | step a _ ih =>
    obtain ⟨r', found', newer'⟩ := newer_of_spares ih found newer
    exact ih.trans (spares_stepRun found' newer' a)
  | stop _ ih =>
    obtain ⟨r', found', newer'⟩ := newer_of_spares ih found newer
    exact ih.trans (spares_stop found' newer')
  | other tokens runs _ ih => exact ih.trans (spares_of_eq tokens runs)

/-- **No run reaches the token of its caller**, whether it goes on, stops or could not start. -/
theorem caller_spared {table : RouteTable} {above index : Nat} {awaited : Option Nat}
    (h : above < w.tokens.length) (started : w.start table above = (.ok (index, awaited), w'))
    (meanwhile : Meanwhile index w' w'') :
    w''.tokens.isCancelled above = w.tokens.isCancelled above := by
  obtain ⟨token, r, found, newer⟩ := newer_of_start h started
  exact (spares_of_meanwhile found newer meanwhile).token.trans token

end Rehearsal.World

/-! ## The whole stop -/

/-- **Stopping is graceful.** A run that stops brings every one of its routes to rest, in whatever
order things happen, and the token of its caller is none of its business. -/
theorem graceful_stop {σ : Type u} (s : EngineSettings) (buses : Nat)
    (subscribe : Nat → CompiledRoute → σ → Except BusError Unit × σ) (state : σ)
    (routes : List CompiledRoute) :
    (∀ {past : Run.Past} {run : Run},
        Execution Run.act (Run.start s buses subscribe state routes).2.1 past run →
        Run.GracefulStop s (Run.start s buses subscribe state routes).2.1 past run) ∧
      ∀ {w w' w'' : Rehearsal.World} {table : RouteTable} {above index : Nat}
        {awaited : Option Nat}, above < w.tokens.length →
        w.start table above = (.ok (index, awaited), w') →
        Rehearsal.World.Meanwhile index w' w'' →
        w''.tokens.isCancelled above = w.tokens.isCancelled above :=
  ⟨fun runs ↦ Run.gracefulStop runs, fun h started meanwhile ↦
    Rehearsal.World.caller_spared h started meanwhile⟩

namespace Rehearsal.World

/-- A world with one bus and one token. -/
def oneBus : World :=
  (register 0 { empty 0 ⟨Running.oneLane, [], [], .empty⟩ with
    connectors := [.scripted ⟨"bus", ["in"], [⟨"out", [], 0, []⟩], [], []⟩]
    tokens := [⟨none, false⟩] }).2

/-- A world with one bus in memory and one token. -/
def inMemory (s : EngineSettings) (sources : List String) : World :=
  (register 0 { empty 0 ⟨s, [], [], .empty⟩ with
    connectors := [.memory (.ofNames "bus" sources ["out"])]
    tokens := [⟨none, false⟩] }).2

/-- A route from the source of the bus to its target. -/
def through : RouteTable := ⟨[.direct "through" ⟨"bus", "in"⟩ ⟨"bus", "out"⟩], []⟩

end Rehearsal.World

/-- The run of a small route whose source refuses nobody. -/
def Run.ofPair : Run :=
  (start Running.oneLane 0 (fun _ _ (x : Unit) ↦ (.ok (), x)) () [Running.pairOnce]).2.1

/-- A run is told to stop while a publish is in flight, and turns a message away before it ends;
and the stop of a run fires the tokens of the run and of its route, but not the one above them. -/
theorem graceful_stop_of_publish :
    (∃ past run, Execution Run.act Run.ofPair past run ∧
        RunOutput.ended none ∈ Moment.told past ∧
        Run.GracefulStop Running.oneLane Run.ofPair past run) ∧
      ∃ w, Rehearsal.World.oneBus.start Rehearsal.World.through 0 = (.ok (0, none), w) ∧
        (w.stop 0).2.tokens = [⟨some 1, true⟩, ⟨some 0, true⟩, ⟨none, false⟩] ∧
        (w.stop 0).2.tokens.isCancelled 0 = Rehearsal.World.oneBus.tokens.isCancelled 0 := by
  have graceful := graceful_stop Running.oneLane 0 (fun _ _ (x : Unit) ↦ (.ok (), x)) ()
    [Running.pairOnce]
  have begun : Execution Run.act Run.ofPair [] _ := .refl
  have runs := begun
    |>.snoc (a := (⟨0, 0⟩, .route 0 (.handle 0 Running.note))) rfl
    |>.snoc (a := (⟨0, 0⟩, .route 0 (.submit 0 0))) rfl
    |>.snoc (a := (⟨0, 0⟩, .route 0 (.submit 0 1))) rfl
    |>.snoc (a := (⟨0, 0⟩, .route 0 (.take 0 0))) rfl
    |>.snoc (a := (⟨0, 0⟩, .stop)) rfl
    |>.snoc (a := (⟨0, 0⟩, .route 0 (.handle 1 Running.note))) rfl
    |>.snoc (a := (⟨0, 0⟩, .route 0 (.reply 0 0 (.ok ())))) rfl
    |>.snoc (a := (⟨0, 0⟩, .route 0 (.take 1 0))) rfl
    |>.snoc (a := (⟨0, 0⟩, .route 0 (.reply 1 0 (.error (.publish "refused"))))) rfl
    |>.snoc (a := (⟨0, 0⟩, .route 0 (.resolve 0))) rfl
    |>.snoc (a := (⟨0, 0⟩, .route 0 .closePools)) rfl
    |>.snoc (a := (⟨0, 0⟩, .route 0 (.drain 0 0))) rfl
    |>.snoc (a := (⟨0, 0⟩, .route 0 (.drain 1 0))) rfl
    |>.snoc (a := (⟨0, 0⟩, .route 0 (.retire 0 0))) rfl
    |>.snoc (a := (⟨0, 0⟩, .route 0 (.retire 1 0))) rfl
    |>.snoc (a := (⟨0, 0⟩, .route 0 .join)) rfl
    |>.snoc (a := (⟨0, 0⟩, .route 0 .join)) rfl
    |>.snoc (a := (⟨0, 0⟩, .route 0 .join)) rfl
    |>.snoc (a := (⟨0, 0⟩, .proceed)) rfl
  have started : Rehearsal.World.oneBus.start Rehearsal.World.through 0 =
      (.ok (0, none), (Rehearsal.World.oneBus.start Rehearsal.World.through 0).2) := rfl
  refine ⟨⟨_, _, runs, ?_, graceful.1 runs⟩, _, started, rfl, ?_⟩
  · exact Moment.mem_told.mpr ⟨_, List.mem_append_right _ List.mem_cons_self,
      List.mem_cons_of_mem _ List.mem_cons_self⟩
  · exact graceful.2 (by decide) started (.stop .refl)

end MessageBridge
