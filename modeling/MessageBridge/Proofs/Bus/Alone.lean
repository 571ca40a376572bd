import MessageBridge.Proofs.Bus.Lifecycle
import MessageBridge.Rehearsal.World

/-!
# Closing buses by themselves

The closing of an adapter as it is run when nobody else calls the bus: its calls are made one after
the other on some state. This is one run of the machine (`closes_alone`), the one in which every
call is answered before anything else happens. Closing all buses of a world is such a closing of
each in turn, and the answer is the first failure (`Rehearsal.World.closeAll_answer`).
-/

namespace MessageBridge.Adapter

variable {Handler : Type}

variable {σ : Type*} (perform : ClosingCall → σ → Except BusError Unit × σ)

/-- The answers of calls that are made one after the other. -/
def replies (s : σ) : List ClosingCall → List (ClosingCall × Except BusError Unit)
  | [] => []
  | c :: rest => (c, (perform c s).1) :: replies (perform c s).2 rest

theorem failures_replies (s : σ) (calls : List ClosingCall) :
    (makeCalls perform s calls).2 = failures (replies perform s calls) := by
  induction calls generalizing s with
  | nil => rfl
  | cons c rest ih =>
    rw [makeCalls, replies, failures, List.filterMap_cons]
    rcases perform c s with ⟨e | ⟨⟩, t⟩
    · simp [ih, failures]
    · simp [ih, failures]

/-- A round goes through the calls that are left with the answers that they get. -/
theorem rounds_of_replies (bus : String) (s : σ) (k : Round) :
    ∃ past, Traffic.Rounds bus k (past : List (Moment _ _ (Notice Handler)))
      ⟨k.call, k.heard ++ replies perform s k.left, []⟩ := by
  obtain ⟨call, heard, left⟩ := k
  induction left generalizing heard s with
  | nil => exact ⟨[], by simpa [replies] using Execution.refl⟩
  | cons c left ih =>
    obtain ⟨past, rounds⟩ := ih (perform c s).2 (heard ++ [(c, (perform c s).1)])
    have step : (⟨call, heard, c :: left⟩ : Round).hear? bus (perform c s).1 =
        some (⟨call, heard ++ [(c, (perform c s).1)], left⟩, (_ : List (Notice Handler))) := rfl
    exact ⟨_, by simpa [replies] using (Execution.refl.snoc step).trans rounds⟩

/-- What a round does by itself it does on a bus on which nothing else happens. -/
theorem Traffic.of_rounds {x : Traffic Handler} {start k : Round}
    {past : List (Moment Round (Except BusError Unit) (Notice Handler))}
    (closes : x.phase start.call = .closes start) (rounds : Rounds x.adapter.name start past k) :
    ∃ past', Execution step? x past' { x with round := some k } ∧
      Moment.told past' = Moment.told past ∧
      phase start.call { x with round := some k } = .closes k := by
  -- the phase of the closing follows the round, which is why the next answer finds its call
  induction rounds with
  | refl =>
    obtain ⟨-, round, -⟩ := phase_eq_closes_iff.mp closes
    have same : { x with round := some start } = x := by rw [← round]
    exact ⟨[], same ▸ .refl, rfl, same.symm ▸ closes⟩
  | @snoc past k next result told _ step ih =>
    obtain ⟨past', runs, same, stands⟩ := ih
    obtain ⟨idle, -, own⟩ := phase_eq_closes_iff.mp stands
    have moves : step? { x with round := some k } (.answer start.call result) =
        some ({ x with round := some next }, told) := by
      rw [step?, stands]
      simp only [step, Option.map_some]
    refine ⟨_, runs.snoc moves, by simp [same], ?_⟩
    exact phase_eq_closes_iff.mpr ⟨idle, rfl, (Round.call_of_hear? step).trans own⟩

/-- The closing of an adapter by itself is the run of its bus on which nothing else happens: the
calls get the same answers, the same is logged, and the bus answers the same. -/
def ClosesAlone (Handler : Type) {σ : Type*}
    (perform : ClosingCall → σ → Except BusError Unit × σ) (s : σ) (a : Adapter) : Prop :=
  ∃ (past : List (Moment (Traffic Handler) _ _)) (x : Traffic Handler)
    (rest : List (Notice Handler)), Traffic.Runs a past x ∧
    Moment.told past = .asked 0 .close :: rest ∧
    x.adapter = (a.close perform s).1 ∧
    rest.filterMap Notice.heard? =
      (replies perform s a.closingCalls).map (fun (c, result) ↦ (.closing c, result)) ∧
    rest.filterMap Notice.event? = (a.close perform s).2.events ∧
    rest.filterMap Notice.answer? = [(a.close perform s).2.answer]

theorem closes_alone (s : σ) (a : Adapter) (opened : a.closed = false) :
    ClosesAlone Handler perform s a := by
  let k : Round := ⟨0, [], a.closingCalls⟩
  let begun : Traffic Handler := ⟨{ a with closed := true }, 1, [], some k⟩
  have asks : (Traffic.ofAdapter a).step? (.ask .close) =
      some (begun, .asked 0 .close :: k.turn a.name) := by
    simp [Traffic.step?, Traffic.ask, Traffic.ofAdapter, admission?, opened, begun, k]
  obtain ⟨past, rounds⟩ : ∃ past : List (Moment _ _ (Notice Handler)),
      Traffic.Rounds begun.adapter.name k past _ := rounds_of_replies perform a.name s k
  have closes : begun.phase 0 = .closes k := Traffic.phase_eq_closes_iff.mpr ⟨rfl, rfl, rfl⟩
  obtain ⟨past', runs, same, -⟩ := Traffic.of_rounds closes rounds
  obtain ⟨-, -, progress⟩ := Round.progress_of_rounds rounds
  simp only [ClosesAlone, close, opened, Bool.false_eq_true, if_false, failures_replies]
  refine ⟨_, _, _, (Execution.refl.snoc asks).trans runs, ?_, rfl, progress.replied,
    progress.logged, progress.answered⟩
  rw [Moment.told_append, List.nil_append, Moment.told_singleton, same]
  rfl

/-! ## The first failure -/

/-- The first failure among answers. -/
def firstFailure (answers : List (Except BusError Unit)) : Except BusError Unit :=
  answers.foldl (fun first answer ↦ match first with | .ok () => answer | e => e) (.ok ())

theorem firstFailure_cons (answer : Except BusError Unit) (rest : List (Except BusError Unit)) :
    firstFailure (answer :: rest) =
      match answer with
      | .ok () => firstFailure rest
      | .error e => .error e := by
  rcases answer with e | ⟨⟩
  · rw [firstFailure, List.foldl_cons]
    induction rest with
    | nil => rfl
    | cons _ rest ih => exact ih
  · rfl

theorem firstFailure_eq_ok_iff {answers : List (Except BusError Unit)} :
    firstFailure answers = .ok () ↔ ∀ answer ∈ answers, answer = .ok () := by
  induction answers with
  | nil => exact iff_of_true rfl nofun
  | cons answer rest ih =>
    rw [firstFailure_cons, List.forall_mem_cons, ← ih]
    rcases answer with e | ⟨⟩
    · simp
    · simp

theorem firstFailure_eq_error {answers : List (Except BusError Unit)} {e : BusError}
    (failed : firstFailure answers = .error e) :
    ∃ before after, answers = before ++ .error e :: after ∧ ∀ answer ∈ before, answer = .ok () := by
  induction answers with
  | nil => cases failed
  | cons answer rest ih =>
    rw [firstFailure_cons] at failed
    rcases answer with e' | ⟨⟩
    · cases failed
      exact ⟨[], rest, rfl, nofun⟩
    · obtain ⟨before, after, rfl, fine⟩ := ih failed
      exact ⟨.ok () :: before, after, rfl, by simpa using fine⟩

end MessageBridge.Adapter

/-! ## Closing all buses -/

namespace MessageBridge.Rehearsal.World

/-- The answers of buses that are closed one after the other. -/
def closings (w : World) : List Nat → List (Except BusError Unit)
  | [] => []
  | bus :: rest => (w.closeBus bus).1 :: closings (w.closeBus bus).2 rest

theorem closeAll_answer (w : World) :
    w.closeAll.1 = Adapter.firstFailure (w.closings (w.registry.map Prod.snd)) := by
  rw [closeAll, Adapter.firstFailure]
  generalize w.registry = registry
  generalize (Except.ok () : Except BusError Unit) = first
  induction registry generalizing w first with
  | nil => rfl
  | cons entry rest ih => exact ih _ _

end MessageBridge.Rehearsal.World
