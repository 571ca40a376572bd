import MessageBridge.Proofs.Route.Persistence
import MessageBridge.Proofs.Route.Publishing

/-!
# What an error reports

An error says how often its destination was tried and what the bus said last. The leg keeps both: it
counts a job when it submits it, takes the count back when it hears that the job is lost, and
remembers the last refusal. A lost job is therefore one that does not count, whether the lane took
it or not, and this is right for a job that never left its queue. A job that a worker crashed over
has reached the bus, though.

`Running.reported` compares the report with what the bus has seen. The last error is right, and so
is the number of attempts unless a worker crashed over the message; then it is one too small, as in
`Running.uncounted_over_crash`. (A count of 32 bits does not go beyond its greatest value either.)
-/

namespace MessageBridge

/-! ## What a leg remembers -/

/-- The error of an answer, if it is a refusal. -/
def Reply.refusal? (reply : Reply) : Option BusError :=
  match reply.answer with
  | .ok () => none
  | .error e => some e

/-- The error of the last answer that is a refusal. -/
def lastRefusal (replies : List Reply) : Option BusError :=
  (replies.filterMap Reply.refusal?).getLast?

theorem lastRefusal_concat (replies : List Reply) (reply : Reply) :
    lastRefusal (replies ++ [reply]) = reply.refusal?.or (lastRefusal replies) := by
  rw [lastRefusal, lastRefusal, List.filterMap_append]
  cases refused : reply.refusal? with
  | none =>
    rw [List.filterMap_cons_none refused, List.filterMap_nil, List.append_nil, Option.none_or]
  | some e =>
    rw [List.filterMap_cons_some refused, List.filterMap_nil, List.getLast?_concat,
      Option.some_or]

theorem Leg.lastError_lose (leg : Leg) : leg.lose.lastError = leg.lastError := by
  rw [Leg.lose]
  split <;> rfl

/-- The most attempts that an error can report: a lost job is taken back from a full count too. -/
def PublishFailure.mostAttempts : PublishFailure → Nat
  | .cancelled => Leg.greatestCount
  | .laneClosed => Leg.greatestCount - 1

theorem PublishFailure.le_mostAttempts (kind : PublishFailure) {n : Nat}
    (room : n < Leg.greatestCount) : n ≤ kind.mostAttempts := by
  cases kind with
  | cancelled => exact room.le
  | laneClosed => exact Nat.le_sub_one_of_lt room

namespace Leg.Course

variable {plan : RetryPlan} {m : Message} {replies : List Reply} {leg : Leg}

theorem lastError (course : Course plan m replies leg) : leg.lastError = lastRefusal replies := by
  induction course with
  | fresh => rfl
  | @step replies new leg leg' _ step ih =>
    cases step with
    | submit => rwa [List.append_nil]
    | refuse =>
      rw [List.append_nil, Leg.lastError_lose]
      exact ih
    | lose => rwa [List.append_nil, Leg.lastError_lose]
    | wake => rwa [List.append_nil]
    | breakOff => rwa [List.append_nil]
    | reply clock answer =>
      rw [lastRefusal_concat, ← ih]
      cases answer with
      | ok => rfl
      | error e =>
        simp only [Running.jobAnswer, Leg.answer]
        split <;> rfl

theorem attempts_of_failed (course : Course plan m replies leg) {kind : PublishFailure}
    (failed : leg.phase = .settled (.failed kind)) :
    leg.attempts = min replies.length kind.mostAttempts := by
  cases course with
  | fresh => cases failed
  | @step replies new leg leg' course step =>
    have agrees := course.agrees
    cases step with
    | submit => cases failed
    | refuse ready =>
      rw [Leg.phase_lose rfl] at failed
      cases failed
      rw [Leg.Agrees, ready] at agrees
      have count : leg.submit.lose.attempts = min (leg.attempts + 1) greatestCount - 1 := rfl
      rw [List.append_nil, count, agrees.2, Leg.counted, PublishFailure.mostAttempts]
      omega
    | lose submitted =>
      rw [Leg.phase_lose submitted] at failed
      cases failed
      rw [Leg.Agrees, submitted] at agrees
      have count : leg.lose.attempts = leg.attempts - 1 := by rw [Leg.lose, if_pos submitted]
      rw [List.append_nil, count, agrees.2, PublishFailure.mostAttempts]
      omega
    | wake => cases failed
    | breakOff waiting =>
      cases failed
      rw [Leg.Agrees, waiting] at agrees
      rw [List.append_nil]
      exact agrees.2
    | reply => exact (Leg.phase_answer_ne_failed _ _ _ _ _ _ failed).elim

end Leg.Course

namespace Running

variable {s : EngineSettings} {route : CompiledRoute} {past later : Past} {r r' : Running}
  {c d : Nat} {failure : PublishError}

/-! ## What the bus has seen -/

/-- What an error reports about a message at a destination, beside what the bus has seen of it. -/
structure Reported (past : Past) (c d : Nat) (failure : PublishError) : Prop where
  /-- Every publish of the message was answered by the bus, or a worker crashed over it. -/
  publishes : (publishes c d past).length = (replies c d past).length + (crashes c d past).length
  /-- At most one worker did. -/
  crashes : (crashes c d past).length ≤ 1
  /-- And then the error says that the lanes took no more jobs. -/
  closed : Running.crashes c d past ≠ [] → failure.kind = .laneClosed
  /-- The attempts are the publishes that the bus has answered. -/
  attempts : failure.attempts = min (replies c d past).length failure.kind.mostAttempts
  /-- So they are all publishes, unless there was a crash or the count is full. -/
  exact : Running.crashes c d past = [] →
    (Running.publishes c d past).length < Leg.greatestCount →
      failure.attempts = (Running.publishes c d past).length
  /-- The last error is that of the last publish that the bus refused, if it refused any. -/
  lastError : failure.lastError = lastRefusal (replies c d past)

theorem reported_of_failed (runs : Runs s route past r) {h : Handling} {leg : Leg} {label : String}
    (found : r.handling? c = some h) (here : h.legs[d]? = some leg)
    (error : leg.error? label = some failure) : Reported past c d failure := by
  obtain ⟨phase, -, count, last⟩ := Leg.error?_eq_some.mp error
  obtain ⟨x, m, underway⟩ := (story_of_runs runs c).underway found
  have course := underway.courses here
  have counted := course.attempts_of_failed phase
  obtain ⟨at_most, ended⟩ := crashes_of_handled runs found here
  -- a leg that has ended waits for nothing, so nothing of it is in hand
  have none_held : r.held c d = 0 := by
    have few := r.held_le c d
    rw [(sound_of_runs runs).awaited found here, leg.awaits_of_ne (by simp [phase])] at few
    exact Nat.le_zero.mp few
  have all := publishes_of_runs runs c d
  rw [none_held, Nat.add_zero] at all
  constructor
  · exact all
  · exact at_most
  · intro met
    have lost := ended met
    rw [phase] at lost
    simpa using lost
  · rw [count]
    exact counted
  · intro calm room
    rw [calm, List.length_nil, Nat.add_zero] at all
    rw [all] at room ⊢
    rw [count, counted]
    exact Nat.min_eq_left (failure.kind.le_mostAttempts room)
  · rw [last]
    exact course.lastError

theorem Reported.append (reported : Reported past c d failure) (exec : Execution act r later r')
    (idle : ∀ mo ∈ later, mo.before.jobsOf c d = []) : Reported (past ++ later) c d failure := by
  have published : Running.publishes c d (past ++ later) = Running.publishes c d past := by
    rw [publishes_append, publishes_of_idle idle exec, List.append_nil]
  have replied : replies c d (past ++ later) = replies c d past := by
    rw [replies_append, replies_of_idle idle, List.append_nil]
  have crashed : Running.crashes c d (past ++ later) = Running.crashes c d past := by
    rw [crashes_append, crashes_of_idle idle, List.append_nil]
  constructor
  · rw [published, replied, crashed]
    exact reported.publishes
  · rw [crashed]
    exact reported.crashes
  · rw [crashed]
    exact reported.closed
  · rw [replied]
    exact reported.attempts
  · rw [crashed, published]
    exact reported.exact
  · rw [replied]
    exact reported.lastError

/-- **An error reports the last refusal of its destination, and as attempts the publishes that the
bus has answered.** -/
theorem reported (runs : Runs s route past r) {e : AggregateError}
    (told : .error (.undelivered e) ∈ verdicts c past) (mem : failure ∈ e.failures) :
    ∃ d dest, route.destinations[d]? = some dest ∧ failure.destination = dest.label ∧
      Reported past c d failure := by
  obtain ⟨earlier, later, clock, r₀, r₁, outputs, h, rfl, before, step, after, found, errors, -⟩ :=
    resolve_of_undelivered runs told
  rw [errors] at mem
  obtain ⟨d, leg, dest, here, there, error⟩ := error_of_failure mem
  refine ⟨d, dest, there, (Leg.error?_eq_some.mp error).2.1, ?_⟩
  have sound := sound_of_runs before
  obtain ⟨x, m, underway⟩ := (story_of_runs before c).underway found
  -- the call has no jobs when it is resolved, and none afterwards
  obtain ⟨old, nobody, jobs⟩ := underway.departed sound step
  have settled := (sound.verdict_of_resolve step found).1
  have idle :
      ∀ mo ∈ ⟨r₀, (clock, .resolve c), r₁, outputs⟩ :: later, mo.before.jobsOf c d = [] := by
    intro mo hmo
    rcases List.mem_cons.mp hmo with rfl | hmo
    · exact underway.jobsOf_of_settled sound settled d
    · exact (stays_over after old nobody jobs mo hmo).2 d
  have step : act r₀ (clock, .resolve c) = some (r₁, outputs) := step
  have rest : Execution act r₀ ([⟨r₀, (clock, .resolve c), r₁, outputs⟩] ++ later) r :=
    (Execution.refl.snoc step).trans after
  exact (reported_of_failed before found here error).append rest idle

/-- The first destination refuses the message, and the route is cancelled before it is tried
again. -/
theorem reported_of_cancelled : ∃ past r failure,
    Runs oneLane { pairOnce with mode := .persistent } past r ∧
    verdicts 0 past = [.error (.undelivered ⟨"orders", [failure]⟩)] ∧
    failure = ⟨.cancelled, "out:copies", 1, some .closed⟩ ∧
    ∃ d dest, pairOnce.destinations[d]? = some dest ∧ failure.destination = dest.label ∧
      Reported past 0 d failure := by
  have runs := (Execution.refl : Runs oneLane { pairOnce with mode := .persistent } [] _)
    |>.snoc (a := (⟨0, 0⟩, .handle 0 note)) rfl
    |>.snoc (a := (⟨0, 0⟩, .submit 0 0)) rfl
    |>.snoc (a := (⟨0, 0⟩, .submit 0 1)) rfl
    |>.snoc (a := (⟨0, 0⟩, .take 0 0)) rfl
    |>.snoc (a := (⟨0, 0⟩, .take 1 0)) rfl
    |>.snoc (a := (⟨0, 0⟩, .reply 0 0 (.error .closed))) rfl
    |>.snoc (a := (⟨0, 0⟩, .reply 1 0 (.ok ()))) rfl
    |>.snoc (a := (⟨1, 1⟩, .cancel)) rfl
    |>.snoc (a := (⟨1, 1⟩, .breakOff 0 0)) rfl
    |>.snoc (a := (⟨1, 1⟩, .resolve 0)) rfl
  have report := reported runs (c := 0)
    (e := ⟨"orders", [⟨.cancelled, "out:copies", 1, some .closed⟩]⟩)
    List.mem_cons_self List.mem_cons_self
  exact ⟨_, _, _, runs, rfl, rfl, report⟩

/-- The first destination refuses the message, and when it is tried again its worker crashes over
it. The error reports the one attempt that was refused, of two that were made. -/
theorem uncounted_over_crash : ∃ past r,
    Runs oneLane { pairOnce with mode := .persistent } past r ∧
    verdicts 0 past =
      [.error (.undelivered ⟨"orders", [⟨.laneClosed, "out:copies", 1, some .closed⟩]⟩)] ∧
    (publishes 0 0 past).length = 2 := by
  have runs := (Execution.refl : Runs oneLane { pairOnce with mode := .persistent } [] _)
    |>.snoc (a := (⟨0, 0⟩, .handle 0 note)) rfl
    |>.snoc (a := (⟨0, 0⟩, .submit 0 0)) rfl
    |>.snoc (a := (⟨0, 0⟩, .submit 0 1)) rfl
    |>.snoc (a := (⟨0, 0⟩, .take 0 0)) rfl
    |>.snoc (a := (⟨0, 0⟩, .take 1 0)) rfl
    |>.snoc (a := (⟨0, 0⟩, .reply 0 0 (.error .closed))) rfl
    |>.snoc (a := (⟨0, 0⟩, .reply 1 0 (.ok ()))) rfl
    |>.snoc (a := (⟨50, 50⟩, .wake 0 0)) rfl
    |>.snoc (a := (⟨50, 50⟩, .submit 0 0)) rfl
    |>.snoc (a := (⟨50, 50⟩, .take 0 0)) rfl
    |>.snoc (a := (⟨50, 50⟩, .crash 0 0)) rfl
    |>.snoc (a := (⟨50, 50⟩, .resolve 0)) rfl
  exact ⟨_, _, runs, rfl, rfl⟩

end Running

end MessageBridge
