import MessageBridge.Proofs.Route.Outstanding

/-!
# Histories of running routes

What an execution of a running route says about one call: when it arrived, which verdicts it was
given, what was published of it and how the bus answered. These are lists over the whole execution,
so "at most once" and "never" are statements about their lengths.

A verdict is told only when the call arrives or is resolved, and a publish only by a worker that
takes one of the jobs of the call.
-/

namespace MessageBridge

namespace Running

/-- The machine of a running route, with the clock readings as part of the action. -/
def act (r : Running) (a : Clock × Action) : Option Reaction := r.step? a.1 a.2

/-- What has happened to a running route. -/
abbrev Past := List (Moment Running (Clock × Action) Output)

/-- The executions of a route from its start. -/
abbrev Runs (s : EngineSettings) (route : CompiledRoute) (past : Past) (r : Running) : Prop :=
  Execution act (ofRoute s route) past r

/-! ## A small route -/

/-- One lane with one place in front of each destination. -/
def oneLane : EngineSettings := ⟨1, 1, .standard⟩

/-- A route to two destinations, each of which is tried once. -/
def pairOnce : CompiledRoute where
  name := "orders"
  source := ⟨0, "orders", "in:orders"⟩
  destinations := [⟨1, "out", "copies", "out:copies"⟩, ⟨1, "out", "archive", "out:archive"⟩]
  filters := []
  projection := none
  codec := none
  mode := .drop ⟨none, some 1⟩

/-- A message without content. -/
def note : Message := ⟨⟨#[]⟩, []⟩

end Running

/-! ## Reading a history -/

/-- The verdict for a call, if the output is one. -/
def Output.verdict? (call : Nat) : Output → Option Verdict
  | .verdict c v => if c = call then some v else none
  | _ => none

/-- The message of a call that is published to a destination, if the output is about that. -/
def Output.publish? (call d : Nat) : Output → Option Message
  | .publish i _ c m => if i = d ∧ c = call then some m else none
  | _ => none

/-- The arrival of a call. -/
structure Arrival where
  /-- When it arrived. -/
  clock : Clock
  /-- The message. -/
  message : Message
  /-- Whether the route's token had fired. -/
  late : Bool

namespace Running

variable {clock : Clock} {r r' : Running} {outputs : List Output} {a : Action} {past : Past}

/-- The arrival of a call, if that is what happened. -/
def arrival? (call : Nat) (mo : Moment Running (Clock × Action) Output) : Option Arrival :=
  match mo.action with
  | (clock, .handle c m) => if c = call then some ⟨clock, m, mo.before.cancelled⟩ else none
  | _ => none

/-- The arrivals of a call. -/
def arrivals (call : Nat) (past : Past) : List Arrival := past.filterMap (arrival? call)

/-- The verdicts that a call was given. -/
def verdicts (call : Nat) (past : Past) : List Verdict :=
  (Moment.told past).filterMap (Output.verdict? call)

/-- What was published of a call to a destination. -/
def publishes (call d : Nat) (past : Past) : List Message :=
  (Moment.told past).filterMap (Output.publish? call d)

/-- The answers of the bus to these publishes. -/
def replies (call d : Nat) (past : Past) : List Reply :=
  past.flatMap fun mo ↦ mo.before.heard call d mo.action

/-- Whether the caller of a call has left. -/
def Abandoned (call : Nat) (past : Past) : Prop := ∃ mo ∈ past, mo.action.2 = .abandon call

theorem arrivals_concat (call : Nat) (past : Past) (mo) :
    arrivals call (past ++ [mo]) = arrivals call past ++ (arrival? call mo).toList := by
  rw [arrivals, arrivals, List.filterMap_append]
  cases h : arrival? call mo <;> simp [h]

theorem verdicts_concat (call : Nat) (past : Past) (mo) :
    verdicts call (past ++ [mo]) =
      verdicts call past ++ mo.outputs.filterMap (Output.verdict? call) := by
  rw [verdicts, Moment.told_append, Moment.told_singleton, List.filterMap_append]
  rfl

theorem publishes_concat (call d : Nat) (past : Past) (mo) :
    publishes call d (past ++ [mo]) =
      publishes call d past ++ mo.outputs.filterMap (Output.publish? call d) := by
  rw [publishes, Moment.told_append, Moment.told_singleton, List.filterMap_append]
  rfl

theorem replies_concat (call d : Nat) (past : Past) (mo) :
    replies call d (past ++ [mo]) =
      replies call d past ++ mo.before.heard call d mo.action := by
  rw [replies, List.flatMap_append, List.flatMap_singleton]
  rfl

theorem publishes_append (call d : Nat) (past later : Past) :
    publishes call d (past ++ later) = publishes call d past ++ publishes call d later := by
  rw [publishes, Moment.told_append, List.filterMap_append]
  rfl

theorem replies_append (call d : Nat) (past later : Past) :
    replies call d (past ++ later) = replies call d past ++ replies call d later :=
  List.flatMap_append

theorem arrival?_of_other {call : Nat} (other : ∀ m, a ≠ .handle call m) :
    arrival? call ⟨r, (clock, a), r', outputs⟩ = none := by
  cases a with
  | handle c m =>
    have hc : c ≠ call := fun same ↦ other m (by rw [same])
    exact if_neg hc
  | _ => rfl

theorem mem_arrivals {mo : Moment Running (Clock × Action) Output} (hmo : mo ∈ past) {call : Nat}
    {m : Message} (arrived : mo.action = (clock, .handle call m)) :
    (⟨clock, m, mo.before.cancelled⟩ : Arrival) ∈ arrivals call past := by
  refine List.mem_filterMap.mpr ⟨mo, hmo, ?_⟩
  rw [arrival?, arrived]
  exact if_pos rfl

/-! ## What a step tells -/

end Running

/-- What must have happened for an output to be told. -/
def Output.Caused (r : Running) (a : Action) : Output → Prop
  | .event _ _ => True
  | .publish i j c m => a = .take i j ∧ ∃ p p', r.pools[i]? = some p ∧ p.take? j = some (⟨c, m⟩, p')
  | .verdict c _ => (∃ m, a = .handle c m) ∨ a = .resolve c
  | .cancelled => a = .stop
  | .stopped => a = .join ∧ r.phase = .joining []

namespace Running

variable {clock : Clock} {r r' : Running} {outputs : List Output} {a : Action} {past : Past}

theorem caused_arrivalOutputs {call : Nat} {m : Message} :
    ∀ o ∈ r.arrivalOutputs clock call m, o.Caused r a := by
  intro o told
  rcases List.mem_cons.mp told with rfl | told
  · trivial
  · obtain ⟨p, -, rfl⟩ := Option.map_eq_some_iff.mp (Option.mem_toList.mp told)
    trivial

/-- Everything that is told has its cause in the step. -/
theorem caused_of_step (step : r.step? clock a = some (r', outputs)) :
    ∀ o ∈ outputs, o.Caused r a := by
  intro o told
  cases a with
  | handle call m =>
    obtain ⟨-, ⟨-, -, rfl⟩ | ⟨reason, -, -, -, rfl⟩ | ⟨m', -, -, -, rfl⟩⟩ := handle?_cases step
    · rcases List.mem_pair.mp told with rfl | rfl
      · trivial
      · exact .inl ⟨m, rfl⟩
    · rcases List.mem_append.mp told with told | told
      · exact caused_arrivalOutputs o told
      · rcases List.mem_pair.mp told with rfl | rfl
        · trivial
        · exact .inl ⟨m, rfl⟩
    · exact caused_arrivalOutputs o told
  | abandon call =>
    obtain ⟨-, -, rfl⟩ := abandon_eq_some.mp step
    exact absurd told List.not_mem_nil
  | submit call d =>
    obtain ⟨rfl, -⟩ := submit?_cases step
    exact absurd told List.not_mem_nil
  | wake call d =>
    obtain ⟨rfl, -⟩ := wake?_cases step
    exact absurd told List.not_mem_nil
  | breakOff call d =>
    obtain ⟨h, leg, due, -, -, -, -, -, rfl⟩ := breakOff?_cases step
    rw [List.mem_singleton.mp told]
    trivial
  | resolve call =>
    obtain ⟨h, -, -, -, ⟨-, rfl⟩ | ⟨-, rfl⟩⟩ := resolve?_cases step <;>
      rcases List.mem_pair.mp told with rfl | rfl
    · trivial
    · exact .inr rfl
    · trivial
    · exact .inr rfl
  | take i j =>
    obtain ⟨p, job, p', hp, taken, -, rfl⟩ := take?_cases step
    rcases List.mem_pair.mp told with rfl | rfl
    · trivial
    · exact ⟨rfl, p, p', hp, taken⟩
  | reply i j answer =>
    obtain ⟨p, job, p', -, -, ⟨_, _, -, -, -, -, rfl⟩ | ⟨-, -, rfl⟩⟩ := reply?_cases step
    · rcases List.mem_cons.mp told with rfl | told
      · trivial
      · obtain ⟨e, -, rfl⟩ := List.mem_map.mp told
        trivial
    · rcases List.mem_pair.mp told with rfl | rfl <;> trivial
  | crash i j =>
    obtain ⟨rfl, -⟩ := crash?_cases step
    exact absurd told List.not_mem_nil
  | drain i j =>
    obtain ⟨rfl, -⟩ := drain?_cases step
    exact absurd told List.not_mem_nil
  | retire i j =>
    obtain ⟨p, p', -, -, -, rfl⟩ := retire?_cases step
    rw [List.mem_singleton.mp told]
    trivial
  | cancel =>
    cases step
    exact absurd told List.not_mem_nil
  | stop =>
    obtain ⟨-, -, rfl⟩ := stop?_eq_some.mp step
    rcases List.mem_pair.mp told with rfl | rfl
    · trivial
    · rfl
  | closePools =>
    obtain ⟨-, -, -, rfl⟩ := closePools?_eq_some.mp step
    obtain ⟨p, -, rfl⟩ := List.mem_map.mp told
    trivial
  | join =>
    obtain ⟨last, -, rfl⟩ | ⟨place, rest, -, -, ⟨-, rfl⟩ | ⟨-, rfl⟩⟩ := join?_cases step
    · rcases List.mem_pair.mp told with rfl | rfl
      · trivial
      · exact ⟨rfl, last⟩
    · rw [List.mem_singleton.mp told]
      trivial
    · exact absurd told List.not_mem_nil
  | forsake =>
    cases step
    exact absurd told List.not_mem_nil
  | release =>
    obtain ⟨-, -, -, rfl⟩ := release?_eq_some.mp step
    exact absurd told List.not_mem_nil

/-- No verdict is given in passing. -/
theorem no_verdict_of_step (step : r.step? clock a = some (r', outputs)) {call : Nat}
    (arrives : ∀ m, a ≠ .handle call m) (resolves : a ≠ .resolve call) :
    outputs.filterMap (Output.verdict? call) = [] := by
  rw [List.filterMap_eq_nil_iff]
  intro o told
  cases o with
  | verdict c v =>
    refine if_neg fun same ↦ ?_
    subst same
    obtain ⟨m, rfl⟩ | rfl := caused_of_step step _ told
    · exact arrives m rfl
    · exact resolves rfl
  | _ => rfl

/-- Only a job of the call is published. -/
theorem no_publish_of_step (step : r.step? clock a = some (r', outputs)) {call d : Nat}
    (jobs : r.jobsOf call d = []) : outputs.filterMap (Output.publish? call d) = [] := by
  rw [List.filterMap_eq_nil_iff]
  intro o told
  cases o with
  | publish i j c m =>
    refine if_neg fun same ↦ ?_
    obtain ⟨rfl, rfl⟩ := same
    obtain ⟨-, p, p', hp, taken⟩ := caused_of_step step _ told
    have mem : (⟨c, m⟩ : Job) ∈ r.jobsOf c i := by
      rw [jobsOf, jobs_of_pool hp]
      exact List.mem_filter.mpr ⟨Pool.mem_jobs_of_take? taken, by simp⟩
    rw [jobs] at mem
    exact absurd mem List.not_mem_nil
  | _ => rfl

/-- Without jobs there is nothing to hear. -/
theorem heard_eq_nil {call d : Nat} (jobs : r.jobsOf call d = []) (act : Clock × Action) :
    r.heard call d act = [] := by
  rcases act with ⟨clock, a⟩
  cases a with
  | reply i j answer =>
    cases hand : r.inHand? i j with
    | none =>
      rw [heard, hand]
    | some job =>
      rw [heard_of_hand hand]
      refine if_neg fun same ↦ ?_
      obtain ⟨rfl, rfl⟩ := same
      have mem : job ∈ r.jobsOf job.call i :=
        List.mem_filter.mpr ⟨mem_jobs_of_inHand? hand, by simp⟩
      rw [jobs] at mem
      exact absurd mem List.not_mem_nil
  | _ => rfl

/-! ## Nothing happens without jobs -/

section Idle

variable {later : Past} {call d : Nat} (idle : ∀ mo ∈ later, mo.before.jobsOf call d = [])

include idle

/-- As long as a call has no jobs, nothing is heard of it. -/
theorem replies_of_idle : replies call d later = [] := by
  apply List.flatMap_eq_nil_iff.mpr
  intro mo hmo
  exact heard_eq_nil (idle mo hmo) mo.action

/-- And nothing is published of it. -/
theorem publishes_of_idle (exec : Execution act r later r') : publishes call d later = [] := by
  rw [publishes, Moment.told, List.filterMap_flatMap]
  apply List.flatMap_eq_nil_iff.mpr
  intro mo hmo
  obtain ⟨-, -, -, -, step, -⟩ := exec.at_moment hmo
  exact no_publish_of_step step (idle mo hmo)

end Idle

end Running

end MessageBridge
