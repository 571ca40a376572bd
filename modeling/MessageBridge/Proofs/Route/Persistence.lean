import MessageBridge.Proofs.Route.Turns

/-!
# Trying until the token fires

As long as the token of a route has not fired, a destination is tried until it accepts the message
or the mode gives it up. There is one exception, which is no matter of the mode: a crash takes the
jobs of a lane, and for ever after every job that is submitted when it is that lane's turn. A
message that meets it is not tried again, on the other lanes either, and the route tells its source
not to commit it. `Running.persistence` says that nothing else leads to that verdict, and
`Running.undelivered_over_crash` that one crash is enough to do so, even to messages that come
later.
-/

namespace MessageBridge

theorem Leg.error?_eq_some {leg : Leg} {label : String} {failure : PublishError} :
    leg.error? label = some failure ↔ leg.phase = .settled (.failed failure.kind) ∧
      failure.destination = label ∧ failure.attempts = leg.attempts ∧
      failure.lastError = leg.lastError := by
  rw [Leg.error?]
  constructor
  · intro error
    split at error
    · rename_i kind phase
      cases error
      exact ⟨phase, rfl, rfl, rfl⟩
    · cases error
  · rintro ⟨phase, rfl, attempts, last⟩
    rw [phase, ← attempts, ← last]

namespace Running

variable {s : EngineSettings} {route : CompiledRoute} {past later : Past} {r r' : Running}
  {c d : Nat}

/-! ## What a bad verdict is made of -/

theorem error_of_failure {h : Handling} {failure : PublishError}
    (mem : failure ∈ h.failures route.destinations) :
    ∃ (d : Nat) (leg : Leg) (dest : Destination), h.legs[d]? = some leg ∧
      route.destinations[d]? = some dest ∧ leg.error? dest.label = some failure := by
  obtain ⟨⟨leg, dest⟩, pair, error⟩ := List.mem_filterMap.mp mem
  obtain ⟨d, at_d⟩ := List.mem_iff_getElem?.mp pair
  obtain ⟨here, there⟩ := List.getElem?_zip_eq_some.mp at_d
  exact ⟨d, leg, dest, here, there, error⟩

theorem leg_of_failure {h : Handling} {failure : PublishError}
    (mem : failure ∈ h.failures route.destinations) :
    ∃ (d : Nat) (leg : Leg) (dest : Destination), h.legs[d]? = some leg ∧
      route.destinations[d]? = some dest ∧ failure.destination = dest.label ∧
      leg.phase = .settled (.failed failure.kind) := by
  obtain ⟨d, leg, dest, here, there, error⟩ := error_of_failure mem
  obtain ⟨phase, label, -⟩ := Leg.error?_eq_some.mp error
  exact ⟨d, leg, dest, here, there, label, phase⟩

/-- A verdict that a message was not delivered is given when the call is resolved, and comes from
failed legs, of which there is one. -/
theorem resolve_of_undelivered (runs : Runs s route past r) {e : AggregateError}
    (told : .error (.undelivered e) ∈ verdicts c past) :
    ∃ earlier later clock r₀ r₁ outputs h,
      past = earlier ++ ⟨r₀, (clock, .resolve c), r₁, outputs⟩ :: later ∧
      Runs s route earlier r₀ ∧ r₀.step? clock (.resolve c) = some (r₁, outputs) ∧
      Execution act r₁ later r ∧ r₀.handling? c = some h ∧
      e.failures = h.failures route.destinations ∧ e.failures ≠ [] := by
  obtain ⟨o, ho, verdict⟩ := List.mem_filterMap.mp told
  obtain ⟨mo, hmo, here⟩ := Moment.mem_told.mp ho
  obtain ⟨earlier, later, rfl, before, step, after⟩ := runs.at_moment hmo
  have given : .verdict c (.error (.undelivered e)) ∈ mo.outputs := by
    cases o with
    | verdict c' v =>
      by_cases same : c' = c
      · rw [Output.verdict?, if_pos same] at verdict
        cases verdict
        rw [← same]
        exact here
      · rw [Output.verdict?, if_neg same] at verdict
        cases verdict
    | _ => cases verdict
  rcases mo with ⟨r₀, ⟨clock, a⟩, r₁, outputs⟩
  have step : r₀.step? clock a = some (r₁, outputs) := step
  have given : .verdict c (.error (.undelivered e)) ∈ outputs := given
  obtain ⟨m, rfl⟩ | rfl := caused_of_step step _ given
  · -- an arrival is answered at once only with other verdicts
    exfalso
    obtain ⟨-, ⟨-, -, rfl⟩ | ⟨reason, -, -, -, rfl⟩ | ⟨m', -, -, -, rfl⟩⟩ := handle?_cases step <;>
      simp [arrivalOutputs] at given
  · obtain ⟨h, found, -, -, ⟨-, rfl⟩ | ⟨bad, rfl⟩⟩ := resolve?_cases step
    · simp at given
    · have same : e = ⟨r₀.route.name, r₀.failures h⟩ := by simpa using given
      have route_eq : r₀.route = route := (kept_of_runs before).route
      subst same
      refine ⟨earlier, later, clock, r₀, r₁, _, h, rfl, before, step, after, found, ?_, bad⟩
      rw [(sound_of_runs before).failures, route_eq]

theorem failures_of_undelivered (runs : Runs s route past r) {e : AggregateError}
    (told : .error (.undelivered e) ∈ verdicts c past) :
    ∃ earlier later r₀ h, past = earlier ++ later ∧ Runs s route earlier r₀ ∧
      Execution act r₀ later r ∧ r₀.handling? c = some h ∧
      e.failures = h.failures route.destinations ∧ e.failures ≠ [] := by
  obtain ⟨earlier, later, clock, r₀, r₁, outputs, h, split, before, step, after, rest⟩ :=
    resolve_of_undelivered runs told
  have step : act r₀ (clock, .resolve c) = some (r₁, outputs) := step
  have exec : Execution act r₀ ([⟨r₀, (clock, .resolve c), r₁, outputs⟩] ++ later) r :=
    (Execution.refl.snoc step).trans after
  exact ⟨earlier, _, r₀, h, split, before, exec, rest⟩

/-! ## Persistence -/

/-- What a source can rely on as long as the token has not fired. -/
structure Persistence (route : CompiledRoute) (past : Past) (r : Running) : Prop where
  /-- A verdict that a message was not delivered names destinations at which a crash took the
  message. -/
  blamed : ∀ {c : Nat} {e : AggregateError} {failure : PublishError},
    .error (.undelivered e) ∈ verdicts c past → failure ∈ e.failures →
      failure.kind = .laneClosed ∧ ∃ d mo,
        (route.destinations[d]?).map Destination.label = some failure.destination ∧
          mo ∈ past ∧ TakenByCrash c d mo
  /-- So there is none without a crash. -/
  delivered : (∀ mo ∈ past, ∀ i j, mo.action.2 ≠ .crash i j) →
    ∀ {c : Nat} {e : AggregateError}, .error (.undelivered e) ∉ verdicts c past
  /-- Where no worker crashed, a message has reached its end only when the bus has accepted it, or a
  mode that may drop gave it up over its last refusal. -/
  ends : ∀ {c d : Nat} {h : Handling} {leg : Leg} {e : LegEnd}, r.handling? c = some h →
    h.legs[d]? = some leg → leg.phase = .settled e → (∀ mo ∈ past, ∀ j, mo.action.2 ≠ .crash d j) →
      e = .published ∧ Accepted h.message (replies c d past) ∨
        ∃ reason, e = .tolerated reason ∧ route.mode ≠ .persistent ∧
          GivenUp route.mode h.message h.message (replies c d past)
  /-- And until all of its legs have, the message is never stuck. -/
  continues : ∀ {c : Nat} {h : Handling}, r.handling? c = some h → r.Next c h

/-- **Nothing but a crash makes a route give up before its token fires.** -/
theorem persistence (runs : Runs s route past r) (running : r.cancelled = false) :
    Persistence route past r := by
  have blamed {c : Nat} {e : AggregateError} {failure : PublishError}
      (told : .error (.undelivered e) ∈ verdicts c past) (mem : failure ∈ e.failures) :
      failure.kind = .laneClosed ∧ ∃ d mo,
        (route.destinations[d]?).map Destination.label = some failure.destination ∧
          mo ∈ past ∧ TakenByCrash c d mo := by
    obtain ⟨earlier, later, r₀, h, rfl, before, after, found, errors, -⟩ :=
      failures_of_undelivered runs told
    rw [errors] at mem
    obtain ⟨d, leg, dest, here, there, label, phase⟩ := leg_of_failure mem
    obtain ⟨-, cancelled⟩ | ⟨closed, mo, hmo, taken⟩ := excused_of_runs before found here phase
    · rw [cancelled_of_execution after cancelled] at running
      cases running
    · refine ⟨closed, d, mo, ?_, List.mem_append_left _ hmo, taken⟩
      rw [there, label]
      rfl
  refine ⟨blamed, fun calm {c e} told ↦ ?_, fun {c d h leg e} found here phase calm ↦ ?_,
    fun found ↦ next_of_handled runs found⟩
  · obtain ⟨earlier, later, r₀, h, -, -, -, -, -, some_failed⟩ := failures_of_undelivered runs told
    obtain ⟨failure, rest, errors⟩ := List.exists_cons_of_ne_nil some_failed
    have mem : failure ∈ e.failures := by
      rw [errors]
      exact List.mem_cons_self
    obtain ⟨-, d, mo, -, hmo, taken⟩ := blamed told mem
    obtain ⟨j, mo', hmo', crashes⟩ := taken.crash runs hmo
    exact calm mo' hmo' d j crashes
  · cases ending_of_runs runs found here phase with
    | published accepted => exact .inl ⟨rfl, accepted⟩
    | tolerated given =>
      refine .inr ⟨_, rfl, ?_, given⟩
      obtain ⟨policy, _, _, drop, -⟩ := given
      rw [drop]
      exact nofun
    | cancelled fired =>
      rw [running] at fired
      cases fired
    | laneClosed hmo taken =>
      obtain ⟨j, mo', hmo', crashes⟩ := taken.crash runs hmo
      exact absurd crashes (calm mo' hmo' j)

/-- The first destination refuses the message, and accepts it when it is tried again. -/
theorem persistence_of_retry : ∃ past r, Runs oneLane { pairOnce with mode := .persistent } past r ∧
    verdicts 0 past = [.ok ()] ∧ (replies 0 0 past).length = 2 ∧
    Persistence { pairOnce with mode := .persistent } past r := by
  have runs := (Execution.refl : Runs oneLane { pairOnce with mode := .persistent } [] _)
    |>.snoc (a := (⟨0, 0⟩, .handle 0 note)) rfl
    |>.snoc (a := (⟨0, 0⟩, .submit 0 0)) rfl
    |>.snoc (a := (⟨0, 0⟩, .submit 0 1)) rfl
    |>.snoc (a := (⟨0, 0⟩, .take 0 0)) rfl
    |>.snoc (a := (⟨0, 0⟩, .take 1 0)) rfl
    |>.snoc (a := (⟨0, 0⟩, .reply 0 0 (.error .closed))) rfl
    |>.snoc (a := (⟨0, 0⟩, .reply 1 0 (.ok ()))) rfl
    |>.snoc (a := (⟨50, 50⟩, .wake 0 0)) rfl
    |>.snoc (a := (⟨50, 50⟩, .submit 0 0)) rfl
    |>.snoc (a := (⟨50, 50⟩, .take 0 0)) rfl
    |>.snoc (a := (⟨50, 50⟩, .reply 0 0 (.ok ()))) rfl
    |>.snoc (a := (⟨50, 50⟩, .resolve 0)) rfl
  exact ⟨_, _, runs, rfl, rfl, persistence runs rfl⟩

/-- The publish of one message crashes, and the next one is given up without having been tried,
though the mode is persistent and the token has not fired. -/
theorem undelivered_over_crash : ∃ past r e,
    Runs oneLane { pairOnce with mode := .persistent } past r ∧ r.cancelled = false ∧
      r.phase = .running ∧ verdicts 1 past = [.error (.undelivered e)] ∧
      e.failures = [⟨.laneClosed, "out:copies", 0, none⟩] ∧ publishes 1 0 past = [] := by
  have runs := (Execution.refl : Runs oneLane { pairOnce with mode := .persistent } [] _)
    |>.snoc (a := (⟨0, 0⟩, .handle 0 note)) rfl
    |>.snoc (a := (⟨0, 0⟩, .submit 0 0)) rfl
    |>.snoc (a := (⟨0, 0⟩, .take 0 0)) rfl
    |>.snoc (a := (⟨0, 0⟩, .crash 0 0)) rfl
    |>.snoc (a := (⟨1, 1⟩, .handle 1 note)) rfl
    |>.snoc (a := (⟨1, 1⟩, .submit 1 0)) rfl
    |>.snoc (a := (⟨1, 1⟩, .submit 1 1)) rfl
    |>.snoc (a := (⟨1, 1⟩, .take 1 0)) rfl
    |>.snoc (a := (⟨2, 2⟩, .reply 1 0 (.ok ()))) rfl
    |>.snoc (a := (⟨2, 2⟩, .resolve 1)) rfl
  exact ⟨_, _, _, runs, rfl, rfl, rfl, rfl, rfl⟩

end Running

end MessageBridge
