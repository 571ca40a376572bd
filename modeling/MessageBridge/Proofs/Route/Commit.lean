import MessageBridge.Proofs.Route.Story

/-!
# The commit decision

A source may commit a message exactly when the route has dropped it unpublished or every
destination is done with it: the bus accepted it there, or the mode gave it up over its last
refusal. `Running.commit_decision` says so of every call of every execution, and that the other
verdicts mean what they say.

The verdict is a function of the ends of the legs, and a leg has ended well exactly if its course
of answers says so; all else was settled with the story of the call.
-/

namespace MessageBridge

/-! ## Preparation keeps the age -/

theorem Message.createdAt?_withEntry {name : String} (other : name ≠ MetaName.createdAt)
    (value : Json.Value) (m : Message) : (m.withEntry name value).createdAt? = m.createdAt? := by
  simp only [createdAt?, int64?, entry?, withEntry, Named.get?_insert_of_ne other]

theorem Message.createdAt?_withPayload (payload : ByteArray) (m : Message) :
    { m with payload := payload }.createdAt? = m.createdAt? := rfl

namespace CompiledRoute

theorem createdAt?_withSize (m : Message) : (withSize m).createdAt? = m.createdAt? :=
  Message.createdAt?_withEntry (by decide) _ m

theorem createdAt?_annotate (route : CompiledRoute) (m : Message) :
    (route.annotate m).createdAt? = m.createdAt? := by
  have derived :
      (((withSize m).withEntry MetaName.sourceName (.string route.source.point)).withEntry
        MetaName.route (.string route.name)).createdAt? = m.createdAt? := by
    rw [Message.createdAt?_withEntry (by decide), Message.createdAt?_withEntry (by decide),
      createdAt?_withSize]
  -- whatever is written into the metadata, the time of creation is not
  unfold annotate
  split
  · rw [Message.createdAt?_withEntry (by decide), derived]
  · exact derived

theorem createdAt?_reencode {route : CompiledRoute} {decoded : Option Decoded} {m m' : Message}
    (passed : (route.reencode decoded m).outcome = .ok m') : m'.createdAt? = m.createdAt? := by
  unfold reencode at passed
  split at passed
  · split at passed
    · cases passed
    · dsimp only at passed
      split at passed
      · cases passed
      · cases passed
        rw [createdAt?_withSize, Message.createdAt?_withPayload]
  · cases passed
    rfl

theorem age?_of_prepare {route : CompiledRoute} {wall : Int} {m m' : Message}
    (passed : (route.prepare wall m).outcome = .ok m') (now : Int) : m'.age? now = m.age? now := by
  have created : m'.createdAt? = m.createdAt? := by
    unfold prepare at passed
    split at passed
    · cases passed
    · dsimp only at passed
      split at passed
      · cases passed
      · cases passed
      · rw [createdAt?_reencode passed, createdAt?_annotate]
  rw [Message.age?, Message.age?, created]

end CompiledRoute

/-! ## What the legs add up to -/

/-- The leg has ended, and not with a failure. -/
def Leg.EndedWell (leg : Leg) : Prop :=
  leg.phase = .settled .published ∨ ∃ reason, leg.phase = .settled (.tolerated reason)

theorem Leg.error?_of_endedWell {leg : Leg} (well : leg.EndedWell) (label : String) :
    leg.error? label = none := by
  rw [Leg.error?]
  rcases well with phase | ⟨reason, phase⟩ <;> rw [phase]

theorem Leg.endedWell_of_error? {leg : Leg} {label : String} (settled : leg.result?.isSome = true)
    (none_failed : leg.error? label = none) : leg.EndedWell := by
  obtain ⟨result, phase⟩ := Running.result?_of_isSome settled
  rw [Leg.error?, phase] at none_failed
  cases result with
  | published => exact .inl phase
  | tolerated reason => exact .inr ⟨reason, phase⟩
  | failed kind => cases none_failed

theorem Handling.verdict_cases (route : CompiledRoute) (h : Handling) :
    (∃ e, h.verdict route = .error (.undelivered e)) ↔ h.verdict route ≠ .ok () := by
  rw [Handling.verdict]
  cases h.failures route.destinations with
  | nil => simp
  | cons e es => simp

theorem Handling.verdict_ne_shuttingDown (route : CompiledRoute) (h : Handling) :
    h.verdict route ≠ .error .shuttingDown := by
  rw [Handling.verdict]
  cases h.failures route.destinations <;> simp

/-- The verdict on ended legs is good exactly if all of them ended well. -/
theorem Handling.verdict_eq_ok_iff {route : CompiledRoute} {h : Handling}
    (legs : h.legs.length = route.destinations.length)
    (settled : ∀ leg ∈ h.legs, leg.result?.isSome = true) :
    h.verdict route = .ok () ↔ ∀ leg ∈ h.legs, leg.EndedWell := by
  have good : h.verdict route = .ok () ↔ h.failures route.destinations = [] := by
    rw [Handling.verdict]
    cases h.failures route.destinations with
    | nil => simp
    | cons e es => simp
  rw [good, Handling.failures, List.filterMap_eq_nil_iff]
  constructor
  · intro none_failed leg mem
    obtain ⟨d, here⟩ := List.mem_iff_getElem?.mp mem
    have hd : d < route.destinations.length := by
      rw [← legs]
      exact (List.getElem?_eq_some_iff.mp here).1
    have pair : (leg, route.destinations[d]) ∈ h.legs.zip route.destinations := by
      refine List.mem_iff_getElem?.mpr ⟨d, ?_⟩
      rw [List.getElem?_zip_eq_some]
      exact ⟨here, List.getElem?_eq_getElem hd⟩
    exact Leg.endedWell_of_error? (settled leg mem) (none_failed _ pair)
  · rintro well ⟨leg, d⟩ pair
    exact Leg.error?_of_endedWell (well leg (List.of_mem_zip pair).1) d.label

namespace Running

variable {s : EngineSettings} {route : CompiledRoute} {past : Past} {r : Running} {clock : Clock}
  {call : Nat} {m : Message}

/-! ## When a source may commit -/

/-- The two cases in which a source may commit a message: nothing was published of it since the
preparation dropped it, or every destination has accepted it or was given up. -/
def Committable (route : CompiledRoute) (past : Past) (clock : Clock) (call : Nat) (m : Message) :
    Prop :=
  ((∃ reason, (route.prepare clock.wall m).outcome = .error reason) ∧
      ∀ d, publishes call d past = []) ∨
    ∃ sent, (route.prepare clock.wall m).outcome = .ok sent ∧
      ∀ d, d < route.destinations.length →
        Accepted sent (replies call d past) ∨ GivenUp route.mode m sent (replies call d past)

/-- What is known of the verdict on a message that arrived at the moment `mo`. -/
structure CommitDecision (route : CompiledRoute) (past : Past) (r : Running)
    (mo : Moment Running (Clock × Action) Output) (clock : Clock) (call : Nat) (m : Message) :
    Prop where
  /-- There is one verdict at most. -/
  single : (verdicts call past).length ≤ 1
  /-- A message is turned away, without being published, exactly if the token had fired. -/
  turnedAway_iff : .error .shuttingDown ∈ verdicts call past ↔ mo.before.cancelled = true
  unpublished : mo.before.cancelled = true → ∀ d, publishes call d past = []
  /-- The verdict is good exactly in the two cases. -/
  ok_iff : ∀ v ∈ verdicts call past,
    v = .ok () ↔ mo.before.cancelled = false ∧ Committable route past clock call m
  /-- In all remaining cases it is that the message was not delivered. -/
  undelivered_iff : ∀ v ∈ verdicts call past, (∃ e, v = .error (.undelivered e)) ↔
    mo.before.cancelled = false ∧ ¬ Committable route past clock call m
  /-- In the two cases the good verdict has been given, or can be given now, unless the caller has
  left. -/
  given : mo.before.cancelled = false → Committable route past clock call m →
    verdicts call past = [.ok ()] ∨ Abandoned call past ∨
      ∀ now, ∃ r' outputs, r.step? now (.resolve call) = some (r', outputs) ∧
        .verdict call (.ok ()) ∈ outputs

/-- Every destination is done with a message exactly if all legs have ended well. -/
theorem done_iff_endedWell {sent : Message} {h : Handling} {plan : RetryPlan}
    (mode : plan.mode = route.mode) (legs : h.legs.length = route.destinations.length)
    (age : ∀ wall, sent.age? wall = m.age? wall)
    (courses : ∀ {d : Nat} {leg : Leg}, h.legs[d]? = some leg →
      Leg.Course plan sent (replies call d past) leg) :
    (∀ d, d < route.destinations.length →
        Accepted sent (replies call d past) ∨ GivenUp route.mode m sent (replies call d past)) ↔
      ∀ leg ∈ h.legs, leg.EndedWell := by
  constructor
  · intro done leg mem
    obtain ⟨d, here⟩ := List.mem_iff_getElem?.mp mem
    have hd : d < route.destinations.length := by
      rw [← legs]
      exact (List.getElem?_eq_some_iff.mp here).1
    refine (courses here).well_iff.mp ((done d hd).imp_right fun given_up ↦ ?_)
    rw [mode]
    exact given_up.of_age age
  · intro well d hd
    rw [← legs] at hd
    have here := List.getElem?_eq_getElem hd
    refine ((courses here).well_iff.mpr (well _ (List.getElem_mem hd))).imp_right fun given_up ↦ ?_
    rw [mode] at given_up
    exact given_up.of_age fun wall ↦ (age wall).symm

/-- A message that was prepared is committable exactly if all legs have ended well. -/
theorem committable_iff_endedWell {sent : Message} {h : Handling} {plan : RetryPlan}
    (mode : plan.mode = route.mode) (legs : h.legs.length = route.destinations.length)
    (passed : (route.prepare clock.wall m).outcome = .ok sent)
    (courses : ∀ {d : Nat} {leg : Leg}, h.legs[d]? = some leg →
      Leg.Course plan sent (replies call d past) leg) :
    Committable route past clock call m ↔ ∀ leg ∈ h.legs, leg.EndedWell := by
  rw [← done_iff_endedWell mode legs (CompiledRoute.age?_of_prepare passed) courses]
  constructor
  · rintro (⟨⟨reason, dropped⟩, -⟩ | ⟨sent', passed', done⟩)
    · rw [passed] at dropped
      cases dropped
    · rw [passed] at passed'
      cases passed'
      exact done
  · exact fun done ↦ .inr ⟨sent, passed, done⟩

theorem resolve_of_endedWell {h : Handling} (found : r.handling? call = some h)
    (well : ∀ leg ∈ h.legs, leg.EndedWell) (now : Clock) :
    ∃ r' outputs, r.step? now (.resolve call) = some (r', outputs) ∧
      .verdict call (.ok ()) ∈ outputs := by
  have settled : (h.legs.all fun leg ↦ leg.result?.isSome) = true := by
    rw [List.all_eq_true]
    intro leg mem
    rcases well leg mem with phase | ⟨reason, phase⟩ <;> simp [Leg.result?, phase]
  have none_failed : r.failures h = [] := by
    rw [Running.failures, List.filterMap_eq_nil_iff]
    rintro ⟨leg, p⟩ pair
    exact Leg.error?_of_endedWell (well leg (List.of_mem_zip pair).1) p.destination.label
  obtain ⟨event, resolved⟩ : ∃ event, r.resolve? call =
      some (r.withoutHandling call, [event, .verdict call (.ok ())]) := by
    simp only [resolve?, found, Option.bind_eq_bind, Option.bind_some, settled, if_true,
      none_failed]
    exact ⟨_, rfl⟩
  exact ⟨_, _, resolved, List.mem_cons_of_mem _ (List.mem_singleton_self _)⟩

/-- **The commit decision.** Whatever happens to a route in whatever order, the verdict on a message
that has arrived is as `CommitDecision` says. -/
theorem commit_decision (runs : Runs s route past r) {mo : Moment Running (Clock × Action) Output}
    (here : mo ∈ past) (arrived : mo.action = (clock, .handle call m)) :
    CommitDecision route past r mo clock call m := by
  have same_route : r.route = route := (kept_of_runs runs).route
  have mode := mode_of_runs runs
  have mem := mem_arrivals here arrived
  -- each state of the story knows the only arrival of the call, which is the one in question
  cases story_of_runs runs call with
  | unheard came =>
    rw [came] at mem
    exact absurd mem List.not_mem_nil
  | turnedAway came late told untouched =>
    rw [came, List.mem_singleton] at mem
    subst mem
    have late : mo.before.cancelled = true := late
    refine ⟨by simp [told], by simp [told, late], fun _ ↦ untouched.publishes, ?_, ?_, ?_⟩
    · rw [told]
      simp [late]
    · rw [told]
      simp [late]
    · exact fun early ↦ absurd late (by simp [early])
  | dropped came early outcome told untouched =>
    rw [came, List.mem_singleton] at mem
    subst mem
    have early : mo.before.cancelled = false := early
    rw [same_route] at outcome
    have committable : Committable route past clock call m :=
      .inl ⟨⟨_, outcome⟩, untouched.publishes⟩
    refine ⟨by simp [told], by simp [told, early], fun _ ↦ untouched.publishes, ?_, ?_, ?_⟩
    · rw [told]
      simp [early, committable]
    · rw [told]
      simp [committable]
    · exact fun _ _ ↦ .inl told
  | @handled x sent h underway =>
    have only := underway.came
    rw [only, List.mem_singleton] at mem
    subst mem
    have early : mo.before.cancelled = false := underway.early
    have outcome := underway.outcome
    rw [same_route] at outcome
    have legs := length_legs_of_runs runs underway.found
    refine ⟨by simp [underway.told], by simp [underway.told, early],
      fun late ↦ absurd late (by simp [early]), by simp [underway.told], by simp [underway.told],
      fun _ committable ↦ .inr (.inr fun now ↦ ?_)⟩
    refine resolve_of_endedWell underway.found ?_ now
    exact (committable_iff_endedWell mode legs outcome underway.courses).mp committable
  | @resolved x sent h came early outcome told nobody jobs legs settled courses =>
    rw [came, List.mem_singleton] at mem
    subst mem
    have early : mo.before.cancelled = false := early
    rw [same_route] at outcome legs told
    have committable := committable_iff_endedWell mode legs outcome courses
    have good := Handling.verdict_eq_ok_iff legs settled
    refine ⟨by simp [told], ?_, fun late ↦ absurd late (by simp [early]), ?_, ?_, ?_⟩
    · rw [told, List.mem_singleton]
      refine ⟨fun shut ↦ ?_, fun late ↦ absurd late (by simp [early])⟩
      exact absurd shut.symm (h.verdict_ne_shuttingDown route)
    · rw [told]
      simp [early, committable, good]
    · rw [told]
      simp [early, committable, ← good, h.verdict_cases]
    · intro _ fine
      rw [told, good.mpr (committable.mp fine)]
      exact .inl rfl
  | abandoned came early outcome told nobody left once =>
    rw [came, List.mem_singleton] at mem
    subst mem
    have early : mo.before.cancelled = false := early
    exact ⟨by simp [told], by simp [told, early], fun late ↦ absurd late (by simp [early]),
      by simp [told], by simp [told], fun _ _ ↦ .inr (.inl left)⟩

/-- The destinations may part ways: the first accepts the message, the second is given up. -/
theorem commit_decision_of_parted : ∃ past r mo, verdicts 0 past = [.ok ()] ∧
    Runs oneLane pairOnce past r ∧ CommitDecision pairOnce past r mo ⟨0, 0⟩ 0 note := by
  have runs := (Execution.refl : Runs oneLane pairOnce [] _)
    |>.snoc (a := (⟨0, 0⟩, .handle 0 note)) rfl
    |>.snoc (a := (⟨0, 0⟩, .submit 0 1)) rfl
    |>.snoc (a := (⟨0, 0⟩, .submit 0 0)) rfl
    |>.snoc (a := (⟨0, 0⟩, .take 0 0)) rfl
    |>.snoc (a := (⟨0, 0⟩, .take 1 0)) rfl
    |>.snoc (a := (⟨1, 1⟩, .reply 0 0 (.ok ()))) rfl
    |>.snoc (a := (⟨2, 2⟩, .reply 1 0 (.error .closed))) rfl
    |>.snoc (a := (⟨2, 2⟩, .resolve 0)) rfl
  exact ⟨_, _, _, rfl, runs, commit_decision runs (List.mem_of_getElem? (i := 0) rfl) rfl⟩

end Running

end MessageBridge
