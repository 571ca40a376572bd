import MessageBridge.Proofs.Route.Published

/-!
# The stages of preparation

A message that a route drops is dropped at a stage: when it is decoded, by one of the filters, by
the projection, or when it is encoded again. `CompiledRoute.stages` lists the stages of a route in
their order, and `CompiledRoute.Fails` says of each by itself when it fails and with what reason.
A stage looks at what the stages before it yield, so it fails only where these do not.

The preparation drops a message exactly with the reason of the first stage that fails
(`CompiledRoute.prepare_eq_error_iff`). All of this happens when the message arrives, before any
lane hears of it, so nothing is ever published of a message that is dropped: `Running.drop_stages`.
-/

namespace MessageBridge

open Json (Fields)

/-- A stage of the preparation, at which a message can be dropped. -/
inductive Stage where
  /-- The payload is decoded. -/
  | decoding
  /-- A filter is asked. -/
  | filtering (filter : Filter)
  /-- The fields to encode are chosen. -/
  | projecting
  /-- The chosen fields are encoded. -/
  | encoding

/-! ## Projections that cannot fail -/

namespace Projection

variable {p : Projection} {m : Message} {fields chosen : Fields} {e : ProjectionError}

/-- The fields that are encoded again: those that were chosen, or all of them if a projection of
best effort could not choose. -/
inductive Selects (p : Projection) (m : Message) (fields : Fields) : Fields → Prop where
  | chosen {chosen : Fields} : p.project m fields = .ok chosen → Selects p m fields chosen
  | passedOn {e : ProjectionError} : p.mode = .bestEffort → p.project m fields = .error e →
      Selects p m fields fields

/-- The projection that chooses all fields where the given one fails. -/
def lenient (p : Projection) : Projection :=
  { p with project := fun m fields ↦
      match p.project m fields with
      | .ok chosen => .ok chosen
      | .error _ => .ok fields }

theorem apply_eq_error_iff :
    p.apply m fields = .error e ↔ p.mode = .strict ∧ p.project m fields = .error e := by
  unfold apply
  cases p.project m fields with
  | ok chosen => simp
  | error e' => cases p.mode <;> simp

theorem exists_apply_iff_selects :
    (∃ passedOver, p.apply m fields = .ok ⟨chosen, passedOver⟩) ↔ p.Selects m fields chosen := by
  constructor
  · rintro ⟨passedOver, applied⟩
    unfold apply at applied
    cases projected : p.project m fields with
    | ok selected =>
      simp only [projected, Except.ok.injEq, Projected.mk.injEq] at applied
      rw [← applied.1]
      exact .chosen projected
    | error e =>
      cases mode : p.mode with
      | strict => simp [projected, mode] at applied
      | bestEffort =>
        simp only [projected, mode, Except.ok.injEq, Projected.mk.injEq] at applied
        rw [← applied.1]
        exact .passedOn mode projected
  · rintro (projected | ⟨mode, projected⟩)
    · exact ⟨none, by rw [apply, projected]⟩
    · exact ⟨_, by rw [apply, projected, mode]⟩

theorem exists_apply_lenient (best : p.mode = .bestEffort) (m : Message) (fields : Fields) :
    ∃ chosen passedOver, p.apply m fields = .ok ⟨chosen, passedOver⟩ ∧
      p.lenient.apply m fields = .ok ⟨chosen, none⟩ := by
  simp only [apply, lenient]
  cases p.project m fields with
  | ok chosen => exact ⟨chosen, none, rfl, rfl⟩
  | error e => exact ⟨fields, some e, by rw [best], rfl⟩

end Projection

namespace CompiledRoute

/-! ## When a stage fails -/

/-- The stages of a route, in order. -/
def stages (route : CompiledRoute) : List Stage :=
  .decoding :: (route.filters.map .filtering ++ [.projecting, .encoding])

/-- What decoding yields: nothing of an empty payload, nor without a codec. -/
inductive Yields (route : CompiledRoute) (m : Message) : Option Decoded → Prop where
  | nothing : route.codec = none ∨ m.payload.isEmpty = true → Yields route m none
  | decoded {codec : Codec} {d : Decoded} : route.codec = some codec →
      m.payload.isEmpty = false → codec.decode m.payload = .ok d → Yields route m (some d)

/-- A stage fails with a reason. -/
inductive Fails (route : CompiledRoute) (wall : Int) (m : Message) :
    Stage → DropReason → Prop where
  | decoding {codec : Codec} {e : CodecError} : route.codec = some codec →
      m.payload.isEmpty = false → codec.decode m.payload = .error e →
      Fails route wall m .decoding (.undecodable e)
  | rejecting {f : Filter} {view : Option Decoded} : route.Yields m view →
      f.evaluate wall (route.annotate m) (view.map Decoded.fields) = .ok false →
      Fails route wall m (.filtering f) (.filtered f.name)
  | erring {f : Filter} {view : Option Decoded} {e : FilterError} : route.Yields m view →
      f.evaluate wall (route.annotate m) (view.map Decoded.fields) = .error e →
      Fails route wall m (.filtering f) (.filterFailed f.name e)
  | projecting {codec : Codec} {p : Projection} {view : Option Decoded} {e : ProjectionError} :
      route.codec = some codec → route.projection = some p → route.Yields m view →
      p.mode = .strict →
      p.project (route.annotate m) ((view.map Decoded.fields).getD []) = .error e →
      Fails route wall m .projecting (.projectionFailed e)
  | encoding {codec : Codec} {p : Projection} {view : Option Decoded} {chosen : Fields}
      {e : CodecError} :
      route.codec = some codec → route.projection = some p → route.Yields m view →
      p.Selects (route.annotate m) ((view.map Decoded.fields).getD []) chosen →
      codec.encode chosen (view.map Decoded.retained) = .error e →
      Fails route wall m .encoding (.unencodable e)

/-- One of the stages fails with the reason, and none of those before it fails. -/
def FailsFirst (route : CompiledRoute) (wall : Int) (m : Message) (stages : List Stage)
    (reason : DropReason) : Prop :=
  ∃ before stage after, stages = before ++ stage :: after ∧
    (∀ earlier ∈ before, ∀ reason, ¬ route.Fails wall m earlier reason) ∧
    route.Fails wall m stage reason

variable {route : CompiledRoute} {wall : Int} {m : Message} {view : Option Decoded}
  {stage : Stage} {rest : List Stage} {reason : DropReason}

theorem not_failsFirst_nil : ¬ route.FailsFirst wall m [] reason := by
  rintro ⟨before, stage, after, split, -⟩
  simp at split

theorem failsFirst_cons :
    route.FailsFirst wall m (stage :: rest) reason ↔ route.Fails wall m stage reason ∨
      (∀ reason, ¬ route.Fails wall m stage reason) ∧ route.FailsFirst wall m rest reason := by
  constructor
  · rintro ⟨before, failing, after, split, pass, fails⟩
    cases before with
    | nil =>
      cases split
      exact .inl fails
    | cons first before =>
      cases split
      exact .inr ⟨pass _ List.mem_cons_self, before, failing, after, rfl,
        fun earlier mem ↦ pass earlier (List.mem_cons_of_mem _ mem), fails⟩
  · rintro (fails | ⟨passes, before, failing, after, rfl, pass, fails⟩)
    · exact ⟨[], stage, rest, rfl, fun _ mem ↦ absurd mem List.not_mem_nil, fails⟩
    · refine ⟨stage :: before, failing, after, rfl, fun earlier mem ↦ ?_, fails⟩
      rcases List.mem_cons.mp mem with rfl | mem
      · exact passes
      · exact pass earlier mem

/-! ## Decoding -/

theorem decode_eq_ok_iff : route.decode m = .ok view ↔ route.Yields m view := by
  constructor
  · intro decodes
    unfold decode at decodes
    split at decodes
    · rename_i codec has
      split at decodes
      · rename_i empty
        cases decodes
        exact .nothing (.inr empty)
      · rename_i some_payload
        cases decoded : codec.decode m.payload with
        | error e => simp [decoded, Except.map] at decodes
        | ok d =>
          rw [decoded] at decodes
          cases decodes
          exact .decoded has (Bool.eq_false_iff.mpr some_payload) decoded
    · rename_i has_none
      cases decodes
      exact .nothing (.inl has_none)
  · rintro (has_none | ⟨has, some_payload, decoded⟩)
    · unfold decode
      obtain has_none | empty := has_none
      · rw [has_none]
      · cases route.codec with
        | none => rfl
        | some codec => exact if_pos empty
    · simp [decode, has, some_payload, decoded, Except.map]

theorem fails_decoding_iff :
    route.Fails wall m .decoding reason ↔
      ∃ e, route.decode m = .error e ∧ reason = .undecodable e := by
  constructor
  · intro fails
    cases fails with
    | @decoding codec e has some_payload decoded =>
      exact ⟨e, by simp [decode, has, some_payload, decoded, Except.map], rfl⟩
  · rintro ⟨e, undecodable, rfl⟩
    unfold decode at undecodable
    split at undecodable
    · rename_i codec has
      split at undecodable
      · cases undecodable
      · rename_i some_payload
        cases decoded : codec.decode m.payload with
        | ok d => simp [decoded, Except.map] at undecodable
        | error e' =>
          rw [decoded] at undecodable
          cases undecodable
          exact .decoding has (Bool.eq_false_iff.mpr some_payload) decoded
    · cases undecodable

theorem Yields.unique {view' : Option Decoded} (yields : route.Yields m view)
    (yields' : route.Yields m view') : view = view' := by
  rw [← decode_eq_ok_iff] at yields yields'
  exact Except.ok.inj (yields.symm.trans yields')

/-! ## Filters -/

theorem fails_filtering_iff {f : Filter} (yields : route.Yields m view) :
    route.Fails wall m (.filtering f) reason ↔
      f.evaluate wall (route.annotate m) (view.map Decoded.fields) = .ok false ∧
          reason = .filtered f.name ∨
        ∃ e, f.evaluate wall (route.annotate m) (view.map Decoded.fields) = .error e ∧
          reason = .filterFailed f.name e := by
  constructor
  · intro fails
    cases fails with
    | rejecting yields' says_no =>
      cases yields.unique yields'
      exact .inl ⟨says_no, rfl⟩
    | erring yields' fails =>
      cases yields.unique yields'
      exact .inr ⟨_, fails, rfl⟩
  · rintro (⟨says_no, rfl⟩ | ⟨e, fails, rfl⟩)
    · exact .rejecting yields says_no
    · exact .erring yields fails

/-- The first filter that fails decides; if there is none, the stages after the filters do. -/
theorem failsFirst_filters (yields : route.Yields m view) (chain : FilterChain) :
    route.FailsFirst wall m (chain.map .filtering ++ rest) reason ↔
      match chain.evaluate wall (route.annotate m) (view.map Decoded.fields) with
      | .rejected name => reason = .filtered name
      | .failed name e => reason = .filterFailed name e
      | .pass => route.FailsFirst wall m rest reason := by
  induction chain with
  | nil => rfl
  | cons f others ih =>
    rw [List.map_cons, List.cons_append, failsFirst_cons, ih]
    simp only [fails_filtering_iff yields, FilterChain.evaluate]
    cases f.evaluate wall (route.annotate m) (view.map Decoded.fields) with
    | error e => simp
    | ok passed => cases passed <;> simp

/-! ## The projection and the new payload -/

theorem fails_projecting_iff {codec : Codec} {p : Projection} (has : route.codec = some codec)
    (projects : route.projection = some p) (yields : route.Yields m view) :
    route.Fails wall m .projecting reason ↔
      ∃ e, p.apply (route.annotate m) ((view.map Decoded.fields).getD []) = .error e ∧
        reason = .projectionFailed e := by
  constructor
  · intro fails
    cases fails with
    | projecting has' projects' yields' strict failed =>
      cases yields.unique yields'
      rw [projects] at projects'
      cases projects'
      exact ⟨_, Projection.apply_eq_error_iff.mpr ⟨strict, failed⟩, rfl⟩
  · rintro ⟨e, failed, rfl⟩
    obtain ⟨strict, failed⟩ := Projection.apply_eq_error_iff.mp failed
    exact .projecting has projects yields strict failed

theorem fails_encoding_iff {codec : Codec} {p : Projection} (has : route.codec = some codec)
    (projects : route.projection = some p) (yields : route.Yields m view) :
    route.Fails wall m .encoding reason ↔
      ∃ chosen e, p.apply (route.annotate m) ((view.map Decoded.fields).getD []) = .ok chosen ∧
        codec.encode chosen.fields (view.map Decoded.retained) = .error e ∧
        reason = .unencodable e := by
  constructor
  · intro fails
    cases fails with
    | encoding has' projects' yields' selects failed =>
      cases yields.unique yields'
      rw [projects] at projects'
      cases projects'
      rw [has] at has'
      cases has'
      obtain ⟨passedOver, applied⟩ := Projection.exists_apply_iff_selects.mpr selects
      exact ⟨_, _, applied, failed, rfl⟩
  · rintro ⟨⟨fields, passedOver⟩, e, applied, failed, rfl⟩
    exact .encoding has projects yields
      (Projection.exists_apply_iff_selects.mp ⟨passedOver, applied⟩) failed

theorem not_fails_of_plain (plain : route.projection = none ∨ route.codec = none)
    (late : stage = .projecting ∨ stage = .encoding) : ¬ route.Fails wall m stage reason := by
  intro fails
  rcases late with rfl | rfl
  · cases fails with
    | projecting has projects => simp [has, projects] at plain
  · cases fails with
    | encoding has projects => simp [has, projects] at plain

theorem reencode_eq_error_iff (yields : route.Yields m view) :
    (route.reencode view (route.annotate m)).outcome = .error reason ↔
      route.FailsFirst wall m [.projecting, .encoding] reason := by
  simp only [failsFirst_cons, not_failsFirst_nil, and_false, or_false]
  by_cases plain : route.projection = none ∨ route.codec = none
  · have passes : (route.reencode view (route.annotate m)).outcome = .ok (route.annotate m) := by
      unfold reencode
      rcases plain with projects | has
      · rw [projects]
      · rw [has]
        cases route.projection <;> rfl
    simp [passes, not_fails_of_plain plain]
  · rw [not_or] at plain
    obtain ⟨p, projects⟩ := Option.ne_none_iff_exists'.mp plain.1
    obtain ⟨codec, has⟩ := Option.ne_none_iff_exists'.mp plain.2
    rw [fails_encoding_iff has projects yields]
    simp only [fails_projecting_iff has projects yields]
    unfold reencode
    rw [projects, has]
    dsimp only
    cases p.apply (route.annotate m) ((view.map Decoded.fields).getD []) with
    | error e => simp [eq_comm]
    | ok chosen =>
      cases encoded : codec.encode chosen.fields (view.map Decoded.retained) with
      | error e => simp [encoded, eq_comm]
      | ok payload => simp [encoded]

/-! ## All stages -/

/-- **A message is dropped exactly if a stage fails, for the reason of the first that does.** -/
theorem prepare_eq_error_iff :
    (route.prepare wall m).outcome = .error reason ↔
      route.FailsFirst wall m route.stages reason := by
  rw [stages, failsFirst_cons]
  simp only [fails_decoding_iff]
  unfold prepare
  cases decodes : route.decode m with
  | error e => simp [eq_comm]
  | ok view =>
    have yields := decode_eq_ok_iff.mp decodes
    rw [failsFirst_filters yields]
    dsimp only
    cases route.filters.evaluate wall (route.annotate m) (view.map Decoded.fields) with
    | rejected name => simp [eq_comm]
    | failed name e => simp [eq_comm]
    | pass => simpa using reencode_eq_error_iff yields

/-! ## Projections of best effort -/

/-- The route with another projection. -/
def withProjection (p : Projection) (route : CompiledRoute) : CompiledRoute :=
  { route with projection := some p }

/-- A route with a projection of best effort drops what it would drop with one that chooses all
fields where that one fails, and makes the same of everything else. -/
theorem outcome_lenient {p : Projection} (projects : route.projection = some p)
    (best : p.mode = .bestEffort) (wall : Int) (m : Message) :
    (route.prepare wall m).outcome =
      ((route.withProjection p.lenient).prepare wall m).outcome := by
  have same (view : Option Decoded) (m : Message) : (route.reencode view m).outcome =
      ((route.withProjection p.lenient).reencode view m).outcome := by
    obtain ⟨chosen, passedOver, applied, lenient⟩ :=
      Projection.exists_apply_lenient best m ((view.map Decoded.fields).getD [])
    unfold reencode withProjection
    rw [projects]
    cases route.codec with
    | none => rfl
    | some codec =>
      dsimp only
      rw [applied, lenient]
      dsimp only
      cases codec.encode chosen (view.map Decoded.retained) <;> rfl
  -- whatever comes before the projection does not know of it
  have decodes : (route.withProjection p.lenient).decode m = route.decode m := rfl
  have annotates : (route.withProjection p.lenient).annotate m = route.annotate m := rfl
  have filters : (route.withProjection p.lenient).filters = route.filters := rfl
  simp only [prepare, decodes, annotates, filters]
  cases route.decode m with
  | error e => rfl
  | ok view =>
    dsimp only
    cases route.filters.evaluate wall (route.annotate m) (view.map Decoded.fields) with
    | rejected name => rfl
    | failed name e => rfl
    | pass => exact same view _

theorem outcome_ne_projectionFailed {p : Projection} (projects : route.projection = some p)
    (best : p.mode = .bestEffort) (wall : Int) (m : Message) (e : ProjectionError) :
    (route.prepare wall m).outcome ≠ .error (.projectionFailed e) := by
  intro dropped
  obtain ⟨_, _, _, _, _, fails⟩ := prepare_eq_error_iff.mp dropped
  cases fails with
  | projecting _ projects' _ strict =>
    rw [projects] at projects'
    cases projects'
    rw [best] at strict
    cases strict

end CompiledRoute

namespace Running

variable {s : EngineSettings} {route : CompiledRoute} {past : Past} {r : Running} {clock : Clock}
  {call : Nat} {m : Message} {mo : Moment Running (Clock × Action) Output}

/-! ## Messages that are dropped -/

/-- What a message that is dropped leaves behind, when it arrived at the moment `mo`. -/
structure LeavesNothing (past : Past) (mo : Moment Running (Clock × Action) Output) (call : Nat) :
    Prop where
  /-- Nothing of it is published to any destination. -/
  unpublished : ∀ d, publishes call d past = []
  /-- The lanes are as they were, -/
  pools : mo.after.pools = mo.before.pools
  /-- and so are the messages under way. -/
  handlings : mo.after.handlings = mo.before.handlings
  /-- The one verdict on it is given when it arrives. The source may commit it unless the token had
  fired, in which case it was not even looked at. -/
  answered : ∃ v, verdicts call past = [v] ∧ .verdict call v ∈ mo.outputs ∧
    v = if mo.before.cancelled then .error .shuttingDown else .ok ()

theorem dropped_mem_outputs_iff {reason : DropReason}
    (step : mo.before.handle? clock call m = some (mo.after, mo.outputs)) :
    .event (.call call)
        (.dropped mo.before.route.name mo.before.route.source.label m.idText reason) ∈
        mo.outputs ↔
      mo.before.cancelled = false ∧
        (mo.before.route.prepare clock.wall m).outcome = .error reason := by
  have arrival : .event (.call call)
      (.dropped mo.before.route.name mo.before.route.source.label m.idText reason) ∉
        mo.before.arrivalOutputs clock call m := by
    simp [arrivalOutputs]
  obtain ⟨-, ⟨late, -, told⟩ | ⟨other, early, outcome, -, told⟩ | ⟨m', early, outcome, -, told⟩⟩ :=
    handle?_cases step
  · simp [told, late]
  · rw [told, List.mem_append, or_iff_right arrival]
    simp [early, outcome, eq_comm]
  · rw [told]
    simp [arrival, outcome]

/-- Nothing is ever published of a message that the preparation drops, and the verdict on it depends
on the token alone. -/
theorem unpublished_of_dropped (runs : Runs s route past r) (here : mo ∈ past)
    (arrived : mo.action = (clock, .handle call m)) {reason : DropReason}
    (dropped : (route.prepare clock.wall m).outcome = .error reason) :
    (∀ d, publishes call d past = []) ∧
      verdicts call past = [if mo.before.cancelled then .error .shuttingDown else .ok ()] := by
  have same_route : r.route = route := (kept_of_runs runs).route
  have mem := mem_arrivals here arrived
  -- the two states of a message that was dropped are the only ones that agree with the outcome
  cases story_of_runs runs call with
  | unheard came =>
    rw [came] at mem
    exact absurd mem List.not_mem_nil
  | turnedAway came late told untouched =>
    rw [came, List.mem_singleton] at mem
    subst mem
    exact ⟨untouched.publishes, by rw [told, if_pos late]⟩
  | dropped came early _ told untouched =>
    rw [came, List.mem_singleton] at mem
    subst mem
    have early : mo.before.cancelled = false := early
    exact ⟨untouched.publishes, by rw [told, early]; rfl⟩
  | handled underway =>
    have outcome := underway.outcome
    rw [underway.came, List.mem_singleton] at mem
    subst mem
    rw [same_route, dropped] at outcome
    cases outcome
  | resolved came _ outcome =>
    rw [came, List.mem_singleton] at mem
    subst mem
    rw [same_route, dropped] at outcome
    cases outcome
  | abandoned came _ outcome =>
    rw [came, List.mem_singleton] at mem
    subst mem
    rw [same_route, dropped] at outcome
    cases outcome

theorem leavesNothing_of_dropped (runs : Runs s route past r) (here : mo ∈ past)
    (arrived : mo.action = (clock, .handle call m)) {reason : DropReason}
    (dropped : (route.prepare clock.wall m).outcome = .error reason) :
    LeavesNothing past mo call := by
  obtain ⟨earlier, -, -, before, step, -⟩ := runs.at_moment here
  rw [arrived] at step
  have step : mo.before.handle? clock call m = some (mo.after, mo.outputs) := step
  have same_route : mo.before.route = route := (kept_of_runs before).route
  obtain ⟨unpublished, told⟩ := unpublished_of_dropped runs here arrived dropped
  obtain ⟨-, ⟨late, after, outputs⟩ | ⟨reason', early, -, after, outputs⟩ | ⟨m', -, passed, -⟩⟩ :=
    handle?_cases step
  · refine ⟨unpublished, by rw [after], by rw [after], _, told, ?_, rfl⟩
    simp [outputs, late]
  · refine ⟨unpublished, by rw [after], by rw [after], _, told, ?_, rfl⟩
    simp [outputs, early]
  · rw [same_route, dropped] at passed
    cases passed

/-- A message is taken in whatever the lanes are busy with, and whether or not the token has
fired. -/
theorem handle?_isSome (new : r.nextCall ≤ call) (held : r.phase ≠ .released) (clock : Clock)
    (m : Message) : (r.handle? clock call m).isSome = true := by
  unfold handle?
  rw [if_neg (by simp [held, Nat.not_lt.mpr new])]
  dsimp only
  split
  · rfl
  · cases (r.route.prepare clock.wall m).outcome <;> rfl

/-! ## Dropped messages in all executions -/

/-- How the messages that a route drops have fared in an execution. -/
structure DropsAtStages (route : CompiledRoute) (past : Past) (r : Running) : Prop where
  /-- A message is reported as dropped exactly if a stage fails and the token had not fired, and the
  reason is that of the first stage that fails. -/
  reported : ∀ {mo clock call m}, mo ∈ past → mo.action = (clock, .handle call m) → ∀ reason,
    .event (.call call) (.dropped route.name route.source.label m.idText reason) ∈ mo.outputs ↔
      mo.before.cancelled = false ∧ route.FailsFirst clock.wall m route.stages reason
  /-- With or without the token, nothing is left of a message that fails at a stage. -/
  nothing : ∀ {mo clock call m reason}, mo ∈ past → mo.action = (clock, .handle call m) →
    route.FailsFirst clock.wall m route.stages reason → LeavesNothing past mo call
  /-- A route whose lanes are not released takes the next message in. -/
  taken : r.phase ≠ .released → ∀ clock call m, r.nextCall ≤ call →
    (r.step? clock (.handle call m)).isSome = true

theorem dropsAtStages_of_runs (runs : Runs s route past r) : DropsAtStages route past r := by
  refine ⟨fun {mo clock call m} here arrived reason ↦ ?_,
    fun here arrived fails ↦
      leavesNothing_of_dropped runs here arrived (CompiledRoute.prepare_eq_error_iff.mpr fails),
    fun held clock call m new ↦ handle?_isSome new held clock m⟩
  obtain ⟨earlier, -, -, before, step, -⟩ := runs.at_moment here
  rw [arrived] at step
  have same_route : mo.before.route = route := (kept_of_runs before).route
  rw [← CompiledRoute.prepare_eq_error_iff, ← same_route]
  exact dropped_mem_outputs_iff step

/-- **A message is dropped at the first stage that fails, and nothing is left of it.** A projection
of best effort is no such stage: the route does what it would do if that projection chose all fields
where it fails. -/
theorem drop_stages (route : CompiledRoute) :
    (∀ wall m reason, (route.prepare wall m).outcome = .error reason ↔
      route.FailsFirst wall m route.stages reason) ∧
    (∀ p, route.projection = some p → p.mode = .bestEffort → ∀ wall m,
      (∀ e, (route.prepare wall m).outcome ≠ .error (.projectionFailed e)) ∧
      (route.prepare wall m).outcome =
        ((route.withProjection p.lenient).prepare wall m).outcome) ∧
    ∀ {s past r}, Runs s route past r → DropsAtStages route past r :=
  ⟨fun _ _ _ ↦ CompiledRoute.prepare_eq_error_iff,
    fun _ projects best wall m ↦
      ⟨CompiledRoute.outcome_ne_projectionFailed projects best wall m,
        CompiledRoute.outcome_lenient projects best wall m⟩,
    dropsAtStages_of_runs⟩

/-- A filter that can never tell. -/
def undecided : Filter := ⟨"undecided", fun _ _ _ ↦ .error ⟨"no answer"⟩⟩

/-- A projection that never finds anything to choose, and lets everything through instead. -/
def fruitless : Projection := ⟨"fruitless", .bestEffort, fun _ _ ↦ .error (.failed "fruitless" "")⟩

/-- A route on which the second and the third filter fail, and the projection too. -/
def guarded : CompiledRoute :=
  { limited with
    filters := [.sizeLimit, undecided, .recent]
    projection := some fruitless
    codec := some (Schema.ofName "s" []).codec }

/-- An empty object. -/
def emptyObject : Message := ⟨"\x7b\x7d".toUTF8, []⟩

/-- The second filter is the first that fails, so it is the reason, and the message that follows it
is turned away since the token has fired. -/
theorem drop_stages_guarded : ∃ past r first second,
    Runs oneLane guarded past r ∧ past[0]? = some first ∧ past[2]? = some second ∧
    .event (.call 0) (.dropped "notes" "bus/in" "none"
      (.filterFailed "undecided" ⟨"no answer"⟩)) ∈ first.outputs ∧
    first.before.cancelled = false ∧ second.before.cancelled = true ∧
    LeavesNothing past first 0 ∧ LeavesNothing past second 1 ∧
    (guarded.prepare 0 emptyObject).outcome ≠
      .error (.projectionFailed (.failed "fruitless" "")) := by
  obtain ⟨dropped_iff, best, drops⟩ := drop_stages guarded
  have runs := (Execution.refl : Runs oneLane guarded [] _)
    |>.snoc (a := (⟨0, 0⟩, .handle 0 emptyObject)) rfl
    |>.snoc (a := (⟨0, 0⟩, .cancel)) rfl
    |>.snoc (a := (⟨0, 0⟩, .handle 1 emptyObject)) rfl
  have fails := (dropped_iff 0 emptyObject (.filterFailed "undecided" ⟨"no answer"⟩)).mp rfl
  have staged := drops runs
  refine ⟨_, _, _, _, runs, rfl, rfl, ?_, rfl, rfl, ?_, ?_, (best fruitless rfl rfl 0 _).1 _⟩
  · exact (staged.reported (List.mem_of_getElem? (i := 0) rfl) rfl _).mpr ⟨rfl, fails⟩
  · exact staged.nothing (List.mem_of_getElem? (i := 0) rfl) rfl fails
  · exact staged.nothing (List.mem_of_getElem? (i := 2) rfl) rfl fails

end Running

end MessageBridge
