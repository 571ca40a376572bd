import MessageBridge.Proofs.Compile.Admission
import MessageBridge.Proofs.Route.Story

/-!
# What is published

A route writes into the metadata of a message at two points: before the filters are asked, and once
more after the payload was encoded again. After either the size is that of the payload which the
message has then, the names are the route's own, and nothing else has changed
(`CompiledRoute.Derived`). So no filter and no destination sees anything that the sender claimed
about these entries, and `Filter.sizeLimit` measures the payload that arrived.

A message is prepared once, and jobs hold the prepared message. A job stays in a lane when its call
is over, so that every job holds the message its call was prepared to is an invariant of executions
(`Running.prepared_of_runs`), and what workers publish are such jobs.
-/

namespace MessageBridge

open Json (Value)

/-! ## Entries -/

namespace Message

variable {name other : String}

@[simp] theorem entry?_withEntry_self (name : String) (value : Value) (m : Message) :
    entry? name (m.withEntry name value) = some value := Named.get?_insert_self ..

theorem entry?_withEntry_of_ne (differ : other ≠ name) (value : Value) (m : Message) :
    entry? name (m.withEntry other value) = m.entry? name :=
  Named.get?_insert_of_ne differ value m.metadata

end Message

/-! ## Derived metadata -/

namespace CompiledRoute

variable {route : CompiledRoute} {wall : Int} {inbound m : Message}

/-- The metadata of a message on its way along the route, by those it arrived with. -/
structure Derived (route : CompiledRoute) (inbound m : Message) : Prop where
  /-- The size is that of the payload. -/
  size : m.entry? MetaName.size = some (.ofNat m.payload.size)
  /-- The source is that of the route, -/
  sourceName : m.entry? MetaName.sourceName = some (.string route.source.point)
  /-- and so is the route. -/
  routeName : m.entry? MetaName.route = some (.string route.name)
  /-- The media type is that of the codec, if there is one. -/
  contentType : m.entry? MetaName.contentType =
    match route.codec with
    | some codec => some (.string codec.contentType)
    | none => inbound.entry? MetaName.contentType
  /-- All else is as it arrived. -/
  others : ∀ name, name ≠ MetaName.size → name ≠ MetaName.sourceName → name ≠ MetaName.route →
    name ≠ MetaName.contentType → m.entry? name = inbound.entry? name

@[simp] theorem payload_annotate (route : CompiledRoute) (m : Message) :
    (route.annotate m).payload = m.payload := by
  unfold annotate
  cases route.codec <;> rfl

theorem derived_annotate (route : CompiledRoute) (inbound : Message) :
    route.Derived inbound (route.annotate inbound) := by
  have others {name : String} (size : name ≠ MetaName.size) (source : name ≠ MetaName.sourceName)
      (own : name ≠ MetaName.route) :
      Message.entry? name
        (((withSize inbound).withEntry MetaName.sourceName (.string route.source.point)).withEntry
          MetaName.route (.string route.name)) = inbound.entry? name := by
    rw [Message.entry?_withEntry_of_ne own.symm, Message.entry?_withEntry_of_ne source.symm,
      withSize, Message.entry?_withEntry_of_ne size.symm]
  unfold annotate
  cases codec : route.codec with
  | none =>
    refine ⟨?_, ?_, Message.entry?_withEntry_self .., ?_, fun _ size source own _ ↦
      others size source own⟩
    · rw [Message.entry?_withEntry_of_ne (by decide), Message.entry?_withEntry_of_ne (by decide)]
      exact Message.entry?_withEntry_self ..
    · rw [Message.entry?_withEntry_of_ne (by decide), Message.entry?_withEntry_self]
    · rw [others (by decide) (by decide) (by decide), codec]
  | some c =>
    refine ⟨?_, ?_, ?_, ?_, fun name size source own type ↦ ?_⟩
    · rw [Message.entry?_withEntry_of_ne (by decide), Message.entry?_withEntry_of_ne (by decide),
        Message.entry?_withEntry_of_ne (by decide)]
      exact Message.entry?_withEntry_self ..
    · rw [Message.entry?_withEntry_of_ne (by decide), Message.entry?_withEntry_of_ne (by decide),
        Message.entry?_withEntry_self]
    · rw [Message.entry?_withEntry_of_ne (by decide), Message.entry?_withEntry_self]
    · rw [Message.entry?_withEntry_self, codec]
    · rw [Message.entry?_withEntry_of_ne type.symm, others size source own]

theorem Derived.withPayload (derived : route.Derived inbound m) (payload : ByteArray) :
    route.Derived inbound (withSize { m with payload := payload }) := by
  have same {name : String} (other : MetaName.size ≠ name) :
      Message.entry? name (withSize { m with payload := payload }) = m.entry? name :=
    Message.entry?_withEntry_of_ne other ..
  refine ⟨Message.entry?_withEntry_self .., ?_, ?_, ?_, fun name size source own type ↦ ?_⟩
  · rw [same (by decide), derived.sourceName]
  · rw [same (by decide), derived.routeName]
  · rw [same (by decide), derived.contentType]
  · rw [same size.symm, derived.others name size source own type]

end CompiledRoute

/-! ## What filters see -/

/-- Once the size is recorded, `sizeLimit` passes payloads of a mebibyte and less. -/
theorem Filter.evaluate_sizeLimit {m : Message}
    (size : m.entry? MetaName.size = some (.ofNat m.payload.size)) (now : Int)
    (fields : Option Json.Fields) :
    sizeLimit.evaluate now m fields = .ok (decide (m.payload.size ≤ 1048576)) := by
  have read : m.int64? MetaName.size = some (Text.clampInt64 m.payload.size) := by
    rw [Message.int64?, size]
    rfl
  simp only [sizeLimit, read, Option.getD_some, Except.ok.injEq, decide_eq_decide, mebibyte,
    Text.clampInt64, Text.int64Min, Text.int64Max]
  omega

theorem FilterChain.evaluate_eq_pass_iff {now : Int} {m : Message} {fields : Option Json.Fields}
    {chain : FilterChain} :
    chain.evaluate now m fields = .pass ↔ ∀ f ∈ chain, f.evaluate now m fields = .ok true := by
  induction chain with
  | nil => simp [evaluate]
  | cons f rest ih =>
    rw [evaluate, List.forall_mem_cons]
    cases f.evaluate now m fields with
    | error e => simp
    | ok passed => cases passed <;> simp [ih]

theorem FilterChain.exists_of_rejected {now : Int} {m : Message} {fields : Option Json.Fields}
    {chain : FilterChain} {name : String}
    (rejected : chain.evaluate now m fields = .rejected name) :
    ∃ f ∈ chain, f.name = name ∧ f.evaluate now m fields = .ok false := by
  induction chain with
  | nil => cases rejected
  | cons f rest ih =>
    rw [evaluate] at rejected
    split at rejected
    · obtain ⟨g, mem, named, says_no⟩ := ih rejected
      exact ⟨g, List.mem_cons_of_mem _ mem, named, says_no⟩
    · rename_i says_no
      cases rejected
      exact ⟨f, List.mem_cons_self, rfl, says_no⟩
    · cases rejected

namespace CompiledRoute

variable {route : CompiledRoute} {wall : Int} {inbound m : Message}

/-- The filters of the route are asked about a message with derived metadata, and what they answer
decides. -/
structure Screens (route : CompiledRoute) (wall : Int) (inbound : Message) : Prop where
  /-- What they see has the payload that arrived, -/
  payload : (route.annotate inbound).payload = inbound.payload
  /-- and metadata that are derived from it. -/
  derived : route.Derived inbound (route.annotate inbound)
  /-- So the limit on the size is one on the payload that arrived. -/
  limit : ∀ fields, Filter.sizeLimit.evaluate wall (route.annotate inbound) fields =
    .ok (decide (inbound.payload.size ≤ 1048576))
  /-- A message that goes on has passed all filters. -/
  passed : ∀ m, (route.prepare wall inbound).outcome = .ok m → ∃ decoded,
    route.decode inbound = .ok decoded ∧ ∀ f ∈ route.filters,
      f.evaluate wall (route.annotate inbound) (decoded.map Decoded.fields) = .ok true
  /-- A message that was filtered out has been rejected by the filter in question. -/
  filtered : ∀ name, (route.prepare wall inbound).outcome = .error (.filtered name) → ∃ decoded,
    route.decode inbound = .ok decoded ∧ ∃ f ∈ route.filters, f.name = name ∧
      f.evaluate wall (route.annotate inbound) (decoded.map Decoded.fields) = .ok false

theorem prepare_cases (route : CompiledRoute) (wall : Int) (inbound : Message) :
    (∃ e, (route.prepare wall inbound).outcome = .error (.undecodable e)) ∨
      ∃ decoded, route.decode inbound = .ok decoded ∧
        let verdict := route.filters.evaluate wall (route.annotate inbound)
          (decoded.map Decoded.fields)
        (∃ name, verdict = .rejected name ∧
          (route.prepare wall inbound).outcome = .error (.filtered name)) ∨
        (∃ name e, verdict = .failed name e ∧
          (route.prepare wall inbound).outcome = .error (.filterFailed name e)) ∨
        (verdict = .pass ∧ (route.prepare wall inbound).outcome =
          (route.reencode decoded (route.annotate inbound)).outcome) := by
  unfold prepare
  cases route.decode inbound with
  | error e => exact .inl ⟨e, rfl⟩
  | ok decoded =>
    refine .inr ⟨decoded, rfl, ?_⟩
    dsimp only
    cases route.filters.evaluate wall (route.annotate inbound) (decoded.map Decoded.fields) with
    | rejected name => exact .inl ⟨name, rfl, rfl⟩
    | failed name e => exact .inr (.inl ⟨name, e, rfl, rfl⟩)
    | pass => exact .inr (.inr ⟨rfl, rfl⟩)

/-- The fields that a message is encoded from again, and the payload that this gives. -/
def Projects (route : CompiledRoute) (inbound : Message) (decoded : Option Decoded)
    (payload : ByteArray) : Prop :=
  ∃ projection codec chosen, route.projection = some projection ∧ route.codec = some codec ∧
    projection.apply (route.annotate inbound) ((decoded.map Decoded.fields).getD []) = .ok chosen ∧
    codec.encode chosen.fields (decoded.map Decoded.retained) = .ok payload

theorem reencode_cases (route : CompiledRoute) (decoded : Option Decoded) (inbound : Message) :
    (∃ e, (route.reencode decoded (route.annotate inbound)).outcome =
        .error (.projectionFailed e)) ∨
      (∃ e, (route.reencode decoded (route.annotate inbound)).outcome = .error (.unencodable e)) ∨
      ((route.projection = none ∨ route.codec = none) ∧
        (route.reencode decoded (route.annotate inbound)).outcome = .ok (route.annotate inbound)) ∨
      ∃ payload, route.Projects inbound decoded payload ∧
        (route.reencode decoded (route.annotate inbound)).outcome =
          .ok (withSize { route.annotate inbound with payload := payload }) := by
  unfold reencode Projects
  cases route.projection with
  | none => exact .inr (.inr (.inl ⟨.inl rfl, rfl⟩))
  | some projection =>
    cases route.codec with
    | none => exact .inr (.inr (.inl ⟨.inr rfl, rfl⟩))
    | some codec =>
      dsimp only
      cases applied : projection.apply (route.annotate inbound)
          ((decoded.map Decoded.fields).getD []) with
      | error e => exact .inl ⟨e, rfl⟩
      | ok chosen =>
        dsimp only
        cases encoded : codec.encode chosen.fields (decoded.map Decoded.retained) with
        | error e => exact .inr (.inl ⟨e, rfl⟩)
        | ok payload =>
          exact .inr (.inr (.inr ⟨payload, ⟨_, _, chosen, rfl, rfl, applied, encoded⟩, rfl⟩))

theorem screens (route : CompiledRoute) (wall : Int) (inbound : Message) :
    route.Screens wall inbound := by
  have derived := route.derived_annotate inbound
  refine ⟨payload_annotate .., derived, fun fields ↦ ?_, fun m passed ↦ ?_, fun name dropped ↦ ?_⟩
  · rw [Filter.evaluate_sizeLimit derived.size, payload_annotate]
  · obtain ⟨e, undecodable⟩ | ⟨decoded, decodes, ⟨name, -, rejected⟩ | ⟨name, e, -, failed⟩ |
      ⟨pass, -⟩⟩ := route.prepare_cases wall inbound
    · simp [undecodable] at passed
    · simp [rejected] at passed
    · simp [failed] at passed
    · exact ⟨decoded, decodes, FilterChain.evaluate_eq_pass_iff.mp pass⟩
  · obtain ⟨e, undecodable⟩ | ⟨decoded, decodes, ⟨name', verdict, rejected⟩ |
      ⟨name', e, -, failed⟩ | ⟨-, goes_on⟩⟩ := route.prepare_cases wall inbound
    · simp [undecodable] at dropped
    · rw [rejected] at dropped
      cases dropped
      exact ⟨decoded, decodes, FilterChain.exists_of_rejected verdict⟩
    · simp [failed] at dropped
    · -- no later stage drops a message on account of a filter
      rw [goes_on] at dropped
      obtain ⟨e, failed⟩ | ⟨e, failed⟩ | ⟨-, done⟩ | ⟨payload, -, done⟩ :=
        route.reencode_cases decoded inbound <;> simp_all

/-! ## What a route makes of a message -/

/-- The message that a route publishes for one that has arrived. -/
structure Publication (route : CompiledRoute) (inbound m : Message) : Prop where
  /-- Its metadata are derived from those that arrived. -/
  derived : route.Derived inbound m
  /-- Without a projection its payload is the one that arrived. -/
  kept : route.projection = none → m.payload = inbound.payload
  /-- With one, its payload is that of the chosen fields. -/
  projected : route.projection ≠ none → ∃ decoded, route.decode inbound = .ok decoded ∧
    route.Projects inbound decoded m.payload

theorem publication_of_prepare (sound : route.projection ≠ none → route.codec ≠ none)
    (passed : (route.prepare wall inbound).outcome = .ok m) : route.Publication inbound m := by
  have derived := route.derived_annotate inbound
  obtain ⟨e, undecodable⟩ | ⟨decoded, decodes, ⟨name, -, rejected⟩ | ⟨name, e, -, failed⟩ |
    ⟨-, goes_on⟩⟩ := route.prepare_cases wall inbound
  · simp [undecodable] at passed
  · simp [rejected] at passed
  · simp [failed] at passed
  rw [goes_on] at passed
  obtain ⟨e, failed⟩ | ⟨e, failed⟩ | ⟨plain, done⟩ | ⟨payload, projects, done⟩ :=
    route.reencode_cases decoded inbound
  · simp [failed] at passed
  · simp [failed] at passed
  · rw [done] at passed
    cases passed
    refine ⟨derived, fun _ ↦ payload_annotate .., fun projects ↦ ?_⟩
    exact absurd plain (not_or.mpr ⟨projects, sound projects⟩)
  · rw [done] at passed
    cases passed
    refine ⟨derived.withPayload payload, fun plain ↦ ?_, fun _ ↦ ⟨decoded, decodes, projects⟩⟩
    obtain ⟨projection, _, _, some_projection, -⟩ := projects
    rw [plain] at some_projection
    cases some_projection

/-- A route with a projection has a codec, if it comes from a table. -/
theorem codec_of_compile {env : Environment} {table : RouteTable} {routes : List CompiledRoute}
    (compiled : env.compile table = .ok routes) (mem : route ∈ routes)
    (projects : route.projection ≠ none) : route.codec ≠ none := by
  have decided := Environment.compile_decides env table
  rw [compiled, Check.decide_ok_iff] at decided
  obtain ⟨passes, renders⟩ := decided
  have admits := Environment.allPass_checks.mp passes
  obtain ⟨length, each⟩ := List.forall₂_iff_get.mp renders
  obtain ⟨i, hi, rfl⟩ := List.mem_iff_getElem.mp mem
  have hi' : i < table.routes.length := length ▸ hi
  have stands := each i hi' hi
  rw [List.get_eq_getElem, List.get_eq_getElem] at stands
  rw [stands.codec]
  refine (admits.complete _ (List.getElem_mem hi')).codec fun plain ↦ projects ?_
  have projection := stands.projection
  rw [plain] at projection
  cases same : routes[i].projection with
  | none => rfl
  | some p =>
    rw [same] at projection
    cases projection

end CompiledRoute

namespace Running

variable {s : EngineSettings} {route : CompiledRoute} {past : Past} {r r' : Running} {clock : Clock}
  {a : Action} {call d : Nat} {job : Job}

/-! ## Jobs hold the prepared message -/

theorem Effect.job_cases (effect : Effect clock r a r') (mem : job ∈ r'.jobs d) :
    job ∈ r.jobs d ∨ ∃ h, r.handling? job.call = some h ∧ job.message = h.message := by
  cases effect with
  | quiet _ jobs => exact .inl ((jobs d).mem_iff.mp mem)
  | begun _ _ _ jobs => exact .inl (jobs d ▸ mem)
  | @moved _ c i h leg leg' _ found _ _ _ jobs others =>
    by_cases hd : d = i
    · subst hd
      have after := jobs.mem_iff.mp (List.mem_append_left _ mem)
      rcases List.mem_append.mp after with awaited | old
      · right
        unfold Leg.awaits at awaited
        split at awaited
        · obtain rfl := List.mem_singleton.mp awaited
          exact ⟨h, found, rfl⟩
        · cases awaited
      · exact .inl old
    · exact .inl (others d hd ▸ mem)
  | @answered i _ _ done _ _ _ _ _ _ _ _ jobs others =>
    by_cases hd : d = i
    · subst hd
      exact .inl (jobs.mem_iff.mpr (List.mem_cons_of_mem _ mem))
    · exact .inl (others d hd ▸ mem)
  | @unclaimed i _ _ done _ _ _ _ jobs others =>
    by_cases hd : d = i
    · subst hd
      exact .inl (jobs.mem_iff.mpr (List.mem_cons_of_mem _ mem))
    · exact .inl (others d hd ▸ mem)
  | @shed _ i gone _ _ jobs others =>
    by_cases hd : d = i
    · subst hd
      exact .inl (jobs.mem_iff.mpr (List.mem_append_right _ mem))
    · exact .inl (others d hd ▸ mem)
  | left _ _ _ _ jobs => exact .inl ((jobs d).subset mem)
  | released _ jobs => exact .inl ((jobs d).subset mem)

/-- The message is what the route has prepared of a call that has arrived. -/
def Prepared (route : CompiledRoute) (call : Nat) (past : Past) (m : Message) : Prop :=
  ∃ x ∈ arrivals call past, x.late = false ∧
    (route.prepare x.clock.wall x.message).outcome = .ok m

/-- **Every job holds the prepared message of its call**, also when the call is over. -/
theorem prepared_of_runs (runs : Runs s route past r) (mem : job ∈ r.jobs d) :
    Prepared route job.call past job.message := by
  induction runs with
  | refl =>
    rw [jobs_ofRoute] at mem
    cases mem
  | @snoc past r r' act outputs runs step ih =>
    obtain old | ⟨h, found, same⟩ := (effect_of_step step).job_cases mem
    · obtain ⟨x, came, early, outcome⟩ := ih old
      refine ⟨x, ?_, early, outcome⟩
      rw [arrivals_concat]
      exact List.mem_append_left _ came
    · obtain ⟨x, m, underway⟩ := (story_of_runs runs job.call).underway found
      refine ⟨x, ?_, underway.early, ?_⟩
      · rw [arrivals_concat, underway.came]
        exact List.mem_append_left _ (List.mem_singleton_self x)
      · have outcome := underway.outcome
        rw [(kept_of_runs runs).route] at outcome
        rw [same, underway.message]
        exact outcome

theorem prepared_of_publishes {m : Message} (runs : Runs s route past r)
    (mem : m ∈ publishes call d past) : Prepared route call past m := by
  obtain ⟨o, told, publish⟩ := List.mem_filterMap.mp mem
  obtain ⟨mo, here, said⟩ := Moment.mem_told.mp told
  obtain ⟨earlier, later, rfl, before, step, -⟩ := runs.at_moment here
  cases o with
  | publish i j c m' =>
    simp only [Output.publish?] at publish
    split at publish
    · rename_i mine
      obtain ⟨rfl, rfl⟩ := mine
      cases publish
      obtain ⟨-, p, p', hp, taken⟩ := caused_of_step step _ said
      have held : (⟨c, m⟩ : Job) ∈ mo.before.jobs i := by
        rw [jobs_of_pool hp]
        exact Pool.mem_jobs_of_take? taken
      obtain ⟨x, came, prepared⟩ := prepared_of_runs before held
      refine ⟨x, ?_, prepared⟩
      rw [arrivals, List.filterMap_append]
      exact List.mem_append_left _ came
    · cases publish
  | _ => cases publish

/-! ## What workers publish -/

/-- **What is published.** The filters of a route that comes from a table see every message with the
size of the payload that arrived. All publishes of a call, to whatever destination and however often
they are tried, are of one message, whose payload is the one that arrived or the projected one, and
whose metadata are derived from those that arrived. -/
theorem published {env : Environment} {table : RouteTable} {routes : List CompiledRoute}
    (compiled : env.compile table = .ok routes) (mem : route ∈ routes)
    (runs : Runs s route past r) (call : Nat) :
    (∀ x ∈ arrivals call past, route.Screens x.clock.wall x.message) ∧
      (∀ d, ∀ m ∈ publishes call d past, ∃ x, arrivals call past = [x] ∧ x.late = false ∧
        (route.prepare x.clock.wall x.message).outcome = .ok m ∧ route.Publication x.message m) ∧
      ∀ d d', ∀ m ∈ publishes call d past, ∀ m' ∈ publishes call d' past, m = m' := by
  have only {x y : Arrival} (came : x ∈ arrivals call past) (came' : y ∈ arrivals call past) :
      arrivals call past = [x] ∧ x = y := by
    obtain ⟨z, this⟩ := List.length_eq_one_iff.mp (Nat.le_antisymm
      (story_of_runs runs call).arrivals_le_one (List.length_pos_of_mem came))
    rw [this, List.mem_singleton] at came came'
    exact ⟨by rw [this, came], came.trans came'.symm⟩
  refine ⟨fun x _ ↦ route.screens .., fun d m mine ↦ ?_, fun d d' m mine m' mine' ↦ ?_⟩
  · obtain ⟨x, came, early, outcome⟩ := prepared_of_publishes runs mine
    exact ⟨x, (only came came).1, early, outcome,
      CompiledRoute.publication_of_prepare (CompiledRoute.codec_of_compile compiled mem) outcome⟩
  · obtain ⟨x, came, -, outcome⟩ := prepared_of_publishes runs mine
    obtain ⟨y, came', -, outcome'⟩ := prepared_of_publishes runs mine'
    obtain rfl := (only came came').2
    exact Except.ok.inj (outcome.symm.trans outcome')

/-- A table with a limit on the size, for a bus without codecs. -/
def limitedTable : RouteTable where
  routes := [(RouteSpec.toGroup "notes" ⟨"bus", "in"⟩ "all").withFilters ["size_le_1mb"]]
  groups := [⟨"all", [⟨"bus", "a"⟩, ⟨"bus", "b"⟩]⟩]

/-- The route of that table. -/
def limited : CompiledRoute where
  name := "notes"
  source := ⟨0, "in", "bus/in"⟩
  destinations := [⟨0, "bus", "a", "bus/a"⟩, ⟨0, "bus", "b", "bus/b"⟩]
  filters := [.sizeLimit]
  projection := none
  codec := none
  mode := .persistent

/-- Three bytes that claim to be many, from somewhere else. -/
def boastful : Message :=
  ⟨⟨#[1, 2, 3]⟩, [("size", .ofNat 9999999), ("kind", .string "note"), ("source_name", .null)]⟩

/-- The message is small enough, and it is refused once: all three publishes are of the same
message, with its true size and source. -/
theorem published_of_boastful :
    ({ Environment.ofOneBus with codecs := .empty } : Environment).compile limitedTable =
        .ok [limited] ∧
    ∃ past r m, Runs oneLane limited past r ∧
      publishes 0 0 past = [m, m] ∧ publishes 0 1 past = [m] ∧
      limited.Screens 0 boastful ∧ limited.Publication boastful m ∧
      m.payload = boastful.payload ∧
      m.metadata = [("size", .ofNat 3), ("kind", .string "note"), ("source_name", .string "in"),
        ("route", .string "notes")] := by
  have compiled : ({ Environment.ofOneBus with codecs := .empty } : Environment).compile
      limitedTable = .ok [limited] := rfl
  have runs := (Execution.refl : Runs oneLane limited [] _)
    |>.snoc (a := (⟨0, 0⟩, .handle 0 boastful)) rfl
    |>.snoc (a := (⟨0, 0⟩, .submit 0 0)) rfl
    |>.snoc (a := (⟨0, 0⟩, .submit 0 1)) rfl
    |>.snoc (a := (⟨0, 0⟩, .take 0 0)) rfl
    |>.snoc (a := (⟨0, 0⟩, .take 1 0)) rfl
    |>.snoc (a := (⟨0, 0⟩, .reply 0 0 (.error .closed))) rfl
    |>.snoc (a := (⟨50, 50⟩, .wake 0 0)) rfl
    |>.snoc (a := (⟨50, 50⟩, .submit 0 0)) rfl
    |>.snoc (a := (⟨50, 50⟩, .take 0 0)) rfl
  obtain ⟨screens, publication, -⟩ := published compiled List.mem_cons_self runs 0
  obtain ⟨x, came, -, -, derived⟩ := publication 1 _ List.mem_cons_self
  obtain rfl : (⟨⟨0, 0⟩, boastful, false⟩ : Arrival) = x := List.singleton_inj.mp came
  exact ⟨compiled, _, _, _, runs, rfl, rfl, screens _ List.mem_cons_self, derived,
    derived.kept rfl, rfl⟩

end Running

end MessageBridge
