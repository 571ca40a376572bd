import MessageBridge.Proofs.Codec.RoundTrip
import MessageBridge.Proofs.Json.Verbatim
import MessageBridge.Route.Preparation

/-!
# Fields that are kept

A projection that keeps some names meets three orders: that in which the names are declared, that in
which the payload mentions them and that of the template. Only the payload's is left in the end. The
projection chooses fields in declared order, and encoding arranges them after the decoded payload,
of which they are a part; so what is encoded is the decoded payload without the other fields
(`Schema.arrange_keepPresent`), and doing the same to that changes nothing.

`CompiledRoute.keepsFields` collects what a route makes of a payload that decodes.
-/

namespace MessageBridge

open Json (Fields Value)
open Json.Value (depthLimit)

namespace Named

theorem names_ofList {α : Type*} (entries : List (String × α)) :
    names (ofList entries) = (names entries).eraseDups := by
  induction entries using List.reverseRecOn with
  | nil => rfl
  | append_singleton rest last ih =>
    have adds : ofList (rest ++ [last]) = insert last.1 last.2 (ofList rest) := by
      rw [ofList, List.foldl_append]
      rfl
    have one_more : names (rest ++ [last]) = names rest ++ [last.1] := List.map_append
    rw [adds, names_insert, one_more, List.eraseDups_append, ih]
    by_cases known : last.1 ∈ names rest
    · have there : contains last.1 (ofList rest) = true := by
        rw [contains_iff, ih, List.mem_eraseDups]
        exact known
      simp [there, List.removeAll, known]
    · have absent : contains last.1 (ofList rest) = false := by
        rw [Bool.eq_false_iff, Ne, contains_iff, ih, List.mem_eraseDups]
        exact known
      simp [absent, List.removeAll, known, List.eraseDups_cons]

end Named

/-! ## Choosing fields by name -/

namespace Projection

variable {keep : List String} {fields : Fields} {key name field : String}

/-- The fields of the given names, where they stand. -/
def kept (keep : List String) (fields : Fields) : Fields :=
  fields.filter fun entry ↦ entry.1 ∈ keep

theorem kept_kept (keep : List String) (fields : Fields) :
    kept keep (kept keep fields) = kept keep fields := by
  simp [kept, List.filter_filter]

theorem mem_names_kept :
    name ∈ Named.names (kept keep fields) ↔ name ∈ Named.names fields ∧ name ∈ keep := by
  have names : Named.names (kept keep fields) = (Named.names fields).filter (· ∈ keep) := by
    rw [Named.names, Named.names, kept, List.filter_map]
    rfl
  rw [names, List.mem_filter, decide_eq_true_eq]

theorem firstAbsent?_eq_some_iff : firstAbsent? keep fields = some field ↔
    ∃ before after, keep = before ++ field :: after ∧
      (∀ earlier ∈ before, earlier ∈ Named.names fields) ∧ field ∉ Named.names fields := by
  rw [firstAbsent?, List.find?_eq_some_iff_append]
  simp only [Bool.not_eq_true', Bool.not_not, ← Bool.not_eq_true, Named.contains_iff]
  tauto

theorem firstAbsent?_eq_none_iff :
    firstAbsent? keep fields = none ↔ ∀ name ∈ keep, name ∈ Named.names fields := by
  simp [firstAbsent?, Named.contains_iff]

theorem mem_of_mem_chosen {v : Value}
    (mem : (key, v) ∈ keep.filterMap fun name ↦ (Named.get? name fields).map fun v ↦ (name, v)) :
    key ∈ keep ∧ Named.get? key fields = some v := by
  obtain ⟨name, declared, chosen⟩ := List.mem_filterMap.mp mem
  obtain ⟨v', found, same⟩ := Option.map_eq_some_iff.mp chosen
  cases same
  exact ⟨declared, found⟩

theorem get?_keepPresent (key : String) : Named.get? key (keepPresent keep fields) =
    if key ∈ keep then Named.get? key fields else none := by
  refine Option.ext fun v ↦ ?_
  constructor
  · intro found
    obtain ⟨declared, there⟩ :=
      mem_of_mem_chosen (Named.mem_of_mem_ofList (Named.mem_of_get? found))
    rw [if_pos declared, there]
  · intro found
    split at found
    · rename_i declared
      -- whichever mention of the name counts, it has the value that the fields have
      have added : (key, v) ∈
          keep.filterMap fun name ↦ (Named.get? name fields).map fun v ↦ (name, v) :=
        List.mem_filterMap.mpr ⟨key, declared, by rw [found]; rfl⟩
      obtain ⟨w, there⟩ : ∃ w, Named.get? key (keepPresent keep fields) = some w := by
        rw [← Named.mem_names_iff, keepPresent, Named.names_ofList, List.mem_eraseDups]
        exact List.mem_map_of_mem added
      obtain ⟨-, same⟩ := mem_of_mem_chosen (Named.mem_of_mem_ofList (Named.mem_of_get? there))
      rw [there, ← same, found]
    · cases found

/-- Keeping fields fails only if it is strict, at the first name without a field. -/
theorem apply_keepFields (name : String) (keep : List String) (mode : ProjectionMode) (m : Message)
    (fields : Fields) : (keepFields name keep mode).apply m fields =
      match mode, firstAbsent? keep fields with
      | .strict, some field => .error (.missingField name field)
      | _, _ => .ok ⟨keepPresent keep fields, none⟩ := by
  unfold apply keepFields
  dsimp only
  cases mode with
  | bestEffort => rfl
  | strict => cases firstAbsent? keep fields <;> rfl

end Projection

namespace Schema

variable {keep : List String} {fields : Fields}

/-- The chosen fields, arranged after those that they were chosen from, are these without the
others. -/
theorem arrange_keepPresent (distinct : Named.Distinct fields) :
    arrange fields (Projection.keepPresent keep fields) = Projection.kept keep fields := by
  have known : (Named.names fields).filterMap (fun key ↦
      (Named.get? key (Projection.keepPresent keep fields)).map fun v ↦ (key, v)) =
        Projection.kept keep fields := by
    rw [Named.names, List.filterMap_map, Projection.kept, ← List.filterMap_eq_filter]
    refine List.filterMap_congr fun entry mem ↦ ?_
    rw [Function.comp_apply, Projection.get?_keepPresent, Named.get?_of_mem distinct mem]
    by_cases declared : entry.1 ∈ keep
    · simp [declared]
    · simp [declared, Option.guard_def]
  have none_left : (Projection.keepPresent keep fields).filter
      (fun entry ↦ !Named.contains entry.1 fields) = [] := by
    rw [List.filter_eq_nil_iff]
    intro entry mem
    have found := (Projection.mem_of_mem_chosen (Named.mem_of_mem_ofList mem)).2
    simp [Named.contains_iff.mpr (Named.mem_names_iff.mpr ⟨_, found⟩)]
  rw [arrange, known, none_left, List.append_nil]

theorem distinct_kept (distinct : Named.Distinct fields) :
    Named.Distinct (Projection.kept keep fields) :=
  distinct.sublist (List.filter_sublist.map Prod.fst)

theorem readable_kept {room : Nat} (readable : (Value.object fields).Readable room) :
    (Value.object (Projection.kept keep fields)).Readable room := by
  cases readable with
  | object distinct members =>
    exact .object (distinct_kept distinct) fun m mem ↦ members m (List.mem_of_mem_filter mem)

theorem floats_kept (floats : (Value.object fields).FloatsReadBack) :
    (Value.object (Projection.kept keep fields)).FloatsReadBack := by
  rw [Value.floatsReadBack_object] at floats ⊢
  exact fun m mem ↦ floats m (List.mem_of_mem_filter mem)

/-- What a payload decodes to has the names in the order in which the payload mentions them. -/
theorem exists_mentions {schema : Schema} {payload : ByteArray} {d : Decoded}
    (decoded : schema.decode payload = .ok d) :
    ∃ mentions, Value.verbatim? payload = some (.object mentions) ∧
      Named.names d.fields = (Named.names mentions).eraseDups := by
  have read := (decode_eq_ok_iff.mp decoded).1.1
  rw [Value.ofBytes?_eq_settle] at read
  obtain ⟨v, verbatim, settled⟩ := Option.map_eq_some_iff.mp read
  cases v with
  | object mentions =>
    rw [Value.settle, Value.object.injEq] at settled
    refine ⟨mentions, verbatim, ?_⟩
    rw [← settled, Named.names_ofList, Value.names_settleMembers]
  | _ => cases settled

theorem objectBytes_isEmpty (fields : Fields) : (objectBytes fields).isEmpty = false := by
  rw [objectBytes, Value.render, Value.toChars]
  simp [ByteArray.isEmpty]

end Schema

/-! ## Payloads with chosen fields -/

namespace CompiledRoute

variable {route : CompiledRoute} {schema : Schema} {name : String} {keep : List String}
  {mode : ProjectionMode} {m : Message} {d : Decoded} {field : String}

/-- What a route makes of a message that its filters pass: the payload is decoded, projected and
encoded again. -/
def transcribe (route : CompiledRoute) (m : Message) : Prepared :=
  match route.decode m with
  | .error e => ⟨.error (.undecodable e), none⟩
  | .ok view => route.reencode view (route.annotate m)

theorem prepare_eq_transcribe {wall : Int} {view : Option Decoded}
    (decodes : route.decode m = .ok view)
    (pass : route.filters.evaluate wall (route.annotate m) (view.map Decoded.fields) = .pass) :
    route.prepare wall m = route.transcribe m := by
  rw [prepare, transcribe, decodes]
  dsimp only
  rw [pass]

/-- The message with just the given fields in its payload. -/
def withFields (route : CompiledRoute) (m : Message) (fields : Fields) : Message :=
  withSize { route.annotate m with payload := Schema.objectBytes fields }

section KeepFields

variable (has : route.codec = some schema.codec)
  (projects : route.projection = some (.keepFields name keep mode))
  (some_payload : m.payload.isEmpty = false) (decoded : schema.decode m.payload = .ok d)

include has some_payload decoded

theorem decode_of_schema : route.decode m = .ok (some d) := by
  have decodes : schema.codec.decode m.payload = .ok d := decoded
  rw [decode, has]
  dsimp only
  rw [if_neg (by simp [some_payload]), decodes]
  rfl

include projects

theorem transcribe_of_absent (strict : mode = .strict)
    (absent : Projection.firstAbsent? keep d.fields = some field) :
    route.transcribe m = ⟨.error (.projectionFailed (.missingField name field)), none⟩ := by
  have fails (x : Message) : (Projection.keepFields name keep mode).apply x d.fields =
      .error (.missingField name field) := by
    rw [Projection.apply_keepFields, strict, absent]
  rw [transcribe, decode_of_schema has some_payload decoded]
  dsimp only
  rw [reencode, has, projects]
  dsimp only [Option.map_some, Option.getD_some]
  rw [fails]

/-- Otherwise the payload keeps the chosen fields and loses the others. -/
theorem transcribe_of_present
    (present : mode = .strict → Projection.firstAbsent? keep d.fields = none) :
    route.transcribe m = ⟨.ok (route.withFields m (Projection.kept keep d.fields)), none⟩ := by
  have chooses (x : Message) : (Projection.keepFields name keep mode).apply x d.fields =
      .ok ⟨Projection.keepPresent keep d.fields, none⟩ := by
    rw [Projection.apply_keepFields]
    cases mode with
    | bestEffort => rfl
    | strict => rw [present rfl]
  have kept := (Schema.decode_eq_ok_iff.mp decoded).1.2
  have encodes : schema.codec.encode (Projection.keepPresent keep d.fields) (some d.retained) =
      .ok (Schema.objectBytes (Projection.kept keep d.fields)) := by
    change schema.encode _ _ = _
    rw [kept, Schema.encode,
      Schema.arrange_keepPresent (Schema.distinct_of_readable (Schema.readable_of_decode decoded))]
  rw [transcribe, decode_of_schema has some_payload decoded]
  dsimp only
  rw [reencode, has, projects]
  dsimp only [Option.map_some, Option.getD_some]
  rw [chooses]
  dsimp only [Option.map_none]
  rw [encodes]
  rfl

/-- A message is dropped for the first name that is not there, if the projection is strict, or goes
on with the kept fields. -/
theorem transcribe_cases :
    (∃ field, mode = .strict ∧ Projection.firstAbsent? keep d.fields = some field ∧
        (route.transcribe m).outcome = .error (.projectionFailed (.missingField name field))) ∨
      (mode = .strict → ∀ field ∈ keep, field ∈ Named.names d.fields) ∧
        (route.transcribe m).outcome =
          .ok (route.withFields m (Projection.kept keep d.fields)) := by
  have passes (present : mode = .strict → Projection.firstAbsent? keep d.fields = none) :=
    And.intro (fun strict ↦ Projection.firstAbsent?_eq_none_iff.mp (present strict))
      (congrArg Prepared.outcome (transcribe_of_present has projects some_payload decoded present))
  cases absent : Projection.firstAbsent? keep d.fields with
  | none => exact .inr (passes fun _ ↦ absent)
  | some field =>
    by_cases strict : mode = .strict
    · exact .inl ⟨field, strict, rfl, congrArg Prepared.outcome
        (transcribe_of_absent has projects some_payload decoded strict absent)⟩
    · exact .inr (passes fun is_strict ↦ absurd is_strict strict)

end KeepFields

/-- What becomes of a message whose payload decodes to `d`, under a projection of the given name and
mode that keeps the given names. -/
structure KeepsFields (route : CompiledRoute) (schema : Schema) (name : String)
    (keep : List String) (mode : ProjectionMode) (m : Message) (d : Decoded) : Prop where
  /-- Once the filters pass the message, nothing else decides about it. -/
  prepared : ∀ wall, route.filters.evaluate wall (route.annotate m) (some d.fields) = .pass →
    route.prepare wall m = route.transcribe m
  /-- It is dropped exactly if the projection is strict and a name is not there, -/
  dropped_iff : (∃ reason, (route.transcribe m).outcome = .error reason) ↔
    mode = .strict ∧ ∃ field ∈ keep, field ∉ Named.names d.fields
  /-- because of the first of these names. -/
  reason : ∀ reason, (route.transcribe m).outcome = .error reason →
    ∃ before field after, keep = before ++ field :: after ∧
      (∀ earlier ∈ before, earlier ∈ Named.names d.fields) ∧ field ∉ Named.names d.fields ∧
      reason = .projectionFailed (.missingField name field)
  /-- Otherwise its payload is the object of the fields that are kept, as they were, -/
  payload : ∀ sent, (route.transcribe m).outcome = .ok sent →
    sent = route.withFields m (d.fields.filter fun entry ↦ entry.1 ∈ keep)
  /-- which stand in the order in which the payload first mentions them. -/
  order : ∃ mentions, Value.verbatim? m.payload = some (.object mentions) ∧
    Named.names d.fields = (Named.names mentions).eraseDups
  /-- If the fractions of the payload read back, the new payload decodes to the kept fields, and
  every message with that payload passes with the same payload. -/
  again : (Value.object d.fields).FloatsReadBack →
    ∀ sent, (route.transcribe m).outcome = .ok sent →
    (∃ d', schema.decode sent.payload = .ok d' ∧
      d'.fields = d.fields.filter fun entry ↦ entry.1 ∈ keep) ∧
    ∀ m', m'.payload = sent.payload →
      ∃ sent', (route.transcribe m').outcome = .ok sent' ∧ sent'.payload = sent.payload

theorem decode_withFields (free : schema.requiredFields = [])
    (readable : (Value.object d.fields).Readable depthLimit)
    (floats : (Value.object d.fields).FloatsReadBack) :
    schema.decode (route.withFields m (Projection.kept keep d.fields)).payload =
      .ok ⟨Projection.kept keep d.fields, .fields (Projection.kept keep d.fields)⟩ :=
  Schema.decode_objectBytes (Schema.readable_kept readable) (Schema.floats_kept floats)
    (by simp [free])

/-- **What is left of a payload when a projection keeps some names**, for a codec that requires no
fields. -/
theorem keepsFields (free : schema.requiredFields = []) (has : route.codec = some schema.codec)
    (projects : route.projection = some (.keepFields name keep mode))
    (some_payload : m.payload.isEmpty = false) (decoded : schema.decode m.payload = .ok d) :
    route.KeepsFields schema name keep mode m d := by
  have readable := Schema.readable_of_decode decoded
  have either := transcribe_cases has projects some_payload decoded
  refine ⟨fun wall pass ↦ prepare_eq_transcribe (decode_of_schema has some_payload decoded) pass,
    ?_, ?_, ?_, Schema.exists_mentions decoded, fun floats sent passed ↦ ?_⟩
  · obtain ⟨field, strict, absent, dropped⟩ | ⟨present, passed⟩ := either
    · obtain ⟨before, after, rfl, -, missing⟩ := Projection.firstAbsent?_eq_some_iff.mp absent
      exact iff_of_true ⟨_, dropped⟩ ⟨strict, field, by simp, missing⟩
    · refine iff_of_false (by simp [passed]) ?_
      rintro ⟨strict, field, declared, missing⟩
      exact missing (present strict field declared)
  · intro reason dropped
    obtain ⟨field, -, absent, dropped'⟩ | ⟨-, passed⟩ := either
    · obtain ⟨before, after, split, there, missing⟩ := Projection.firstAbsent?_eq_some_iff.mp absent
      rw [dropped, Except.error.injEq] at dropped'
      exact ⟨before, field, after, split, there, missing, dropped'⟩
    · rw [dropped] at passed
      cases passed
  · intro sent passed
    obtain ⟨field, -, -, dropped⟩ | ⟨-, passed'⟩ := either
    · rw [passed] at dropped
      cases dropped
    · rw [passed, Except.ok.injEq] at passed'
      exact passed'
  · obtain ⟨field, -, -, dropped⟩ | ⟨present, passed'⟩ := either
    · rw [passed] at dropped
      cases dropped
    · rw [passed, Except.ok.injEq] at passed'
      subst passed'
      have reads : schema.decode (route.withFields m (Projection.kept keep d.fields)).payload = _ :=
        decode_withFields free readable floats
      refine ⟨⟨_, reads, rfl⟩, fun m' same ↦ ?_⟩
      have some_payload' : m'.payload.isEmpty = false := by
        rw [same]
        exact Schema.objectBytes_isEmpty _
      rw [← same] at reads
      -- in the second pass the names are still there, and the same fields are kept
      obtain ⟨field, strict, absent, -⟩ | ⟨-, again⟩ :=
        transcribe_cases has projects some_payload' reads
      · obtain ⟨before, after, rfl, -, missing⟩ := Projection.firstAbsent?_eq_some_iff.mp absent
        have there := present strict field (by simp)
        exact absurd (Projection.mem_names_kept.mpr ⟨there, by simp⟩) missing
      · refine ⟨_, again, ?_⟩
        rw [Projection.kept_kept]
        rfl

/-- A route that keeps two names and a third that no payload below has. -/
def keeping (mode : ProjectionMode) : CompiledRoute where
  name := "notes"
  source := ⟨0, "in", "bus/in"⟩
  destinations := []
  filters := []
  projection := some (.keepFields "few" ["a", "z", "b", "a"] mode)
  codec := some (Schema.ofName "s" []).codec
  mode := .persistent

/-- A payload that mentions a name twice, the second time with an escape. -/
def repetitive : Message :=
  ⟨"\x7b\"b\": 1, \"x\": [1.5e0], \"a\": null, \"\\u0062\": 2\x7d".toUTF8, []⟩

/-- What is read of that payload. -/
def repetitiveFields : Fields :=
  [("b", .ofInt 2), ("x", .array [Schema.sampleNumber]), ("a", .null)]

/-- The last value counts in the place of the first, and one more pass changes nothing. A strict
projection misses the name that is not there. -/
theorem keepsFields_of_repetitive :
    (∃ sent, ((keeping .bestEffort).transcribe repetitive).outcome = .ok sent ∧
      sent.payload = "\x7b\"b\":2,\"a\":null\x7d".toUTF8 ∧
      ∀ m', m'.payload = sent.payload → ∃ sent',
        ((keeping .bestEffort).transcribe m').outcome = .ok sent' ∧
          sent'.payload = sent.payload) ∧
    ((keeping .strict).transcribe repetitive).outcome =
      .error (.projectionFailed (.missingField "few" "z")) := by
  have decoded : (Schema.ofName "s" []).decode repetitive.payload =
      .ok ⟨repetitiveFields, .fields repetitiveFields⟩ := by rfl
  have number : Schema.sampleNumber.FloatsReadBack := Value.floatsReadBack_float.mpr (by rfl)
  have keeps (mode : ProjectionMode) : (keeping mode).KeepsFields (Schema.ofName "s" []) "few"
      ["a", "z", "b", "a"] mode repetitive ⟨repetitiveFields, .fields repetitiveFields⟩ :=
    keepsFields rfl rfl rfl rfl decoded
  constructor
  · cases passed : ((keeping .bestEffort).transcribe repetitive).outcome with
    | error reason => cases ((keeps .bestEffort).dropped_iff.mp ⟨reason, passed⟩).1
    | ok sent =>
      have floats : (Value.object repetitiveFields).FloatsReadBack := by
        simp [repetitiveFields, number, Value.ofInt]
      refine ⟨sent, rfl, ?_, ((keeps .bestEffort).again floats sent passed).2⟩
      rw [(keeps .bestEffort).payload sent passed]
      rfl
  · obtain ⟨reason, dropped⟩ := (keeps .strict).dropped_iff.mpr ⟨rfl, "z", by decide, by decide⟩
    obtain ⟨before, field, after, split, there, missing, rfl⟩ :=
      (keeps .strict).reason reason dropped
    -- every name before "z" is there, and it is not, so it is the first that is missing
    obtain _ | ⟨first, _ | ⟨second, rest⟩⟩ := before
    · cases split
      exact absurd (by decide) missing
    · cases split
      exact dropped
    · simp only [List.cons_append, List.cons.injEq] at split
      obtain ⟨-, rfl, -⟩ := split
      exact absurd (there "z" (by simp)) (by decide)

end CompiledRoute

end MessageBridge
