import MessageBridge.Codec
import MessageBridge.Proofs.Json.ReadBack

/-!
# Payloads and fields

Encoding some fields and decoding the bytes gives these fields again, in the order of the template;
a payload that was decoded is encoded to one that decodes alike, and from then on nothing changes.

Arranging fields after a template permutes them: an entry stands in the arranged table exactly if it
is one of the fields (`mem_arrange`). Both tables repeat no name, so what stands under a name is the
same in both, and fields arranged after themselves are as they were.

That a fraction reads back is a property of its text (`Value.FloatsReadBack`) and is asked for
wherever it is needed. All else that reading needs holds of every value that was read.
-/

namespace MessageBridge

open Json (Fields Value)
open Json.Value (depthLimit)

variable {schema : Schema} {template fields : Fields} {bytes payload : ByteArray}
  {d : Decoded}

namespace Schema

/-! ## Fields after a template -/

/-- The names that fields have after a template. -/
def order (template fields : Fields) : List String :=
  (Named.names template).filter (· ∈ Named.names fields) ++
    (Named.names fields).filter (· ∉ Named.names template)

theorem names_arrange (template fields : Fields) :
    Named.names (arrange template fields) = order template fields := by
  have known (keys : List String) :
      Named.names (keys.filterMap fun key ↦ (Named.get? key fields).map fun v ↦ (key, v)) =
        keys.filter (· ∈ Named.names fields) := by
    induction keys with
    | nil => rfl
    | cons key rest ih =>
      cases found : Named.get? key fields with
      | none =>
        rw [List.filterMap_cons_none (by rw [found]; rfl), ih,
          List.filter_cons_of_neg (by simpa using Named.get?_eq_none_iff.mp found)]
      | some v =>
        rw [List.filterMap_cons_some (by rw [found]; rfl),
          List.filter_cons_of_pos (by simpa using Named.mem_names_iff.mpr ⟨v, found⟩), ← ih]
        rfl
  have other : Named.names (fields.filter fun entry ↦ !Named.contains entry.1 template) =
      (Named.names fields).filter (· ∉ Named.names template) := by
    rw [Named.names, Named.names.eq_def fields, List.filter_map]
    congr 2
    funext entry
    simp [← Named.contains_iff]
  rw [arrange, Named.names, List.map_append]
  exact congrArg₂ _ (known _) other

theorem distinct_arrange (template_distinct : Named.Distinct template)
    (distinct : Named.Distinct fields) : Named.Distinct (arrange template fields) := by
  rw [Named.Distinct, names_arrange, order]
  refine List.Nodup.append (template_distinct.filter _) (distinct.filter _) ?_
  intro name first second
  simp only [List.mem_filter, decide_eq_true_eq] at first second
  exact second.2 first.1

theorem mem_arrange (distinct : Named.Distinct fields) {entry : String × Value} :
    entry ∈ arrange template fields ↔ entry ∈ fields := by
  obtain ⟨key, v⟩ := entry
  simp only [arrange, List.mem_append, List.mem_filterMap, Option.map_eq_some_iff, Prod.mk.injEq,
    List.mem_filter, Bool.not_eq_true']
  constructor
  · rintro (⟨name, -, value, found, rfl, rfl⟩ | ⟨mem, -⟩)
    · exact Named.mem_of_get? found
    · exact mem
  · intro mem
    by_cases there : key ∈ Named.names template
    · exact .inl ⟨key, there, v, Named.get?_of_mem distinct mem, rfl, rfl⟩
    · exact .inr ⟨mem, by simpa [← Named.contains_iff] using there⟩

theorem get?_arrange (template_distinct : Named.Distinct template)
    (distinct : Named.Distinct fields) (key : String) :
    Named.get? key (arrange template fields) = Named.get? key fields := by
  have arranged := distinct_arrange template_distinct distinct
  refine Option.ext fun v ↦ ?_
  constructor
  · intro found
    exact Named.get?_of_mem distinct ((mem_arrange distinct).mp (Named.mem_of_get? found))
  · intro found
    exact Named.get?_of_mem arranged ((mem_arrange distinct).mpr (Named.mem_of_get? found))

/-- Fields arranged after themselves are as they were. -/
theorem arrange_self (distinct : Named.Distinct fields) : arrange fields fields = fields := by
  have all : (Named.names fields).filterMap
      (fun key ↦ (Named.get? key fields).map fun v ↦ (key, v)) = fields := by
    rw [Named.names, List.filterMap_map]
    refine (List.filterMap_congr fun entry mem ↦ ?_).trans List.filterMap_some
    rw [Function.comp_apply, Named.get?_of_mem distinct mem]
    rfl
  have none_left : fields.filter (fun entry ↦ !Named.contains entry.1 fields) = [] := by
    rw [List.filter_eq_nil_iff]
    intro entry mem
    simp [Named.contains_iff.mpr (Named.mem_names_iff.mpr ⟨_, Named.get?_of_mem distinct mem⟩)]
  rw [arrange, all, none_left, List.append_nil]

/-! ## Payloads -/

theorem decode_eq_ok_iff : schema.decode bytes = .ok d ↔
    (Value.ofBytes? bytes = some (.object d.fields) ∧ d.retained = .fields d.fields) ∧
      ∀ name ∈ schema.requiredFields, name ∈ Named.names d.fields := by
  have complete (fields : Fields) : schema.firstMissing? fields = none ↔
      ∀ name ∈ schema.requiredFields, name ∈ Named.names fields := by
    simp [firstMissing?, Named.contains_iff]
  obtain ⟨fields, retained⟩ := d
  rw [← complete, decode]
  split
  · rename_i read
    simp [read]
  · rename_i object read
    rw [read]
    split
    · rename_i missing
      constructor
      · nofun
      · rintro ⟨⟨same, -⟩, none_missing⟩
        cases same
        rw [missing] at none_missing
        cases none_missing
    · rename_i none_missing
      constructor
      · rintro ⟨⟩
        exact ⟨⟨rfl, rfl⟩, none_missing⟩
      · rintro ⟨⟨same, kept⟩, -⟩
        cases same
        exact congrArg (fun r ↦ Except.ok (Decoded.mk fields r)) kept.symm
  · rename_i other read
    constructor
    · nofun
    · rintro ⟨⟨same, -⟩, -⟩
      exact absurd (Option.some.inj (read.symm.trans same)) (other _)

/-- The fields of a decoded payload are what reading yields. -/
theorem readable_of_decode (decoded : schema.decode bytes = .ok d) :
    (Value.object d.fields).Readable depthLimit :=
  Value.readable_of_ofBytes? (decode_eq_ok_iff.mp decoded).1.1

theorem distinct_of_readable {room : Nat} (readable : (Value.object fields).Readable room) :
    Named.Distinct fields := by
  cases readable with
  | object distinct _ => exact distinct

/-- What may serve as a template: nothing, or what some codec kept of some payload; and the fields
that it has. -/
inductive Template : Option Retained → Fields → Prop where
  | none : Template none []
  | decoded {origin : Schema} {payload : ByteArray} {d : Decoded} {kept : Fields} :
      origin.decode payload = .ok d → d.retained = .fields kept → Template (some d.retained) kept

theorem Template.distinct {template : Option Retained} {kept : Fields}
    (serves : Template template kept) : Named.Distinct kept := by
  cases serves with
  | none => exact List.nodup_nil
  | decoded decoded retained =>
    have same := (decode_eq_ok_iff.mp decoded).1.2
    rw [retained, Retained.fields.injEq] at same
    rw [same]
    exact distinct_of_readable (readable_of_decode decoded)

theorem arrange_nil (fields : Fields) : arrange [] fields = fields := by
  simp [arrange, Named.names, Named.contains]

theorem encode_of_template {template : Option Retained} {kept : Fields}
    (serves : Template template kept) (fields : Fields) :
    schema.encode fields template = .ok (objectBytes (arrange kept fields)) := by
  cases serves with
  | none => rw [arrange_nil, encode]
  | decoded _ retained => rw [retained, encode]

/-- Arranging fields leaves them as readable as they were. -/
theorem readable_arrange {room : Nat} (readable : (Value.object fields).Readable room)
    (template_distinct : Named.Distinct template) :
    (Value.object (arrange template fields)).Readable room := by
  cases readable with
  | object distinct members =>
    exact .object (distinct_arrange template_distinct distinct) fun m mem ↦
      members m ((mem_arrange distinct).mp mem)

theorem floats_arrange (distinct : Named.Distinct fields)
    (floats : (Value.object fields).FloatsReadBack) :
    (Value.object (arrange template fields)).FloatsReadBack := by
  rw [Value.floatsReadBack_object] at floats ⊢
  exact fun m mem ↦ floats m ((mem_arrange distinct).mp mem)

/-- The fields that were written are read by every codec that requires none but these. -/
theorem decode_objectBytes (readable : (Value.object fields).Readable depthLimit)
    (floats : (Value.object fields).FloatsReadBack)
    (present : ∀ name ∈ schema.requiredFields, name ∈ Named.names fields) :
    schema.decode (objectBytes fields) = .ok ⟨fields, .fields fields⟩ :=
  decode_eq_ok_iff.mpr ⟨⟨Value.ofBytes?_render readable floats, rfl⟩, present⟩

end Schema

/-! ## Round trips -/

/-- The decoded payload carries just these fields, in the order of the template. -/
structure Decoded.Carries (d : Decoded) (fields template : Fields) : Prop where
  values : ∀ key, Named.get? key d.fields = Named.get? key fields
  order : Named.names d.fields = Schema.order template fields

namespace Schema

/-- A payload decoded and encoded again, with what was kept of it as the template. -/
def recode (schema : Schema) (payload : ByteArray) : Except CodecError ByteArray :=
  (schema.decode payload).bind fun d ↦ schema.encode d.fields (some d.retained)

theorem recode_of_decode (decoded : schema.decode payload = .ok d) :
    schema.recode payload = .ok (objectBytes d.fields) := by
  have kept : d.retained = .fields d.fields := (decode_eq_ok_iff.mp decoded).1.2
  have same : arrange d.fields d.fields = d.fields :=
    arrange_self (distinct_of_readable (readable_of_decode decoded))
  rw [recode, decoded]
  change schema.encode d.fields (some d.retained) = _
  rw [kept, encode, same]

theorem decode_encode {template : Option Retained} {kept : Fields}
    (readable : (Value.object fields).Readable depthLimit)
    (floats : (Value.object fields).FloatsReadBack) (serves : Template template kept) :
    ∃ bytes, schema.encode fields template = .ok bytes ∧
      ∀ reader : Schema, (∀ name ∈ reader.requiredFields, name ∈ Named.names fields) →
        ∃ d, reader.decode bytes = .ok d ∧ d.Carries fields kept := by
  have distinct := distinct_of_readable readable
  refine ⟨_, encode_of_template serves fields, fun reader present ↦
    ⟨⟨arrange kept fields, .fields (arrange kept fields)⟩, ?_, ?_⟩⟩
  · refine decode_objectBytes (readable_arrange readable serves.distinct)
      (floats_arrange distinct floats) fun name required ↦ ?_
    rw [Named.mem_names_iff, get?_arrange serves.distinct distinct, ← Named.mem_names_iff]
    exact present name required
  · exact ⟨get?_arrange serves.distinct distinct, names_arrange kept fields⟩

theorem decode_recode (decoded : schema.decode payload = .ok d)
    (floats : (Value.object d.fields).FloatsReadBack) :
    ∃ bytes, schema.recode payload = .ok bytes ∧ schema.decode bytes = .ok d ∧
      schema.recode bytes = .ok bytes := by
  obtain ⟨⟨read, kept⟩, present⟩ := decode_eq_ok_iff.mp decoded
  have again : schema.decode (objectBytes d.fields) = .ok d := by
    have same : d = ⟨d.fields, .fields d.fields⟩ := congrArg (Decoded.mk d.fields) kept
    rw [same]
    exact decode_objectBytes (Value.readable_of_ofBytes? read) floats present
  exact ⟨_, recode_of_decode decoded, again, recode_of_decode again⟩

/-- **What is encoded decodes to the fields it was encoded from**, under every codec that requires
none but these and whatever template it was arranged after; and a payload that decodes is encoded to
one that decodes to the same, from which encoding and decoding lead nowhere else. -/
theorem round_trip (schema : Schema) :
    (∀ {fields : Fields} {template : Option Retained} {kept : Fields},
      (Value.object fields).Readable depthLimit → (Value.object fields).FloatsReadBack →
      Template template kept →
      ∃ bytes, schema.encode fields template = .ok bytes ∧
        ∀ reader : Schema, (∀ name ∈ reader.requiredFields, name ∈ Named.names fields) →
          ∃ d, reader.decode bytes = .ok d ∧ d.Carries fields kept) ∧
    ∀ {payload : ByteArray} {d : Decoded}, schema.decode payload = .ok d →
      (Value.object d.fields).FloatsReadBack →
      ∃ bytes, schema.recode payload = .ok bytes ∧ schema.decode bytes = .ok d ∧
        schema.recode bytes = .ok bytes :=
  ⟨decode_encode, decode_recode⟩

/-- One and a half. -/
def sampleNumber : Value := .number (.float ⟨false, 6755399441055744, -52⟩)

/-- A fraction in a list, and a name that is written with an escape. -/
def sampleFields : Fields :=
  [("b", .array [sampleNumber, .null]), ("\n", .ofInt (-1)), ("a", .null)]

/-- A payload with two of these names, in the other order. -/
def samplePayload : ByteArray := "\x7b\"a\": \"x\", \"c\":[ ],\"b\": 1.5e0\x7d".toUTF8

/-- What is read of that payload. -/
def sampleDecoded : Decoded :=
  let fields : Fields := [("a", .string "x"), ("c", .array []), ("b", sampleNumber)]
  ⟨fields, .fields fields⟩

theorem round_trip_sample :
    (∃ bytes d, (ofName "s" []).encode sampleFields (some sampleDecoded.retained) = .ok bytes ∧
      (ofName "t" ["\n"]).decode bytes = .ok d ∧ Named.names d.fields = ["a", "b", "\n"] ∧
      Named.get? "b" d.fields = some (.array [sampleNumber, .null])) ∧
    ∃ bytes, (ofName "s" ["a"]).recode samplePayload = .ok bytes ∧
      (ofName "s" ["a"]).decode bytes = .ok sampleDecoded := by
  have decoded : (ofName "s" ["a"]).decode samplePayload = .ok sampleDecoded := by rfl
  have number : sampleNumber.FloatsReadBack := Value.floatsReadBack_float.mpr (by rfl)
  have readable : (Value.object sampleFields).Readable (126 + 1) := by
    refine .object (by decide) ?_
    simp only [sampleFields, List.forall_mem_cons]
    exact ⟨.array (by simpa using ⟨.number trivial, .null⟩), .number (by decide), .null, nofun⟩
  constructor
  · obtain ⟨bytes, written, reads⟩ := (round_trip (ofName "s" [])).1 readable
      (by simp [sampleFields, number, Value.ofInt]) (.decoded decoded rfl)
    obtain ⟨d, read, carries⟩ := reads (ofName "t" ["\n"]) (by decide)
    exact ⟨bytes, d, written, read, carries.order, carries.values "b"⟩
  · obtain ⟨bytes, written, read, -⟩ :=
      (round_trip (ofName "s" ["a"])).2 decoded (by simp [sampleDecoded, number])
    exact ⟨bytes, written, read⟩

end Schema

end MessageBridge
