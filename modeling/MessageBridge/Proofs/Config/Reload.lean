import MessageBridge.Proofs.Config.Text
import MessageBridge.Proofs.Config.Wiring
import MessageBridge.Proofs.Document.Dialects

/-!
# Configurations that are written and read again

A configuration is read from the relaxed notation and written as JSON, so reading it again means
reading JSON as the relaxed notation. Everything comes back (`Config.reload`): the readers of the
two dialects agree on what is written, since every number that was read settles. The one exception
is a text with a line separator in it, which JSON leaves as it is and the relaxed notation refuses
in a string; no such configuration can be read again.
-/

namespace MessageBridge

open Json (Value)
open Numeral (Settled)

/-! ## The dialects agree -/

namespace Document

theorem texts_agree : Agree (texts? .json) (texts? .relaxed) := list_agree text_agree

theorem sourcePoint_agree : Agree (sourcePoint? .json) (sourcePoint? .relaxed) :=
  record_agree "SourceConfig" (.cons (.required text_agree) (.cons (.required text_agree) .nil))

theorem targetPoint_agree : Agree (targetPoint? .json) (targetPoint? .relaxed) :=
  record_agree "TargetConfig" (.cons (.required text_agree) (.cons (.required text_agree) .nil))

theorem targetGroup_agree : Agree (targetGroup? .json) (targetGroup? .relaxed) :=
  record_agree "GroupReceiverConfig" (.cons (.required text_agree)
    (.cons (.required (list_agree targetPoint_agree)) .nil))

theorem modeSpec_agree : Agree (modeSpec? .json) (modeSpec? .relaxed) :=
  record_agree "ModeConfig" (.cons (.defaulted (choice_agree modeKinds))
    (.cons (.defaulted (optional_agree (natural_agree "u64" (Nat.le_refl _))))
      (.cons (.defaulted (optional_agree (natural_agree "u32" (by decide)))) .nil)))

theorem routeSpec_agree : Agree (routeSpec? .json) (routeSpec? .relaxed) :=
  record_agree "RouteConfig" (.cons (.required text_agree) (.cons (.required sourcePoint_agree)
    (.cons (.defaulted (optional_agree targetPoint_agree))
      (.cons (.defaulted (optional_agree text_agree)) (.cons (.defaulted modeSpec_agree)
        (.cons (.defaulted texts_agree)
          (.cons (.defaulted (optional_agree text_agree)) .nil)))))))

theorem schema_agree : Agree (schema? .json) (schema? .relaxed) :=
  record_agree "SchemaDescriptor" (.cons (.required text_agree)
    (.cons (.defaulted text_agree) (.cons (.defaulted texts_agree) .nil)))

theorem uint64_agree : Agree (uint64? .json) (uint64? .relaxed) :=
  natural_agree "u64" (Nat.le_refl _)

theorem bridgeSpec_agree : Agree (bridgeSpec? .json) (bridgeSpec? .relaxed) :=
  record_agree "BridgeConfig" (.cons (.defaulted uint64_agree) (.cons (.defaulted uint64_agree)
    (.cons (.defaulted uint64_agree) (.cons (.defaulted uint64_agree) .nil))))

theorem connectorSpec_agree : Agree (connectorSpec? .json) (connectorSpec? .relaxed) :=
  record_agree "ConnectorConfig" (.cons (.required text_agree)
    (.cons (.required (choice_agree connectorKinds))
      (.cons (.defaulted texts_agree) (.cons (.defaulted texts_agree) .nil))))

theorem sourceSchema_agree : Agree (sourceSchema? .json) (sourceSchema? .relaxed) :=
  record_agree "SourceSchema" (.cons (.required text_agree) (.cons (.required schema_agree) .nil))

/-- The dialects agree on configurations. -/
theorem config_agree : Agree (config? .json) (config? .relaxed) :=
  record_agree "Config" (.cons (.defaulted bridgeSpec_agree)
    (.cons (.required (list_agree connectorSpec_agree))
      (.cons (.defaulted (optional_agree schema_agree))
        (.cons (.defaulted (list_agree sourceSchema_agree))
          (.cons (.defaulted (list_agree targetGroup_agree))
            (.cons (.required (list_agree routeSpec_agree)) .nil))))))

end Document

/-! ## What is read settles -/

@[simp] theorem Json.Value.settled_ofStrings (texts : List String) : (ofStrings texts).Settled := by
  simp [ofStrings]

theorem forall_mem_optionalMember {name : String} {o : Option Value}
    {holds : String × Value → Prop} :
    (∀ m ∈ optionalMember name o, holds m) ↔ ∀ v ∈ o, holds (name, v) := by
  cases o with
  | none => simp [optionalMember]
  | some v => simp [optionalMember]

@[simp] theorem SourcePoint.settled_toJson (p : SourcePoint) : p.toJson.Settled := by
  simp [toJson]

@[simp] theorem TargetPoint.settled_toJson (p : TargetPoint) : p.toJson.Settled := by
  simp [toJson]

@[simp] theorem TargetGroup.settled_toJson (g : TargetGroup) : g.toJson.Settled := by
  simp [toJson]

@[simp] theorem Schema.settled_toJson (s : Schema) : s.toJson.Settled := by
  simp [toJson]

@[simp] theorem SourceSchema.settled_toJson (s : SourceSchema) : s.toJson.Settled := by
  simp [toJson]

@[simp] theorem ConnectorSpec.settled_toJson (c : ConnectorSpec) : c.toJson.Settled := by
  simp [toJson]

theorem ModeSpec.settled_toJson {m : ModeSpec} :
    m.toJson.Settled ↔ (∀ n ∈ m.ttlMs, Settled n) ∧ ∀ n ∈ m.maxAttempts, Settled n := by
  simp only [toJson, Value.settled_object, List.forall_mem_cons, List.forall_mem_append,
    forall_mem_optionalMember]
  simp

theorem RouteSpec.settled_toJson {r : RouteSpec} : r.toJson.Settled ↔ r.mode.toJson.Settled := by
  simp only [toJson, Value.settled_object, List.forall_mem_cons, List.forall_mem_append,
    forall_mem_optionalMember]
  simp

theorem BridgeSpec.settled_toJson {b : BridgeSpec} : b.toJson.Settled ↔
    Settled b.lanes ∧ Settled b.depth ∧ Settled b.retryInitialMs ∧ Settled b.retryMaxMs := by
  simp [toJson]

theorem Config.settled_toJson {c : Config} :
    c.toJson.Settled ↔ c.bridge.toJson.Settled ∧ ∀ r ∈ c.routes, r.mode.toJson.Settled := by
  have schema : ((c.defaultSchema.map Schema.toJson).getD .null).Settled := by
    cases c.defaultSchema <;> simp
  simp [toJson, schema, RouteSpec.settled_toJson]

/-- The numbers are in range and settle. -/
def BridgeSpec.Sound (b : BridgeSpec) : Prop := b.Fits ∧ b.toJson.Settled

/-- The bounds are in range and settle. -/
def ModeSpec.Sound (m : ModeSpec) : Prop := m.Fits ∧ m.toJson.Settled

/-- The numbers are in range and settle. -/
def Config.Sound (c : Config) : Prop := c.Fits ∧ c.toJson.Settled

theorem BridgeSpec.sound_standard : BridgeSpec.Sound {} := by
  have small {n : Nat} (bound : n < 10000) : n ≤ Document.maxUInt64 ∧ Settled n :=
    ⟨by rw [Document.maxUInt64]; omega, Numeral.settled_of_exact
      (Decimal.Binary64.exact_of_lt (by rw [Decimal.Binary64.mantissaBound]; omega))⟩
  have lanes := small (n := 16) (by decide)
  have depth := small (n := 8192) (by decide)
  have first := small (n := 50) (by decide)
  have last := small (n := 5000) (by decide)
  exact ⟨⟨lanes.1, depth.1, first.1, last.1⟩,
    settled_toJson.mpr ⟨lanes.2, depth.2, first.2, last.2⟩⟩

theorem Config.sound_iff {c : Config} :
    c.Sound ↔ c.bridge.Sound ∧ ∀ r ∈ c.routes, r.mode.Sound := by
  rw [Sound, Fits, settled_toJson]
  constructor
  · rintro ⟨⟨bridge, routes⟩, settled, settles⟩
    exact ⟨⟨bridge, settled⟩, fun r mem ↦ ⟨routes r mem, settles r mem⟩⟩
  · rintro ⟨⟨bridge, settled⟩, routes⟩
    exact ⟨⟨bridge, fun r mem ↦ (routes r mem).1⟩, settled, fun r mem ↦ (routes r mem).2⟩

namespace Document

theorem sound_of_bridgeSpec? {d : Document} {b : BridgeSpec}
    (read : bridgeSpec? .relaxed d = .ok b) : b.Sound := by
  have value (d : Document) (n : Nat) (read : uint64? .relaxed d = .ok n) :
      n ≤ maxUInt64 ∧ Settled n := settled_of_natural? Numeral.settled_maxUInt64 read
  refine of_record? BridgeSpec.Sound ?_ BridgeSpec.sound_standard read
  simp only [List.forall_mem_cons]
  refine ⟨Field.keeps_of_value value ?_, Field.keeps_of_value value ?_,
    Field.keeps_of_value value ?_, Field.keeps_of_value value ?_, by simp⟩
  all_goals
    intro n b fits sound
    simp only [BridgeSpec.Sound, BridgeSpec.Fits, BridgeSpec.settled_toJson] at sound ⊢
    grind

theorem sound_of_modeSpec? {d : Document} {m : ModeSpec}
    (read : modeSpec? .relaxed d = .ok m) : m.Sound := by
  have bound : Settled maxUInt32 :=
    Numeral.settled_of_exact (Decimal.Binary64.exact_of_lt (by decide))
  refine of_record? ModeSpec.Sound ?_ ?_ read
  · simp only [List.forall_mem_cons]
    refine ⟨Field.keeps_of_apart ?_,
      Field.keeps_of_value (fun _ _ ↦ of_optional? fun _ _ ↦
        settled_of_natural? Numeral.settled_maxUInt64) ?_,
      Field.keeps_of_value (fun _ _ ↦ of_optional? fun _ _ ↦ settled_of_natural? bound) ?_,
      by simp⟩
    · intro kind m sound
      simpa only [ModeSpec.Sound, ModeSpec.Fits, ModeSpec.settled_toJson] using sound
    all_goals
      intro o m fits sound
      simp only [ModeSpec.Sound, ModeSpec.Fits, ModeSpec.settled_toJson] at sound ⊢
      grind
  · simp [ModeSpec.Sound, ModeSpec.Fits, ModeSpec.settled_toJson]

theorem sound_of_routeSpec? {d : Document} {r : RouteSpec}
    (read : routeSpec? .relaxed d = .ok r) : r.mode.Sound := by
  refine of_record? (fun r ↦ r.mode.Sound) ?_ ?_ read
  · simp only [List.forall_mem_cons]
    exact ⟨Field.keeps_of_apart fun _ _ sound ↦ sound, Field.keeps_of_apart fun _ _ sound ↦ sound,
      Field.keeps_of_apart fun _ _ sound ↦ sound, Field.keeps_of_apart fun _ _ sound ↦ sound,
      Field.keeps_of_value (fun _ _ ↦ sound_of_modeSpec?) fun _ _ sound _ ↦ sound,
      Field.keeps_of_apart fun _ _ sound ↦ sound, Field.keeps_of_apart fun _ _ sound ↦ sound,
      by simp⟩
  · simp [ModeSpec.Sound, ModeSpec.Fits, ModeSpec.settled_toJson]

/-- The numbers of a configuration that is read are in range and settle. -/
theorem sound_of_config? {d : Document} {c : Config} (read : config? .relaxed d = .ok c) :
    c.Sound := by
  rw [Config.sound_iff]
  refine of_record? (fun c ↦ c.bridge.Sound ∧ ∀ r ∈ c.routes, r.mode.Sound) ?_ ?_ read
  · simp only [List.forall_mem_cons]
    exact ⟨Field.keeps_of_value (fun _ _ ↦ sound_of_bridgeSpec?) fun _ _ bridge sound ↦
        ⟨bridge, sound.2⟩,
      Field.keeps_of_apart fun _ _ sound ↦ sound, Field.keeps_of_apart fun _ _ sound ↦ sound,
      Field.keeps_of_apart fun _ _ sound ↦ sound, Field.keeps_of_apart fun _ _ sound ↦ sound,
      Field.keeps_of_value (fun _ _ ↦ of_list? fun _ _ ↦ sound_of_routeSpec?)
        fun _ _ routes sound ↦ ⟨sound.1, routes⟩, by simp⟩
  · exact ⟨BridgeSpec.sound_standard, by simp⟩

end Document

/-! ## Texts -/

/-- The texts of a source point. -/
def SourcePoint.texts (p : SourcePoint) : List String := [p.connector, p.source]

/-- The texts of a target point. -/
def TargetPoint.texts (p : TargetPoint) : List String := [p.connector, p.target]

/-- The texts of a group. -/
def TargetGroup.texts (g : TargetGroup) : List String :=
  g.name :: g.targets.flatMap TargetPoint.texts

/-- The texts of a route. -/
def RouteSpec.texts (r : RouteSpec) : List String :=
  r.name :: (r.source.texts ++ r.target.toList.flatMap TargetPoint.texts ++ r.group.toList ++
    r.filters ++ r.projection.toList)

/-- The texts of a schema. -/
def Schema.texts (s : Schema) : List String := s.name :: s.contentType :: s.requiredFields

/-- The texts of the schema of a source. -/
def SourceSchema.texts (s : SourceSchema) : List String := s.source :: s.schema.texts

/-- The texts of a connector. -/
def ConnectorSpec.texts (c : ConnectorSpec) : List String := c.name :: (c.sources ++ c.targets)

/-- The texts of a configuration: all that is declared in it but numbers and kinds. -/
def Config.texts (c : Config) : List String :=
  c.connectors.flatMap ConnectorSpec.texts ++ c.defaultSchema.toList.flatMap Schema.texts ++
    c.schemas.flatMap SourceSchema.texts ++ c.groups.flatMap TargetGroup.texts ++
      c.routes.flatMap RouteSpec.texts

open Relaxed (Unbroken)

@[simp] theorem Relaxed.unbroken_ofStrings {texts : List String} :
    Unbroken (Value.ofStrings texts).toChars ↔ ∀ t ∈ texts, Unbroken t.toList := by
  simp [Value.ofStrings]

theorem SourcePoint.unbroken_toJson {p : SourcePoint} :
    Unbroken p.toJson.toChars ↔ ∀ t ∈ p.texts, Unbroken t.toList := by
  simp [toJson, texts, Relaxed.isSeparator]

theorem TargetPoint.unbroken_toJson {p : TargetPoint} :
    Unbroken p.toJson.toChars ↔ ∀ t ∈ p.texts, Unbroken t.toList := by
  simp [toJson, texts, Relaxed.isSeparator]

theorem TargetGroup.unbroken_toJson {g : TargetGroup} :
    Unbroken g.toJson.toChars ↔ ∀ t ∈ g.texts, Unbroken t.toList := by
  simp only [texts, List.forall_mem_cons, List.forall_mem_flatMap]
  simp [toJson, Relaxed.isSeparator, TargetPoint.unbroken_toJson]

theorem ModeSpec.unbroken_toJson (m : ModeSpec) : Unbroken m.toJson.toChars := by
  have kind : Unbroken m.kind.name.toList := by cases m.kind <;> decide
  simp only [toJson, Relaxed.unbroken_object, List.forall_mem_cons, List.forall_mem_append,
    forall_mem_optionalMember]
  simp [Relaxed.isSeparator, kind, Value.ofNat]

theorem RouteSpec.unbroken_toJson {r : RouteSpec} :
    Unbroken r.toJson.toChars ↔ ∀ t ∈ r.texts, Unbroken t.toList := by
  simp only [texts, List.forall_mem_cons, List.forall_mem_append, List.forall_mem_flatMap, toJson,
    Relaxed.unbroken_object, forall_mem_optionalMember]
  simp [Relaxed.isSeparator, SourcePoint.unbroken_toJson, TargetPoint.unbroken_toJson,
    ModeSpec.unbroken_toJson, and_assoc]

theorem Schema.unbroken_toJson {s : Schema} :
    Unbroken s.toJson.toChars ↔ ∀ t ∈ s.texts, Unbroken t.toList := by
  simp [toJson, texts, Relaxed.isSeparator]

theorem SourceSchema.unbroken_toJson {s : SourceSchema} :
    Unbroken s.toJson.toChars ↔ ∀ t ∈ s.texts, Unbroken t.toList := by
  simp [toJson, texts, Relaxed.isSeparator, Schema.unbroken_toJson]

theorem ConnectorSpec.unbroken_toJson {c : ConnectorSpec} :
    Unbroken c.toJson.toChars ↔ ∀ t ∈ c.texts, Unbroken t.toList := by
  have kind : Unbroken c.kind.name.toList := by cases c.kind; decide
  simp only [texts, List.forall_mem_cons, List.forall_mem_append]
  simp [toJson, Relaxed.isSeparator, kind]

theorem BridgeSpec.unbroken_toJson (b : BridgeSpec) : Unbroken b.toJson.toChars := by
  simp [toJson, Relaxed.isSeparator, Value.ofNat]

/-- The text of a configuration holds a separator just when one of its texts does. -/
theorem Config.unbroken_toJson {c : Config} :
    Unbroken c.toJson.toChars ↔ ∀ t ∈ c.texts, Unbroken t.toList := by
  have schema : Unbroken ((c.defaultSchema.map Schema.toJson).getD .null).toChars ↔
      ∀ s ∈ c.defaultSchema.toList, ∀ t ∈ s.texts, Unbroken t.toList := by
    cases c.defaultSchema with
    | none => simp
    | some s => simp [Schema.unbroken_toJson]
  simp only [texts, List.forall_mem_append, List.forall_mem_flatMap]
  simp [toJson, Relaxed.isSeparator, schema, BridgeSpec.unbroken_toJson,
    ConnectorSpec.unbroken_toJson, SourceSchema.unbroken_toJson, TargetGroup.unbroken_toJson,
    RouteSpec.unbroken_toJson, and_assoc]

/-! ## Reloading -/

namespace Config

/-- What it takes for a text to declare a configuration. -/
theorem ofString?_eq_ok_iff {text : String} {c : Config} : ofString? text = .ok c ↔
    ∃ d, Document.ofRelaxed? text = some d ∧ Document.config? .relaxed d = .ok c ∧
      firstRepeated? [] (c.connectors.map ConnectorSpec.name) = none := by
  constructor
  · intro read
    rw [ofString?] at read
    split at read
    · cases read
    rename_i d scanned
    split at read
    · cases read
    rename_i config declares
    split at read
    · cases read
    · rename_i distinct
      cases read
      exact ⟨d, scanned, declares, distinct⟩
  · rintro ⟨d, scanned, declares, distinct⟩
    simp only [ofString?, scanned, declares, distinct]

/-- **A configuration that was read is read again from its own text**, and is the same, unless one
of its texts holds a line separator: then its own text is refused. -/
theorem reload {text : String} {c : Config} (read : ofString? text = .ok c) :
    ofString? c.toJson.render =
      if ∀ t ∈ c.texts, Unbroken t.toList then .ok c else .error .malformed := by
  obtain ⟨_, -, declares, distinct⟩ := ofString?_eq_ok_iff.mp read
  obtain ⟨fits, settled⟩ := Document.sound_of_config? declares
  obtain ⟨floats, readable⟩ := lossless.textual c fits
  have scanned := Document.ofRelaxed?_render (readable _ (Nat.le_refl _)) floats
  split
  · rename_i whole
    rw [if_pos (unbroken_toJson.mpr whole)] at scanned
    have again := Document.config_agree c.toJson c settled (lossless.back c fits)
    exact ofString?_eq_ok_iff.mpr ⟨_, scanned, again, distinct⟩
  · rename_i broken
    rw [if_neg (mt unbroken_toJson.mp broken)] at scanned
    rw [ofString?, scanned]

/-- A declaration whose records are lists, with numbers that no binary64 number is, numbers that are
out of range, and characters in a name that each notation escapes in its own way. -/
def extremeText : String :=
  "[[0x10, 1e30, -1, 9007199254740993], [], ['\\u0001\\v\\'\"'], [], [], []]"

/-- What that text declares. -/
def extreme : Config :=
  { bridge := ⟨16, 18446744073709551615, 0, 9007199254740992⟩
    defaultSchema := some (Schema.ofName "\x01\x0b'\"" []) }

theorem reload_of_extremes :
    ofString? extremeText = .ok extreme ∧ ofString? extreme.toJson.render = .ok extreme := by
  have read : ofString? extremeText = .ok extreme := by decide +kernel
  have whole : ∀ t ∈ extreme.texts, Unbroken t.toList := by decide +kernel
  exact ⟨read, (reload read).trans (if_pos whole)⟩

/-- A declaration of a connector whose name ends in a line separator, given by an escape. -/
def separatedText : String := "[[], [['a\\u2028', 'memory']], null, [], [], []]"

/-- What that text declares. -/
def separated : Config := { connectors := [⟨"a\u2028", .memory, [], []⟩] }

/-- A line separator is written as it is, where the relaxed notation does not read it. -/
theorem separated_not_reloaded :
    ofString? separatedText = .ok separated ∧
      ofString? separated.toJson.render = .error .malformed := by
  have stuck : (Relaxed.pieces? separated.toJson.toChars).isNone = true := by decide +kernel
  refine ⟨by decide +kernel, ?_⟩
  rw [ofString?, Document.ofRelaxed?, Value.render, String.toList_ofList,
    Option.isNone_iff_eq_none.mp stuck, Option.bind_none]

end Config

end MessageBridge
