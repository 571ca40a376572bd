import MessageBridge.Proofs.Document.Records

/-!
# Route tables are written and read without loss

The records of a route table are described by their slots, from the points to the table itself. The
readers and writers are those of the slots, so everything follows from the law of records: a table
is read back from its own text, and whatever an operator writes is kept by the table that is read
(`RouteTable.keeps_every_setting`).
-/

namespace MessageBridge

open Json (Value)
open Document (Shape Slot Slots Lossless text_lossless natural_lossless list_lossless
  choice_lossless record_lossless text? list? natural? choice? maxUInt64 maxUInt32)

/-- A slot for a text that must be present. -/
def Document.Slot.text {σ : Type} (name : String) (get : σ → String) (set : String → σ → σ) :
    Slot σ :=
  .always name true .atom get set (text? .json) .string fun _ ↦ True

theorem Document.Slot.lossless_text {σ : Type} {name : String} {get : σ → String}
    {set : String → σ → σ} {initial : σ} : (Slot.text name get set).Lossless initial :=
  Slot.lossless_always text_lossless trivial

/-! ## Points and groups -/

namespace SourcePoint

/-- How a source point is declared. -/
def shape : Shape := .record [⟨"connector", false, .atom⟩, ⟨"source", false, .atom⟩]

/-- The slots of a source point. -/
def slots : List (Slot SourcePoint) :=
  [ .text "connector" connector fun v p ↦ { p with connector := v },
    .text "source" source fun v p ↦ { p with source := v } ]

theorem slots_ok : Slots slots default := by
  constructor
  · decide
  · simp [slots, Slot.text, Slot.always]
  · simp [slots, Slot.text, Slot.always]
  · rintro ⟨_, _⟩ ⟨_, _⟩
    simp [slots, Slot.text, Slot.always]
  · simp only [slots, List.forall_mem_cons]
    exact ⟨Slot.lossless_text, Slot.lossless_text, nofun⟩

theorem lossless : Lossless shape (Document.sourcePoint? .json) toJson fun _ ↦ True :=
  (record_lossless "SourceConfig" slots_ok).of_eq (fun _ ↦ rfl)
    (by simp [slots, Slot.text, Slot.always])

end SourcePoint

namespace TargetPoint

/-- How a target point is declared. -/
def shape : Shape := .record [⟨"connector", false, .atom⟩, ⟨"target", false, .atom⟩]

/-- The slots of a target point. -/
def slots : List (Slot TargetPoint) :=
  [ .text "connector" connector fun v p ↦ { p with connector := v },
    .text "target" target fun v p ↦ { p with target := v } ]

theorem slots_ok : Slots slots default := by
  constructor
  · decide
  · simp [slots, Slot.text, Slot.always]
  · simp [slots, Slot.text, Slot.always]
  · rintro ⟨_, _⟩ ⟨_, _⟩
    simp [slots, Slot.text, Slot.always]
  · simp only [slots, List.forall_mem_cons]
    exact ⟨Slot.lossless_text, Slot.lossless_text, nofun⟩

theorem lossless : Lossless shape (Document.targetPoint? .json) toJson fun _ ↦ True :=
  (record_lossless "TargetConfig" slots_ok).of_eq (fun _ ↦ rfl)
    (by simp [slots, Slot.text, Slot.always])

end TargetPoint

namespace TargetGroup

/-- How a group is declared. -/
def shape : Shape := .record [⟨"name", false, .atom⟩, ⟨"targets", false, .list TargetPoint.shape⟩]

/-- The slots of a group. -/
def slots : List (Slot TargetGroup) :=
  [ .text "name" name fun v g ↦ { g with name := v },
    .always "targets" true (.list TargetPoint.shape) targets (fun v g ↦ { g with targets := v })
      (list? .json (Document.targetPoint? .json)) (fun ps ↦ .array (ps.map TargetPoint.toJson))
      fun ps ↦ ∀ p ∈ ps, True ]

theorem slots_ok : Slots slots default := by
  constructor
  · decide
  · simp [slots, Slot.text, Slot.always]
  · simp [slots, Slot.text, Slot.always]
  · rintro ⟨_, _⟩ ⟨_, _⟩
    simp [slots, Slot.text, Slot.always]
  · simp only [slots, List.forall_mem_cons]
    exact ⟨Slot.lossless_text,
      Slot.lossless_always (list_lossless TargetPoint.lossless) fun _ _ ↦ trivial, nofun⟩

theorem lossless : Lossless shape (Document.targetGroup? .json) toJson fun _ ↦ True :=
  (record_lossless "GroupReceiverConfig" slots_ok).of_eq (fun _ ↦ rfl)
    (by simp [slots, Slot.text, Slot.always])

end TargetGroup

/-! ## Modes and routes -/

namespace ModeSpec

/-- How a mode is declared. -/
def shape : Shape :=
  .record [⟨"type", false, .variant⟩, ⟨"ttl_ms", true, .atom⟩, ⟨"max_attempts", true, .atom⟩]

/-- The bounds have 64 and 32 bits. -/
def Fits (m : ModeSpec) : Prop :=
  (∀ n ∈ m.ttlMs, n ≤ maxUInt64) ∧ ∀ n ∈ m.maxAttempts, n ≤ maxUInt32

/-- The slots of a mode. -/
def slots : List (Slot ModeSpec) :=
  [ .always "type" false .variant kind (fun v m ↦ { m with kind := v })
      (choice? .json Document.modeKinds) (fun k ↦ .string k.name) fun _ ↦ True,
    .maybe "ttl_ms" .atom ttlMs (fun v m ↦ { m with ttlMs := v })
      (natural? .json "u64" maxUInt64) .ofNat fun n ↦ n ≤ maxUInt64,
    .maybe "max_attempts" .atom maxAttempts (fun v m ↦ { m with maxAttempts := v })
      (natural? .json "u32" maxUInt32) .ofNat fun n ↦ n ≤ maxUInt32 ]

theorem kind_lossless : Lossless .variant (choice? .json Document.modeKinds)
    (fun k ↦ .string k.name) fun _ ↦ True := by
  refine choice_lossless (fun k ↦ ?_) fun n k found ↦ ?_
  · cases k with
    | persistent => rfl
    | drop => rfl
  · have listed := Named.mem_of_get? found
    simp only [Document.modeKinds, List.mem_cons, Prod.mk.injEq, List.not_mem_nil,
      or_false] at listed
    rcases listed with ⟨rfl, rfl⟩ | ⟨rfl, rfl⟩
    · rfl
    · rfl

theorem slots_ok : Slots slots {} := by
  constructor
  · decide
  · simp [slots, Slot.always, Slot.maybe]
  · simp [slots, Slot.always, Slot.maybe]
  · rintro ⟨_, _, _⟩ ⟨_, _, _⟩
    simp +contextual [slots, Slot.always, Slot.maybe]
  · simp only [slots, List.forall_mem_cons]
    exact ⟨Slot.lossless_always kind_lossless trivial,
      Slot.lossless_maybe (natural_lossless "u64" (Nat.le_refl _)) nofun rfl,
      Slot.lossless_maybe (natural_lossless "u32" (by decide)) nofun rfl, nofun⟩

theorem lossless : Lossless shape (Document.modeSpec? .json) toJson Fits :=
  (record_lossless "ModeConfig" slots_ok).of_eq
    (fun _ ↦ by simp [slots, toJson, Slot.member, Slot.always, Slot.maybe, optionalMember])
    (by simp [slots, Slot.always, Slot.maybe, Fits])

end ModeSpec

namespace RouteSpec

/-- How a route is declared. -/
def shape : Shape :=
  .record [⟨"name", false, .atom⟩, ⟨"from", false, SourcePoint.shape⟩,
    ⟨"to", true, TargetPoint.shape⟩, ⟨"to_group", true, .atom⟩, ⟨"mode", false, ModeSpec.shape⟩,
    ⟨"filters", false, .list .atom⟩, ⟨"projection", true, .atom⟩]

/-- The slots of a route. -/
def slots : List (Slot RouteSpec) :=
  [ .text "name" name fun v r ↦ { r with name := v },
    .always "from" true SourcePoint.shape source (fun v r ↦ { r with source := v })
      (Document.sourcePoint? .json) SourcePoint.toJson fun _ ↦ True,
    .maybe "to" TargetPoint.shape target (fun v r ↦ { r with target := v })
      (Document.targetPoint? .json) TargetPoint.toJson fun _ ↦ True,
    .maybe "to_group" .atom group (fun v r ↦ { r with group := v }) (text? .json) .string
      fun _ ↦ True,
    .always "mode" false ModeSpec.shape mode (fun v r ↦ { r with mode := v })
      (Document.modeSpec? .json) ModeSpec.toJson ModeSpec.Fits,
    .always "filters" false (.list .atom) filters (fun v r ↦ { r with filters := v })
      (Document.texts? .json) .ofStrings fun ts ↦ ∀ t ∈ ts, True,
    .maybe "projection" .atom projection (fun v r ↦ { r with projection := v }) (text? .json)
      .string fun _ ↦ True ]

theorem slots_ok : Slots slots { name := "", source := default } := by
  constructor
  · decide
  · simp [slots, Slot.text, Slot.always, Slot.maybe]
  · simp [slots, Slot.text, Slot.always, Slot.maybe]
  · rintro ⟨_, _, _, _, _, _, _⟩ ⟨_, _, _, _, _, _, _⟩
    simp +contextual [slots, Slot.text, Slot.always, Slot.maybe]
  · simp only [slots, List.forall_mem_cons]
    exact ⟨Slot.lossless_text, Slot.lossless_always SourcePoint.lossless trivial,
      Slot.lossless_maybe TargetPoint.lossless nofun rfl,
      Slot.lossless_maybe text_lossless nofun rfl,
      Slot.lossless_always ModeSpec.lossless ⟨nofun, nofun⟩,
      Slot.lossless_always (list_lossless text_lossless) nofun,
      Slot.lossless_maybe text_lossless nofun rfl, nofun⟩

theorem lossless : Lossless shape (Document.routeSpec? .json) toJson fun r ↦ r.mode.Fits :=
  (record_lossless "RouteConfig" slots_ok).of_eq
    (fun _ ↦ by
      simp [slots, toJson, Slot.member, Slot.text, Slot.always, Slot.maybe, optionalMember])
    (by simp [slots, Slot.text, Slot.always, Slot.maybe])

end RouteSpec

/-! ## Tables -/

namespace RouteTable

/-- How a route table is declared. -/
def shape : Shape :=
  .record [⟨"routes", false, .list RouteSpec.shape⟩,
    ⟨"group_receivers", false, .list TargetGroup.shape⟩]

/-- The bounds of all modes have 64 and 32 bits. -/
def Fits (t : RouteTable) : Prop := ∀ r ∈ t.routes, r.mode.Fits

/-- The slots of a route table. -/
def slots : List (Slot RouteTable) :=
  [ .always "routes" false (.list RouteSpec.shape) routes (fun v t ↦ { t with routes := v })
      (Document.routeSpecs? .json) (fun rs ↦ .array (rs.map RouteSpec.toJson))
      fun rs ↦ ∀ r ∈ rs, r.mode.Fits,
    .always "group_receivers" false (.list TargetGroup.shape) groups
      (fun v t ↦ { t with groups := v }) (Document.targetGroups? .json)
      (fun gs ↦ .array (gs.map TargetGroup.toJson)) fun gs ↦ ∀ g ∈ gs, True ]

theorem slots_ok : Slots slots {} := by
  constructor
  · decide
  · simp [slots, Slot.always]
  · simp [slots, Slot.always]
  · rintro ⟨_, _⟩ ⟨_, _⟩
    simp [slots, Slot.always]
  · simp only [slots, List.forall_mem_cons]
    exact ⟨Slot.lossless_always (list_lossless RouteSpec.lossless) nofun,
      Slot.lossless_always (list_lossless TargetGroup.lossless) nofun, nofun⟩

theorem lossless : Lossless shape (Document.routeTable? .json) toJson Fits :=
  (record_lossless "RouteTable" slots_ok).of_eq (fun _ ↦ rfl) (by simp [slots, Slot.always, Fits])

/-- **A route table keeps every setting.** A table is read back from its own text. Whatever is read
as a table, with its records as objects and its variants as strings, has no member that is not
declared, and each of its members has the same value in the table that was read, unless it is null
for no value. -/
theorem keeps_every_setting :
    (∀ t : RouteTable, t.Fits →
      Value.ofBytes? t.toJson.render.toUTF8 = some t.toJson ∧ ofJson? t.toJson = .ok t) ∧
    ∀ v t, shape.plain v → ofJson? v = .ok t → t.Fits ∧ shape.keeps v t.toJson := by
  constructor
  · intro t fits
    obtain ⟨floats, readable⟩ := lossless.textual t fits
    exact ⟨Value.ofBytes?_render (readable _ (by decide)) floats, lossless.back t fits⟩
  · exact lossless.kept

/-- A table as an operator writes it: the route leaves out what it does not need, and says once that
it has no target. -/
def sample : Value :=
  .object [("routes", .array [.object [("name", .string "r"),
    ("from", .object [("source", .string "s"), ("connector", .string "a")]), ("to", .null),
    ("to_group", .string "g"),
    ("mode", .object [("ttl_ms", .ofNat 5), ("type", .string "drop")])]])]

/-- What is read of it. -/
def sampleTable : RouteTable :=
  ⟨[{ name := "r", source := ⟨"a", "s"⟩, group := some "g", mode := ⟨.drop, some 5, none⟩ }], []⟩

theorem keeps_every_setting_of_sample :
    ofJson? sample = .ok sampleTable ∧ sampleTable.Fits ∧ shape.keeps sample sampleTable.toJson ∧
      Value.ofBytes? sampleTable.toJson.render.toUTF8 = some sampleTable.toJson ∧
      ofJson? sampleTable.toJson = .ok sampleTable := by
  have read : ofJson? sample = .ok sampleTable := by rfl
  have plain : shape.plain sample := by
    refine ⟨_, rfl, ?_⟩
    simp [RouteSpec.shape, SourcePoint.shape, TargetPoint.shape, ModeSpec.shape, Shape.record,
      Shape.list, Shape.atom, Shape.variant]
    grind
  obtain ⟨fits, keeps⟩ := keeps_every_setting.2 sample sampleTable plain read
  exact ⟨read, fits, keeps, keeps_every_setting.1 sampleTable fits⟩

end RouteTable

end MessageBridge
