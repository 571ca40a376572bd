import MessageBridge.Config
import MessageBridge.Proofs.Route.TableText

/-!
# Configurations are written and read without loss

The records of a configuration are described by their slots, like those of a route table. One of
them is written whether it has a value or not: a configuration without a default schema says so by
null (`optional_lossless`).
-/

namespace MessageBridge

open Json (Value)
open Document (Shape Slot Slots Lossless text_lossless natural_lossless list_lossless
  choice_lossless record_lossless text? list? optional? choice? uint64? maxUInt64)

/-! ## Values that may be null -/

/-- A value, or null for none. -/
def Document.Shape.nullable (shape : Shape) : Shape where
  plain v := v = .null ∨ shape.plain v
  keeps v w := v = .null ∧ w = .null ∨ shape.keeps v w
  depth := shape.depth

theorem Document.optional_lossless {α : Type} {shape : Shape}
    {read : Document → Except ReadError α} {write : α → Value} {fits : α → Prop}
    (value : Lossless shape read write fits) (solid : ∀ a, write a ≠ .null) :
    Lossless shape.nullable (optional? read) (fun o ↦ (o.map write).getD .null)
      fun o ↦ ∀ a ∈ o, fits a := by
  constructor
  · rintro (_ | a) fit
    · rfl
    · rw [Option.map_some, Option.getD_some, Slot.optional?_of_ne_null (solid a),
        value.back a (fit a rfl)]
      rfl
  · rintro (_ | a) fit
    · exact ⟨Value.floatsReadBack_null, fun _ _ ↦ .null⟩
    · exact value.textual a (fit a rfl)
  · intro v o plain found
    by_cases missing : v = .null
    · subst missing
      cases found
      exact ⟨by simp, .inl ⟨rfl, rfl⟩⟩
    · rw [Slot.optional?_of_ne_null missing] at found
      obtain ⟨a, reads, rfl⟩ := Document.map_eq_ok_iff.mp found
      obtain ⟨fit, keeps⟩ := value.kept v a (plain.resolve_left missing) reads
      refine ⟨?_, .inr keeps⟩
      rintro _ ⟨⟩
      exact fit

/-! ## Schemas -/

namespace Schema

/-- How a schema is declared. -/
def shape : Shape :=
  .record [⟨"name", false, .atom⟩, ⟨"content_type", false, .atom⟩,
    ⟨"required_fields", false, .list .atom⟩]

/-- The slots of a schema. -/
def slots : List (Slot Schema) :=
  [ .text "name" name fun v s ↦ { s with name := v },
    .always "content_type" false .atom contentType (fun v s ↦ { s with contentType := v })
      (text? .json) .string fun _ ↦ True,
    .always "required_fields" false (.list .atom) requiredFields
      (fun v s ↦ { s with requiredFields := v }) (Document.texts? .json) .ofStrings
      fun ts ↦ ∀ t ∈ ts, True ]

theorem slots_ok : Slots slots (ofName "" []) := by
  constructor
  · decide
  · simp [slots, Slot.text, Slot.always]
  · simp [slots, Slot.text, Slot.always]
  · rintro ⟨_, _, _⟩ ⟨_, _, _⟩
    simp +contextual [slots, Slot.text, Slot.always]
  · simp only [slots, List.forall_mem_cons]
    exact ⟨Slot.lossless_text, Slot.lossless_always text_lossless trivial,
      Slot.lossless_always (list_lossless text_lossless) (by simp), by simp⟩

theorem lossless : Lossless shape (Document.schema? .json) toJson fun _ ↦ True :=
  (record_lossless "SchemaDescriptor" slots_ok).of_eq (fun _ ↦ rfl)
    (by simp [slots, Slot.text, Slot.always])

end Schema

namespace SourceSchema

/-- How the schema of a source is declared. -/
def shape : Shape := .record [⟨"source", false, .atom⟩, ⟨"schema", false, Schema.shape⟩]

/-- The slots of the schema of a source. -/
def slots : List (Slot SourceSchema) :=
  [ .text "source" source fun v s ↦ { s with source := v },
    .always "schema" true Schema.shape schema (fun v s ↦ { s with schema := v })
      (Document.schema? .json) Schema.toJson fun _ ↦ True ]

theorem slots_ok : Slots slots default := by
  constructor
  · decide
  · simp [slots, Slot.text, Slot.always]
  · simp [slots, Slot.text, Slot.always]
  · rintro ⟨_, _⟩ ⟨_, _⟩
    simp [slots, Slot.text, Slot.always]
  · simp only [slots, List.forall_mem_cons]
    exact ⟨Slot.lossless_text, Slot.lossless_always Schema.lossless trivial, by simp⟩

theorem lossless : Lossless shape (Document.sourceSchema? .json) toJson fun _ ↦ True :=
  (record_lossless "SourceSchema" slots_ok).of_eq (fun _ ↦ rfl)
    (by simp [slots, Slot.text, Slot.always])

end SourceSchema

/-! ## Tuning and connectors -/

namespace BridgeSpec

/-- How the tuning is declared. -/
def shape : Shape :=
  .record [⟨"lanes_per_destination", false, .atom⟩, ⟨"lane_queue_depth", false, .atom⟩,
    ⟨"retry_initial_ms", false, .atom⟩, ⟨"retry_max_ms", false, .atom⟩]

/-- A slot for a number of 64 bits. -/
def slot (name : String) (get : BridgeSpec → Nat) (set : Nat → BridgeSpec → BridgeSpec) :
    Slot BridgeSpec :=
  .always name false .atom get set (uint64? .json) .ofNat (· ≤ maxUInt64)

/-- The slots of the tuning. -/
def slots : List (Slot BridgeSpec) :=
  [ slot "lanes_per_destination" lanes fun v b ↦ { b with lanes := v },
    slot "lane_queue_depth" depth fun v b ↦ { b with depth := v },
    slot "retry_initial_ms" retryInitialMs fun v b ↦ { b with retryInitialMs := v },
    slot "retry_max_ms" retryMaxMs fun v b ↦ { b with retryMaxMs := v } ]

/-- All numbers have 64 bits. -/
def Fits (b : BridgeSpec) : Prop :=
  b.lanes ≤ maxUInt64 ∧ b.depth ≤ maxUInt64 ∧ b.retryInitialMs ≤ maxUInt64 ∧
    b.retryMaxMs ≤ maxUInt64

theorem lossless_slot {name : String} {get : BridgeSpec → Nat}
    {set : Nat → BridgeSpec → BridgeSpec} (range : get {} ≤ maxUInt64) :
    (slot name get set).Lossless {} :=
  Slot.lossless_always (natural_lossless "u64" (Nat.le_refl _)) range

theorem slots_ok : Slots slots {} := by
  constructor
  · decide
  · simp [slots, slot, Slot.always]
  · simp [slots, slot, Slot.always]
  · rintro ⟨_, _, _, _⟩ ⟨_, _, _, _⟩
    simp +contextual [slots, slot, Slot.always]
  · simp only [slots, List.forall_mem_cons]
    exact ⟨lossless_slot (by decide), lossless_slot (by decide), lossless_slot (by decide),
      lossless_slot (by decide), by simp⟩

theorem lossless : Lossless shape (Document.bridgeSpec? .json) toJson Fits :=
  (record_lossless "BridgeConfig" slots_ok).of_eq (fun _ ↦ rfl)
    (by simp [slots, slot, Slot.always, Fits])

end BridgeSpec

namespace ConnectorSpec

/-- How a connector is declared. -/
def shape : Shape :=
  .record [⟨"name", false, .atom⟩, ⟨"kind", false, .variant⟩, ⟨"sources", false, .list .atom⟩,
    ⟨"targets", false, .list .atom⟩]

/-- The slots of a connector. -/
def slots : List (Slot ConnectorSpec) :=
  [ .text "name" name fun v c ↦ { c with name := v },
    .always "kind" true .variant kind (fun v c ↦ { c with kind := v })
      (choice? .json Document.connectorKinds) (fun k ↦ .string k.name) fun _ ↦ True,
    .always "sources" false (.list .atom) sources (fun v c ↦ { c with sources := v })
      (Document.texts? .json) .ofStrings fun ts ↦ ∀ t ∈ ts, True,
    .always "targets" false (.list .atom) targets (fun v c ↦ { c with targets := v })
      (Document.texts? .json) .ofStrings fun ts ↦ ∀ t ∈ ts, True ]

theorem kind_lossless : Lossless .variant (choice? .json Document.connectorKinds)
    (fun k ↦ .string k.name) fun _ ↦ True := by
  refine choice_lossless (fun k ↦ ?_) fun n k found ↦ ?_
  · cases k with
    | memory => rfl
  · have listed := Named.mem_of_get? found
    simp only [Document.connectorKinds, List.mem_cons, Prod.mk.injEq, List.not_mem_nil,
      or_false] at listed
    obtain ⟨rfl, -⟩ := listed
    cases k with
    | memory => rfl

theorem slots_ok : Slots slots { name := "", kind := .memory } := by
  constructor
  · decide
  · simp [slots, Slot.text, Slot.always]
  · simp [slots, Slot.text, Slot.always]
  · rintro ⟨_, _, _, _⟩ ⟨_, _, _, _⟩
    simp +contextual [slots, Slot.text, Slot.always]
  · simp only [slots, List.forall_mem_cons]
    exact ⟨Slot.lossless_text, Slot.lossless_always kind_lossless trivial,
      Slot.lossless_always (list_lossless text_lossless) (by simp),
      Slot.lossless_always (list_lossless text_lossless) (by simp), by simp⟩

theorem lossless : Lossless shape (Document.connectorSpec? .json) toJson fun _ ↦ True :=
  (record_lossless "ConnectorConfig" slots_ok).of_eq (fun _ ↦ rfl)
    (by simp [slots, Slot.text, Slot.always])

end ConnectorSpec

/-! ## Configurations -/

namespace Config

/-- How a configuration is declared. -/
def shape : Shape :=
  .record [⟨"bridge", false, BridgeSpec.shape⟩, ⟨"connectors", false, .list ConnectorSpec.shape⟩,
    ⟨"default_schema", false, Schema.shape.nullable⟩,
    ⟨"schemas", false, .list SourceSchema.shape⟩,
    ⟨"group_receivers", false, .list TargetGroup.shape⟩,
    ⟨"routes", false, .list RouteSpec.shape⟩]

/-- The numbers of the tuning and the bounds of all modes have 64 and 32 bits. -/
def Fits (c : Config) : Prop := c.bridge.Fits ∧ ∀ r ∈ c.routes, r.mode.Fits

/-- The slots of a configuration. -/
def slots : List (Slot Config) :=
  [ .always "bridge" false BridgeSpec.shape bridge (fun v c ↦ { c with bridge := v })
      (Document.bridgeSpec? .json) BridgeSpec.toJson BridgeSpec.Fits,
    .always "connectors" true (.list ConnectorSpec.shape) connectors
      (fun v c ↦ { c with connectors := v }) (list? .json (Document.connectorSpec? .json))
      (fun cs ↦ .array (cs.map ConnectorSpec.toJson)) fun cs ↦ ∀ c ∈ cs, True,
    .always "default_schema" false Schema.shape.nullable defaultSchema
      (fun v c ↦ { c with defaultSchema := v }) (optional? (Document.schema? .json))
      (fun o ↦ (o.map Schema.toJson).getD .null) fun o ↦ ∀ s ∈ o, True,
    .always "schemas" false (.list SourceSchema.shape) schemas
      (fun v c ↦ { c with schemas := v }) (list? .json (Document.sourceSchema? .json))
      (fun ss ↦ .array (ss.map SourceSchema.toJson)) fun ss ↦ ∀ s ∈ ss, True,
    .always "group_receivers" false (.list TargetGroup.shape) groups
      (fun v c ↦ { c with groups := v }) (Document.targetGroups? .json)
      (fun gs ↦ .array (gs.map TargetGroup.toJson)) fun gs ↦ ∀ g ∈ gs, True,
    .always "routes" true (.list RouteSpec.shape) routes (fun v c ↦ { c with routes := v })
      (Document.routeSpecs? .json) (fun rs ↦ .array (rs.map RouteSpec.toJson))
      fun rs ↦ ∀ r ∈ rs, r.mode.Fits ]

theorem slots_ok : Slots slots {} := by
  constructor
  · decide
  · simp [slots, Slot.always]
  · simp [slots, Slot.always]
  · rintro ⟨_, _, _, _, _, _⟩ ⟨_, _, _, _, _, _⟩
    simp +contextual [slots, Slot.always]
  · have standard : BridgeSpec.Fits {} := by
      simp only [BridgeSpec.Fits]
      decide
    have solid (s : Schema) : s.toJson ≠ .null := by simp [Schema.toJson]
    simp only [slots, List.forall_mem_cons]
    exact ⟨Slot.lossless_always BridgeSpec.lossless standard,
      Slot.lossless_always (list_lossless ConnectorSpec.lossless) (by simp),
      Slot.lossless_always (Document.optional_lossless Schema.lossless solid) (by simp),
      Slot.lossless_always (list_lossless SourceSchema.lossless) (by simp),
      Slot.lossless_always (list_lossless TargetGroup.lossless) (by simp),
      Slot.lossless_always (list_lossless RouteSpec.lossless) (by simp), by simp⟩

/-- **A configuration is written and read without loss.** -/
theorem lossless : Lossless shape (Document.config? .json) toJson Fits :=
  (record_lossless "Config" slots_ok).of_eq (fun _ ↦ rfl) (by simp [slots, Slot.always, Fits])

end Config

end MessageBridge
