import MessageBridge.Config
import MessageBridge.Proofs.Named

/-!
# What a configuration is wired to

A configuration that is read declares connectors of different names, and nothing of what it declares
is lost on the way to the running parts: every connector becomes the one bus of its name, every
source and target that it names becomes the one point of that name, and every schema counts for its
source unless a later one does (`Config.wiring`).
-/

namespace MessageBridge

variable {seen names : List String} {name : String}

/-! ## Repetitions -/

theorem firstRepeated?_eq_none_iff :
    firstRepeated? seen names = none ↔ names.Nodup ∧ ∀ n ∈ names, n ∉ seen := by
  induction names generalizing seen with
  | nil => simp [firstRepeated?]
  | cons first rest ih =>
    rw [firstRepeated?]
    by_cases old : first ∈ seen
    · simp [old]
    · simp only [List.contains_iff_mem, old, if_false, ih, List.nodup_cons, List.mem_cons]
      grind

/-- The first name that repeats an earlier one, and what comes before it. -/
theorem of_firstRepeated? (repeated : firstRepeated? seen names = some name) :
    ∃ before after, names = before ++ name :: after ∧ before.Nodup ∧
      (∀ n ∈ before, n ∉ seen) ∧ (name ∈ seen ∨ name ∈ before) := by
  induction names generalizing seen with
  | nil => cases repeated
  | cons first rest ih =>
    rw [firstRepeated?] at repeated
    split at repeated
    · rename_i old
      cases repeated
      exact ⟨[], rest, rfl, List.nodup_nil, nofun, .inl (List.contains_iff_mem.mp old)⟩
    · rename_i new
      rw [List.contains_iff_mem] at new
      obtain ⟨before, after, rfl, distinct, unseen, again⟩ := ih repeated
      refine ⟨first :: before, after, rfl, ?_, ?_, ?_⟩
      · exact List.nodup_cons.mpr ⟨fun mem ↦ unseen first mem List.mem_cons_self, distinct⟩
      · grind
      · grind

/-! ## Collapsing -/

theorem mem_distinctNames_iff : name ∈ distinctNames seen names ↔ name ∈ names ∧ name ∉ seen := by
  induction names generalizing seen with
  | nil => simp [distinctNames]
  | cons first rest ih =>
    rw [distinctNames]
    split
    · rename_i old
      rw [List.contains_iff_mem] at old
      grind
    · rename_i new
      rw [List.contains_iff_mem] at new
      grind

theorem nodup_distinctNames (seen names : List String) : (distinctNames seen names).Nodup := by
  induction names generalizing seen with
  | nil => exact List.nodup_nil
  | cons first rest ih =>
    rw [distinctNames]
    split
    · exact ih seen
    · refine List.nodup_cons.mpr ⟨fun again ↦ ?_, ih _⟩
      exact (mem_distinctNames_iff.mp again).2 List.mem_cons_self

/-! ## Points -/

/-- The points that stand for declared names: each name has exactly one, it is the one at the place
that the adapter knows, and the one that the connector finds. -/
structure Exposes {Point : Type} (called : Point → String) (declared known : List String)
    (points : List Point) (place : String → Except BusError Nat)
    (point? : String → Option Point) : Prop where
  known : ∀ name, name ∈ known ↔ name ∈ declared
  once : (points.map called).Nodup
  found : ∀ name ∈ declared, ∃ i point, place name = .ok i ∧ points[i]? = some point ∧
    called point = name ∧ point? name = some point
  unknown : ∀ name, name ∉ declared → (∃ e, place name = .error e) ∧ point? name = none

/-- Points that are made for each name once are looked up by the adapter and by the connector
alike. -/
theorem exposes_of_names {Point : Type} {called : Point → String} {make : String → Point}
    (own : ∀ name, called (make name) = name) (declared : List String)
    (unknown : String → BusError) :
    let points := (distinctNames [] declared).map make
    let table := Named.ofList (points.map called).zipIdx
    Exposes called declared (Named.names table) points
      (fun name ↦ match Named.get? name table with
        | some i => .ok i
        | none => .error (unknown name))
      (fun name ↦ points.find? fun p ↦ called p == name) := by
  intro points table
  have distinct := nodup_distinctNames [] declared
  have declares {name : String} : name ∈ distinctNames [] declared ↔ name ∈ declared := by
    simp [mem_distinctNames_iff]
  have calls : points.map called = distinctNames [] declared := by
    simp [points, Function.comp_def, own]
  have looks {name : String} {i : Nat} :
      Named.get? name table = some i ↔ (distinctNames [] declared)[i]? = some name := by
    rw [← calls] at distinct ⊢
    exact Named.get?_eq_some_iff distinct (.refl _)
  constructor
  · intro name
    rw [← Named.contains_iff, Named.contains, Option.isSome_iff_exists, ← declares]
    simp only [looks, List.mem_iff_getElem?]
  · rw [calls]
    exact distinct
  · intro name mem
    obtain ⟨i, here⟩ := List.mem_iff_getElem?.mp (declares.mpr mem)
    refine ⟨i, make name, ?_, ?_, own name, ?_⟩
    · rw [looks.mpr here]
    · rw [List.getElem?_map, here, Option.map_some]
    · have made : make name ∈ points := List.mem_map.mpr ⟨name, declares.mpr mem, rfl⟩
      have found := Named.find?_of_distinct (calls ▸ distinct) made
      rwa [own] at found
  · intro name absent
    have missing : Named.get? name table = none := by
      rw [Option.eq_none_iff_forall_ne_some]
      intro i here
      exact absent (declares.mp (List.mem_of_getElem? (looks.mp here)))
    refine ⟨⟨_, by rw [missing]⟩, List.find?_eq_none.mpr ?_⟩
    intro p made same
    obtain ⟨n, mem, rfl⟩ := List.mem_map.mp made
    rw [own, beq_iff_eq] at same
    exact absent (same ▸ declares.mp mem)

/-! ## Buses -/

/-- The adapter of a connector in memory. -/
def Memory.Connector.adapter {Handler : Type} (m : Memory.Connector Handler) : Adapter :=
  .ofNames m.name m.sources m.targets

/-- What a declared connector is wired to: each declared point is the one of its name. -/
structure ConnectorSpec.Wired {Handler : Type} (spec : ConnectorSpec) (view : BusView)
    (m : Memory.Connector Handler) : Prop where
  name : m.name = spec.name
  sources : Exposes Memory.Ingress.source spec.sources view.sources m.ingresses
    (fun s ↦ m.adapter.ingress s) (fun s ↦ m.ingress? s)
  targets : Exposes Memory.Egress.target spec.targets view.targets m.egresses
    (fun t ↦ m.adapter.egress t) (fun t ↦ m.egress? t)

theorem ConnectorSpec.wired_build (Handler : Type) (spec : ConnectorSpec) (handle : Nat) :
    spec.Wired ((spec.build Handler).adapter.view handle) (spec.build Handler) := by
  constructor
  · rfl
  · exact exposes_of_names (fun _ ↦ rfl) spec.sources (.unknownSource spec.name ·)
  · exact exposes_of_names (fun _ ↦ rfl) spec.targets (.unknownTarget spec.name ·)

/-- Adapters of different names are registered one for one, each with its place. -/
theorem BusRegistry.ofAdapters_of_distinct {adapters : List Adapter}
    (distinct : (adapters.map Adapter.name).Nodup) :
    Named.names (ofAdapters adapters) = adapters.map Adapter.name ∧
      ∀ (i : Nat) (a : Adapter), adapters[i]? = some a →
        Named.get? a.name (ofAdapters adapters) = some (a.view i) := by
  let entries := adapters.zipIdx.map fun p : Adapter × Nat ↦ (p.1.name, p.1.view p.2)
  have names : Named.names entries = adapters.map Adapter.name := by
    have both : adapters.map Adapter.name = (adapters.zipIdx.map Prod.fst).map Adapter.name := by
      rw [List.zipIdx_map_fst]
    rw [both, Named.names, List.map_map, List.map_map]
    rfl
  have distinct : Named.Distinct entries := by rwa [Named.Distinct, names]
  have same : ofAdapters adapters = entries := Named.ofList_of_distinct distinct
  rw [same]
  refine ⟨names, fun i a here ↦ Named.get?_of_mem distinct ?_⟩
  exact List.mem_map.mpr ⟨(a, i), List.mk_mem_zipIdx_iff_getElem?.mpr here, rfl⟩

namespace Config

/-! ## Codecs -/

theorem codecs_eq (c : Config) : c.codecs = ⟨c.defaultSchema.map Schema.codec,
    Named.ofList (c.schemas.map fun s ↦ (s.source, s.schema.codec))⟩ := by
  rw [codecs, Named.ofList, List.foldl_map]
  generalize ([] : List (String × Codec)) = table
  induction c.schemas generalizing table with
  | nil => rfl
  | cons s rest ih => exact ih _

theorem resolve_codecs (c : Config) (source : String) : c.codecs.resolve source =
    (Named.get? source (c.schemas.map fun s ↦ (s.source, s.schema.codec)).reverse).or
      (c.defaultSchema.map Schema.codec) := by
  rw [codecs_eq, CodecRegistry.resolve, Named.get?_ofList]

/-! ## The wiring -/

/-- What a configuration is wired to. -/
structure Wiring (Handler : Type) (c : Config) : Prop where
  distinct : (c.connectors.map ConnectorSpec.name).Nodup
  /-- There is one bus for each connector, under its name. -/
  names : Named.names c.buses = c.connectors.map ConnectorSpec.name
  buses : ∀ (i : Nat) (spec : ConnectorSpec), c.connectors[i]? = some spec →
    ∃ m, (c.buildConnectors Handler)[i]? = some m ∧
      Named.get? spec.name c.buses = some (m.adapter.view i) ∧ spec.Wired (m.adapter.view i) m
  /-- Of the schemas of one source the last counts. -/
  schemas : ∀ before s after, c.schemas = before ++ s :: after →
    (∀ later ∈ after, later.source ≠ s.source) → c.codecs.resolve s.source = some s.schema.codec
  fallback : ∀ source, (∀ s ∈ c.schemas, s.source ≠ source) →
    c.codecs.resolve source = c.defaultSchema.map Schema.codec

theorem wiring_of_distinct (Handler : Type) {c : Config}
    (distinct : (c.connectors.map ConnectorSpec.name).Nodup) : c.Wiring Handler := by
  have named : (((c.buildConnectors Unit).map Memory.Connector.adapter).map Adapter.name) =
      c.connectors.map ConnectorSpec.name := by
    simp only [buildConnectors, List.map_map]
    rfl
  obtain ⟨names, registered⟩ := BusRegistry.ofAdapters_of_distinct (named ▸ distinct)
  constructor
  · exact distinct
  · exact names.trans named
  · intro i spec here
    refine ⟨spec.build Handler, ?_, ?_, spec.wired_build Handler i⟩
    · rw [buildConnectors, List.getElem?_map, here, Option.map_some]
    · -- the buses are made before it is known who will handle messages, which they do not depend on
      have same : (spec.build Handler).adapter = (spec.build Unit).adapter := by
        simp only [Memory.Connector.adapter, Memory.Connector.sources, Memory.Connector.targets,
          ConnectorSpec.build, Memory.Connector.ofNames, List.map_map]
        rfl
      rw [same]
      refine registered i (spec.build Unit).adapter ?_
      rw [buildConnectors, List.map_map, List.getElem?_map, here]
      rfl
  · intro before s after split last
    have later : Named.get? s.source
        (after.map fun s ↦ (s.source, s.schema.codec)).reverse = none := by
      rw [Named.get?_eq_none_iff]
      simpa [Named.names] using last
    rw [resolve_codecs, split, List.map_append, List.reverse_append, List.map_cons,
      List.reverse_cons, Named.get?_append, Named.get?_append, later, Named.get?, if_pos rfl]
    rfl
  · intro source none
    rw [resolve_codecs, Named.get?_eq_none_iff.mpr, Option.none_or]
    simpa [Named.names] using none

/-- **A configuration that is read is wired as it declares**, and one that repeats the name of a
connector is not read. -/
theorem wiring (Handler : Type) (text : String) :
    (∀ c, ofString? text = .ok c → c.Wiring Handler) ∧
      ∀ d c, Document.ofRelaxed? text = some d → Document.config? .relaxed d = .ok c →
        ¬ (c.connectors.map ConnectorSpec.name).Nodup →
          ∃ before name after, c.connectors.map ConnectorSpec.name = before ++ name :: after ∧
            before.Nodup ∧ name ∈ before ∧ ofString? text = .error (.duplicateConnector name) := by
  constructor
  · intro c read
    refine wiring_of_distinct Handler ?_
    rw [ofString?] at read
    split at read
    · cases read
    · split at read
      · cases read
      · split at read
        · cases read
        · rename_i distinct
          cases read
          exact (firstRepeated?_eq_none_iff.mp distinct).1
  · intro d c scanned read repeats
    rcases first : firstRepeated? [] (c.connectors.map ConnectorSpec.name) with _ | name
    · exact absurd (firstRepeated?_eq_none_iff.mp first).1 repeats
    · obtain ⟨before, after, split, distinct, -, again⟩ := of_firstRepeated? first
      refine ⟨before, name, after, split, distinct, again.resolve_left List.not_mem_nil, ?_⟩
      rw [ofString?, scanned]
      simp only [read, first]

/-- A declaration of one connector, with a source declared twice and two schemas for it. -/
def repetitiveText : String :=
  "\x7bconnectors: [\x7bname: \"a\", kind: \"memory\", sources: [\"x\", \"x\"]\x7d], " ++
    "schemas: [\x7bsource: \"x\", schema: \x7bname: \"s\"\x7d\x7d, " ++
      "\x7bsource: \"x\", schema: \x7bname: \"t\"\x7d\x7d], routes: []\x7d"

/-- What that text declares. -/
def repetitive : Config :=
  { connectors := [⟨"a", .memory, ["x", "x"], []⟩]
    schemas := [⟨"x", ⟨"s", "application/json", []⟩⟩, ⟨"x", ⟨"t", "application/json", []⟩⟩] }

/-- A declaration of two connectors of one name. -/
def ambiguousText : String :=
  "\x7bconnectors: [\x7bname: \"a\", kind: \"memory\"\x7d, " ++
    "\x7bname: \"a\", kind: \"memory\"\x7d], routes: []\x7d"

/-- What that text declares. -/
def ambiguous : Config := { connectors := [⟨"a", .memory, [], []⟩, ⟨"a", .memory, [], []⟩] }

/-- A source that is declared twice is one point, and of two schemas for it the later counts; a
connector that is declared twice is refused. -/
theorem wiring_of_repetitions :
    ofString? repetitiveText = .ok repetitive ∧ repetitive.Wiring Unit ∧
      repetitive.buses = [("a", ⟨0, ["x"], []⟩)] ∧
      repetitive.codecs.resolve "x" = some (Schema.codec ⟨"t", "application/json", []⟩) ∧
      ∃ name, ofString? ambiguousText = .error (.duplicateConnector name) := by
  have read : ofString? repetitiveText = .ok repetitive := by decide +kernel
  have wired := (wiring Unit repetitiveText).1 repetitive read
  have declares : (Document.ofRelaxed? ambiguousText).map (Document.config? .relaxed) =
      some (.ok ambiguous) := by decide +kernel
  obtain ⟨d, scanned, declares⟩ := Option.map_eq_some_iff.mp declares
  obtain ⟨_, name, _, -, -, -, refused⟩ :=
    (wiring Unit ambiguousText).2 d ambiguous scanned declares (by decide)
  exact ⟨read, wired, by decide +kernel, wired.schemas [_] _ [] rfl nofun, name, refused⟩

end Config

end MessageBridge
