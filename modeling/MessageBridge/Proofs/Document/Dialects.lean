import MessageBridge.Proofs.Document.Integers
import MessageBridge.Proofs.Document.JsonText
import MessageBridge.Proofs.Document.Records

/-!
# A value in either dialect

A JSON value can be read as a document at once, or be written and read again as a text of the
relaxed notation. Readers that agree (`Agree`) read the same in the second way as in the first,
provided that the integers in the value settle. Readers are built from readers, and agreement is
built along: a record is read alike when its fields are (`record_agree`).

Which integers settle is known of whatever was read from the relaxed notation. To tell it of a whole
record, `Field.Keeps` says that reading a field keeps a property of the record, whether the record
is written with its names or as a list (`of_record?`).
-/

namespace MessageBridge

open Json (Value)

/-! ## Settled values -/

namespace Json.Value

/-- The integers in the value settle. -/
def Settled (v : Value) : Prop := ∀ n : Nat, v.Holds (.int n) → Numeral.Settled n

@[simp] theorem settled_null : null.Settled := nofun

@[simp] theorem settled_string (s : String) : (string s).Settled := nofun

@[simp] theorem settled_ofNat {n : Nat} : (ofNat n).Settled ↔ Numeral.Settled n := by
  constructor
  · exact fun settled ↦ settled n .here
  · rintro settled _ ⟨⟩
    exact settled

@[simp] theorem settled_array {items : List Value} :
    (array items).Settled ↔ ∀ v ∈ items, v.Settled := by
  constructor
  · exact fun settled _ mem n holds ↦ settled n (.item mem holds)
  · rintro settled n ⟨⟩
    rename_i v holds mem
    exact settled v mem n holds

@[simp] theorem settled_object {members : List (String × Value)} :
    (object members).Settled ↔ ∀ m ∈ members, m.2.Settled := by
  constructor
  · exact fun settled _ mem n holds ↦ settled n (.member mem holds)
  · rintro settled n ⟨⟩
    rename_i m holds mem
    exact settled m mem n holds

end Json.Value

namespace Document

variable {α σ : Type}

/-! ## Readers that agree -/

/-- What the first reader reads of a value, the second reads of its text. -/
def Agree (exact written : Document → Except ReadError α) : Prop :=
  ∀ v a, v.Settled → exact (ofJson v) = .ok a → written (spelt v) = .ok a

theorem text_agree : Agree (text? .json) (text? .relaxed) := by
  intro v t _ read
  cases v with
  | string s => exact read
  | _ => cases read

theorem natural_agree (kind : String) {limit : Nat} (bounded : limit ≤ maxUInt64) :
    Agree (natural? .json kind limit) (natural? .relaxed kind limit) := by
  intro v n settled read
  cases v with
  | number x =>
    cases x with
    | int i =>
      simp only [natural?, ofJson] at read
      split at read
      · rename_i range
        cases read
        obtain ⟨k, rfl⟩ := Int.eq_ofNat_of_zero_le range.1
        have digits : (Json.Number.int k).toChars = Nat.toDigits 10 k := by
          simp [Json.Number.toChars, Json.intChars]
        obtain ⟨w, wide, same⟩ := settled k .here limit (by omega) bounded
        simp only [natural?, spelt, digits, wide, same, Int.toNat_natCast]
      · cases read
    | float _ => cases read
  | _ => cases read

theorem optional_agree {exact written : Document → Except ReadError α}
    (value : Agree exact written) : Agree (optional? exact) (optional? written) := by
  intro v o settled read
  by_cases missing : v = .null
  · subst missing
    exact read
  · have written_some : optional? written (spelt v) = (written (spelt v)).map some := by
      cases v with
      | null => exact absurd rfl missing
      | _ => rfl
    rw [Slot.optional?_of_ne_null missing] at read
    obtain ⟨a, reads, rfl⟩ := map_eq_ok_iff.mp read
    rw [written_some, value v a settled reads]
    rfl

theorem choice_agree (variants : List (String × α)) :
    Agree (choice? .json variants) (choice? .relaxed variants) := by
  intro v a _ read
  cases v with
  | string s => exact read
  | object members =>
    rcases members with _ | ⟨⟨key, x⟩, _ | _⟩
    · cases read
    · simp only [choice?, ofJson, ofJsonMembers] at read
      simp only [choice?, spelt, speltMembers]
      cases named : variant? variants key with
      | error e =>
        rw [named] at read
        cases read
      | ok b =>
        rw [named] at read
        obtain ⟨_, -, rfl⟩ := map_eq_ok_iff.mp read
        rfl
    · cases read
  | _ => cases read

theorem speltItems_eq_map (items : List Value) : speltItems items = items.map spelt := by
  induction items with
  | nil => rfl
  | cons v rest ih => rw [speltItems, ih, List.map_cons]

theorem list_agree {exact written : Document → Except ReadError α} (item : Agree exact written) :
    Agree (list? .json exact) (list? .relaxed written) := by
  intro v as settled read
  cases v with
  | array items =>
    simp only [ofJson, list?, ofJsonItems_eq_map] at read
    simp only [spelt, list?, speltItems_eq_map]
    rw [Json.Value.settled_array] at settled
    rw [mapM_eq_ok_iff, List.forall₂_map_left_iff] at read ⊢
    induction read with
    | nil => exact .nil
    | cons first _ ih =>
      rw [List.forall_mem_cons] at settled
      exact .cons (item _ _ settled.1 first) (ih settled.2)
  | _ => cases read

/-! ## Records that agree -/

/-- Two readers of a field agree. -/
structure Field.Agree (f g : Field σ) : Prop where
  name : f.name = g.name
  optional : f.optional = g.optional
  read : Document.Agree f.read g.read

section Fields

variable {exact written : Document → Except ReadError α} {name : String} {set : α → σ → σ}

theorem Field.Agree.of_value (optional : Bool) (value : Document.Agree exact written) :
    Field.Agree ⟨name, optional, fun d ↦ (exact d).map set⟩
      ⟨name, optional, fun d ↦ (written d).map set⟩ := by
  refine ⟨rfl, rfl, fun v change settled read ↦ ?_⟩
  obtain ⟨a, reads, rfl⟩ := map_eq_ok_iff.mp read
  dsimp only
  rw [value v a settled reads]
  rfl

theorem Field.Agree.required (value : Document.Agree exact written) :
    Field.Agree (.required name exact set) (.required name written set) := .of_value false value

theorem Field.Agree.defaulted (value : Document.Agree exact written) :
    Field.Agree (.defaulted name exact set) (.defaulted name written set) := .of_value true value

end Fields

variable {fs gs : List (Field σ)} {s t : σ}

theorem find?_agree (fields : List.Forall₂ Field.Agree fs gs) {key : String} {f : Field σ}
    (found : fs.find? (fun f ↦ f.name == key) = some f) :
    ∃ g, gs.find? (fun f ↦ f.name == key) = some g ∧ f.Agree g := by
  induction fields with
  | nil => cases found
  | @cons f' g' _ _ first _ ih =>
    rw [List.find?_cons] at found ⊢
    rw [← first.name]
    split at found
    · cases found
      exact ⟨g', rfl, first⟩
    · exact ih found

theorem members?_agree (fields : List.Forall₂ Field.Agree fs gs) {members : List (String × Value)}
    (settled : ∀ m ∈ members, m.2.Settled) {seen seen' : List String}
    (read : members? fs seen s (ofJsonMembers members) = .ok (t, seen')) :
    members? gs seen s (speltMembers members) = .ok (t, seen') := by
  induction members generalizing seen s with
  | nil => exact read
  | cons member rest ih =>
    obtain ⟨key, x⟩ := member
    rw [List.forall_mem_cons] at settled
    rw [ofJsonMembers, members?] at read
    split at read
    · cases read
    rename_i f found
    obtain ⟨g, found', agree⟩ := find?_agree fields found
    split at read
    · cases read
    rename_i new
    split at read
    · cases read
    rename_i set sets
    rw [speltMembers, members?]
    simp only [found', new, agree.read x set settled.1 sets]
    exact ih settled.2 read

theorem firstMissing?_agree (fields : List.Forall₂ Field.Agree fs gs) (seen : List String) :
    firstMissing? fs seen = firstMissing? gs seen := by
  unfold firstMissing?
  induction fields with
  | nil => rfl
  | cons first _ ih =>
    rw [List.find?_cons, List.find?_cons, first.name, first.optional]
    split
    · exact congrArg some first.name
    · exact ih

theorem items?_agree (fields : List.Forall₂ Field.Agree fs gs) {items : List Value}
    (settled : ∀ v ∈ items, v.Settled) {expected : String} {index : Nat} {rest : List Document}
    (read : items? expected index s fs (ofJsonItems items) = .ok (t, rest)) :
    ∃ rest', items? expected index s gs (speltItems items) = .ok (t, rest') := by
  induction fields generalizing items index s with
  | nil =>
    cases read
    exact ⟨_, rfl⟩
  | cons first _ ih =>
    cases items with
    | nil =>
      rw [ofJsonItems, items?] at read
      rw [speltItems, items?, ← first.optional]
      split at read
      · rename_i optional
        rw [if_pos optional]
        exact ih settled read
      · cases read
    | cons x items =>
      rw [List.forall_mem_cons] at settled
      rw [ofJsonItems, items?] at read
      split at read
      · cases read
      · rename_i set sets
        rw [speltItems, items?]
        simp only [first.read x set settled.1 sets]
        exact ih settled.2 read

/-- Records whose fields agree are read alike, with their names or as lists. -/
theorem record_agree (title : String) {initial : σ} (fields : List.Forall₂ Field.Agree fs gs) :
    Agree (record? .json title fs initial) (record? .relaxed title gs initial) := by
  intro v s settled read
  cases v with
  | object members =>
    simp only [ofJson, record?] at read
    split at read
    · cases read
    rename_i value seen reads
    have alike := members?_agree fields (Json.Value.settled_object.mp settled) reads
    simp only [spelt, record?, alike, ← firstMissing?_agree fields]
    exact read
  | array items =>
    simp only [ofJson, record?] at read
    split at read
    · cases read
    rename_i value rest reads
    rw [fields.length_eq] at reads
    obtain ⟨rest', alike⟩ := items?_agree fields (Json.Value.settled_array.mp settled) reads
    split at read
    · cases read
    · cases read
      simp only [spelt, record?, alike, reduceCtorEq, false_and, if_false]
  | _ => cases read

/-! ## Properties of what is read -/

/-- Reading the field keeps the property. -/
def Field.Keeps (holds : σ → Prop) (f : Field σ) : Prop :=
  ∀ d set s, f.read d = .ok set → holds s → holds (set s)

/-- A field keeps a property if values with some property of theirs do. -/
theorem Field.keeps_of_value {holds : σ → Prop} {fits : α → Prop} {name : String}
    {optional : Bool} {value : Document → Except ReadError α} {set : α → σ → σ}
    (values : ∀ d a, value d = .ok a → fits a)
    (sets : ∀ a s, fits a → holds s → holds (set a s)) :
    Field.Keeps holds ⟨name, optional, fun d ↦ (value d).map set⟩ := by
  intro d change s read holds
  obtain ⟨a, reads, rfl⟩ := map_eq_ok_iff.mp read
  exact sets a s (values d a reads) holds

/-- A field keeps what its values have no part in. -/
theorem Field.keeps_of_apart {holds : σ → Prop} {name : String} {optional : Bool}
    {value : Document → Except ReadError α} {set : α → σ → σ}
    (apart : ∀ a s, holds s → holds (set a s)) :
    Field.Keeps holds ⟨name, optional, fun d ↦ (value d).map set⟩ :=
  keeps_of_value (fun _ _ _ ↦ trivial) fun a s _ ↦ apart a s

section Keeps

variable {fields : List (Field σ)} {holds : σ → Prop}

theorem of_members? (keeps : ∀ f ∈ fields, f.Keeps holds) (begins : holds s)
    {members : List (Except TextFault String × Document)} {seen seen' : List String}
    (read : members? fields seen s members = .ok (t, seen')) : holds t := by
  induction members generalizing seen s with
  | nil =>
    cases read
    exact begins
  | cons member rest ih =>
    obtain ⟨key, d⟩ := member
    cases key with
    | error fault => cases read
    | ok key =>
      rw [members?] at read
      split at read
      · cases read
      rename_i f found
      split at read
      · cases read
      split at read
      · cases read
      rename_i set sets
      exact ih (keeps f (List.mem_of_find?_eq_some found) d set s sets begins) read

theorem of_items? (keeps : ∀ f ∈ fields, f.Keeps holds) (begins : holds s) {expected : String}
    {index : Nat} {items rest : List Document}
    (read : items? expected index s fields items = .ok (t, rest)) : holds t := by
  induction fields generalizing items index s with
  | nil =>
    cases read
    exact begins
  | cons f fields ih =>
    rw [List.forall_mem_cons] at keeps
    cases items with
    | nil =>
      rw [items?] at read
      split at read
      · exact ih keeps.2 begins read
      · cases read
    | cons d items =>
      rw [items?] at read
      split at read
      · cases read
      · rename_i set sets
        exact ih keeps.2 (keeps.1 d set s sets begins) read

/-- **A property that every field keeps holds of the record that is read**, if it holds of one of
which nothing was read. -/
theorem of_record? (holds : σ → Prop) (keeps : ∀ f ∈ fields, f.Keeps holds) {initial : σ}
    (begins : holds initial) {dialect : Dialect} {title : String} {d : Document}
    (read : record? dialect title fields initial d = .ok s) : holds s := by
  unfold record? at read
  split at read
  · split at read
    · cases read
    · rename_i reads
      split at read
      · cases read
      · cases read
        exact of_members? keeps begins reads
  · dsimp only at read
    split at read
    · cases read
    · rename_i reads
      split at read
      · cases read
      · cases read
        exact of_items? keeps begins reads
  · cases read

end Keeps

theorem of_list? {holds : α → Prop} {dialect : Dialect} {item : Document → Except ReadError α}
    (items : ∀ d a, item d = .ok a → holds a) {d : Document} {as : List α}
    (read : list? dialect item d = .ok as) : ∀ a ∈ as, holds a := by
  cases d with
  | list ds =>
    rw [list?, mapM_eq_ok_iff] at read
    induction read with
    | nil => exact List.forall_mem_nil _
    | cons first _ ih => exact List.forall_mem_cons.mpr ⟨items _ _ first, ih⟩
  | _ => cases read

theorem of_optional? {holds : α → Prop} {value : Document → Except ReadError α}
    (values : ∀ d a, value d = .ok a → holds a) {d : Document} {o : Option α}
    (read : optional? value d = .ok o) : ∀ a ∈ o, holds a := by
  unfold optional? at read
  split at read
  · cases read
    simp
  · obtain ⟨a, reads, rfl⟩ := map_eq_ok_iff.mp read
    rintro _ ⟨⟩
    exact values d a reads

/-- Whatever number is read from the relaxed notation settles, if the bound does. -/
theorem settled_of_natural? {kind : String} {limit n : Nat} (bound : Numeral.Settled limit)
    {d : Document} (read : natural? .relaxed kind limit d = .ok n) :
    n ≤ limit ∧ Numeral.Settled n := by
  unfold natural? at read
  split at read
  · contradiction
  · split at read
    · rename_i w wide
      cases read
      exact ⟨w.toNatUpTo_le limit, Numeral.settled_toNatUpTo wide bound⟩
    · cases read
  · cases read
  · contradiction

end Document

end MessageBridge
