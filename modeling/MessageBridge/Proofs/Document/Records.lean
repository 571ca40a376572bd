import MessageBridge.Proofs.Json.ReadBack
import MessageBridge.Route.TableText

/-!
# Readers and writers that fit together

A reader and a writer of one kind of value fit together (`Lossless`) when whatever is written is
read back, and whatever is read keeps all that was said. What a value says depends on its place: a
`Shape` tells for each place which members are declared there and which of them may be null.

Lists of such values fit together again, and so do records (`record_lossless`). A record is
described by its slots, each with the reader of its field and the writer of its member. What has to
be checked of a record type is that its slots are independent of each other and make up the whole
value (`Slots`), and that each of them fits together by itself.
-/

namespace MessageBridge.Document

open Json (Value)

/-! ## Shapes -/

/-- What is asked of the values at one place. -/
structure Shape where
  /-- Records are objects, and variants are named by a string. -/
  plain : Value → Prop
  /-- The second value has all that the first says. -/
  keeps : Value → Value → Prop
  /-- The depth to which containers nest. -/
  depth : Nat

namespace Shape

/-- A value without parts. -/
def atom : Shape := ⟨fun _ ↦ True, Eq, 0⟩

/-- The name of a variant. -/
def variant : Shape := ⟨fun v ↦ ∃ name, v = .string name, Eq, 0⟩

/-- An array. -/
def list (item : Shape) : Shape where
  plain v := ∀ items, v = .array items → ∀ x ∈ items, item.plain x
  keeps v w := ∃ items items', v = .array items ∧ w = .array items' ∧
    List.Forall₂ item.keeps items items'
  depth := item.depth + 1

/-- A declared member of an object. -/
structure Member where
  /-- The name. -/
  name : String
  /-- Whether null stands for no value. -/
  nullable : Bool
  /-- The shape of its values. -/
  shape : Shape

/-- An object with the declared members and no others. Each keeps its value, unless it is null for
no value. -/
def record (declared : List Member) : Shape where
  plain v := ∃ members, v = .object members ∧ ∀ key x, (key, x) ∈ members → ∀ m ∈ declared,
    m.name = key → m.nullable = true ∧ x = .null ∨ m.shape.plain x
  keeps v w := ∃ members members', v = .object members ∧ w = .object members' ∧
    ∀ key x, (key, x) ∈ members → ∃ m ∈ declared, m.name = key ∧
      (m.nullable = true ∧ x = .null ∨
        ∃ y, Named.get? key members' = some y ∧ m.shape.keeps x y)
  depth := (declared.map fun m ↦ m.shape.depth).foldr max 0 + 1

end Shape

/-! ## Fitting together -/

/-- The value is read from its own text when there is room for its containers. -/
def Textual (depth : Nat) (v : Value) : Prop :=
  v.FloatsReadBack ∧ ∀ room, depth ≤ room → v.Readable room

theorem succ_of_le {depth room : Nat} (deep : depth + 1 ≤ room) : ∃ less, room = less + 1 :=
  Nat.exists_eq_add_one_of_ne_zero (Nat.ne_of_gt (Nat.lt_of_lt_of_le depth.succ_pos deep))

/-- A reader and a writer of one kind of value fit together. -/
structure Lossless {α : Type} (shape : Shape) (read : Document → Except ReadError α)
    (write : α → Value) (fits : α → Prop) : Prop where
  /-- Whatever is written is read back. -/
  back : ∀ a, fits a → read (ofJson (write a)) = .ok a
  textual : ∀ a, fits a → Textual shape.depth (write a)
  /-- Whatever is read has all that was said. -/
  kept : ∀ v a, shape.plain v → read (ofJson v) = .ok a → fits a ∧ shape.keeps v (write a)

theorem Lossless.of_eq {α : Type} {shape : Shape} {read : Document → Except ReadError α}
    {write write' : α → Value} {fits fits' : α → Prop} (lossless : Lossless shape read write fits)
    (writes : ∀ a, write a = write' a) (range : ∀ a, fits a ↔ fits' a) :
    Lossless shape read write' fits' := by
  obtain rfl : write = write' := funext writes
  obtain rfl : fits = fits' := funext fun a ↦ propext (range a)
  exact lossless

theorem map_eq_ok_iff {ε α β : Type} {x : Except ε α} {f : α → β} {b : β} :
    x.map f = .ok b ↔ ∃ a, x = .ok a ∧ f a = b := by
  cases x with
  | error e => simp [Except.map]
  | ok a => simp [Except.map]

theorem text_lossless : Lossless .atom (text? .json) .string fun _ ↦ True := by
  constructor
  · exact fun _ _ ↦ rfl
  · exact fun s _ ↦ ⟨Value.floatsReadBack_string s, fun _ _ ↦ .string s⟩
  · intro v s _ read
    cases v with
    | string s' =>
      cases read
      exact ⟨trivial, rfl⟩
    | _ => cases read

theorem natural_lossless (kind : String) {limit : Nat} (small : limit ≤ maxUInt64) :
    Lossless .atom (natural? .json kind limit) .ofNat fun n ↦ n ≤ limit := by
  constructor
  · intro n fits
    simp [natural?, Value.ofNat, ofJson, fits]
  · intro n fits
    refine ⟨Value.floatsReadBack_int n, fun room _ ↦ .number ?_⟩
    rw [maxUInt64] at small
    simp only [Json.Number.Fits]
    omega
  · intro v n _ read
    cases v with
    | number x =>
      cases x with
      | int i =>
        simp only [natural?, ofJson] at read
        split at read
        · rename_i range
          cases read
          obtain ⟨positive, bound⟩ := range
          refine ⟨by omega, ?_⟩
          rw [Value.ofNat, Int.toNat_of_nonneg positive]
          rfl
        · cases read
      | float _ => cases read
    | _ => cases read

/-! ## Variants -/

theorem choice_lossless {α : Type} {variants : List (String × α)} {name : α → String}
    (named : ∀ a, Named.get? (name a) variants = some a)
    (own : ∀ n a, Named.get? n variants = some a → name a = n) :
    Lossless .variant (choice? .json variants) (fun a ↦ .string (name a)) fun _ ↦ True := by
  constructor
  · intro a _
    simp [choice?, ofJson, variant?, named a]
  · exact fun a _ ↦ ⟨Value.floatsReadBack_string _, fun _ _ ↦ .string _⟩
  · rintro _ a ⟨n, rfl⟩ read
    simp only [choice?, ofJson, variant?] at read
    split at read
    · rename_i found
      cases read
      exact ⟨trivial, by rw [own n _ found]; rfl⟩
    · cases read

/-! ## Lists -/

theorem ofJsonItems_eq_map (items : List Value) : ofJsonItems items = items.map ofJson := by
  induction items with
  | nil => rfl
  | cons v rest ih => rw [ofJsonItems, ih, List.map_cons]

theorem mapM_eq_ok_iff {α β ε : Type} {f : α → Except ε β} {items : List α} {read : List β} :
    items.mapM f = .ok read ↔ List.Forall₂ (fun x y ↦ f x = .ok y) items read := by
  induction items generalizing read with
  | nil =>
    cases read with
    | nil => simp [pure, Except.pure]
    | cons _ _ => simp [pure, Except.pure]
  | cons x rest ih =>
    rw [List.mapM_cons]
    constructor
    · intro all
      rcases first : f x with e | y
      · simp [first, bind, Except.bind] at all
      · rcases others : rest.mapM f with e | ys
        · simp [first, others, bind, Except.bind] at all
        · simp only [first, others, bind, Except.bind, pure, Except.pure, Except.ok.injEq] at all
          subst all
          exact .cons first (ih.mp others)
    · rintro (_ | ⟨first, others⟩)
      simp [first, ih.mpr others, bind, Except.bind, pure, Except.pure]

theorem list_lossless {α : Type} {shape : Shape} {read : Document → Except ReadError α}
    {write : α → Value} {fits : α → Prop} (item : Lossless shape read write fits) :
    Lossless (.list shape) (list? .json read) (fun as ↦ .array (as.map write))
      (fun as ↦ ∀ a ∈ as, fits a) := by
  constructor
  · intro as fit
    simp only [ofJson, list?, ofJsonItems_eq_map, List.map_map]
    rw [mapM_eq_ok_iff, List.forall₂_map_left_iff, List.forall₂_same]
    exact fun a mem ↦ item.back a (fit a mem)
  · intro as fit
    constructor
    · simpa using fun a mem ↦ (item.textual a (fit a mem)).1
    · intro room deep
      obtain ⟨less, rfl⟩ := succ_of_le deep
      refine .array ?_
      simpa using fun a mem ↦ (item.textual a (fit a mem)).2 less (Nat.le_of_succ_le_succ deep)
  · intro v as plain read
    cases v with
    | array items =>
      simp only [ofJson, list?, ofJsonItems_eq_map] at read
      rw [mapM_eq_ok_iff, List.forall₂_map_left_iff] at read
      replace plain := plain items rfl
      suffices (∀ a ∈ as, fits a) ∧ List.Forall₂ (fun x a ↦ shape.keeps x (write a)) items as from
        ⟨this.1, items, _, rfl, rfl, List.forall₂_map_right_iff.mpr this.2⟩
      induction read with
      | nil => exact ⟨nofun, .nil⟩
      | cons first _ ih =>
        rw [List.forall_mem_cons] at plain
        obtain ⟨fit, keeps⟩ := item.kept _ _ plain.1 first
        obtain ⟨fits, others⟩ := ih plain.2
        exact ⟨List.forall_mem_cons.mpr ⟨fit, fits⟩, .cons keeps others⟩
    | _ => cases read

/-! ## Slots -/

/-- A field of a record, with its place in the value of the record. -/
structure Slot (σ : Type) where
  /-- The type of its values. -/
  Content : Type
  /-- Its name. -/
  name : String
  /-- Whether it must be present. -/
  required : Bool
  /-- Whether null stands for no value. -/
  nullable : Bool
  /-- The shape of its values. -/
  shape : Shape
  /-- Its value. -/
  get : σ → Content
  /-- The record with another value of it. -/
  set : Content → σ → σ
  /-- How its value is read. -/
  read : Document → Except ReadError Content
  /-- How its value is written, unless it is left out. -/
  write : Content → Option Value
  /-- Whether its value is in range. -/
  fits : Content → Prop

namespace Slot

variable {σ : Type}

/-- The field that reads a slot. -/
def field (slot : Slot σ) : Field σ :=
  ⟨slot.name, !slot.required, fun d ↦ (slot.read d).map slot.set⟩

/-- The member that a slot is written to. -/
def member (s : σ) (slot : Slot σ) : List (String × Value) :=
  optionalMember slot.name (slot.write (slot.get s))

/-- The member that a slot declares. -/
def declared (slot : Slot σ) : Shape.Member := ⟨slot.name, slot.nullable, slot.shape⟩

/-- A slot that is always written. -/
def always {α : Type} (name : String) (required : Bool) (shape : Shape) (get : σ → α)
    (set : α → σ → σ) (read : Document → Except ReadError α) (write : α → Value)
    (fits : α → Prop) : Slot σ :=
  ⟨α, name, required, false, shape, get, set, read, fun a ↦ some (write a), fits⟩

/-- A slot that is left out when it has no value. -/
def maybe {α : Type} (name : String) (shape : Shape) (get : σ → Option α)
    (set : Option α → σ → σ) (read : Document → Except ReadError α) (write : α → Value)
    (fits : α → Prop) : Slot σ :=
  ⟨Option α, name, false, true, shape, get, set, optional? read, Option.map write,
    fun o ↦ ∀ a ∈ o, fits a⟩

/-- The reader and the writer of a slot fit together, and with its value in a record of which
nothing was read. -/
structure Lossless (initial : σ) (slot : Slot σ) : Prop where
  back : ∀ a v, slot.fits a → slot.write a = some v → slot.read (ofJson v) = .ok a
  textual : ∀ a v, slot.fits a → slot.write a = some v → Textual slot.shape.depth v
  leftOut : ∀ a, slot.write a = none → slot.required = false ∧ a = slot.get initial
  kept : ∀ v a, slot.nullable = true ∧ v = .null ∨ slot.shape.plain v →
    slot.read (ofJson v) = .ok a → slot.fits a ∧
      (slot.nullable = true ∧ v = .null ∨ ∃ w, slot.write a = some w ∧ slot.shape.keeps v w)
  initial : slot.fits (slot.get initial)

variable {α : Type} {name : String} {shape : Shape} {read : Document → Except ReadError α}
  {write : α → Value} {fits : α → Prop} {initial : σ}

theorem lossless_always {required : Bool} {get : σ → α} {set : α → σ → σ}
    (value : Document.Lossless shape read write fits) (range : fits (get initial)) :
    (always name required shape get set read write fits).Lossless initial := by
  constructor
  · rintro a _ fit ⟨⟩
    exact value.back a fit
  · rintro a _ fit ⟨⟩
    exact value.textual a fit
  · rintro a ⟨⟩
  · rintro v a (⟨⟨⟩, -⟩ | plain) read
    obtain ⟨fit, keeps⟩ := value.kept v a plain read
    exact ⟨fit, .inr ⟨_, rfl, keeps⟩⟩
  · exact range

theorem optional?_of_ne_null {v : Value} (solid : v ≠ .null) :
    optional? read (ofJson v) = (read (ofJson v)).map some := by
  cases v with
  | null => exact absurd rfl solid
  | _ => rfl

theorem lossless_maybe {get : σ → Option α} {set : Option α → σ → σ}
    (value : Document.Lossless shape read write fits) (solid : ∀ a, write a ≠ .null)
    (nothing : get initial = none) :
    (maybe name shape get set read write fits).Lossless initial := by
  constructor
  · rintro (_ | a) _ fit ⟨⟩
    change optional? read _ = _
    rw [optional?_of_ne_null (solid a), value.back a (fit a rfl)]
    rfl
  · rintro (_ | a) _ fit ⟨⟩
    exact value.textual a (fit a rfl)
  · rintro (_ | a) ⟨⟩
    exact ⟨rfl, nothing.symm⟩
  · intro v a plain found
    change optional? read (ofJson v) = _ at found
    by_cases missing : v = .null
    · subst missing
      cases found
      exact ⟨nofun, .inl ⟨rfl, rfl⟩⟩
    · rw [optional?_of_ne_null missing] at found
      obtain ⟨b, reads, rfl⟩ := map_eq_ok_iff.mp found
      obtain ⟨fit, keeps⟩ := value.kept v b (plain.resolve_left fun null ↦ missing null.2) reads
      refine ⟨?_, .inr ⟨_, rfl, keeps⟩⟩
      rintro _ ⟨⟩
      exact fit
  · change ∀ a ∈ get initial, fits a
    rw [nothing]
    exact nofun

end Slot

/-! ## Records -/

section Records

variable {σ : Type} {slots : List (Slot σ)} {initial : σ}

/-- The slots of a record: they have different names, do not interfere, and make up the whole
value. -/
structure Slots (slots : List (Slot σ)) (initial : σ) : Prop where
  distinct : (slots.map Slot.name).Nodup
  same : ∀ slot ∈ slots, ∀ a s, slot.get (slot.set a s) = a
  other : ∀ i ∈ slots, ∀ j ∈ slots, i.name ≠ j.name → ∀ a s, j.get (i.set a s) = j.get s
  whole : ∀ s t, (∀ slot ∈ slots, slot.get s = slot.get t) → s = t
  lossless : ∀ slot ∈ slots, slot.Lossless initial

theorem Slots.eq_of_name (ok : Slots slots initial) {i j : Slot σ} (hi : i ∈ slots) (hj : j ∈ slots)
    (same : i.name = j.name) : i = j := List.inj_on_of_nodup_map ok.distinct hi hj same

theorem mem_of_find_field {key : String} {f : Field σ}
    (found : (slots.map Slot.field).find? (fun f ↦ f.name == key) = some f) :
    ∃ slot ∈ slots, slot.name = key ∧ slot.field = f := by
  obtain ⟨slot, mem, rfl⟩ := List.mem_map.mp (List.mem_of_find?_eq_some found)
  have same := List.find?_some found
  exact ⟨slot, mem, beq_iff_eq.mp same, rfl⟩

theorem Slots.find_field (ok : Slots slots initial) {slot : Slot σ} (mem : slot ∈ slots) :
    (slots.map Slot.field).find? (fun f ↦ f.name == slot.name) = some slot.field := by
  have named : (slots.map Slot.field).map Field.name = slots.map Slot.name := by
    rw [List.map_map]
    rfl
  exact Named.find?_of_distinct (named ▸ ok.distinct) (List.mem_map.mpr ⟨slot, mem, rfl⟩)

/-- What is read of the members of an object: each is the value of the slot of its name, and no slot
is read twice. -/
theorem Slots.of_members? (ok : Slots slots initial) {members : List (String × Value)}
    {seen seen' : List String} {s t : σ}
    (read : members? (slots.map Slot.field) seen s (ofJsonMembers members) = .ok (t, seen')) :
    (∀ key x, (key, x) ∈ members → key ∉ seen ∧
      ∃ slot ∈ slots, slot.name = key ∧ slot.read (ofJson x) = .ok (slot.get t)) ∧
    (∀ slot ∈ slots, slot.name ∉ Named.names members → slot.get t = slot.get s) := by
  induction members generalizing seen s with
  | nil =>
    cases read
    exact ⟨nofun, fun _ _ _ ↦ rfl⟩
  | cons member rest ih =>
    obtain ⟨key, x⟩ := member
    rw [ofJsonMembers, members?] at read
    split at read
    · cases read
    rename_i f found
    obtain ⟨slot, mem, rfl, rfl⟩ := mem_of_find_field found
    split at read
    · cases read
    rename_i new
    split at read
    · cases read
    rename_i set sets
    obtain ⟨a, reads, rfl⟩ := map_eq_ok_iff.mp sets
    obtain ⟨later, untouched⟩ := ih read
    -- the name counts as seen from here on, so what is read later leaves this slot alone
    have once : slot.name ∉ Named.names rest := by
      intro again
      obtain ⟨⟨_, x'⟩, there, same⟩ := List.mem_map.mp again
      exact (later _ x' there).1 (same ▸ List.mem_cons_self)
    constructor
    · intro key x' there
      rcases List.mem_cons.mp there with here | there
      · cases here
        refine ⟨mt List.contains_iff_mem.mpr new, slot, mem, rfl, ?_⟩
        rw [untouched slot mem once, ok.same slot mem]
        exact reads
      · obtain ⟨unseen, slot', mem', named, reads'⟩ := later key x' there
        exact ⟨fun old ↦ unseen (List.mem_cons_of_mem _ old), slot', mem', named, reads'⟩
    · intro slot' mem' absent
      rw [Named.names, List.map_cons, List.mem_cons, not_or] at absent
      rw [untouched slot' mem' absent.2, ok.other slot mem slot' mem' (Ne.symm absent.1)]

/-- Members that are readable one by one and repeat no name are read. -/
theorem Slots.members?_eq_ok (ok : Slots slots initial) {members : List (String × Value)}
    {seen : List String} (s : σ) (distinct : Named.Distinct members)
    (new : ∀ n ∈ Named.names members, n ∉ seen)
    (reads : ∀ key x, (key, x) ∈ members →
      ∃ slot ∈ slots, slot.name = key ∧ ∃ a, slot.read (ofJson x) = .ok a) :
    ∃ t seen', members? (slots.map Slot.field) seen s (ofJsonMembers members) = .ok (t, seen') ∧
      ∀ n, n ∈ seen' ↔ n ∈ seen ∨ n ∈ Named.names members := by
  induction members generalizing seen s with
  | nil => exact ⟨s, seen, rfl, by simp [Named.names]⟩
  | cons member rest ih =>
    obtain ⟨key, x⟩ := member
    obtain ⟨slot, mem, rfl, a, read⟩ := reads _ x List.mem_cons_self
    rw [Named.Distinct, Named.names, List.map_cons, List.nodup_cons] at distinct
    have unseen : slot.name ∉ seen := new _ List.mem_cons_self
    have others : ∀ n ∈ Named.names rest, n ∉ slot.name :: seen := by
      intro n there
      rw [List.mem_cons, not_or]
      refine ⟨?_, new n (List.mem_cons_of_mem _ there)⟩
      rintro rfl
      exact distinct.1 there
    obtain ⟨t, seen', rests, all⟩ := ih (slot.set a s) distinct.2 others
      fun key x there ↦ reads key x (List.mem_cons_of_mem _ there)
    refine ⟨t, seen', ?_, fun n ↦ ?_⟩
    · rw [ofJsonMembers, members?, ok.find_field mem]
      simp only [List.contains_iff_mem, unseen, if_false, Slot.field, read, Except.map]
      exact rests
    · rw [all, List.mem_cons, Named.names, Named.names, List.map_cons, List.mem_cons]
      grind

theorem mem_member {s : σ} {slot : Slot σ} {key : String} {v : Value} :
    (key, v) ∈ slot.member s ↔ slot.name = key ∧ slot.write (slot.get s) = some v := by
  rw [Slot.member]
  cases slot.write (slot.get s) with
  | none => simp [optionalMember]
  | some w => simp [optionalMember, eq_comm]

/-- The members that are written have the names of their slots, in order. -/
theorem Slots.distinct_members (ok : Slots slots initial) (s : σ) :
    Named.Distinct (slots.flatMap (Slot.member s)) := by
  have sublist : (Named.names (slots.flatMap (Slot.member s))).Sublist (slots.map Slot.name) := by
    clear ok
    induction slots with
    | nil => exact .slnil
    | cons slot rest ih =>
      rw [List.flatMap_cons, Named.names, List.map_append, List.map_cons, Slot.member]
      cases slot.write (slot.get s) with
      | none => exact ih.cons _
      | some w => exact ih.cons_cons _
  exact ok.distinct.sublist sublist

theorem written {s : σ} {key : String} {v : Value} :
    (key, v) ∈ slots.flatMap (Slot.member s) ↔
      ∃ slot ∈ slots, slot.name = key ∧ slot.write (slot.get s) = some v := by
  simp only [List.mem_flatMap, mem_member]

/-- A slot that is not written has the value that it has when nothing was read. -/
theorem Slots.initial_of_unwritten (ok : Slots slots initial) {s : σ} {slot : Slot σ}
    (mem : slot ∈ slots)
    (absent : slot.name ∉ Named.names (slots.flatMap (Slot.member s))) :
    slot.required = false ∧ slot.get s = slot.get initial := by
  refine (ok.lossless slot mem).leftOut _ (Option.eq_none_iff_forall_ne_some.mpr fun v present ↦ ?_)
  exact absent (List.mem_map.mpr ⟨(slot.name, v), written.mpr ⟨slot, mem, rfl, present⟩, rfl⟩)

theorem Slots.read_written (ok : Slots slots initial) (title : String) {s : σ}
    (fit : ∀ slot ∈ slots, slot.fits (slot.get s)) :
    record? .json title (slots.map Slot.field) initial
      (ofJson (.object (slots.flatMap (Slot.member s)))) = .ok s := by
  have back {slot : Slot σ} {v : Value} (mem : slot ∈ slots)
      (present : slot.write (slot.get s) = some v) : slot.read (ofJson v) = .ok (slot.get s) :=
    (ok.lossless slot mem).back _ v (fit slot mem) present
  have new : ∀ n ∈ Named.names (slots.flatMap (Slot.member s)), n ∉ ([] : List String) :=
    fun _ _ ↦ List.not_mem_nil
  obtain ⟨t, seen, reads, all⟩ := ok.members?_eq_ok initial (ok.distinct_members s) new
    fun key x there ↦ by
      obtain ⟨slot, mem, named, present⟩ := written.mp there
      exact ⟨slot, mem, named, _, back mem present⟩
  obtain ⟨kept, untouched⟩ := ok.of_members? reads
  have same : t = s := by
    refine ok.whole t s fun slot mem ↦ ?_
    by_cases there : slot.name ∈ Named.names (slots.flatMap (Slot.member s))
    · obtain ⟨⟨key, x⟩, there, named⟩ := List.mem_map.mp there
      obtain ⟨-, slot', mem', own, read⟩ := kept key x there
      obtain ⟨slot'', mem'', own'', present⟩ := written.mp there
      obtain rfl := ok.eq_of_name mem' mem (own.trans named)
      obtain rfl := ok.eq_of_name mem'' mem (own''.trans named)
      exact Except.ok.inj (read.symm.trans (back mem present))
    · rw [untouched slot mem there, (ok.initial_of_unwritten mem there).2]
  have complete : firstMissing? (slots.map Slot.field) seen = none := by
    rw [firstMissing?, Option.map_eq_none_iff, List.find?_eq_none]
    intro f there
    obtain ⟨slot, mem, rfl⟩ := List.mem_map.mp there
    by_cases present : slot.name ∈ Named.names (slots.flatMap (Slot.member s))
    · simp [Slot.field, (all slot.name).mpr (.inr present)]
    · simp [Slot.field, (ok.initial_of_unwritten mem present).1]
  simp only [record?, ofJson, reads, complete, same]

theorem depth_le {slot : Slot σ} (mem : slot ∈ slots) :
    slot.shape.depth + 1 ≤ (Shape.record (slots.map Slot.declared)).depth := by
  refine Nat.succ_le_succ ?_
  rw [List.map_map]
  induction slots with
  | nil => cases mem
  | cons first rest ih =>
    rcases List.mem_cons.mp mem with rfl | mem
    · exact Nat.le_max_left _ _
    · exact Nat.le_trans (ih mem) (Nat.le_max_right _ _)

/-- **Records fit together** when their slots do. -/
theorem record_lossless (title : String) (ok : Slots slots initial) :
    Lossless (.record (slots.map Slot.declared))
      (record? .json title (slots.map Slot.field) initial)
      (fun s ↦ .object (slots.flatMap (Slot.member s)))
      (fun s ↦ ∀ slot ∈ slots, slot.fits (slot.get s)) := by
  constructor
  · intro s fit
    exact ok.read_written title fit
  · intro s fit
    have textual {m : String × Value} (there : m ∈ slots.flatMap (Slot.member s)) :
        ∃ slot ∈ slots, Textual slot.shape.depth m.2 := by
      obtain ⟨slot, mem, -, present⟩ := written.mp there
      exact ⟨slot, mem, (ok.lossless slot mem).textual _ _ (fit slot mem) present⟩
    constructor
    · rw [Value.floatsReadBack_object]
      intro m there
      obtain ⟨slot, -, floats, -⟩ := textual there
      exact floats
    · intro room deep
      obtain ⟨less, rfl⟩ := succ_of_le deep
      refine .object (ok.distinct_members s) fun m there ↦ ?_
      obtain ⟨slot, mem, -, readable⟩ := textual there
      exact readable less (Nat.le_of_succ_le_succ ((depth_le mem).trans deep))
  · rintro _ t ⟨members, rfl, plain⟩ read
    simp only [ofJson, record?] at read
    split at read
    · cases read
    rename_i value seen reads
    split at read
    · cases read
    cases read
    obtain ⟨kept, untouched⟩ := ok.of_members? reads
    -- every member that was read belongs to a slot, which keeps it
    have keeps {key : String} {x : Value} (there : (key, x) ∈ members) : ∃ slot ∈ slots,
        slot.name = key ∧ slot.fits (slot.get t) ∧ (slot.nullable = true ∧ x = .null ∨
          ∃ w, slot.write (slot.get t) = some w ∧ slot.shape.keeps x w) := by
      obtain ⟨-, slot, mem, named, read⟩ := kept key x there
      have here := plain key x there slot.declared (List.mem_map.mpr ⟨slot, mem, rfl⟩) named
      exact ⟨slot, mem, named, (ok.lossless slot mem).kept x _ here read⟩
    refine ⟨fun slot mem ↦ ?_, members, _, rfl, rfl, fun key x there ↦ ?_⟩
    · by_cases there : slot.name ∈ Named.names members
      · obtain ⟨⟨key, x⟩, there, named⟩ := List.mem_map.mp there
        obtain ⟨slot', mem', own, fit, -⟩ := keeps there
        obtain rfl := ok.eq_of_name mem' mem (own.trans named)
        exact fit
      · rw [untouched slot mem there]
        exact (ok.lossless slot mem).initial
    · obtain ⟨slot, mem, named, -, same⟩ := keeps there
      refine ⟨slot.declared, List.mem_map.mpr ⟨slot, mem, rfl⟩, named, same.imp_right ?_⟩
      rintro ⟨w, present, keeps⟩
      refine ⟨w, Named.get?_of_mem (ok.distinct_members t) ?_, keeps⟩
      exact written.mpr ⟨slot, mem, named, present⟩

end Records

end MessageBridge.Document
