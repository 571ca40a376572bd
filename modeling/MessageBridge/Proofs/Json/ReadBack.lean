import MessageBridge.Proofs.Json.Scanning
import MessageBridge.Proofs.Named

/-!
# Values that read back

A value is read back from its text when its containers nest no deeper than the reader goes, its
integers have 64 bits and no object repeats a name (`Value.Readable`), given that its fractions read
back. Whatever is read is such a value, so what was read once is read back from its own text.

The scanner yields the pieces of the value. The machine that nests them is then run over the pieces
by induction on the value: behind the pieces of a value it has completed that value, whatever stood
open before it. The height of the stack of open containers is the depth used up so far, so the room
that a value needs and the height add up to no more than the limit.
-/

namespace MessageBridge

namespace Json

open Nesting (Frame State)
open Scanning (Reads)

variable {room : Nat} {v : Value} {p q : List JsonPiece} {c : Char} {cs : List Char}

namespace Value

/-- The containers of the value nest no deeper than there is room, its integers have 64 bits and its
objects repeat no name. -/
inductive Readable : Nat → Value → Prop where
  | null {room : Nat} : Readable room .null
  | bool {room : Nat} (b : Bool) : Readable room (.bool b)
  | number {room : Nat} {n : Number} : n.Fits → Readable room (.number n)
  | string {room : Nat} (s : String) : Readable room (.string s)
  | array {room : Nat} {items : List Value} : (∀ v ∈ items, Readable room v) →
      Readable (room + 1) (.array items)
  | object {room : Nat} {members : List (String × Value)} : Named.Distinct members →
      (∀ m ∈ members, Readable room m.2) → Readable (room + 1) (.object members)

/-- The fractions in the value read back. -/
def FloatsReadBack (v : Value) : Prop := ∀ x, v.Holds (.float x) → (Number.float x).ReadsBack

@[simp] theorem floatsReadBack_null : null.FloatsReadBack := nofun

@[simp] theorem floatsReadBack_bool (b : Bool) : (bool b).FloatsReadBack := nofun

@[simp] theorem floatsReadBack_string (s : String) : (string s).FloatsReadBack := nofun

@[simp] theorem floatsReadBack_int (n : Int) : (number (.int n)).FloatsReadBack := nofun

@[simp] theorem floatsReadBack_float {x : Decimal.Binary64} :
    (number (.float x)).FloatsReadBack ↔ (Number.float x).ReadsBack := by
  constructor
  · exact fun floats ↦ floats x .here
  · rintro reads _ ⟨⟩
    exact reads

@[simp] theorem floatsReadBack_array {items : List Value} :
    (array items).FloatsReadBack ↔ ∀ v ∈ items, v.FloatsReadBack := by
  constructor
  · exact fun floats _ mem x holds ↦ floats x (.item mem holds)
  · rintro floats x ⟨⟩
    rename_i v holds mem
    exact floats v mem x holds

@[simp] theorem floatsReadBack_object {members : List (String × Value)} :
    (object members).FloatsReadBack ↔ ∀ m ∈ members, m.2.FloatsReadBack := by
  constructor
  · exact fun floats _ mem x holds ↦ floats x (.member mem holds)
  · rintro floats x ⟨⟩
    rename_i m holds mem
    exact floats m mem x holds

/-! ## Scanning -/

/-- The text of a value is scanned into the pieces of the value. -/
theorem Readable.scans (readable : v.Readable room) (floats : v.FloatsReadBack) : v.Scans := by
  induction readable with
  | null => exact fun p ↦ reads_keyword rfl rfl p
  | bool b =>
    intro p
    cases b
    · exact reads_keyword rfl rfl p
    · exact reads_keyword rfl rfl p
  | @number _ n fits =>
    intro p
    have reads : n.ReadsBack := by
      cases n with
      | int n => exact readsBack_int fits
      | float x => exact floats x .here
    exact reads_number reads p
  | string s => exact fun p ↦ reads_string s p
  | array _ ih =>
    intro p
    have items := reads_items
      (fun v mem ↦ ih v mem (floatsReadBack_array.mp floats v mem)) (.openList :: p)
    rw [toChars, pieces]
    simpa using Reads.punctuation (c := '[') rfl
      (items.append_punctuation (c := ']') rfl (.refl _))
  | object _ _ ih =>
    intro p
    have members := reads_members
      (fun m mem ↦ ih m mem (floatsReadBack_object.mp floats m mem)) (.openRecord :: p)
    rw [toChars, pieces]
    simpa using Reads.punctuation (c := '\x7b') rfl
      (members.append_punctuation (c := '\x7d') rfl (.refl _))

/-! ## Nesting -/

/-- The most containers open at once. -/
def depthLimit : Nat := 127

/-- Behind its pieces the value is complete, if there is room for it above what stands open. -/
def Nests (room : Nat) (v : Value) : Prop :=
  ∀ (stack : List (Frame String Value)) (may : Bool), stack.length + room ≤ depthLimit →
    Nesting.run rules ⟨stack, .value may⟩ v.pieces = Nesting.complete v stack

theorem no_comma : rules.trailingComma = false := rfl

theorem run_items {items : List Value} (nests : ∀ v ∈ items, v.Nests room) (some_item : items ≠ [])
    {stack : List (Frame String Value)} (fits : stack.length + 1 + room ≤ depthLimit)
    (done : List Value) (may : Bool) :
    Nesting.run rules ⟨.list done :: stack, .value may⟩ (itemsPieces items) =
      some ⟨.list (items.reverse ++ done) :: stack, .separator⟩ := by
  induction items generalizing done may with
  | nil => exact absurd rfl some_item
  | cons v rest ih =>
    have first := nests v List.mem_cons_self (.list done :: stack) may fits
    cases rest with
    | nil => exact first
    | cons w rest =>
      have others :=
        ih (fun x mem ↦ nests x (List.mem_cons_of_mem v mem)) (by simp) (v :: done) false
      rw [itemsPieces, Nesting.run_append, first]
      simpa [Nesting.run_cons, Nesting.step, Nesting.complete, no_comma] using others

theorem run_members {members : List (String × Value)} (nests : ∀ m ∈ members, m.2.Nests room)
    (some_member : members ≠ []) {stack : List (Frame String Value)}
    (fits : stack.length + 1 + room ≤ depthLimit) (done : List (String × Value)) (may : Bool) :
    Nesting.run rules ⟨.record done none :: stack, .key may⟩ (membersPieces members) =
      some ⟨.record (members.reverse ++ done) none :: stack, .separator⟩ := by
  induction members generalizing done may with
  | nil => exact absurd rfl some_member
  | cons m rest ih =>
    obtain ⟨key, v⟩ := m
    have value := nests (key, v) List.mem_cons_self (.record done (some key) :: stack) false fits
    cases rest with
    | nil =>
      rw [membersPieces]
      simpa [Nesting.run_cons, Nesting.step, Nesting.complete] using value
    | cons n rest =>
      have others := ih (fun x mem ↦ nests x (List.mem_cons_of_mem _ mem)) (by simp)
        ((key, v) :: done) false
      rw [membersPieces]
      simp only [Nesting.run_cons, Nesting.step, Option.bind_some, Nesting.run_append, value,
        Nesting.complete]
      simpa [Nesting.run_cons, Nesting.step, no_comma] using others

section Pieces

variable {stack : List (Frame String Value)} {may : Bool}

theorem run_atom (key : Option String) (v : Value) :
    Nesting.run rules ⟨stack, .value may⟩ [.atom key (some v)] = Nesting.complete v stack := by
  cases may <;> exact Option.bind_fun_some _

theorem mayOpen_of_lt (fits : stack.length < depthLimit) : Nesting.mayOpen rules stack = true :=
  decide_eq_true fits

theorem run_openList (fits : stack.length < depthLimit) (rest : List JsonPiece) :
    Nesting.run rules ⟨stack, .value may⟩ (.openList :: rest) =
      Nesting.run rules ⟨.list [] :: stack, .value true⟩ rest := by
  cases may <;> simp [Nesting.run_cons, Nesting.step, Nesting.beginValue, mayOpen_of_lt fits]

theorem run_openRecord (fits : stack.length < depthLimit) (rest : List JsonPiece) :
    Nesting.run rules ⟨stack, .value may⟩ (.openRecord :: rest) =
      Nesting.run rules ⟨.record [] none :: stack, .key true⟩ rest := by
  cases may <;> simp [Nesting.run_cons, Nesting.step, Nesting.beginValue, mayOpen_of_lt fits]

end Pieces

theorem Readable.nests (readable : v.Readable room) : v.Nests room := by
  induction readable with
  | null => exact fun _ _ _ ↦ run_atom none .null
  | bool b => exact fun _ _ _ ↦ run_atom none (.bool b)
  | @number _ n _ => exact fun _ _ _ ↦ run_atom none (.number n)
  | string s => exact fun _ _ _ ↦ run_atom (some s) (.string s)
  | @array room items _ ih =>
    intro stack may fits
    have last (place : Nesting.Place String Value) (done : List Value)
        (stands : place = .value true ∨ place = .separator) :
        Nesting.run rules ⟨.list done :: stack, place⟩ [.closeList] =
          Nesting.complete (.array done.reverse) stack := by
      rcases stands with rfl | rfl <;> exact Option.bind_fun_some _
    rw [pieces, run_openList (by omega), Nesting.run_append]
    by_cases none_there : items = []
    · subst none_there
      exact last _ [] (.inl rfl)
    · rw [run_items ih none_there (by omega), Option.bind_some, last _ _ (.inr rfl)]
      simp
  | @object room members distinct _ ih =>
    intro stack may fits
    have last (place : Nesting.Place String Value) (done : List (String × Value))
        (stands : place = .key true ∨ place = .separator) :
        Nesting.run rules ⟨.record done none :: stack, place⟩ [.closeRecord] =
          Nesting.complete (.object (Named.ofList done.reverse)) stack := by
      rcases stands with rfl | rfl <;> exact Option.bind_fun_some _
    rw [pieces, run_openRecord (by omega), Nesting.run_append]
    by_cases none_there : members = []
    · subst none_there
      exact last _ [] (.inl rfl)
    · rw [run_members ih none_there (by omega), Option.bind_some, last _ _ (.inr rfl)]
      simp [Named.ofList_of_distinct distinct]

/-- **A value is read from its own text.** -/
theorem ofChars?_toChars (readable : v.Readable depthLimit) (floats : v.FloatsReadBack) :
    ofChars? v.toChars = some v := by
  have scanned : pieces? v.toChars = some v.pieces := by
    rw [pieces?, (readable.scans floats []).pieces?, List.append_nil, List.reverse_reverse]
  have nested : Nesting.run rules Nesting.start v.pieces = some ⟨[], .finished v⟩ :=
    readable.nests [] false (Nat.le_of_eq (Nat.zero_add _))
  rw [ofChars?, scanned, Option.bind_some, Nesting.value?, nested]

/-- A value is read from the bytes of its own text. -/
theorem ofBytes?_render (readable : v.Readable depthLimit) (floats : v.FloatsReadBack) :
    ofBytes? v.render.toUTF8 = some v := by
  have text : String.fromUTF8? v.render.toUTF8 = some v.render := by
    exact dif_pos v.render.isValidUTF8
  rw [ofBytes?, text, Option.bind_some, ofString?, render, String.toList_ofList]
  exact ofChars?_toChars readable floats

/-! ## Whatever is read is readable -/

/-- A value without containers needs no room. -/
theorem Readable.of_zero (readable : v.Readable 0) (room : Nat) : v.Readable room := by
  generalize none_left : 0 = left at readable
  cases readable with
  | null => exact .null
  | bool b => exact .bool b
  | number fits => exact .number fits
  | string s => exact .string s
  | array _ => cases none_left
  | object _ _ => cases none_left

/-- The value of an atom has no containers. -/
def PlainPiece : JsonPiece → Prop
  | .atom _ (some v) => v.Readable 0
  | _ => True

theorem plain_of_word? (spelt : word? cs = some v) : PlainPiece (.atom none (some v)) := by
  unfold word? at spelt
  repeat'
    split at spelt
    · cases spelt
      first | exact .null | exact .bool _
  obtain ⟨n, numeral, rfl⟩ := Option.map_eq_some_iff.mp spelt
  exact .number (fits_of_ofChars? numeral)

/-- What ends inside what was opened is a string. -/
theorem plain_of_turn? {i : Inside} {piece : JsonPiece}
    (found : i.turn? c = some (.found piece)) : PlainPiece piece := by
  unfold Inside.turn? at found
  repeat' split at found
  all_goals
    simp only [Option.map_eq_some_iff, Option.some.injEq, Scanning.Turn.found.injEq, reduceCtorEq,
      and_false, exists_false] at found
  subst found
  exact .string _

theorem ensures_plain : lexicalRules.Ensures PlainPiece where
  punctuation known := by
    unfold punctuation? at known
    repeat'
      split at known
      · cases known
        trivial
    cases known
  word spelt := by
    obtain ⟨v, value, rfl⟩ := Option.map_eq_some_iff.mp spelt
    exact plain_of_word? value
  found := plain_of_turn?

/-- The members of an open container fit in the room that is left below it. -/
def FrameFits (room : Nat) : Frame String Value → Prop
  | .list items => ∀ v ∈ items, v.Readable room
  | .record members _ => ∀ m ∈ members, m.2.Readable room

/-- The open containers are no more than the limit and their members fit. -/
def StackFits : List (Frame String Value) → Prop
  | [] => True
  | frame :: stack => FrameFits (depthLimit - (stack.length + 1)) frame ∧
      stack.length < depthLimit ∧ StackFits stack

/-- The open containers fit, and so does the value of a finished text. -/
structure StateFits (state : State String Value) : Prop where
  stack : StackFits state.stack
  finished : ∀ v, state.place = .finished v → v.Readable depthLimit

theorem fits_complete {stack : List (Frame String Value)} {next : State String Value}
    (readable : v.Readable (depthLimit - stack.length)) (fits : StackFits stack)
    (complete : Nesting.complete v stack = some next) : StateFits next := by
  unfold Nesting.complete at complete
  split at complete
  · cases complete
    refine ⟨trivial, ?_⟩
    rintro _ ⟨⟩
    exact readable
  · cases complete
    exact ⟨⟨List.forall_mem_cons.mpr ⟨readable, fits.1⟩, fits.2⟩, nofun⟩
  · cases complete
    exact ⟨⟨List.forall_mem_cons.mpr ⟨readable, fits.1⟩, fits.2⟩, nofun⟩
  · cases complete

theorem fits_endList {stack : List (Frame String Value)} {next : State String Value}
    (fits : StackFits stack) (ends : Nesting.endList rules stack = some next) : StateFits next := by
  unfold Nesting.endList at ends
  split at ends
  · rename_i items stack
    obtain ⟨items_fit, room, fits⟩ := fits
    have left : depthLimit - (stack.length + 1) + 1 = depthLimit - stack.length := by omega
    have whole : (Value.array items.reverse).Readable (depthLimit - (stack.length + 1) + 1) :=
      .array fun v mem ↦ items_fit v (List.mem_reverse.mp mem)
    rw [left] at whole
    exact fits_complete whole fits ends
  · cases ends

theorem fits_endRecord {stack : List (Frame String Value)} {next : State String Value}
    (fits : StackFits stack) (ends : Nesting.endRecord rules stack = some next) :
    StateFits next := by
  unfold Nesting.endRecord at ends
  split at ends
  · rename_i members stack
    obtain ⟨members_fit, room, fits⟩ := fits
    have left : depthLimit - (stack.length + 1) + 1 = depthLimit - stack.length := by omega
    have whole : (Value.object (Named.ofList members.reverse)).Readable
        (depthLimit - (stack.length + 1) + 1) :=
      .object (Named.distinct_ofList _) fun m mem ↦
        members_fit m (List.mem_reverse.mp (Named.mem_of_mem_ofList mem))
    rw [left] at whole
    exact fits_complete whole fits ends
  · cases ends

theorem fits_beginValue {stack : List (Frame String Value)} {piece : JsonPiece}
    {next : State String Value} (fits : StackFits stack) (plain : PlainPiece piece)
    (begins : Nesting.beginValue rules stack piece = some next) : StateFits next := by
  unfold Nesting.beginValue at begins
  split at begins
  · split at begins
    · rename_i room
      cases begins
      exact ⟨⟨by simp [FrameFits], of_decide_eq_true room, fits⟩, nofun⟩
    · cases begins
  · split at begins
    · rename_i room
      cases begins
      exact ⟨⟨by simp [FrameFits], of_decide_eq_true room, fits⟩, nofun⟩
    · cases begins
  · exact fits_complete (plain.of_zero _) fits begins
  · cases begins

/-- One more piece keeps what is open within the limit. -/
theorem fits_step {state next : State String Value} {piece : JsonPiece} (fits : StateFits state)
    (plain : PlainPiece piece) (step : Nesting.step rules state piece = some next) :
    StateFits next := by
  unfold Nesting.step at step
  split at step
  · exact fits_endList fits.stack step
  · exact fits_beginValue fits.stack plain step
  · exact fits_endRecord fits.stack step
  · cases step
    exact ⟨fits.stack, nofun⟩
  · split at step
    · rename_i opened
      have stack := fits.stack
      rw [opened] at stack
      cases step
      exact ⟨stack, nofun⟩
    · cases step
  · split at step
    · cases step
      exact ⟨fits.stack, nofun⟩
    · cases step
      exact ⟨fits.stack, nofun⟩
    · cases step
  · exact fits_endList fits.stack step
  · exact fits_endRecord fits.stack step
  · cases step

theorem fits_run {state next : State String Value} (fits : StateFits state)
    (plain : ∀ piece ∈ p, PlainPiece piece) (run : Nesting.run rules state p = some next) :
    StateFits next := by
  induction p generalizing state with
  | nil =>
    cases run
    exact fits
  | cons piece rest ih =>
    obtain ⟨first, others⟩ := List.forall_mem_cons.mp plain
    obtain ⟨between, step, run⟩ := Option.bind_eq_some_iff.mp run
    exact ih (fits_step fits first step) others run

/-- **Whatever is read is readable.** -/
theorem readable_of_ofChars? (read : ofChars? cs = some v) : v.Readable depthLimit := by
  obtain ⟨p, scanned, nested⟩ := Option.bind_eq_some_iff.mp read
  unfold Nesting.value? at nested
  split at nested
  · rename_i run
    cases nested
    have begins : StateFits Nesting.start := ⟨trivial, nofun⟩
    have fits := fits_run begins (ensures_plain.pieces scanned) run
    exact fits.finished _ rfl
  · cases nested

theorem readable_of_ofBytes? {bytes : ByteArray} (read : ofBytes? bytes = some v) :
    v.Readable depthLimit := by
  obtain ⟨text, -, read⟩ := Option.bind_eq_some_iff.mp read
  exact readable_of_ofChars? read

end Value

end Json

end MessageBridge
