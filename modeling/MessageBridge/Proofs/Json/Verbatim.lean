import MessageBridge.Proofs.Json.ReadBack

/-!
# Names that are mentioned more than once

Of a member name that a text repeats, the last value counts, in the place of the first. Reading is
therefore reading verbatim, with every mention kept (`Value.verbatim?`), and settling what was read
(`Value.settle`): `Value.ofBytes?_eq_settle`.

The two readings run the same machine under different rules. Whenever a map of values takes the
lists and records of one set of rules to those of another, it takes what the machine does under the
first to what it does under the second (`Nesting.value?_map`).
-/

namespace MessageBridge

/-! ## Reading under other rules -/

/-- The piece with its value mapped. -/
def Piece.map {κ β γ : Type} (f : β → γ) : Piece κ β → Piece κ γ
  | .openList => .openList
  | .closeList => .closeList
  | .openRecord => .openRecord
  | .closeRecord => .closeRecord
  | .colon => .colon
  | .comma => .comma
  | .atom asKey asValue => .atom asKey (asValue.map f)

namespace Nesting

variable {κ β γ : Type} {f : β → γ} {source : Rules κ β} {target : Rules κ γ}

/-- The container with its members mapped. -/
def Frame.map (f : β → γ) : Frame κ β → Frame κ γ
  | .list members => .list (members.map f)
  | .record members key => .record (members.map (Prod.map id f)) key

/-- The place with a finished value mapped. -/
def Place.map (f : β → γ) : Place κ β → Place κ γ
  | .value mayClose => .value mayClose
  | .key mayClose => .key mayClose
  | .colon name => .colon name
  | .separator => .separator
  | .finished v => .finished (f v)

/-- The state with all its values mapped. -/
def State.map (f : β → γ) (state : State κ β) : State κ γ :=
  ⟨state.stack.map (Frame.map f), state.place.map f⟩

/-- The map takes the lists and records of one set of rules to those of the other, and the two agree
on all else. -/
structure Rules.Carries (f : β → γ) (source : Rules κ β) (target : Rules κ γ) : Prop where
  list : ∀ items, target.list (items.map f) = f (source.list items)
  record : ∀ members, target.record (members.map (Prod.map id f)) = f (source.record members)
  trailingComma : target.trailingComma = source.trailingComma
  maxDepth : target.maxDepth = source.maxDepth

theorem complete_map (v : β) (stack : List (Frame κ β)) :
    complete (f v) (stack.map (Frame.map f)) = (complete v stack).map (State.map f) := by
  cases stack with
  | nil => rfl
  | cons frame stack =>
    cases frame with
    | list members => rfl
    | record members key => cases key <;> rfl

section Carries

variable (carries : Rules.Carries f source target)

include carries

theorem endList_map (stack : List (Frame κ β)) :
    endList target (stack.map (Frame.map f)) = (endList source stack).map (State.map f) := by
  cases stack with
  | nil => rfl
  | cons frame stack =>
    cases frame with
    | list members =>
      simp only [List.map_cons, Frame.map, endList, ← List.map_reverse, carries.list, complete_map]
    | record members key => rfl

theorem endRecord_map (stack : List (Frame κ β)) :
    endRecord target (stack.map (Frame.map f)) =
      (endRecord source stack).map (State.map f) := by
  cases stack with
  | nil => rfl
  | cons frame stack =>
    cases frame with
    | list members => rfl
    | record members key =>
      cases key with
      | none =>
        simp only [List.map_cons, Frame.map, endRecord, ← List.map_reverse, carries.record,
          complete_map]
      | some key => rfl

theorem beginValue_map (stack : List (Frame κ β)) (piece : Piece κ β) :
    beginValue target (stack.map (Frame.map f)) (piece.map f) =
      (beginValue source stack piece).map (State.map f) := by
  have opens : mayOpen target (stack.map (Frame.map f)) = mayOpen source stack := by
    simp only [mayOpen, carries.maxDepth, List.length_map]
  cases piece with
  | openList =>
    simp only [Piece.map, beginValue, opens]
    split <;> rfl
  | openRecord =>
    simp only [Piece.map, beginValue, opens]
    split <;> rfl
  | atom asKey asValue =>
    cases asValue with
    | none => rfl
    | some v => exact complete_map v stack
  | closeList | closeRecord | colon | comma => rfl

/-- One more piece does under both rules the same. -/
theorem step_map (state : State κ β) (piece : Piece κ β) :
    step target (state.map f) (piece.map f) = (step source state piece).map (State.map f) := by
  obtain ⟨stack, place⟩ := state
  cases place with
  | value mayClose =>
    have begins := beginValue_map carries stack piece
    cases mayClose with
    | false => exact begins
    | true =>
      cases piece with
      | closeList => exact endList_map carries stack
      | _ => exact begins
  | key mayClose =>
    cases piece with
    | closeRecord =>
      cases mayClose with
      | false => rfl
      | true => exact endRecord_map carries stack
    | atom asKey asValue => cases asKey <;> cases mayClose <;> rfl
    | _ => cases mayClose <;> rfl
  | colon key =>
    cases piece with
    | colon =>
      cases stack with
      | nil => rfl
      | cons frame stack =>
        cases frame with
        | list members => rfl
        | record members key => cases key <;> rfl
    | _ => rfl
  | separator =>
    cases piece with
    | closeList => exact endList_map carries stack
    | closeRecord => exact endRecord_map carries stack
    | comma =>
      cases stack with
      | nil => rfl
      | cons frame stack =>
        cases frame <;>
          simp [State.map, Place.map, Piece.map, Frame.map, step, carries.trailingComma]
    | _ => rfl
  | finished v => cases piece <;> rfl

theorem run_map (pieces : List (Piece κ β)) (state : State κ β) :
    run target (state.map f) (pieces.map (Piece.map f)) =
      (run source state pieces).map (State.map f) := by
  induction pieces generalizing state with
  | nil => rfl
  | cons piece rest ih =>
    rw [List.map_cons, run_cons, run_cons, step_map carries]
    cases step source state piece with
    | none => rfl
    | some next => exact ih next

/-- **What is read under one set of rules is what is read under the other, mapped.** -/
theorem value?_map (pieces : List (Piece κ β)) :
    value? target (pieces.map (Piece.map f)) = (value? source pieces).map f := by
  have runs := run_map carries pieces start
  have begins : start.map f = (start : State κ γ) := rfl
  rw [begins] at runs
  rw [value?, value?, runs]
  cases run source start pieces with
  | none => rfl
  | some state =>
    obtain ⟨stack, place⟩ := state
    cases place <;> rfl

end Carries

end Nesting

namespace Json

/-! ## Verbatim reading -/

/-- The decisions of JSON, except that an object keeps every mention of a name. -/
def verbatimRules : Nesting.Rules String Value := { rules with record := .object }

namespace Value

/-- The value that bytes spell, with every mention of a name kept. -/
def verbatim? (bytes : ByteArray) : Option Value :=
  (String.fromUTF8? bytes).bind fun s ↦ (pieces? s.toList).bind (Nesting.value? verbatimRules)

mutual

/-- The value in which of every name the last mention counts, in the place of the first. -/
def settle : Value → Value
  | .null => .null
  | .bool b => .bool b
  | .number n => .number n
  | .string s => .string s
  | .array items => .array (settleItems items)
  | .object members => .object (Named.ofList (settleMembers members))

/-- All items settled. -/
def settleItems : List Value → List Value
  | [] => []
  | v :: rest => v.settle :: settleItems rest

/-- The values of all members settled. -/
def settleMembers : List (String × Value) → List (String × Value)
  | [] => []
  | (name, v) :: rest => (name, v.settle) :: settleMembers rest

end

theorem settleItems_eq_map (items : List Value) : settleItems items = items.map settle := by
  induction items with
  | nil => rfl
  | cons v rest ih => rw [settleItems, ih, List.map_cons]

theorem settleMembers_eq_map (members : Fields) :
    settleMembers members = members.map (Prod.map id settle) := by
  induction members with
  | nil => rfl
  | cons m rest ih =>
    obtain ⟨name, v⟩ := m
    rw [settleMembers, ih, List.map_cons]
    rfl

theorem names_settleMembers (members : Fields) :
    Named.names (settleMembers members) = Named.names members := by
  rw [settleMembers_eq_map, Named.names, List.map_map]
  rfl

theorem carries_settle : Nesting.Rules.Carries settle verbatimRules rules where
  list items := by
    rw [← settleItems_eq_map]
    exact (settle.eq_5 items).symm
  record members := by
    rw [← settleMembers_eq_map]
    exact (settle.eq_6 members).symm
  trailingComma := rfl
  maxDepth := rfl

/-- Settling leaves an atom as it is. -/
theorem settle_of_readable_zero {v : Value} (plain : v.Readable 0) : v.settle = v := by
  generalize none_left : 0 = left at plain
  cases plain with
  | array _ => cases none_left
  | object _ _ => cases none_left
  | _ => rfl

/-- So settling leaves the pieces of a text as they are. -/
theorem map_settle_of_plain {pieces : List JsonPiece} (plain : ∀ piece ∈ pieces, PlainPiece piece) :
    pieces.map (Piece.map settle) = pieces := by
  refine (List.map_congr_left fun piece mem ↦ ?_).trans (List.map_id pieces)
  cases piece with
  | atom asKey asValue =>
    cases asValue with
    | none => rfl
    | some v =>
      exact congrArg (fun v ↦ Piece.atom asKey (some v)) (settle_of_readable_zero (plain _ mem))
  | _ => rfl

/-- **Reading is reading verbatim and settling what was read.** -/
theorem ofBytes?_eq_settle (bytes : ByteArray) : ofBytes? bytes = (verbatim? bytes).map settle := by
  rw [ofBytes?, verbatim?]
  cases String.fromUTF8? bytes with
  | none => rfl
  | some s =>
    rw [Option.bind_some, Option.bind_some, ofString?, ofChars?]
    cases found : pieces? s.toList with
    | none => rfl
    | some pieces =>
      rw [Option.bind_some, Option.bind_some, ← Nesting.value?_map carries_settle,
        map_settle_of_plain (ensures_plain.pieces found)]

end Value

end Json

end MessageBridge
