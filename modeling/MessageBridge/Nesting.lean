/-!
# Nested lists and records

The bracket structure of data formats: values are atoms, lists in square brackets or records of
keyed values in braces. A machine reads one piece at a time and keeps the containers that are
still open on a stack, so reading is a fold over the pieces and the depth of nesting is the height
of the stack.

What an atom is, and what a finished list or record becomes, is left to the format.
-/

namespace MessageBridge

/-- One piece of a nested text. An atom may serve as a key, as a value, or as either. -/
inductive Piece (κ β : Type) where
  | openList
  | closeList
  | openRecord
  | closeRecord
  | colon
  | comma
  | atom (asKey : Option κ) (asValue : Option β)

namespace Nesting

/-! ## What a format decides -/

/-- The decisions of a format. -/
structure Rules (κ β : Type) where
  /-- The value of a finished list. -/
  list : List β → β
  /-- The value of a finished record. -/
  record : List (κ × β) → β
  /-- Whether a comma may stand before a closing bracket. -/
  trailingComma : Bool
  /-- The greatest number of containers open at once, if there is one. -/
  maxDepth : Option Nat

/-! ## The machine -/

/-- A container that is still open, its finished members in reverse order. -/
inductive Frame (κ β : Type) where
  | list (members : List β)
  | record (members : List (κ × β)) (key : Option κ)

/-- What may come next. -/
inductive Place (κ β : Type) where
  /-- A value, or the end of the innermost list where `mayClose`. -/
  | value (mayClose : Bool)
  /-- A key, or the end of the innermost record where `mayClose`. -/
  | key (mayClose : Bool)
  /-- The colon after a key. -/
  | colon (key : κ)
  /-- A comma or the end of the innermost container. -/
  | separator
  /-- Nothing: the text is complete. -/
  | finished (value : β)

/-- The open containers, innermost first, and what may come next. -/
structure State (κ β : Type) where
  /-- The open containers, innermost first. -/
  stack : List (Frame κ β)
  /-- What may come next. -/
  place : Place κ β

variable {κ β : Type}

/-- Nothing read yet. -/
def start : State κ β := ⟨[], .value false⟩

/-- A finished value goes to the innermost container, or ends the text. -/
def complete (v : β) : List (Frame κ β) → Option (State κ β)
  | [] => some ⟨[], .finished v⟩
  | .list members :: stack => some ⟨.list (v :: members) :: stack, .separator⟩
  | .record members (some key) :: stack =>
    some ⟨.record ((key, v) :: members) none :: stack, .separator⟩
  | .record _ none :: _ => none

/-- Whether one more container may be opened. -/
def mayOpen (rules : Rules κ β) (stack : List (Frame κ β)) : Bool :=
  match rules.maxDepth with
  | some depth => decide (stack.length < depth)
  | none => true

/-- The innermost list ends. -/
def endList (rules : Rules κ β) : List (Frame κ β) → Option (State κ β)
  | .list members :: stack => complete (rules.list members.reverse) stack
  | _ => none

/-- The innermost record ends. -/
def endRecord (rules : Rules κ β) : List (Frame κ β) → Option (State κ β)
  | .record members none :: stack => complete (rules.record members.reverse) stack
  | _ => none

/-- A value begins. -/
def beginValue (rules : Rules κ β) (stack : List (Frame κ β)) :
    Piece κ β → Option (State κ β)
  | .openList => if mayOpen rules stack then some ⟨.list [] :: stack, .value true⟩ else none
  | .openRecord =>
    if mayOpen rules stack then some ⟨.record [] none :: stack, .key true⟩ else none
  | .atom _ (some v) => complete v stack
  | _ => none

/-- The state after one more piece; `none` when the piece cannot stand there. -/
def step (rules : Rules κ β) (state : State κ β) (piece : Piece κ β) : Option (State κ β) :=
  match state.place, piece with
  | .value true, .closeList => endList rules state.stack
  | .value _, piece => beginValue rules state.stack piece
  | .key true, .closeRecord => endRecord rules state.stack
  | .key _, .atom (some key) _ => some ⟨state.stack, .colon key⟩
  | .colon key, .colon =>
    match state.stack with
    | .record members none :: stack =>
      some ⟨.record members (some key) :: stack, .value false⟩
    | _ => none
  | .separator, .comma =>
    match state.stack with
    | .list _ :: _ => some ⟨state.stack, .value rules.trailingComma⟩
    | .record _ _ :: _ => some ⟨state.stack, .key rules.trailingComma⟩
    | [] => none
  | .separator, .closeList => endList rules state.stack
  | .separator, .closeRecord => endRecord rules state.stack
  | _, _ => none

/-- The state after all pieces. -/
def run (rules : Rules κ β) (state : State κ β) (pieces : List (Piece κ β)) :
    Option (State κ β) :=
  pieces.foldlM (step rules) state

/-- The value that the pieces spell, if they spell exactly one. -/
def value? (rules : Rules κ β) (pieces : List (Piece κ β)) : Option β :=
  match run rules start pieces with
  | some ⟨_, .finished v⟩ => some v
  | _ => none

@[simp] theorem run_nil (rules : Rules κ β) (state : State κ β) :
    run rules state [] = some state := rfl

theorem run_cons (rules : Rules κ β) (state : State κ β) (piece : Piece κ β)
    (rest : List (Piece κ β)) : run rules state (piece :: rest) =
      (step rules state piece).bind fun next ↦ run rules next rest := rfl

/-- Reading two runs of pieces is reading the second from where the first ends. -/
theorem run_append (rules : Rules κ β) (state : State κ β) (first second : List (Piece κ β)) :
    run rules state (first ++ second) =
      (run rules state first).bind fun next ↦ run rules next second :=
  List.foldlM_append

end Nesting

end MessageBridge
