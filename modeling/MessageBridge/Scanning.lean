import MessageBridge.Nesting

/-!
# Texts cut into pieces

A nested text is cut into pieces one character at a time. White space separates the pieces, each
character of punctuation is a piece, and any other character begins a word unless it opens something
of the notation's own, such as a string. The machine keeps the pieces found so far, so cutting a
text is a fold over its characters, and cutting two texts joined is cutting the second from the
state that the first leaves.

Which words there are, which characters open something and how it goes on inside is left to the
notation.
-/

namespace MessageBridge

/-- The characters that are pieces by themselves. -/
def punctuation : List Char := ['[', ']', '\x7b', '\x7d', ':', ',']

/-- The piece that a punctuation character is. -/
def punctuation? {κ β : Type} (c : Char) : Option (Piece κ β) :=
  if c = '[' then some .openList
  else if c = ']' then some .closeList
  else if c = '\x7b' then some .openRecord
  else if c = '\x7d' then some .closeRecord
  else if c = ':' then some .colon
  else if c = ',' then some .comma
  else none

theorem mem_punctuation {κ β : Type} {c : Char} {piece : Piece κ β}
    (known : punctuation? c = some piece) : c ∈ punctuation := by
  unfold punctuation? at known
  repeat'
    split at known
    · subst_vars
      decide
  cases known

namespace Scanning

/-! ## What a notation decides -/

/-- Where a character leads inside what was opened. -/
inductive Turn (ι κ β : Type) where
  /-- On, still inside. -/
  | inside (i : ι)
  /-- To the end of something that is no piece. -/
  | skipped
  /-- To the end of a piece. -/
  | found (piece : Piece κ β)

/-- The decisions of a notation. -/
structure Rules (ι κ β : Type) where
  /-- White space between pieces. -/
  isSpace : Char → Bool
  /-- What a character between pieces opens. -/
  opens? : Char → Option ι
  /-- The piece that a word is. -/
  word? : List Char → Option (Piece κ β)
  /-- Where a character leads inside; `none` when it cannot stand there. -/
  turn? : ι → Char → Option (Turn ι κ β)
  /-- Whether a text may end inside. -/
  mayEnd : ι → Bool
  /-- Punctuation is no white space and opens nothing. -/
  apart : (punctuation.all fun c ↦ !isSpace c && (opens? c).isNone) = true

/-! ## The machine -/

/-- Where the scanner stands. -/
inductive Place (ι : Type) where
  /-- Between pieces. -/
  | between
  /-- In a word, of which the characters read so far are kept in reverse. -/
  | word (read : List Char)
  /-- Inside what a character opened. -/
  | inside (i : ι)

/-- The pieces found so far, last first, and where the scanner stands. -/
structure State (ι κ β : Type) where
  /-- The pieces found so far, last first. -/
  pieces : List (Piece κ β)
  /-- Where the scanner stands. -/
  place : Place ι

variable {ι κ β : Type}

/-- Nothing read yet. -/
def start : State ι κ β := ⟨[], .between⟩

/-- The state that a turn leads to. -/
def Turn.after (pieces : List (Piece κ β)) : Turn ι κ β → State ι κ β
  | inside i => ⟨pieces, .inside i⟩
  | skipped => ⟨pieces, .between⟩
  | found piece => ⟨piece :: pieces, .between⟩

/-- A character between pieces. -/
def begin (rules : Rules ι κ β) (pieces : List (Piece κ β)) (c : Char) : State ι κ β :=
  if rules.isSpace c then ⟨pieces, .between⟩
  else
    match rules.opens? c with
    | some i => ⟨pieces, .inside i⟩
    | none =>
      match punctuation? c with
      | some piece => ⟨piece :: pieces, .between⟩
      | none => ⟨pieces, .word [c]⟩

/-- Whether a character ends a word. -/
def endsWord (rules : Rules ι κ β) (c : Char) : Bool :=
  rules.isSpace c || (rules.opens? c).isSome || punctuation.contains c

/-- The state after one more character; `none` when it cannot stand there. -/
def step (rules : Rules ι κ β) (state : State ι κ β) (c : Char) : Option (State ι κ β) :=
  match state.place with
  | .between => some (begin rules state.pieces c)
  | .word read =>
    if endsWord rules c then
      (rules.word? read.reverse).map fun piece ↦ begin rules (piece :: state.pieces) c
    else some ⟨state.pieces, .word (c :: read)⟩
  | .inside i => (rules.turn? i c).map (Turn.after state.pieces)

/-- The state after all characters. -/
def run (rules : Rules ι κ β) (state : State ι κ β) (s : List Char) : Option (State ι κ β) :=
  s.foldlM (step rules) state

/-- The pieces of the text that ends here. -/
def finish (rules : Rules ι κ β) (state : State ι κ β) : Option (List (Piece κ β)) :=
  match state.place with
  | .between => some state.pieces.reverse
  | .word read => (rules.word? read.reverse).map fun piece ↦ (piece :: state.pieces).reverse
  | .inside i => if rules.mayEnd i then some state.pieces.reverse else none

/-- The pieces of a text. -/
def pieces? (rules : Rules ι κ β) (s : List Char) : Option (List (Piece κ β)) :=
  (run rules start s).bind (finish rules)

variable (rules : Rules ι κ β) (state : State ι κ β)

theorem run_cons (c : Char) (s : List Char) :
    run rules state (c :: s) = (step rules state c).bind fun next ↦ run rules next s := rfl

theorem run_append (s t : List Char) :
    run rules state (s ++ t) = (run rules state s).bind fun next ↦ run rules next t :=
  List.foldlM_append

end Scanning

end MessageBridge
