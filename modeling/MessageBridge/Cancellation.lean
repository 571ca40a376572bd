/-!
# Cancellation tokens

A token is fired once and for all. Tokens form a forest: firing one fires all tokens below it,
also those made later, and no token above or beside it.
-/

namespace MessageBridge

/-- A cancellation token in a forest of them. -/
structure Token where
  /-- The number of the token above it. -/
  above : Option Nat
  /-- Whether it was fired itself. -/
  fired : Bool
deriving DecidableEq, Repr

/-- Tokens, newest first; the number of a token is the number of older ones. -/
abbrev Tokens := List Token

namespace Tokens

/-- A new token, below another one or on its own; the first part is its number. -/
def create (above : Option Nat) (tokens : Tokens) : Nat × Tokens :=
  (tokens.length, ⟨above, false⟩ :: tokens)

/-- The forest after a token was fired. -/
def fire (n : Nat) : Tokens → Tokens
  | [] => []
  | t :: older =>
    if n = older.length then { t with fired := true } :: older else t :: fire n older

/-- Whether a token is cancelled: it was fired, or one above it was. -/
def isCancelled (n : Nat) : Tokens → Bool
  | [] => false
  | t :: older =>
    if n = older.length then
      t.fired ||
        match t.above with
        | some m => isCancelled m older
        | none => false
    else isCancelled n older

/-! ## Small laws -/

theorem length_fire (n : Nat) (tokens : Tokens) : (fire n tokens).length = tokens.length := by
  induction tokens with
  | nil => rfl
  | cons t older ih => unfold fire; split <;> simp [ih]

theorem isCancelled_fire_self {n : Nat} {tokens : Tokens} (h : n < tokens.length) :
    isCancelled n (fire n tokens) = true := by
  induction tokens with
  | nil => simp at h
  | cons t older ih =>
    by_cases hn : n = older.length
    · simp [fire, isCancelled, hn]
    · have : n < older.length := by simp at h; omega
      simp [fire, isCancelled, hn, length_fire, ih this]

end Tokens

end MessageBridge
