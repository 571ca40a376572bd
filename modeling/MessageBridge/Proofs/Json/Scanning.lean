import MessageBridge.Json.Parser
import MessageBridge.Proofs.Json.Numerals
import MessageBridge.Proofs.Scanning

/-!
# Scanning what was written

The scanner finds in the text of a value exactly the pieces of that value, whatever pieces were
found before. A string is read character by character from what its characters are written as, a
word from any text of which no character ends it, and the punctuation of arrays and objects joins
what is read.
-/

namespace MessageBridge.Json

open Scanning (Reads run_append run_opens run_turn)

variable {c : Char} {cs : List Char}

/-! ## Strings -/

theorem controlEscape_eq (control : c.toNat < 0x20) :
    controlEscape c =
      ['\\', 'u', '0', '0', (c.toNat / 16).digitChar, (c.toNat % 16).digitChar] := by
  have digits : ∀ n < 0x20, List.replicate (4 - (Nat.toDigits 16 n).length) '0' ++
      Nat.toDigits 16 n = ['0', '0', (n / 16).digitChar, (n % 16).digitChar] := by
    decide
  rw [controlEscape, List.append_assoc, digits _ control]
  rfl

theorem hexDigit?_digitChar {d : Nat} (small : d < 16) : hexDigit? d.digitChar = some d :=
  (by decide : ∀ d < 16, hexDigit? (Nat.digitChar d) = some d) d small

theorem run_controlEscape (control : c.toNat < 0x20) (p : List JsonPiece) (read : List Char) :
    Scanning.run lexicalRules ⟨p, .inside (.text read)⟩ (controlEscape c) =
      some ⟨p, .inside (.text (c :: read))⟩ := by
  have high := hexDigit?_digitChar (d := c.toNat / 16) (by omega)
  have low := hexDigit?_digitChar (d := c.toNat % 16) (by omega)
  have value : 0 * 16 + c.toNat / 16 = c.toNat / 16 ∧
      (c.toNat / 16) * 16 + c.toNat % 16 = c.toNat := by
    omega
  have scalar : ¬(0xD800 ≤ c.toNat ∧ c.toNat < 0xDC00) ∧
      ¬(0xDC00 ≤ c.toNat ∧ c.toNat < 0xE000) := by
    omega
  have escapes : Scanning.run lexicalRules ⟨p, .inside (.text read)⟩ ['\\', 'u', '0', '0'] =
      some ⟨p, .inside (.code read none 2 0)⟩ := by rfl
  have first : Inside.turn? (.code read none 2 0) (c.toNat / 16).digitChar =
      some (.inside (.code read none 1 (c.toNat / 16))) := by
    simp only [Inside.turn?, high, value.1]
  have second : Inside.turn? (.code read none 1 (c.toNat / 16)) (c.toNat % 16).digitChar =
      some (.inside (.text (c :: read))) := by
    simp only [Inside.turn?, low, value.2, codePoint, scalar.1, scalar.2, if_false,
      Char.ofNat_toNat, Option.map_some]
  rw [controlEscape_eq control]
  refine (run_append lexicalRules _ ['\\', 'u', '0', '0'] _).trans ?_
  rw [escapes, Option.bind_some, run_turn first, Scanning.Turn.after, run_turn second]
  rfl

/-- A character of a string is read from what it is written as. -/
theorem run_escapeChar (c : Char) (p : List JsonPiece) (read : List Char) :
    Scanning.run lexicalRules ⟨p, .inside (.text read)⟩ (escapeChar c) =
      some ⟨p, .inside (.text (c :: read))⟩ := by
  by_cases quote : c = '"'
  · subst quote
    rfl
  by_cases slash : c = '\\'
  · subst slash
    rfl
  rw [escapeChar, if_neg quote, if_neg slash]
  by_cases printable : 0x20 ≤ c.toNat
  · have goes : Inside.turn? (.text read) c = some (.inside (.text (c :: read))) := by
      simp [Inside.turn?, quote, slash, Nat.not_lt.mpr printable]
    rw [if_pos printable, run_turn goes]
    rfl
  · rw [if_neg printable]
    -- five controls have an escape of one letter
    repeat'
      split
      · subst_vars
        rfl
    exact run_controlEscape (Nat.not_le.mp printable) p read

theorem run_escapeChars (cs : List Char) (p : List JsonPiece) (read : List Char) :
    Scanning.run lexicalRules ⟨p, .inside (.text read)⟩ (cs.flatMap escapeChar) =
      some ⟨p, .inside (.text (cs.reverse ++ read))⟩ := by
  induction cs generalizing read with
  | nil => rfl
  | cons c cs ih =>
    rw [List.flatMap_cons, run_append, run_escapeChar, Option.bind_some, ih]
    simp

/-! ## What is read -/

theorem reads_string (s : String) (p : List JsonPiece) :
    Reads lexicalRules p (stringChars s) (.atom (some s) (some (.string s)) :: p) := by
  have whole : String.ofList (s.toList.reverse ++ []).reverse = s := by simp
  have closes : Inside.turn? (.text (s.toList.reverse ++ [])) '"' =
      some (.found (.atom (some s) (some (.string s)))) := by
    simp only [Inside.turn?, if_true, whole]
  refine ⟨_, ?_, .between⟩
  rw [stringChars, run_opens rfl rfl, run_append, run_escapeChars, Option.bind_some,
    run_turn closes]
  rfl

theorem reads_word {v : Value} (letters : ∀ c ∈ cs, Scanning.endsWord lexicalRules c = false)
    (spelt : word? cs = some v) (p : List JsonPiece) :
    Reads lexicalRules p cs (.atom none (some v) :: p) := by
  have some_read : cs ≠ [] := by
    rintro rfl
    cases spelt
  refine .word some_read letters ?_ p
  simp only [lexicalRules, spelt, Option.map_some]

/-- A word whose letters are given one by one. -/
theorem reads_keyword {v : Value}
    (letters : (cs.all fun c ↦ !Scanning.endsWord lexicalRules c) = true)
    (spelt : word? cs = some v) (p : List JsonPiece) :
    Reads lexicalRules p cs (.atom none (some v) :: p) := by
  refine reads_word (fun c hc ↦ ?_) spelt p
  simpa using List.all_eq_true.mp letters c hc

theorem reads_number {n : Number} (reads : n.ReadsBack) (p : List JsonPiece) :
    Reads lexicalRules p n.toChars (.atom none (some (.number n)) :: p) := by
  refine reads_word (fun c hc ↦ endsWord_of_isNumeralChar (isNumeralChar_of_mem_toChars c hc)) ?_ p
  have spelt : Number.ofChars? n.toChars = some n := reads
  rw [word?_of_numeral isNumeralChar_of_mem_toChars, spelt, Option.map_some]

/-! ## The pieces of values -/

namespace Value

mutual

/-- The pieces of the text of a value. -/
def pieces : Value → List JsonPiece
  | .array items => .openList :: (itemsPieces items ++ [.closeList])
  | .object members => .openRecord :: (membersPieces members ++ [.closeRecord])
  | .string s => [.atom (some s) (some (.string s))]
  | v => [.atom none (some v)]

/-- The pieces of the items of an array. -/
def itemsPieces : List Value → List JsonPiece
  | [] => []
  | [v] => pieces v
  | v :: w :: rest => pieces v ++ .comma :: itemsPieces (w :: rest)

/-- The pieces of the members of an object. -/
def membersPieces : List (String × Value) → List JsonPiece
  | [] => []
  | [(key, v)] => .atom (some key) (some (.string key)) :: .colon :: pieces v
  | (key, v) :: m :: rest =>
    .atom (some key) (some (.string key)) :: .colon ::
      (pieces v ++ .comma :: membersPieces (m :: rest))

end

/-- The number occurs somewhere in the value. -/
inductive Holds (n : Number) : Value → Prop where
  | here : Holds n (.number n)
  | item {items : List Value} {v : Value} : v ∈ items → Holds n v → Holds n (.array items)
  | member {members : List (String × Value)} {m : String × Value} : m ∈ members → Holds n m.2 →
      Holds n (.object members)

/-- The text of a value leads to its pieces. -/
abbrev Scans (v : Value) : Prop :=
  ∀ p : List JsonPiece, Reads lexicalRules p v.toChars (v.pieces.reverse ++ p)

theorem reads_items {items : List Value} (scans : ∀ v ∈ items, v.Scans) (p : List JsonPiece) :
    Reads lexicalRules p (itemsChars items) ((itemsPieces items).reverse ++ p) := by
  induction items generalizing p with
  | nil => exact .refl p
  | cons v rest ih =>
    have first := scans v List.mem_cons_self p
    cases rest with
    | nil => exact first
    | cons w rest =>
      have others := ih (fun x hx ↦ scans x (List.mem_cons_of_mem v hx))
        (.comma :: (v.pieces.reverse ++ p))
      rw [itemsChars, itemsPieces, List.reverse_append, List.reverse_cons]
      simpa using first.append_punctuation (c := ',') rfl others

theorem reads_members {members : List (String × Value)} (scans : ∀ m ∈ members, m.2.Scans)
    (p : List JsonPiece) :
    Reads lexicalRules p (membersChars members) ((membersPieces members).reverse ++ p) := by
  induction members generalizing p with
  | nil => exact .refl p
  | cons m rest ih =>
    obtain ⟨key, v⟩ := m
    have value := scans (key, v) List.mem_cons_self
      (.colon :: .atom (some key) (some (.string key)) :: p)
    cases rest with
    | nil =>
      rw [membersChars, membersPieces]
      simpa using (reads_string key p).append_punctuation (c := ':') rfl value
    | cons n rest =>
      have others := ih (fun x hx ↦ scans x (List.mem_cons_of_mem _ hx))
        (.comma :: (v.pieces.reverse ++ .colon :: .atom (some key) (some (.string key)) :: p))
      rw [membersChars, membersPieces]
      have tail := value.append_punctuation (c := ',') rfl others
      simpa using (reads_string key p).append_punctuation (c := ':') rfl tail

end Value

end MessageBridge.Json
