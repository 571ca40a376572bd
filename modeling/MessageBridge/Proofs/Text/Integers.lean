import Mathlib.Data.List.TakeWhile
import MessageBridge.Text.Integer

/-!
# What texts spell

A text spells an integer if it consists of a sign, which may be missing, and of digits, with nothing
but white space around them (`Text.Spells`). Reading finds the integer that a text spells, and finds
one exactly if there is one within 64 bits: `Text.int64?_eq_some_iff`.
-/

namespace MessageBridge.Text

variable {c : Char} {s : List Char} {n : Int}

/-! ## Spelling -/

/-- The number that digits spell, continuing from `acc`. -/
def numberFrom (acc : Nat) (digits : List Char) : Nat :=
  digits.foldl (fun n c ↦ n * 10 + (c.toNat - '0'.toNat)) acc

/-- A sign or none, and the factor that it stands for. -/
inductive Sign : List Char → Int → Prop where
  | none : Sign [] 1
  | plus : Sign ['+'] 1
  | minus : Sign ['-'] (-1)

/-- A sign, which may be missing, and digits spell an integer. -/
inductive SpellsBare : List Char → Int → Prop where
  | intro {sign digits : List Char} {factor : Int} : Sign sign factor → digits ≠ [] →
      (∀ c ∈ digits, c.isDigit = true) →
      SpellsBare (sign ++ digits) (factor * numberFrom 0 digits)

/-- A text spells an integer, whatever white space is around it. -/
inductive Spells : List Char → Int → Prop where
  | intro {before bare after : List Char} {n : Int} : (∀ c ∈ before, isBlank c = true) →
      SpellsBare bare n → (∀ c ∈ after, isBlank c = true) → Spells (before ++ bare ++ after) n

/-! ## Digits and signs -/

theorem digit?_of_isDigit (h : c.isDigit = true) : digit? c = some (c.toNat - '0'.toNat) := by
  rw [Char.isDigit, Bool.and_eq_true, decide_eq_true_eq, decide_eq_true_eq] at h
  exact if_pos h

theorem isDigit_of_digit? {d : Nat} (h : digit? c = some d) : c.isDigit = true := by
  unfold digit? at h
  split at h
  · rename_i between
    rw [Char.isDigit, Bool.and_eq_true, decide_eq_true_eq, decide_eq_true_eq]
    exact between
  · cases h

theorem digitsFrom?_eq_some_iff {acc k : Nat} :
    digitsFrom? acc s = some k ↔ (∀ c ∈ s, c.isDigit = true) ∧ k = numberFrom acc s := by
  induction s generalizing acc with
  | nil =>
    rw [digitsFrom?, Option.some.injEq]
    exact ⟨fun same ↦ ⟨fun _ mem ↦ absurd mem List.not_mem_nil, same.symm⟩, fun h ↦ h.2.symm⟩
  | cons c rest ih =>
    rw [digitsFrom?]
    cases found : digit? c with
    | none =>
      refine iff_of_false nofun ?_
      rintro ⟨digits, -⟩
      rw [digit?_of_isDigit (digits c List.mem_cons_self)] at found
      cases found
    | some d =>
      have digit := isDigit_of_digit? found
      rw [digit?_of_isDigit digit] at found
      cases found
      simp [ih, digit, numberFrom]

theorem digits?_eq_some_iff {k : Nat} :
    digits? s = some k ↔ s ≠ [] ∧ (∀ c ∈ s, c.isDigit = true) ∧ k = numberFrom 0 s := by
  cases s with
  | nil => simp [digits?]
  | cons c rest => simp [digits?, digitsFrom?_eq_some_iff]

theorem integer?_of_bare (spells : SpellsBare s n) : integer? s = some n := by
  obtain ⟨sign, some_digit, digits⟩ := spells
  rename_i written factor
  have read := digits?_eq_some_iff.mpr ⟨some_digit, digits, rfl⟩
  cases sign with
  | plus => simp [integer?, read]
  | minus => simp [integer?, read]
  | none =>
    -- the first digit is no sign
    obtain ⟨c, rest, rfl⟩ := List.exists_cons_of_ne_nil some_digit
    have digit := digits c List.mem_cons_self
    rw [List.nil_append, integer?, read]
    · simp
    · rintro rest' ⟨⟩
      exact absurd digit (by decide)
    · rintro rest' ⟨⟩
      exact absurd digit (by decide)

theorem bare_of_integer? (read : integer? s = some n) : SpellsBare s n := by
  unfold integer? at read
  split at read
  · obtain ⟨k, spelt, rfl⟩ := Option.map_eq_some_iff.mp read
    obtain ⟨some_digit, digits, rfl⟩ := digits?_eq_some_iff.mp spelt
    simpa using SpellsBare.intro .plus some_digit digits
  · obtain ⟨k, spelt, rfl⟩ := Option.map_eq_some_iff.mp read
    obtain ⟨some_digit, digits, rfl⟩ := digits?_eq_some_iff.mp spelt
    simpa using SpellsBare.intro .minus some_digit digits
  · obtain ⟨k, spelt, rfl⟩ := Option.map_eq_some_iff.mp read
    obtain ⟨some_digit, digits, rfl⟩ := digits?_eq_some_iff.mp spelt
    simpa using SpellsBare.intro .none some_digit digits

/-! ## White space -/

theorem isBlank_of_isDigit (h : c.isDigit = true) : isBlank c = false := by
  have digit : 48 ≤ c.toNat ∧ c.toNat ≤ 57 := by
    rw [Char.isDigit, Bool.and_eq_true, decide_eq_true_eq, decide_eq_true_eq] at h
    exact h
  simp only [isBlank, Bool.or_eq_false_iff, Bool.and_eq_false_iff, decide_eq_false_iff_not,
    beq_eq_false_iff_ne]
  omega

/-- There is no white space between a sign and its digits. -/
theorem SpellsBare.solid (spells : SpellsBare s n) : ∀ c ∈ s, isBlank c = false := by
  obtain ⟨sign, -, digits⟩ := spells
  intro c mem
  rcases List.mem_append.mp mem with mem | mem
  · cases sign with
    | none => exact absurd mem List.not_mem_nil
    | plus =>
      rw [List.mem_singleton.mp mem]
      decide
    | minus =>
      rw [List.mem_singleton.mp mem]
      decide
  · exact isBlank_of_isDigit (digits c mem)

theorem SpellsBare.ne_nil (spells : SpellsBare s n) : s ≠ [] := by
  obtain ⟨-, some_digit, -⟩ := spells
  simp [some_digit]

/-- White space is taken off up to the first character that is none. -/
theorem dropWhile_isBlank {before after : List Char} (blank : ∀ c ∈ before, isBlank c = true)
    (solid : ∀ c ∈ s, isBlank c = false) (some_char : s ≠ []) :
    (before ++ (s ++ after)).dropWhile isBlank = s ++ after := by
  obtain ⟨c, rest, rfl⟩ := List.exists_cons_of_ne_nil some_char
  rw [List.dropWhile_append_of_pos blank, List.cons_append, List.dropWhile_cons_of_neg]
  simp [solid c List.mem_cons_self]

/-- Only white space is taken off. -/
theorem trim_of_solid {before after : List Char} (blank_before : ∀ c ∈ before, isBlank c = true)
    (solid : ∀ c ∈ s, isBlank c = false) (some_char : s ≠ [])
    (blank_after : ∀ c ∈ after, isBlank c = true) : trim (before ++ s ++ after) = s := by
  have back : (after.reverse ++ (s.reverse ++ [])).dropWhile isBlank = s.reverse ++ [] :=
    dropWhile_isBlank (by simpa using blank_after) (by simpa using solid) (by simpa using some_char)
  rw [List.append_nil] at back
  rw [trim, List.append_assoc, dropWhile_isBlank blank_before solid some_char, List.reverse_append,
    back, List.reverse_reverse]

/-- What is taken off is at both ends. -/
theorem exists_trim (s : List Char) : ∃ before after, s = before ++ trim s ++ after ∧
    (∀ c ∈ before, isBlank c = true) ∧ ∀ c ∈ after, isBlank c = true := by
  have front := List.takeWhile_append_dropWhile (p := isBlank) (l := s)
  have back := List.takeWhile_append_dropWhile (p := isBlank) (l := (s.dropWhile isBlank).reverse)
  refine ⟨s.takeWhile isBlank, ((s.dropWhile isBlank).reverse.takeWhile isBlank).reverse, ?_,
    fun c mem ↦ List.mem_takeWhile_imp mem,
    fun c mem ↦ List.mem_takeWhile_imp (List.mem_reverse.mp mem)⟩
  rw [trim, List.append_assoc, ← List.reverse_append, back, List.reverse_reverse, front]

/-! ## Reading -/

theorem integer?_trim_eq_some_iff : integer? (trim s) = some n ↔ Spells s n := by
  constructor
  · intro read
    obtain ⟨before, after, split, blank_before, blank_after⟩ := exists_trim s
    rw [split]
    exact .intro blank_before (bare_of_integer? read) blank_after
  · rintro ⟨blank_before, bare, blank_after⟩
    rw [trim_of_solid blank_before bare.solid bare.ne_nil blank_after]
    exact integer?_of_bare bare

theorem inInt64?_eq_some_iff {k : Int} :
    inInt64? k = some n ↔ k = n ∧ int64Min ≤ n ∧ n ≤ int64Max := by
  unfold inInt64?
  split
  · rename_i fits
    rw [Option.some.injEq]
    exact ⟨fun same ↦ ⟨same, same ▸ fits⟩, And.left⟩
  · rename_i exceeds
    refine iff_of_false nofun ?_
    rintro ⟨rfl, fits⟩
    exact exceeds fits

/-- **Reading finds the integer that a text spells, if it has 64 bits.** -/
theorem int64?_eq_some_iff {s : String} :
    int64? s = some n ↔ Spells s.toList n ∧ int64Min ≤ n ∧ n ≤ int64Max := by
  simp only [int64?, Option.bind_eq_some_iff, integer?_trim_eq_some_iff, inInt64?_eq_some_iff]
  exact ⟨fun ⟨_, spells, rfl, fits⟩ ↦ ⟨spells, fits⟩, fun ⟨spells, fits⟩ ↦ ⟨n, spells, rfl, fits⟩⟩

end MessageBridge.Text
