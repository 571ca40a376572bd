import Mathlib.Data.List.TakeWhile
import MessageBridge.Json.Printer
import MessageBridge.Json.Scanner

/-!
# Numerals that read back

The text of an integer of 64 bits reads back as that integer, and whatever integer a numeral spells
has 64 bits. About fractions nothing is said here but which characters their texts are made of:
reading multiplies by a rounded power of ten, so whether a fraction reads back is a property of that
fraction (`Number.ReadsBack`).
-/

namespace MessageBridge.Json

open Text (digit?)

/-! ## Digits -/

/-- The values of the decimal digits of a number, most significant first. -/
def digitValues (n : Nat) : List Nat := (Nat.toDigits 10 n).filterMap digit?

theorem digit?_digitChar {d : Nat} (small : d < 10) : digit? d.digitChar = some d :=
  (by decide : ∀ d < 10, digit? (Nat.digitChar d) = some d) d small

theorem digitValues_of_lt {n : Nat} (small : n < 10) : digitValues n = [n] := by
  rw [digitValues, Nat.toDigits_of_lt_base small, List.filterMap_cons_some (digit?_digitChar small)]
  rfl

theorem digitValues_of_le {n : Nat} (large : 10 ≤ n) :
    digitValues n = digitValues (n / 10) ++ [n % 10] := by
  have last : digit? (n % 10).digitChar = some (n % 10) := digit?_digitChar (n.mod_lt (by decide))
  rw [digitValues, Nat.toDigits_of_base_le (by decide) large, List.filterMap_append,
    List.filterMap_cons_some last]
  rfl

/-- No number but zero is written with a zero in front. -/
theorem head?_digitValues {n : Nat} (pos : 0 < n) : ∃ d ds, digitValues n = d :: ds ∧ d ≠ 0 := by
  induction n using Nat.strong_induction_on with
  | _ n ih =>
    by_cases small : n < 10
    · exact ⟨n, [], digitValues_of_lt small, pos.ne'⟩
    · obtain ⟨d, ds, front, nonzero⟩ := ih (n / 10) (by omega) (by omega)
      refine ⟨d, ds ++ [n % 10], ?_, nonzero⟩
      rw [digitValues_of_le (by omega), front, List.cons_append]

namespace Significand

theorem addInteger_of_fits {n d : Nat} (fits : n * 10 + d ≤ significandMax) :
    addInteger ⟨n, 0, false⟩ d = ⟨n * 10 + d, 0, false⟩ := by
  simp [addInteger, Nat.not_lt.mpr fits]

/-- The digits of a number of 64 bits are gathered into that number. -/
theorem ofInteger_digitValues {n : Nat} (fits : n ≤ significandMax) :
    ofInteger (digitValues n) = ⟨n, 0, false⟩ := by
  induction n using Nat.strong_induction_on with
  | _ n ih =>
    by_cases small : n < 10
    · have first : addInteger ⟨0, 0, false⟩ n = ⟨n, 0, false⟩ := by
        rw [addInteger_of_fits (by omega), Nat.zero_mul, Nat.zero_add]
      rw [digitValues_of_lt small]
      exact first
    · have whole : n / 10 * 10 + n % 10 = n := Nat.div_add_mod' n 10
      have front := ih (n / 10) (by omega) (by omega)
      rw [ofInteger] at front ⊢
      rw [digitValues_of_le (by omega), List.foldl_append, front, List.foldl_cons, List.foldl_nil,
        addInteger_of_fits (by omega), whole]

theorem digits_addInteger_le {s : Significand} (d : Nat) (fits : s.digits ≤ significandMax) :
    (s.addInteger d).digits ≤ significandMax := by
  unfold addInteger
  split
  · exact fits
  · rename_i room
    simp only [Bool.or_eq_true, decide_eq_true_eq, not_or, not_lt] at room
    exact room.2

/-- No significand has more than 64 bits. -/
theorem digits_ofInteger_le (digits : List Nat) : (ofInteger digits).digits ≤ significandMax := by
  suffices kept : ∀ s : Significand, s.digits ≤ significandMax →
      (digits.foldl addInteger s).digits ≤ significandMax from kept _ (Nat.zero_le _)
  induction digits with
  | nil => exact fun s fits ↦ fits
  | cons d ds ih => exact fun s fits ↦ ih _ (digits_addInteger_le d fits)

end Significand

/-! ## Integers -/

/-- An integer has 64 bits, signed or unsigned. -/
def Number.Fits : Number → Prop
  | .int n => -9223372036854775808 ≤ n ∧ n ≤ 18446744073709551615
  | .float _ => True

instance : DecidablePred Number.Fits
  | .int n => inferInstanceAs (Decidable (-9223372036854775808 ≤ n ∧ n ≤ 18446744073709551615))
  | .float _ => inferInstanceAs (Decidable True)

/-- A number is read from the text in which it is written. -/
def Number.ReadsBack (n : Number) : Prop := Number.ofChars? n.toChars = some n

theorem leadingDigits_of_digits {s : List Char} (digits : ∀ c ∈ s, c.isDigit = true) :
    leadingDigits s = (s.filterMap digit?, []) := by
  rw [leadingDigits, List.takeWhile_eq_self_iff.mpr digits, List.dropWhile_eq_nil_iff.mpr digits]

/-- Digits do not begin with a sign. -/
theorem ofChars?_of_digits {s : List Char} (digits : ∀ c ∈ s, c.isDigit = true) :
    Number.ofChars? s = unsigned? false s := by
  rw [Number.ofChars?]
  rintro rest rfl
  exact absurd (digits '-' List.mem_cons_self) (by decide)

theorem isDigit_of_mem_toDigits {n : Nat} : ∀ c ∈ Nat.toDigits 10 n, c.isDigit = true :=
  fun _ mem ↦ Nat.isDigit_of_mem_toDigits (by decide) (by decide) mem

theorem leadingDigits_toDigits (n : Nat) :
    leadingDigits (Nat.toDigits 10 n) = (digitValues n, []) :=
  leadingDigits_of_digits isDigit_of_mem_toDigits

/-- Without its sign, an integer of 64 bits reads back if one with that sign may be as large. -/
theorem unsigned?_toDigits {negative : Bool} {n : Nat} {k : Int}
    (meant : (⟨n, 0, false⟩ : Significand).toInteger? negative = some k)
    (fits : n ≤ significandMax) :
    unsigned? negative (Nat.toDigits 10 n) = some (.int k) := by
  have gathered := Significand.ofInteger_digitValues fits
  rw [unsigned?, leadingDigits_toDigits]
  by_cases zero : n = 0
  · subst zero
    rw [digitValues_of_lt (by decide)] at gathered ⊢
    dsimp only
    rw [gathered, meant]
    rfl
  · obtain ⟨d, ds, written, nonzero⟩ := head?_digitValues (Nat.pos_of_ne_zero zero)
    rw [written] at gathered ⊢
    dsimp only
    split
    · rename_i same
      cases same
    · rename_i same
      cases same
      exact absurd rfl nonzero
    · rw [gathered, meant]

/-- **An integer of 64 bits reads back.** -/
theorem readsBack_int {n : Int} (fits : (Number.int n).Fits) : (Number.int n).ReadsBack := by
  obtain ⟨least, greatest⟩ := fits
  rw [Number.ReadsBack, Number.toChars, intChars]
  by_cases negative : n < 0
  · have meant : (⟨n.natAbs, 0, false⟩ : Significand).toInteger? true = some n := by
      have there : 0 < n.natAbs ∧ n.natAbs ≤ 9223372036854775808 := by omega
      have same : -Int.ofNat n.natAbs = n := by
        rw [Int.ofNat_eq_natCast]
        omega
      simp only [Significand.toInteger?, Bool.false_eq_true, if_false, if_true, there,
        and_self, same]
    rw [if_pos negative, List.singleton_append, Number.ofChars?]
    exact unsigned?_toDigits meant (by unfold significandMax; omega)
  · have meant : (⟨n.natAbs, 0, false⟩ : Significand).toInteger? false = some n := by
      have same : (n.natAbs : Int) = n := by omega
      simp only [Significand.toInteger?, Bool.false_eq_true, if_false, same]
    rw [if_neg negative, List.nil_append, ofChars?_of_digits isDigit_of_mem_toDigits]
    exact unsigned?_toDigits meant (by unfold significandMax; omega)

theorem fits_of_toInteger? {s : Significand} {negative : Bool} {n : Int}
    (small : s.digits ≤ significandMax) (meant : s.toInteger? negative = some n) :
    (Number.int n).Fits := by
  unfold significandMax at small
  unfold Significand.toInteger? at meant
  split at meant
  · cases meant
  · split at meant
    · split at meant
      · rename_i there
        cases meant
        constructor <;> rw [Int.ofNat_eq_natCast] <;> omega
      · cases meant
    · cases meant
      constructor <;> omega

theorem fits_of_fraction? {negative : Bool} {whole : Significand} {s : List Char} {n : Number}
    (spelt : fraction? negative whole s = some n) : n.Fits := by
  unfold fraction? at spelt
  split at spelt
  · dsimp only at spelt
    split at spelt
    · cases spelt
    · obtain ⟨e, -, made⟩ := Option.bind_eq_some_iff.mp spelt
      obtain ⟨x, -, rfl⟩ := Option.map_eq_some_iff.mp made
      trivial
  · obtain ⟨e, -, made⟩ := Option.bind_eq_some_iff.mp spelt
    obtain ⟨x, -, rfl⟩ := Option.map_eq_some_iff.mp made
    trivial

theorem fits_of_unsigned? {negative : Bool} {s : List Char} {n : Number}
    (spelt : unsigned? negative s = some n) : n.Fits := by
  unfold unsigned? at spelt
  dsimp only at spelt
  split at spelt
  · cases spelt
  · cases spelt
  · split at spelt
    · rename_i meant
      cases spelt
      exact fits_of_toInteger? (Significand.digits_ofInteger_le _) meant
    · exact fits_of_fraction? spelt

/-- **Whatever integer a numeral spells has 64 bits.** -/
theorem fits_of_ofChars? {s : List Char} {n : Number} (spelt : Number.ofChars? s = some n) :
    n.Fits := by
  unfold Number.ofChars? at spelt
  split at spelt
  · exact fits_of_unsigned? spelt
  · exact fits_of_unsigned? spelt

/-! ## The characters of numerals -/

/-- The characters that the texts of numbers are made of. -/
def isNumeralChar (c : Char) : Bool := c.isDigit || ['-', '+', '.', 'e'].contains c

theorem isNumeralChar_of_isDigit {c : Char} (digit : c.isDigit = true) :
    isNumeralChar c = true := by
  rw [isNumeralChar, digit, Bool.true_or]

theorem isNumeralChar_of_mem_toDigits {n : Nat} {c : Char} (hc : c ∈ Nat.toDigits 10 n) :
    isNumeralChar c = true :=
  isNumeralChar_of_isDigit (isDigit_of_mem_toDigits c hc)

open Decimal in
theorem isNumeralChar_of_mem_positional {digits : List Char} {lead : Int}
    (numeral : ∀ c ∈ digits, isNumeralChar c = true) :
    ∀ c ∈ positional digits lead, isNumeralChar c = true := by
  intro c hc
  unfold positional at hc
  split at hc
  · simp only [List.cons_append, List.nil_append, List.mem_cons, List.mem_append,
      List.mem_replicate] at hc
    rcases hc with rfl | rfl | ⟨-, rfl⟩ | hc
    · decide
    · decide
    · decide
    · exact numeral c hc
  · dsimp only at hc
    split at hc
    · simp only [List.mem_append, List.mem_replicate, List.mem_cons, List.not_mem_nil,
        or_false] at hc
      rcases hc with (hc | ⟨-, rfl⟩) | rfl | rfl
      · exact numeral c hc
      · decide
      · decide
      · decide
    · simp only [List.mem_append, List.mem_singleton] at hc
      rcases hc with (hc | rfl) | hc
      · exact numeral c (List.mem_of_mem_take hc)
      · decide
      · exact numeral c (List.mem_of_mem_drop hc)

open Decimal in
theorem isNumeralChar_of_mem_scientific {digits : List Char} {lead : Int}
    (numeral : ∀ c ∈ digits, isNumeralChar c = true) :
    ∀ c ∈ scientific digits lead, isNumeralChar c = true := by
  intro c hc
  unfold scientific at hc
  simp only [List.mem_append, List.mem_cons, List.not_mem_nil, or_false] at hc
  rcases hc with (hc | rfl | rfl) | hc
  · split at hc
    · rw [List.mem_singleton.mp hc]
      decide
    · exact numeral c hc
    · rename_i d more
      rcases List.mem_cons.mp hc with rfl | hc
      · exact numeral c List.mem_cons_self
      · rcases List.mem_cons.mp hc with rfl | hc
        · decide
        · exact numeral c (List.mem_cons_of_mem _ hc)
  · decide
  · split <;> decide
  · exact isNumeralChar_of_mem_toDigits hc

theorem isNumeralChar_of_mem_sign {negative : Prop} [Decidable negative] {c : Char}
    (hc : c ∈ if negative then ['-'] else []) : isNumeralChar c = true := by
  split at hc
  · rw [List.mem_singleton.mp hc]
    decide
  · exact absurd hc List.not_mem_nil

theorem isNumeralChar_of_mem_toChars {n : Number} :
    ∀ c ∈ n.toChars, isNumeralChar c = true := by
  intro c hc
  cases n with
  | int n =>
    rw [Number.toChars, intChars] at hc
    rcases List.mem_append.mp hc with hc | hc
    · exact isNumeralChar_of_mem_sign hc
    · exact isNumeralChar_of_mem_toDigits hc
  | float x =>
    rw [Number.toChars, Decimal.Binary64.toChars] at hc
    have digits : ∀ c ∈ x.shortestDigits.1, isNumeralChar c = true := by
      intro c hc
      exact isNumeralChar_of_mem_toDigits hc
    rcases List.mem_append.mp hc with hc | hc
    · exact isNumeralChar_of_mem_sign hc
    · split at hc
      · exact isNumeralChar_of_mem_positional digits c hc
      · exact isNumeralChar_of_mem_scientific digits c hc

theorem ascii_of_isNumeralChar {c : Char} (numeral : isNumeralChar c = true) :
    ∃ n < 128, Char.ofNat n = c := by
  refine ⟨c.toNat, ?_, Char.ofNat_toNat c⟩
  simp only [isNumeralChar, Bool.or_eq_true, Char.isDigit, Bool.and_eq_true, decide_eq_true_eq,
    List.contains_iff_mem, List.mem_cons, List.not_mem_nil, or_false] at numeral
  rcases numeral with ⟨-, digit⟩ | rfl | rfl | rfl | rfl
  · exact Nat.lt_of_le_of_lt (UInt32.le_iff_toNat_le.mp digit) (by decide)
  all_goals decide

/-- No character of a numeral ends a word. -/
theorem endsWord_of_isNumeralChar {c : Char} (numeral : isNumeralChar c = true) :
    Scanning.endsWord lexicalRules c = false := by
  have all : ∀ n < 128, isNumeralChar (Char.ofNat n) = true →
      Scanning.endsWord lexicalRules (Char.ofNat n) = false := by
    decide
  obtain ⟨n, small, rfl⟩ := ascii_of_isNumeralChar numeral
  exact all n small numeral

/-- A word of such characters is a numeral, if anything. -/
theorem word?_of_numeral {s : List Char} (numeral : ∀ c ∈ s, isNumeralChar c = true) :
    word? s = (Number.ofChars? s).map .number := by
  have other {c : Char} {rest : List Char} (letter : isNumeralChar c = false) : s ≠ c :: rest := by
    rintro rfl
    rw [numeral c List.mem_cons_self] at letter
    cases letter
  rw [word?, if_neg (other (by decide)), if_neg (other (by decide)), if_neg (other (by decide))]

end MessageBridge.Json
