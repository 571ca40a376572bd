import MessageBridge.Filter
import MessageBridge.Proofs.Delivery.Expiry
import MessageBridge.Proofs.Json.IntegerNumerals

/-!
# Integers in metadata

Sizes, creation times and ages may arrive as numbers or as text. A text is read exactly or not at
all, a number is cut off and brought into 64 bits. Both agree on integers of 64 bits however they
are written: with white space around them or without, as a text or as a numeral. Larger numerals
are read as the nearest integer of 64 bits, larger texts are not read.
-/

namespace MessageBridge

open Json (Value Number Fields)
open Text (int64Min int64Max Spells SpellsBare isBlank Sign)

variable {n N : Int} {cs : List Char} {x : Number} {fields : Fields}

/-! ## Decimal texts -/

namespace Text

theorem bare_toDigits {sign : List Char} {factor : Int} (written : Sign sign factor) (k : Nat) :
    SpellsBare (sign ++ Nat.toDigits 10 k) (factor * k) := by
  have number : numberFrom 0 (Nat.toDigits 10 k) = k := by
    rw [numberFrom]
    simpa only [Nat.ofDigitChars, Nat.mul_comm] using Nat.ofDigitChars_ten_toDigits (n := k)
  have bare := SpellsBare.intro written Nat.toDigits_ne_nil (Json.isDigit_of_mem_toDigits (n := k))
  rwa [number] at bare

theorem bare_toString (n : Int) : SpellsBare (toString n).toList n := by
  rw [Int.toString_eq_repr, Int.repr_eq_if]
  split
  · rename_i nonneg
    have bare := bare_toDigits .none n.toNat
    rwa [List.nil_append, one_mul, Int.toNat_of_nonneg nonneg, ← Nat.toList_repr] at bare
  · rename_i negative
    have bare := bare_toDigits .minus (-n).toNat
    rw [neg_one_mul, Int.toNat_of_nonneg (by omega), neg_neg, ← Nat.toList_repr] at bare
    rwa [String.toList_append]

end Text

/-! ## Values -/

namespace Json.Value

theorem toInt64?_of_nearest (nearest : Nearest64 x.truncate n) :
    (Value.number x).toInt64? = some n :=
  toInt64?_eq_some_iff.mpr (.number nearest)

/-- **An integer that is written as a numeral is read as the nearest one of 64 bits.** -/
theorem toInt64?_of_bare (bare : SpellsBare cs N) (spelt : Number.ofChars? cs = some x)
    (nearest : Nearest64 N n) : (Value.number x).toInt64? = some n := by
  refine toInt64?_of_nearest (clampInt64_eq_iff.mp ?_)
  rw [(Number.Stands.of_bare bare spelt).clamp_eq]
  exact clampInt64_eq_iff.mpr nearest

/-- An integer of 64 bits is read from its decimal text, whatever white space is around it. -/
theorem toInt64?_of_padded {before after : List Char}
    (blank_before : ∀ c ∈ before, isBlank c = true) (blank_after : ∀ c ∈ after, isBlank c = true)
    (low : int64Min ≤ n) (high : n ≤ int64Max) :
    (Value.string (.ofList (before ++ (toString n).toList ++ after))).toInt64? = some n := by
  refine toInt64?_eq_some_iff.mpr (.text ?_ low high)
  rw [String.toList_ofList]
  exact .intro blank_before (Text.bare_toString n) blank_after

end Json.Value

/-! ## Ages of users -/

namespace Filter

theorem nonNull?_eq_some_iff {name : String} {v : Value} :
    nonNull? name fields = some v ↔ Named.get? name fields = some v ∧ v ≠ .null := by
  have null : (!v.isNull) = true ↔ v ≠ .null := by
    cases v <;> simp [Value.isNull]
  rw [nonNull?, Option.filter_eq_some_iff, null]

theorem isBasicUser_iff : isBasicUser fields = true ↔
    ∃ user age n, Named.get? "name" fields = some (.string user) ∧ user ≠ "" ∧
      Named.get? "age" fields = some age ∧ age.toInt64? = some n ∧
      (16 < n ∨ 'A' ∈ user.toList) := by
  constructor
  · intro basic
    unfold isBasicUser at basic
    split at basic
    · rename_i name age named aged
      dsimp only at basic
      split at basic
      · rename_i n read
        simp only [Bool.and_eq_true, bne_iff_ne, Bool.or_eq_true, decide_eq_true_eq,
          List.contains_iff_mem] at basic
        have there := (nonNull?_eq_some_iff.mp aged).1
        cases name with
        | string user =>
          exact ⟨user, age, n, (nonNull?_eq_some_iff.mp named).1, basic.1, there, read, basic.2⟩
        | _ => exact absurd rfl basic.1
      · cases basic
    · cases basic
  · rintro ⟨user, age, n, named, nonempty, aged, read, decides⟩
    have stated : nonNull? "age" fields = some age :=
      nonNull?_eq_some_iff.mpr ⟨aged, by rintro rfl; cases read⟩
    have called : nonNull? "name" fields = some (.string user) :=
      nonNull?_eq_some_iff.mpr ⟨named, nofun⟩
    rw [isBasicUser, called, stated]
    dsimp only
    rw [read]
    simpa [Value.string?, nonempty] using decides

end Filter

/-! ## Messages -/

namespace Message

/-- How a message reads the entry under a name as an integer of 64 bits. -/
structure ReadsIntegers (m : Message) (name : String) : Prop where
  /-- A text is read as the integer that it spells, if that has 64 bits. -/
  text : ∀ {s}, m.entry? name = some (.string s) → ∀ n,
    m.int64? name = some n ↔ Spells s.toList n ∧ int64Min ≤ n ∧ n ≤ int64Max
  /-- The decimal text of an integer of 64 bits is read as that integer, whatever white space is
  around it. -/
  padded : ∀ {before after n}, (∀ c ∈ before, isBlank c = true) → (∀ c ∈ after, isBlank c = true) →
    int64Min ≤ n → n ≤ int64Max →
    m.entry? name = some (.string (.ofList (before ++ (toString n).toList ++ after))) →
    m.int64? name = some n
  /-- An integer is read as itself if it has 64 bits, and otherwise as the nearest that has, -/
  integer : ∀ {N n}, Nearest64 N n → m.entry? name = some (.number (.int N)) →
    m.int64? name = some n
  /-- also if the numeral that spells it was read as a fraction. -/
  numeral : ∀ {cs N x n}, SpellsBare cs N → Number.ofChars? cs = some x → Nearest64 N n →
    m.entry? name = some (.number x) → m.int64? name = some n
  /-- The age of a user is read in the same way. -/
  age : ∀ {fields : Fields}, Named.get? "age" fields = m.entry? name →
    (Filter.isBasicUser fields = true ↔ ∃ user n, Named.get? "name" fields = some (.string user) ∧
      user ≠ "" ∧ m.int64? name = some n ∧ (16 < n ∨ 'A' ∈ user.toList))

/-- **Texts are read exactly, numerals as far as 64 bits go.** -/
theorem reads_integers (m : Message) (name : String) : m.ReadsIntegers name := by
  have read {v : Value} (found : m.entry? name = some v) : m.int64? name = v.toInt64? := by
    rw [int64?, found, Option.bind_some]
  refine ⟨fun found n ↦ ?_, fun blank_before blank_after low high found ↦ ?_,
    fun nearest found ↦ ?_, fun bare spelt nearest found ↦ ?_, fun {fields} same ↦ ?_⟩
  · rw [read found]
    exact Text.int64?_eq_some_iff
  · rw [read found]
    exact Value.toInt64?_of_padded blank_before blank_after low high
  · rw [read found]
    exact Value.toInt64?_of_nearest nearest
  · rw [read found]
    exact Value.toInt64?_of_bare bare spelt nearest
  · have aged {n : Int} : m.int64? name = some n ↔
        ∃ age, Named.get? "age" fields = some age ∧ age.toInt64? = some n := by
      rw [same, int64?, Option.bind_eq_some_iff]
    simp only [Filter.isBasicUser_iff, aged]
    constructor
    · rintro ⟨user, age, n, named, nonempty, stated, reads, decides⟩
      exact ⟨user, n, named, nonempty, ⟨age, stated, reads⟩, decides⟩
    · rintro ⟨user, n, named, nonempty, ⟨age, stated, reads⟩, decides⟩
      exact ⟨user, age, n, named, nonempty, stated, reads, decides⟩

/-- One past the greatest integer of 64 bits is read as a number and not as a text. -/
example : (Value.string "\u3000+009223372036854775807\n").toInt64? = some int64Max ∧
    (Value.string "9223372036854775808").toInt64? = none ∧
    (Value.number (.int 9223372036854775808)).toInt64? = some int64Max := by decide +kernel

end Message

end MessageBridge
