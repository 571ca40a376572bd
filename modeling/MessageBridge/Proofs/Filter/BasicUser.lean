import MessageBridge.Proofs.Message.Integers

/-!
# Basic users

The filter of basic users asks for a name that is not empty and for an age over sixteen or a
capital A in the name, where the age may be a number or a text that spells one. The age is brought
to an integer of 64 bits before it is compared. Numbers lose nothing by that but their fractions, so
a number between sixteen and seventeen is taken for sixteen. A text is lost altogether unless it
spells an integer of 64 bits, even if the number that it spells would pass. These are all the users
whom the filter overlooks (`Filter.Overlooks`). Beyond those who qualify, it lets pass only users
whose age is an integer in a spelling that numerals do not have.
-/

namespace MessageBridge

open Json (Value Number Fields)
open Text (int64Min int64Max Spells)

variable {fields : Fields} {user s : String} {age : Value} {x : Number} {k n : Int}

/-! ## Ages -/

/-- The number that a value denotes: itself, or the numeral inside the white space of a text. -/
inductive Json.Value.Denotes : Value → Number → Prop where
  | number (x : Number) : Denotes (.number x) x
  | text {s : String} {x : Number} : Number.ofChars? (Text.trim s.toList) = some x →
      Denotes (.string s) x

/-- A text spells an integer of 64 bits. -/
def Text.Spells64 (s : String) : Prop := ∃ n, Spells s.toList n ∧ int64Min ≤ n ∧ n ≤ int64Max

theorem Json.Number.value_of_spells (spells : Spells s.toList n) (low : int64Min ≤ n)
    (high : n ≤ int64Max) (read : Number.ofChars? (Text.trim s.toList) = some x) : x.value = n :=
  have bare := Text.bare_of_integer? (Text.integer?_trim_eq_some_iff.mpr spells)
  (Number.Stands.of_bare bare read).value_eq low high

namespace Filter

/-- The fields name a user and state an age. -/
structure Describes (fields : Fields) (user : String) (age : Value) : Prop where
  name : Named.get? "name" fields = some (.string user)
  nonempty : user ≠ ""
  age : Named.get? "age" fields = some age

/-- The user is old enough or has a capital A in the name. -/
def Qualifies (user : String) (age : ℚ) : Prop := 16 < age ∨ 'A' ∈ user.toList

/-- An age is lost when it is brought to an integer, and with it a user who may qualify. -/
inductive Overlooks (user : String) : Value → Prop where
  /-- Nothing over sixteen is left of a number that is less than one above it. -/
  | fraction {x : Number} : 16 < x.value → x.value < 17 → 'A' ∉ user.toList →
      Overlooks user (.number x)
  /-- Nothing at all is left of a text. -/
  | text {s : String} : ¬ Text.Spells64 s → Overlooks user (.string s)

theorem overlooks_number_iff : Overlooks user (.number x) ↔
    16 < x.value ∧ x.value < 17 ∧ 'A' ∉ user.toList :=
  ⟨fun | .fraction above below plain => ⟨above, below, plain⟩,
    fun ⟨above, below, plain⟩ ↦ .fraction above below plain⟩

theorem overlooks_text_iff : Overlooks user (.string s) ↔ ¬ Text.Spells64 s :=
  ⟨fun | .text unspelt => unspelt, .text⟩

/-! ## Verdicts -/

theorem isBasicUser_of_describes (describes : Describes fields user age) :
    isBasicUser fields = true ↔ ∃ n, age.toInt64? = some n ∧ (16 < n ∨ 'A' ∈ user.toList) := by
  rw [isBasicUser_iff]
  constructor
  · rintro ⟨user', age', n, named, -, aged, read, decides⟩
    rw [describes.name] at named
    rw [describes.age] at aged
    cases named
    cases aged
    exact ⟨n, read, decides⟩
  · rintro ⟨n, read, decides⟩
    exact ⟨user, age, n, describes.name, describes.nonempty, describes.age, read, decides⟩

/-- Bringing an integer into 64 bits does not move it over sixteen. -/
theorem sixteen_lt_clampInt64_iff : 16 < Text.clampInt64 k ↔ 16 < k := by
  unfold Text.clampInt64 int64Min int64Max
  omega

theorem isBasicUser_of_number (describes : Describes fields user (.number x)) :
    isBasicUser fields = true ↔ 17 ≤ x.value ∨ 'A' ∈ user.toList := by
  have reaches : 16 < x.truncate ↔ 17 ≤ x.value := by
    have lost := Number.lt_truncate_iff (n := 16) (x := x)
    norm_num at lost
    exact lost
  rw [isBasicUser_of_describes describes, Value.toInt64?]
  simp only [Option.some.injEq, exists_eq_left', sixteen_lt_clampInt64_iff, reaches]

theorem qualifies_intCast : Qualifies user n ↔ 16 < n ∨ 'A' ∈ user.toList := by
  rw [Qualifies]
  norm_cast

theorem isBasicUser_of_text (describes : Describes fields user (.string s)) :
    isBasicUser fields = true ↔
      ∃ n : Int, (Spells s.toList n ∧ int64Min ≤ n ∧ n ≤ int64Max) ∧ Qualifies user n := by
  simp only [isBasicUser_of_describes describes, Value.toInt64?, Text.int64?_eq_some_iff,
    qualifies_intCast]

/-- If the age denotes a number, the user passes exactly if the number qualifies and is not lost. -/
theorem isBasicUser_of_denotes (describes : Describes fields user age) (denotes : age.Denotes x) :
    isBasicUser fields = true ↔ Qualifies user x.value ∧ ¬ Overlooks user age := by
  cases denotes with
  | number =>
    rw [isBasicUser_of_number describes, overlooks_number_iff, Qualifies]
    by_cases capital : 'A' ∈ user.toList
    · simp only [capital, or_true, not_true_eq_false, and_false, not_false_eq_true, and_self]
    · simp only [capital, or_false, not_false_eq_true, and_true, not_and, not_lt]
      exact ⟨fun reached ↦ ⟨by linarith, fun _ ↦ reached⟩, fun ⟨above, whole⟩ ↦ whole above⟩
  | @text s _ read =>
    rw [isBasicUser_of_text describes, overlooks_text_iff, not_not]
    constructor
    · rintro ⟨n, spells, qualifies⟩
      rw [Number.value_of_spells spells.1 spells.2.1 spells.2.2 read]
      exact ⟨qualifies, n, spells⟩
    · rintro ⟨qualifies, n, spells⟩
      rw [Number.value_of_spells spells.1 spells.2.1 spells.2.2 read] at qualifies
      exact ⟨n, spells, qualifies⟩

theorem isBasicUser_alike_iff {written given : Fields}
    (writes : Describes written user (.string s)) (gives : Describes given user (.number x))
    (denotes : (Value.string s).Denotes x) :
    isBasicUser written = isBasicUser given ↔ Text.Spells64 s ∨ isBasicUser given = false := by
  have text := isBasicUser_of_denotes writes denotes
  rw [overlooks_text_iff, not_not] at text
  by_cases spelt : Text.Spells64 s
  · -- the number is an integer, so nothing of it is lost either
    have whole : 17 ≤ x.value ↔ 16 < x.value := by
      obtain ⟨n, spells, low, high⟩ := spelt
      cases denotes with
      | text read =>
        rw [Number.value_of_spells spells low high read]
        exact_mod_cast Int.add_one_le_iff (a := 16) (b := n)
    have number := isBasicUser_of_number gives
    rw [whole] at number
    refine iff_of_true (Bool.eq_iff_iff.mpr ?_) (.inl spelt)
    rw [text, number]
    exact and_iff_left spelt
  · have lost : isBasicUser written = false :=
      Bool.eq_false_iff.mpr fun basic ↦ spelt (text.mp basic).2
    rw [lost, eq_comm, or_iff_right spelt]

/-- How the filter judges the decoded fields of a message. -/
structure JudgesUsers (fields : Fields) : Prop where
  /-- Fields are judged by themselves, and the answer is never an error. -/
  alone : ∀ now m, basicUser.evaluate now m (some fields) = .ok (isBasicUser fields)
  /-- Without them nobody passes. -/
  absent : ∀ now m, basicUser.evaluate now m none = .ok false
  /-- If the age denotes a number, the user passes exactly if the number is over sixteen or the name
  has a capital A, unless the number is lost when it is brought to an integer. -/
  denoted : ∀ {user age x}, Describes fields user age → age.Denotes x →
    (isBasicUser fields = true ↔ Qualifies user x.value ∧ ¬ Overlooks user age)
  /-- So a text and the number that it denotes are judged alike, unless the text spells no integer
  of 64 bits while the number passes. -/
  alike : ∀ {given user s x}, Describes fields user (.string s) →
    Describes given user (.number x) → (Value.string s).Denotes x →
    (isBasicUser fields = isBasicUser given ↔ Text.Spells64 s ∨ isBasicUser given = false)
  /-- A text that is no numeral can only pass by spelling an integer of 64 bits. -/
  spelt : ∀ {user s}, Describes fields user (.string s) → (∀ x, ¬ (Value.string s).Denotes x) →
    (isBasicUser fields = true ↔
      ∃ n : Int, (Spells s.toList n ∧ int64Min ≤ n ∧ n ≤ int64Max) ∧ Qualifies user n)
  /-- Fields of any other shape do not pass. -/
  others : (∀ user x, ¬ Describes fields user (.number x)) →
    (∀ user s, ¬ Describes fields user (.string s)) → isBasicUser fields = false

/-- **Whoever qualifies by a number or its text passes, unless the age is lost on the way to an
integer.** -/
theorem judges_users (fields : Fields) : JudgesUsers fields := by
  refine ⟨fun now m ↦ rfl, fun now m ↦ rfl, isBasicUser_of_denotes, isBasicUser_alike_iff,
    fun describes _ ↦ isBasicUser_of_text describes, fun number text ↦ ?_⟩
  refine Bool.eq_false_iff.mpr fun basic ↦ ?_
  obtain ⟨user, age, n, named, nonempty, aged, read, -⟩ := isBasicUser_iff.mp basic
  cases Value.toInt64?_eq_some_iff.mp read with
  | number => exact number user _ ⟨named, nonempty, aged⟩
  | text => exact text user _ ⟨named, nonempty, aged⟩

/-- Fields with a name and an age. -/
def bob (age : Value) : Fields := [("name", .string "bob"), ("age", age)]

/-- Sixteen and a half. -/
def sixteenAndAHalf : Number := .float ⟨false, 4644337115725824, -48⟩

/-- Thirty, as a fraction. -/
def thirty : Number := .float ⟨false, 8444249301319680, -48⟩

/-- A number over sixteen is taken for sixteen, and a text is rejected while the number that it
denotes passes. -/
theorem overlooked_ages :
    (Value.string "16.5").Denotes sixteenAndAHalf ∧ Qualifies "bob" sixteenAndAHalf.value ∧
    isBasicUser (bob (.number sixteenAndAHalf)) = false ∧
    (Value.string "30.0").Denotes thirty ∧ Qualifies "bob" thirty.value ∧
    isBasicUser (bob (.string "30.0")) = false ∧ isBasicUser (bob (.number thirty)) = true := by
  have above : 16 < sixteenAndAHalf.value := by
    norm_num [sixteenAndAHalf, Number.value, Decimal.Binary64.value, Decimal.Binary64.absValue]
  have far : 16 < thirty.value := by
    norm_num [thirty, Number.value, Decimal.Binary64.value, Decimal.Binary64.absValue]
  exact ⟨.text (by decide +kernel), .inl above, by decide +kernel, .text (by decide +kernel),
    .inl far, by decide +kernel, by decide +kernel⟩

end Filter

end MessageBridge
