import MessageBridge.Document.Scanner
import MessageBridge.Proofs.Json.ReadBack

/-!
# JSON texts in the relaxed notation

The relaxed notation reads the text of a JSON value as the document that the value spells, its
numbers as they are written (`Document.ofRelaxed?_render`), with one exception: the two separators
that Unicode counts among the line ends stand in a JSON string as they are, and in a string of the
relaxed notation no line ends.

`Scans` says what becomes of a text in the scanner in either case, so that texts joined with
punctuation need one lemma (`Scans.append_punctuation`), and `Completes` says what the pieces are
then nested to. A comma may stand before a closing bracket, so behind a comma everything is as
behind an opening one, and one induction covers the items of a list and its end.
-/

namespace MessageBridge

open Json (Value)

/-! ## Documents of values -/

namespace Document

mutual

/-- The document that the text of a value spells, its numbers as they are written. -/
def spelt : Value → Document
  | .null => .null
  | .bool b => .bool b
  | .number n => .number (.written n.toChars)
  | .string s => .text (.ok s)
  | .array items => .list (speltItems items)
  | .object members => .record (speltMembers members)

/-- The items of an array as they are spelt. -/
def speltItems : List Value → List Document
  | [] => []
  | v :: rest => spelt v :: speltItems rest

/-- The members of an object as they are spelt. -/
def speltMembers : List (String × Value) → List (Except TextFault String × Document)
  | [] => []
  | (key, v) :: rest => (.ok key, spelt v) :: speltMembers rest

end

end Document

namespace Relaxed

open Scanning (Reads run_append run_cons run_opens run_turn run_stuck)

variable {p q r : List RelaxedPiece} {piece : RelaxedPiece} {c : Char} {cs ds s : List Char}

/-! ## Line separators -/

/-- Whether a character is the line separator or the paragraph separator. -/
def isSeparator (c : Char) : Bool := c.toNat == 0x2028 || c.toNat == 0x2029

/-- The text holds no separator. -/
def Unbroken (cs : List Char) : Prop := ∀ c ∈ cs, isSeparator c = false

instance : DecidablePred Unbroken := List.decidableBAll fun c ↦ isSeparator c = false

@[simp] theorem unbroken_nil : Unbroken [] := List.forall_mem_nil _

@[simp] theorem unbroken_cons : Unbroken (c :: cs) ↔ isSeparator c = false ∧ Unbroken cs :=
  List.forall_mem_cons

@[simp] theorem unbroken_append : Unbroken (cs ++ ds) ↔ Unbroken cs ∧ Unbroken ds :=
  List.forall_mem_append

theorem isSeparator_of_toNat_lt (small : c.toNat < 0x2028) : isSeparator c = false := by
  simp only [isSeparator, Bool.or_eq_false_iff, beq_eq_false_iff_ne]
  omega

/-- Of the characters that are no controls, only the separators end a line. -/
theorem isLineEnd_of_le (printable : 0x20 ≤ c.toNat) : isLineEnd c = isSeparator c := by
  have feed : c ≠ '\n' := by
    rintro rfl
    exact absurd printable (by decide)
  have back : c ≠ '\r' := by
    rintro rfl
    exact absurd printable (by decide)
  simp [isLineEnd, isSeparator, feed, back]

/-! ## Strings -/

/-- The part of a text stands for the character. -/
def TextUnit.Means (u : TextUnit) (c : Char) : Prop :=
  ∀ rest, characters (u :: rest) = (characters rest).map fun cs ↦ c :: cs

theorem means_code {n : Nat} (small : n < 0xD800) : (TextUnit.code n).Means (Char.ofNat n) := by
  intro rest
  have lead : isLead n = false := by
    simp only [isLead, Bool.and_eq_false_iff, decide_eq_false_iff_not]
    omega
  have trail : isTrail n = false := by
    simp only [isTrail, Bool.and_eq_false_iff, decide_eq_false_iff_not]
    omega
  cases rest with
  | nil => simp only [characters, lead, trail, Bool.false_eq_true, if_false]
  | cons next more => simp only [characters, lead, trail, Bool.false_eq_true, if_false]

theorem run_controlEscape (control : c.toNat < 0x20) (p : List RelaxedPiece)
    (read : List TextUnit) :
    Scanning.run lexicalRules ⟨p, .inside (.text '"' read)⟩ (Json.controlEscape c) =
      some ⟨p, .inside (.text '"' (.code c.toNat :: read))⟩ := by
  have high := Json.hexDigit?_digitChar (d := c.toNat / 16) (by omega)
  have low := Json.hexDigit?_digitChar (d := c.toNat % 16) (by omega)
  have value : 0 * 16 + c.toNat / 16 = c.toNat / 16 ∧
      (c.toNat / 16) * 16 + c.toNat % 16 = c.toNat := by
    omega
  have escapes : Scanning.run lexicalRules ⟨p, .inside (.text '"' read)⟩ ['\\', 'u', '0', '0'] =
      some ⟨p, .inside (.code '"' read 2 0)⟩ := by rfl
  have first : Inside.turn? (.code '"' read 2 0) (c.toNat / 16).digitChar =
      some (.inside (.code '"' read 1 (c.toNat / 16))) := by
    simp only [Inside.turn?, high, value.1]
  have second : Inside.turn? (.code '"' read 1 (c.toNat / 16)) (c.toNat % 16).digitChar =
      some (.inside (.text '"' (.code c.toNat :: read))) := by
    simp only [Inside.turn?, low, value.2]
  rw [Json.controlEscape_eq control]
  refine (run_append lexicalRules _ ['\\', 'u', '0', '0'] _).trans ?_
  rw [escapes, Option.bind_some, run_turn first, Scanning.Turn.after, run_turn second]
  rfl

/-- A character of a string is read from what it is written as, unless it is a separator. -/
theorem run_escapeChar (solid : isSeparator c = false) (p : List RelaxedPiece)
    (read : List TextUnit) : ∃ u : TextUnit, u.Means c ∧
      Scanning.run lexicalRules ⟨p, .inside (.text '"' read)⟩ (Json.escapeChar c) =
        some ⟨p, .inside (.text '"' (u :: read))⟩ := by
  by_cases quote : c = '"'
  · subst quote
    exact ⟨.escape '"', fun _ ↦ rfl, rfl⟩
  by_cases slash : c = '\\'
  · subst slash
    exact ⟨.escape '\\', fun _ ↦ rfl, rfl⟩
  rw [Json.escapeChar, if_neg quote, if_neg slash]
  by_cases printable : 0x20 ≤ c.toNat
  · have goes : Inside.turn? (.text '"' read) c =
        some (.inside (.text '"' (.char c :: read))) := by
      simp [Inside.turn?, textTurn?, quote, slash, isLineEnd_of_le printable, solid]
    rw [if_pos printable, run_turn goes]
    exact ⟨.char c, fun _ ↦ rfl, rfl⟩
  · rw [if_neg printable]
    -- five controls have an escape of one letter
    split
    · subst_vars
      exact ⟨.escape 'b', fun _ ↦ rfl, rfl⟩
    split
    · subst_vars
      exact ⟨.escape 'f', fun _ ↦ rfl, rfl⟩
    split
    · subst_vars
      exact ⟨.escape 'n', fun _ ↦ rfl, rfl⟩
    split
    · subst_vars
      exact ⟨.escape 'r', fun _ ↦ rfl, rfl⟩
    split
    · subst_vars
      exact ⟨.escape 't', fun _ ↦ rfl, rfl⟩
    have means := means_code (n := c.toNat) (by omega)
    rw [Char.ofNat_toNat] at means
    exact ⟨_, means, run_controlEscape (Nat.not_le.mp printable) p read⟩

theorem run_separator (broken : isSeparator c = true) (p : List RelaxedPiece)
    (read : List TextUnit) :
    Scanning.run lexicalRules ⟨p, .inside (.text '"' read)⟩ (Json.escapeChar c) = none := by
  have high : 0x20 ≤ c.toNat := by
    simp only [isSeparator, Bool.or_eq_true, beq_iff_eq] at broken
    omega
  have quote : c ≠ '"' := by
    rintro rfl
    cases broken
  have slash : c ≠ '\\' := by
    rintro rfl
    cases broken
  have stuck : Inside.turn? (.text '"' read) c = none := by
    simp [Inside.turn?, textTurn?, quote, slash, isLineEnd_of_le high, broken]
  rw [Json.escapeChar, if_neg quote, if_neg slash, if_pos high, run_stuck stuck]

theorem run_escapeChars (solid : Unbroken cs) (p : List RelaxedPiece) (read : List TextUnit) :
    ∃ units, characters units = .ok cs ∧
      Scanning.run lexicalRules ⟨p, .inside (.text '"' read)⟩ (cs.flatMap Json.escapeChar) =
        some ⟨p, .inside (.text '"' (units.reverse ++ read))⟩ := by
  induction cs generalizing read with
  | nil => exact ⟨[], rfl, rfl⟩
  | cons c cs ih =>
    rw [unbroken_cons] at solid
    obtain ⟨u, means, first⟩ := run_escapeChar solid.1 p read
    obtain ⟨units, spell, others⟩ := ih solid.2 (u :: read)
    refine ⟨u :: units, ?_, ?_⟩
    · rw [means, spell]
      rfl
    · rw [List.flatMap_cons, run_append, first, Option.bind_some, others]
      simp

/-- The scanner is stuck at the first separator in a string. -/
theorem run_broken (broken : ¬Unbroken cs) (p : List RelaxedPiece) (read : List TextUnit) :
    Scanning.run lexicalRules ⟨p, .inside (.text '"' read)⟩ (cs.flatMap Json.escapeChar) =
      none := by
  induction cs generalizing read with
  | nil => exact absurd unbroken_nil broken
  | cons c cs ih =>
    rw [List.flatMap_cons, run_append]
    by_cases here : isSeparator c = true
    · rw [run_separator here, Option.bind_none]
    · rw [Bool.not_eq_true] at here
      obtain ⟨u, -, first⟩ := run_escapeChar here p read
      rw [first, Option.bind_some]
      exact ih (fun solid ↦ broken (unbroken_cons.mpr ⟨here, solid⟩)) _

theorem unbroken_escapeChar : Unbroken (Json.escapeChar c) ↔ isSeparator c = false := by
  by_cases quote : c = '"'
  · subst quote
    decide
  by_cases slash : c = '\\'
  · subst slash
    decide
  rw [Json.escapeChar, if_neg quote, if_neg slash]
  by_cases printable : 0x20 ≤ c.toNat
  · simp [printable]
  · rw [if_neg printable]
    refine iff_of_true ?_ (isSeparator_of_toNat_lt (by omega))
    repeat'
      split
      · decide
    have digit : ∀ d < 16, isSeparator (Nat.digitChar d) = false := by decide
    have four : Unbroken ['\\', 'u', '0', '0'] := by decide
    rw [Json.controlEscape_eq (Nat.not_le.mp printable)]
    have last : Unbroken [(c.toNat / 16).digitChar, (c.toNat % 16).digitChar] := by
      simp [digit (c.toNat / 16) (by omega), digit (c.toNat % 16) (by omega)]
    exact unbroken_append.mpr ⟨four, last⟩

@[simp] theorem unbroken_stringChars {t : String} :
    Unbroken (Json.stringChars t) ↔ Unbroken t.toList := by
  have quote : isSeparator '"' = false := rfl
  have inside : Unbroken (t.toList.flatMap Json.escapeChar) ↔ Unbroken t.toList := by
    induction t.toList with
    | nil => rfl
    | cons c cs ih =>
      rw [List.flatMap_cons, unbroken_append, unbroken_escapeChar, ih, unbroken_cons]
  simp [Json.stringChars, quote, inside]

/-! ## Words -/

theorem isSeparator_of_endsWord (letter : Scanning.endsWord lexicalRules c = false) :
    isSeparator c = false := by
  simp only [Scanning.endsWord, lexicalRules, isSpace, isLineEnd, Bool.or_eq_false_iff] at letter
  simp only [isSeparator, Bool.or_eq_false_iff]
  tauto

theorem wordPiece?_of_wordValue? {d : Document} (spelt : wordValue? cs = some d) :
    wordPiece? cs = some (.atom ((name? cs).map textOf) (some d)) := by
  rw [wordPiece?, spelt]
  cases (name? cs).map textOf with
  | none => rfl
  | some key => rfl

/-! ## Numbers -/

/-- No character of a numeral ends a word. -/
theorem endsWord_of_isNumeralChar (numeral : Json.isNumeralChar c = true) :
    Scanning.endsWord lexicalRules c = false := by
  have all : ∀ n < 128, Json.isNumeralChar (Char.ofNat n) = true →
      Scanning.endsWord lexicalRules (Char.ofNat n) = false := by
    decide
  obtain ⟨n, small, rfl⟩ := Json.ascii_of_isNumeralChar numeral
  exact all n small numeral

theorem isDecimal_of_unsigned? {negative : Bool} {n : Json.Number}
    (spelt : Json.unsigned? negative s = some n) : isDecimal s = true := by
  unfold Json.unsigned? at spelt
  unfold isDecimal
  generalize Json.leadingDigits s = parts at spelt ⊢
  obtain ⟨digits, rest⟩ := parts
  dsimp only at spelt ⊢
  split at spelt
  · cases spelt
  · cases spelt
  · rename_i some_digit no_zero
    have whole : isWhole digits = true := by
      unfold isWhole
      split
      · exact absurd rfl some_digit
      · rename_i d ds
        exact absurd rfl (no_zero d ds)
      · rfl
    -- behind the integer part stands nothing, a fraction or an exponent
    rcases rest with _ | ⟨d, more⟩
    · simp [whole, isExponent, Json.exponent?]
    · by_cases point : d = '.'
      · subst point
        simp only [Json.fraction?] at spelt
        split at spelt
        · cases spelt
        · obtain ⟨e, exponent, -⟩ := Option.bind_eq_some_iff.mp spelt
          simp [isExponent, exponent, whole]
      · simp only [Json.fraction?, List.cons.injEq, point, false_and, imp_false,
          not_false_eq_true, implies_true] at spelt
        obtain ⟨e, exponent, -⟩ := Option.bind_eq_some_iff.mp spelt
        simp [isExponent, exponent, whole, point]

/-- Every numeral of JSON is a number of the relaxed notation. -/
theorem isNumber_of_ofChars? {n : Json.Number} (spelt : Json.Number.ofChars? s = some n) :
    isNumber s = true := by
  have decimal : isDecimal (Numeral.splitSign s).2 = true := by
    unfold Json.Number.ofChars? at spelt
    split at spelt
    · exact isDecimal_of_unsigned? spelt
    · rename_i unsigned
      unfold Numeral.splitSign
      split
      · exact absurd rfl (unsigned _)
      · cases spelt
      · exact isDecimal_of_unsigned? spelt
  simp [isNumber, decimal]

theorem wordValue?_of_ofChars? {n : Json.Number} (spelt : Json.Number.ofChars? s = some n) :
    wordValue? s = some (.number (.written s)) := by
  have other {t : List Char} (letters : Json.Number.ofChars? t = none) : s ≠ t := by
    rintro rfl
    rw [letters] at spelt
    cases spelt
  rw [wordValue?, if_neg (other rfl), if_neg (other rfl), if_neg (other rfl),
    if_pos (isNumber_of_ofChars? spelt)]

/-! ## Values without separators -/

theorem unbroken_itemsChars {items : List Value} :
    Unbroken (Value.itemsChars items) ↔ ∀ v ∈ items, Unbroken v.toChars := by
  have comma : isSeparator ',' = false := rfl
  induction items with
  | nil => simp [Value.itemsChars]
  | cons v rest ih =>
    cases rest with
    | nil => simp [Value.itemsChars]
    | cons w rest => simp [Value.itemsChars, comma, ih]

theorem unbroken_membersChars {members : List (String × Value)} :
    Unbroken (Value.membersChars members) ↔
      ∀ m ∈ members, Unbroken m.1.toList ∧ Unbroken m.2.toChars := by
  have comma : isSeparator ',' = false := rfl
  have colon : isSeparator ':' = false := rfl
  induction members with
  | nil => simp [Value.membersChars]
  | cons m rest ih =>
    obtain ⟨key, v⟩ := m
    cases rest with
    | nil => simp [Value.membersChars, colon]
    | cons n rest => simp [Value.membersChars, comma, colon, ih, and_assoc]

@[simp] theorem unbroken_null : Unbroken Value.null.toChars := by decide

@[simp] theorem unbroken_string {t : String} :
    Unbroken (Value.string t).toChars ↔ Unbroken t.toList := by
  rw [Value.toChars, unbroken_stringChars]

@[simp] theorem unbroken_number (n : Json.Number) : Unbroken (Value.number n).toChars := by
  intro c mem
  have numeral := Json.isNumeralChar_of_mem_toChars c mem
  exact isSeparator_of_endsWord (endsWord_of_isNumeralChar numeral)

@[simp] theorem unbroken_array {items : List Value} :
    Unbroken (Value.array items).toChars ↔ ∀ v ∈ items, Unbroken v.toChars := by
  have opens : isSeparator '[' = false := rfl
  have closes : isSeparator ']' = false := rfl
  simp [Value.toChars, opens, closes, unbroken_itemsChars]

@[simp] theorem unbroken_object {members : List (String × Value)} :
    Unbroken (Value.object members).toChars ↔
      ∀ m ∈ members, Unbroken m.1.toList ∧ Unbroken m.2.toChars := by
  have opens : isSeparator '\x7b' = false := rfl
  have closes : isSeparator '\x7d' = false := rfl
  simp [Value.toChars, opens, closes, unbroken_membersChars]

/-! ## What becomes of a text -/

theorem isSeparator_of_punctuation (known : punctuation? c = some piece) :
    isSeparator c = false := by
  have none_separates : (MessageBridge.punctuation.all fun c ↦ !isSeparator c) = true := by decide
  simpa using List.all_eq_true.mp none_separates c (mem_punctuation known)

/-- A text is read as some pieces, or the scanner is stuck at a separator in it. -/
structure Scans (cs : List Char) (q : List RelaxedPiece) : Prop where
  reads : Unbroken cs → ∀ p, Reads lexicalRules p cs (q.reverse ++ p)
  stuck : ¬Unbroken cs → ∀ p, Scanning.run lexicalRules ⟨p, .between⟩ cs = none

namespace Scans

theorem nil : Scans [] [] := ⟨fun _ p ↦ .refl p, fun broken ↦ absurd unbroken_nil broken⟩

/-- Punctuation behind a text is a piece, and the next text goes on from there. -/
theorem append_punctuation (first : Scans cs q) (known : punctuation? c = some piece)
    (second : Scans ds r) : Scans (cs ++ c :: ds) (q ++ piece :: r) := by
  have solid := isSeparator_of_punctuation known
  constructor
  · intro whole p
    rw [unbroken_append, unbroken_cons] at whole
    simpa using (first.reads whole.1 p).append_punctuation known
      (second.reads whole.2.2 (piece :: (q.reverse ++ p)))
  · intro broken p
    rw [unbroken_append, unbroken_cons] at broken
    rw [run_append]
    by_cases here : Unbroken cs
    · obtain ⟨state, run, behind⟩ := first.reads here p
      rw [run, Option.bind_some, run_cons, behind.step known, Option.bind_some]
      exact second.stuck (fun later ↦ broken ⟨here, solid, later⟩) _
    · rw [first.stuck here, Option.bind_none]

theorem punctuation (second : Scans ds r) (known : punctuation? c = some piece) :
    Scans (c :: ds) (piece :: r) := nil.append_punctuation known second

theorem string (t : String) :
    Scans (Json.stringChars t) [.atom (some (.ok t)) (some (.text (.ok t)))] := by
  constructor
  · intro solid p
    obtain ⟨units, spell, run⟩ := run_escapeChars (unbroken_stringChars.mp solid) p []
    have closes : Inside.turn? (.text '"' (units.reverse ++ [])) '"' =
        some (.found (textPiece units.reverse)) := by
      simp [Inside.turn?, textTurn?]
    have read : textOf units = .ok t := by
      rw [textOf, spell, Except.map, String.ofList_toList]
    refine ⟨_, ?_, .between⟩
    rw [Json.stringChars, run_opens rfl rfl, run_append, run, Option.bind_some, run_turn closes,
      textPiece, List.reverse_reverse, read]
    rfl
  · intro broken p
    rw [unbroken_stringChars] at broken
    rw [Json.stringChars, run_opens rfl rfl, run_append, run_broken broken, Option.bind_none]

theorem word {d : Document} (letters : ∀ c ∈ cs, Scanning.endsWord lexicalRules c = false)
    (spelt : wordValue? cs = some d) : Scans cs [.atom ((name? cs).map textOf) (some d)] := by
  have some_read : cs ≠ [] := by
    rintro rfl
    cases spelt
  have whole : Unbroken cs := fun c mem ↦ isSeparator_of_endsWord (letters c mem)
  exact ⟨fun _ ↦ .word some_read letters (wordPiece?_of_wordValue? spelt),
    fun broken ↦ absurd whole broken⟩

end Scans

/-! ## Nesting -/

/-- The pieces make up the document, whatever stands open before them. -/
def Completes (q : List RelaxedPiece) (d : Document) : Prop :=
  ∀ (stack : List (Nesting.Frame (Except TextFault String) Document)) (may : Bool),
    Nesting.run rules ⟨stack, .value may⟩ q = Nesting.complete d stack

theorem completes_atom (key : Option (Except TextFault String)) (d : Document) :
    Completes [.atom key (some d)] d := by
  intro stack may
  cases may <;> exact Option.bind_fun_some _

/-- The text is that of the document. -/
def Spells (cs : List Char) (d : Document) : Prop := ∃ q, Scans cs q ∧ Completes q d

/-- The items of a list, up to its end. -/
theorem spells_items {items : List Value}
    (spell : ∀ v ∈ items, Spells v.toChars (Document.spelt v)) :
    ∃ q, Scans (Value.itemsChars items ++ [']']) q ∧
      ∀ (stack : List (Nesting.Frame (Except TextFault String) Document)) (done : List Document),
        Nesting.run rules ⟨.list done :: stack, .value true⟩ q =
          Nesting.complete (.list (done.reverse ++ Document.speltItems items)) stack := by
  induction items with
  | nil =>
    refine ⟨_, .punctuation (c := ']') .nil rfl, fun stack done ↦ ?_⟩
    rw [Document.speltItems, List.append_nil]
    exact Option.bind_fun_some _
  | cons v rest ih =>
    obtain ⟨q, scans, completes⟩ := spell v List.mem_cons_self
    obtain ⟨r, scans', ends⟩ := ih fun w mem ↦ spell w (List.mem_cons_of_mem v mem)
    cases rest with
    | nil =>
      refine ⟨_, scans.append_punctuation (c := ']') rfl .nil, fun stack done ↦ ?_⟩
      rw [Nesting.run_append, completes]
      simp [Nesting.run_cons, Nesting.step, Nesting.complete, Nesting.endList, rules,
        Document.speltItems]
    | cons w rest =>
      refine ⟨q ++ .comma :: r, ?_, fun stack done ↦ ?_⟩
      · rw [Value.itemsChars, List.append_assoc, List.cons_append]
        exact scans.append_punctuation (c := ',') rfl scans'
      · rw [Nesting.run_append, completes]
        simpa [Nesting.run_cons, Nesting.step, Nesting.complete, rules, Document.speltItems] using
          ends stack (Document.spelt v :: done)

/-- The members of a record, up to its end. -/
theorem spells_members {members : List (String × Value)}
    (spell : ∀ m ∈ members, Spells m.2.toChars (Document.spelt m.2)) :
    ∃ q, Scans (Value.membersChars members ++ ['\x7d']) q ∧
      ∀ (stack : List (Nesting.Frame (Except TextFault String) Document))
        (done : List (Except TextFault String × Document)),
        Nesting.run rules ⟨.record done none :: stack, .key true⟩ q =
          Nesting.complete (.record (done.reverse ++ Document.speltMembers members)) stack := by
  induction members with
  | nil =>
    refine ⟨_, .punctuation (c := '\x7d') .nil rfl, fun stack done ↦ ?_⟩
    rw [Document.speltMembers, List.append_nil]
    exact Option.bind_fun_some _
  | cons m rest ih =>
    obtain ⟨key, v⟩ := m
    obtain ⟨q, scans, completes⟩ := spell (key, v) List.mem_cons_self
    obtain ⟨r, scans', ends⟩ := ih fun w mem ↦ spell w (List.mem_cons_of_mem _ mem)
    have member := (Scans.string key).append_punctuation (c := ':') rfl scans
    have entered (stack : List (Nesting.Frame (Except TextFault String) Document))
        (done : List (Except TextFault String × Document)) :
        Nesting.run rules ⟨.record done none :: stack, .key true⟩
            ([.atom (some (.ok key)) (some (.text (.ok key)))] ++ .colon :: q) =
          some ⟨.record ((.ok key, Document.spelt v) :: done) none :: stack, .separator⟩ := by
      change Nesting.run rules ⟨.record done (some (.ok key)) :: stack, .value false⟩ q = _
      exact completes _ false
    cases rest with
    | nil =>
      refine ⟨_, member.append_punctuation (c := '\x7d') rfl .nil, fun stack done ↦ ?_⟩
      rw [Nesting.run_append, entered]
      simp [Nesting.run_cons, Nesting.step, Nesting.complete, Nesting.endRecord, rules,
        Document.speltMembers]
    | cons n rest =>
      have text : Value.membersChars ((key, v) :: n :: rest) ++ ['\x7d'] =
          (Json.stringChars key ++ ':' :: v.toChars) ++
            ',' :: (Value.membersChars (n :: rest) ++ ['\x7d']) := by
        simp [Value.membersChars]
      refine ⟨_, text ▸ member.append_punctuation (c := ',') rfl scans', fun stack done ↦ ?_⟩
      rw [Nesting.run_append, entered]
      simpa [Nesting.run_cons, Nesting.step, rules, Document.speltMembers] using
        ends stack ((.ok key, Document.spelt v) :: done)

theorem spells_of_readable {v : Value} {room : Nat} (readable : v.Readable room)
    (floats : v.FloatsReadBack) : Spells v.toChars (Document.spelt v) := by
  have atom {cs : List Char} {d : Document}
      (letters : ∀ c ∈ cs, Scanning.endsWord lexicalRules c = false)
      (spelt : wordValue? cs = some d) : Spells cs d :=
    ⟨_, .word letters spelt, completes_atom _ d⟩
  have keyword {cs : List Char} {d : Document}
      (letters : (cs.all fun c ↦ !Scanning.endsWord lexicalRules c) = true)
      (spelt : wordValue? cs = some d) : Spells cs d :=
    atom (fun c mem ↦ by simpa using List.all_eq_true.mp letters c mem) spelt
  induction readable with
  | null => exact keyword rfl rfl
  | bool b =>
    cases b with
    | false => exact keyword rfl rfl
    | true => exact keyword rfl rfl
  | @number _ n fits =>
    have reads : n.ReadsBack := by
      cases n with
      | int n => exact Json.readsBack_int fits
      | float x => exact floats x .here
    exact atom (fun c mem ↦ endsWord_of_isNumeralChar (Json.isNumeralChar_of_mem_toChars c mem))
      (wordValue?_of_ofChars? reads)
  | string t => exact ⟨_, .string t, completes_atom _ _⟩
  | array _ ih =>
    obtain ⟨q, scans, ends⟩ := spells_items fun v mem ↦
      ih v mem (Value.floatsReadBack_array.mp floats v mem)
    refine ⟨_, scans.punctuation (c := '[') rfl, fun stack may ↦ ?_⟩
    have opens : Nesting.run rules ⟨stack, .value may⟩ (.openList :: q) =
        Nesting.run rules ⟨.list [] :: stack, .value true⟩ q := by
      cases may <;> rfl
    exact opens.trans (ends stack [])
  | object _ _ ih =>
    obtain ⟨q, scans, ends⟩ := spells_members fun m mem ↦
      ih m mem (Value.floatsReadBack_object.mp floats m mem)
    refine ⟨_, scans.punctuation (c := '\x7b') rfl, fun stack may ↦ ?_⟩
    have opens : Nesting.run rules ⟨stack, .value may⟩ (.openRecord :: q) =
        Nesting.run rules ⟨.record [] none :: stack, .key true⟩ q := by
      cases may <;> rfl
    exact opens.trans (ends stack [])

end Relaxed

/-- **The relaxed notation reads the text of a JSON value** as what the value spells, unless a
separator stands in it. -/
theorem Document.ofRelaxed?_render {v : Value} {room : Nat} (readable : v.Readable room)
    (floats : v.FloatsReadBack) : ofRelaxed? v.render =
      if Relaxed.Unbroken v.toChars then some (spelt v) else none := by
  obtain ⟨q, scans, completes⟩ := Relaxed.spells_of_readable readable floats
  rw [ofRelaxed?, Value.render, String.toList_ofList, Relaxed.pieces?]
  split
  · rename_i whole
    rw [(scans.reads whole []).pieces?, Option.bind_some, List.append_nil, List.reverse_reverse,
      Nesting.value?, Nesting.start, completes]
    rfl
  · rename_i broken
    rw [Scanning.pieces?, Scanning.start, scans.stuck broken, Option.bind_none, Option.bind_none]

end MessageBridge
