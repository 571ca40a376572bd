import MessageBridge.Scanning

/-!
# Reading texts piece by piece

The scanner finds the pieces of a text whatever it has found before. Punctuation and what a
character opens end by themselves, but a word is known only when the next character ends it, so
behind a word the scanner still stands inside it. `Behind` says that the scanner has found some
pieces up to that, and `Reads` that a text leads from some pieces to others; what is written by
joining texts with punctuation is read by `Reads.append_punctuation`.
-/

namespace MessageBridge.Scanning

variable {ι κ β : Type} {rules : Rules ι κ β} {state : State ι κ β} {p q r : List (Piece κ β)}
  {piece : Piece κ β} {c : Char} {cs ds : List Char}

/-! ## One character -/

theorem run_opens {i : ι} (solid : rules.isSpace c = false) (opens : rules.opens? c = some i)
    (p : List (Piece κ β)) (cs : List Char) :
    run rules ⟨p, .between⟩ (c :: cs) = run rules ⟨p, .inside i⟩ cs := by
  simp [run_cons, step, begin, solid, opens]

theorem run_turn {i : ι} {turn : Turn ι κ β} (leads : rules.turn? i c = some turn)
    (p : List (Piece κ β)) (cs : List Char) :
    run rules ⟨p, .inside i⟩ (c :: cs) = run rules (turn.after p) cs := by
  simp [run_cons, step, leads]

theorem run_stuck {i : ι} (stuck : rules.turn? i c = none) (p : List (Piece κ β))
    (cs : List Char) : run rules ⟨p, .inside i⟩ (c :: cs) = none := by
  simp [run_cons, step, stuck]

theorem begin_of_punctuation (known : punctuation? c = some piece) (p : List (Piece κ β)) :
    begin rules p c = ⟨piece :: p, .between⟩ := by
  obtain ⟨solid, closed⟩ : rules.isSpace c = false ∧ rules.opens? c = none := by
    simpa using List.all_eq_true.mp rules.apart c (mem_punctuation known)
  simp [begin, solid, closed, known]

/-! ## Words -/

theorem run_word (word : ∀ c ∈ cs, endsWord rules c = false) (p : List (Piece κ β))
    (read : List Char) :
    run rules ⟨p, .word read⟩ cs = some ⟨p, .word (cs.reverse ++ read)⟩ := by
  induction cs generalizing read with
  | nil => rfl
  | cons c cs ih =>
    have goes : step rules ⟨p, .word read⟩ c = some ⟨p, .word (c :: read)⟩ := by
      simp [step, word c List.mem_cons_self]
    rw [run_cons, goes, Option.bind_some, ih fun d hd ↦ word d (List.mem_cons_of_mem c hd)]
    simp

/-- The scanner is inside the word that it has read. -/
theorem run_between_word (some_read : cs ≠ []) (word : ∀ c ∈ cs, endsWord rules c = false)
    (p : List (Piece κ β)) : run rules ⟨p, .between⟩ cs = some ⟨p, .word cs.reverse⟩ := by
  obtain ⟨c, cs, rfl⟩ := List.exists_cons_of_ne_nil some_read
  have first := word c List.mem_cons_self
  simp only [endsWord, Bool.or_eq_false_iff, Option.isSome_eq_false_iff,
    Option.isNone_iff_eq_none] at first
  obtain ⟨⟨solid, closed⟩, no_punctuation⟩ := first
  have no_piece : (punctuation? c : Option (Piece κ β)) = none := by
    refine Option.eq_none_iff_forall_ne_some.mpr fun piece known ↦ ?_
    simp [mem_punctuation known] at no_punctuation
  have begins : step rules ⟨p, .between⟩ c = some ⟨p, .word [c]⟩ := by
    simp [step, begin, solid, closed, no_piece]
  rw [run_cons, begins, Option.bind_some, run_word fun d hd ↦ word d (List.mem_cons_of_mem c hd)]
  simp

/-! ## Behind a text -/

/-- The scanner has found some pieces, the last of which may be the word that it is in. -/
inductive Behind (rules : Rules ι κ β) : State ι κ β → List (Piece κ β) → Prop where
  | between {p : List (Piece κ β)} : Behind rules ⟨p, .between⟩ p
  | word {p : List (Piece κ β)} {read : List Char} {piece : Piece κ β}
      (spelt : rules.word? read.reverse = some piece) :
      Behind rules ⟨p, .word read⟩ (piece :: p)

namespace Behind

theorem step (behind : Behind rules state p) (known : punctuation? c = some piece) :
    step rules state c = some ⟨piece :: p, .between⟩ := by
  cases behind with
  | between => rw [Scanning.step, begin_of_punctuation known]
  | word spelt =>
    have ends : endsWord rules c = true := by simp [endsWord, mem_punctuation known]
    simp only [Scanning.step, ends, if_true, spelt, Option.map_some, begin_of_punctuation known]

theorem finish (behind : Behind rules state p) : finish rules state = some p.reverse := by
  cases behind with
  | between => rfl
  | word spelt => simp only [Scanning.finish, spelt, Option.map_some]

end Behind

/-- A text leads from the pieces found before it to those found behind it. -/
def Reads (rules : Rules ι κ β) (p : List (Piece κ β)) (cs : List Char)
    (q : List (Piece κ β)) : Prop :=
  ∃ state, run rules ⟨p, .between⟩ cs = some state ∧ Behind rules state q

namespace Reads

theorem refl (p : List (Piece κ β)) : Reads rules p [] p := ⟨_, rfl, .between⟩

/-- Punctuation behind a text is a piece, and the next text goes on from there. -/
theorem append_punctuation (first : Reads rules p cs q) (known : punctuation? c = some piece)
    (second : Reads rules (piece :: q) ds r) : Reads rules p (cs ++ c :: ds) r := by
  obtain ⟨state, run, behind⟩ := first
  obtain ⟨last, run', behind'⟩ := second
  refine ⟨last, ?_, behind'⟩
  rw [run_append, run, Option.bind_some, run_cons, behind.step known, Option.bind_some, run']

theorem punctuation (known : punctuation? c = some piece)
    (second : Reads rules (piece :: p) ds r) : Reads rules p (c :: ds) r :=
  (refl p).append_punctuation known second

theorem word (some_read : cs ≠ []) (letters : ∀ c ∈ cs, endsWord rules c = false)
    (spelt : rules.word? cs = some piece) (p : List (Piece κ β)) :
    Reads rules p cs (piece :: p) :=
  ⟨_, run_between_word some_read letters p, .word (by rwa [List.reverse_reverse])⟩

/-- What leads from no pieces to some has these as its pieces. -/
theorem pieces? (reads : Reads rules [] cs q) : pieces? rules cs = some q.reverse := by
  obtain ⟨state, run, behind⟩ := reads
  rw [Scanning.pieces?, start, run, Option.bind_some, behind.finish]

end Reads

/-! ## What every piece satisfies -/

/-- What every piece satisfies that the scanner can find. -/
structure Rules.Ensures (rules : Rules ι κ β) (P : Piece κ β → Prop) : Prop where
  punctuation : ∀ {c piece}, punctuation? c = some piece → P piece
  word : ∀ {s piece}, rules.word? s = some piece → P piece
  found : ∀ {i c piece}, rules.turn? i c = some (.found piece) → P piece

namespace Rules.Ensures

variable {P : Piece κ β → Prop} (ensures : rules.Ensures P)
include ensures

theorem begin (sound : ∀ piece ∈ p, P piece) (c : Char) :
    ∀ piece ∈ (begin rules p c).pieces, P piece := by
  unfold Scanning.begin
  split
  · exact sound
  split
  · exact sound
  split
  · rename_i known
    exact List.forall_mem_cons.mpr ⟨ensures.punctuation known, sound⟩
  · exact sound

theorem step {next : State ι κ β} (sound : ∀ piece ∈ state.pieces, P piece)
    (step : step rules state c = some next) : ∀ piece ∈ next.pieces, P piece := by
  obtain ⟨found, place⟩ := state
  cases place with
  | between =>
    cases step
    exact ensures.begin sound c
  | word read =>
    simp only [Scanning.step] at step
    split at step
    · obtain ⟨piece, spelt, rfl⟩ := Option.map_eq_some_iff.mp step
      exact ensures.begin (List.forall_mem_cons.mpr ⟨ensures.word spelt, sound⟩) c
    · cases step
      exact sound
  | inside i =>
    obtain ⟨turn, leads, rfl⟩ := Option.map_eq_some_iff.mp step
    cases turn with
    | inside j => exact sound
    | skipped => exact sound
    | found piece => exact List.forall_mem_cons.mpr ⟨ensures.found leads, sound⟩

theorem run {next : State ι κ β} (sound : ∀ piece ∈ state.pieces, P piece)
    (run : run rules state cs = some next) : ∀ piece ∈ next.pieces, P piece := by
  induction cs generalizing state with
  | nil =>
    cases run
    exact sound
  | cons c cs ih =>
    rw [run_cons] at run
    obtain ⟨between, step, rest⟩ := Option.bind_eq_some_iff.mp run
    exact ih (ensures.step sound step) rest

theorem finish (sound : ∀ piece ∈ state.pieces, P piece) (finish : finish rules state = some p) :
    ∀ piece ∈ p, P piece := by
  obtain ⟨found, place⟩ := state
  cases place with
  | between =>
    cases finish
    simpa using sound
  | word read =>
    obtain ⟨piece, spelt, rfl⟩ := Option.map_eq_some_iff.mp finish
    have grown := List.forall_mem_cons.mpr ⟨ensures.word spelt, sound⟩
    exact fun other mem ↦ grown other (List.mem_reverse.mp mem)
  | inside i =>
    simp only [Scanning.finish] at finish
    split at finish
    · cases finish
      simpa using sound
    · cases finish

/-- All pieces of a text satisfy what the scanner ensures. -/
theorem pieces (found : pieces? rules cs = some p) : ∀ piece ∈ p, P piece := by
  obtain ⟨state, run, finish⟩ := Option.bind_eq_some_iff.mp found
  exact ensures.finish (ensures.run (List.forall_mem_nil P) run) finish

end Rules.Ensures

end MessageBridge.Scanning
