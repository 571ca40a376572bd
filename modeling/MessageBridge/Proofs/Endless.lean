import Mathlib.Order.Nat
import MessageBridge.Proofs.Execution

/-!
# Endless runs

Some things only happen in the end: a call gets its verdict, a worker is gone. They are stated of
runs that never end and in which nobody is put off forever. What exactly is owed to whom is up to
the machine; here is only what all such arguments share. Every run has the executions as its
beginnings, so invariants carry over, and a number that never grows and shrinks again and again
cannot go on for ever.
-/

namespace MessageBridge

universe u v w

variable {σ : Type u} {α : Type v} {ω : Type w}

/-- A run of a machine that never ends. -/
structure Endless (step? : σ → α → Option (σ × List ω)) (start : σ) where
  /-- The state before each step. -/
  state : Nat → σ
  /-- What happens in each step. -/
  action : Nat → α
  /-- What each step tells the outside. -/
  outputs : Nat → List ω
  /-- It begins at the start, -/
  begins : state 0 = start
  /-- and its steps follow one another. -/
  steps : ∀ t, step? (state t) (action t) = some (state (t + 1), outputs t)

namespace Endless

variable {step? : σ → α → Option (σ × List ω)} {start : σ}

/-- The step at a time. -/
def moment (run : Endless step? start) (t : Nat) : Moment σ α ω :=
  ⟨run.state t, run.action t, run.state (t + 1), run.outputs t⟩

/-- The steps before a time. -/
def past (run : Endless step? start) (t : Nat) : List (Moment σ α ω) :=
  (List.range t).map run.moment

theorem past_succ (run : Endless step? start) (t : Nat) :
    run.past (t + 1) = run.past t ++ [run.moment t] := by
  rw [past, past, List.range_succ, List.map_append, List.map_singleton]

theorem execution (run : Endless step? start) (t : Nat) :
    Execution step? start (run.past t) (run.state t) := by
  induction t with
  | zero =>
    rw [run.begins]
    exact .refl
  | succ t ih =>
    rw [run.past_succ]
    exact ih.snoc (run.steps t)

theorem exists_later (run : Endless step? start) {t u : Nat} (ht : t ≤ u) :
    ∃ later, run.past u = run.past t ++ later ∧
      Execution step? (run.state t) later (run.state u) := by
  induction u, ht using Nat.le_induction with
  | base => exact ⟨[], (List.append_nil _).symm, .refl⟩
  | succ u _ ih =>
    obtain ⟨later, split, exec⟩ := ih
    refine ⟨later ++ [run.moment u], ?_, exec.snoc (run.steps u)⟩
    rw [run.past_succ, split, List.append_assoc]

end Endless

/-! ## Runs that come to rest -/

section Rest

variable {start last : σ} {step? : σ → α → Option (σ × List ω)} {past : List (Moment σ α ω)}

/-- The moments of an execution follow one another, and the last one leads to its last state. -/
theorem Execution.after_eq (exec : Execution step? start past last) {t : Nat}
    {mo : Moment σ α ω} (here : past[t]? = some mo) :
    mo.after = ((past[t + 1]?).map Moment.before).getD last := by
  induction exec with
  | refl => simp at here
  | @snoc past s s' a outputs _ _ ih =>
    obtain earlier | rfl | later := Nat.lt_trichotomy t past.length
    · rw [List.getElem?_append_left earlier] at here
      rw [ih here]
      by_cases next : t + 1 < past.length
      · rw [List.getElem?_append_left next, List.getElem?_eq_getElem next]
        rfl
      · have last_one : t + 1 = past.length := by omega
        rw [last_one, List.getElem?_eq_none (Nat.le_refl _), List.getElem?_concat_length]
        rfl
    · rw [List.getElem?_concat_length] at here
      cases here
      rw [List.getElem?_eq_none (by simp)]
      rfl
    · rw [List.getElem?_eq_none (by simp; omega)] at here
      cases here

theorem Execution.start_eq (exec : Execution step? start past last) :
    ((past[0]?).map Moment.before).getD last = start := by
  induction exec with
  | refl => rfl
  | @snoc past s s' a outputs _ _ ih =>
    cases past with
    | nil => exact ih
    | cons mo past => exact ih

variable (exec : Execution step? start past last) {a : Nat → α}
  (rest : ∀ t, step? last (a t) = some (last, []))

/-- An execution, followed for ever by actions that change nothing. -/
def Endless.ofRest : Endless step? start where
  state t := ((past[t]?).map Moment.before).getD last
  action t := ((past[t]?).map Moment.action).getD (a t)
  outputs t := ((past[t]?).map Moment.outputs).getD []
  begins := exec.start_eq
  steps t := by
    cases here : past[t]? with
    | none =>
      rw [List.getElem?_eq_none ((List.getElem?_eq_none_iff.mp here).trans (Nat.le_succ t))]
      exact rest t
    | some mo =>
      rw [← exec.after_eq here]
      obtain ⟨_, _, -, -, step, -⟩ := exec.at_moment (List.mem_of_getElem? here)
      exact step

theorem Endless.state_ofRest {t : Nat} (ht : past.length ≤ t) :
    (ofRest exec rest).state t = last := by
  show ((past[t]?).map Moment.before).getD last = last
  rw [List.getElem?_eq_none ht]
  rfl

theorem Endless.action_ofRest {t : Nat} (ht : past.length ≤ t) :
    (ofRest exec rest).action t = a t := by
  show ((past[t]?).map Moment.action).getD (a t) = a t
  rw [List.getElem?_eq_none ht]
  rfl

theorem Endless.forall_action_ofRest {P : α → Prop}
    (before : ∀ mo ∈ past, P mo.action) (after : ∀ t, P (a t)) (t : Nat) :
    P ((ofRest exec rest).action t) := by
  show P (((past[t]?).map Moment.action).getD (a t))
  cases here : past[t]? with
  | none => exact after t
  | some mo => exact before mo (List.mem_of_getElem? here)

/-- Before it comes to rest it is that execution. -/
theorem Endless.past_ofRest : (ofRest exec rest).past past.length = past := by
  apply List.ext_getElem
  · simp [Endless.past]
  · intro t _ ht
    have here := List.getElem?_eq_getElem ht
    have after := exec.after_eq here
    simp only [Endless.past, List.getElem_map, List.getElem_range, moment, ofRest, here,
      Option.map_some, Option.getD_some]
    rw [← after]

end Rest

/-- What each of finitely many comes to for good, all of them come to together. -/
theorem eventually_all {P : Nat → Nat → Prop} {n : Nat}
    (each : ∀ d, d < n → ∃ t, ∀ u, t ≤ u → P d u) :
    ∃ t, ∀ d, d < n → ∀ u, t ≤ u → P d u := by
  induction n with
  | zero => exact ⟨0, fun d hd ↦ absurd hd (Nat.not_lt_zero d)⟩
  | succ n ih =>
    obtain ⟨t, others⟩ := ih fun d hd ↦ each d (Nat.lt_succ_of_lt hd)
    obtain ⟨t', last⟩ := each n (Nat.lt_succ_self n)
    refine ⟨max t t', fun d hd u hu ↦ ?_⟩
    rcases Nat.lt_succ_iff_lt_or_eq.mp hd with hd | rfl
    · exact others d hd u ((Nat.le_max_left _ _).trans hu)
    · exact last u ((Nat.le_max_right _ _).trans hu)

/-- **A rank that cannot grow before the goal is reached, and shrinks again and again, leads to the
goal.** -/
theorem eventually_of_rank (goal : Nat → Prop) (rank : Nat → Nat)
    (stays : ∀ t, ¬ goal t → rank (t + 1) ≤ rank t)
    (falls : ∀ t, ¬ goal t → ∃ u, t ≤ u ∧ (goal u ∨ rank (u + 1) < rank u)) (t : Nat) :
    ∃ u, t ≤ u ∧ goal u := by
  induction hr : rank t using Nat.strong_induction_on generalizing t with
  | _ n ih =>
    by_contra never
    have not_yet : ∀ u, t ≤ u → ¬ goal u := fun u hu reached ↦ never ⟨u, hu, reached⟩
    have not_more : ∀ u, t ≤ u → rank u ≤ rank t := by
      intro u hu
      induction u, hu using Nat.le_induction with
      | base => exact Nat.le_refl _
      | succ u hu less => exact (stays u (not_yet u hu)).trans less
    obtain ⟨u, hu, reached | less⟩ := falls t (not_yet t (Nat.le_refl t))
    · exact not_yet u hu reached
    · -- from there on the rank is smaller than it was
      have below : rank (u + 1) < n := hr ▸ less.trans_le (not_more u hu)
      obtain ⟨v, hv, reached⟩ := ih _ below (u + 1) rfl
      exact not_yet v (by omega) reached

end MessageBridge
