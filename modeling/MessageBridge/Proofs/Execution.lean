import Mathlib.Data.List.Induction
import MessageBridge.Route.Running

/-!
# Executions

A machine is a partial step function: an action either leads to the next state and tells something
to the outside, or cannot happen. An execution is a list of steps that follow one another, and
everything that is said about histories is a function of that list. No order of actions is built
in, so a statement about all executions is one about all schedules.

Executions grow at the end. An invariant that mentions the history is therefore proved by one
induction, in which the last step meets what is known of all steps before it.
-/

namespace MessageBridge

universe u v w

variable {σ : Type u} {α : Type v} {ω : Type w}

/-- One step of a machine. -/
structure Moment (σ : Type u) (α : Type v) (ω : Type w) where
  /-- The state before it. -/
  before : σ
  /-- What happened. -/
  action : α
  /-- The state after it. -/
  after : σ
  /-- What was told to the outside. -/
  outputs : List ω

/-- The executions of a machine from a state, with the steps so far and the state they led to. -/
inductive Execution (step? : σ → α → Option (σ × List ω)) (start : σ) :
    List (Moment σ α ω) → σ → Prop where
  | refl : Execution step? start [] start
  | snoc {past : List (Moment σ α ω)} {s t : σ} {a : α} {outputs : List ω} :
      Execution step? start past s → step? s a = some (t, outputs) →
      Execution step? start (past ++ [⟨s, a, t, outputs⟩]) t

/-- Everything that was told to the outside, in order. -/
def Moment.told (past : List (Moment σ α ω)) : List ω := past.flatMap Moment.outputs

@[simp] theorem Moment.told_append (past later : List (Moment σ α ω)) :
    told (past ++ later) = told past ++ told later := List.flatMap_append

@[simp] theorem Moment.told_singleton (mo : Moment σ α ω) : told [mo] = mo.outputs := by
  simp [told]

theorem Moment.mem_told {past : List (Moment σ α ω)} {o : ω} :
    o ∈ told past ↔ ∃ mo ∈ past, o ∈ mo.outputs := List.mem_flatMap

theorem Moment.told_split {past : List (Moment σ α ω)} {before after : List ω} {o : ω}
    (split : told past = before ++ o :: after) : ∃ earlier mo later first rest,
      past = earlier ++ mo :: later ∧ mo.outputs = first ++ o :: rest ∧
        before = told earlier ++ first ∧ after = rest ++ told later := by
  induction past generalizing before with
  | nil => simp [told] at split
  | cons mo past ih =>
    change mo.outputs ++ told past = before ++ o :: after at split
    have later {more : List ω} (here : before = mo.outputs ++ more)
        (there : told past = more ++ o :: after) : ∃ earlier mo' later first rest,
        mo :: past = earlier ++ mo' :: later ∧ mo'.outputs = first ++ o :: rest ∧
          before = told earlier ++ first ∧ after = rest ++ told later := by
      obtain ⟨earlier, mo', later, first, rest, rfl, outputs, rfl, rfl⟩ := ih there
      exact ⟨mo :: earlier, mo', later, first, rest, rfl, outputs,
        here.trans (List.append_assoc ..).symm, rfl⟩
    rcases List.append_eq_append_iff.mp split with ⟨more, here, there⟩ | ⟨rest, here, there⟩
    · exact later here there
    · cases rest with
      | nil =>
      have none : before = mo.outputs ++ [] := by simpa using here.symm
      exact later none there.symm
      | cons first rest =>
        obtain ⟨rfl, rfl⟩ := List.cons.inj there
        exact ⟨[], mo, past, before, rest, rfl, here, rfl, rfl⟩

namespace Execution

variable {step? : σ → α → Option (σ × List ω)} {start s t : σ} {past later : List (Moment σ α ω)}

/-- What holds at the start and is kept by every step holds in every state that is reached. -/
theorem invariant {P : σ → Prop} (exec : Execution step? start past s) (base : P start)
    (kept : ∀ {s t : σ} {a : α} {outputs : List ω}, P s → step? s a = some (t, outputs) → P t) :
    P s := by
  induction exec with
  | refl => exact base
  | snoc _ step ih => exact kept ih step

theorem trans (first : Execution step? start past s) (second : Execution step? s later t) :
    Execution step? start (past ++ later) t := by
  induction second with
  | refl => rwa [List.append_nil]
  | snoc _ step ih =>
    rw [← List.append_assoc]
    exact ih.snoc step

theorem concat_inv {mo : Moment σ α ω} (exec : Execution step? start (past ++ [mo]) t) :
    Execution step? start past mo.before ∧ step? mo.before mo.action = some (mo.after, mo.outputs) ∧
      mo.after = t := by
  generalize h : past ++ [mo] = all at exec
  cases exec with
  | refl => simp at h
  | snoc exec step =>
    obtain ⟨rfl, same⟩ := List.append_inj' h rfl
    cases same
    exact ⟨exec, step, rfl⟩

/-- Each moment of an execution is a step that the machine makes between what came before and what
came after. -/
theorem at_split {mo : Moment σ α ω} {earlier : List (Moment σ α ω)}
    (exec : Execution step? start (earlier ++ mo :: later) t) :
    Execution step? start earlier mo.before ∧
      step? mo.before mo.action = some (mo.after, mo.outputs) ∧
      Execution step? mo.after later t := by
  induction later using List.reverseRecOn generalizing t with
  | nil =>
    obtain ⟨before, step, rfl⟩ := exec.concat_inv
    exact ⟨before, step, .refl⟩
  | append_singleton later last ih =>
    rw [← List.cons_append, ← List.append_assoc] at exec
    obtain ⟨reach, step, rfl⟩ := exec.concat_inv
    obtain ⟨before, this, after⟩ := ih reach
    exact ⟨before, this, after.snoc step⟩

theorem eq_of_nil (exec : Execution step? start [] t) : t = start := by
  generalize none_yet : ([] : List (Moment σ α ω)) = past at exec
  cases exec with
  | refl => rfl
  | snoc _ _ => simp at none_yet

/-- The first moment of an execution begins where the execution does. -/
theorem cons_inv {mo : Moment σ α ω} (exec : Execution step? start (mo :: later) t) :
    mo.before = start ∧ step? mo.before mo.action = some (mo.after, mo.outputs) ∧
      Execution step? mo.after later t := by
  rw [← List.nil_append (mo :: later)] at exec
  obtain ⟨first, step, rest⟩ := exec.at_split
  exact ⟨first.eq_of_nil, step, rest⟩

/-- What comes first in an execution leads to a state from which the rest goes on. -/
theorem append_inv {earlier : List (Moment σ α ω)}
    (exec : Execution step? start (earlier ++ later) t) :
    ∃ s, Execution step? start earlier s ∧ Execution step? s later t := by
  cases later with
  | nil =>
    rw [List.append_nil] at exec
    exact ⟨t, exec, .refl⟩
  | cons mo later =>
    obtain ⟨before, step, after⟩ := exec.at_split
    exact ⟨mo.before, before, (Execution.refl.snoc step).trans after⟩

theorem at_moment {mo : Moment σ α ω} (exec : Execution step? start past t) (hmo : mo ∈ past) :
    ∃ earlier later, past = earlier ++ mo :: later ∧ Execution step? start earlier mo.before ∧
      step? mo.before mo.action = some (mo.after, mo.outputs) ∧
      Execution step? mo.after later t := by
  obtain ⟨earlier, later, rfl⟩ := List.append_of_mem hmo
  exact ⟨earlier, later, rfl, exec.at_split⟩

end Execution

end MessageBridge
