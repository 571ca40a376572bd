import Mathlib.Data.List.Basic
import MessageBridge.Route.Running

/-!
# The course of a leg

A leg changes in few ways, and only an answer of the bus to one of its publishes adds to its
history. A *course* is a sequence of such changes from a fresh leg on, of which only the answers
are recorded. What the answers say decides where the leg can stand: a leg that goes on, or that
has failed, has seen nothing but refusals after which the mode wanted another attempt; a published
leg has seen one acceptance after them, and a tolerated one a last refusal at the bounds of the
mode.

`Accepted` and `GivenUp` say the same of a list of answers, without the leg.
-/

namespace MessageBridge

/-! ## Losing a job -/

/-- The leg after the job that it waits for is lost. -/
def Leg.lose (leg : Leg) : Leg :=
  if leg.phase = .submitted then
    { leg with attempts := leg.attempts - 1, phase := .settled (.failed .laneClosed) }
  else leg

theorem Leg.lose_of_submitted {leg : Leg} (h : leg.phase = .submitted) (plan : RetryPlan)
    (now : Nat) (age : Option Int) : leg.lose = leg.answer plan now age .lost := if_pos h

theorem Leg.lose_of_ne {leg : Leg} (h : leg.phase ≠ .submitted) : leg.lose = leg := if_neg h

theorem Leg.phase_lose {leg : Leg} (h : leg.phase = .submitted) :
    leg.lose.phase = .settled (.failed .laneClosed) := by
  rw [Leg.lose, if_pos h]

theorem Leg.phase_lose_ne (leg : Leg) : leg.lose.phase ≠ .submitted := by
  rw [Leg.lose]
  split
  · exact nofun
  · assumption

@[simp] theorem Leg.lose_lose (leg : Leg) : leg.lose.lose = leg.lose :=
  Leg.lose_of_ne leg.phase_lose_ne

/-! ## Answers -/

/-- An answer of the bus to a publish. -/
structure Reply where
  /-- The time at which it reached the leg. -/
  clock : Clock
  /-- The message that was published. -/
  message : Message
  /-- The answer. -/
  answer : Except BusError Unit

/-- The number of attempts that a leg counts after so many answers. -/
def Leg.counted (replies : List Reply) : Nat := min replies.length greatestCount

/-- All answers are refusals. -/
def AllRefused (replies : List Reply) : Prop := ∀ reply ∈ replies, ∃ e, reply.answer = .error e

/-- One of the answers is an acceptance of the message. -/
def Accepted (m : Message) (replies : List Reply) : Prop :=
  ∃ reply ∈ replies, reply.message = m ∧ reply.answer = .ok ()

/-- The mode gives a message up, in the form in which it was sent, over the last answer: it is a
refusal after which the message has been tried as often as the mode allows, or is known to be
older. -/
def GivenUp (mode : DeliveryMode) (m sent : Message) (replies : List Reply) : Prop :=
  ∃ policy last e, mode = .drop policy ∧ replies.getLast? = some last ∧ last.message = sent ∧
    last.answer = .error e ∧
    ((∃ bound, policy.maxAttempts = some bound ∧ bound ≤ Leg.counted replies) ∨
      ∃ ttl age, policy.ttl = some ttl ∧ m.age? last.clock.wall = some age ∧
        (ttl.nanos : Int) < age * 1000000)

/-- Only the age of the message matters beside the form in which it was sent. -/
theorem GivenUp.of_age {mode : DeliveryMode} {m m' sent : Message} {replies : List Reply}
    (same : ∀ wall, m'.age? wall = m.age? wall) (h : GivenUp mode m sent replies) :
    GivenUp mode m' sent replies := by
  obtain ⟨policy, last, e, drop, hlast, this, refused, bound⟩ := h
  refine ⟨policy, last, e, drop, hlast, this, refused, bound.imp_right ?_⟩
  rintro ⟨ttl, age, httl, known, exceeded⟩
  exact ⟨ttl, age, httl, (same _).trans known, exceeded⟩

theorem AllRefused.not_accepted {m : Message} {replies : List Reply} (h : AllRefused replies) :
    ¬ Accepted m replies := by
  rintro ⟨reply, mem, -, ok⟩
  obtain ⟨e, refused⟩ := h reply mem
  rw [ok] at refused
  cases refused

theorem AllRefused.concat {replies : List Reply} (h : AllRefused replies) {reply : Reply}
    {e : BusError} (refused : reply.answer = .error e) : AllRefused (replies ++ [reply]) := by
  intro r mem
  rcases List.mem_append.mp mem with mem | mem
  · exact h r mem
  · rw [List.mem_singleton.mp mem]
    exact ⟨e, refused⟩

/-! ## The decision after a refusal -/

theorem DropPolicy.exhaustedAt_iff {policy : DropPolicy} {attempts : Nat} :
    policy.exhaustedAt attempts = true ↔
      ∃ bound, policy.maxAttempts = some bound ∧ bound ≤ attempts := by
  rw [exhaustedAt]
  cases policy.maxAttempts <;> simp

/-- A message is too old once its age exceeds the time to live to the nanosecond. -/
theorem DropPolicy.expiredAt_iff {policy : DropPolicy} {age : Option Int} :
    policy.expiredAt age = true ↔
      ∃ ttl a, policy.ttl = some ttl ∧ age = some a ∧ (ttl.nanos : Int) < a * 1000000 := by
  unfold expiredAt
  cases httl : policy.ttl with
  | none => exact ⟨fun h ↦ (nomatch h), fun ⟨_, _, h, _⟩ ↦ (nomatch h)⟩
  | some ttl =>
    cases age with
    | none => exact ⟨fun h ↦ (nomatch h), fun ⟨_, _, _, h, _⟩ ↦ (nomatch h)⟩
    | some a =>
      show decide (0 < a ∧ (ttl.millis : Int) < a) = true ↔ _
      rw [decide_eq_true_eq, Duration.millis]
      constructor
      · exact fun h ↦ ⟨ttl, a, rfl, rfl, by omega⟩
      · rintro ⟨_, _, ⟨⟩, ⟨⟩, h⟩
        omega

/-- A refusal is followed by another attempt unless a bound of the mode is reached. -/
theorem onFailure_ne_retry_iff {mode : DeliveryMode} {attempts : Nat} {age : Option Int} :
    mode.onFailure attempts age ≠ .retry ↔
      ∃ policy, mode = .drop policy ∧ ((∃ bound, policy.maxAttempts = some bound ∧
        bound ≤ attempts) ∨ ∃ ttl a, policy.ttl = some ttl ∧ age = some a ∧
          (ttl.nanos : Int) < a * 1000000) := by
  cases mode with
  | persistent =>
    refine ⟨fun h ↦ absurd rfl h, ?_⟩
    rintro ⟨policy, same, -⟩
    cases same
  | drop policy =>
    simp only [DeliveryMode.drop.injEq, exists_eq_left', ← DropPolicy.exhaustedAt_iff,
      ← DropPolicy.expiredAt_iff, DeliveryMode.onFailure]
    cases policy.exhaustedAt attempts <;> cases policy.expiredAt age <;> simp

/-! ## Steps of a leg -/

/-- One change of a leg on the way of a message, with the answers of the bus that it hears. -/
inductive Leg.Step (plan : RetryPlan) (m : Message) : List Reply → Leg → Leg → Prop where
  | submit {leg : Leg} : leg.phase = .ready → Step plan m [] leg leg.submit
  | refuse {leg : Leg} : leg.phase = .ready → Step plan m [] leg leg.submit.lose
  | lose {leg : Leg} : leg.phase = .submitted → Step plan m [] leg leg.lose
  | wake {leg : Leg} {due : Nat} : leg.phase = .waiting due →
      Step plan m [] leg { leg with phase := .ready }
  | breakOff {leg : Leg} {due : Nat} : leg.phase = .waiting due →
      Step plan m [] leg (leg.settle (.failed .cancelled))
  | reply {leg : Leg} (clock : Clock) (answer : Except BusError Unit) : leg.phase = .submitted →
      Step plan m [⟨clock, m, answer⟩] leg
        (leg.answer plan clock.now (m.age? clock.wall) (Running.jobAnswer answer))

/-- The courses of legs on the way of a message, with all answers that were heard. -/
inductive Leg.Course (plan : RetryPlan) (m : Message) : List Reply → Leg → Prop where
  | fresh : Course plan m [] .fresh
  | step {replies new : List Reply} {leg leg' : Leg} :
      Course plan m replies leg → Leg.Step plan m new leg leg' →
      Course plan m (replies ++ new) leg'

/-! ## Where a leg stands -/

/-- All answers are refusals, and after the last one the mode wants another attempt. -/
structure Unfinished (mode : DeliveryMode) (m : Message) (replies : List Reply) : Prop where
  refused : AllRefused replies
  retried : ∀ {last : Reply}, replies.getLast? = some last →
    mode.onFailure (Leg.counted replies) (m.age? last.clock.wall) = .retry

theorem Unfinished.nil (mode : DeliveryMode) (m : Message) : Unfinished mode m [] :=
  ⟨fun _ mem ↦ absurd mem List.not_mem_nil, fun h ↦ nomatch h⟩

theorem Unfinished.not_accepted {mode : DeliveryMode} {m : Message} {replies : List Reply}
    (h : Unfinished mode m replies) : ¬ Accepted m replies := h.refused.not_accepted

theorem Unfinished.not_givenUp {mode : DeliveryMode} {m : Message} {replies : List Reply}
    (h : Unfinished mode m replies) : ¬ GivenUp mode m m replies := by
  rintro ⟨policy, last, e, drop, hlast, -, -, reached⟩
  exact onFailure_ne_retry_iff.mpr ⟨policy, drop, reached⟩ (h.retried hlast)

/-- The answers that a leg has heard, by where it stands. -/
def Leg.Agrees (mode : DeliveryMode) (m : Message) (replies : List Reply) (leg : Leg) : Prop :=
  match leg.phase with
  | .ready | .waiting _ => Unfinished mode m replies ∧ leg.attempts = counted replies
  | .submitted =>
    Unfinished mode m replies ∧ leg.attempts = min (replies.length + 1) greatestCount
  | .settled .published =>
    ∃ front last, replies = front ++ [last] ∧ AllRefused front ∧ last.answer = .ok ()
  | .settled (.tolerated _) => AllRefused replies ∧ GivenUp mode m m replies
  | .settled (.failed _) => Unfinished mode m replies

theorem Leg.Course.message {plan : RetryPlan} {m : Message} {replies : List Reply} {leg : Leg}
    (course : Course plan m replies leg) : ∀ reply ∈ replies, reply.message = m := by
  induction course with
  | fresh => exact fun _ mem ↦ absurd mem List.not_mem_nil
  | step _ step ih =>
    intro reply mem
    rcases List.mem_append.mp mem with mem | mem
    · exact ih reply mem
    · cases step with
      | reply clock answer submitted => rw [List.mem_singleton.mp mem]
      | _ => exact absurd mem List.not_mem_nil

/-- The answer to a submitted job decides between the three ways on. -/
private theorem Leg.agrees_answer {plan : RetryPlan} {m : Message} {replies : List Reply}
    {leg : Leg} (course : Unfinished plan.mode m replies)
    (attempts : leg.attempts = min (replies.length + 1) greatestCount)
    (clock : Clock) (answer : Except BusError Unit) :
    (leg.answer plan clock.now (m.age? clock.wall) (Running.jobAnswer answer)).Agrees plan.mode m
      (replies ++ [⟨clock, m, answer⟩]) := by
  cases answer with
  | ok => exact ⟨replies, _, rfl, course.refused, rfl⟩
  | error e =>
    have refused : AllRefused (replies ++ [⟨clock, m, .error e⟩]) := course.refused.concat rfl
    have count : leg.attempts = counted (replies ++ [⟨clock, m, .error e⟩]) := by
      rw [attempts, counted, List.length_append, List.length_singleton]
    simp only [Running.jobAnswer, Leg.answer]
    cases decision : plan.mode.onFailure leg.attempts (m.age? clock.wall) with
    | retry =>
      refine ⟨⟨refused, fun hlast ↦ ?_⟩, count⟩
      rw [List.getLast?_concat] at hlast
      cases hlast
      rw [← count]
      exact decision
    | tolerate reason =>
      -- the mode stops trying only at one of its bounds
      have reached : plan.mode.onFailure leg.attempts (m.age? clock.wall) ≠ .retry := by
        rw [decision]
        exact nofun
      obtain ⟨policy, drop, bounds⟩ := onFailure_ne_retry_iff.mp reached
      rw [count] at bounds
      exact ⟨refused, policy, _, e, drop, List.getLast?_concat, rfl, rfl, bounds⟩

/-- **The answers decide where a leg can stand.** -/
theorem Leg.Course.agrees {plan : RetryPlan} {m : Message} {replies : List Reply} {leg : Leg}
    (course : Course plan m replies leg) : leg.Agrees plan.mode m replies := by
  induction course with
  | fresh => exact ⟨.nil _ _, rfl⟩
  | @step replies new leg leg' _ step ih =>
    cases step with
    | submit ready =>
      rw [Agrees, ready] at ih
      rw [List.append_nil]
      refine ⟨ih.1, ?_⟩
      -- the count saturates, and so does the number of answers that it is compared with
      show min (leg.attempts + 1) greatestCount = _
      rw [ih.2, counted]
      omega
    | refuse ready =>
      rw [Agrees, ready] at ih
      rw [List.append_nil, Agrees, Leg.phase_lose rfl]
      exact ih.1
    | lose submitted =>
      rw [Agrees, submitted] at ih
      rw [List.append_nil, Agrees, Leg.phase_lose submitted]
      exact ih.1
    | wake waiting =>
      rw [Agrees, waiting] at ih
      rw [List.append_nil]
      exact ih
    | breakOff waiting =>
      rw [Agrees, waiting] at ih
      rw [List.append_nil]
      exact ih.1
    | reply clock answer submitted =>
      rw [Agrees, submitted] at ih
      exact agrees_answer ih.1 ih.2 clock answer

/-! ## How a leg ended -/

namespace Leg.Course

variable {plan : RetryPlan} {m : Message} {replies : List Reply} {leg : Leg}

/-- The leg has ended well exactly if the bus accepted the message or the mode gave up. -/
theorem well_iff (course : Course plan m replies leg) :
    (Accepted m replies ∨ GivenUp plan.mode m m replies) ↔
      leg.phase = .settled .published ∨ ∃ reason, leg.phase = .settled (.tolerated reason) := by
  have agrees := course.agrees
  rw [Agrees] at agrees
  split at agrees
  all_goals rename_i phase
  · simp [phase, agrees.1.not_accepted, agrees.1.not_givenUp]
  · simp [phase, agrees.1.not_accepted, agrees.1.not_givenUp]
  · simp [phase, agrees.1.not_accepted, agrees.1.not_givenUp]
  · obtain ⟨front, last, rfl, -, ok⟩ := agrees
    refine ⟨fun _ ↦ .inl phase, fun _ ↦ .inl ⟨last, by simp, course.message last (by simp), ok⟩⟩
  · exact ⟨fun _ ↦ .inr ⟨_, phase⟩, fun _ ↦ .inr agrees.2⟩
  · simp [phase, agrees.not_accepted, agrees.not_givenUp]

end Leg.Course

end MessageBridge
