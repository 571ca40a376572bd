import Mathlib.Order.Nat
import MessageBridge.Proofs.Delivery.Course

/-!
# A destination alone

What becomes of a message at a destination is decided by the answers of the bus and by the age of
the message after each refusal. `Leg.alone` follows a script of such answers with nothing else in
between: no queue, no wait, no other destination. It is the loop that a leg runs, written as a
loop.

A leg that takes part in a run goes through many more states, but whenever it is between two
publishes it stands where it would stand alone after as many answers (`Leg.Course.tracks`). So its
end, if it does not fail, is the one that it would come to alone.
-/

namespace MessageBridge

/-- For each publish in turn the answer of the bus, and Unix time in milliseconds when the answer is
heard. -/
abbrev Script := Nat → Except BusError Unit × Int

/-- The answers that are heard follow a script; the time matters only for refusals. -/
def Script.Followed (script : Script) (replies : List Reply) : Prop :=
  ∀ k reply, replies[k]? = some reply →
    reply.answer = (script k).1 ∧ (reply.answer ≠ .ok () → reply.clock.wall = (script k).2)

instance (script : Script) (replies : List Reply) : Decidable (script.Followed replies) :=
  decidable_of_iff (∀ k : Fin replies.length, replies[k].answer = (script k).1 ∧
      (replies[k].answer ≠ .ok () → replies[k].clock.wall = (script k).2))
    ⟨fun all k reply here ↦ by
        obtain ⟨hk, rfl⟩ := List.getElem?_eq_some_iff.mp here
        exact all ⟨k, hk⟩,
      fun followed k ↦ followed k _ (List.getElem?_eq_getElem k.isLt)⟩

theorem Script.Followed.of_append {script : Script} {replies new : List Reply}
    (followed : script.Followed (replies ++ new)) : script.Followed replies := by
  intro k reply here
  apply followed
  rw [List.getElem?_append_left (List.getElem?_eq_some_iff.mp here).1]
  exact here

theorem Script.Followed.last {script : Script} {replies : List Reply} {reply : Reply}
    (followed : script.Followed (replies ++ [reply])) :
    reply.answer = (script replies.length).1 ∧
      (reply.answer ≠ .ok () → reply.clock.wall = (script replies.length).2) := by
  apply followed
  exact List.getElem?_concat_length ..

namespace Leg

/-! ## The loop -/

/-- One attempt: a publish with its answer, at an age of the message. -/
def attempt (mode : DeliveryMode) (age : Option Int) (leg : Leg) : Except BusError Unit → Leg
  | .ok () => leg.submit.settle .published
  | .error e =>
    let leg := { leg.submit with lastError := some e }
    match mode.onFailure leg.attempts age with
    | .tolerate reason => leg.settle (.tolerated reason)
    | .retry => { leg with phase := .ready }

/-- The leg after so many answers of a script, unless it has ended before. -/
def alone (mode : DeliveryMode) (m : Message) (script : Script) : Nat → Leg
  | 0 => .fresh
  | k + 1 =>
    let leg := alone mode m script k
    if leg.phase = .ready then leg.attempt mode (m.age? (script k).2) (script k).1 else leg

variable {mode : DeliveryMode} {m : Message} {script : Script}

theorem alone_succ_of_ready {k : Nat} (ready : (alone mode m script k).phase = .ready) :
    alone mode m script (k + 1) =
      (alone mode m script k).attempt mode (m.age? (script k).2) (script k).1 := by
  rw [alone]
  exact if_pos ready

/-- A leg that has ended alone stays so, whatever the script goes on with. -/
theorem alone_of_ended {k n : Nat} (ended : (alone mode m script k).phase ≠ .ready) (hn : k ≤ n) :
    alone mode m script n = alone mode m script k := by
  induction n, hn using Nat.le_induction with
  | base => rfl
  | succ n _ ih =>
    rw [alone, ih]
    exact if_neg ended

/-! ## The end -/

/-- Alone, a leg comes to an end, and then looks like this. -/
def EndsAlone (mode : DeliveryMode) (m : Message) (script : Script) (leg : Leg) : Prop :=
  ∃ k, alone mode m script k = leg ∧ leg.phase ≠ .ready

theorem EndsAlone.unique {leg leg' : Leg} (ends : EndsAlone mode m script leg)
    (ends' : EndsAlone mode m script leg') : leg = leg' := by
  obtain ⟨k, rfl, ended⟩ := ends
  obtain ⟨n, rfl, ended'⟩ := ends'
  rcases Nat.le_total k n with later | later
  · exact (alone_of_ended ended later).symm
  · exact alone_of_ended ended' later

/-! ## The same in a run -/

/-- A leg of a run stands where it would stand alone; in between it is one publish further. -/
def Tracks (alone leg : Leg) : Prop :=
  match leg.phase with
  | .ready => leg = alone
  | .submitted => alone.phase = .ready ∧ leg = alone.submit
  | .waiting _ => { leg with phase := .ready } = alone
  | .settled (.failed _) => True
  | .settled _ => leg = alone

/-- The answer to a publish has the effect of an attempt, up to the wait. -/
private theorem tracks_answer {plan : RetryPlan} {leg : Leg} (clock : Clock)
    (answer : Except BusError Unit) (wall : Int) (same : answer ≠ .ok () → clock.wall = wall) :
    (leg.attempt plan.mode (m.age? wall) answer).Tracks
      (leg.submit.answer plan clock.now (m.age? clock.wall) (Running.jobAnswer answer)) := by
  cases answer with
  | ok => exact rfl
  | error e =>
    rw [same (by simp)]
    simp only [attempt, Running.jobAnswer, answer, Tracks]
    cases plan.mode.onFailure leg.submit.attempts (m.age? wall) with
    | tolerate reason => rfl
    | retry => rfl

/-- **Unless it fails, a leg of a run stands where it would stand alone after as many answers.** -/
theorem Course.tracks {plan : RetryPlan} {replies : List Reply} {leg : Leg}
    (course : Course plan m replies leg) (followed : script.Followed replies) :
    (alone plan.mode m script replies.length).Tracks leg := by
  induction course with
  | fresh => exact rfl
  | @step replies new leg leg' _ step ih =>
    have before := ih followed.of_append
    cases step with
    | submit ready =>
      rw [Tracks, ready] at before
      rw [List.append_nil, ← before]
      exact ⟨ready, rfl⟩
    | refuse =>
      rw [Tracks, phase_lose rfl]
      trivial
    | lose submitted =>
      rw [Tracks, phase_lose submitted]
      trivial
    | wake waiting =>
      rw [Tracks, waiting] at before
      rw [List.append_nil]
      exact before
    | breakOff => trivial
    | reply clock answer submitted =>
      rw [Tracks, submitted] at before
      obtain ⟨ready, rfl⟩ := before
      obtain ⟨same_answer, same_time⟩ := followed.last
      rw [List.length_append, List.length_singleton, alone_succ_of_ready ready, ← same_answer]
      exact tracks_answer clock answer _ same_time

namespace Tracks

variable {k : Nat} {leg : Leg}

theorem eq_of_ended (tracks : (alone mode m script k).Tracks leg)
    (safe : ∀ kind, leg.phase ≠ .settled (.failed kind)) (ended : leg.result?.isSome = true) :
    leg = alone mode m script k := by
  rw [Tracks] at tracks
  cases phase : leg.phase with
  | settled e =>
    rw [phase] at tracks
    cases e with
    | failed kind => exact absurd phase (safe kind)
    | _ => exact tracks
  | _ => simp [result?, phase] at ended

theorem ready_of_left (tracks : (alone mode m script k).Tracks leg) (left : leg.result? = none) :
    (alone mode m script k).phase = .ready := by
  rw [Tracks] at tracks
  cases phase : leg.phase with
  | ready =>
    rw [phase] at tracks
    rw [← tracks]
    exact phase
  | submitted =>
    rw [phase] at tracks
    exact tracks.1
  | waiting due =>
    rw [phase] at tracks
    rw [← tracks]
  | settled e => simp [result?, phase] at left

theorem endsAlone (tracks : (alone mode m script k).Tracks leg)
    (safe : ∀ kind, leg.phase ≠ .settled (.failed kind)) (ended : leg.result?.isSome = true) :
    EndsAlone mode m script leg := by
  refine ⟨k, (tracks.eq_of_ended safe ended).symm, ?_⟩
  intro ready
  simp [result?, ready] at ended

end Tracks

end Leg

end MessageBridge
