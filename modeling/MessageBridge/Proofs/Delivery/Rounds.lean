import Mathlib.Order.Nat
import MessageBridge.Proofs.Delivery.Course

/-!
# Deliveries

A leg is a loop that is cut into steps: it submits a job, hears the answer, waits, and begins again.
`Circumstances` are everything in this loop that the leg does not choose: for each of its jobs the
answer, the clocks when it is heard, and whether the wait after it is broken off.
`Delivery.after` makes the steps of a leg under them and keeps a list of what was done.

Whether the `k`th job is the last can be told from the circumstances alone
(`Circumstances.ends?`). All rounds before the last are alike, so there is a formula for a delivery
between two rounds (`Circumstances.between`), and another for one that has ended with its `k`th job
(`Circumstances.ended`). By the first formula and the step from one round to the next, a delivery
ends exactly with the first job that ends it, and goes on for ever if there is none.

Attempts are counted up to `Leg.greatestCount` only.
-/

namespace MessageBridge

/-- What happens to a delivery, for each of its jobs, the first of which has number one. -/
structure Circumstances where
  /-- The answer to the job. -/
  answer : Nat → JobAnswer
  /-- The clocks when the answer is heard. -/
  clock : Nat → Clock
  /-- Whether the wait after the job is broken off. -/
  brokenOff : Nat → Bool

/-- Something that a delivery does. -/
inductive Deed where
  /-- It submits a job. -/
  | submit
  /-- It begins to wait up to a time. -/
  | wait (due : Nat)
deriving DecidableEq, Repr

/-- A delivery on its way. -/
structure Delivery where
  /-- What it has done. -/
  deeds : List Deed
  /-- Where it stands. -/
  leg : Leg
deriving DecidableEq, Repr

/-! ## The loop -/

/-- The wait that a leg has just begun, if it waits. -/
def Leg.waits (leg : Leg) : List Deed :=
  match leg.phase with
  | .waiting due => [.wait due]
  | _ => []

namespace Delivery

/-- A delivery before its first job. -/
def fresh : Delivery := ⟨[], .fresh⟩

/-- The number of jobs submitted. -/
def jobs (d : Delivery) : Nat := d.deeds.count .submit

/-- The next step of a delivery, unless it has ended. -/
def next (plan : RetryPlan) (m : Message) (meets : Circumstances) (d : Delivery) : Delivery :=
  match d.leg.phase with
  | .ready => ⟨d.deeds ++ [.submit], d.leg.submit⟩
  | .submitted =>
    let clock := meets.clock d.jobs
    let leg := d.leg.answer plan clock.now (m.age? clock.wall) (meets.answer d.jobs)
    ⟨d.deeds ++ leg.waits, leg⟩
  | .waiting due =>
    let leg := if meets.brokenOff d.jobs then d.leg.breakOff? else d.leg.wake? due
    ⟨d.deeds, leg.getD d.leg⟩
  | .settled _ => d

/-- The delivery after so many steps. -/
def after (plan : RetryPlan) (m : Message) (meets : Circumstances) : Nat → Delivery
  | 0 => fresh
  | n + 1 => (after plan m meets n).next plan m meets

end Delivery

/-! ## What the circumstances decide -/

namespace Circumstances

/-- How a delivery ends with its `k`th job, if it does. -/
def ends? (plan : RetryPlan) (m : Message) (meets : Circumstances) (k : Nat) : Option LegEnd :=
  match meets.answer k with
  | .published => some .published
  | .lost => some (.failed .laneClosed)
  | .refused _ =>
    match plan.mode.onFailure (min k Leg.greatestCount) (m.age? (meets.clock k).wall) with
    | .tolerate reason => some (.tolerated reason)
    | .retry => if meets.brokenOff k then some (.failed .cancelled) else none

/-- The error of the `k`th job, if that was refused. There is no job before the first. -/
def error? (meets : Circumstances) : Nat → Option BusError
  | 0 => none
  | k + 1 =>
    match meets.answer (k + 1) with
    | .refused e => some e
    | _ => none

/-- The time up to which a delivery waits after its `k`th job. -/
def due (plan : RetryPlan) (meets : Circumstances) (k : Nat) : Nat :=
  (meets.clock k).now + (plan.backoff.delayAfter k).millisUp

/-- The first `k` jobs, each with the wait after it. -/
def rounds (plan : RetryPlan) (meets : Circumstances) (k : Nat) : List Deed :=
  (List.range k).flatMap fun i ↦ [.submit, .wait (meets.due plan (i + 1))]

/-- The delivery between its `k`th job and the next. -/
def between (plan : RetryPlan) (meets : Circumstances) (k : Nat) : Delivery :=
  ⟨meets.rounds plan k, min k Leg.greatestCount, meets.error? k, .ready⟩

/-- The delivery that has ended with its `k`th job. A lost job is no attempt and leaves the error of
the job before it. -/
def ended (plan : RetryPlan) (meets : Circumstances) (k : Nat) : LegEnd → Delivery
  | .published =>
    ⟨meets.rounds plan (k - 1) ++ [.submit],
      min k Leg.greatestCount, meets.error? (k - 1), .settled .published⟩
  | .tolerated reason =>
    ⟨meets.rounds plan (k - 1) ++ [.submit],
      min k Leg.greatestCount, meets.error? k, .settled (.tolerated reason)⟩
  | .failed .laneClosed =>
    ⟨meets.rounds plan (k - 1) ++ [.submit],
      min k Leg.greatestCount - 1, meets.error? (k - 1), .settled (.failed .laneClosed)⟩
  | .failed .cancelled =>
    ⟨meets.rounds plan k,
      min k Leg.greatestCount, meets.error? k, .settled (.failed .cancelled)⟩

/-- None of the first `k` jobs ends the delivery. -/
def GoesOn (plan : RetryPlan) (m : Message) (meets : Circumstances) (k : Nat) : Prop :=
  ∀ i, 1 ≤ i → i ≤ k → meets.ends? plan m i = none

variable {plan : RetryPlan} {m : Message} {meets : Circumstances} {k : Nat} {e : LegEnd}

theorem GoesOn.zero : meets.GoesOn plan m 0 := fun _ one zero ↦ absurd zero (by omega)

theorem GoesOn.succ (on : meets.GoesOn plan m k) (next : meets.ends? plan m (k + 1) = none) :
    meets.GoesOn plan m (k + 1) := by
  intro i one this
  rcases Nat.le_succ_iff.mp this with before | rfl
  · exact on i one before
  · exact next

/-- If the mode gives up or the wait is broken off, the job before was refused. -/
theorem refused_of_ends? (ends : meets.ends? plan m k = some e)
    (which : (∃ reason, e = .tolerated reason) ∨ e = .failed .cancelled) :
    ∃ error, meets.answer k = .refused error := by
  unfold ends? at ends
  cases answer : meets.answer k with
  | refused error => exact ⟨error, rfl⟩
  | _ =>
    simp only [answer, Option.some.injEq] at ends
    obtain ⟨reason, rfl⟩ | rfl := which <;> cases ends

theorem ends?_of_persistent (persistent : plan.mode = .persistent) (reason : GiveUpReason) :
    meets.ends? plan m k ≠ some (.tolerated reason) := by
  unfold ends?
  rw [persistent]
  cases meets.answer k with
  | refused error =>
    simp only [DeliveryMode.onFailure]
    split <;> simp
  | _ => simp

theorem ends?_eq_laneClosed :
    meets.ends? plan m k = some (.failed .laneClosed) ↔ meets.answer k = .lost := by
  unfold ends?
  cases meets.answer k with
  | refused error =>
    simp only [reduceCtorEq, iff_false]
    split
    · simp
    · split <;> simp
  | _ => simp

/-- Every job before one that a delivery goes on after was refused. -/
theorem error?_of_goesOn (on : meets.GoesOn plan m k) : meets.error? k = none ↔ k = 0 := by
  cases k with
  | zero => simp [error?]
  | succ k =>
    have this := on (k + 1) (by omega) (Nat.le_refl _)
    simp only [error?, ends?] at this ⊢
    cases answer : meets.answer (k + 1) <;> simp [answer] at this ⊢

theorem rounds_succ (plan : RetryPlan) (meets : Circumstances) (k : Nat) :
    meets.rounds plan (k + 1) =
      meets.rounds plan k ++ [.submit, .wait (meets.due plan (k + 1))] := by
  rw [rounds, List.range_succ, List.flatMap_append, List.flatMap_singleton]
  rfl

theorem count_rounds (plan : RetryPlan) (meets : Circumstances) (k : Nat) :
    (meets.rounds plan k).count .submit = k := by
  induction k with
  | zero => rfl
  | succ k ih =>
    rw [rounds_succ, List.count_append, ih]
    rfl

theorem jobs_ended (plan : RetryPlan) (meets : Circumstances) (one : 1 ≤ k) (e : LegEnd) :
    (meets.ended plan k e).jobs = k := by
  have last : (meets.rounds plan (k - 1) ++ [Deed.submit]).count .submit = k := by
    rw [List.count_append, count_rounds]
    exact Nat.sub_add_cancel one
  cases e with
  | failed kind =>
    cases kind with
    | cancelled => exact count_rounds plan meets k
    | laneClosed => exact last
  | _ => exact last

@[simp] theorem result?_ended (plan : RetryPlan) (meets : Circumstances) (k : Nat) (e : LegEnd) :
    (meets.ended plan k e).leg.result? = some e := by
  rcases e with _ | _ | _ | _ <;> rfl

/-- A delivery that fails reports no error exactly if it reports no attempt. -/
theorem error?_ended {kind : PublishFailure} (one : 1 ≤ k) (on : meets.GoesOn plan m (k - 1))
    (ends : meets.ends? plan m k = some (.failed kind)) (destination : String) :
    ∃ error, (meets.ended plan k (.failed kind)).leg.error? destination = some error ∧
      error.kind = kind ∧ (error.lastError = none ↔ error.attempts = 0) := by
  cases kind with
  | cancelled =>
    refine ⟨⟨.cancelled, destination, min k Leg.greatestCount, meets.error? k⟩, rfl, rfl, ?_⟩
    obtain ⟨error, refused⟩ := refused_of_ends? ends (.inr rfl)
    have last : meets.error? k = some error := by
      obtain ⟨k, rfl⟩ := Nat.exists_eq_add_of_le' one
      simp only [error?, refused]
    simp only [last, reduceCtorEq, false_iff, Leg.greatestCount]
    omega
  | laneClosed =>
    refine ⟨⟨.laneClosed, destination, min k Leg.greatestCount - 1, meets.error? (k - 1)⟩, rfl, rfl,
      ?_⟩
    simp only [error?_of_goesOn on, Leg.greatestCount]
    omega

end Circumstances

/-! ## One round -/

/-- The wait doubles only so often, and the count of attempts reaches further. -/
theorem Backoff.delayAfter_min (b : Backoff) (k : Nat) :
    b.delayAfter (min k Leg.greatestCount) = b.delayAfter k := by
  have same : doublings (min k Leg.greatestCount) = doublings k := by
    simp only [doublings, Leg.greatestCount]
    omega
  rw [delayAfter, delayAfter, same]

namespace Circumstances

variable {plan : RetryPlan} {m : Message} {meets : Circumstances} {k : Nat} {e : LegEnd}

/-- The delivery that hears next of the job after its `k`th. -/
def submitted (plan : RetryPlan) (meets : Circumstances) (k : Nat) : Delivery :=
  ⟨meets.rounds plan k ++ [.submit], min (k + 1) Leg.greatestCount, meets.error? k, .submitted⟩

/-- The delivery that waits after the job after its `k`th. -/
def waiting (plan : RetryPlan) (meets : Circumstances) (k : Nat) : Delivery :=
  ⟨meets.rounds plan (k + 1), min (k + 1) Leg.greatestCount, meets.error? (k + 1),
    .waiting (meets.due plan (k + 1))⟩

theorem next_between (plan : RetryPlan) (m : Message) (meets : Circumstances) (k : Nat) :
    (meets.between plan k).next plan m meets = meets.submitted plan k := by
  have count : min (min k Leg.greatestCount + 1) Leg.greatestCount =
      min (k + 1) Leg.greatestCount := by omega
  simp only [Delivery.next, between, submitted, Leg.submit, count]

theorem jobs_submitted (plan : RetryPlan) (meets : Circumstances) (k : Nat) :
    (meets.submitted plan k).jobs = k + 1 := by
  rw [Delivery.jobs, submitted, List.count_append, count_rounds]
  rfl

/-- The answer to a job ends the delivery, or makes it wait. -/
theorem next_submitted (plan : RetryPlan) (m : Message) (meets : Circumstances) (k : Nat) :
    ((meets.submitted plan k).next plan m meets = meets.waiting plan k ∧
        meets.ends? plan m (k + 1) =
          if meets.brokenOff (k + 1) then some (.failed .cancelled) else none) ∨
      ∃ e, meets.ends? plan m (k + 1) = some e ∧ e ≠ .failed .cancelled ∧
        (meets.submitted plan k).next plan m meets = meets.ended plan (k + 1) e := by
  have phase : (meets.submitted plan k).leg.phase = .submitted := rfl
  rw [Delivery.next, phase]
  simp only [jobs_submitted]
  cases answer : meets.answer (k + 1) with
  | published =>
    refine .inr ⟨.published, by simp only [ends?, answer], by simp, ?_⟩
    exact congrArg (Delivery.mk · _) (List.append_nil _)
  | lost =>
    refine .inr ⟨.failed .laneClosed, by simp only [ends?, answer], by simp, ?_⟩
    exact congrArg (Delivery.mk · _) (List.append_nil _)
  | refused error =>
    have refused : meets.error? (k + 1) = some error := by simp only [error?, answer]
    simp only [ends?, answer, Leg.answer, submitted]
    cases decision : plan.mode.onFailure (min (k + 1) Leg.greatestCount)
        (m.age? (meets.clock (k + 1)).wall) with
    | tolerate reason =>
      refine .inr ⟨.tolerated reason, rfl, by simp, ?_⟩
      simp [ended, Leg.waits, Leg.settle, refused]
    | retry =>
      refine .inl ⟨?_, rfl⟩
      simp [waiting, Leg.waits, refused, rounds_succ, due, Backoff.delayAfter_min]

theorem next_waiting (plan : RetryPlan) (m : Message) (meets : Circumstances) (k : Nat) :
    (meets.waiting plan k).next plan m meets =
      if meets.brokenOff (k + 1) then meets.ended plan (k + 1) (.failed .cancelled)
      else meets.between plan (k + 1) := by
  have jobs : (meets.waiting plan k).jobs = k + 1 := count_rounds plan meets (k + 1)
  have phase : (meets.waiting plan k).leg.phase = .waiting (meets.due plan (k + 1)) := rfl
  rw [Delivery.next, phase]
  simp only [jobs]
  cases meets.brokenOff (k + 1) <;> simp [waiting, between, ended, Leg.breakOff?, Leg.wake?,
    Leg.settle]

@[simp] theorem next_ended (plan : RetryPlan) (m : Message) (meets : Circumstances) (k : Nat)
    (e : LegEnd) : (meets.ended plan k e).next plan m meets = meets.ended plan k e := by
  rcases e with _ | _ | _ | _ <;> rfl

end Circumstances

/-! ## All rounds -/

namespace Delivery

/-- Where a delivery can stand after jobs of which the bus has answered so many. -/
inductive Stands (plan : RetryPlan) (m : Message) (meets : Circumstances) :
    (answered : Nat) → Delivery → Prop where
  | between {k : Nat} (on : meets.GoesOn plan m k) : Stands plan m meets k (meets.between plan k)
  | submitted {k : Nat} (on : meets.GoesOn plan m k) :
      Stands plan m meets k (meets.submitted plan k)
  | waiting {k : Nat} (on : meets.GoesOn plan m k)
      (waits : meets.ends? plan m (k + 1) =
        if meets.brokenOff (k + 1) then some (.failed .cancelled) else none) :
      Stands plan m meets (k + 1) (meets.waiting plan k)
  | ended {k : Nat} {e : LegEnd} (on : meets.GoesOn plan m k)
      (ends : meets.ends? plan m (k + 1) = some e) :
      Stands plan m meets (if e = .failed .laneClosed then k else k + 1)
        (meets.ended plan (k + 1) e)

variable {plan : RetryPlan} {m : Message} {meets : Circumstances} {k n : Nat} {e : LegEnd}
  {d : Delivery}

namespace Stands

variable {answered : Nat}

theorem of_ready (stands : Stands plan m meets answered d) (ready : d.leg.phase = .ready) :
    meets.GoesOn plan m answered ∧ d = meets.between plan answered := by
  cases stands with
  | between on => exact ⟨on, rfl⟩
  | @ended k e _ _ => rcases e with _ | _ | _ | _ <;> cases ready
  | _ => cases ready

theorem of_submitted (stands : Stands plan m meets answered d)
    (submitted : d.leg.phase = .submitted) :
    meets.GoesOn plan m answered ∧ d = meets.submitted plan answered := by
  cases stands with
  | submitted on => exact ⟨on, rfl⟩
  | @ended k e _ _ => rcases e with _ | _ | _ | _ <;> cases submitted
  | _ => cases submitted

theorem of_waiting {due : Nat} (stands : Stands plan m meets answered d)
    (waiting : d.leg.phase = .waiting due) :
    ∃ k, answered = k + 1 ∧ meets.GoesOn plan m k ∧ d = meets.waiting plan k ∧
      meets.ends? plan m (k + 1) =
        if meets.brokenOff (k + 1) then some (.failed .cancelled) else none := by
  cases stands with
  | waiting on waits => exact ⟨_, rfl, on, rfl, waits⟩
  | @ended k e _ _ => rcases e with _ | _ | _ | _ <;> cases waiting
  | _ => cases waiting

end Stands

/-- While no job ends the delivery, each of them takes three steps. -/
theorem after_of_goesOn (on : meets.GoesOn plan m k) :
    after plan m meets (3 * k) = meets.between plan k := by
  induction k with
  | zero => rfl
  | succ k ih =>
    have goes := on (k + 1) (by omega) (Nat.le_refl _)
    have before := ih fun i one this ↦ on i one (by omega)
    simp only [Nat.mul_succ, after, before, Circumstances.next_between]
    obtain ⟨waits, ends⟩ | ⟨e, ends, -, -⟩ := Circumstances.next_submitted plan m meets k
    · rw [goes] at ends
      have stays : meets.brokenOff (k + 1) = false := by
        by_contra broken
        simp [broken] at ends
      rw [waits, Circumstances.next_waiting, stays, if_neg Bool.false_ne_true]
    · rw [goes] at ends
      cases ends

/-- **A delivery ends with the first job that ends it.** -/
theorem after_of_ends (on : meets.GoesOn plan m k) (ends : meets.ends? plan m (k + 1) = some e)
    (hn : 3 * (k + 1) ≤ n) : after plan m meets n = meets.ended plan (k + 1) e := by
  induction n, hn using Nat.le_induction with
  | base =>
    simp only [Nat.mul_succ, after, after_of_goesOn on, Circumstances.next_between]
    obtain ⟨waits, broken⟩ | ⟨e', ends', -, next⟩ := Circumstances.next_submitted plan m meets k
    · rw [ends] at broken
      rw [waits, Circumstances.next_waiting]
      split at broken
      · rename_i broken_off
        rw [if_pos broken_off, Option.some.inj broken]
      · cases broken
    · rw [ends] at ends'
      cases ends'
      rw [next, Circumstances.next_ended]
  | succ n _ ih => rw [after, ih, Circumstances.next_ended]

theorem Stands.exists_after {answered : Nat} (stands : Stands plan m meets answered d) :
    ∃ n, after plan m meets n = d := by
  -- a delivery that stands one step after another gets there one step later
  have one_more {n : Nat} {before : Delivery} (there : after plan m meets n = before) :
      ∃ n', after plan m meets n' = before.next plan m meets :=
    ⟨n + 1, congrArg (Delivery.next plan m meets) there⟩
  cases stands with
  | between on => exact ⟨_, after_of_goesOn on⟩
  | submitted on =>
    rw [← Circumstances.next_between plan m]
    exact one_more (after_of_goesOn on)
  | waiting on waits =>
    obtain ⟨n, there⟩ := one_more (after_of_goesOn on)
    rw [Circumstances.next_between] at there
    obtain ⟨next, -⟩ | ⟨e, ends, other, -⟩ := Circumstances.next_submitted plan m meets _
    · rw [← next]
      exact one_more there
    · rw [ends] at waits
      split at waits
      · exact absurd (Option.some.inj waits) other
      · cases waits
  | ended on ends => exact ⟨_, after_of_ends on ends (Nat.le_refl _)⟩

theorem Stands.next {answered : Nat} (stands : Stands plan m meets answered d) :
    ∃ answered', Stands plan m meets answered' (d.next plan m meets) := by
  cases stands with
  | between on =>
    rw [Circumstances.next_between]
    exact ⟨_, .submitted on⟩
  | submitted on =>
    obtain ⟨next, waits⟩ | ⟨e, ends, -, next⟩ := Circumstances.next_submitted plan m meets _
    · rw [next]
      exact ⟨_, .waiting on waits⟩
    · rw [next]
      exact ⟨_, .ended on ends⟩
  | waiting on waits =>
    rw [Circumstances.next_waiting]
    split
    · rename_i broken
      rw [if_pos broken] at waits
      exact ⟨_, .ended on waits⟩
    · rename_i stays
      rw [if_neg stays] at waits
      exact ⟨_, .between (on.succ waits)⟩
  | ended on ends =>
    rw [Circumstances.next_ended]
    exact ⟨_, .ended on ends⟩

theorem stands_after (plan : RetryPlan) (m : Message) (meets : Circumstances) (n : Nat) :
    ∃ answered, Stands plan m meets answered (after plan m meets n) := by
  induction n with
  | zero => exact ⟨_, .between .zero⟩
  | succ n ih => exact ih.elim fun _ stands ↦ stands.next

theorem ends_of_result? (ended : (after plan m meets n).leg.result? = some e) :
    ∃ k, meets.GoesOn plan m k ∧ meets.ends? plan m (k + 1) = some e := by
  obtain ⟨answered, stands⟩ := stands_after plan m meets n
  generalize after plan m meets n = d at ended stands
  cases stands with
  | ended on ends =>
    rw [Circumstances.result?_ended] at ended
    cases ended
    exact ⟨_, on, ends⟩
  | _ => cases ended

end Delivery

end MessageBridge
