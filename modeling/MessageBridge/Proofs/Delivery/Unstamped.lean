import MessageBridge.Proofs.Delivery.Expiry
import MessageBridge.Proofs.Delivery.Rounds

/-!
# Messages without a creation time

There are four ways for a message to have no creation time (`Message.Unstamped`): the entry is
missing, it is neither a number nor a text, its text spells no integer of 64 bits, or it stands for
a time that is not positive. There is no fifth, and such a message has no age at any time.

A mode enters a delivery only through its decisions about the message. So two modes that decide
alike about a message deliver it alike, step for step, under all circumstances
(`Delivery.after_congr`). A policy without a bound on the attempts decides about an unstamped
message as the persistent mode does.
-/

namespace MessageBridge

open Json (Value)
open Text (int64Min int64Max)

/-! ## Unstamped messages -/

/-- The message has no creation time that could be used. -/
inductive Message.Unstamped (m : Message) : Prop where
  /-- There is no entry for it. -/
  | missing (found : m.entry? MetaName.createdAt = none)
  /-- The entry is no number and no text. -/
  | otherType {v : Value} (found : m.entry? MetaName.createdAt = some v)
      (number : ∀ x, v ≠ .number x) (text : ∀ s, v ≠ .string s)
  /-- The text spells no integer of 64 bits. -/
  | unreadable {s : String} (found : m.entry? MetaName.createdAt = some (.string s))
      (none : ∀ n, Text.Spells s.toList n → ¬(int64Min ≤ n ∧ n ≤ int64Max))
  /-- The time is not positive. -/
  | notPositive {v : Value} {t : Int} (found : m.entry? MetaName.createdAt = some v)
      (stands : v.StandsFor t) (le : t ≤ 0)

variable {m : Message} {policy : DropPolicy} {mode : DeliveryMode}
  {attempts n : Nat} {now : Int}

namespace Message

/-- A message is unstamped exactly if it was created at no time. -/
theorem unstamped_iff : m.Unstamped ↔ ∀ t, ¬ m.Created t := by
  constructor
  · rintro unstamped t ⟨v, found, stands, positive⟩
    cases unstamped with
    | missing nothing =>
      rw [nothing] at found
      cases found
    | otherType there number text =>
      rw [there] at found
      cases found
      cases stands with
      | number => exact number _ rfl
      | text => exact text _ rfl
    | unreadable there none =>
      rw [there] at found
      cases found
      cases stands with
      | text spells low high => exact none t spells ⟨low, high⟩
    | notPositive there stands' le =>
      rw [there] at found
      cases found
      rw [← Value.toInt64?_eq_some_iff] at stands stands'
      rw [stands] at stands'
      cases stands'
      omega
  · intro never
    have le {v : Value} {t : Int} (found : m.entry? MetaName.createdAt = some v)
        (stands : v.StandsFor t) : t ≤ 0 :=
      Int.not_lt.mp fun positive ↦ never t ⟨v, found, stands, positive⟩
    cases found : m.entry? MetaName.createdAt with
    | none => exact .missing found
    | some v =>
      cases v with
      | number x =>
        have nearest := clampInt64_eq_iff.mp (Eq.refl (Text.clampInt64 x.truncate))
        exact .notPositive found (.number nearest) (le found (.number nearest))
      | string s =>
        by_cases spelt : ∃ n, Text.Spells s.toList n ∧ int64Min ≤ n ∧ n ≤ int64Max
        · obtain ⟨n, spells, low, high⟩ := spelt
          exact .notPositive found (.text spells low high) (le found (.text spells low high))
        · exact .unreadable found fun n spells fits ↦ spelt ⟨n, spells, fits⟩
      | _ => exact .otherType found nofun nofun

theorem Unstamped.age? (unstamped : m.Unstamped) (now : Int) : m.age? now = none :=
  m.agesExactly.unknown (unstamped_iff.mp unstamped) now

theorem Unstamped.of_age {m' : Message} (unstamped : m.Unstamped)
    (same : ∀ now, m'.age? now = m.age? now) : m'.Unstamped := by
  refine unstamped_iff.mpr fun t created ↦ ?_
  have known := age?_of_created created 0
  rw [same, unstamped.age?] at known
  cases known

end Message

/-! ## Modes that decide alike -/

/-- Two modes decide alike about a message after any number of attempts and at any time. -/
def DeliveryMode.AlikeFor (m : Message) (mode mode' : DeliveryMode) : Prop :=
  ∀ attempts now, mode.onFailure attempts (m.age? now) = mode'.onFailure attempts (m.age? now)

theorem DropPolicy.alikeFor_persistent (unlimited : policy.maxAttempts = none)
    (unstamped : m.Unstamped) : (DeliveryMode.drop policy).AlikeFor m .persistent := by
  intro attempts now
  have tries : ¬ policy.Exhausted attempts := by
    rintro ⟨bound, limited, -⟩
    rw [unlimited] at limited
    cases limited
  have time : ¬ policy.Overdue m now := fun overdue ↦
    have ⟨t, created, _⟩ := overdue.exists_created
    Message.unstamped_iff.mp unstamped t created
  classical
  rw [policy.onFailure_eq, if_neg tries, if_neg time]
  rfl

/-- A persistent delivery does not end by being given up. -/
theorem Delivery.result?_ne_tolerated (plan : RetryPlan) (persistent : plan.mode = .persistent)
    (meets : Circumstances) (n : Nat) (reason : GiveUpReason) :
    (after plan m meets n).leg.result? ≠ some (.tolerated reason) := by
  intro ended
  obtain ⟨k, -, ends⟩ := ends_of_result? ended
  exact Circumstances.ends?_of_persistent persistent reason ends

section Alike

variable (plan : RetryPlan) (alike : plan.mode.AlikeFor m mode)

include alike

theorem Leg.answer_congr (now : Nat) (wall : Int) (leg : Leg) (a : JobAnswer) :
    leg.answer ⟨mode, plan.backoff⟩ now (m.age? wall) a = leg.answer plan now (m.age? wall) a := by
  cases a with
  | refused e => simp only [answer, alike leg.attempts wall]
  | _ => rfl

theorem Delivery.next_congr (meets : Circumstances) (d : Delivery) :
    d.next ⟨mode, plan.backoff⟩ m meets = d.next plan m meets := by
  simp only [next, Leg.answer_congr plan alike]

/-- **Modes that decide alike about a message deliver it alike, step for step.** -/
theorem Delivery.after_congr (meets : Circumstances) (n : Nat) :
    after ⟨mode, plan.backoff⟩ m meets n = after plan m meets n := by
  induction n with
  | zero => rfl
  | succ n ih => rw [after, after, ih, next_congr plan alike]

end Alike

end MessageBridge
