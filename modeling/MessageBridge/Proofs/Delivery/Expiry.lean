import MessageBridge.Proofs.Delivery.Course
import MessageBridge.Proofs.Text.Integers

/-!
# When messages expire

A message is created at the time that an entry of its metadata stands for, if that is positive.
`Json.Value.StandsFor` says which integer a value stands for without reading it: numbers lose their
fraction and are brought into 64 bits, texts spell an integer that has to fit. Readings of the clock
are not negative and have 64 bits, so an age has 64 bits too.

A policy gives a message up when it has been tried often enough or is overdue, which is said in
nanoseconds and without rounding (`DropPolicy.Overdue`). Both conditions stay true as attempts are
made and time passes. `DropPolicy.expires_exactly` collects what follows for the decision after a
failed attempt.
-/

namespace MessageBridge

open Json (Value)
open Text (int64Min int64Max)

variable {m : Message} {policy : DropPolicy} {k n t now : Int} {attempts : Nat}

/-! ## Creation times -/

/-- The second is the integer of 64 bits nearest to the first. -/
def Nearest64 (k n : Int) : Prop :=
  int64Min ≤ k ∧ k ≤ int64Max ∧ n = k ∨ int64Max < k ∧ n = int64Max ∨ k < int64Min ∧ n = int64Min

/-- The 64-bit integer that a value stands for. -/
inductive Json.Value.StandsFor : Value → Int → Prop where
  | number {x : Json.Number} {n : Int} : Nearest64 x.truncate n → StandsFor (.number x) n
  | text {s : String} {n : Int} : Text.Spells s.toList n → int64Min ≤ n → n ≤ int64Max →
      StandsFor (.string s) n

/-- The message was created at a time. -/
def Message.Created (m : Message) (t : Int) : Prop :=
  ∃ v, m.entry? MetaName.createdAt = some v ∧ v.StandsFor t ∧ 0 < t

theorem clampInt64_eq_iff : Text.clampInt64 k = n ↔ Nearest64 k n := by
  unfold Text.clampInt64 Nearest64 int64Min int64Max
  omega

theorem Json.Value.toInt64?_eq_some_iff {v : Value} : v.toInt64? = some n ↔ v.StandsFor n := by
  cases v with
  | number x =>
    rw [toInt64?, Option.some.injEq, clampInt64_eq_iff]
    exact ⟨.number, fun stands ↦ by cases stands; assumption⟩
  | string s =>
    rw [toInt64?, Text.int64?_eq_some_iff]
    exact ⟨fun ⟨spells, low, high⟩ ↦ .text spells low high,
      fun stands ↦ by cases stands; exact ⟨‹_›, ‹_›, ‹_›⟩⟩
  | _ => exact iff_of_false nofun nofun

theorem Json.Value.StandsFor.le_int64Max {v : Value} (stands : v.StandsFor n) : n ≤ int64Max := by
  cases stands with
  | text _ _ high => exact high
  | number nearest =>
    unfold Nearest64 int64Min int64Max at *
    omega

namespace Message

theorem createdAt?_eq_some_iff : m.createdAt? = some t ↔ m.Created t := by
  simp only [createdAt?, int64?, Option.filter_eq_some_iff, Option.bind_eq_some_iff,
    Value.toInt64?_eq_some_iff, decide_eq_true_eq, Created]
  exact ⟨fun ⟨⟨v, found, stands⟩, positive⟩ ↦ ⟨v, found, stands, positive⟩,
    fun ⟨v, found, stands, positive⟩ ↦ ⟨⟨v, found, stands⟩, positive⟩⟩

theorem age?_of_created (created : m.Created t) (now : Int) : m.age? now = some (now - t) := by
  rw [age?, createdAt?_eq_some_iff.mpr created]
  rfl

theorem age?_eq_some_iff : m.age? now = some n ↔ ∃ t, m.Created t ∧ n = now - t := by
  simp only [age?, Option.map_eq_some_iff, createdAt?_eq_some_iff, eq_comm (a := n)]

/-- What is known of the age of a message. -/
structure AgesExactly (m : Message) : Prop where
  /-- A message was created once at most. -/
  unique : ∀ {t t'}, m.Created t → m.Created t' → t = t'
  /-- If it was, its age is the time that has passed since, which has 64 bits at every reading of
  the clock. -/
  known : ∀ {t}, m.Created t → ∀ now, 0 ≤ now → now ≤ int64Max →
    m.age? now = some (now - t) ∧ int64Min ≤ now - t ∧ now - t ≤ int64Max
  /-- Otherwise it has no age. -/
  unknown : (∀ t, ¬ m.Created t) → ∀ now, m.age? now = none

theorem agesExactly (m : Message) : m.AgesExactly := by
  refine ⟨fun created created' ↦ ?_, fun {t} created now early late ↦ ?_, fun never now ↦ ?_⟩
  · rw [← createdAt?_eq_some_iff] at created created'
    exact Option.some.inj (created.symm.trans created')
  · obtain ⟨v, found, stands, positive⟩ := created
    have bounded := stands.le_int64Max
    refine ⟨age?_of_created ⟨v, found, stands, positive⟩ now, ?_⟩
    unfold int64Min int64Max at *
    omega
  · refine Option.eq_none_iff_forall_ne_some.mpr fun age known ↦ ?_
    obtain ⟨t, created, -⟩ := age?_eq_some_iff.mp known
    exact never t created

end Message

/-! ## Decisions -/

namespace DropPolicy

/-- The message has been tried often enough. -/
def Exhausted (policy : DropPolicy) (attempts : Nat) : Prop :=
  ∃ bound, policy.maxAttempts = some bound ∧ bound ≤ attempts

/-- The time to live has passed since the message was created. -/
def Overdue (policy : DropPolicy) (m : Message) (now : Int) : Prop :=
  ∃ ttl t, policy.ttl = some ttl ∧ m.Created t ∧ t * 1000000 + ttl.nanos < now * 1000000

theorem overdue_iff : policy.Overdue m now ↔ policy.expiredAt (m.age? now) = true := by
  rw [expiredAt_iff]
  constructor
  · rintro ⟨ttl, t, live, created, passed⟩
    exact ⟨ttl, now - t, live, Message.age?_of_created created now, by omega⟩
  · rintro ⟨ttl, age, live, known, passed⟩
    obtain ⟨t, created, rfl⟩ := Message.age?_eq_some_iff.mp known
    exact ⟨ttl, t, live, created, by omega⟩

/-- An overdue message was created in the past. -/
theorem Overdue.exists_created (overdue : policy.Overdue m now) : ∃ t, m.Created t ∧ t < now := by
  obtain ⟨ttl, t, -, created, passed⟩ := overdue
  exact ⟨t, created, by omega⟩

theorem Overdue.mono {later : Int} (overdue : policy.Overdue m now) (le : now ≤ later) :
    policy.Overdue m later := by
  obtain ⟨ttl, t, live, created, passed⟩ := overdue
  exact ⟨ttl, t, live, created, by omega⟩

theorem Exhausted.mono {more : Nat} (exhausted : policy.Exhausted attempts) (le : attempts ≤ more) :
    policy.Exhausted more := by
  obtain ⟨bound, limited, reached⟩ := exhausted
  exact ⟨bound, limited, reached.trans le⟩

/-- The decision after a failed attempt, with its reason: the number of attempts comes first. -/
theorem onFailure_eq (policy : DropPolicy) (m : Message) (attempts : Nat) (now : Int)
    [Decidable (policy.Exhausted attempts)] [Decidable (policy.Overdue m now)] :
    (DeliveryMode.drop policy).onFailure attempts (m.age? now) =
      if policy.Exhausted attempts then .tolerate .attemptsExhausted
      else if policy.Overdue m now then .tolerate .expired
      else .retry := by
  simp only [DeliveryMode.onFailure, Exhausted, ← exhaustedAt_iff, overdue_iff]

/-- What a policy decides about a message. -/
structure ExpiresExactly (policy : DropPolicy) (m : Message) : Prop where
  /-- After a failed attempt a message is given up exactly if it has been tried often enough or is
  overdue. -/
  tolerates_iff : ∀ attempts now,
    (∃ reason, (DeliveryMode.drop policy).onFailure attempts (m.age? now) = .tolerate reason) ↔
      policy.Exhausted attempts ∨ policy.Overdue m now
  /-- It expires if it is overdue and could have been tried again, -/
  expires_iff : ∀ attempts now,
    (DeliveryMode.drop policy).onFailure attempts (m.age? now) = .tolerate .expired ↔
      ¬ policy.Exhausted attempts ∧ policy.Overdue m now
  /-- which it cannot be without a creation time in the past. -/
  past : ∀ now, policy.Overdue m now → ∃ t, m.Created t ∧ t < now
  /-- Once it is given up, it is given up after all further attempts and at all later times. -/
  final : ∀ {attempts more now later reason}, attempts ≤ more → now ≤ later →
    (DeliveryMode.drop policy).onFailure attempts (m.age? now) = .tolerate reason →
    ∃ reason, (DeliveryMode.drop policy).onFailure more (m.age? later) = .tolerate reason

theorem tolerates_iff :
    (∃ reason, (DeliveryMode.drop policy).onFailure attempts (m.age? now) = .tolerate reason) ↔
      policy.Exhausted attempts ∨ policy.Overdue m now := by
  classical
  rw [onFailure_eq]
  by_cases exhausted : policy.Exhausted attempts
  · simp [exhausted]
  · by_cases overdue : policy.Overdue m now
    · simp [exhausted, overdue]
    · simp [exhausted, overdue]

/-- **Expiry is exact.** -/
theorem expires_exactly (policy : DropPolicy) (m : Message) :
    m.AgesExactly ∧ policy.ExpiresExactly m := by
  refine ⟨m.agesExactly, fun _ _ ↦ tolerates_iff, fun attempts now ↦ ?_,
    fun _ ↦ Overdue.exists_created, fun {_ _ _ _ reason} more later gives_up ↦ ?_⟩
  · classical
    rw [onFailure_eq]
    by_cases exhausted : policy.Exhausted attempts
    · simp [exhausted]
    · by_cases overdue : policy.Overdue m now
      · simp [exhausted, overdue]
      · simp [exhausted, overdue]
  · exact tolerates_iff.mpr ((tolerates_iff.mp ⟨reason, gives_up⟩).imp
      (fun exhausted ↦ exhausted.mono more) fun overdue ↦ overdue.mono later)

/-- A message with a creation time. -/
def dated (created : Value) : Message := ⟨⟨#[]⟩, [("createdAtMs", created)]⟩

/-- A millisecond and a half and a nanosecond, or three attempts. -/
def brief : DropPolicy := ⟨some ⟨1500001⟩, some 3⟩

/-- A creation time with a sign and white space around it was two milliseconds ago, which is more
than the time to live, while one millisecond is not. A number beyond 64 bits stands for the greatest
of 64 bits, which is far ahead. -/
theorem expires_exactly_of_text :
    (dated (.string "\u3000+1000\t")).Created 1000 ∧
    (dated (.string "\u3000+1000\t")).age? 1002 = some 2 ∧
    ¬ brief.Overdue (dated (.string "\u3000+1000\t")) 1001 ∧
    (DeliveryMode.drop brief).onFailure 1 ((dated (.string "\u3000+1000\t")).age? 1002) =
      .tolerate .expired ∧
    (∃ reason, (DeliveryMode.drop brief).onFailure 2
      ((dated (.string "\u3000+1000\t")).age? 5000) = .tolerate reason) ∧
    (dated (.ofNat 18446744073709551615)).age? 0 = some (-int64Max) := by
  have created : (dated (.string "\u3000+1000\t")).Created 1000 :=
    Message.createdAt?_eq_some_iff.mp (by decide)
  have unsigned : (dated (.ofNat 18446744073709551615)).Created int64Max :=
    Message.createdAt?_eq_some_iff.mp (by decide)
  have ages := (expires_exactly brief (dated (.string "\u3000+1000\t"))).1
  have expires := (expires_exactly brief (dated (.string "\u3000+1000\t"))).2
  have overdue : brief.Overdue (dated (.string "\u3000+1000\t")) 1002 :=
    ⟨_, _, rfl, created, by decide⟩
  have fresh : ¬ brief.Exhausted 1 := by
    rintro ⟨bound, ⟨⟩, reached⟩
    omega
  have gone := (expires.expires_iff 1 1002).mpr ⟨fresh, overdue⟩
  refine ⟨created, (ages.known created 1002 (by decide) (by decide)).1, ?_, gone,
    expires.final (by decide) (by decide) gone, ?_⟩
  · rintro ⟨ttl, t, ⟨⟩, created', passed⟩
    obtain rfl := ages.unique created created'
    exact absurd passed (by decide)
  · have age := ((expires_exactly brief _).1.known unsigned 0 (by decide) (by decide)).1
    rw [age]
    rfl

end DropPolicy

end MessageBridge
