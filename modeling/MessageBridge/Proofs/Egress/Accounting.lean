import Mathlib.Data.List.Nodup
import MessageBridge.Proofs.Egress.Depot

/-!
# The accounts of an egress point

The decision on a publish comes after its delay, so publishes overtake one another, and between two
steps of one of them the scripts may change and the point may be closed. Two accounts hold all the
same, whatever the order.

The history of one publish is short: it has not begun, it is under way, or it has returned
(`Standing`). Every step moves at most one publish from one to the next, which keeps the sum of the
attempts and matches the records with the publishes that were accepted.

The remainder of `failNext` is a countdown over the decisions that `failAlways` leaves open
(`Depot.scripted?`): each is a rejection exactly while something remains, and takes one off
(`Depot.countdown_of_step`).
-/

namespace MessageBridge.Memory

/-! ## Publishes -/

/-- Where a publish stands. -/
inductive Standing where
  /-- It has not begun. -/
  | unborn
  /-- It has begun. -/
  | underWay (m : Message)
  /-- It has returned. -/
  | returned (m : Message) (answer : Except BusError Unit)

/-- What has been noticed of a publish that stands there. -/
def Standing.tale (call : Nat) : Standing → List Notice
  | .unborn => []
  | .underWay m => [.begun call m]
  | .returned m answer => [.begun call m, .answered call answer]

namespace Notice

variable {call : Nat} {told outputs : List Notice} {n : Notice}

/-- The part of a history that is about one publish. -/
def tale (call : Nat) (told : List Notice) : List Notice :=
  told.filter fun n ↦ n.publish? == some call

theorem tale_append (call : Nat) (told outputs : List Notice) :
    tale call (told ++ outputs) = tale call told ++ tale call outputs := List.filter_append ..

theorem tale_of_none (about : ∀ n ∈ outputs, n.publish? ≠ some call) : tale call outputs = [] := by
  simpa [tale, List.filter_eq_nil_iff] using about

theorem mem_iff_mem_tale (about : n.publish? = some call) : n ∈ told ↔ n ∈ tale call told := by
  simp [tale, about]

/-- The publish returned. -/
def isAnswer (call : Nat) : Notice → Bool
  | .answered c _ => c == call
  | _ => false

/-- A publish returned with the error that it was rejected. -/
def isRejection : Notice → Bool
  | .answered _ (.error (.publish _)) => true
  | _ => false

/-- A publish returned with the error that the point is closed. -/
def isClosed : Notice → Bool
  | .answered _ (.error .closed) => true
  | _ => false

theorem publish?_of_isRejection (rejected : n.isRejection = true) : n.publish? ≠ none := by
  cases n with
  | begun _ _ | answered _ _ => exact Option.some_ne_none _
  | awaited _ _ | released _ _ => cases rejected

theorem publish?_of_isClosed (turned_away : n.isClosed = true) : n.publish? ≠ none := by
  cases n with
  | begun _ _ | answered _ _ => exact Option.some_ne_none _
  | awaited _ _ | released _ _ => cases turned_away

/-- The publish that returned without an error. -/
def accepted? : Notice → Option Nat
  | .answered call (.ok ()) => some call
  | _ => none

/-- The publishes that returned without an error, in the order in which they did. -/
def acceptances (told : List Notice) : List Nat := told.filterMap accepted?

theorem mem_acceptances : call ∈ acceptances told ↔ .answered call (.ok ()) ∈ told := by
  constructor
  · intro mem
    obtain ⟨n, there, accepted⟩ := List.mem_filterMap.mp mem
    unfold accepted? at accepted
    split at accepted
    · cases accepted
      exact there
    · cases accepted
  · intro there
    exact List.mem_filterMap.mpr ⟨_, there, rfl⟩

theorem countP_isAnswer (told : List Notice) :
    told.countP (isAnswer call) = (tale call told).countP (isAnswer call) := by
  rw [tale, List.countP_filter]
  refine List.countP_congr fun n _ ↦ ?_
  cases n <;> simp [isAnswer, publish?]

end Notice

open Notice (acceptances)

namespace Depot

variable {x y : Depot} {a : Deed} {told outputs : List Notice} {target : String} {call : Nat}
  {s : Standing} {past later : List (Moment Depot Deed Notice)}

/-- A publish stands there in the history and in the point. -/
structure Stands (told : List Notice) (x : Depot) (call : Nat) (s : Standing) : Prop where
  tale : Notice.tale call told = s.tale call
  unborn : x.calls ≤ call → s = .unborn
  pending : ∀ m, (∃ p ∈ x.egress.pending, p.call = call ∧ p.message = m) ↔ s = .underWay m

/-- Every publish stands somewhere, and it is under way once at most. -/
structure Sound (told : List Notice) (x : Depot) : Prop where
  stands : ∀ call, ∃ s, Stands told x call s
  once : (x.egress.pending.map PendingPublish.call).Nodup

theorem sound_ofName (target : String) : Sound [] (ofName target) := by
  refine ⟨fun call ↦ ⟨.unborn, rfl, fun _ ↦ rfl, ?_⟩, List.nodup_nil⟩
  simp [ofName, Egress.ofName]

/-- A publish that a step is not about stands where it stood. -/
theorem Stands.of_same (stands : Stands told x call s)
    (silent : ∀ n ∈ outputs, n.publish? ≠ some call) (calls : x.calls ≤ y.calls)
    (pending : ∀ p : PendingPublish, p.call = call →
      (p ∈ y.egress.pending ↔ p ∈ x.egress.pending)) : Stands (told ++ outputs) y call s := by
  refine ⟨?_, fun later ↦ stands.unborn (Nat.le_trans calls later), fun m ↦ ?_⟩
  · rw [Notice.tale_append, Notice.tale_of_none silent, List.append_nil]
    exact stands.tale
  · rw [← stands.pending m]
    refine exists_congr fun p ↦ ?_
    constructor
    · rintro ⟨mem, rfl, same⟩
      exact ⟨(pending p rfl).mp mem, rfl, same⟩
    · rintro ⟨mem, rfl, same⟩
      exact ⟨(pending p rfl).mpr mem, rfl, same⟩

namespace Sound

variable {p : PendingPublish}

/-- The next call has not begun. -/
theorem unborn_next (sound : Sound told x) :
    Notice.tale x.calls told = [] ∧ ∀ p ∈ x.egress.pending, p.call ≠ x.calls := by
  obtain ⟨s, tale, unborn, pending⟩ := sound.stands x.calls
  cases unborn (Nat.le_refl _)
  refine ⟨tale, fun p mem same ↦ ?_⟩
  cases (pending p.message).mp ⟨p, mem, same, rfl⟩

theorem stands_of_mem (sound : Sound told x) (mem : p ∈ x.egress.pending) :
    Stands told x p.call (.underWay p.message) := by
  obtain ⟨s, stands⟩ := sound.stands p.call
  cases (stands.pending p.message).mp ⟨p, mem, rfl, rfl⟩
  exact stands

/-- One publish is taken out at a time. -/
theorem length_without (sound : Sound told x) (mem : p ∈ x.egress.pending) :
    (x.egress.pending.filter fun q ↦ q.call != p.call).length + 1 = x.egress.pending.length := by
  have there : x.egress.pending.countP (fun q ↦ q.call == p.call) = 1 := by
    have one := List.count_eq_one_of_mem sound.once (List.mem_map_of_mem mem)
    rwa [List.count, List.countP_map] at one
  have parts := List.length_eq_countP_add_countP (fun q ↦ q.call == p.call) (l := x.egress.pending)
  rw [there, List.countP_eq_length_filter] at parts
  simp only [bne]
  simp only [Bool.not_eq_true, Bool.decide_eq_false] at parts
  omega

/-- When one publish moves, the others stand where they stood. -/
theorem moved (sound : Sound told x) (call : Nat) (moves : Stands (told ++ outputs) y call s)
    (own : ∀ n ∈ outputs, n.publish? = some call) (calls : x.calls ≤ y.calls)
    (others : ∀ p : PendingPublish, p.call ≠ call →
      (p ∈ y.egress.pending ↔ p ∈ x.egress.pending))
    (once : (y.egress.pending.map PendingPublish.call).Nodup) : Sound (told ++ outputs) y := by
  refine ⟨fun other ↦ ?_, once⟩
  by_cases same : other = call
  · subst same
    exact ⟨s, moves⟩
  · obtain ⟨s', stands⟩ := sound.stands other
    refine ⟨s', stands.of_same ?_ calls ?_⟩
    · intro n mem about
      rw [own n mem] at about
      exact same (Option.some.inj about).symm
    · rintro p rfl
      exact others p same

theorem step (sound : Sound told x) (step : x.step? a = some (y, outputs)) :
    Sound (told ++ outputs) y := by
  obtain ⟨fresh, others⟩ := sound.unborn_next
  have step := step_of_step? step
  -- of all calls only the one that the step is about changes where it stands
  induction step with
  | @turnedAway m closed =>
    refine sound.moved x.calls (s := .returned m (.error .closed)) ⟨?_, ?_, ?_⟩
      (by simp [Notice.publish?]) (Nat.le_succ _) (fun _ _ ↦ Iff.rfl) sound.once
    · rw [Notice.tale_append, fresh]
      simp [Notice.tale, Notice.publish?, Standing.tale]
    · intro late
      exact absurd late (Nat.not_succ_le_self _)
    · intro m'
      refine iff_of_false ?_ (by simp)
      rintro ⟨p, mem, same, -⟩
      exact others p mem same
  | @begun m still_open =>
    refine sound.moved x.calls (s := .underWay m) ⟨?_, ?_, ?_⟩
      (by simp [Notice.publish?]) (Nat.le_succ _) ?_ ?_
    · rw [Notice.tale_append, fresh]
      simp [Notice.tale, Notice.publish?, Standing.tale]
    · intro late
      exact absurd late (Nat.not_succ_le_self _)
    · intro m'
      constructor
      · rintro ⟨p, mem, same, rfl⟩
        rcases List.mem_append.mp mem with before | now
        · exact absurd same (others p before)
        · rw [List.mem_singleton.mp now]
      · intro same
        cases same
        exact ⟨_, List.mem_append_right _ (List.mem_singleton_self _), rfl, rfl⟩
    · intro p other
      refine ⟨fun mem ↦ ?_, List.mem_append_left _⟩
      rcases List.mem_append.mp mem with before | now
      · exact before
      · rw [List.mem_singleton.mp now] at other
        exact absurd rfl other
    · rw [List.map_append, List.nodup_append]
      refine ⟨sound.once, List.nodup_singleton _, ?_⟩
      intro c mem c' mem'
      obtain ⟨p, there, rfl⟩ := List.mem_map.mp mem
      rw [List.map_singleton, List.mem_singleton] at mem'
      rw [mem']
      exact others p there
  | @decided p answer egress mem due decided =>
    have stands := sound.stands_of_mem mem
    refine sound.moved p.call (s := .returned p.message answer) ⟨?_, ?_, ?_⟩
      (by simp [Notice.publish?]) (Nat.le_refl _) ?_ ?_
    · rw [Notice.tale_append, stands.tale]
      simp [Notice.tale, Notice.publish?, Standing.tale]
    · intro late
      cases stands.unborn late
    · intro m
      rw [decided.pending]
      refine iff_of_false ?_ (by simp)
      rintro ⟨q, left, same, -⟩
      exact absurd same (by simpa using List.of_mem_filter left)
    · intro q other
      rw [decided.pending, List.mem_filter]
      exact and_iff_left (by simpa using other)
    · rw [decided.pending]
      exact sound.once.sublist (List.filter_sublist.map _)
  | aside aside =>
    refine ⟨fun call ↦ ?_, ?_⟩
    · obtain ⟨s, stands⟩ := sound.stands call
      refine ⟨s, stands.of_same (fun n mem ↦ ?_) aside.calls fun _ _ ↦ ?_⟩
      · rw [aside.silent n mem]
        exact (Option.some_ne_none call).symm
      · rw [aside.pending]
    · rw [aside.pending]
      exact sound.once

end Sound

theorem sound_of_runs (runs : Runs target past x) : Sound (Moment.told past) x := by
  induction runs with
  | refl => exact sound_ofName target
  | snoc _ step ih =>
    rw [Moment.told_append, Moment.told_singleton]
    exact ih.step step

/-! ## The attempts -/

/-- The attempts are those that were recorded, rejected and turned away, and those under way. -/
def Balanced (told : List Notice) (x : Depot) : Prop :=
  x.egress.attempts = x.egress.published.length + told.countP Notice.isRejection +
    told.countP Notice.isClosed + x.egress.pending.length

theorem Balanced.step (balanced : Balanced told x) (sound : Sound told x)
    (step : x.step? a = some (y, outputs)) : Balanced (told ++ outputs) y := by
  unfold Balanced at balanced ⊢
  rw [List.countP_append, List.countP_append]
  have step := step_of_step? step
  induction step with
  | turnedAway _ =>
    simp only [List.countP_cons, List.countP_nil, Notice.isRejection, Notice.isClosed]
    simp only [Bool.false_eq_true, if_false, if_true]
    omega
  | begun _ =>
    simp only [List.countP_cons, List.countP_nil, Notice.isRejection, Notice.isClosed]
    simp only [Bool.false_eq_true, if_false, List.length_append, List.length_singleton]
    omega
  | @decided p answer egress mem due decided =>
    have one := sound.length_without mem
    rw [decided.attempts, decided.pending]
    cases decided with
    | forced _ | scripted _ _ =>
      have recorded : (x.egress.without p.call).published = x.egress.published := rfl
      simp only [List.countP_cons, List.countP_nil, Egress.rejection, Notice.isRejection,
        Notice.isClosed, Bool.false_eq_true, if_false, if_true, recorded]
      omega
    | accepted _ _ =>
      simp only [List.countP_cons, List.countP_nil, Notice.isRejection, Notice.isClosed,
        Bool.false_eq_true, if_false, List.length_append, List.length_singleton]
      omega
  | @aside a y outputs aside =>
    -- it tells of no publish, so none is counted
    have none_counted (p : Notice → Bool) (about : ∀ n, p n = true → n.publish? ≠ none) :
        outputs.countP p = 0 :=
      List.countP_eq_zero.mpr fun n mem holds ↦ about n holds (aside.silent n mem)
    rw [aside.attempts, aside.published, aside.pending,
      none_counted _ fun _ ↦ Notice.publish?_of_isRejection,
      none_counted _ fun _ ↦ Notice.publish?_of_isClosed]
    exact balanced

theorem balanced_of_runs (runs : Runs target past x) : Balanced (Moment.told past) x := by
  induction runs with
  | refl => rfl
  | snoc before step ih =>
    rw [Moment.told_append, Moment.told_singleton]
    exact ih.step (sound_of_runs before) step

/-! ## The records -/

/-- What leaves the publishes alone accepts none. -/
theorem Aside.acceptances (aside : x.Aside a y outputs) : acceptances outputs = [] := by
  refine List.filterMap_eq_nil_iff.mpr fun n mem ↦ ?_
  have silent := aside.silent n mem
  cases n with
  | begun _ _ | answered _ _ => cases silent
  | awaited _ _ | released _ _ => rfl

/-- The records are the messages of the publishes that were accepted, in this order. -/
def Recorded (told : List Notice) (x : Depot) : Prop :=
  List.Forall₂ (fun call m ↦ .begun call m ∈ told) (acceptances told) x.egress.published

/-- What happens later adds a record exactly if it is an acceptance. -/
theorem Recorded.step (recorded : Recorded told x) (sound : Sound told x)
    (step : x.step? a = some (y, outputs)) : Recorded (told ++ outputs) y := by
  have longer : List.Forall₂ (fun call m ↦ .begun call m ∈ told ++ outputs) (acceptances told)
      x.egress.published := recorded.imp fun _ _ ↦ List.mem_append_left _
  have same (none_accepted : acceptances outputs = [])
      (published : y.egress.published = x.egress.published) : Recorded (told ++ outputs) y := by
    unfold Recorded acceptances at *
    rw [List.filterMap_append, none_accepted, List.append_nil, published]
    exact longer
  have step := step_of_step? step
  induction step with
  | turnedAway _ => exact same rfl rfl
  | begun _ => exact same rfl rfl
  | @decided p answer egress mem due decided =>
    cases decided with
    | forced _ => exact same rfl rfl
    | scripted _ _ => exact same rfl rfl
    | accepted _ _ =>
      have begun : .begun p.call p.message ∈ told := by
        rw [Notice.mem_iff_mem_tale rfl, (sound.stands_of_mem mem).tale]
        exact List.mem_singleton_self _
      unfold Recorded acceptances at *
      rw [List.filterMap_append]
      exact List.rel_append longer (.cons (List.mem_append_left _ begun) .nil)
  | aside aside => exact same aside.acceptances aside.published

theorem recorded_of_runs (runs : Runs target past x) : Recorded (Moment.told past) x := by
  induction runs with
  | refl => exact .nil
  | snoc before step ih =>
    rw [Moment.told_append, Moment.told_singleton]
    exact ih.step (sound_of_runs before) step

/-- No step removes or moves a record. -/
theorem prefix_of_step (step : x.step? a = some (y, outputs)) :
    x.egress.published <+: y.egress.published := by
  have step := step_of_step? step
  induction step with
  | turnedAway _ => exact List.prefix_refl _
  | begun _ => exact List.prefix_refl _
  | decided _ _ decided =>
    cases decided with
    | forced _ => exact List.prefix_refl _
    | scripted _ _ => exact List.prefix_refl _
    | accepted _ _ => exact List.prefix_append _ _
  | aside aside => exact aside.published ▸ List.prefix_refl _

theorem prefix_of_exec (exec : Execution step? x later y) :
    x.egress.published <+: y.egress.published := by
  induction exec with
  | refl => exact List.prefix_refl _
  | snoc _ step ih => exact ih.trans (prefix_of_step step)

/-! ## The countdown -/

/-- Whether a publish was rejected, if it was decided while `failAlways` was off. -/
def scripted? (mo : Moment Depot Deed Notice) : Option Bool :=
  match mo.action with
  | .decide _ =>
    if mo.before.egress.failAlways then none else some (mo.outputs.any Notice.isRejection)
  | _ => none

theorem scripted?_of_idle (idle : a.publishes = false) : scripted? ⟨x, a, y, outputs⟩ = none := by
  cases a <;> first | rfl | cases idle

/-- A step leaves the remainder alone or counts a decision off. -/
theorem countdown_of_step (step : x.step? a = some (y, outputs)) (unset : a.script = none) :
    scripted? ⟨x, a, y, outputs⟩ = none ∧ y.egress.failNext = x.egress.failNext ∨
      scripted? ⟨x, a, y, outputs⟩ = some (decide (0 < x.egress.failNext)) ∧
        y.egress.failNext = x.egress.failNext - 1 := by
  have step := step_of_step? step
  induction step with
  | turnedAway _ => exact .inl ⟨rfl, rfl⟩
  | begun _ => exact .inl ⟨rfl, rfl⟩
  | decided _ _ decided =>
    cases decided with
    | forced always => exact .inl ⟨by simp [scripted?, always], rfl⟩
    | scripted seldom some_left =>
      refine .inr ⟨?_, rfl⟩
      simp [scripted?, seldom, some_left, Notice.isRejection, Egress.rejection]
    | accepted seldom none_left =>
      refine .inr ⟨by simp [scripted?, seldom, none_left, Notice.isRejection], ?_⟩
      change x.egress.failNext = x.egress.failNext - 1
      rw [none_left]
  | aside aside =>
    refine .inl ⟨scripted?_of_idle aside.other, ?_⟩
    rw [aside.failNext, unset]
    rfl

/-- Until the script is set again, the publishes that were decided by it are rejected in the number
that was left, and the others accepted. -/
theorem countdown_of_exec (exec : Execution step? x later y)
    (unset : ∀ mo ∈ later, mo.action.script = none) :
    later.filterMap scripted? = (List.range (later.filterMap scripted?).length).map
        (fun i ↦ decide (i < x.egress.failNext)) ∧
      y.egress.failNext = x.egress.failNext - (later.filterMap scripted?).length := by
  induction exec with
  | refl => exact ⟨rfl, rfl⟩
  | @snoc later s t a outputs before step ih =>
    obtain ⟨flags, left⟩ := ih fun mo mem ↦ unset mo (List.mem_append_left _ mem)
    have now := unset _ (List.mem_append_right _ (List.mem_singleton_self _))
    rw [List.filterMap_append, List.filterMap_cons, List.filterMap_nil]
    rcases countdown_of_step step now with ⟨none_decided, same⟩ | ⟨decided, less⟩
    · rw [none_decided, List.append_nil]
      exact ⟨flags, same.trans left⟩
    · have flag : decide (0 < s.egress.failNext) =
          decide ((later.filterMap scripted?).length < x.egress.failNext) := by
        rw [left, decide_eq_decide]
        exact Nat.sub_pos_iff_lt
      rw [decided, flag, List.length_append, List.length_singleton, List.range_succ,
        List.map_append, ← flags]
      refine ⟨rfl, less.trans ?_⟩
      rw [left, Nat.sub_sub]

/-! ## The accounts -/

/-- What the history of an egress point says about its counters and its records. -/
structure Accounted (target : String) (past : List (Moment Depot Deed Notice)) (x : Depot) :
    Prop where
  /-- The attempts are those that were recorded, rejected and turned away, and those under way. -/
  attempts : x.egress.attempts = x.egress.published.length +
    (Moment.told past).countP Notice.isRejection + (Moment.told past).countP Notice.isClosed +
    x.egress.pending.length
  /-- A publish is under way once, from its beginning until it returns. -/
  underWay : ∀ call m, (∃ p ∈ x.egress.pending, p.call = call ∧ p.message = m) ↔
    .begun call m ∈ Moment.told past ∧ ∀ answer, .answered call answer ∉ Moment.told past
  once : (x.egress.pending.map PendingPublish.call).Nodup
  /-- As soon as its delay is over it can be decided. -/
  decidable : ∀ p ∈ x.egress.pending, p.due ≤ x.now → (x.step? (.decide p.call)).isSome
  /-- It has one message. -/
  message : ∀ call m m', .begun call m ∈ Moment.told past → .begun call m' ∈ Moment.told past →
    m' = m
  /-- It returns at most once. -/
  answer : ∀ call, (Moment.told past).countP (Notice.isAnswer call) ≤ 1
  /-- It returns without an error, or was rejected or turned away. -/
  error : ∀ call e, .answered call (.error e) ∈ Moment.told past →
    e = .closed ∨ e = .publish (target ++ " rejected the message")
  /-- The records are the messages of the publishes that returned without an error, one for each,
  in the order in which these were accepted. -/
  recorded : List.Forall₂ (fun call m ↦ .begun call m ∈ Moment.told past)
    (acceptances (Moment.told past)) x.egress.published
  accepted : ∀ call, call ∈ acceptances (Moment.told past) ↔
    .answered call (.ok ()) ∈ Moment.told past
  singly : (acceptances (Moment.told past)).Nodup
  /-- What was recorded at any earlier moment is still there, at the same place. -/
  kept : ∀ mo ∈ past, mo.before.egress.published <+: x.egress.published
  /-- After a script was set, and until it is set again, the publishes that are decided while not
  all are rejected are rejected in the number of the script, and then no more. -/
  script : ∀ earlier mo later n, past = earlier ++ mo :: later → mo.action = .failNext n →
    (∀ mo' ∈ later, mo'.action.script = none) →
    later.filterMap scripted? =
        (List.range (later.filterMap scripted?).length).map (fun i ↦ decide (i < n)) ∧
      x.egress.failNext = n - (later.filterMap scripted?).length
  /-- While all are rejected, the script stays as it is. -/
  forced : ∀ mo ∈ past, ∀ call, mo.action = .decide call → mo.before.egress.failAlways = true →
    mo.outputs = [.answered call (.error (.publish (target ++ " rejected the message")))] ∧
      mo.after.egress.failNext = mo.before.egress.failNext

/-- The name of a point never changes. -/
theorem target_of_exec (exec : Execution step? x later y) : y.egress.target = x.egress.target := by
  induction exec with
  | refl => rfl
  | snoc _ step ih =>
    refine Eq.trans ?_ ih
    have step := step_of_step? step
    induction step with
    | turnedAway _ => rfl
    | begun _ => rfl
    | decided _ _ decided => exact decided.target
    | aside aside => exact aside.target

theorem rejection_of_runs (runs : Runs target past x) :
    x.egress.rejection = .publish (target ++ " rejected the message") := by
  rw [Egress.rejection, target_of_exec runs]
  rfl

/-- Where a publish stands says what has been noticed of it. -/
theorem Stands.mem_iff (stands : Stands told x call s) {n : Notice}
    (about : n.publish? = some call) : n ∈ told ↔ n ∈ s.tale call := by
  rw [Notice.mem_iff_mem_tale about, stands.tale]

theorem Sound.message {m m' : Message} (sound : Sound told x) (this : .begun call m ∈ told)
    (that : .begun call m' ∈ told) : m' = m := by
  obtain ⟨s, stands⟩ := sound.stands call
  rw [stands.mem_iff rfl] at this that
  cases s <;> simp_all [Standing.tale]

theorem Sound.answer (sound : Sound told x) (call : Nat) :
    told.countP (Notice.isAnswer call) ≤ 1 := by
  obtain ⟨s, stands⟩ := sound.stands call
  rw [Notice.countP_isAnswer, stands.tale]
  cases s <;> simp [Standing.tale, Notice.isAnswer]

theorem Sound.underWay (sound : Sound told x) (call : Nat) (m : Message) :
    (∃ p ∈ x.egress.pending, p.call = call ∧ p.message = m) ↔
      .begun call m ∈ told ∧ ∀ answer, .answered call answer ∉ told := by
  obtain ⟨s, stands⟩ := sound.stands call
  have answers (answer : Except BusError Unit) :
      .answered call answer ∉ told ↔ .answered call answer ∉ s.tale call :=
    not_congr (stands.mem_iff rfl)
  rw [stands.pending, stands.mem_iff rfl, forall_congr' answers]
  cases s with
  | unborn => simp [Standing.tale]
  | underWay m' => simp [Standing.tale, eq_comm]
  | returned m' answer => simp [Standing.tale]

/-- A publish that returned without an error did so once. -/
theorem Sound.nodup_acceptances (sound : Sound told x) : (acceptances told).Nodup := by
  rw [List.nodup_iff_count_le_one]
  intro call
  refine Nat.le_trans ?_ (sound.answer call)
  rw [List.count, acceptances, List.countP_filterMap]
  refine List.countP_mono_left fun n _ own ↦ ?_
  cases n with
  | answered c answer =>
    cases answer with
    | ok _ => simpa [Notice.accepted?, Notice.isAnswer] using own
    | error _ => cases own
  | begun _ _ | awaited _ _ | released _ _ => cases own

theorem error_of_step {e : BusError} (step : x.step? a = some (y, outputs))
    (answered : .answered call (.error e) ∈ outputs) : e = .closed ∨ e = x.egress.rejection := by
  have step := step_of_step? step
  induction step with
  | turnedAway _ =>
    simp at answered
    exact .inl answered.2
  | begun _ => simp at answered
  | decided _ _ decided =>
    cases decided with
    | forced _ | scripted _ _ =>
      simp at answered
      exact .inr answered.2
    | accepted _ _ => simp at answered
  | aside aside =>
    have silent := aside.silent _ answered
    cases silent

/-- A publish that is decided while all are rejected is rejected, and not by the script. -/
theorem forced_of_step (step : x.step? (.decide call) = some (y, outputs))
    (always : x.egress.failAlways = true) :
    outputs = [.answered call (.error x.egress.rejection)] ∧
      y.egress.failNext = x.egress.failNext := by
  have step := step_of_step? step
  cases step with
  | decided _ _ decided =>
    cases decided with
    | forced _ => exact ⟨rfl, rfl⟩
    | scripted seldom _ | accepted seldom _ => simp [always] at seldom
  | aside aside => cases aside.other

/-- A publish whose delay is over can be decided. -/
theorem Sound.isSome_decide (sound : Sound told x) {p : PendingPublish}
    (mem : p ∈ x.egress.pending) (due : p.due ≤ x.now) :
    (x.step? (.decide p.call)).isSome := by
  cases found : x.egress.pending? p.call with
  | none =>
    have missing := List.find?_eq_none.mp found p mem
    simp at missing
  | some q =>
    obtain ⟨there, same⟩ := Egress.mem_pending_of_pending? found
    obtain rfl := List.inj_on_of_nodup_map sound.once there mem same
    simp [step?, found, due, Egress.isSome_decide? found]

/-- **The counters, the records and the answers of an egress point agree in every state**: each
publish is under way, recorded, rejected or turned away, records come from acceptances and stay,
and a script of `n` rejections rejects the next `n` publishes that are decided by it. -/
theorem accounts (runs : Runs target past x) : Accounted target past x := by
  have sound := sound_of_runs runs
  refine {
    attempts := balanced_of_runs runs
    underWay := sound.underWay
    once := sound.once
    decidable := fun p mem due ↦ sound.isSome_decide mem due
    message := fun call m m' this that ↦ sound.message this that
    answer := sound.answer
    error := ?_
    recorded := recorded_of_runs runs
    accepted := fun _ ↦ Notice.mem_acceptances
    singly := sound.nodup_acceptances
    kept := ?_
    script := ?_
    forced := ?_ }
  · intro call e answered
    obtain ⟨mo, mem, told⟩ := Moment.mem_told.mp answered
    obtain ⟨earlier, later, -, before, step, -⟩ := runs.at_moment mem
    rw [← rejection_of_runs before]
    exact error_of_step step told
  · intro mo mem
    obtain ⟨earlier, later, -, -, step, after⟩ := runs.at_moment mem
    exact (prefix_of_step step).trans (prefix_of_exec after)
  · rintro earlier mo later n rfl set unset
    obtain ⟨-, step, after⟩ := runs.at_split
    rw [set] at step
    obtain ⟨reset, -⟩ := Prod.mk.inj (Option.some.inj step)
    rw [← reset] at after
    exact countdown_of_exec after unset
  · intro mo mem call decides always
    obtain ⟨earlier, later, -, before, step, -⟩ := runs.at_moment mem
    rw [decides] at step
    rw [← rejection_of_runs before]
    exact forced_of_step step always

/-- Three publishes at a slow point. The second and the third are decided before the first, which is
the only one to be recorded: the script has been used up by then. A fourth comes after the point was
closed. -/
theorem accounts_of_script :
    ∃ (past : List (Moment Depot Deed Notice)) (x : Depot), Runs "out" past x ∧
      Accounted "out" past x ∧ x.egress.attempts = 4 ∧ x.egress.published.length = 1 ∧
        acceptances (Moment.told past) = [0] ∧ (Moment.told past).countP Notice.isRejection = 2 ∧
        (Moment.told past).countP Notice.isClosed = 1 ∧ x.egress.pending.length = 0 := by
  have runs := (Execution.refl : Runs "out" [] (ofName "out"))
    |>.snoc (a := .setDelay 10) rfl
    |>.snoc (a := .publish ⟨"x".toUTF8, []⟩) rfl
    |>.snoc (a := .publish ⟨"y".toUTF8, []⟩) rfl
    |>.snoc (a := .publish ⟨"z".toUTF8, []⟩) rfl
    |>.snoc (a := .failNext 2) rfl
    |>.snoc (a := .pass 10) rfl
    |>.snoc (a := .decide 1) rfl
    |>.snoc (a := .close) rfl
    |>.snoc (a := .decide 2) rfl
    |>.snoc (a := .publish ⟨"x".toUTF8, []⟩) rfl
    |>.snoc (a := .decide 0) rfl
  exact ⟨_, _, runs, accounts runs, rfl, rfl, rfl, rfl, rfl, rfl⟩

end Depot

end MessageBridge.Memory
