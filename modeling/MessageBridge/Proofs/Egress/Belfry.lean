import Mathlib.Logic.Function.Basic
import MessageBridge.Proofs.Egress.Timely

/-!
# Egress points with a bell

At a point a call for records looks and begins to wait in one step, and the step in which a publish
is accepted is the one in which it returns. Here these are taken apart, and anything may come
between two steps of one call. A publish that is accepted first records its message, then rings a
bell, and then returns. A call for records first listens, then looks, and sleeps if there are too
few records. It wakes by any ring since it began to listen, listens anew, and looks again.

Because a call listens before it looks, no record is missed: one that comes before the look is seen,
and the ring for one that comes after it is heard (`Belfry.Wakeful`). So a call whose number is
reached can always go on to return, whatever the schedule (`Belfry.Returns`), and it is answered
rightly and in time if time passes only while nobody has anything to do (`Belfry.Unmissed`).
-/

namespace MessageBridge.Memory

open Notice (acceptances)

/-! ## The machine -/

/-- What a call for records does next. -/
inductive Stance where
  /-- It will listen. -/
  | arriving
  /-- It began to listen after so many rings, and will look. -/
  | listening (since : Nat)
  /-- It began to listen after so many rings, found too few records, and sleeps. -/
  | asleep (since : Nat)

/-- The number of rings before a call began to listen. -/
def Stance.since? : Stance → Option Nat
  | .arriving => none
  | .listening since | .asleep since => some since

/-- A call for records that has not returned. -/
structure Watcher where
  /-- What it waits for. -/
  wait : PendingWait
  /-- What it does next. -/
  stance : Stance

/-- An egress point, a clock and a bell. -/
structure Belfry where
  /-- The point and the clock. -/
  depot : Depot
  /-- The number of rings. -/
  rings : Nat
  /-- The publishes that have recorded their message and not rung. -/
  ringers : List Nat
  /-- The calls for records that have not returned, by their names. -/
  watchers : Nat → Option Watcher

/-- Each acceptance adds a record, and nothing else does. -/
theorem Depot.records_of_step {x y : Depot} {a : Deed} {outputs : List Notice}
    (step : x.step? a = some (y, outputs)) :
    y.records = x.records + (acceptances outputs).length := by
  have step := step_of_step? step
  induction step with
  | turnedAway _ => rfl
  | begun _ => rfl
  | decided _ _ decided =>
    cases decided with
    | forced _ | scripted _ _ => rfl
    | accepted _ _ => exact List.length_append
  | aside aside =>
    rw [aside.acceptances, records, aside.published]
    rfl

/-- A deed that is not about calls for records ends none of them. -/
theorem Depot.silent_of_step {x y : Depot} {a : Deed} {outputs : List Notice}
    (not_waits : a.waits = false) (step : x.step? a = some (y, outputs)) (call : Nat) (b : Bool) :
    .released call b ∉ outputs := by
  cases waiting_of_step step with
  | other _ _ _ _ silent _ => exact silent call b
  | passes => exact List.not_mem_nil
  | found _ | began _ | reached _ _ | late _ _ => cases not_waits

theorem Depot.calls_le_of_step {x y : Depot} {a : Deed} {outputs : List Notice}
    (step : x.step? a = some (y, outputs)) : x.calls ≤ y.calls := by
  cases step_of_step? step with
  | turnedAway _ | begun _ => exact Nat.le_succ _
  | decided _ _ _ => exact Nat.le_refl _
  | aside aside => exact aside.calls

namespace Belfry

/-- What can happen. -/
inductive Act where
  /-- Something that is not about calls for records. -/
  | deed (a : Deed)
  /-- A publish rings the bell and returns. -/
  | ring (call : Nat)
  /-- Someone waits for a number of records. -/
  | await (count timeout : Nat)
  /-- A call begins to listen. -/
  | listen (call : Nat)
  /-- A call looks. -/
  | look (call : Nat)
  /-- A call wakes. -/
  | wake (call : Nat)
  /-- A call gives up. -/
  | giveUp (call : Nat)

/-- Whether someone who is there already goes on. -/
def Act.goesOn : Act → Bool
  | .deed _ | .await .. => false
  | .ring _ | .listen _ | .look _ | .wake _ | .giveUp _ => true

/-- A new point. -/
def ofName (target : String) : Belfry := ⟨.ofName target, 0, [], fun _ ↦ none⟩

/-- A call goes on, or has returned. -/
def put (call : Nat) (v : Option Watcher) (x : Belfry) : Belfry :=
  { x with watchers := Function.update x.watchers call v }

/-- The point after an act, and what was noticed of it; `none` if the act cannot happen. -/
def step? (x : Belfry) : Act → Option (Belfry × List Notice)
  | .deed a =>
    if a.waits then none
    else
      -- a publish that is accepted returns when it has rung
      (x.depot.step? a).map fun (depot, outputs) ↦
        ({ x with depot, ringers := x.ringers ++ acceptances outputs },
          outputs.filter fun n ↦ n.accepted?.isNone)
  | .ring call =>
    if call ∈ x.ringers then
      some ({ x with rings := x.rings + 1, ringers := x.ringers.erase call },
        [.answered call (.ok ())])
    else none
  | .await count timeout =>
    let call := x.depot.calls
    let x' := { x with depot := { x.depot with calls := call + 1 } }
    some (x'.put call (some ⟨x.depot.wait count timeout, .arriving⟩), [.awaited call count])
  | .listen call =>
    match x.watchers call with
    | some ⟨w, .arriving⟩ => some (x.put call (some ⟨w, .listening x.rings⟩), [])
    | _ => none
  | .look call =>
    match x.watchers call with
    | some ⟨w, .listening since⟩ =>
      if w.count ≤ x.depot.records then some (x.put call none, [.released call true])
      else some (x.put call (some ⟨w, .asleep since⟩), [])
    | _ => none
  | .wake call =>
    match x.watchers call with
    | some ⟨w, .asleep since⟩ =>
      if since < x.rings then some (x.put call (some ⟨w, .arriving⟩), []) else none
    | _ => none
  | .giveUp call =>
    match x.watchers call with
    | some ⟨w, .asleep _⟩ =>
      if w.due ≤ x.depot.now then some (x.put call none, [.released call false]) else none
    | _ => none

/-- The histories of a new point, with the state that each has led to. -/
abbrev Runs (target : String) (past : List (Moment Belfry Act Notice)) (x : Belfry) : Prop :=
  Execution step? (ofName target) past x

variable {x y : Belfry} {a : Act} {outputs : List Notice} {target : String} {call since : Nat}
  {w : PendingWait} {v : Watcher} {past later : List (Moment Belfry Act Notice)}

/-- What one act does, by what comes of it. -/
inductive Step (x : Belfry) : Act → Belfry → List Notice → Prop where
  | deed {a : Deed} {depot : Depot} {outputs : List Notice} : a.waits = false →
      x.depot.step? a = some (depot, outputs) →
      Step x (.deed a) { x with depot, ringers := x.ringers ++ acceptances outputs }
        (outputs.filter fun n ↦ n.accepted?.isNone)
  | rang {call : Nat} : call ∈ x.ringers →
      Step x (.ring call) { x with rings := x.rings + 1, ringers := x.ringers.erase call }
        [.answered call (.ok ())]
  | began {count timeout : Nat} :
      Step x (.await count timeout)
        { x with
          depot := { x.depot with calls := x.depot.calls + 1 }
          watchers := Function.update x.watchers x.depot.calls
            (some ⟨x.depot.wait count timeout, .arriving⟩) }
        [.awaited x.depot.calls count]
  | listens {call : Nat} {w : PendingWait} : x.watchers call = some ⟨w, .arriving⟩ →
      Step x (.listen call) (x.put call (some ⟨w, .listening x.rings⟩)) []
  | finds {call : Nat} {w : PendingWait} {since : Nat} :
      x.watchers call = some ⟨w, .listening since⟩ → w.count ≤ x.depot.records →
      Step x (.look call) (x.put call none) [.released call true]
  | sleeps {call : Nat} {w : PendingWait} {since : Nat} :
      x.watchers call = some ⟨w, .listening since⟩ → x.depot.records < w.count →
      Step x (.look call) (x.put call (some ⟨w, .asleep since⟩)) []
  | wakes {call : Nat} {w : PendingWait} {since : Nat} :
      x.watchers call = some ⟨w, .asleep since⟩ → since < x.rings →
      Step x (.wake call) (x.put call (some ⟨w, .arriving⟩)) []
  | tires {call : Nat} {w : PendingWait} {since : Nat} :
      x.watchers call = some ⟨w, .asleep since⟩ → w.due ≤ x.depot.now →
      Step x (.giveUp call) (x.put call none) [.released call false]

theorem step_of_step? (step : x.step? a = some (y, outputs)) : x.Step a y outputs := by
  unfold step? at step
  cases a with
  | deed a =>
    dsimp only at step
    split at step
    · cases step
    · rename_i not_waits
      obtain ⟨⟨depot, told⟩, done, same⟩ := Option.map_eq_some_iff.mp step
      cases same
      exact .deed (Bool.eq_false_iff.mpr not_waits) done
  | ring call =>
    dsimp only at step
    split at step
    · rename_i mem
      cases step
      exact .rang mem
    · cases step
  | await count timeout =>
    cases step
    exact .began
  | listen call =>
    dsimp only at step
    split at step
    · rename_i w found
      cases step
      exact .listens found
    · cases step
  | look call =>
    dsimp only at step
    split at step
    · rename_i w since found
      split at step
      · rename_i enough
        cases step
        exact .finds found enough
      · rename_i few
        cases step
        exact .sleeps found (Nat.lt_of_not_le few)
    · cases step
  | wake call =>
    dsimp only at step
    split at step
    · rename_i w since found
      split at step
      · rename_i rung
        cases step
        exact .wakes found rung
      · cases step
    · cases step
  | giveUp call =>
    dsimp only at step
    split at step
    · rename_i w since found
      split at step
      · rename_i late
        cases step
        exact .tires found late
      · cases step
    · cases step

theorem put_self (call : Nat) (v : Option Watcher) (x : Belfry) :
    (x.put call v).watchers call = v := Function.update_self ..

theorem put_of_ne {other : Nat} (ne : other ≠ call) (v : Option Watcher) (x : Belfry) :
    (x.put call v).watchers other = x.watchers other := Function.update_of_ne ne ..

theorem put_put (call : Nat) (u v : Option Watcher) (x : Belfry) :
    (x.put call u).put call v = x.put call v :=
  congrArg (fun watchers ↦ { x with watchers }) (Function.update_idem ..)

theorem step?_ring (mem : call ∈ x.ringers) :
    x.step? (.ring call) = some
      ({ x with rings := x.rings + 1, ringers := x.ringers.erase call },
        [.answered call (.ok ())]) := if_pos mem

theorem step?_listen (found : x.watchers call = some ⟨w, .arriving⟩) :
    x.step? (.listen call) = some (x.put call (some ⟨w, .listening x.rings⟩), []) := by
  simp only [step?, found]

theorem step?_look_of_enough (found : x.watchers call = some ⟨w, .listening since⟩)
    (enough : w.count ≤ x.depot.records) :
    x.step? (.look call) = some (x.put call none, [.released call true]) := by
  simp only [step?, found, if_pos enough]

theorem step?_look_of_few (found : x.watchers call = some ⟨w, .listening since⟩)
    (few : x.depot.records < w.count) :
    x.step? (.look call) = some (x.put call (some ⟨w, .asleep since⟩), []) := by
  simp only [step?, found, if_neg (Nat.not_le.mpr few)]

theorem step?_wake (found : x.watchers call = some ⟨w, .asleep since⟩) (rung : since < x.rings) :
    x.step? (.wake call) = some (x.put call (some ⟨w, .arriving⟩), []) := by
  simp only [step?, found, if_pos rung]

theorem step?_giveUp (found : x.watchers call = some ⟨w, .asleep since⟩)
    (late : w.due ≤ x.depot.now) :
    x.step? (.giveUp call) = some (x.put call none, [.released call false]) := by
  simp only [step?, found, if_pos late]

/-! ## No ring is missed -/

/-- A call is awake to what happens: if it sleeps although its number is reached, then it was rung
or will be. -/
structure Alert (x : Belfry) (call : Nat) (v : Watcher) : Prop where
  begun : call < x.depot.calls
  since_le : ∀ since, v.stance.since? = some since → since ≤ x.rings
  rung : ∀ since, v.stance = .asleep since → v.wait.count ≤ x.depot.records →
    since < x.rings ∨ x.ringers ≠ []

/-- All calls are awake to what happens. -/
def Wakeful (x : Belfry) : Prop := ∀ call v, x.watchers call = some v → x.Alert call v

/-- Whoever records a message rings the bell later, and a ring reaches everyone who listened
before. -/
theorem Alert.mono (alert : x.Alert call v) (calls : x.depot.calls ≤ y.depot.calls)
    (rings : x.rings ≤ y.rings)
    (heard : y.depot.records = x.depot.records ∧ y.ringers = x.ringers ∨
      x.rings < y.rings ∨ y.ringers ≠ []) : y.Alert call v := by
  refine ⟨Nat.lt_of_lt_of_le alert.begun calls, fun since listens ↦ ?_,
    fun since sleeps enough ↦ ?_⟩
  · exact Nat.le_trans (alert.since_le since listens) rings
  · rcases heard with ⟨records, ringers⟩ | rang | owed
    · rw [ringers]
      rw [records] at enough
      exact (alert.rung since sleeps enough).imp_left (Nat.lt_of_lt_of_le · rings)
    · have before := alert.since_le since (by rw [sleeps]; rfl)
      exact .inl (Nat.lt_of_le_of_lt before rang)
    · exact .inr owed

/-- When one call goes on, the others are as awake as before. -/
theorem Wakeful.put (wakeful : x.Wakeful) {v : Option Watcher}
    (alert : ∀ v', v = some v' → x.Alert call v') : (x.put call v).Wakeful := by
  intro other v' found
  suffices there : x.Alert other v' from ⟨there.begun, there.since_le, there.rung⟩
  by_cases same : other = call
  · subst same
    rw [put_self] at found
    exact alert v' found
  · rw [put_of_ne same] at found
    exact wakeful other v' found

theorem Wakeful.step (wakeful : x.Wakeful) (step : x.step? a = some (y, outputs)) :
    y.Wakeful := by
  cases step_of_step? step with
  | @deed a depot outputs not_waits done =>
    intro call v found
    refine (wakeful call v found).mono (Depot.calls_le_of_step done) (Nat.le_refl _) ?_
    have records := Depot.records_of_step done
    cases accepted : acceptances outputs with
    | nil =>
      rw [accepted] at records
      exact .inl ⟨records, List.append_nil _⟩
    | cons _ _ => exact .inr (.inr (by simp))
  | rang _ =>
    intro call v found
    have rang := Nat.lt_succ_self x.rings
    exact (wakeful call v found).mono (Nat.le_refl _) (Nat.le_succ _) (.inr (.inl rang))
  | @began count timeout =>
    have others : Wakeful { x with depot := { x.depot with calls := x.depot.calls + 1 } } :=
      fun call v found ↦
        (wakeful call v found).mono (Nat.le_succ _) (Nat.le_refl _) (.inl ⟨rfl, rfl⟩)
    refine others.put fun v own ↦ ?_
    cases own
    exact ⟨Nat.lt_succ_self _, nofun, nofun⟩
  | listens found =>
    refine wakeful.put fun v own ↦ ?_
    cases own
    refine ⟨(wakeful _ _ found).begun, fun since listens ↦ ?_, nofun⟩
    cases listens
    exact Nat.le_refl _
  | finds found enough => exact wakeful.put nofun
  | sleeps found few =>
    have alert := wakeful _ _ found
    refine wakeful.put fun v own ↦ ?_
    cases own
    exact ⟨alert.begun, alert.since_le, fun _ _ enough ↦ absurd enough (Nat.not_le.mpr few)⟩
  | wakes found rung =>
    refine wakeful.put fun v own ↦ ?_
    cases own
    exact ⟨(wakeful _ _ found).begun, nofun, nofun⟩
  | tires found late => exact wakeful.put nofun

theorem Wakeful.exec (wakeful : x.Wakeful) (exec : Execution step? x later y) : y.Wakeful :=
  exec.invariant wakeful Wakeful.step

theorem wakeful_ofName (target : String) : (ofName target).Wakeful := nofun

theorem wakeful_of_runs (runs : Runs target past x) : x.Wakeful :=
  (wakeful_ofName target).exec runs

/-! ## A call can go on to return -/

/-- A call can return this without anything new happening: all it takes is that it goes on, and
perhaps that a publish rings the bell. -/
def Returns (call : Nat) (b : Bool) (x : Belfry) : Prop :=
  ∃ more y, Execution step? x more y ∧ (∀ mo ∈ more, mo.action.goesOn = true) ∧
    .released call b ∈ Moment.told more

variable {b : Bool}

theorem Returns.of_step (step : x.step? a = some (y, outputs)) (goes_on : a.goesOn = true)
    (returns : y.Returns call b) : x.Returns call b := by
  obtain ⟨more, z, exec, own, told⟩ := returns
  refine ⟨_, z, (Execution.refl.snoc step).trans exec, ?_, ?_⟩
  · intro mo mem
    rcases List.mem_append.mp mem with first | rest
    · cases List.mem_singleton.mp first
      exact goes_on
    · exact own mo rest
  · rw [Moment.told_append]
    exact List.mem_append_right _ told

theorem returns_of_told (step : x.step? a = some (y, outputs)) (goes_on : a.goesOn = true)
    (told : .released call b ∈ outputs) : x.Returns call b := by
  refine ⟨_, y, Execution.refl.snoc step, ?_, ?_⟩
  · intro mo mem
    cases List.mem_singleton.mp mem
    exact goes_on
  · rw [List.nil_append, Moment.told_singleton]
    exact told

theorem returns_of_listening (found : x.watchers call = some ⟨w, .listening since⟩)
    (enough : w.count ≤ x.depot.records) : x.Returns call true :=
  returns_of_told (step?_look_of_enough found enough) rfl (List.mem_singleton_self _)

theorem returns_of_arriving (found : x.watchers call = some ⟨w, .arriving⟩)
    (enough : w.count ≤ x.depot.records) : x.Returns call true :=
  (returns_of_listening (put_self ..) enough).of_step (step?_listen found) rfl

theorem returns_of_rung (found : x.watchers call = some ⟨w, .asleep since⟩)
    (rung : since < x.rings) (enough : w.count ≤ x.depot.records) : x.Returns call true :=
  (returns_of_arriving (put_self ..) enough).of_step (step?_wake found rung) rfl

/-- **No ring is missed.** Whatever has happened, a call whose number is reached can go on to return
`true`. -/
theorem Wakeful.returns_of_enough (wakeful : x.Wakeful) (found : x.watchers call = some v)
    (enough : v.wait.count ≤ x.depot.records) : x.Returns call true := by
  have alert := wakeful call v found
  obtain ⟨w, stance⟩ := v
  cases stance with
  | arriving => exact returns_of_arriving found enough
  | listening since => exact returns_of_listening found enough
  | asleep since =>
    rcases alert.rung since rfl enough with rung | owed
    · exact returns_of_rung found rung enough
    · obtain ⟨ringer, mem⟩ := List.exists_mem_of_ne_nil _ owed
      refine Returns.of_step (step?_ring mem) rfl (returns_of_rung found ?_ enough)
      exact Nat.lt_succ_of_le (alert.since_le since rfl)

theorem returns_of_asleep (found : x.watchers call = some ⟨w, .asleep since⟩)
    (late : w.due ≤ x.depot.now) : x.Returns call false :=
  returns_of_told (step?_giveUp found late) rfl (List.mem_singleton_self _)

theorem returns_of_few (found : x.watchers call = some ⟨w, .listening since⟩)
    (few : x.depot.records < w.count) (late : w.due ≤ x.depot.now) : x.Returns call false :=
  (returns_of_asleep (put_self ..) late).of_step (step?_look_of_few found few) rfl

/-- A call whose time is over can go on to return. -/
theorem Wakeful.returns_of_late (wakeful : x.Wakeful) (found : x.watchers call = some v)
    (late : v.wait.due ≤ x.depot.now) : ∃ b, x.Returns call b := by
  rcases Nat.lt_or_ge x.depot.records v.wait.count with few | enough
  · refine ⟨false, ?_⟩
    obtain ⟨w, stance⟩ := v
    cases stance with
    | arriving => exact (returns_of_few (put_self ..) few late).of_step (step?_listen found) rfl
    | listening since => exact returns_of_few found few late
    | asleep since => exact returns_of_asleep found late
  · exact ⟨true, wakeful.returns_of_enough found enough⟩

/-! ## Calls in several steps -/

variable {start count timeout : Nat} {earlier : List (Moment Belfry Act Notice)}
  {mo : Moment Belfry Act Notice}

/-- A call has not returned, and sleeps only if there were not as many records when it began. -/
def Waits (w : PendingWait) (start : Nat) (x : Belfry) : Prop :=
  start ≤ x.depot.records ∧ ∃ stance, x.watchers w.call = some ⟨w, stance⟩ ∧
    ∀ since, stance = .asleep since → start < w.count

/-- A call has begun and returned. -/
def Gone (w : PendingWait) (x : Belfry) : Prop :=
  w.call < x.depot.calls ∧ x.watchers w.call = none

/-- When another call goes on, a call waits as before. -/
theorem Waits.put_of_ne (waits : x.Waits w start) (other : call ≠ w.call) (v : Option Watcher) :
    (x.put call v).Waits w start := by
  obtain ⟨grown, stance, found, asleep⟩ := waits
  exact ⟨grown, stance, (Belfry.put_of_ne other.symm v x).trans found, asleep⟩

theorem Gone.put_of_ne (gone : x.Gone w) (other : call ≠ w.call) (v : Option Watcher) :
    (x.put call v).Gone w :=
  ⟨gone.1, (Belfry.put_of_ne other.symm v x).trans gone.2⟩

theorem Waits.put_self (waits : x.Waits w start) {stance : Stance}
    (asleep : ∀ since, stance = .asleep since → start < w.count) :
    (x.put w.call (some ⟨w, stance⟩)).Waits w start :=
  ⟨waits.1, stance, Belfry.put_self .., asleep⟩

/-- A call that goes on does so in a step of its own. -/
theorem tended_of_put {u : Option Watcher}
    (silent : call ≠ w.call → ∀ b, .released w.call b ∉ outputs)
    (found : x.watchers call = some v)
    (own : ∀ stance, call = w.call → v = ⟨w, stance⟩ → x.Waits w start →
      Turn depot w start (Waits w start) (Gone w) x (x.put call u) outputs) :
    Tended depot w start (Waits w start) (Gone w) x (x.put call u) outputs := by
  refine ⟨fun waits ↦ ?_, fun gone ↦ ?_, .inl ⟨rfl, Nat.le_refl _⟩⟩
  · by_cases same : call = w.call
    · obtain ⟨stance, there, -⟩ := waits.2
      refine own stance same ?_ waits
      rw [← same, found] at there
      exact Option.some.inj there
    · exact .waits (waits.put_of_ne same u) (silent same)
  · have other : call ≠ w.call := by
      rintro rfl
      rw [gone.2] at found
      cases found
    exact ⟨gone.put_of_ne other u, silent other⟩

theorem Wakeful.tended (wakeful : x.Wakeful) (step : x.step? a = some (y, outputs)) :
    Tended depot w start (Waits w start) (Gone w) x y outputs := by
  cases step_of_step? step with
  | @deed a depot outputs not_waits done =>
    have later := Depot.calls_le_of_step done
    have silent : ∀ b, .released w.call b ∉ outputs.filter fun n ↦ n.accepted?.isNone :=
      fun b mem ↦ Depot.silent_of_step not_waits done w.call b (List.mem_of_mem_filter mem)
    have steady := Depot.steady_of_step done
    refine ⟨fun waits ↦ ?_, fun gone ↦ ?_, steady.imp_right ?_⟩
    · refine .waits ⟨Nat.le_trans waits.1 ?_, waits.2⟩ silent
      rw [Depot.records_of_step done]
      exact Nat.le_add_right _ _
    · exact ⟨⟨Nat.lt_of_lt_of_le gone.1 later, gone.2⟩, silent⟩
    · rintro ⟨now, records, rfl⟩
      exact ⟨now, records, rfl⟩
  | rang _ => exact ⟨fun waits ↦ .waits waits (by simp), fun gone ↦ ⟨gone, by simp⟩,
      .inl ⟨rfl, Nat.le_refl _⟩⟩
  | @began count timeout =>
    refine ⟨fun waits ↦ ?_, fun gone ↦ ?_, .inl ⟨rfl, Nat.le_refl _⟩⟩
    · obtain ⟨grown, stance, found, asleep⟩ := waits
      -- the new call has a new number
      have other := Nat.ne_of_lt (wakeful _ _ found).begun
      exact .waits ⟨grown, stance, (Function.update_of_ne other ..).trans found, asleep⟩ (by simp)
    · have other := Nat.ne_of_lt gone.1
      refine ⟨⟨Nat.lt_succ_of_lt gone.1, ?_⟩, by simp⟩
      exact (Function.update_of_ne other ..).trans gone.2
  | listens found | wakes found _ =>
    refine tended_of_put (fun _ ↦ nofun) found ?_
    rintro stance rfl ⟨⟩ waits
    exact .waits (waits.put_self nofun) nofun
  | sleeps found few =>
    refine tended_of_put (fun _ ↦ nofun) found ?_
    rintro stance rfl ⟨⟩ waits
    exact .waits (waits.put_self fun _ _ ↦ Nat.lt_of_le_of_lt waits.1 few) nofun
  | finds found enough =>
    refine tended_of_put (fun other ↦ by simp [other.symm]) found ?_
    rintro stance rfl ⟨⟩ waits
    exact .reached ⟨(wakeful _ _ found).begun, put_self ..⟩ enough rfl
  | tires found late =>
    refine tended_of_put (fun other ↦ by simp [other.symm]) found ?_
    rintro stance rfl ⟨⟩ waits
    obtain ⟨stance, there, asleep⟩ := waits.2
    rw [found] at there
    cases there
    exact .late ⟨(wakeful _ _ found).begun, put_self ..⟩ late (asleep _ rfl) rfl

theorem tended_of_exec (wakeful : x.Wakeful) (exec : Execution step? x later y) :
    ∀ mo ∈ later,
      Tended depot w start (Waits w start) (Gone w) mo.before mo.after mo.outputs := by
  intro mo mem
  obtain ⟨_, _, -, until_then, this, -⟩ := exec.at_moment mem
  exact (wakeful.exec until_then).tended this

/-- Nobody who is there already can go on, and nobody could give up if so much time passed. -/
def AtRest (x : Belfry) (millis : Nat) : Prop :=
  (∀ a : Act, a.goesOn = true → x.step? a = none) ∧
    ∀ call v, x.watchers call = some v → x.depot.now + millis ≤ v.wait.due

/-- Everybody is at rest if nobody has yet to ring, and all calls sleep unrung and in time. -/
theorem atRest_iff {millis : Nat} : x.AtRest millis ↔ x.ringers = [] ∧
    ∀ call v, x.watchers call = some v →
      (∃ since, v.stance = .asleep since ∧ x.rings ≤ since) ∧
        x.depot.now < v.wait.due ∧ x.depot.now + millis ≤ v.wait.due := by
  constructor
  · rintro ⟨idle, early⟩
    -- whoever is not as described could go on
    have stuck {a : Act} {r : Belfry × List Notice} (goes_on : a.goesOn = true) :
        x.step? a ≠ some r := fun step ↦ by
      rw [idle a goes_on] at step
      cases step
    refine ⟨List.eq_nil_iff_forall_not_mem.mpr fun ringer mem ↦ ?_, fun call v found ↦ ?_⟩
    · exact stuck rfl (step?_ring mem)
    · obtain ⟨w, stance⟩ := v
      cases stance with
      | arriving => exact absurd (step?_listen found) (stuck rfl)
      | listening since =>
        rcases Nat.lt_or_ge x.depot.records w.count with few | enough
        · exact absurd (step?_look_of_few found few) (stuck rfl)
        · exact absurd (step?_look_of_enough found enough) (stuck rfl)
      | asleep since =>
        refine ⟨⟨since, rfl, Nat.le_of_not_lt fun rung ↦ ?_⟩, Nat.lt_of_not_le fun late ↦ ?_,
          early call _ found⟩
        · exact stuck rfl (step?_wake found rung)
        · exact stuck rfl (step?_giveUp found late)
  · rintro ⟨silent, asleep⟩
    refine ⟨fun a goes_on ↦ ?_, fun call v found ↦ (asleep call v found).2.2⟩
    by_contra possible
    obtain ⟨⟨y, outputs⟩, step⟩ := Option.ne_none_iff_exists'.mp possible
    cases step_of_step? step with
    | deed _ _ | began => cases goes_on
    | rang mem =>
      rw [silent] at mem
      cases mem
    | listens found | finds found _ | sleeps found _ =>
      obtain ⟨⟨_, sleeps, -⟩, -⟩ := asleep _ _ found
      cases sleeps
    | wakes found rung =>
      obtain ⟨⟨_, sleeps, unrung⟩, -⟩ := asleep _ _ found
      cases sleeps
      exact Nat.not_lt.mpr unrung rung
    | tires found late =>
      obtain ⟨-, in_time, -⟩ := asleep _ _ found
      exact Nat.not_le.mpr in_time late

/-- Time passes only while everybody is at rest. -/
def Prompt (later : List (Moment Belfry Act Notice)) : Prop :=
  ∀ mo ∈ later, ∀ millis, mo.action = .deed (.pass millis) → mo.before.AtRest millis

/-- While nobody can go on, nobody can return. -/
theorem not_returns_of_rest (rest : ∀ a : Act, a.goesOn = true → x.step? a = none) :
    ¬ x.Returns call b := by
  rintro ⟨more, y, exec, own, told⟩
  cases more with
  | nil => cases told
  | cons mo more =>
    obtain ⟨rfl, step, -⟩ := exec.cons_inv
    rw [rest mo.action (own mo List.mem_cons_self)] at step
    cases step

theorem Wakeful.patient (wakeful : x.Wakeful) (step : x.step? a = some (y, outputs))
    (rest : ∀ millis, a = .deed (.pass millis) → x.AtRest millis) :
    Patient depot w (Waits w start) x y := by
  rintro ⟨-, stance, found, -⟩
  cases step_of_step? step with
  | deed _ done =>
    rcases Depot.time_of_step done with ⟨now, -⟩ | ⟨millis, rfl, rfl, -⟩
    · exact .inl now
    · obtain ⟨idle, early⟩ := rest millis rfl
      refine .inr ⟨Nat.lt_of_not_le fun enough ↦ ?_, early _ _ found⟩
      exact not_returns_of_rest idle (wakeful.returns_of_enough found enough)
  | _ => exact .inl rfl

theorem patient_of_exec (wakeful : x.Wakeful) (exec : Execution step? x later y)
    (prompt : Prompt later) :
    ∀ mo ∈ later, Patient depot w (Waits w start) mo.before mo.after := by
  intro mo mem
  obtain ⟨_, _, -, until_then, this, -⟩ := exec.at_moment mem
  exact (wakeful.exec until_then).patient this (prompt mo mem)

theorem waits_of_await (step : x.step? (.await count timeout) = some (y, outputs)) :
    y.Waits (x.depot.wait count timeout) x.depot.records := by
  cases step_of_step? step with
  | began => exact ⟨Nat.le_refl _, .arriving, Function.update_self .., nofun⟩

/-- A call begins. It waits, if only to look once. -/
theorem course_of_await (step : x.step? (.await count timeout) = some (y, outputs)) :
    Course depot (x.depot.wait count timeout)
      (Waits (x.depot.wait count timeout) x.depot.records) (Gone (x.depot.wait count timeout))
      ⟨x, Act.await count timeout, y, outputs⟩ [] y := by
  have waits := waits_of_await step
  cases step_of_step? step with
  | began =>
    refine .waiting waits ?_ (Nat.le_add_right _ _) fun t ↦ reached_nil
    simp [Moment.told]

/-- A call for records that began at `mo` misses no ring. -/
structure Unmissed (w : PendingWait) (mo : Moment Belfry Act Notice)
    (later : List (Moment Belfry Act Notice)) (x : Belfry) : Prop where
  /-- It returns `true` only if there are as many records. -/
  enough : ∀ mo' ∈ later, .released w.call true ∈ mo'.outputs →
    w.count ≤ mo'.before.depot.records
  /-- It returns `false` only if its time is over. -/
  late : ∀ mo' ∈ later, .released w.call false ∈ mo'.outputs → w.due ≤ mo'.before.depot.now
  /-- If its number is reached and it has not returned, it can go on to return `true` without
  anything new happening. -/
  wakes : (∀ b, .released w.call b ∉ Moment.told later) → w.count ≤ x.depot.records →
    x.Returns w.call true
  /-- If its time is over and it has not returned, it can go on to return. -/
  ends : (∀ b, .released w.call b ∉ Moment.told later) → w.due ≤ x.depot.now →
    ∃ b, x.Returns w.call b
  /-- If time passes only while everybody is at rest, it is answered rightly and in time. -/
  timely : Prompt later → Timely depot w mo later x

theorem unmissed_of_await (runs : Runs target (earlier ++ mo :: later) x)
    (awaits : mo.action = .await count timeout) :
    Unmissed (mo.before.depot.wait count timeout) mo later x := by
  obtain ⟨before, step, after⟩ := runs.at_split
  obtain ⟨s, _, s', outputs⟩ := mo
  subst awaits
  have wakeful : s'.Wakeful := wakeful_of_runs (before.snoc step)
  have stands {past : List (Moment Belfry Act Notice)} {z : Belfry}
      (exec : Execution step? s' past z) :=
    waits_or_gone (waits_of_await step) exec (tended_of_exec wakeful exec)
  have reason {b : Bool} : ∀ mo' ∈ later, .released s.depot.calls b ∈ mo'.outputs →
      if b then count ≤ mo'.before.depot.records
      else s.depot.now + timeout ≤ mo'.before.depot.now := by
    intro mo' mem told
    obtain ⟨_, _, -, until_then, -, -⟩ := after.at_moment mem
    have stands := (stands until_then).imp_right And.left
    exact (tended_of_exec wakeful after mo' mem).reason stands told
  have still_waits (silent : ∀ b, .released s.depot.calls b ∉ Moment.told later) :
      ∃ v, x.watchers s.depot.calls = some v ∧ v.wait = s.depot.wait count timeout := by
    rcases stands after with ⟨-, stance, found, -⟩ | ⟨-, b, told⟩
    · exact ⟨_, found, rfl⟩
    · exact absurd told (silent b)
  refine ⟨reason, reason, fun silent enough ↦ ?_, fun silent late ↦ ?_, fun prompt ↦ ?_⟩
  · obtain ⟨v, found, own⟩ := still_waits silent
    exact (wakeful.exec after).returns_of_enough found (own ▸ enough)
  · obtain ⟨v, found, own⟩ := still_waits silent
    exact (wakeful.exec after).returns_of_late found (own ▸ late)
  · have course := Course.of_exec (course_of_await step) after (tended_of_exec wakeful after)
      (patient_of_exec wakeful after prompt)
    exact course.timely

end Belfry

end MessageBridge.Memory
