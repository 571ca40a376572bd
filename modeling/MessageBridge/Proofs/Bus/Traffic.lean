import MessageBridge.Bus.Adapter
import MessageBridge.Message
import MessageBridge.Proofs.Execution

/-!
# Traffic on a bus

An adapter together with the calls on it that are under way. Anyone may subscribe, publish or close
at any time, and what the adapter calls on its connector takes its time and answers what it likes;
both are actions of one machine (`Traffic.step?`), which may come in any order. Every call on the
bus has a number of its own.

A subscription or a publish is turned away at once or passed on to one point. The closing that
comes first is a round of calls on the connector, one after the other (`Round`), and any later one
has nothing to do. So a call stands in one of three ways (`Phase`), and a step moves at most the
call that it is about (`phase_of_other`). From this the rest of the history of a call can be told,
wherever it stands (`course_of_runs`).
-/

namespace MessageBridge.Adapter

variable {Handler : Type}

/-! ## Calls and notices -/

/-- What can be asked of a bus. -/
inductive Request (Handler : Type) where
  | subscribe (source : String) (handler : Handler)
  | publish (target : String) (m : Message)
  | close

/-- What a bus calls on its connector. -/
inductive Touch (Handler : Type) where
  /-- The ingress point at a place is started. -/
  | start (index : Nat) (handler : Handler)
  /-- A message is published on the egress point at a place. -/
  | publish (index : Nat) (m : Message)
  /-- Something is closed. -/
  | closing (call : ClosingCall)

/-- What is noticed of a call on a bus. -/
inductive Notice (Handler : Type) where
  /-- The call began. -/
  | asked (call : Nat) (request : Request Handler)
  /-- The bus called something on its connector. -/
  | touched (call : Nat) (touch : Touch Handler)
  /-- What the bus had called answered. -/
  | heard (call : Nat) (touch : Touch Handler) (result : Except BusError Unit)
  /-- Something was logged. -/
  | logged (call : Nat) (event : Event)
  /-- The call returned. -/
  | answered (call : Nat) (result : Except BusError Unit)

/-- The call that a notice is about. -/
def Notice.call : Notice Handler → Nat
  | asked call _ | touched call _ | heard call _ _ | logged call _ | answered call _ => call

/-- Where a request is passed on to, or why it is turned away; a closing is neither. -/
def admission? (a : Adapter) : Request Handler → Option (Except BusError (Touch Handler))
  | .subscribe source handler => some ((a.ingress source).map fun i ↦ .start i handler)
  | .publish target m => some ((a.egress target).map fun i ↦ .publish i m)
  | .close => none

/-! ## Rounds -/

/-- The failures among answers, oldest first. -/
def failures (heard : List (ClosingCall × Except BusError Unit)) :
    List (ClosingCall × BusError) :=
  heard.filterMap fun (c, result) ↦
    match result with
    | .ok () => none
    | .error e => some (c, e)

/-- The answer of a bus whose closing failed in some calls: the first failure. -/
def verdict (bus : String) : List (ClosingCall × BusError) → Except BusError Unit
  | [] => .ok ()
  | (c, e) :: _ => .error (failure bus e c)

/-- A closing under way. -/
structure Round where
  /-- The call that closes the bus. -/
  call : Nat
  /-- The answers so far, oldest first. -/
  heard : List (ClosingCall × Except BusError Unit)
  /-- The calls without an answer, of which the first was made. -/
  left : List ClosingCall

namespace Round

/-- What is noticed when a round gets to where it is: its next call is made, or it is over. -/
def turn (bus : String) (k : Round) : List (Notice Handler) :=
  match k.left with
  | [] => [.logged k.call (.busClosed bus), .answered k.call (verdict bus (failures k.heard))]
  | c :: _ => [.touched k.call (.closing c)]

/-- What is logged of an answer. -/
def logs (bus : String) (call : Nat) (c : ClosingCall) :
    Except BusError Unit → List (Notice Handler)
  | .ok () => []
  | .error e => ((failureEvent? bus e c).map (Notice.logged call)).toList

/-- The call that was made is answered. -/
def hear? (bus : String) (result : Except BusError Unit) (k : Round) :
    Option (Round × List (Notice Handler)) :=
  match k.left with
  | [] => none
  | c :: rest =>
    let next : Round := ⟨k.call, k.heard ++ [(c, result)], rest⟩
    some (next, .heard k.call (.closing c) result :: (logs bus k.call c result ++ next.turn bus))

/-- An answer to a round is noted, and the next call is made whatever the answer was. -/
theorem of_hear? {bus : String} {result : Except BusError Unit} {k next : Round}
    {told : List (Notice Handler)} (hears : k.hear? bus result = some (next, told)) :
    ∃ c rest, k.left = c :: rest ∧ next = ⟨k.call, k.heard ++ [(c, result)], rest⟩ ∧
      told = .heard k.call (.closing c) result :: (logs bus k.call c result ++ next.turn bus) := by
  unfold hear? at hears
  split at hears
  · cases hears
  · rename_i c rest here
    cases hears
    exact ⟨c, rest, here, rfl, rfl⟩

theorem call_of_turn {bus : String} {k : Round} {n : Notice Handler}
    (mem : n ∈ k.turn bus) : n.call = k.call := by
  unfold turn at mem
  split at mem
  · simp only [List.mem_cons, List.not_mem_nil, or_false] at mem
    rcases mem with rfl | rfl
    · rfl
    · rfl
  · cases List.mem_singleton.mp mem
    rfl

theorem of_mem_logs {bus : String} {call : Nat} {c : ClosingCall} {result : Except BusError Unit}
    {n : Notice Handler} (mem : n ∈ logs bus call c result) : ∃ event, n = .logged call event := by
  unfold logs at mem
  split at mem
  · cases mem
  · obtain ⟨event, -, rfl⟩ := Option.map_eq_some_iff.mp (Option.mem_toList.mp mem)
    exact ⟨event, rfl⟩

end Round

/-! ## The machine -/

/-- Where a call on a bus stands. -/
inductive Phase (Handler : Type) where
  /-- It has not begun, or it has returned. -/
  | gone
  /-- It waits for a point. -/
  | waits (touch : Touch Handler)
  /-- It is the closing that came first. -/
  | closes (k : Round)

/-- What can happen on a bus. -/
inductive Act (Handler : Type) where
  /-- Someone calls the bus. -/
  | ask (request : Request Handler)
  /-- What the bus called for one of its calls answers. -/
  | answer (call : Nat) (result : Except BusError Unit)

/-- An adapter and the calls on it that are under way. -/
structure Traffic (Handler : Type) where
  /-- The adapter. -/
  adapter : Adapter
  /-- The number of calls so far, which is the name of the next. -/
  calls : Nat
  /-- The calls that wait for a point. -/
  waiting : List (Nat × Touch Handler)
  /-- The closing that came first. -/
  round : Option Round

namespace Traffic

/-- An adapter before the first call. -/
def ofAdapter (a : Adapter) : Traffic Handler := ⟨a, 0, [], none⟩

/-- The point that a call waits for. -/
def touch? (call : Nat) (x : Traffic Handler) : Option (Touch Handler) :=
  (x.waiting.find? fun w ↦ w.1 == call).map Prod.snd

/-- Where a call stands. -/
def phase (call : Nat) (x : Traffic Handler) : Phase Handler :=
  match x.touch? call with
  | some touch => .waits touch
  | none =>
    match x.round with
    | some k => if k.call = call then .closes k else .gone
    | none => .gone

/-- Someone calls the bus. -/
def ask (request : Request Handler) (x : Traffic Handler) :
    Traffic Handler × List (Notice Handler) :=
  let y := { x with calls := x.calls + 1 }
  match x.adapter.admission? request with
  | some (.error e) => (y, [.asked x.calls request, .answered x.calls (.error e)])
  | some (.ok touch) =>
    ({ y with waiting := x.waiting ++ [(x.calls, touch)] },
      [.asked x.calls request, .touched x.calls touch])
  | none =>
    if x.adapter.closed then (y, [.asked x.calls request, .answered x.calls (.ok ())])
    else
      let k : Round := ⟨x.calls, [], x.adapter.closingCalls⟩
      ({ y with adapter.closed := true, round := some k },
        .asked x.calls request :: k.turn x.adapter.name)

/-- The traffic after an action, and what was noticed of it; `none` if it cannot happen. -/
def step? (x : Traffic Handler) : Act Handler → Option (Traffic Handler × List (Notice Handler))
  | .ask request => some (x.ask request)
  | .answer call result =>
    match x.phase call with
    | .gone => none
    | .waits touch =>
      some ({ x with waiting := x.waiting.filter fun w ↦ w.1 != call },
        [.heard call touch result, .answered call result])
    | .closes k =>
      (k.hear? x.adapter.name result).map fun (next, told) ↦ ({ x with round := some next }, told)

variable {x y : Traffic Handler} {act : Act Handler} {told : List (Notice Handler)} {call : Nat}

/-- What one action does, by what comes of it. -/
inductive Step (x : Traffic Handler) : Act Handler → Traffic Handler → List (Notice Handler) → Prop
    where
  | turnedAway {r : Request Handler} {e : BusError} :
      x.adapter.admission? r = some (.error e) →
      Step x (.ask r) { x with calls := x.calls + 1 }
        [.asked x.calls r, .answered x.calls (.error e)]
  | passed {r : Request Handler} {touch : Touch Handler} :
      x.adapter.admission? r = some (.ok touch) →
      Step x (.ask r) { x with calls := x.calls + 1, waiting := x.waiting ++ [(x.calls, touch)] }
        [.asked x.calls r, .touched x.calls touch]
  | late : x.adapter.closed = true →
      Step x (.ask .close) { x with calls := x.calls + 1 }
        [.asked x.calls .close, .answered x.calls (.ok ())]
  | begins : x.adapter.closed = false →
      Step x (.ask .close)
        { x with
          adapter.closed := true
          calls := x.calls + 1
          round := some ⟨x.calls, [], x.adapter.closingCalls⟩ }
        (.asked x.calls .close ::
          (⟨x.calls, [], x.adapter.closingCalls⟩ : Round).turn x.adapter.name)
  | returned {call : Nat} {touch : Touch Handler} {result : Except BusError Unit} :
      x.phase call = .waits touch →
      Step x (.answer call result) { x with waiting := x.waiting.filter fun w ↦ w.1 != call }
        [.heard call touch result, .answered call result]
  | goesOn {call : Nat} {k next : Round} {result : Except BusError Unit}
      {told : List (Notice Handler)} :
      x.phase call = .closes k → k.hear? x.adapter.name result = some (next, told) →
      Step x (.answer call result) { x with round := some next } told

theorem step_of_step? (step : x.step? act = some (y, told)) : Step x act y told := by
  cases act with
  | ask r =>
    rw [step?, Option.some_inj, ask] at step
    split at step
    · rename_i refused
      cases step
      exact .turnedAway refused
    · rename_i admitted
      cases step
      exact .passed admitted
    · rename_i closing
      have closing : r = .close := by cases r <;> simp_all [admission?]
      subst closing
      split at step
      · rename_i closed
        cases step
        exact .late closed
      · rename_i opened
        cases step
        exact .begins (by simpa using opened)
  | answer call result =>
    rw [step?] at step
    split at step
    · cases step
    · rename_i waits
      cases step
      exact .returned waits
    · rename_i closes
      obtain ⟨_, hears, same⟩ := Option.map_eq_some_iff.mp step
      cases same
      exact .goesOn closes hears

/-- The executions of an adapter that nobody has called yet. -/
abbrev Runs (a : Adapter) (past : List (Moment (Traffic Handler) (Act Handler) (Notice Handler)))
    (x : Traffic Handler) : Prop :=
  Execution step? (ofAdapter a) past x

/-! ## Where calls stand -/

theorem phase_eq_waits_iff {touch : Touch Handler} :
    x.phase call = .waits touch ↔ x.touch? call = some touch := by
  unfold phase
  grind

theorem phase_eq_closes_iff {k : Round} :
    x.phase call = .closes k ↔ x.touch? call = none ∧ x.round = some k ∧ k.call = call := by
  unfold phase
  grind

theorem phase_eq_gone_iff :
    x.phase call = .gone ↔ x.touch? call = none ∧ ∀ k, x.round = some k → k.call ≠ call := by
  unfold phase
  grind

theorem phase_congr (touch : y.touch? call = x.touch? call)
    (round : ∀ k, k.call = call → (y.round = some k ↔ x.round = some k)) :
    y.phase call = x.phase call := by
  cases place : x.phase call with
  | gone =>
    rw [phase_eq_gone_iff] at place ⊢
    exact ⟨touch.trans place.1, fun k there own ↦ place.2 k ((round k own).mp there) own⟩
  | waits t =>
    rw [phase_eq_waits_iff] at place ⊢
    exact touch.trans place
  | closes k =>
    rw [phase_eq_closes_iff] at place ⊢
    exact ⟨touch.trans place.1, (round k place.2.2).mpr place.2.1, place.2.2⟩

/-! ## Numbers -/

/-- Every call that is under way has begun, no closing waits for a point, and a bus that is open was
not closed. -/
structure Sound (x : Traffic Handler) : Prop where
  waiting : ∀ w ∈ x.waiting, w.1 < x.calls
  round : ∀ k, x.round = some k → k.call < x.calls ∧ x.touch? k.call = none
  unclosed : x.adapter.closed = false → x.round = none

theorem touch?_append (x : Traffic Handler) (w : Nat × Touch Handler) :
    touch? call { x with waiting := x.waiting ++ [w] } =
      (x.touch? call).or (if w.1 = call then some w.2 else none) := by
  unfold touch?
  grind

theorem touch?_filter (x : Traffic Handler) (other : Nat) :
    touch? call { x with waiting := x.waiting.filter fun w ↦ w.1 != other } =
      if call = other then none else x.touch? call := by
  unfold touch?
  split
  · simp_all
  · rename_i differ
    congr 1
    rw [List.find?_filter]
    congr 1
    funext w
    grind

theorem Sound.touch?_eq_none (sound : x.Sound) (new : x.calls ≤ call) : x.touch? call = none := by
  rw [touch?, Option.map_eq_none_iff, List.find?_eq_none]
  intro w mem
  have := sound.waiting w mem
  grind

theorem Round.call_of_hear? {bus : String} {result : Except BusError Unit} {k next : Round}
    (hears : k.hear? bus result = some (next, told)) : next.call = k.call := by
  obtain ⟨c, rest, -, rfl, -⟩ := Round.of_hear? hears
  rfl

theorem Sound.step (sound : x.Sound) (step : x.step? act = some (y, told)) : y.Sound := by
  have step := step_of_step? step
  induction step with
  | turnedAway _ | late _ =>
    constructor
    · intro w mem
      exact Nat.lt_succ_of_lt (sound.waiting w mem)
    · intro k round
      exact ⟨Nat.lt_succ_of_lt (sound.round k round).1, (sound.round k round).2⟩
    · exact sound.unclosed
  | passed _ =>
    constructor
    · intro w mem
      rcases List.mem_append.mp mem with mem | mem
      · exact Nat.lt_succ_of_lt (sound.waiting w mem)
      · cases List.mem_singleton.mp mem
        exact Nat.lt_succ_self _
    · intro k round
      obtain ⟨old, idle⟩ := sound.round k round
      refine ⟨Nat.lt_succ_of_lt old, (touch?_append x _).trans ?_⟩
      rw [idle, if_neg (Nat.ne_of_gt old), Option.or_none]
    · exact sound.unclosed
  | begins _ =>
    constructor
    · intro w mem
      exact Nat.lt_succ_of_lt (sound.waiting w mem)
    · rintro k ⟨⟩
      exact ⟨Nat.lt_succ_self _, sound.touch?_eq_none (Nat.le_refl _)⟩
    · exact nofun
  | returned _ =>
    constructor
    · intro w mem
      exact sound.waiting w (List.mem_filter.mp mem).1
    · intro k round
      obtain ⟨old, idle⟩ := sound.round k round
      refine ⟨old, (touch?_filter x _).trans ?_⟩
      rw [idle, ite_self]
    · exact sound.unclosed
  | goesOn closes hears =>
    obtain ⟨-, round, -⟩ := phase_eq_closes_iff.mp closes
    constructor
    · exact sound.waiting
    · rintro k ⟨⟩
      rw [Round.call_of_hear? hears]
      exact sound.round _ round
    · intro opened
      rw [sound.unclosed opened] at round
      cases round

theorem sound_of_runs {a : Adapter}
    {past : List (Moment (Traffic Handler) (Act Handler) (Notice Handler))} (runs : Runs a past x) :
    x.Sound :=
  runs.invariant ⟨by simp [ofAdapter], by simp [ofAdapter], fun _ ↦ rfl⟩ Sound.step

/-! ## Steps and calls -/

/-- The call that an action is about. -/
def actor (x : Traffic Handler) : Act Handler → Nat
  | .ask _ => x.calls
  | .answer call _ => call

theorem Round.call_of_told {bus : String} {result : Except BusError Unit} {k next : Round}
    (hears : k.hear? bus result = some (next, told)) : ∀ n ∈ told, n.call = k.call := by
  obtain ⟨c, rest, -, rfl, rfl⟩ := Round.of_hear? hears
  intro n mem
  rcases List.mem_cons.mp mem with rfl | mem
  · rfl
  · rcases List.mem_append.mp mem with mem | mem
    · obtain ⟨event, rfl⟩ := Round.of_mem_logs mem
      rfl
    · rw [Round.call_of_turn mem]

/-- Whatever is noticed of an action is about the call that it is about. -/
theorem call_of_told (step : x.step? act = some (y, told)) :
    ∀ n ∈ told, n.call = x.actor act := by
  have step := step_of_step? step
  induction step with
  | turnedAway _ | passed _ | late _ | returned _ => simp [Notice.call, actor]
  | begins _ =>
    intro n mem
    rcases List.mem_cons.mp mem with rfl | mem
    · rfl
    · exact Round.call_of_turn mem
  | goesOn closes hears =>
    obtain ⟨-, -, own⟩ := phase_eq_closes_iff.mp closes
    rw [← own]
    exact Round.call_of_told hears

theorem calls_le_of_step (step : x.step? act = some (y, told)) : x.calls ≤ y.calls := by
  have step := step_of_step? step
  induction step with
  | turnedAway _ | passed _ | late _ | begins _ => exact Nat.le_succ _
  | returned _ | goesOn _ _ => exact Nat.le_refl _

/-- An action leaves all other calls that have begun where they stand. -/
theorem phase_of_other (sound : x.Sound) (step : x.step? act = some (y, told))
    (old : call < x.calls) (other : x.actor act ≠ call) : y.phase call = x.phase call := by
  have step := step_of_step? step
  induction step with
  | turnedAway _ | late _ => rfl
  | passed _ =>
    refine phase_congr ((touch?_append x _).trans ?_) fun _ _ ↦ Iff.rfl
    rw [if_neg (Nat.ne_of_gt old), Option.or_none]
  | begins opened =>
    refine phase_congr rfl fun k own ↦ ?_
    rw [sound.unclosed opened]
    constructor
    · rintro ⟨⟩
      exact absurd own other
    · exact nofun
  | returned _ =>
    refine phase_congr ((touch?_filter x _).trans ?_) fun _ _ ↦ Iff.rfl
    exact if_neg (Ne.symm other)
  | goesOn closes hears =>
    obtain ⟨-, round, own⟩ := phase_eq_closes_iff.mp closes
    refine phase_congr rfl fun k' own' ↦ ?_
    rw [round]
    constructor
    · rintro ⟨⟩
      rw [← own', Round.call_of_hear? hears, own] at other
      exact absurd rfl other
    · rintro ⟨⟩
      exact absurd (own.symm.trans own') other

/-! ## The course of a call -/

/-- The part of a history that is about one call. -/
def tale (call : Nat) (events : List (Notice Handler)) : List (Notice Handler) :=
  events.filter fun n ↦ n.call == call

theorem tale_append (call : Nat) (events later : List (Notice Handler)) :
    tale call (events ++ later) = tale call events ++ tale call later := List.filter_append ..

theorem tale_of_all (about : ∀ n ∈ told, n.call = call) : tale call told = told := by
  simpa [tale, List.filter_eq_self] using about

theorem tale_of_none (about : ∀ n ∈ told, n.call ≠ call) : tale call told = [] := by
  simpa [tale, List.filter_eq_nil_iff] using about

/-- A round, from one answer to the next. -/
abbrev Rounds (bus : String) (start : Round)
    (past : List (Moment Round (Except BusError Unit) (Notice Handler))) (k : Round) : Prop :=
  Execution (fun k result ↦ k.hear? bus result) start past k

/-- What may be noticed of a call from one place where it stands to another. -/
inductive Course (bus : String) (call : Nat) :
    Phase Handler → List (Notice Handler) → Phase Handler → Prop where
  | gone : Course bus call .gone [] .gone
  | waits {touch : Touch Handler} : Course bus call (.waits touch) [] (.waits touch)
  | returned {touch : Touch Handler} {result : Except BusError Unit} :
      Course bus call (.waits touch) [.heard call touch result, .answered call result] .gone
  | closes {start k : Round}
      {past : List (Moment Round (Except BusError Unit) (Notice Handler))} :
      Rounds bus start past k → Course bus call (.closes start) (Moment.told past) (.closes k)

theorem adapter_of_step (step : x.step? act = some (y, told)) :
    y.adapter.name = x.adapter.name := by
  have step := step_of_step? step
  induction step with
  | _ => rfl

/-- **An action moves a call that has begun along its course, or leaves it alone.** -/
theorem Course.step {bus : String} {p : Phase Handler} {before : List (Notice Handler)}
    (sound : x.Sound) (named : x.adapter.name = bus) (old : call < x.calls)
    (course : Course bus call p before (x.phase call)) (step : x.step? act = some (y, told)) :
    Course bus call p (before ++ tale call told) (y.phase call) := by
  have about := call_of_told step
  -- all that is told is about one call: either it is this one, or its tale does not go on
  by_cases own : x.actor act = call
  · rw [tale_of_all (by rwa [own] at about)]
    have step := step_of_step? step
    induction step with
    | turnedAway _ | passed _ | late _ | begins _ => exact absurd own (Nat.ne_of_gt old)
    | @returned c touch result waits =>
      obtain rfl : c = call := own
      -- no round has the number of a call that waits for a point
      have gone : phase c { x with waiting := x.waiting.filter fun w ↦ w.1 != c } = .gone := by
        refine phase_eq_gone_iff.mpr ⟨(touch?_filter x _).trans (if_pos rfl), ?_⟩
        rintro k round rfl
        rw [phase_eq_waits_iff, (sound.round k round).2] at waits
        cases waits
      rw [waits] at course
      rw [gone]
      cases course
      exact .returned
    | @goesOn c k next result told closes hears =>
      obtain rfl : c = call := own
      obtain ⟨idle, -, named'⟩ := phase_eq_closes_iff.mp closes
      have goes : phase c { x with round := some next } = .closes next :=
        phase_eq_closes_iff.mpr ⟨idle, rfl, (Round.call_of_hear? hears).trans named'⟩
      rw [closes] at course
      rw [goes]
      cases course with
      | closes rounds =>
        rw [named] at hears
        have all : Course bus c (.closes _) _ (.closes _) := .closes (rounds.snoc hears)
        rwa [Moment.told_append, Moment.told_singleton] at all
  · rw [tale_of_none (fun n mem ↦ about n mem ▸ own), List.append_nil,
      phase_of_other sound step old own]
    exact course

theorem Course.refl (bus : String) (call : Nat) (p : Phase Handler) : Course bus call p [] p := by
  cases p with
  | gone => exact .gone
  | waits _ => exact .waits
  | closes _ => exact .closes .refl

/-- The rest of the history of a call, from where it stands. -/
theorem course_of_runs {later : List (Moment (Traffic Handler) (Act Handler) (Notice Handler))}
    (sound : x.Sound) (old : call < x.calls) (runs : Execution step? x later y) :
    Course x.adapter.name call (x.phase call) (tale call (Moment.told later)) (y.phase call) := by
  suffices y.Sound ∧ y.adapter.name = x.adapter.name ∧ call < y.calls ∧
      Course x.adapter.name call (x.phase call) (tale call (Moment.told later)) (y.phase call) from
    this.2.2.2
  induction runs with
  | refl => exact ⟨sound, rfl, old, .refl _ _ _⟩
  | snoc _ step ih =>
    obtain ⟨sound, named, old, course⟩ := ih
    rw [Moment.told_append, Moment.told_singleton, tale_append]
    exact ⟨sound.step step, (adapter_of_step step).trans named,
      Nat.lt_of_lt_of_le old (calls_le_of_step step), course.step sound named old step⟩

end Traffic

end MessageBridge.Adapter
