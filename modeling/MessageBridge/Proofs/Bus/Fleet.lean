import MessageBridge.Proofs.Bus.Alone

/-!
# Closing all buses

The buses of a registry, each with its own traffic, and any number of sweeps: a sweep closes one bus
after the other, waits for each, and answers with the first failure. Between any two of its steps
everybody else may call any bus, sweeps included. What happens on one bus is a run of that bus by
itself (`Fleet.sound_of_runs`), so the contract of its calls holds there, and a sweep is one of the
callers: it has begun one closing on each bus that it got to, and has heard all of them but the
last (`Fleet.orderly_of_runs`).
-/

namespace MessageBridge.Adapter

variable {Handler : Type}

/-- A closing of all buses. -/
structure Sweep where
  /-- The answers of the buses that were closed. -/
  heard : List (Except BusError Unit)
  /-- The number of its call on the bus that it waits for; `none` if it is over. -/
  call : Option Nat

/-- The buses of a registry with everything under way. -/
structure Fleet (Handler : Type) where
  /-- The buses. -/
  buses : List (Traffic Handler)
  /-- The sweeps that were ever begun. -/
  sweeps : List Sweep
  /-- The answers that buses gave so far, each with the bus and the call. -/
  answers : List (Nat × Nat × Except BusError Unit)

namespace Fleet

/-- What can happen. -/
inductive Act (Handler : Type) where
  /-- Something happens on a bus. -/
  | bus (b : Nat) (act : Adapter.Act Handler)
  /-- Someone closes all buses. -/
  | sweep
  /-- A sweep takes notice of the answer that it waits for. -/
  | goOn (n : Nat)

/-- What is noticed. -/
inductive Notice (Handler : Type) where
  /-- Something is noticed on a bus. -/
  | bus (b : Nat) (notice : Adapter.Notice Handler)
  /-- A sweep closes a bus, in a call of this number. -/
  | closes (n b call : Nat)
  /-- A sweep returned. -/
  | ended (n : Nat) (result : Except BusError Unit)

/-- What is noticed on one bus. -/
def Notice.on? (b : Nat) : Notice Handler → Option (Adapter.Notice Handler)
  | bus b' notice => if b' = b then some notice else none
  | _ => none

/-- Whether a notice is about a sweep itself. -/
def Notice.isOf (n : Nat) : Notice Handler → Bool
  | closes n' _ _ | ended n' _ => n' == n
  | bus _ _ => false

/-- Some adapters before the first call. -/
def ofAdapters (adapters : List Adapter) : Fleet Handler := ⟨adapters.map .ofAdapter, [], []⟩

/-- Something happened on a bus. -/
def note (b : Nat) (bus : Traffic Handler) (told : List (Adapter.Notice Handler))
    (x : Fleet Handler) : Fleet Handler :=
  { x with
    buses := x.buses.set b bus
    answers := x.answers ++ told.filterMap fun
      | .answered call result => some (b, call, result)
      | _ => none }

/-- The answer of a bus to a call. -/
def answer? (b call : Nat) (x : Fleet Handler) : Option (Except BusError Unit) :=
  (x.answers.find? fun a ↦ a.1 == b && a.2.1 == call).map fun a ↦ a.2.2

/-- A sweep that has heard some answers turns to the next bus, if there is one. -/
def turn (n : Nat) (heard : List (Except BusError Unit)) (x : Fleet Handler) :
    Fleet Handler × List (Notice Handler) :=
  let b := heard.length
  match x.buses[b]? with
  | none => ({ x with sweeps := x.sweeps.set n ⟨heard, none⟩ }, [.ended n (firstFailure heard)])
  | some bus =>
    let (after, told) := bus.ask .close
    ({ x with sweeps := x.sweeps.set n ⟨heard, some bus.calls⟩ }.note b after told,
      .closes n b bus.calls :: told.map (.bus b))

/-- A new sweep. -/
def enlist (x : Fleet Handler) : Fleet Handler := { x with sweeps := x.sweeps ++ [⟨[], none⟩] }

/-- The fleet after an action, and what was noticed of it; `none` if it cannot happen. -/
def step? (x : Fleet Handler) : Act Handler → Option (Fleet Handler × List (Notice Handler))
  | .bus b act => do
    let bus ← x.buses[b]?
    let (after, told) ← bus.step? act
    return (x.note b after told, told.map (.bus b))
  | .sweep => some (x.enlist.turn x.sweeps.length [])
  | .goOn n => do
    let s ← x.sweeps[n]?
    let call ← s.call
    let result ← x.answer? s.heard.length call
    return x.turn n (s.heard ++ [result])

/-- What one action does. -/
inductive Step (x : Fleet Handler) :
    Act Handler → Fleet Handler × List (Notice Handler) → Prop where
  | bus {b : Nat} {act : Adapter.Act Handler} {bus after : Traffic Handler}
      {told : List (Adapter.Notice Handler)} :
      x.buses[b]? = some bus → bus.step? act = some (after, told) →
      Step x (.bus b act) (x.note b after told, told.map (.bus b))
  | sweep : Step x .sweep (x.enlist.turn x.sweeps.length [])
  | goOn {n call : Nat} {s : Sweep} {result : Except BusError Unit} :
      x.sweeps[n]? = some s → s.call = some call → x.answer? s.heard.length call = some result →
      Step x (.goOn n) (x.turn n (s.heard ++ [result]))

theorem step_of_step? {x : Fleet Handler} {act : Act Handler}
    {out : Fleet Handler × List (Notice Handler)} (step : x.step? act = some out) :
    Step x act out := by
  cases act with
  | bus b act =>
    obtain ⟨bus, here, step⟩ := Option.bind_eq_some_iff.mp step
    obtain ⟨⟨after, told⟩, moves, same⟩ := Option.bind_eq_some_iff.mp step
    cases same
    exact .bus here moves
  | sweep =>
    cases step
    exact .sweep
  | goOn n =>
    obtain ⟨s, here, step⟩ := Option.bind_eq_some_iff.mp step
    obtain ⟨call, waits, step⟩ := Option.bind_eq_some_iff.mp step
    obtain ⟨result, answered, same⟩ := Option.bind_eq_some_iff.mp step
    cases same
    exact .goOn here waits answered

/-- The executions of buses that nobody has called yet. -/
abbrev Runs (adapters : List Adapter)
    (past : List (Moment (Fleet Handler) (Act Handler) (Notice Handler))) (x : Fleet Handler) :
    Prop :=
  Execution step? (ofAdapters adapters) past x

variable {x y : Fleet Handler} {act : Act Handler} {told events : List (Notice Handler)} {n b : Nat}
  {heard : List (Except BusError Unit)} {adapters : List Adapter}
  {past : List (Moment (Fleet Handler) (Act Handler) (Notice Handler))}

/-! ## One bus -/

/-- What was noticed of a bus is what a run of it by itself tells. -/
def Tracks (a : Adapter) (events : List (Adapter.Notice Handler)) (bus : Traffic Handler) : Prop :=
  ∃ past, Traffic.Runs a past bus ∧ Moment.told past = events

/-- Every bus is where a run by itself leads to, and all answers are kept. -/
structure Sound (adapters : List Adapter) (events : List (Notice Handler)) (x : Fleet Handler) :
    Prop where
  size : x.buses.length = adapters.length
  tracks : ∀ b a bus, adapters[b]? = some a → x.buses[b]? = some bus →
    Tracks a (events.filterMap (Notice.on? b)) bus
  answers : ∀ b call result,
    (b, call, result) ∈ x.answers ↔ .bus b (.answered call result) ∈ events

theorem filterMap_on?_map (b b' : Nat) (told : List (Adapter.Notice Handler)) :
    (told.map (Notice.bus b)).filterMap (Notice.on? b') = if b = b' then told else [] := by
  rw [List.filterMap_map]
  split
  · rename_i same
    exact (List.filterMap_congr fun n _ ↦ if_pos same).trans List.filterMap_some
  · rename_i other
    exact List.filterMap_eq_nil_iff.mpr fun n _ ↦ if_neg other

/-- A notice that is about no bus changes nothing for any. -/
theorem Sound.quiet {notice : Notice Handler} (sound : Sound adapters events x)
    (quiet : ∀ b, notice.on? b = none) : Sound adapters (events ++ [notice]) x := by
  refine ⟨sound.size, fun b a bus adapter here ↦ ?_, fun b call result ↦ ?_⟩
  · rw [List.filterMap_append, List.filterMap_cons_none (quiet b), List.filterMap_nil,
      List.append_nil]
    exact sound.tracks b a bus adapter here
  · rw [sound.answers, List.mem_append, List.mem_singleton, or_iff_left]
    rintro rfl
    simpa [Notice.on?] using quiet b

/-- A bus takes a step. -/
theorem Sound.note {bus after : Traffic Handler} {act : Adapter.Act Handler}
    {told : List (Adapter.Notice Handler)} (sound : Sound adapters events x)
    (here : x.buses[b]? = some bus) (step : bus.step? act = some (after, told)) :
    Sound adapters (events ++ told.map (.bus b)) (x.note b after told) := by
  have bound : b < x.buses.length := (List.getElem?_eq_some_iff.mp here).1
  refine ⟨?_, fun b' a bus' adapter there ↦ ?_, fun b' call result ↦ ?_⟩
  · rw [Fleet.note, List.length_set]
    exact sound.size
  · rw [List.filterMap_append, filterMap_on?_map]
    rw [Fleet.note, List.getElem?_set] at there
    split at there
    · rename_i same
      subst same
      cases there
      -- the run of the bus itself takes the same step
      obtain ⟨past, runs, same⟩ := sound.tracks b a bus adapter here
      exact ⟨_, runs.snoc step, by simp [same]⟩
    · rename_i other
      rw [if_neg other, List.append_nil]
      exact sound.tracks b' a bus' adapter there
  · rw [Fleet.note, List.mem_append, List.mem_append, sound.answers]
    refine or_congr_right ?_
    rw [List.mem_filterMap, List.mem_map]
    constructor
    · rintro ⟨n, mem, same⟩
      cases n with
      | answered call' result' =>
        cases same
        exact ⟨_, mem, rfl⟩
      | _ => cases same
    · rintro ⟨n, mem, same⟩
      cases same
      exact ⟨_, mem, rfl⟩

theorem Sound.turn (sound : Sound adapters events x) (n : Nat)
    (heard : List (Except BusError Unit)) :
    Sound adapters (events ++ (x.turn n heard).2) (x.turn n heard).1 := by
  rw [Fleet.turn]
  rcases here : x.buses[heard.length]? with _ | bus
  · have quiet : ∀ b, (Notice.ended n (firstFailure heard) : Notice Handler).on? b = none :=
      fun _ ↦ rfl
    have same := sound.quiet quiet
    exact ⟨same.size, same.tracks, same.answers⟩
  · have quiet : ∀ b, (Notice.closes n heard.length bus.calls : Notice Handler).on? b = none :=
      fun _ ↦ rfl
    have same := sound.quiet quiet
    have moved : Sound adapters (events ++ [.closes n heard.length bus.calls])
        { x with sweeps := x.sweeps.set n ⟨heard, some bus.calls⟩ } :=
      ⟨same.size, same.tracks, same.answers⟩
    have step : bus.step? (.ask .close) = some (bus.ask .close) := rfl
    have noted := moved.note here step
    rwa [List.append_assoc] at noted

theorem Sound.step {out : Fleet Handler × List (Notice Handler)}
    (sound : Sound adapters events x) (step : Step x act out) :
    Sound adapters (events ++ out.2) out.1 := by
  cases step with
  | bus here moves => exact sound.note here moves
  | sweep =>
    have enlisted : Sound adapters events x.enlist := ⟨sound.size, sound.tracks, sound.answers⟩
    exact enlisted.turn _ _
  | goOn _ _ _ => exact sound.turn _ _

theorem sound_of_runs (runs : Runs adapters past x) : Sound adapters (Moment.told past) x := by
  induction runs with
  | refl =>
    refine ⟨by simp [ofAdapters], fun b a bus adapter here ↦ ?_, by simp [ofAdapters, Moment.told]⟩
    rw [ofAdapters, List.getElem?_map, adapter] at here
    cases here
    exact ⟨[], .refl, rfl⟩
  | snoc _ step sound =>
    rw [Moment.told_append, Moment.told_singleton]
    exact sound.step (step_of_step? step)

/-! ## One sweep -/

/-- What a history shows of a sweep with its calls on the buses, the first on the first bus: it
closes one bus after the other, each once, and answers when all have answered. -/
structure Swept (size n : Nat) (s : Sweep) (calls : List Nat) (events : List (Notice Handler)) :
    Prop where
  call : s.call = calls[s.heard.length]?
  length : calls.length = min (s.heard.length + 1) size
  told : events.filter (Notice.isOf n) = calls.zipIdx.map (fun (call, b) ↦ .closes n b call) ++
    if s.call = none then [.ended n (firstFailure s.heard)] else []
  asked : ∀ b call, calls[b]? = some call → .bus b (.asked call .close) ∈ events
  answered : ∀ b result, s.heard[b]? = some result →
    ∃ call, calls[b]? = some call ∧ .bus b (.answered call result) ∈ events

/-- A sweep all of whose calls were answered. -/
structure Ready (n : Nat) (heard : List (Except BusError Unit)) (calls : List Nat)
    (events : List (Notice Handler)) : Prop where
  length : calls.length = heard.length
  told : events.filter (Notice.isOf n) = calls.zipIdx.map fun (call, b) ↦ .closes n b call
  asked : ∀ b call, calls[b]? = some call → .bus b (.asked call .close) ∈ events
  answered : ∀ b result, heard[b]? = some result →
    ∃ call, calls[b]? = some call ∧ .bus b (.answered call result) ∈ events

/-- Answers stay where they are when more calls are made and more is told. -/
theorem answered_append {calls : List Nat} (answered : ∀ b result, heard[b]? = some result →
      ∃ call, calls[b]? = some call ∧ .bus b (.answered call result) ∈ events)
    (newer : List Nat) (more : List (Notice Handler)) : ∀ b result, heard[b]? = some result →
      ∃ call, (calls ++ newer)[b]? = some call ∧
        .bus b (.answered call result) ∈ events ++ more := by
  intro b result here
  obtain ⟨call, there, answered⟩ := answered b result here
  have old : b < calls.length := (List.getElem?_eq_some_iff.mp there).1
  exact ⟨call, by rwa [List.getElem?_append_left old], List.mem_append_left _ answered⟩

theorem filter_isOf_map (n b : Nat) (told : List (Adapter.Notice Handler)) :
    (told.map (Notice.bus b)).filter (Notice.isOf n) = [] := by
  simp [List.filter_eq_nil_iff, Notice.isOf]

theorem Swept.append {size : Nat} {s : Sweep} {calls : List Nat} {more : List (Notice Handler)}
    (swept : Swept size n s calls events) (other : more.filter (Notice.isOf n) = []) :
    Swept size n s calls (events ++ more) := by
  refine ⟨swept.call, swept.length, ?_, fun b call here ↦ ?_, ?_⟩
  · rw [List.filter_append, other, List.append_nil]
    exact swept.told
  · exact List.mem_append_left _ (swept.asked b call here)
  · simpa using answered_append swept.answered [] more

/-- The sweeps of a fleet, and no others, are told of. -/
structure Orderly (events : List (Notice Handler)) (x : Fleet Handler) : Prop where
  fresh : ∀ n, x.sweeps.length ≤ n → events.filter (Notice.isOf n) = []
  swept : ∀ n s, x.sweeps[n]? = some s → ∃ calls, Swept x.buses.length n s calls events

theorem Ready.turn {calls : List Nat} (ready : Ready n heard calls events)
    (bound : heard.length ≤ x.buses.length) :
    ∃ s calls, (x.turn n heard).1.sweeps = x.sweeps.set n s ∧
      (x.turn n heard).1.buses.length = x.buses.length ∧
      Swept x.buses.length n s calls (events ++ (x.turn n heard).2) ∧
      ∀ n', n' ≠ n → (x.turn n heard).2.filter (Notice.isOf n') = [] := by
  obtain ⟨length, told, asked, answered⟩ := ready
  rw [Fleet.turn]
  rcases here : x.buses[heard.length]? with _ | bus
  · -- all buses have answered, and the sweep is over
    have all : x.buses.length ≤ heard.length := List.getElem?_eq_none_iff.mp here
    refine ⟨_, calls, rfl, rfl, ⟨?_, ?_, ?_, ?_, ?_⟩, fun n' other ↦ ?_⟩
    · exact (List.getElem?_eq_none (Nat.le_of_eq length)).symm
    · dsimp only
      omega
    · simp [List.filter_append, told, Notice.isOf]
    · exact fun b call here ↦ List.mem_append_left _ (asked b call here)
    · simpa using answered_append answered [] [.ended n (firstFailure heard)]
    · simp [Notice.isOf, other.symm]
  · -- the next bus is asked, in a call of the number that it has for its next
    have more : heard.length < x.buses.length := (List.getElem?_eq_some_iff.mp here).1
    have asks : bus.step? (.ask .close) = some ((bus.ask .close).1, (bus.ask .close).2) := rfl
    obtain ⟨rest, begins, -⟩ := Traffic.told_of_ask asks
    refine ⟨_, calls ++ [bus.calls], rfl, List.length_set, ⟨?_, ?_, ?_, ?_, ?_⟩, fun n' other ↦ ?_⟩
    · simp [← length]
    · rw [List.length_append, List.length_singleton]
      dsimp only
      omega
    · simp [List.filter_append, told, Notice.isOf, filter_isOf_map, List.zipIdx_append, length]
    · intro b call here
      rw [List.getElem?_append] at here
      split at here
      · exact List.mem_append_left _ (asked b call here)
      · obtain ⟨last, rfl⟩ := List.getElem?_eq_some_iff.mp here
        have : b = heard.length := by simp at last; omega
        subst this
        simp [begins]
    · exact answered_append answered _ _
    · simp [Notice.isOf, other.symm, filter_isOf_map]

/-- A sweep that turns to the next bus leaves all others as they are. -/
theorem Ready.orderly {calls : List Nat} (ready : Ready n heard calls events)
    (bound : heard.length ≤ x.buses.length)
    (fresh : ∀ n, x.sweeps.length ≤ n → events.filter (Notice.isOf n) = [])
    (swept : ∀ n' s, n' ≠ n → x.sweeps[n']? = some s →
      ∃ calls, Swept x.buses.length n' s calls events) (old : n < x.sweeps.length) :
    Orderly (events ++ (x.turn n heard).2) (x.turn n heard).1 := by
  obtain ⟨s, calls, sweeps, size, own, others⟩ := ready.turn bound
  constructor
  · intro n' new
    rw [sweeps, List.length_set] at new
    rw [List.filter_append, fresh n' new, others n' (by omega), List.append_nil]
  · intro n' s' here
    rw [sweeps, List.getElem?_set] at here
    rw [size]
    split at here
    · rename_i same
      subst same
      cases here
      exact ⟨calls, own⟩
    · rename_i other
      obtain ⟨calls', swept'⟩ := swept n' s' (Ne.symm other) here
      exact ⟨calls', swept'.append (others n' (Ne.symm other))⟩

/-- A sweep that hears the answer to its last call is ready to turn to the next bus. -/
theorem Swept.ready {size call : Nat} {s : Sweep} {calls : List Nat} {result : Except BusError Unit}
    (swept : Swept size n s calls events) (waits : s.call = some call)
    (hears : .bus s.heard.length (.answered call result) ∈ events) :
    Ready n (s.heard ++ [result]) calls events ∧ (s.heard ++ [result]).length ≤ size := by
  have here := swept.call.symm.trans waits
  have bound : s.heard.length < calls.length := (List.getElem?_eq_some_iff.mp here).1
  have length := swept.length
  rw [List.length_append, List.length_singleton]
  refine ⟨⟨?_, ?_, swept.asked, fun b result' there ↦ ?_⟩, by omega⟩
  · rw [List.length_append, List.length_singleton]
    omega
  · simpa [waits] using swept.told
  · rw [List.getElem?_append] at there
    split at there
    · exact swept.answered b result' there
    · obtain ⟨last, rfl⟩ := List.getElem?_eq_some_iff.mp there
      have : b = s.heard.length := by simp at last; omega
      subst this
      exact ⟨call, here, by simpa using hears⟩

theorem Orderly.step {out : Fleet Handler × List (Notice Handler)} (orderly : Orderly events x)
    (sound : Sound adapters events x) (step : Step x act out) :
    Orderly (events ++ out.2) out.1 := by
  cases step with
  | @bus b act bus after told here moves =>
    have other (n : Nat) : (told.map (Notice.bus b)).filter (Notice.isOf n) = [] :=
      filter_isOf_map n b told
    constructor
    · intro n new
      rw [List.filter_append, other, orderly.fresh n new, List.append_nil]
    · intro n s here
      obtain ⟨calls, swept⟩ := orderly.swept n s here
      rw [note, List.length_set]
      exact ⟨calls, swept.append (other n)⟩
  | sweep =>
    have ready : Ready x.sweeps.length [] [] events :=
      ⟨rfl, orderly.fresh _ (Nat.le_refl _), nofun, nofun⟩
    refine ready.orderly (Nat.zero_le _) (fun n new ↦ ?_) (fun n s other here ↦ ?_) ?_
    · exact orderly.fresh n (by simp [enlist] at new; omega)
    · rw [enlist, List.getElem?_append] at here
      split at here
      · exact orderly.swept n s here
      · obtain ⟨last, -⟩ := List.getElem?_eq_some_iff.mp here
        simp at last
        omega
    · simp [enlist]
  | @goOn n call s result here waits answered =>
    obtain ⟨calls, swept⟩ := orderly.swept n s here
    obtain ⟨⟨b, call', result'⟩, found, rfl⟩ := Option.map_eq_some_iff.mp answered
    have keyed := List.find?_some found
    have mem := (sound.answers b call' result').mp (List.mem_of_find?_eq_some found)
    obtain ⟨ready, bound⟩ := swept.ready waits (by simp at keyed; rwa [← keyed.1, ← keyed.2])
    have old : n < x.sweeps.length := (List.getElem?_eq_some_iff.mp here).1
    exact ready.orderly bound orderly.fresh (fun n s _ ↦ orderly.swept n s) old

theorem orderly_of_runs (runs : Runs adapters past x) :
    Orderly (Moment.told past) x := by
  induction runs with
  | refl => exact ⟨fun _ _ ↦ rfl, by simp [ofAdapters]⟩
  | snoc runs step orderly =>
    rw [Moment.told_append, Moment.told_singleton]
    exact orderly.step (sound_of_runs runs) (step_of_step? step)

end Fleet

/-! ## The contract -/

namespace Fleet

/-- What a history shows of a sweep that returned: every bus has answered, and the answer is the
first failure. -/
structure Ended (size : Nat) (s : Sweep) (result : Except BusError Unit) : Prop where
  all : s.heard.length = size
  ok : result = .ok () ↔ ∀ answer ∈ s.heard, answer = .ok ()
  first : ∀ e, result = .error e →
    ∃ before after, s.heard = before ++ .error e :: after ∧ ∀ answer ∈ before, answer = .ok ()

/-- The contract of the buses over some connectors. -/
structure Contract (exposed : List Exposed) (adapters : List Adapter)
    (events : List (Notice Handler)) (x : Fleet Handler) : Prop where
  /-- Whatever else happens, the calls on a bus get what they are owed. -/
  calls : ∀ b c, exposed[b]? = some c →
    ∃ bus, x.buses[b]? = some bus ∧ Lifecycle c (events.filterMap (Notice.on? b)) bus
  sweeps : ∀ n s, x.sweeps[n]? = some s → ∃ calls, Swept exposed.length n s calls events
  ended : ∀ n result, .ended n result ∈ events →
    ∃ s, x.sweeps[n]? = some s ∧ Ended exposed.length s result
  /-- A sweep whose bus has answered can go on. -/
  goesOn : ∀ n s call result, x.sweeps[n]? = some s → s.call = some call →
    .bus s.heard.length (.answered call result) ∈ events → (x.step? (.goOn n)).isSome
  /-- The closing that is run by itself is one of the runs. -/
  alone : ∀ a ∈ adapters, ∀ {σ : Type} (perform : ClosingCall → σ → Except BusError Unit × σ)
    (s : σ), ClosesAlone Handler perform s a
  /-- So is the answer of the sweep that is run by itself. -/
  together : ∀ w : Rehearsal.World,
    w.closeAll.1 = firstFailure (w.closings (w.registry.map Prod.snd))

theorem Swept.ended {size : Nat} {s : Sweep} {calls : List Nat} {result : Except BusError Unit}
    (swept : Swept size n s calls events) (ended : .ended n result ∈ events) :
    Ended size s result := by
  obtain ⟨call, length, told, -, answered⟩ := swept
  have mem : .ended n result ∈ events.filter (Notice.isOf n) :=
    List.mem_filter.mpr ⟨ended, by simp [Notice.isOf]⟩
  rw [told] at mem
  obtain ⟨idle, rfl⟩ : s.call = none ∧ result = firstFailure s.heard := by
    simpa using mem
  rw [idle, eq_comm, List.getElem?_eq_none_iff] at call
  have heard : s.heard.length ≤ calls.length := by
    by_contra more
    have last := List.getElem?_eq_getElem (Nat.lt_of_not_le more)
    obtain ⟨_, there, -⟩ := answered calls.length _ last
    simp at there
  exact ⟨by omega, firstFailure_eq_ok_iff, fun e ↦ firstFailure_eq_error⟩

theorem goOn_isSome {s : Sweep} {call : Nat} {result : Except BusError Unit}
    (sound : Sound adapters events x) (here : x.sweeps[n]? = some s) (waits : s.call = some call)
    (hears : .bus s.heard.length (.answered call result) ∈ events) :
    (x.step? (.goOn n)).isSome := by
  have kept := (sound.answers _ _ _).mpr hears
  obtain ⟨answer, found⟩ : ∃ answer, x.answer? s.heard.length call = some answer := by
    rw [← Option.isSome_iff_exists, answer?, Option.isSome_map, List.find?_isSome]
    exact ⟨_, kept, by simp⟩
  simp [step?, here, waits, found]

end Fleet

/-- **The lifecycle of buses.** Whatever the points of some connectors do, and in whatever order the
buses over them are called, every call and every closing of all buses keeps the contract. -/
theorem lifecycle {exposed : List Exposed} {adapters : List Adapter}
    {past : List (Moment (Fleet Handler) (Fleet.Act Handler) (Fleet.Notice Handler))}
    {x : Fleet Handler} (distinct : ∀ c ∈ exposed, c.Distinct)
    (indexes : List.Forall₂ Indexes adapters exposed) (runs : Fleet.Runs adapters past x) :
    Fleet.Contract exposed adapters (Moment.told past) x := by
  have sound := Fleet.sound_of_runs runs
  have orderly := Fleet.orderly_of_runs runs
  have size : x.buses.length = exposed.length := sound.size.trans indexes.length_eq
  obtain ⟨length, indexed⟩ := List.forall₂_iff_get.mp indexes
  constructor
  · intro b c here
    obtain ⟨old, rfl⟩ := List.getElem?_eq_some_iff.mp here
    have bound : b < x.buses.length := size ▸ old
    obtain ⟨past, runs, same⟩ := sound.tracks b _ _
      (List.getElem?_eq_getElem (length ▸ old)) (List.getElem?_eq_getElem bound)
    have life := lifecycle_of_runs (distinct _ (List.getElem_mem old)) (indexed b _ old) runs
    exact ⟨_, List.getElem?_eq_getElem bound, same ▸ life⟩
  · intro n s here
    rw [← size]
    exact orderly.swept n s here
  · intro n result ended
    have old : n < x.sweeps.length := by
      by_contra new
      have none := List.filter_eq_nil_iff.mp (orderly.fresh n (Nat.le_of_not_lt new)) _ ended
      simp [Fleet.Notice.isOf] at none
    obtain ⟨calls, swept⟩ := orderly.swept n _ (List.getElem?_eq_getElem old)
    exact ⟨_, List.getElem?_eq_getElem old, size ▸ swept.ended ended⟩
  · intro n s call result here waits hears
    exact Fleet.goOn_isSome sound here waits hears
  · intro a mem σ perform s
    obtain ⟨b, old, rfl⟩ := List.getElem_of_mem mem
    exact closes_alone perform s _ (indexed b old (length ▸ old)).opened
  · exact Rehearsal.World.closeAll_answer

/-- Two buses. While a subscription of the first waits, a sweep closes it; a publish comes too late,
and both points fail. The second bus is closed all the same, by the sweep and by somebody else, and
the sweep answers with the failure of the ingress point. -/
theorem lifecycle_of_failures :
    ∃ (past : List (Moment (Fleet String) (Fleet.Act String) (Fleet.Notice String)))
      (x : Fleet String),
      Fleet.Contract [⟨"a", ["in"], ["out"]⟩, ⟨"b", [], []⟩]
        [ofNames "a" ["in"] ["out"], ofNames "b" [] []] (Moment.told past) x ∧
      (Moment.told past).filter (Fleet.Notice.isOf 0) = [.closes 0 0 1, .closes 0 1 0,
        .ended 0 (.error (failure "a" (.close "x") (.ingress "in" 0)))] := by
  have runs := (Execution.refl : Fleet.Runs
      [ofNames "a" ["in"] ["out"], ofNames "b" [] []] [] (Fleet.ofAdapters _ : Fleet String))
    |>.snoc (a := .bus 0 (.ask (.subscribe "in" "h"))) rfl
    |>.snoc (a := .sweep) rfl
    |>.snoc (a := .bus 0 (.ask (.publish "out" ⟨"x".toUTF8, []⟩))) rfl
    |>.snoc (a := .bus 0 (.answer 1 (.error (.close "x")))) rfl
    |>.snoc (a := .bus 0 (.answer 1 (.error (.close "y")))) rfl
    |>.snoc (a := .bus 0 (.answer 1 (.ok ()))) rfl
    |>.snoc (a := .goOn 0) rfl
    |>.snoc (a := .bus 1 (.ask .close)) rfl
    |>.snoc (a := .bus 0 (.answer 0 (.ok ()))) rfl
    |>.snoc (a := .bus 1 (.answer 0 (.ok ()))) rfl
    |>.snoc (a := .goOn 0) rfl
  refine ⟨_, _, lifecycle ?_ ?_ runs, rfl⟩
  · simp only [List.mem_cons, List.not_mem_nil, or_false, forall_eq_or_imp, forall_eq]
    exact ⟨⟨List.nodup_singleton _, List.nodup_singleton _⟩, List.nodup_nil, List.nodup_nil⟩
  · exact .cons (indexes_ofNames ⟨"a", ["in"], ["out"]⟩)
      (.cons (indexes_ofNames ⟨"b", [], []⟩) .nil)

end MessageBridge.Adapter
