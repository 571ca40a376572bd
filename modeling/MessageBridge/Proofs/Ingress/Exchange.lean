import MessageBridge.Memory.Ingress
import MessageBridge.Proofs.Execution
import MessageBridge.Proofs.Named

/-!
# Exchanges between injectors and a handler

An ingress point together with all that goes on around it: injections that wait for their verdict,
the invocations of its handler, start calls with their tokens, and the tokens that were fired. It is
a machine whose actions may come in any order (`Exchange.step?`); each injection has a number of its
own.

The point keeps two flags and, of a token, whether it cancelled the dispatcher. What they stand for
is said in terms of what happened: a handler was accepted, its token was fired or the point was
stopped (`Exchange.Severed`). Every step keeps the two in agreement (`Exchange.Sound`).
-/

namespace MessageBridge

open Json (Value Fields)

/-! ## Stamps -/

/-- The message is the given one with an identifier and a creation time, each added only if the
metadata had no such entry. -/
structure Message.Completes (given m : Message) : Prop where
  payload : m.payload = given.payload
  metadata : ∃ added : Fields, m.metadata = given.metadata ++ added ∧
    ∀ entry ∈ added, (entry.1 = MetaName.messageId ∨ entry.1 = MetaName.createdAt) ∧
      given.entry? entry.1 = none
  identified : (m.entry? MetaName.messageId).isSome
  dated : (m.entry? MetaName.createdAt).isSome

namespace Message

variable {m : Message} {name : String} {value : Value}

theorem metadata_withDefault_of_some {old : Value} (there : m.entry? name = some old) :
    (m.withDefault name value).metadata = m.metadata := by
  have there' : Named.get? name m.metadata = some old := there
  simp [withDefault, Named.insertNew, Named.contains, there']

theorem metadata_withDefault_of_none (missing : m.entry? name = none) :
    (m.withDefault name value).metadata = m.metadata ++ [(name, value)] := by
  have missing' : Named.get? name m.metadata = none := missing
  simp [withDefault, Named.insertNew, Named.contains, missing',
    Named.insert_of_notMem (Named.get?_eq_none_iff.mp missing')]

theorem metadata_withDefault (m : Message) (name : String) (value : Value) :
    ∃ added : Fields, (m.withDefault name value).metadata = m.metadata ++ added ∧
      ∀ entry ∈ added, entry.1 = name ∧ m.entry? name = none := by
  cases there : m.entry? name with
  | some old => exact ⟨[], by simp [metadata_withDefault_of_some there], by simp⟩
  | none => exact ⟨[(name, value)], metadata_withDefault_of_none there, by simp⟩

theorem contains_withDefault (m : Message) (name : String) (value : Value) :
    Named.contains name (m.withDefault name value).metadata = true := by
  rw [Named.contains_iff, Named.mem_names_iff]
  cases there : m.entry? name with
  | some old =>
    rw [metadata_withDefault_of_some there]
    exact ⟨old, there⟩
  | none =>
    have missing : Named.contains name m.metadata = false := Option.isSome_eq_false_iff.mpr
      (Option.isNone_iff_eq_none.mpr there)
    simp [withDefault, Named.insertNew, missing]

theorem entry?_withDefault_of_ne {other : String} (differ : other ≠ name) :
    entry? name (m.withDefault other value) = m.entry? name := by
  simp only [withDefault, entry?, Named.insertNew]
  split
  · rfl
  · exact Named.get?_insert_of_ne differ value m.metadata

/-- **A stamped message is the given one, but for the stamps that it lacked.** -/
theorem completes_stamp (m : Message) (id : String) (wall : Int) :
    m.Completes (m.stamp id wall) := by
  obtain ⟨first, metadata, first_new⟩ := m.metadata_withDefault MetaName.messageId (.string id)
  obtain ⟨second, metadata', second_new⟩ :=
    (m.withDefault MetaName.messageId (.string id)).metadata_withDefault MetaName.createdAt
      (.ofInt wall)
  have other : MetaName.messageId ≠ MetaName.createdAt := by decide
  refine ⟨rfl, ⟨first ++ second, ?_, ?_⟩, ?_, contains_withDefault _ _ _⟩
  · rw [stamp, metadata', metadata, List.append_assoc]
  · intro entry mem
    rcases List.mem_append.mp mem with mem | mem
    · obtain ⟨same, missing⟩ := first_new entry mem
      exact ⟨.inl same, same ▸ missing⟩
    · obtain ⟨same, missing⟩ := second_new entry mem
      rw [entry?_withDefault_of_ne other] at missing
      exact ⟨.inr same, same ▸ missing⟩
  · rw [stamp, entry?_withDefault_of_ne other.symm]
    exact contains_withDefault _ _ _

end Message

namespace Memory

variable {Handler : Type}

/-! ## Operations on a point -/

namespace Ingress

variable {i j : Ingress Handler} {call : Nat} {m : Message}

/-- The messages that were injected and not handed over, in the order in which they will be. -/
def queue (i : Ingress Handler) : List Delivery :=
  i.dispatcher.elim [] fun d ↦ d.deliveries.contents

/-- The handler and whether its subscription is cancelled, until the dispatcher ends. -/
def subscriber (i : Ingress Handler) : Option (Handler × Bool) :=
  i.dispatcher.map fun d ↦ (d.handler, d.cancelled)

/-- Nobody is subscribed to one point who is not to the other. -/
structure Alike (i j : Ingress Handler) : Prop where
  stopped : j.stopped = i.stopped
  subscribed : j.subscribed = i.subscribed
  subscriber : j.subscriber = i.subscriber

theorem queue_eq_nil (nobody : i.subscriber = none) : i.queue = [] := by
  rw [subscriber, Option.map_eq_none_iff] at nobody
  rw [queue, nobody]
  rfl

@[simp] theorem queue_cancel (i : Ingress Handler) : i.cancel.queue = i.queue := by
  cases there : i.dispatcher <;> simp [queue, cancel, there]

@[simp] theorem subscriber_cancel (i : Ingress Handler) :
    i.cancel.subscriber = i.subscriber.map fun s ↦ (s.1, true) := by
  cases there : i.dispatcher <;> simp [subscriber, cancel, there]

/-- A handler is accepted by a point that never had one and was not stopped. -/
theorem start_eq_ok {handler : Handler} (accepted : i.start handler = .ok j) :
    i.stopped = false ∧ i.subscribed = false ∧
      j = { i with
        subscribed := true
        dispatcher := some ⟨handler, .empty queueDepth, false⟩ } := by
  unfold start at accepted
  split at accepted
  · cases accepted
  · split at accepted
    · cases accepted
    · rename_i running free
      cases accepted
      exact ⟨by simpa using running, by simpa using free, rfl⟩

/-- An injection that waits has its message at the end of the queue. -/
theorem inject_eq_ok (waits : i.inject call m = .ok j) :
    i.Alike j ∧ j.queue = i.queue ++ [⟨call, m⟩] ∧ j.pending = call :: i.pending ∧
      j.committed = i.committed := by
  unfold inject at waits
  split at waits
  · cases waits
  · split at waits
    · cases waits
    · split at waits
      · cases waits
      · rename_i d there
        split at waits
        · cases waits
        · rename_i q offered
          cases waits
          refine ⟨⟨rfl, rfl, by simp [subscriber, there]⟩, ?_, rfl, rfl⟩
          simp [queue, there, Queue.contents_offer? offered]

/-- An injection that does not wait hears that there is no handler, or no longer. -/
theorem inject_eq_error {e : InjectError} (turned_away : i.inject call m = .error e) :
    e = .notSubscribed ∨ e = .stopped := by
  unfold inject at turned_away
  grind

/-- What is handed over was first in the queue, and the subscription is not cancelled. -/
theorem handOver?_eq_some {handler : Handler} {d : Delivery}
    (taken : i.handOver? = some ((handler, d), j)) :
    i.Alike j ∧ i.subscriber = some (handler, false) ∧ i.queue = d :: j.queue ∧
      j.pending = i.pending ∧ j.committed = i.committed := by
  unfold handOver? at taken
  obtain ⟨disp, there, taken⟩ := Option.bind_eq_some_iff.mp taken
  split at taken
  · cases taken
  · rename_i live
    obtain ⟨⟨d', q⟩, first, same⟩ := Option.bind_eq_some_iff.mp taken
    cases same
    refine ⟨⟨rfl, rfl, by simp [subscriber, there]⟩, by simpa [subscriber, there] using live, ?_,
      rfl, rfl⟩
    simp [queue, there, Queue.contents_take? first]

/-- When the dispatcher ends, whatever is in the queue is sent away. -/
theorem halt?_eq_some {calls : List Nat} (ended : i.halt? = some (calls, j)) :
    (∃ handler, i.subscriber = some (handler, true)) ∧ j.subscriber = none ∧
      j.stopped = i.stopped ∧ j.subscribed = i.subscribed ∧ j.committed = i.committed ∧
      calls = (i.queue.map Delivery.call).filter i.pending.contains ∧
      j.pending = i.pending.filter fun c ↦ !(i.queue.map Delivery.call).contains c := by
  unfold halt? at ended
  obtain ⟨d, there, ended⟩ := Option.bind_eq_some_iff.mp ended
  split at ended
  · rename_i cancelled
    cases ended
    have all : i.queue = d.deliveries.discard.1 := by rw [queue, there]; rfl
    rw [all]
    exact ⟨⟨d.handler, by simp [subscriber, there, cancelled]⟩, rfl, rfl, rfl, rfl, rfl, rfl⟩
  · cases ended

/-- How a verdict is heard by the injector. -/
def answerOf : Except HandleError Unit → Except InjectError Unit
  | .ok () => .ok ()
  | .error e => .error (.refused e)

/-- A verdict ends an injection that waits for it. -/
theorem verdict?_eq_some {verdict : Except HandleError Unit} {answer : Except InjectError Unit}
    (heard : i.verdict? call verdict = some (answer, j)) :
    i.Alike j ∧ j.queue = i.queue ∧ answer = answerOf verdict ∧
      j.pending = i.pending.filter (fun c ↦ c != call) ∧
      j.committed = i.committed + if answer = .ok () then 1 else 0 := by
  unfold verdict? at heard
  split at heard
  · split at heard
    · cases heard
      exact ⟨⟨rfl, rfl, rfl⟩, rfl, rfl, rfl, rfl⟩
    · cases heard
      exact ⟨⟨rfl, rfl, rfl⟩, rfl, rfl, rfl, rfl⟩
  · cases heard

theorem not_mem_pending_of_verdict? {verdict : Except HandleError Unit}
    (unheard : i.verdict? call verdict = none) : call ∉ i.pending := by
  intro waits
  rw [verdict?, if_pos (List.contains_iff_mem.mpr waits)] at unheard
  cases verdict <;> cases unheard

end Ingress

/-! ## The machine -/

/-- What can happen at an ingress point. -/
inductive Act (Handler : Type) where
  /-- Someone starts a handler, with a token for the subscription. -/
  | start (handler : Handler) (token : Nat)
  /-- Someone injects a message; the identifier and the clock are those it would be stamped with. -/
  | inject (id : String) (wall : Int) (m : Message)
  /-- The dispatcher hands a message to the handler. -/
  | handOver
  /-- The dispatcher ends. -/
  | halt
  /-- The handler returns from an injected message. -/
  | finish (call : Nat) (verdict : Except HandleError Unit)
  /-- A token is fired. -/
  | fire (token : Nat)
  /-- The point is stopped. -/
  | stop

/-- What those around an ingress point notice. -/
inductive Event (Handler : Type) where
  /-- A handler was accepted. -/
  | started (handler : Handler)
  /-- A handler was not accepted. -/
  | startRefused (error : BusError)
  /-- An injection began. -/
  | injected (call : Nat) (given : Message)
  /-- The handler was invoked with the message of an injection. -/
  | handed (call : Nat) (handler : Handler) (m : Message)
  /-- The handler returned from the message of an injection. -/
  | returned (call : Nat) (verdict : Except HandleError Unit)
  /-- An injection returned. -/
  | answered (call : Nat) (result : Except InjectError Unit)

/-- The injection that an event is about. -/
def Event.call? : Event Handler → Option Nat
  | .started _ | .startRefused _ => none
  | .injected call _ | .handed call _ _ | .returned call _ | .answered call _ => some call

/-- An ingress point and what goes on around it. -/
structure Exchange (Handler : Type) where
  /-- The point. -/
  ingress : Ingress Handler
  /-- The number of injections so far, which is the name of the next. -/
  injections : Nat
  /-- The injections whose messages the handler is at. -/
  running : List Nat
  /-- The token of the handler that was accepted. -/
  token : Option Nat
  /-- The tokens that were fired. -/
  fired : List Nat

namespace Exchange

/-- A new point. -/
def ofName (source : String) : Exchange Handler := ⟨.ofName source, 0, [], none, []⟩

/-- The exchange after an action, and what was noticed of it; `none` if the action cannot happen.
The token of an accepted handler may have been fired before. -/
def step? (x : Exchange Handler) : Act Handler → Option (Exchange Handler × List (Event Handler))
  | .start handler token =>
    match x.ingress.start handler with
    | .error e => some (x, [.startRefused e])
    | .ok i =>
      some ({ x with ingress := if token ∈ x.fired then i.cancel else i, token := some token },
        [.started handler])
  | .inject id wall m =>
    match x.ingress.inject x.injections (m.stamp id wall) with
    | .error e =>
      some ({ x with injections := x.injections + 1 },
        [.injected x.injections m, .answered x.injections (.error e)])
    | .ok i =>
      some ({ x with ingress := i, injections := x.injections + 1 }, [.injected x.injections m])
  | .handOver =>
    x.ingress.handOver?.map fun ((handler, d), i) ↦
      ({ x with ingress := i, running := d.call :: x.running }, [.handed d.call handler d.message])
  | .halt =>
    x.ingress.halt?.map fun (calls, i) ↦
      ({ x with ingress := i }, calls.map fun call ↦ .answered call (.error .stopped))
  | .finish call verdict =>
    if call ∈ x.running then
      let x := { x with running := x.running.filter fun c ↦ c != call }
      match x.ingress.verdict? call verdict with
      | some (answer, i) =>
        some ({ x with ingress := i }, [.returned call verdict, .answered call answer])
      | none => some (x, [.returned call verdict])
    else none
  | .fire token =>
    some ({ x with
      ingress := if x.token = some token then x.ingress.cancel else x.ingress
      fired := token :: x.fired }, [])
  | .stop => some ({ x with ingress := x.ingress.stop }, [])

variable {x y : Exchange Handler} {a : Act Handler} {outputs events : List (Event Handler)}
  {call : Nat} {m : Message}

/-- What one action does, by what comes of it. -/
inductive Step (x : Exchange Handler) :
    Act Handler → Exchange Handler → List (Event Handler) → Prop where
  | startRefused {handler : Handler} {token : Nat} {e : BusError} :
      x.ingress.start handler = .error e → Step x (.start handler token) x [.startRefused e]
  | started {handler : Handler} {token : Nat} {i : Ingress Handler} :
      x.ingress.start handler = .ok i →
      Step x (.start handler token)
        { x with ingress := if token ∈ x.fired then i.cancel else i, token := some token }
        [.started handler]
  | turnedAway {id : String} {wall : Int} {m : Message} {e : InjectError} :
      x.ingress.inject x.injections (m.stamp id wall) = .error e →
      Step x (.inject id wall m) { x with injections := x.injections + 1 }
        [.injected x.injections m, .answered x.injections (.error e)]
  | waits {id : String} {wall : Int} {m : Message} {i : Ingress Handler} :
      x.ingress.inject x.injections (m.stamp id wall) = .ok i →
      Step x (.inject id wall m) { x with ingress := i, injections := x.injections + 1 }
        [.injected x.injections m]
  | handed {handler : Handler} {d : Delivery} {i : Ingress Handler} :
      x.ingress.handOver? = some ((handler, d), i) →
      Step x .handOver { x with ingress := i, running := d.call :: x.running }
        [.handed d.call handler d.message]
  | halted {calls : List Nat} {i : Ingress Handler} : x.ingress.halt? = some (calls, i) →
      Step x .halt { x with ingress := i } (calls.map fun c ↦ .answered c (.error .stopped))
  | finished {call : Nat} {verdict : Except HandleError Unit} {i : Ingress Handler}
      {answer : Except InjectError Unit} : call ∈ x.running →
      x.ingress.verdict? call verdict = some (answer, i) →
      Step x (.finish call verdict)
        { x with ingress := i, running := x.running.filter fun c ↦ c != call }
        [.returned call verdict, .answered call answer]
  | unheard {call : Nat} {verdict : Except HandleError Unit} : call ∈ x.running →
      x.ingress.verdict? call verdict = none →
      Step x (.finish call verdict) { x with running := x.running.filter fun c ↦ c != call }
        [.returned call verdict]
  | fired {token : Nat} : Step x (.fire token)
      { x with
        ingress := if x.token = some token then x.ingress.cancel else x.ingress
        fired := token :: x.fired } []
  | stopped : Step x .stop { x with ingress := x.ingress.stop } []

theorem step_of_step? (step : x.step? a = some (y, outputs)) : Step x a y outputs := by
  unfold step? at step
  split at step
  · split at step
    · rename_i refused
      cases step
      exact .startRefused refused
    · rename_i accepted
      cases step
      exact .started accepted
  · split at step
    · rename_i turned_away
      cases step
      exact .turnedAway turned_away
    · rename_i waits
      cases step
      exact .waits waits
  · obtain ⟨_, handed, same⟩ := Option.map_eq_some_iff.mp step
    cases same
    exact .handed handed
  · obtain ⟨_, halted, same⟩ := Option.map_eq_some_iff.mp step
    cases same
    exact .halted halted
  · split at step
    · rename_i running
      dsimp only at step
      split at step
      · rename_i heard
        cases step
        exact .finished running heard
      · rename_i unheard
        cases step
        exact .unheard running unheard
    · cases step
  · cases step
    exact .fired
  · cases step
    exact .stopped

/-! ## Subscriptions -/

/-- The token of the handler was fired, or the point was stopped. -/
def Severed (x : Exchange Handler) : Prop :=
  x.ingress.stopped = true ∨ ∃ token, x.token = some token ∧ token ∈ x.fired

/-- The point knows of its handler what the start calls, the tokens and the stop make of it. -/
structure Sound (x : Exchange Handler) : Prop where
  subscribed : x.ingress.subscribed = true ↔ x.token.isSome ∧ x.ingress.stopped = false
  subscriber : ∀ s, x.ingress.subscriber = some s → x.token.isSome ∧ (s.2 = true ↔ x.Severed)

theorem sound_ofName (source : String) : (ofName source : Exchange Handler).Sound :=
  ⟨by simp [ofName, Ingress.ofName], by simp [ofName, Ingress.ofName, Ingress.subscriber]⟩

theorem Sound.of_alike (sound : x.Sound) (alike : x.ingress.Alike y.ingress)
    (token : y.token = x.token) (fired : y.fired = x.fired) : y.Sound := by
  refine ⟨?_, ?_⟩
  · rw [alike.subscribed, alike.stopped, token]
    exact sound.subscribed
  · rw [alike.subscriber, token, Severed, alike.stopped, token, fired]
    exact sound.subscriber

/-- No handler was accepted before the one that is. -/
theorem token_eq_none_of_start {handler : Handler} {i : Ingress Handler} (sound : x.Sound)
    (accepted : x.ingress.start handler = .ok i) : x.token = none := by
  obtain ⟨running, free, -⟩ := Ingress.start_eq_ok accepted
  have never := sound.subscribed.not.mp (by simp [free])
  simpa [running] using never

theorem sound_start {handler : Handler} {i : Ingress Handler}
    (accepted : x.ingress.start handler = .ok i) (token : Nat) :
    ({ x with ingress := if token ∈ x.fired then i.cancel else i, token := some token } :
      Exchange Handler).Sound := by
  obtain ⟨running, -, rfl⟩ := Ingress.start_eq_ok accepted
  by_cases fired : token ∈ x.fired
  · refine ⟨by simp [fired, running, Ingress.cancel], ?_⟩
    simp [fired, running, Ingress.cancel, Ingress.subscriber, Severed]
  · refine ⟨by simp [fired, running], ?_⟩
    simp [fired, running, Ingress.subscriber, Severed]

theorem sound_fire (sound : x.Sound) (token : Nat) :
    ({ x with
      ingress := if x.token = some token then x.ingress.cancel else x.ingress
      fired := token :: x.fired } : Exchange Handler).Sound := by
  by_cases own : x.token = some token
  · have kept := sound.subscribed
    refine ⟨by simpa [own, Ingress.cancel] using kept, ?_⟩
    simp [own, Severed]
  · have kept := sound.subscriber
    refine ⟨by simpa [own] using sound.subscribed, ?_⟩
    rintro s there
    rw [if_neg own] at there
    obtain ⟨some_token, cancelled⟩ := kept s there
    refine ⟨some_token, cancelled.trans ?_⟩
    have other : ∀ t, x.token = some t → t ≠ token := by
      rintro t same rfl
      exact own same
    simp only [Severed, if_neg own, List.mem_cons]
    grind

theorem sound_stop (sound : x.Sound) :
    ({ x with ingress := x.ingress.stop } : Exchange Handler).Sound := by
  refine ⟨by simp [Ingress.stop], ?_⟩
  intro s there
  change x.ingress.cancel.subscriber = some s at there
  rw [Ingress.subscriber_cancel, Option.map_eq_some_iff] at there
  obtain ⟨s', there, rfl⟩ := there
  exact ⟨(sound.subscriber s' there).1, iff_of_true rfl (.inl rfl)⟩

/-- Each step keeps the point informed. -/
theorem sound_step (sound : x.Sound) (step : x.step? a = some (y, outputs)) : y.Sound := by
  have step := step_of_step? step
  induction step with
  | startRefused _ => exact sound
  | started accepted => exact sound_start accepted _
  | turnedAway _ => exact sound.of_alike ⟨rfl, rfl, rfl⟩ rfl rfl
  | waits waits => exact sound.of_alike (Ingress.inject_eq_ok waits).1 rfl rfl
  | handed handed => exact sound.of_alike (Ingress.handOver?_eq_some handed).1 rfl rfl
  | halted halted =>
    obtain ⟨-, gone, stopped, subscribed, -⟩ := Ingress.halt?_eq_some halted
    refine ⟨?_, ?_⟩
    · rw [subscribed, stopped]
      exact sound.subscribed
    · rw [gone]
      exact nofun
  | finished _ heard => exact sound.of_alike (Ingress.verdict?_eq_some heard).1 rfl rfl
  | unheard _ _ => exact sound.of_alike ⟨rfl, rfl, rfl⟩ rfl rfl
  | fired => exact sound_fire sound _
  | stopped => exact sound_stop sound

/-- What was stopped, accepted or fired stays so. -/
structure Kept (x y : Exchange Handler) : Prop where
  stopped : x.ingress.stopped = true → y.ingress.stopped = true
  token : ∀ token, x.token = some token → y.token = some token
  fired : x.fired ⊆ y.fired

theorem Severed.of_kept (severed : x.Severed) (kept : x.Kept y) : y.Severed := by
  rcases severed with stopped | ⟨token, own, fired⟩
  · exact .inl (kept.stopped stopped)
  · exact .inr ⟨token, kept.token token own, kept.fired fired⟩

theorem kept_step (sound : x.Sound) (step : x.step? a = some (y, outputs)) : x.Kept y := by
  have of_stopped {y : Exchange Handler} (stopped : y.ingress.stopped = x.ingress.stopped)
      (token : y.token = x.token) (fired : y.fired = x.fired) : x.Kept y :=
    ⟨(stopped.trans ·), fun _ own ↦ token.trans own, fired ▸ List.Subset.refl _⟩
  have step := step_of_step? step
  induction step with
  | startRefused _ => exact of_stopped rfl rfl rfl
  | started accepted =>
    obtain ⟨running, -, -⟩ := Ingress.start_eq_ok accepted
    refine ⟨fun stopped ↦ absurd (running.symm.trans stopped) nofun, ?_, .refl _⟩
    rw [token_eq_none_of_start sound accepted]
    exact nofun
  | turnedAway _ => exact of_stopped rfl rfl rfl
  | waits waits => exact of_stopped (Ingress.inject_eq_ok waits).1.stopped rfl rfl
  | handed handed => exact of_stopped (Ingress.handOver?_eq_some handed).1.stopped rfl rfl
  | halted halted => exact of_stopped (Ingress.halt?_eq_some halted).2.2.1 rfl rfl
  | finished _ heard => exact of_stopped (Ingress.verdict?_eq_some heard).1.stopped rfl rfl
  | unheard _ _ => exact of_stopped rfl rfl rfl
  | fired =>
    refine ⟨fun stopped ↦ ?_, fun _ ↦ id, List.subset_cons_self _ _⟩
    dsimp only
    split
    · exact stopped
    · exact stopped
  | stopped => exact ⟨fun _ ↦ rfl, fun _ ↦ id, .refl _⟩

end Exchange

end Memory

end MessageBridge
