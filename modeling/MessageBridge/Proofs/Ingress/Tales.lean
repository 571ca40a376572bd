import MessageBridge.Proofs.Ingress.Exchange

/-!
# The tales of injections

The history of one injection is short, and where the injection stands in the machine decides it:
nothing has happened yet, its message waits in the queue, its message is with the handler, or it has
been answered (`Tale`). A step moves at most the injections that it is about, so this one fact about
every number (`Exchange.Fates`) is kept by all steps. Whatever may be concluded from an answer is
then read off the few histories that end with it.
-/

namespace MessageBridge.Memory

variable {Handler : Type} {events outputs : List (Event Handler)} {call : Nat}

/-! ## Tales -/

/-- The part of a history that is about one injection. -/
def Event.tale (call : Nat) (events : List (Event Handler)) : List (Event Handler) :=
  events.filter fun e ↦ e.call? == some call

theorem Event.tale_append (call : Nat) (events outputs : List (Event Handler)) :
    tale call (events ++ outputs) = tale call events ++ tale call outputs := List.filter_append ..

theorem Event.mem_tale {e : Event Handler} :
    e ∈ tale call events ↔ e ∈ events ∧ e.call? = some call := by
  simp [tale]

theorem Event.tale_of_all (about : ∀ e ∈ outputs, e.call? = some call) :
    tale call outputs = outputs := by
  simpa [tale, List.filter_eq_self] using about

theorem Event.tale_of_none (about : ∀ e ∈ outputs, e.call? ≠ some call) :
    tale call outputs = [] := by
  simpa [tale, List.filter_eq_nil_iff] using about

theorem Event.tale_answers {calls : List Nat} (once : calls.Nodup) (call : Nat)
    (result : Except InjectError Unit) :
    tale call (calls.map fun c ↦ (.answered c result : Event Handler)) =
      if call ∈ calls then [.answered call result] else [] := by
  have own :
      (fun c ↦ (Event.answered c result : Event Handler).call? == some call) = (· == call) := by
    funext c
    simp [Event.call?]
  rw [tale, List.filter_map, Function.comp_def, own, List.filter_beq]
  split
  · rename_i mem
    rw [List.count_eq_one_of_mem once mem]
    rfl
  · rename_i missing
    rw [List.count_eq_zero.mpr missing]
    rfl

/-- The injection returned with a commit. -/
def Event.isCommit : Event Handler → Bool
  | .answered _ (.ok ()) => true
  | _ => false

/-- The handler was invoked with the message of the injection. -/
def Event.isHanded (call : Nat) : Event Handler → Bool
  | .handed c _ _ => c == call
  | _ => false

/-- The injection returned. -/
def Event.isAnswer (call : Nat) : Event Handler → Bool
  | .answered c _ => c == call
  | _ => false

/-- Where an injection stands. -/
inductive Phase where
  /-- It has not begun. -/
  | unborn
  /-- Its message waits for the dispatcher. -/
  | queued (m : Message)
  /-- Its message is with the handler. -/
  | running
  /-- It has returned. -/
  | ended

/-- What has been noticed of an injection that stands there. -/
inductive Tale (call : Nat) : Phase → List (Event Handler) → Prop where
  | unborn : Tale call .unborn []
  | queued {given m : Message} : given.Completes m → Tale call (.queued m) [.injected call given]
  | running {given m : Message} {handler : Handler} : given.Completes m →
      Tale call .running [.injected call given, .handed call handler m]
  | settled {given m : Message} {handler : Handler} {verdict : Except HandleError Unit} :
      given.Completes m →
      Tale call .ended [.injected call given, .handed call handler m, .returned call verdict,
        .answered call (Ingress.answerOf verdict)]
  | sentAway {given : Message} {e : InjectError} : e = .notSubscribed ∨ e = .stopped →
      Tale call .ended [.injected call given, .answered call (.error e)]

theorem Event.mem_iff_mem_tale {e : Event Handler} (about : e.call? = some call) :
    e ∈ events ↔ e ∈ tale call events := by
  simp [mem_tale, about]

theorem Event.countP_tale {p : Event Handler → Bool} (about : ∀ e, p e = true → e.call? = some call)
    (events : List (Event Handler)) : events.countP p = (tale call events).countP p := by
  rw [tale, List.countP_filter]
  refine List.countP_congr fun e _ ↦ ?_
  constructor
  · intro holds
    simp [holds, about e holds]
  · intro both
    simpa using (Bool.and_eq_true_iff.mp both).1

namespace Tale

variable {phase : Phase}

theorem commit (tale : Tale call phase events) : .answered call (.ok ()) ∈ events ↔
    events.countP (Event.isHanded call) = 1 ∧ .returned call (.ok ()) ∈ events := by
  induction tale with
  | @settled _ _ _ verdict _ =>
    rcases verdict with e | ⟨⟩ <;> simp [Event.isHanded, Ingress.answerOf]
  | _ => simp [Event.isHanded]

theorem refusal (tale : Tale call phase events) (e : HandleError) :
    .answered call (.error (.refused e)) ∈ events ↔
      events.countP (Event.isHanded call) = 1 ∧ .returned call (.error e) ∈ events := by
  induction tale with
  | @settled _ _ _ verdict _ =>
    rcases verdict with e | ⟨⟩ <;> simp [Event.isHanded, Ingress.answerOf]
  | sentAway kind => rcases kind with rfl | rfl <;> simp [Event.isHanded]
  | _ => simp [Event.isHanded]

theorem unhandled (tale : Tale call phase events) {e : InjectError}
    (kind : e = .notSubscribed ∨ e = .stopped) (heard : .answered call (.error e) ∈ events) :
    events.countP (Event.isHanded call) = 0 := by
  induction tale with
  | @settled _ _ _ verdict _ =>
    rcases verdict with _ | ⟨⟩ <;> rcases kind with rfl | rfl <;> simp [Ingress.answerOf] at heard
  | sentAway _ => simp [Event.isHanded]
  | _ => simp at heard

theorem once (tale : Tale call phase events) : events.countP (Event.isAnswer call) ≤ 1 := by
  induction tale with
  | _ => simp [Event.isAnswer]

theorem waits (tale : Tale call phase events) {given : Message}
    (injected : .injected call given ∈ events)
    (unanswered : events.countP (Event.isAnswer call) = 0) :
    (∃ m, phase = .queued m) ∨ phase = .running := by
  induction tale with
  | unborn => cases injected
  | @queued _ m _ => exact .inl ⟨m, rfl⟩
  | running _ => exact .inr rfl
  | settled _ => simp [Event.isAnswer] at unanswered
  | sentAway _ => simp [Event.isAnswer] at unanswered

theorem message (tale : Tale call phase events) {handler : Handler} {m : Message}
    (handed : .handed call handler m ∈ events) :
    ∃ given, .injected call given ∈ events ∧ given.Completes m := by
  induction tale with
  | running stamped | settled stamped =>
    simp only [List.mem_cons, Event.handed.injEq, reduceCtorEq, true_and, false_or,
      List.not_mem_nil, or_false] at handed
    exact ⟨_, List.mem_cons_self, handed.2 ▸ stamped⟩
  | _ => simp at handed

end Tale

namespace Exchange

variable {x y : Exchange Handler} {a : Act Handler} {phase : Phase}

/-- The injection stands there. -/
structure At (x : Exchange Handler) (call : Nat) (phase : Phase) : Prop where
  named : call < x.injections ↔ phase ≠ .unborn
  queued : ∀ m, ⟨call, m⟩ ∈ x.ingress.queue ↔ phase = .queued m
  running : call ∈ x.running ↔ phase = .running
  pending : call ∈ x.ingress.pending ↔ phase = .running ∨ ∃ m, phase = .queued m

/-- Nothing has changed for the injection. -/
structure Passed (x y : Exchange Handler) (call : Nat) : Prop where
  named : call < y.injections ↔ call < x.injections
  queued : ∀ m, ⟨call, m⟩ ∈ y.ingress.queue ↔ ⟨call, m⟩ ∈ x.ingress.queue
  running : call ∈ y.running ↔ call ∈ x.running
  pending : call ∈ y.ingress.pending ↔ call ∈ x.ingress.pending

theorem At.of_passed (stands : x.At call phase) (passed : x.Passed y call) : y.At call phase :=
  ⟨passed.named.trans stands.named, fun m ↦ (passed.queued m).trans (stands.queued m),
    passed.running.trans stands.running, passed.pending.trans stands.pending⟩

theorem Passed.of_eq (named : y.injections = x.injections)
    (queue : y.ingress.queue = x.ingress.queue) (running : y.running = x.running)
    (pending : y.ingress.pending = x.ingress.pending) (call : Nat) : x.Passed y call := by
  refine ⟨?_, ?_, ?_, ?_⟩
  · rw [named]
  · rw [queue]
    exact fun _ ↦ .rfl
  · rw [running]
  · rw [pending]

/-- Each injection stands where its tale has come to, and none waits twice. -/
structure Fates (x : Exchange Handler) (events : List (Event Handler)) : Prop where
  once : (x.ingress.queue.map Delivery.call).Nodup
  tales : ∀ call, ∃ phase, x.At call phase ∧ Tale call phase (Event.tale call events)

theorem fates_ofName (source : String) : (ofName source : Exchange Handler).Fates [] := by
  refine ⟨List.nodup_nil, fun call ↦ ⟨.unborn, ⟨?_, ?_, ?_, ?_⟩, .unborn⟩⟩
  all_goals simp [ofName, Ingress.ofName, Ingress.queue]

/-! ## Steps -/

/-- A step that is about no injection. -/
theorem Fates.pass (fates : x.Fates events) (once : (y.ingress.queue.map Delivery.call).Nodup)
    (passed : ∀ call, x.Passed y call) (about : ∀ e ∈ outputs, e.call? = none) :
    y.Fates (events ++ outputs) := by
  refine ⟨once, fun call ↦ ?_⟩
  obtain ⟨phase, stands, tale⟩ := fates.tales call
  refine ⟨phase, stands.of_passed (passed call), ?_⟩
  have quiet : Event.tale call outputs = [] :=
    Event.tale_of_none fun e mem ↦ by simp [about e mem]
  rwa [Event.tale_append, quiet, List.append_nil]

/-- A step that is about one injection. -/
theorem Fates.turn (fates : x.Fates events) (call : Nat)
    (once : (y.ingress.queue.map Delivery.call).Nodup)
    (passed : ∀ other, other ≠ call → x.Passed y other)
    (about : ∀ e ∈ outputs, e.call? = some call)
    (own : ∀ phase, x.At call phase → Tale call phase (Event.tale call events) →
      ∃ next, y.At call next ∧ Tale call next (Event.tale call events ++ outputs)) :
    y.Fates (events ++ outputs) := by
  refine ⟨once, fun other ↦ ?_⟩
  obtain ⟨phase, stands, tale⟩ := fates.tales other
  by_cases same : other = call
  · subst same
    rw [Event.tale_append, Event.tale_of_all about]
    exact own phase stands tale
  · refine ⟨phase, stands.of_passed (passed other same), ?_⟩
    have quiet : Event.tale other outputs = [] := by
      refine Event.tale_of_none fun e mem this ↦ same ?_
      exact Option.some.inj (this.symm.trans (about e mem))
    rwa [Event.tale_append, quiet, List.append_nil]

theorem Fates.unmoved (fates : x.Fates events) (named : y.injections = x.injections)
    (queue : y.ingress.queue = x.ingress.queue) (running : y.running = x.running)
    (pending : y.ingress.pending = x.ingress.pending) (about : ∀ e ∈ outputs, e.call? = none) :
    y.Fates (events ++ outputs) :=
  fates.pass (queue ▸ fates.once) (.of_eq named queue running pending) about

theorem Fates.started {handler : Handler} {i : Ingress Handler} (fates : x.Fates events)
    (sound : x.Sound) (accepted : x.ingress.start handler = .ok i) (token : Nat) :
    ({ x with ingress := if token ∈ x.fired then i.cancel else i, token := some token } :
      Exchange Handler).Fates (events ++ [.started handler]) := by
  have nobody : x.ingress.subscriber = none := by
    refine Option.eq_none_iff_forall_ne_some.mpr fun s there ↦ ?_
    have some_token := (sound.subscriber s there).1
    rw [token_eq_none_of_start sound accepted] at some_token
    cases some_token
  obtain ⟨-, -, rfl⟩ := Ingress.start_eq_ok accepted
  refine fates.unmoved rfl ?_ rfl ?_ (by simp [Event.call?])
  · rw [Ingress.queue_eq_nil nobody]
    dsimp only
    split
    · rw [Ingress.queue_cancel]
      rfl
    · rfl
  · dsimp only
    split <;> rfl

theorem Fates.fired (fates : x.Fates events) (token : Nat) :
    ({ x with
      ingress := if x.token = some token then x.ingress.cancel else x.ingress
      fired := token :: x.fired } : Exchange Handler).Fates (events ++ []) := by
  refine fates.unmoved rfl ?_ rfl ?_ (by simp)
  · dsimp only
    split
    · rw [Ingress.queue_cancel]
    · rfl
  · dsimp only
    split <;> rfl

/-- The tale of the next injection has not begun. -/
theorem At.unborn_of_eq (stands : x.At x.injections phase) : phase = .unborn := by
  by_contra born
  exact Nat.lt_irrefl _ (stands.named.mpr born)

theorem Fates.turnedAway (fates : x.Fates events) (given : Message) {e : InjectError}
    (kind : e = .notSubscribed ∨ e = .stopped) :
    ({ x with injections := x.injections + 1 } : Exchange Handler).Fates
      (events ++ [.injected x.injections given, .answered x.injections (.error e)]) := by
  refine fates.turn x.injections fates.once ?_ (by simp [Event.call?]) ?_
  · intro other differ
    exact ⟨by dsimp only; omega, fun _ ↦ .rfl, .rfl, .rfl⟩
  · intro phase stands tale
    obtain rfl := stands.unborn_of_eq
    generalize Event.tale x.injections events = told at tale
    cases tale
    refine ⟨.ended, ⟨by simp, ?_, ?_, ?_⟩, .sentAway kind⟩
    · simpa using stands.queued
    · simpa using stands.running
    · simpa using stands.pending

theorem Fates.waits (fates : x.Fates events) (given : Message) {m : Message}
    (stamped : given.Completes m) {i : Ingress Handler}
    (waits : x.ingress.inject x.injections m = .ok i) :
    ({ x with ingress := i, injections := x.injections + 1 } : Exchange Handler).Fates
      (events ++ [.injected x.injections given]) := by
  obtain ⟨-, queue, pending, -⟩ := Ingress.inject_eq_ok waits
  obtain ⟨before, stands, tale⟩ := fates.tales x.injections
  obtain rfl := stands.unborn_of_eq
  have new : ∀ d ∈ x.ingress.queue, d.call ≠ x.injections := by
    rintro ⟨call, m'⟩ mem rfl
    exact absurd ((stands.queued m').mp mem) nofun
  refine fates.turn x.injections ?_ ?_ (by simp [Event.call?]) ?_
  · rw [queue, List.map_append, List.nodup_append]
    refine ⟨fates.once, List.nodup_singleton _, ?_⟩
    simpa using new
  · intro other differ
    refine ⟨by dsimp only; omega, ?_, .rfl, ?_⟩
    · simp [queue, differ]
    · simp [pending, differ]
  · intro phase stands tale
    obtain rfl := stands.unborn_of_eq
    generalize Event.tale x.injections events = told at tale
    cases tale
    refine ⟨.queued m, ⟨by simp, ?_, ?_, ?_⟩, .queued stamped⟩
    · have none_yet := stands.queued
      simp only [reduceCtorEq, iff_false] at none_yet
      simp [queue, none_yet, eq_comm]
    · simpa using stands.running
    · simp [pending]

theorem Fates.handed {handler : Handler} {d : Delivery} {i : Ingress Handler}
    (fates : x.Fates events) (taken : x.ingress.handOver? = some ((handler, d), i)) :
    ({ x with ingress := i, running := d.call :: x.running } : Exchange Handler).Fates
      (events ++ [.handed d.call handler d.message]) := by
  obtain ⟨call, m⟩ := d
  obtain ⟨-, -, queue, pending, -⟩ := Ingress.handOver?_eq_some taken
  obtain ⟨gone, once⟩ : call ∉ i.queue.map Delivery.call ∧ (i.queue.map Delivery.call).Nodup := by
    have once := fates.once
    rwa [queue, List.map_cons, List.nodup_cons] at once
  have not_left (m' : Message) : ⟨call, m'⟩ ∉ i.queue := fun mem ↦ gone (List.mem_map_of_mem mem)
  refine fates.turn call once ?_ (by simp [Event.call?]) ?_
  · intro other differ
    exact ⟨.rfl, by simp [queue, differ], by simp [differ], by rw [pending]⟩
  · intro phase stands tale
    obtain rfl : phase = .queued m := (stands.queued m).mp (by simp [queue])
    generalize Event.tale call events = told at tale
    cases tale with
    | queued stamped =>
      refine ⟨.running, ⟨?_, ?_, by simp, ?_⟩, .running stamped⟩
      · simpa using stands.named
      · simpa using not_left
      · rw [pending]
        simpa using stands.pending

theorem Fates.finished {verdict : Except HandleError Unit} {answer : Except InjectError Unit}
    {i : Ingress Handler} (fates : x.Fates events) (running : call ∈ x.running)
    (heard : x.ingress.verdict? call verdict = some (answer, i)) :
    ({ x with ingress := i, running := x.running.filter fun c ↦ c != call } :
      Exchange Handler).Fates (events ++ [.returned call verdict, .answered call answer]) := by
  obtain ⟨-, queue, rfl, pending, -⟩ := Ingress.verdict?_eq_some heard
  refine fates.turn call (queue ▸ fates.once) ?_ (by simp [Event.call?]) ?_
  · intro other differ
    refine ⟨.rfl, ?_, by simp [differ], by simp [pending, differ]⟩
    rw [queue]
    exact fun _ ↦ .rfl
  · intro phase stands tale
    obtain rfl := stands.running.mp running
    generalize Event.tale call events = told at tale
    cases tale with
    | running stamped =>
      refine ⟨.ended, ⟨?_, ?_, by simp, by simp [pending]⟩, .settled stamped⟩
      · simpa using stands.named
      · rw [queue]
        simpa using stands.queued

/-- Whoever waits for a handler that is at work hears its verdict. -/
theorem Fates.mem_pending (fates : x.Fates events) (running : call ∈ x.running) :
    call ∈ x.ingress.pending := by
  obtain ⟨phase, stands, -⟩ := fates.tales call
  exact stands.pending.mpr (.inl (stands.running.mp running))

theorem Fates.halted {calls : List Nat} {i : Ingress Handler} (fates : x.Fates events)
    (ended : x.ingress.halt? = some (calls, i)) :
    ({ x with ingress := i } : Exchange Handler).Fates
      (events ++ calls.map fun c ↦ .answered c (.error .stopped)) := by
  obtain ⟨-, gone, -, -, -, rfl, pending⟩ := Ingress.halt?_eq_some ended
  have queue := Ingress.queue_eq_nil gone
  -- everyone in the queue waits for a verdict
  have all : (x.ingress.queue.map Delivery.call).filter x.ingress.pending.contains =
      x.ingress.queue.map Delivery.call := by
    rw [List.filter_eq_self]
    intro call mem
    obtain ⟨d, there, rfl⟩ := List.mem_map.mp mem
    obtain ⟨phase, stands, -⟩ := fates.tales d.call
    have waits := (stands.queued d.message).mp there
    simpa using stands.pending.mpr (.inr ⟨d.message, waits⟩)
  rw [all]
  refine ⟨by simp [queue], fun call ↦ ?_⟩
  obtain ⟨phase, stands, tale⟩ := fates.tales call
  rw [Event.tale_append, Event.tale_answers fates.once]
  by_cases mem : call ∈ x.ingress.queue.map Delivery.call
  · rw [if_pos mem]
    obtain ⟨⟨_, m⟩, there, rfl⟩ := List.mem_map.mp mem
    obtain rfl := (stands.queued m).mp there
    dsimp only at *
    generalize Event.tale _ events = told at tale
    cases tale
    refine ⟨.ended, ⟨?_, by simp [queue], ?_, ?_⟩, .sentAway (.inr rfl)⟩
    · simpa using stands.named
    · simpa using stands.running
    · rw [pending, List.mem_filter, List.contains_iff_mem.mpr mem]
      simp
  · rw [if_neg mem, List.append_nil]
    have not_queued (m : Message) : ⟨call, m⟩ ∉ x.ingress.queue :=
      fun there ↦ mem (List.mem_map_of_mem there)
    refine ⟨phase, stands.of_passed ⟨.rfl, ?_, .rfl, ?_⟩, tale⟩
    · simp [queue, not_queued]
    · have kept := Bool.eq_false_iff.mpr fun yes ↦ mem (List.contains_iff_mem.mp yes)
      rw [pending, List.mem_filter, kept]
      simp

theorem fates_step (fates : x.Fates events) (sound : x.Sound)
    (step : x.step? a = some (y, outputs)) : y.Fates (events ++ outputs) := by
  have step := step_of_step? step
  induction step with
  | startRefused _ => exact fates.unmoved rfl rfl rfl rfl (by simp [Event.call?])
  | started accepted => exact fates.started sound accepted _
  | turnedAway turned_away => exact fates.turnedAway _ (Ingress.inject_eq_error turned_away)
  | waits waits => exact fates.waits _ (Message.completes_stamp _ _ _) waits
  | handed taken => exact fates.handed taken
  | halted ended => exact fates.halted ended
  | finished running heard => exact fates.finished running heard
  | unheard running unheard =>
    exact absurd (fates.mem_pending running) (Ingress.not_mem_pending_of_verdict? unheard)
  | fired => exact fates.fired _
  | stopped => exact fates.unmoved rfl (Ingress.queue_cancel _) rfl rfl (by simp)

end Exchange

end MessageBridge.Memory
