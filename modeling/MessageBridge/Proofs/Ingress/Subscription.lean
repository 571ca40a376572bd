import MessageBridge.Proofs.Ingress.Fidelity
import MessageBridge.Proofs.Lane.Moves

/-!
# What a point says about its subscription

A point says that it has a handler from the moment that it accepts one until it is stopped. Whether
an injection gets through depends on the dispatcher, which also ends when the token of its handler
is fired, and of that the point takes no notice.

So a point is asked while its dispatcher waits, and its answer is compared with what comes of an
injection that begins at this moment (`Exchange.Outcome`). Its word is good except in one situation:
the token was fired, and nobody has stopped the point since (`Exchange.Deserted`). Then it says that
it has a handler and sends every message away. `Exchange.subscription` says so of every run.
-/

namespace MessageBridge

/-! ## Queues that take more -/

/-- The queue is sound and takes more. -/
structure Queue.Open {α : Type*} (q : Queue α) : Prop where
  sound : q.Sound
  closed : q.closed = false
  depth : 0 < q.depth

namespace Queue

variable {α : Type*} {a : α} {q r : Queue α}

theorem open_empty {depth : Nat} (some_place : 0 < depth) : (empty depth : Queue α).Open :=
  ⟨sound_empty depth, rfl, some_place⟩

theorem Open.offer? (takes : q.Open) (offered : q.offer? a = some r) : r.Open := by
  have sound := takes.sound.offer? offered
  have depth := takes.depth
  have closed := takes.closed
  unfold Queue.offer? at offered
  split at offered
  · cases offered
  · split at offered
    · cases offered
      exact ⟨sound, closed, depth⟩
    · cases offered
      exact ⟨sound, closed, depth⟩

theorem Open.take? (takes : q.Open) (taken : q.take? = some (a, r)) : r.Open := by
  refine ⟨takes.sound.take? taken, (closed_take? taken).trans takes.closed, ?_⟩
  have depth := takes.depth
  unfold Queue.take? at taken
  split at taken
  · cases taken
  · split at taken
    · cases taken
      exact depth
    · cases taken
      exact depth

/-- Nothing is in an open queue from which nothing can be taken. -/
theorem Open.eq_nil (takes : q.Open) (none_left : q.take? = none) :
    q.accepted = [] ∧ q.waiting = [] := by
  have accepted : q.accepted = [] := by
    cases there : q.accepted with
    | nil => rfl
    | cons a rest => cases others : q.waiting <;> simp [Queue.take?, there, others] at none_left
  refine ⟨accepted, ?_⟩
  by_contra some_wait
  have full := (takes.sound.full_of_waiting some_wait).1
  rw [accepted, List.length_nil] at full
  exact absurd takes.depth (by omega)

theorem Open.offer?_of_nil (takes : q.Open) (none_left : q.take? = none) (a : α) :
    q.offer? a = some { q with accepted := [a] } := by
  obtain ⟨accepted, waiting⟩ := takes.eq_nil none_left
  have depth := takes.depth
  simp [Queue.offer?, hasPlace, takes.closed, accepted, waiting, depth]

end Queue

namespace Memory

variable {Handler : Type}

namespace Ingress

variable {i j : Ingress Handler} {call : Nat} {m : Message}

/-- The queue of the dispatcher takes more messages, until the dispatcher ends. -/
def Open (i : Ingress Handler) : Prop := ∀ d, i.dispatcher = some d → d.deliveries.Open

theorem Open.start {handler : Handler} (accepted : i.start handler = .ok j) : j.Open := by
  obtain ⟨-, -, rfl⟩ := start_eq_ok accepted
  intro d there
  cases there
  exact Queue.open_empty (by decide)

theorem Open.cancel (takes : i.Open) : i.cancel.Open := by
  intro d there
  obtain ⟨d', there', rfl⟩ := Option.map_eq_some_iff.mp there
  exact takes d' there'

theorem Open.inject (takes : i.Open) (waits : i.inject call m = .ok j) : j.Open := by
  unfold Ingress.inject at waits
  split at waits
  · cases waits
  · split at waits
    · cases waits
    · split at waits
      · cases waits
      · rename_i d there
        split at waits
        · cases waits
        · rename_i q offered
          cases waits
          intro d' there'
          cases there'
          exact (takes d there).offer? offered

theorem Open.handOver? {taken : Handler × Delivery} (takes : i.Open)
    (handed : i.handOver? = some (taken, j)) : j.Open := by
  unfold Ingress.handOver? at handed
  obtain ⟨d, there, handed⟩ := Option.bind_eq_some_iff.mp handed
  split at handed
  · cases handed
  · obtain ⟨⟨delivery, q⟩, first, same⟩ := Option.bind_eq_some_iff.mp handed
    cases same
    intro d' there'
    cases there'
    exact (takes d there).take? first

theorem Open.halt? {calls : List Nat} (ended : i.halt? = some (calls, j)) : j.Open := by
  obtain ⟨-, gone, -⟩ := halt?_eq_some ended
  intro d there
  rw [subscriber, there] at gone
  cases gone

theorem Open.verdict? {verdict : Except HandleError Unit} {answer : Except InjectError Unit}
    (takes : i.Open) (heard : i.verdict? call verdict = some (answer, j)) : j.Open := by
  unfold Ingress.verdict? at heard
  split at heard
  · split at heard
    · cases heard
      exact takes
    · cases heard
      exact takes
  · cases heard

/-! ### Injections into a point whose dispatcher waits -/

/-- An injection reaches the queue of a dispatcher that waits for messages. -/
theorem inject_of_idle {d : Dispatcher Handler} (running : i.stopped = false)
    (subscribed : i.subscribed = true) (there : i.dispatcher = some d) (takes : d.deliveries.Open)
    (none_left : d.deliveries.take? = none) (call : Nat) (m : Message) :
    ∃ j, i.inject call m = .ok j ∧ j.dispatcher = some { d with
      deliveries := { d.deliveries with accepted := [⟨call, m⟩] } } := by
  simp [inject, running, subscribed, there, takes.offer?_of_nil none_left]

theorem handOver?_of_single {d : Dispatcher Handler} {q : Queue Delivery} {delivery : Delivery}
    (there : i.dispatcher = some { d with deliveries := { q with accepted := [delivery] } })
    (live : d.cancelled = false) (none_wait : q.waiting = []) :
    ∃ j, i.handOver? = some ((d.handler, delivery), j) ∧
      j.dispatcher = some { d with deliveries := { q with accepted := [] } } := by
  simp [handOver?, there, live, Queue.take?, none_wait]

theorem inject_of_nobody (nobody : i.dispatcher = none) (call : Nat) (m : Message) :
    ∃ e, i.inject call m = .error e := by
  unfold inject
  rw [nobody]
  split
  · exact ⟨_, rfl⟩
  · split
    · exact ⟨_, rfl⟩
    · exact ⟨_, rfl⟩

theorem halt?_of_cancelled {d : Dispatcher Handler} (there : i.dispatcher = some d)
    (cancelled : d.cancelled = true) : i.halt? ≠ none := by
  simp [halt?, there, cancelled]

end Ingress

namespace Exchange

variable {source : String} {x y z : Exchange Handler} {a : Act Handler}
  {outputs events : List (Event Handler)} {handler : Handler} {m : Message}
  {past later : List (Moment (Exchange Handler) (Act Handler) (Event Handler))}

/-! ## A dispatcher for every subscription -/

/-- A handler whose subscription was not cut has its dispatcher, and the queue of a dispatcher takes
messages. -/
structure Served (x : Exchange Handler) : Prop where
  there : x.token.isSome → ¬ x.Severed → x.ingress.subscriber.isSome
  takes : x.ingress.Open

theorem served_ofName (source : String) : (ofName source : Exchange Handler).Served :=
  ⟨nofun, nofun⟩

theorem open_of_step (takes : x.ingress.Open) (step : x.step? a = some (y, outputs)) :
    y.ingress.Open := by
  have step := step_of_step? step
  induction step with
  | startRefused _ => exact takes
  | started accepted =>
    dsimp only
    split
    · exact (Ingress.Open.start accepted).cancel
    · exact .start accepted
  | turnedAway _ => exact takes
  | waits waits => exact takes.inject waits
  | handed taken => exact takes.handOver? taken
  | halted ended => exact .halt? ended
  | finished _ heard => exact takes.verdict? heard
  | unheard _ _ => exact takes
  | fired =>
    dsimp only
    split
    · exact takes.cancel
    · exact takes
  | stopped => exact takes.cancel

/-- Only a dispatcher whose subscription was cut ends. -/
theorem Served.step (served : x.Served) (sound : x.Sound) (step : x.step? a = some (y, outputs)) :
    y.Served := by
  refine ⟨?_, open_of_step served.takes step⟩
  intro some_token going_on
  have going_on_before : ¬ x.Severed := fun cut ↦ going_on (cut.of_kept (kept_step sound step))
  have of_alike (alike : x.ingress.Alike y.ingress) (token : y.token = x.token) :
      y.ingress.subscriber.isSome := by
    rw [alike.subscriber]
    rw [token] at some_token
    exact served.there some_token going_on_before
  have step := step_of_step? step
  induction step with
  | startRefused _ => exact of_alike ⟨rfl, rfl, rfl⟩ rfl
  | started accepted =>
    obtain ⟨-, -, rfl⟩ := Ingress.start_eq_ok accepted
    dsimp only
    split
    · rw [Ingress.subscriber_cancel]
      rfl
    · rfl
  | turnedAway _ => exact of_alike ⟨rfl, rfl, rfl⟩ rfl
  | waits waits => exact of_alike (Ingress.inject_eq_ok waits).1 rfl
  | handed taken => exact of_alike (Ingress.handOver?_eq_some taken).1 rfl
  | halted ended =>
    obtain ⟨⟨handler, cancelled⟩, -⟩ := Ingress.halt?_eq_some ended
    exact absurd ((sound.subscriber _ cancelled).2.mp rfl) going_on_before
  | finished _ heard => exact of_alike (Ingress.verdict?_eq_some heard).1 rfl
  | unheard _ _ => exact of_alike ⟨rfl, rfl, rfl⟩ rfl
  | fired =>
    have before := served.there some_token going_on_before
    dsimp only
    split
    · rw [Ingress.subscriber_cancel, Option.isSome_map]
      exact before
    · exact before
  | stopped => exact absurd (.inl rfl) going_on

theorem served_of_runs (runs : Runs source past x) : x.Served := by
  induction runs with
  | refl => exact served_ofName source
  | snoc before step ih => exact ih.step (sound_of_runs before) step

/-! ## What comes of an injection -/

/-- The dispatcher can do nothing, so it waits. -/
def Waits (x : Exchange Handler) : Prop := x.step? .handOver = none ∧ x.step? .halt = none

/-- Nothing happens but what the dispatcher does. -/
def ByDispatcher (later : List (Moment (Exchange Handler) (Act Handler) (Event Handler))) : Prop :=
  ∀ mo ∈ later, mo.action = .handOver ∨ mo.action = .halt

/-- What is noticed when an injection begins and then only the dispatcher acts, until it waits
again. -/
def Outcome (x : Exchange Handler) (id : String) (wall : Int) (m : Message)
    (events : List (Event Handler)) : Prop :=
  ∃ y outputs later z, x.step? (.inject id wall m) = some (y, outputs) ∧
    Execution step? y later z ∧ ByDispatcher later ∧ z.Waits ∧
    events = outputs ++ Moment.told later

/-- While a dispatcher waits it does nothing. -/
theorem Waits.eq_nil (waits : x.Waits) (exec : Execution step? x later y)
    (alone : ByDispatcher later) : later = [] := by
  cases later with
  | nil => rfl
  | cons mo later =>
    obtain ⟨rfl, step, -⟩ := exec.cons_inv
    rcases alone mo List.mem_cons_self with acts | acts
    · rw [acts, waits.1] at step
      cases step
    · rw [acts, waits.2] at step
      cases step

/-- Of an injection after which the dispatcher still waits, nothing more comes. -/
theorem outcome_of_waits {id : String} {wall : Int} {first : List (Event Handler)}
    (begun : x.step? (.inject id wall m) = some (y, first)) (waits : y.Waits) :
    x.Outcome id wall m events ↔ events = first := by
  constructor
  · rintro ⟨y', outputs, later, z, begun', exec, alone, -, rfl⟩
    obtain ⟨rfl, rfl⟩ := Prod.mk.inj (Option.some.inj (begun.symm.trans begun'))
    rw [waits.eq_nil exec alone]
    exact List.append_nil _
  · rintro rfl
    exact ⟨y, events, [], y, begun, .refl, List.forall_mem_nil _, waits, (List.append_nil _).symm⟩

theorem outcome_of_handOver {id : String} {wall : Int} {first last : List (Event Handler)}
    (begun : x.step? (.inject id wall m) = some (y, first))
    (given : y.step? .handOver = some (z, last)) (goes_on : y.step? .halt = none)
    (waits : z.Waits) : x.Outcome id wall m events ↔ events = first ++ last := by
  constructor
  · rintro ⟨y', outputs, later, z', begun', exec, alone, rest, rfl⟩
    obtain ⟨rfl, rfl⟩ := Prod.mk.inj (Option.some.inj (begun.symm.trans begun'))
    cases later with
    | nil =>
      rw [exec.eq_of_nil] at rest
      rw [rest.1] at given
      cases given
    | cons mo later =>
      obtain ⟨rfl, step, exec⟩ := exec.cons_inv
      rcases alone mo List.mem_cons_self with acts | acts
      · rw [acts, given] at step
        obtain ⟨rfl, told⟩ := Prod.mk.inj (Option.some.inj step)
        have none_more := waits.eq_nil exec fun mo mem ↦ alone mo (List.mem_cons_of_mem _ mem)
        rw [none_more, Moment.told_singleton, told]
      · rw [acts, goes_on] at step
        cases step
  · rintro rfl
    refine ⟨y, first, [⟨y, .handOver, z, last⟩], z, begun, Execution.refl.snoc given, ?_, waits, ?_⟩
    · intro mo mem
      rw [List.mem_singleton.mp mem]
      exact .inl rfl
    · rw [Moment.told_singleton]

theorem waits_iff : x.Waits ↔ x.ingress.handOver? = none ∧ x.ingress.halt? = none := by
  simp [Waits, step?]

theorem outcome_of_error (waits : x.Waits) {id : String} {wall : Int} {e : InjectError}
    (turned_away : x.ingress.inject x.injections (m.stamp id wall) = .error e) :
    x.Outcome id wall m events ↔
      events = [.injected x.injections m, .answered x.injections (.error e)] := by
  have begun : x.step? (.inject id wall m) = some ({ x with injections := x.injections + 1 },
      [.injected x.injections m, .answered x.injections (.error e)]) := by
    simp [step?, turned_away]
  have idle := waits_iff.mp waits
  exact outcome_of_waits begun (waits_iff.mpr idle)

/-- An injection that meets a dispatcher which waits for messages is handed over at once. -/
theorem outcome_of_idle {d : Dispatcher Handler} {id : String} {wall : Int}
    (running : x.ingress.stopped = false) (subscribed : x.ingress.subscribed = true)
    (there : x.ingress.dispatcher = some d) (live : d.cancelled = false)
    (takes : d.deliveries.Open) (none_left : d.deliveries.take? = none) :
    x.Outcome id wall m events ↔ events =
      [.injected x.injections m, .handed x.injections d.handler (m.stamp id wall)] := by
  obtain ⟨i, injected, there'⟩ := Ingress.inject_of_idle running subscribed there takes
    none_left x.injections (m.stamp id wall)
  obtain ⟨j, handed, left⟩ := Ingress.handOver?_of_single there' live (takes.eq_nil none_left).2
  have begun : x.step? (.inject id wall m) = some ({ x with
      ingress := i, injections := x.injections + 1 }, [.injected x.injections m]) := by
    simp [step?, injected]
  have given : step? { x with ingress := i, injections := x.injections + 1 } .handOver =
      some ({ x with
          ingress := j, injections := x.injections + 1, running := x.injections :: x.running },
        [.handed x.injections d.handler (m.stamp id wall)]) := by
    simp [step?, handed]
  refine outcome_of_handOver begun given ?_ (waits_iff.mpr ⟨?_, ?_⟩)
  · simp [step?, Ingress.halt?, there', live]
  · simp [Ingress.handOver?, left, live, Queue.take?]
  · simp [Ingress.halt?, left, live]

/-- While the dispatcher waits, an injection either is handed to the handler whose subscription was
not cut, or is sent away. -/
theorem outcome_cases (sound : x.Sound) (served : x.Served) (waits : x.Waits) (id : String)
    (wall : Int) (m : Message) :
    (∃ handler, x.ingress.subscriber = some (handler, false) ∧ x.token.isSome ∧ ¬ x.Severed ∧
        ∀ events, x.Outcome id wall m events ↔ events =
          [.injected x.injections m, .handed x.injections handler (m.stamp id wall)]) ∨
      (x.token = none ∨ x.Severed) ∧ ∃ e, ∀ events, x.Outcome id wall m events ↔
        events = [.injected x.injections m, .answered x.injections (.error e)] := by
  by_cases cut : x.token = none ∨ x.Severed
  · refine .inr ⟨cut, ?_⟩
    suffices nobody : x.ingress.dispatcher = none by
      obtain ⟨e, turned_away⟩ := Ingress.inject_of_nobody nobody x.injections (m.stamp id wall)
      exact ⟨e, fun events ↦ outcome_of_error waits turned_away⟩
    cases there : x.ingress.dispatcher with
    | none => rfl
    | some d =>
      -- a dispatcher that is still there has been cancelled, and so it does not wait
      have subscriber : x.ingress.subscriber = some (d.handler, d.cancelled) := by
        rw [Ingress.subscriber, there]
        rfl
      obtain ⟨some_token, cancelled⟩ := sound.subscriber _ subscriber
      rcases cut with no_token | severed
      · rw [no_token] at some_token
        cases some_token
      · exact absurd (waits_iff.mp waits).2
          (Ingress.halt?_of_cancelled there (cancelled.mpr severed))
  · obtain ⟨has_token, going_on⟩ := not_or.mp cut
    have some_token : x.token.isSome := Option.isSome_iff_ne_none.mpr has_token
    obtain ⟨s, subscriber⟩ := Option.isSome_iff_exists.mp (served.there some_token going_on)
    obtain ⟨d, there, rfl⟩ := Option.map_eq_some_iff.mp subscriber
    have live : d.cancelled = false := by
      have cancelled := (sound.subscriber _ subscriber).2
      exact Bool.eq_false_iff.mpr fun fired ↦ going_on (cancelled.mp fired)
    have running : x.ingress.stopped = false :=
      Bool.eq_false_iff.mpr fun stopped ↦ going_on (.inl stopped)
    have none_left : d.deliveries.take? = none := by
      have nothing := (waits_iff.mp waits).1
      cases taken : d.deliveries.take? with
      | none => rfl
      | some _ => simp [Ingress.handOver?, there, live, taken] at nothing
    refine .inl ⟨d.handler, ?_, some_token, going_on, fun events ↦ ?_⟩
    · rw [subscriber, live]
    · exact outcome_of_idle running (sound.subscribed.mpr ⟨some_token, running⟩) there live
        (served.takes d there) none_left

/-! ## What has happened to the subscription -/

/-- The handler was accepted, with this token. -/
def Subscribed (past : List (Moment (Exchange Handler) (Act Handler) (Event Handler)))
    (handler : Handler) (token : Nat) : Prop :=
  ∃ mo ∈ past, mo.action = .start handler token ∧ .started handler ∈ mo.outputs

/-- The token was fired, at whatever time. -/
def Fired (past : List (Moment (Exchange Handler) (Act Handler) (Event Handler))) (token : Nat) :
    Prop := ∃ mo ∈ past, mo.action = .fire token

/-- The point was stopped. -/
def Stopped (past : List (Moment (Exchange Handler) (Act Handler) (Event Handler))) : Prop :=
  ∃ mo ∈ past, mo.action = .stop

/-- The token of the handler was fired, and the point was not stopped. -/
def Deserted (past : List (Moment (Exchange Handler) (Act Handler) (Event Handler))) : Prop :=
  (∃ handler token, Subscribed past handler token ∧ Fired past token) ∧ ¬ Stopped past

/-- The state of the exchange comes from its history alone. -/
structure Recalls (past : List (Moment (Exchange Handler) (Act Handler) (Event Handler)))
    (x : Exchange Handler) : Prop where
  stopped : x.ingress.stopped = true → Stopped past
  token : ∀ token, x.token = some token → ∃ handler, Subscribed past handler token
  fired : ∀ token ∈ x.fired, Fired past token

theorem Recalls.append (recalls : Recalls past x)
    (later : List (Moment (Exchange Handler) (Act Handler) (Event Handler))) :
    Recalls (past ++ later) x := by
  have longer {p : Moment (Exchange Handler) (Act Handler) (Event Handler) → Prop}
      (before : ∃ mo ∈ past, p mo) : ∃ mo ∈ past ++ later, p mo := by
    obtain ⟨mo, mem, holds⟩ := before
    exact ⟨mo, List.mem_append_left _ mem, holds⟩
  refine ⟨fun stopped ↦ longer (recalls.stopped stopped), fun token own ↦ ?_,
    fun token fired ↦ longer (recalls.fired token fired)⟩
  obtain ⟨handler, subscribed⟩ := recalls.token token own
  exact ⟨handler, longer subscribed⟩

theorem Recalls.step (recalls : Recalls past x) (step : x.step? a = some (y, outputs)) :
    Recalls (past ++ [⟨x, a, y, outputs⟩]) y := by
  have now : (⟨x, a, y, outputs⟩ : Moment (Exchange Handler) (Act Handler) (Event Handler)) ∈
      past ++ [⟨x, a, y, outputs⟩] := List.mem_append_right _ (List.mem_singleton_self _)
  have before := recalls.append [⟨x, a, y, outputs⟩]
  have same (stopped : y.ingress.stopped = x.ingress.stopped) (token : y.token = x.token)
      (fired : y.fired = x.fired) : Recalls (past ++ [⟨x, a, y, outputs⟩]) y :=
    ⟨fun h ↦ before.stopped (stopped ▸ h), fun k own ↦ before.token k (token ▸ own),
      fun k mem ↦ before.fired k (fired ▸ mem)⟩
  have step := step_of_step? step
  induction step with
  | startRefused _ => exact same rfl rfl rfl
  | @started handler token i accepted =>
    obtain ⟨-, -, rfl⟩ := Ingress.start_eq_ok accepted
    refine ⟨?_, ?_, before.fired⟩
    · intro stopped
      apply before.stopped
      dsimp only at stopped
      split at stopped
      · exact stopped
      · exact stopped
    · intro own same
      cases same
      exact ⟨handler, _, now, rfl, List.mem_singleton_self _⟩
  | turnedAway _ => exact same rfl rfl rfl
  | waits waits => exact same (Ingress.inject_eq_ok waits).1.stopped rfl rfl
  | handed taken => exact same (Ingress.handOver?_eq_some taken).1.stopped rfl rfl
  | halted ended => exact same (Ingress.halt?_eq_some ended).2.2.1 rfl rfl
  | finished _ heard => exact same (Ingress.verdict?_eq_some heard).1.stopped rfl rfl
  | unheard _ _ => exact same rfl rfl rfl
  | @fired token =>
    refine ⟨?_, before.token, ?_⟩
    · intro stopped
      apply before.stopped
      dsimp only at stopped
      split at stopped
      · exact stopped
      · exact stopped
    · intro other mem
      rcases List.mem_cons.mp mem with rfl | mem
      · exact ⟨_, now, rfl⟩
      · exact before.fired other mem
  | stopped => exact ⟨fun _ ↦ ⟨_, now, rfl⟩, before.token, before.fired⟩

theorem recalls_of_runs (runs : Runs source past x) : Recalls past x := by
  induction runs with
  | refl => exact ⟨nofun, nofun, nofun⟩
  | snoc _ step ih => exact ih.step step

section History

variable (runs : Runs source past x)

include runs

theorem stopped_iff : x.ingress.stopped = true ↔ Stopped past := by
  refine ⟨(recalls_of_runs runs).stopped, ?_⟩
  rintro ⟨mo, mem, stop⟩
  exact (remembers_of_runs runs).stopped mo mem stop

theorem token_eq_some_iff {token : Nat} :
    x.token = some token ↔ ∃ handler, Subscribed past handler token := by
  refine ⟨(recalls_of_runs runs).token token, ?_⟩
  rintro ⟨handler, mo, mem, start, accepted⟩
  exact (remembers_of_runs runs).token mo mem handler token start accepted

theorem isSome_token_iff : x.token.isSome ↔ ∃ handler token, Subscribed past handler token := by
  rw [Option.isSome_iff_exists, exists_comm]
  exact exists_congr fun token ↦ token_eq_some_iff runs

theorem mem_fired_iff {token : Nat} : token ∈ x.fired ↔ Fired past token := by
  refine ⟨(recalls_of_runs runs).fired token, ?_⟩
  rintro ⟨mo, mem, fire⟩
  exact (remembers_of_runs runs).fired mo mem token fire

/-- One handler at most was accepted, with one token. -/
theorem subscribed_unique {other : Handler} {token token' : Nat}
    (this : Subscribed past handler token) (that : Subscribed past other token') :
    other = handler ∧ token' = token := by
  have own := (token_eq_some_iff runs).mpr ⟨handler, this⟩
  rw [(token_eq_some_iff runs).mpr ⟨other, that⟩] at own
  refine ⟨?_, Option.some.inj own⟩
  have told {handler : Handler} {token : Nat} (here : Subscribed past handler token) :
      .started handler ∈ Moment.told past := by
    obtain ⟨mo, mem, -, accepted⟩ := here
    exact Moment.mem_told.mpr ⟨mo, mem, accepted⟩
  exact (accepted_of_runs runs).one handler other (told this) (told that)

theorem eq_of_subscriber {token : Nat} {cancelled : Bool} (this : Subscribed past handler token)
    {other : Handler} (there : x.ingress.subscriber = some (other, cancelled)) :
    other = handler := by
  have accepted := accepted_of_runs runs
  obtain ⟨mo, mem, -, started⟩ := this
  exact accepted.one handler other (Moment.mem_told.mpr ⟨mo, mem, started⟩)
    (accepted.subscriber _ there)

end History

/-! ## The word of a point -/

/-- The point says that it has a handler exactly if an injection that begins now is handed to
one. -/
def Truthful (x : Exchange Handler) : Prop := ∀ id wall m events, x.Outcome id wall m events →
  (x.ingress.isSubscribed = true ↔
    ∃ handler, .handed x.injections handler (m.stamp id wall) ∈ events)

/-- What a point says about its subscription, and what comes of an injection. -/
structure Subscription (past : List (Moment (Exchange Handler) (Act Handler) (Event Handler)))
    (x : Exchange Handler) : Prop where
  /-- The point says that it has a handler once one was accepted, until it is stopped. -/
  word : x.ingress.isSubscribed = true ↔
    (∃ handler token, Subscribed past handler token) ∧ ¬ Stopped past
  /-- An injection that begins now comes to something. -/
  outcome : ∀ id wall m, ∃ events, x.Outcome id wall m events
  /-- Whatever it comes to, it is handed to the handler that was accepted, unless the token was
  fired or the point stopped. -/
  handed : ∀ id wall m events, x.Outcome id wall m events → ∀ handler,
    .handed x.injections handler (m.stamp id wall) ∈ events ↔
      ∃ token, Subscribed past handler token ∧ ¬ Fired past token ∧ ¬ Stopped past
  /-- So what the point says is true, unless it is deserted. -/
  truthful : x.Truthful ↔ ¬ Deserted past

theorem isSubscribed_iff (runs : Runs source past x) : x.ingress.isSubscribed = true ↔
    (∃ handler token, Subscribed past handler token) ∧ ¬ Stopped past := by
  have subscribed := (sound_of_runs runs).subscribed
  rw [isSome_token_iff runs, ← Bool.not_eq_true, stopped_iff runs] at subscribed
  rw [Ingress.isSubscribed, Bool.and_eq_true, Bool.not_eq_true', ← Bool.not_eq_true,
    stopped_iff runs, subscribed]
  tauto

theorem handed_iff (runs : Runs source past x) (waits : x.Waits) {id : String} {wall : Int}
    (outcome : x.Outcome id wall m events) :
    .handed x.injections handler (m.stamp id wall) ∈ events ↔
      ∃ token, Subscribed past handler token ∧ ¬ Fired past token ∧ ¬ Stopped past := by
  obtain ⟨other, subscriber, some_token, going_on, only⟩ | ⟨cut, e, only⟩ :=
    outcome_cases (sound_of_runs runs) (served_of_runs runs) waits id wall m
  · obtain ⟨other', token, accepted⟩ := (isSome_token_iff runs).mp some_token
    obtain rfl := eq_of_subscriber runs accepted subscriber
    obtain ⟨running, unfired⟩ := not_or.mp going_on
    rw [stopped_iff runs] at running
    have live : ¬ Fired past token := by
      intro fired
      exact unfired ⟨token, (token_eq_some_iff runs).mpr ⟨_, accepted⟩,
        (mem_fired_iff runs).mpr fired⟩
    rw [(only events).mp outcome]
    constructor
    · intro mem
      have same : handler = other := by simpa using mem
      exact ⟨token, same ▸ accepted, live, running⟩
    · rintro ⟨token', this, -⟩
      rw [(subscribed_unique runs accepted this).1]
      exact List.mem_cons_of_mem _ (List.mem_singleton_self _)
  · rw [(only events).mp outcome]
    refine iff_of_false (by simp) ?_
    rintro ⟨token, accepted, unfired, running⟩
    have own := (token_eq_some_iff runs).mpr ⟨handler, accepted⟩
    rcases cut with no_token | stopped | ⟨token', own', fired⟩
    · rw [no_token] at own
      cases own
    · exact running ((stopped_iff runs).mp stopped)
    · rw [own] at own'
      cases own'
      exact unfired ((mem_fired_iff runs).mp fired)

/-- **A point that says that it has a handler is right, unless the token of the handler was fired
and the point not stopped; one that says that it has none is always right.** -/
theorem subscription (runs : Runs source past x) (waits : x.Waits) : Subscription past x := by
  have word := isSubscribed_iff runs
  have outcome (id : String) (wall : Int) (m : Message) : ∃ events, x.Outcome id wall m events := by
    obtain ⟨_, -, -, -, only⟩ | ⟨-, _, only⟩ :=
      outcome_cases (sound_of_runs runs) (served_of_runs runs) waits id wall m
    · exact ⟨_, (only _).mpr rfl⟩
    · exact ⟨_, (only _).mpr rfl⟩
  refine ⟨word, outcome, fun id wall m events comes handler ↦ handed_iff runs waits comes, ?_⟩
  constructor
  · rintro truthful ⟨⟨handler, token, accepted, fired⟩, running⟩
    obtain ⟨events, comes⟩ := outcome "" 0 ⟨.empty, []⟩
    have asserted := word.mpr ⟨⟨handler, token, accepted⟩, running⟩
    obtain ⟨other, handed⟩ := (truthful _ _ _ events comes).mp asserted
    obtain ⟨token', this, unfired, -⟩ := (handed_iff runs waits comes).mp handed
    obtain ⟨-, rfl⟩ := subscribed_unique runs accepted this
    exact unfired fired
  · intro attended id wall m events comes
    rw [word]
    constructor
    · rintro ⟨⟨handler, token, accepted⟩, running⟩
      refine ⟨handler, (handed_iff runs waits comes).mpr ⟨token, accepted, ?_, running⟩⟩
      exact fun fired ↦ attended ⟨⟨handler, token, accepted, fired⟩, running⟩
    · rintro ⟨handler, handed⟩
      obtain ⟨token, accepted, -, running⟩ := (handed_iff runs waits comes).mp handed
      exact ⟨⟨handler, token, accepted⟩, running⟩

/-- A message was handed over and committed, and a token fired that is not that of the handler: what
the point says is true. -/
theorem subscription_of_started :
    ∃ (past : List (Moment (Exchange String) (Act String) (Event String))) (x : Exchange String),
      Runs "in" past x ∧ x.Waits ∧ Subscription past x ∧ x.ingress.isSubscribed = true ∧
        x.Truthful := by
  have runs := (Execution.refl : Runs "in" [] (ofName "in" : Exchange String))
    |>.snoc (a := .start "h" 0) rfl
    |>.snoc (a := .inject "a" 7 ⟨"x".toUTF8, []⟩) rfl
    |>.snoc (a := .handOver) rfl
    |>.snoc (a := .finish 0 (.ok ())) rfl
    |>.snoc (a := .fire 1) rfl
  have subscription := subscription runs ⟨rfl, rfl⟩
  refine ⟨_, _, runs, ⟨rfl, rfl⟩, subscription, rfl, subscription.truthful.mpr ?_⟩
  rintro ⟨⟨handler, token, accepted, fired⟩, -⟩
  have own := (token_eq_some_iff runs).mpr ⟨handler, accepted⟩
  cases own
  exact absurd ((mem_fired_iff runs).mpr fired) (by decide)

/-- The token of the handler was fired and the dispatcher has ended. The point says that it has a
handler, and an injection is sent away since the point is stopped. -/
theorem untruthful_of_fired :
    ∃ (past : List (Moment (Exchange String) (Act String) (Event String))) (x : Exchange String),
      Runs "in" past x ∧ x.Waits ∧ x.ingress.isSubscribed = true ∧
        x.Outcome "a" 7 ⟨"x".toUTF8, []⟩
          [.injected 0 ⟨"x".toUTF8, []⟩, .answered 0 (.error .stopped)] ∧
        ¬ x.Truthful := by
  have runs := (Execution.refl : Runs "in" [] (ofName "in" : Exchange String))
    |>.snoc (a := .start "h" 0) rfl
    |>.snoc (a := .fire 0) rfl
    |>.snoc (a := .halt) rfl
  refine ⟨_, _, runs, ⟨rfl, rfl⟩, rfl, (outcome_of_error ⟨rfl, rfl⟩ rfl).mpr rfl, ?_⟩
  intro truthful
  obtain ⟨handler, handed⟩ :=
    (truthful "a" 7 ⟨"x".toUTF8, []⟩ _ ((outcome_of_error ⟨rfl, rfl⟩ rfl).mpr rfl)).mp rfl
  simp at handed

end Exchange

end Memory

end MessageBridge
