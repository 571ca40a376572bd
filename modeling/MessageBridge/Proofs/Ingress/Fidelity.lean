import MessageBridge.Proofs.Ingress.Tales

/-!
# What an injector may conclude

An answer tells an injector what became of its message, in every run in which the handler does not
crash (`Exchange.faithful`). About a single injection this follows from its tale. That one handler
at most is ever accepted (`Exchange.Accepted`), and that nothing is handed over once its token was
fired or the point stopped (`Exchange.not_handed_after`), are facts about the point as a whole.
-/

namespace MessageBridge.Memory.Exchange

variable {Handler : Type} {x y : Exchange Handler} {a : Act Handler}
  {events outputs : List (Event Handler)}

/-! ## Runs -/

variable {source : String}
  {past later : List (Moment (Exchange Handler) (Act Handler) (Event Handler))}

/-- The executions of a new point. -/
abbrev Runs (source : String)
    (past : List (Moment (Exchange Handler) (Act Handler) (Event Handler))) (x : Exchange Handler) :
    Prop := Execution step? (ofName source) past x

theorem sound_of_runs (runs : Runs source past x) : x.Sound :=
  runs.invariant (sound_ofName source) sound_step

theorem fates_of_runs (runs : Runs source past x) : x.Fates (Moment.told past) := by
  induction runs with
  | refl => exact fates_ofName source
  | snoc before step ih =>
    rw [Moment.told_append, Moment.told_singleton]
    exact fates_step ih (sound_of_runs before) step

/-- Where a point is severed, nothing is handed over. -/
theorem not_handed_of_severed (sound : x.Sound) (severed : x.Severed)
    (step : x.step? a = some (y, outputs)) (call : Nat) (handler : Handler) (m : Message) :
    .handed call handler m ∉ outputs := by
  intro mem
  have step := step_of_step? step
  induction step with
  | handed taken =>
    obtain ⟨-, there, -⟩ := Ingress.handOver?_eq_some taken
    exact Bool.false_ne_true ((sound.subscriber _ there).2.mpr severed)
  | _ => simp at mem

theorem not_handed_after (sound : x.Sound) (severed : x.Severed)
    (runs : Execution step? x later y) (call : Nat) (handler : Handler) (m : Message) :
    .handed call handler m ∉ Moment.told later := by
  suffices kept : y.Sound ∧ y.Severed ∧ .handed call handler m ∉ Moment.told later from kept.2.2
  induction runs with
  | refl => exact ⟨sound, severed, nofun⟩
  | snoc _ step ih =>
    obtain ⟨sound, severed, not_yet⟩ := ih
    refine ⟨sound_step sound step, severed.of_kept (kept_step sound step), ?_⟩
    rw [Moment.told_append, Moment.told_singleton, List.mem_append, not_or]
    exact ⟨not_yet, not_handed_of_severed sound severed step call handler m⟩

/-- A start that is refused changes nothing. -/
theorem eq_of_startRefused {e : BusError} (step : x.step? a = some (y, outputs))
    (refused : .startRefused e ∈ outputs) : y = x := by
  have step := step_of_step? step
  induction step with
  | startRefused _ => rfl
  | _ => simp at refused

/-- The point was stopped, or the token of the handler that was accepted was fired. -/
def Cut (past : List (Moment (Exchange Handler) (Act Handler) (Event Handler))) : Prop :=
  (∃ mo ∈ past, mo.action = .stop) ∨
    ∃ handler token,
      (∃ mo ∈ past, mo.action = .start handler token ∧ .started handler ∈ mo.outputs) ∧
      ∃ mo ∈ past, mo.action = .fire token

/-- The exchange remembers the stop, the token of the accepted handler and the fired tokens. -/
structure Remembers (past : List (Moment (Exchange Handler) (Act Handler) (Event Handler)))
    (x : Exchange Handler) : Prop where
  stopped : ∀ mo ∈ past, mo.action = .stop → x.ingress.stopped = true
  token : ∀ mo ∈ past, ∀ handler token, mo.action = .start handler token →
    .started handler ∈ mo.outputs → x.token = some token
  fired : ∀ mo ∈ past, ∀ token, mo.action = .fire token → token ∈ x.fired

theorem remembers_of_runs (runs : Runs source past x) : x.Remembers past := by
  induction runs with
  | refl => exact ⟨by simp, by simp, by simp⟩
  | @snoc past s t a outputs before step ih =>
    have kept := kept_step (sound_of_runs before) step
    have last := step_of_step? step
    refine ⟨?_, ?_, ?_⟩
    · intro mo mem stop
      rcases List.mem_append.mp mem with mem | mem
      · exact kept.stopped (ih.stopped mo mem stop)
      · obtain rfl := List.mem_singleton.mp mem
        cases stop
        cases last
        rfl
    · intro mo mem handler token start accepted
      rcases List.mem_append.mp mem with mem | mem
      · exact kept.token token (ih.token mo mem handler token start accepted)
      · obtain rfl := List.mem_singleton.mp mem
        cases start
        cases last with
        | startRefused _ => simp at accepted
        | started _ => rfl
    · intro mo mem token fire
      rcases List.mem_append.mp mem with mem | mem
      · exact kept.fired (ih.fired mo mem token fire)
      · obtain rfl := List.mem_singleton.mp mem
        cases fire
        cases last
        exact List.mem_cons_self

theorem severed_of_cut (runs : Runs source past x) (cut : Cut past) : x.Severed := by
  have remembers := remembers_of_runs runs
  rcases cut with ⟨mo, mem, stop⟩ | ⟨handler, token, ⟨mo, mem, start, accepted⟩, mo', mem', fire⟩
  · exact .inl (remembers.stopped mo mem stop)
  · exact .inr ⟨token, remembers.token mo mem handler token start accepted,
      remembers.fired mo' mem' token fire⟩

/-- The point counts the injections that returned with a commit. -/
theorem committed_of_runs (runs : Runs source past x) :
    x.ingress.committed = (Moment.told past).countP Event.isCommit := by
  induction runs with
  | refl => rfl
  | snoc _ step ih =>
    rw [Moment.told_append, Moment.told_singleton, List.countP_append, ← ih]
    have step := step_of_step? step
    induction step with
    | startRefused _ => rfl
    | started accepted =>
      obtain ⟨-, -, rfl⟩ := Ingress.start_eq_ok accepted
      dsimp only
      split <;> rfl
    | turnedAway turned_away =>
      rcases Ingress.inject_eq_error turned_away with rfl | rfl <;> rfl
    | waits waits => exact (Ingress.inject_eq_ok waits).2.2.2
    | handed taken => exact (Ingress.handOver?_eq_some taken).2.2.2.2
    | halted ended =>
      have none_there : ∀ calls : List Nat, (calls.map fun c ↦
          (.answered c (.error .stopped) : Event Handler)).countP Event.isCommit = 0 := by
        intro calls
        rw [List.countP_eq_zero]
        simp [Event.isCommit]
      obtain ⟨-, -, -, -, committed, -⟩ := Ingress.halt?_eq_some ended
      rw [none_there]
      exact committed
    | @finished call verdict i answer _ heard =>
      obtain ⟨-, -, -, -, committed⟩ := Ingress.verdict?_eq_some heard
      rw [committed]
      congr 1
      rcases answer with e | ⟨⟩ <;> rfl
    | unheard _ _ => rfl
    | fired =>
      dsimp only
      split <;> rfl
    | stopped => rfl

/-! ## Handlers -/

/-- One handler at most was accepted. It is the one that is subscribed, and the one that messages
were handed to. -/
structure Accepted (x : Exchange Handler) (events : List (Event Handler)) : Prop where
  token : ∀ handler, .started handler ∈ events → x.token.isSome
  one : ∀ handler other, .started handler ∈ events → .started other ∈ events → other = handler
  subscriber : ∀ s, x.ingress.subscriber = some s → .started s.1 ∈ events
  handed : ∀ call handler m, .handed call handler m ∈ events → .started handler ∈ events

theorem Accepted.quiet (accepted : x.Accepted events) (token : y.token = x.token)
    (subscriber : ∀ s, y.ingress.subscriber = some s →
      ∃ t, x.ingress.subscriber = some t ∧ t.1 = s.1)
    (not_started : ∀ handler, .started handler ∉ outputs)
    (handed : ∀ call handler m, .handed call handler m ∈ outputs → .started handler ∈ events) :
    y.Accepted (events ++ outputs) := by
  have started {handler : Handler} :
      .started handler ∈ events ++ outputs ↔ .started handler ∈ events := by
    simp [not_started]
  refine ⟨?_, ?_, ?_, ?_⟩
  · intro handler mem
    rw [token]
    exact accepted.token handler (started.mp mem)
  · intro handler other mem mem'
    exact accepted.one handler other (started.mp mem) (started.mp mem')
  · intro s there
    obtain ⟨t, there, same⟩ := subscriber s there
    exact started.mpr (same ▸ accepted.subscriber t there)
  · intro call handler m mem
    rcases List.mem_append.mp mem with mem | mem
    · exact started.mpr (accepted.handed call handler m mem)
    · exact started.mpr (handed call handler m mem)

theorem Accepted.start {handler : Handler} {i : Ingress Handler} (accepted : x.Accepted events)
    (sound : x.Sound) (accepts : x.ingress.start handler = .ok i) (token : Nat) :
    ({ x with ingress := if token ∈ x.fired then i.cancel else i, token := some token } :
      Exchange Handler).Accepted (events ++ [.started handler]) := by
  have none_before : ∀ other, .started other ∉ events := by
    intro other mem
    have some_token := accepted.token other mem
    rw [token_eq_none_of_start sound accepts] at some_token
    cases some_token
  obtain ⟨-, -, rfl⟩ := Ingress.start_eq_ok accepts
  refine ⟨fun _ _ ↦ rfl, by simp [none_before], ?_, ?_⟩
  · intro s there
    have same : s.1 = handler := by
      dsimp only at there
      split at there
      · rw [Ingress.subscriber_cancel] at there
        cases there
        rfl
      · cases there
        rfl
    simp [same]
  · intro call other m mem
    have mem : .handed call other m ∈ events := by simpa using mem
    exact absurd (accepted.handed call other m mem) (none_before other)

theorem Accepted.alike (accepted : x.Accepted events) (token : y.token = x.token)
    (same : x.ingress.Alike y.ingress) (not_started : ∀ handler, .started handler ∉ outputs)
    (handed : ∀ call handler m, .handed call handler m ∈ outputs → .started handler ∈ events) :
    y.Accepted (events ++ outputs) :=
  accepted.quiet token (fun s there ↦ ⟨s, same.subscriber ▸ there, rfl⟩) not_started handed

theorem accepted_step (accepted : x.Accepted events) (sound : x.Sound)
    (step : x.step? a = some (y, outputs)) : y.Accepted (events ++ outputs) := by
  have of_cancel {i : Ingress Handler} :
      ∀ s, i.cancel.subscriber = some s → ∃ t, i.subscriber = some t ∧ t.1 = s.1 := by
    intro s there
    rw [Ingress.subscriber_cancel] at there
    obtain ⟨t, before, rfl⟩ := Option.map_eq_some_iff.mp there
    exact ⟨t, before, rfl⟩
  have step := step_of_step? step
  induction step with
  | startRefused _ => exact accepted.alike rfl ⟨rfl, rfl, rfl⟩ (by simp) (by simp)
  | started accepts => exact accepted.start sound accepts _
  | turnedAway _ => exact accepted.alike rfl ⟨rfl, rfl, rfl⟩ (by simp) (by simp)
  | waits waits => exact accepted.alike rfl (Ingress.inject_eq_ok waits).1 (by simp) (by simp)
  | handed taken =>
    obtain ⟨alike, there, -⟩ := Ingress.handOver?_eq_some taken
    refine accepted.alike rfl alike (by simp) ?_
    intro call handler m mem
    cases List.mem_singleton.mp mem
    exact accepted.subscriber _ there
  | halted ended =>
    obtain ⟨-, gone, -⟩ := Ingress.halt?_eq_some ended
    refine accepted.quiet rfl ?_ (by simp) (by simp)
    rw [gone]
    exact nofun
  | finished _ heard =>
    exact accepted.alike rfl (Ingress.verdict?_eq_some heard).1 (by simp) (by simp)
  | unheard _ _ => exact accepted.alike rfl ⟨rfl, rfl, rfl⟩ (by simp) (by simp)
  | fired =>
    refine accepted.quiet rfl ?_ (by simp) (by simp)
    dsimp only
    split
    · exact of_cancel
    · exact fun s there ↦ ⟨s, there, rfl⟩
  | stopped => exact accepted.quiet rfl of_cancel (by simp) (by simp)

theorem accepted_of_runs (runs : Runs source past x) : x.Accepted (Moment.told past) := by
  induction runs with
  | refl => exact ⟨nofun, nofun, nofun, nofun⟩
  | snoc before step ih =>
    rw [Moment.told_append, Moment.told_singleton]
    exact accepted_step ih (sound_of_runs before) step

/-! ## Conclusions -/

/-- What an injector may conclude from an answer, and what those who start, cancel and stop a
subscription may rely on. -/
structure Faithful
    (past : List (Moment (Exchange Handler) (Act Handler) (Event Handler))) (x : Exchange Handler) :
    Prop where
  /-- A commit says that the handler was invoked once and returned without an error. -/
  commit : ∀ call, .answered call (.ok ()) ∈ Moment.told past ↔
    (Moment.told past).countP (Event.isHanded call) = 1 ∧
      .returned call (.ok ()) ∈ Moment.told past
  /-- A refusal says that the handler was invoked once and returned this error. -/
  refusal : ∀ call e, .answered call (.error (.refused e)) ∈ Moment.told past ↔
    (Moment.told past).countP (Event.isHanded call) = 1 ∧
      .returned call (.error e) ∈ Moment.told past
  /-- Whoever hears that there is no handler, or no longer, had its message handed to none. -/
  unhandled : ∀ call e, e = .notSubscribed ∨ e = .stopped →
    .answered call (.error e) ∈ Moment.told past →
      (Moment.told past).countP (Event.isHanded call) = 0
  /-- An injection returns once at most. -/
  once : ∀ call, (Moment.told past).countP (Event.isAnswer call) ≤ 1
  /-- An injection that has not returned waits in the queue or is with the handler. -/
  waits : ∀ call given, .injected call given ∈ Moment.told past →
    (Moment.told past).countP (Event.isAnswer call) = 0 →
      (∃ m, ⟨call, m⟩ ∈ x.ingress.queue) ∨ call ∈ x.running
  /-- Commits are counted. -/
  committed : x.ingress.committed = (Moment.told past).countP Event.isCommit
  /-- Once the token was fired or the point stopped, nothing is handed over any more. -/
  cut : ∀ earlier later, past = earlier ++ later → Cut earlier →
    ∀ call handler m, .handed call handler m ∉ Moment.told later
  /-- A start that is refused changes nothing. -/
  startRefused : ∀ mo ∈ past, ∀ e, .startRefused e ∈ mo.outputs → mo.after = mo.before
  /-- The handler that messages are handed to is the only one that was ever accepted. -/
  handler : ∀ call handler m, .handed call handler m ∈ Moment.told past →
    .started handler ∈ Moment.told past ∧
      ∀ other, .started other ∈ Moment.told past → other = handler
  /-- A message that is handed over is the one injected, with the stamps that it lacked. -/
  message : ∀ call handler m, .handed call handler m ∈ Moment.told past →
    ∃ given, .injected call given ∈ Moment.told past ∧ given.Completes m

/-- **What an injector hears is what became of its message**: in every run without crashes of the
handler, whatever the order of start calls, injections, steps of the dispatcher, returns of the
handler, fired tokens and stops. -/
theorem faithful (runs : Runs source past x) : Faithful past x := by
  have fates := fates_of_runs runs
  have accepted := accepted_of_runs runs
  have handings (call : Nat) : (Moment.told past).countP (Event.isHanded call) =
      (Event.tale call (Moment.told past)).countP (Event.isHanded call) :=
    Event.countP_tale (by rintro ⟨⟩ <;> simp [Event.isHanded, Event.call?]) _
  have answers (call : Nat) : (Moment.told past).countP (Event.isAnswer call) =
      (Event.tale call (Moment.told past)).countP (Event.isAnswer call) :=
    Event.countP_tale (by rintro ⟨⟩ <;> simp [Event.isAnswer, Event.call?]) _
  -- most clauses are about one call and follow from what is told about it, its tale
  constructor
  case committed => exact committed_of_runs runs
  case commit =>
    intro call
    obtain ⟨phase, -, tale⟩ := fates.tales call
    rw [handings, Event.mem_iff_mem_tale (e := .answered call (.ok ())) rfl,
      Event.mem_iff_mem_tale (e := .returned call (.ok ())) rfl]
    exact tale.commit
  case refusal =>
    intro call e
    obtain ⟨phase, -, tale⟩ := fates.tales call
    rw [handings, Event.mem_iff_mem_tale (e := .answered call (.error (.refused e))) rfl,
      Event.mem_iff_mem_tale (e := .returned call (.error e)) rfl]
    exact tale.refusal e
  case unhandled =>
    intro call e kind
    obtain ⟨phase, -, tale⟩ := fates.tales call
    rw [handings, Event.mem_iff_mem_tale rfl]
    exact tale.unhandled kind
  case once =>
    intro call
    obtain ⟨phase, -, tale⟩ := fates.tales call
    rw [answers]
    exact tale.once
  case waits =>
    intro call given
    obtain ⟨phase, stands, tale⟩ := fates.tales call
    rw [answers, Event.mem_iff_mem_tale rfl]
    intro injected unanswered
    rcases tale.waits injected unanswered with ⟨m, rfl⟩ | rfl
    · exact .inl ⟨m, (stands.queued m).mpr rfl⟩
    · exact .inr (stands.running.mpr rfl)
  case cut =>
    rintro earlier later rfl cut
    obtain ⟨s, before, after⟩ := runs.append_inv
    exact not_handed_after (sound_of_runs before) (severed_of_cut before cut) after
  case startRefused =>
    intro mo mem e refused
    obtain ⟨earlier, later, -, -, step, -⟩ := runs.at_moment mem
    exact eq_of_startRefused step refused
  case handler =>
    intro call handler m mem
    have started := accepted.handed call handler m mem
    exact ⟨started, fun other ↦ accepted.one handler other started⟩
  case message =>
    intro call handler m
    obtain ⟨phase, -, tale⟩ := fates.tales call
    rw [Event.mem_iff_mem_tale rfl]
    intro handed
    obtain ⟨given, injected, stamped⟩ := tale.message handed
    exact ⟨given, (Event.mem_iff_mem_tale rfl).mpr injected, stamped⟩

/-- Two messages are injected. The first is handed over and committed, whatever a second start and
the token do meanwhile; the second was still in the queue when the token fired. -/
theorem faithful_of_cut :
    ∃ (past : List (Moment (Exchange String) (Act String) (Event String))) (x : Exchange String),
      Runs "in" past x ∧ Faithful past x ∧ x.ingress.committed = 1 ∧
        (Moment.told past).filter (Event.isAnswer 1) = [.answered 1 (.error .stopped)] ∧
        (Moment.told past).countP (Event.isHanded 1) = 0 := by
  have runs := (Execution.refl : Runs "in" [] (ofName "in" : Exchange String))
    |>.snoc (a := .start "h" 0) rfl
    |>.snoc (a := .inject "a" 7 ⟨"x".toUTF8, []⟩) rfl
    |>.snoc (a := .inject "b" 8 ⟨"y".toUTF8, [(MetaName.messageId, .null)]⟩) rfl
    |>.snoc (a := .handOver) rfl
    |>.snoc (a := .start "g" 1) rfl
    |>.snoc (a := .fire 0) rfl
    |>.snoc (a := .finish 0 (.ok ())) rfl
    |>.snoc (a := .halt) rfl
  have heard {told : List (Event String)}
      (answers : told.filter (Event.isAnswer 1) = [.answered 1 (.error .stopped)]) :
      .answered 1 (.error .stopped) ∈ told :=
    List.mem_of_mem_filter (answers ▸ List.mem_singleton_self _)
  exact ⟨_, _, runs, faithful runs, rfl, rfl,
    (faithful runs).unhandled 1 .stopped (.inr rfl) (heard rfl)⟩

end MessageBridge.Memory.Exchange
