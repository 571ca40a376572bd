import MessageBridge.Proofs.Route.FanOut
import MessageBridge.Proofs.Route.Publishing

/-!
# What a route logs about a delivery

Four parts of a route write about the way of a message to one destination: a worker that begins a
publish, the same worker when the bus has answered, the leg that the answer reaches, and a leg whose
wait is broken off. The events are read here as the log queries read them, by their names
(`Event.count`).

What one step can add to this part of the log is one of seven reports (`Running.Report`). The
workers write about every publish and every answer, whoever waits for it, so their events are as
many as the publishes and answers in the history (`Running.workers_of_runs`). A leg writes what it
makes of a refusal, and so the log of a handled message says what has become of its leg
(`Running.logged_of_runs`).
-/

namespace MessageBridge

/-! ## Reading a log -/

/-- The name by which a log query finds an event. -/
def Event.name (e : Event) : String := e.line.name

/-- The names of the events of a leg. -/
def Event.legNames : List String :=
  ["lane_publish_attempt", "lane_publish_ok", "lane_publish_failed", "delivery_retry_scheduled",
    "delivery_tolerated", "lane_completion_dropped", "delivery_cancelled"]

/-- The number of events with a name. -/
def Event.count (name : String) (log : List Event) : Nat := log.countP fun e ↦ e.name == name

@[simp] theorem Event.count_append (name : String) (log more : List Event) :
    count name (log ++ more) = count name log + count name more := List.countP_append

/-- The event that is told, if it is about this. -/
def Output.event? (topic : Topic) : Output → Option Event
  | .event t e => if t = topic then some e else none
  | _ => none

/-- The number of refusals among answers. -/
def denials (replies : List Reply) : Nat := replies.countP fun reply ↦ !reply.answer.isOk

@[simp] theorem denials_append (replies new : List Reply) :
    denials (replies ++ new) = denials replies + denials new := List.countP_append

theorem counts_of_ok {reply : Reply} (ok : reply.answer = .ok ()) :
    acceptances [reply] = 1 ∧ denials [reply] = 0 := by
  rw [acceptances, denials, List.countP_singleton, List.countP_singleton, ok]
  exact ⟨rfl, rfl⟩

theorem counts_of_error {reply : Reply} {e : BusError} (refused : reply.answer = .error e) :
    acceptances [reply] = 0 ∧ denials [reply] = 1 := by
  rw [acceptances, denials, List.countP_singleton, List.countP_singleton, refused]
  exact ⟨rfl, rfl⟩

/-- Every answer accepts or refuses. -/
theorem acceptances_add_denials (replies : List Reply) :
    acceptances replies + denials replies = replies.length := by
  rw [acceptances, denials, List.length_eq_countP_add_countP fun reply ↦ reply.answer.isOk]
  congr 2
  funext reply
  cases reply.answer.isOk <;> rfl

namespace Running

variable {s : EngineSettings} {route : CompiledRoute} {past later : Past} {r r' : Running}
  {clock : Clock} {a : Action} {outputs : List Output} {c d i j : Nat} {h h' : Handling}
  {leg leg' : Leg}

/-- The events about the message of a call on its way to a destination. -/
def legLog (call d : Nat) (past : Past) : List Event :=
  (Moment.told past).filterMap (Output.event? (.leg call d))

theorem legLog_append (call d : Nat) (past later : Past) :
    legLog call d (past ++ later) = legLog call d past ++ legLog call d later := by
  rw [legLog, Moment.told_append, List.filterMap_append]
  rfl

theorem legLog_concat (call d : Nat) (past : Past) (mo) :
    legLog call d (past ++ [mo]) =
      legLog call d past ++ mo.outputs.filterMap (Output.event? (.leg call d)) := by
  rw [legLog_append]
  congr 1
  rw [legLog, Moment.told_singleton]

/-! ## What a step writes -/

theorem event?_map (topic t : Topic) (events : List Event) :
    (events.map (Output.event t)).filterMap (Output.event? topic) =
      if t = topic then events else [] := by
  rw [List.filterMap_map]
  by_cases same : t = topic
  · have all : Output.event? topic ∘ Output.event t = some := by
      funext e
      exact if_pos same
    rw [all, if_pos same, List.filterMap_some]
  · have none_of_them : Output.event? topic ∘ Output.event t = fun _ ↦ none := by
      funext e
      exact if_neg same
    rw [none_of_them, if_neg same, List.filterMap_none]

end Running

/-- What must have happened for something to be written about a topic. -/
def Topic.Cause (a : Action) : Topic → Prop
  | .route => True
  | .call c => (∃ m, a = .handle c m) ∨ a = .resolve c
  | .leg c d => (∃ j, a = .take d j) ∨ (∃ j x, a = .reply d j x) ∨ a = .breakOff c d

namespace Running

variable {s : EngineSettings} {route : CompiledRoute} {past later : Past} {r r' : Running}
  {clock : Clock} {a : Action} {outputs : List Output} {c d i j : Nat} {h h' : Handling}
  {leg leg' : Leg}

/-- The arrival and the end of a call write about the call. A worker that takes a job or hears from
the bus and a wait that is broken off write about the way of its message. -/
theorem cause_of_event {t : Topic} {e : Event} (step : r.step? clock a = some (r', outputs))
    (told : .event t e ∈ outputs) : t.Cause a := by
  cases a with
  | handle call m =>
    have arrives : (Topic.call call).Cause (.handle call m) := .inl ⟨m, rfl⟩
    -- before its outcome is known, all that an arrival writes is about its call
    have preamble : .event t e ∈ r.arrivalOutputs clock call m → t = .call call := by
      intro told
      rcases List.mem_cons.mp told with same | told
      · cases same
        rfl
      · obtain ⟨p, -, same⟩ := Option.map_eq_some_iff.mp (Option.mem_toList.mp told)
        cases same
        rfl
    suffices same : t = .call call from same ▸ arrives
    obtain ⟨-, ⟨-, -, rfl⟩ | ⟨reason, -, -, -, rfl⟩ | ⟨m', -, -, -, rfl⟩⟩ := handle?_cases step
    · simp at told
      exact told.1
    · rcases List.mem_append.mp told with told | told
      · exact preamble told
      · simp at told
        exact told.1
    · exact preamble told
  | abandon call =>
    obtain ⟨-, -, rfl⟩ := abandon_eq_some.mp step
    cases told
  | submit call d =>
    obtain ⟨rfl, -⟩ := submit?_cases step
    cases told
  | wake call d =>
    obtain ⟨rfl, -⟩ := wake?_cases step
    cases told
  | breakOff call d =>
    obtain ⟨h, leg, due, -, -, -, -, -, rfl⟩ := breakOff?_cases step
    cases List.mem_singleton.mp told
    exact .inr (.inr rfl)
  | resolve call =>
    obtain ⟨h, -, -, -, ⟨-, rfl⟩ | ⟨-, rfl⟩⟩ := resolve?_cases step
    · simp at told
      exact told.1 ▸ .inr rfl
    · simp at told
      exact told.1 ▸ .inr rfl
  | take i j =>
    obtain ⟨p, job, p', -, -, -, rfl⟩ := take?_cases step
    simp at told
    exact told.1 ▸ .inl ⟨j, rfl⟩
  | reply i j answer =>
    have replies (call : Nat) : (Topic.leg call i).Cause (.reply i j answer) :=
      .inr (.inl ⟨j, answer, rfl⟩)
    obtain ⟨p, job, p', -, -, ⟨_, _, -, -, -, -, rfl⟩ | ⟨-, -, rfl⟩⟩ := reply?_cases step
    · rcases List.mem_cons.mp told with same | told
      · cases same
        exact replies job.call
      · obtain ⟨e, -, same⟩ := List.mem_map.mp told
        cases same
        exact replies job.call
    · rcases List.mem_pair.mp told with same | same
      · cases same
        exact replies job.call
      · cases same
        exact replies job.call
  | crash i j =>
    obtain ⟨rfl, -⟩ := crash?_cases step
    cases told
  | drain i j =>
    obtain ⟨rfl, -⟩ := drain?_cases step
    cases told
  | retire i j =>
    obtain ⟨p, p', -, -, -, rfl⟩ := retire?_cases step
    cases List.mem_singleton.mp told
    trivial
  | cancel =>
    cases step
    cases told
  | stop =>
    obtain ⟨-, -, rfl⟩ := stop?_eq_some.mp step
    simp at told
    exact told.1 ▸ trivial
  | closePools =>
    obtain ⟨-, -, -, rfl⟩ := closePools?_eq_some.mp step
    obtain ⟨p, -, same⟩ := List.mem_map.mp told
    cases same
    trivial
  | join =>
    obtain ⟨-, -, rfl⟩ | ⟨place, rest, -, -, ⟨-, rfl⟩ | ⟨-, rfl⟩⟩ := join?_cases step
    · simp at told
      exact told.1 ▸ trivial
    · cases List.mem_singleton.mp told
      trivial
    · cases told
  | forsake =>
    cases step
    cases told
  | release =>
    obtain ⟨-, -, -, rfl⟩ := release?_eq_some.mp step
    cases told

theorem legEvents_of_quiet (step : r.step? clock a = some (r', outputs))
    (takes : ∀ j, a ≠ .take d j) (replies : ∀ j x, a ≠ .reply d j x) (breaks : a ≠ .breakOff c d) :
    outputs.filterMap (Output.event? (.leg c d)) = [] := by
  rw [List.filterMap_eq_nil_iff]
  intro o told
  cases o with
  | event t e =>
    refine if_neg fun same ↦ ?_
    subst same
    obtain ⟨j, take⟩ | ⟨j, x, reply⟩ | broken := cause_of_event step told
    · exact takes j take
    · exact replies j x reply
    · exact breaks broken
  | _ => rfl

/-! ## Seven reports -/

end Running

/-- Whether the destination is without the message since the wait was broken off. -/
def LegEnd.isCancelled : LegEnd → Bool
  | failed .cancelled => true
  | _ => false

/-- Whether the leg has ended in some way. -/
def Leg.endedAs (kind : LegEnd → Bool) (leg : Leg) : Bool := (leg.result?.map kind).getD false

theorem Leg.endedAs_of_settled {leg : Leg} {e : LegEnd} (settled : leg.phase = .settled e)
    (kind : LegEnd → Bool) : leg.endedAs kind = kind e := by
  rw [endedAs, result?, settled]
  rfl

theorem Leg.endedAs_of_result? {leg : Leg} (going_on : leg.result? = none) (kind : LegEnd → Bool) :
    leg.endedAs kind = false := by
  rw [endedAs, going_on]
  rfl

theorem Leg.result?_of_submitted {leg : Leg} (submitted : leg.phase = .submitted) :
    leg.result? = none := by
  rw [result?, submitted]

theorem Leg.result?_of_waiting {leg : Leg} {due : Nat} (waiting : leg.phase = .waiting due) :
    leg.result? = none := by
  rw [result?, waiting]

namespace Running

variable {s : EngineSettings} {route : CompiledRoute} {past later : Past} {r r' : Running}
  {clock : Clock} {a : Action} {outputs : List Output} {c d i j : Nat} {h h' : Handling}
  {leg leg' : Leg}

/-- Whatever the leg of a call does, it is neither given up nor broken off. -/
def Unended (r r' : Running) (c d : Nat) : Prop :=
  ∀ leg leg', r.leg? c d = some leg → r'.leg? c d = some leg' →
    leg'.endedAs LegEnd.isTolerated = leg.endedAs LegEnd.isTolerated ∧
      leg'.endedAs LegEnd.isCancelled = leg.endedAs LegEnd.isCancelled

/-- If the call has a leg to the destination, it comes from one phase to another. -/
def Comes (r r' : Running) (c d : Nat) (before after : LegPhase) : Prop :=
  ∀ leg leg', r.leg? c d = some leg → r'.leg? c d = some leg' →
    leg.phase = before ∧ leg'.phase = after

/-- What is published, heard and written in one step about the message of a call on its way to a
destination. -/
inductive Report (r r' : Running) (c d : Nat) :
    List Message → List Reply → List Event → Prop where
  /-- Nothing. -/
  | silent (kept : Unended r r' c d) : Report r r' c d [] [] []
  /-- A worker begins to publish. -/
  | begun {j : Nat} {m : Message} (kept : Unended r r' c d) :
      Report r r' c d [m] [] [.publishBegun (r.worker d j) (r.label d) m.idText]
  /-- The bus accepts. -/
  | accepted {j : Nat} {reply : Reply} (ok : reply.answer = .ok ())
      (comes : Comes r r' c d .submitted (.settled .published)) :
      Report r r' c d [] [reply]
        [.publishAccepted (r.worker d j) (r.label d) reply.message.idText]
  /-- The bus refuses, and the leg will try again. -/
  | retried {j attempts due : Nat} {reply : Reply} {e : BusError} {delay : Duration}
      (refused : reply.answer = .error e) (comes : Comes r r' c d .submitted (.waiting due)) :
      Report r r' c d [] [reply]
        [.publishRefused (r.worker d j) (r.label d) reply.message.idText e,
          .retryScheduled r.route.name (r.label d) attempts delay e]
  /-- The bus refuses, and the mode gives the destination up. -/
  | givenUp {j attempts : Nat} {sent : Message} {reply : Reply} {e : BusError}
      {reason : GiveUpReason} (refused : reply.answer = .error e)
      (comes : Comes r r' c d .submitted (.settled (.tolerated reason))) :
      Report r r' c d [] [reply]
        [.publishRefused (r.worker d j) (r.label d) reply.message.idText e,
          .tolerated r.route.name (r.label d) sent.idText attempts reason e]
  /-- The bus answers, and nobody waits for it. -/
  | unclaimed {j : Nat} {job : Job} {reply : Reply} (nobody : r.leg? c d = none) :
      Report r r' c d [] [reply]
        [r.replyEvent d j job reply.answer, .answerUnclaimed (r.worker d j) (r.label d)]
  /-- The wait is broken off. -/
  | brokenOff {attempts due : Nat} {sent : Message} (there : (r.leg? c d).isSome)
      (comes : Comes r r' c d (.waiting due) (.settled (.failed .cancelled))) :
      Report r r' c d [] [] [.cancelled r.route.name (r.label d) sent.idText attempts]

theorem leg?_eq_some : r.leg? c d = some leg ↔
    ∃ h, r.handling? c = some h ∧ h.legs[d]? = some leg := Option.bind_eq_some_iff

/-- A leg that hears nothing and is not broken off is neither given up nor broken off. -/
theorem unended_of_quiet (sound : r.Sound) (step : r.step? clock a = some (r', outputs))
    (unheard : r.heard c d (clock, a) = []) (breaks : a ≠ .breakOff c d) : Unended r r' c d := by
  intro leg leg' before after
  obtain ⟨h, found, here⟩ := leg?_eq_some.mp before
  obtain ⟨h', found', here'⟩ := leg?_eq_some.mp after
  obtain ⟨_, here'', sees⟩ := legStep_of_step sound step found here found'
  rw [here'] at here''
  cases here''
  -- a leg that goes on has no end, and one that loses its job ends in another way
  have goes_on {leg leg' : Leg} (before : leg.result? = none) (after : leg'.result? = none) :
      leg'.endedAs LegEnd.isTolerated = leg.endedAs LegEnd.isTolerated ∧
        leg'.endedAs LegEnd.isCancelled = leg.endedAs LegEnd.isCancelled := by
    simp only [Leg.endedAs_of_result? before, Leg.endedAs_of_result? after, and_self]
  have loses {leg leg' : Leg} (before : leg.result? = none)
      (after : leg'.phase = .settled (.failed .laneClosed)) :
      leg'.endedAs LegEnd.isTolerated = leg.endedAs LegEnd.isTolerated ∧
        leg'.endedAs LegEnd.isCancelled = leg.endedAs LegEnd.isCancelled := by
    simp only [Leg.endedAs_of_result? before, Leg.endedAs_of_settled after]
    exact ⟨rfl, rfl⟩
  cases sees with
  | same _ => exact ⟨rfl, rfl⟩
  | submit ready => exact goes_on (by rw [Leg.result?, ready]) rfl
  | refuse ready _ _ => exact loses (by rw [Leg.result?, ready]) (Leg.phase_lose rfl)
  | wake waiting _ => exact goes_on (Leg.result?_of_waiting waiting) rfl
  | breakOff _ _ => exact absurd rfl breaks
  | reply _ hand =>
    rw [heard_of_hand hand, if_pos ⟨rfl, rfl⟩] at unheard
    cases unheard
  | crash submitted _ _ =>
    exact loses (Leg.result?_of_submitted submitted) (Leg.phase_lose submitted)
  | drain submitted _ _ =>
    exact loses (Leg.result?_of_submitted submitted) (Leg.phase_lose submitted)

/-- What a leg writes after an answer says where it goes on. -/
theorem answerEvents_cases (plan : RetryPlan) (now : Nat) (age : Option Int) (leg : Leg)
    (answer : Except BusError Unit) (m : Message) (d : Nat) (r : Running) :
    (answer = .ok () ∧ (leg.answer plan now age (jobAnswer answer)).phase = .settled .published ∧
        r.answerEvents d (leg.answer plan now age (jobAnswer answer)) m = []) ∨
      ∃ e, answer = .error e ∧
        ((∃ due attempts delay,
            (leg.answer plan now age (jobAnswer answer)).phase = .waiting due ∧
            r.answerEvents d (leg.answer plan now age (jobAnswer answer)) m =
              [.retryScheduled r.route.name (r.label d) attempts delay e]) ∨
          ∃ reason attempts,
            (leg.answer plan now age (jobAnswer answer)).phase = .settled (.tolerated reason) ∧
            r.answerEvents d (leg.answer plan now age (jobAnswer answer)) m =
              [.tolerated r.route.name (r.label d) m.idText attempts reason e]) := by
  cases answer with
  | ok _ => exact .inl ⟨rfl, rfl, rfl⟩
  | error e =>
    refine .inr ⟨e, rfl, ?_⟩
    unfold jobAnswer Leg.answer
    dsimp only
    split
    · exact .inr ⟨_, _, rfl, rfl⟩
    · exact .inl ⟨_, _, _, rfl, rfl⟩

theorem comes_setLeg {r₀ : Running} {before after : LegPhase} (found : r.handling? c = some h)
    (here : h.legs[d]? = some leg) (kept : r₀.handling? c = r.handling? c)
    (was : leg.phase = before) (becomes : leg'.phase = after) :
    Comes r (r₀.setLeg c d leg') c d before after := by
  intro leg₀ leg₁ before now
  obtain ⟨h₀, found₀, here₀⟩ := leg?_eq_some.mp before
  rw [found] at found₀
  cases found₀
  rw [here] at here₀
  cases here₀
  obtain ⟨h₁, found₁, here₁⟩ := leg?_eq_some.mp now
  rw [handling?_setLeg, kept, found, Option.map_some, if_pos rfl] at found₁
  cases found₁
  rw [Handling.getElem?_withLeg here, if_pos rfl] at here₁
  cases here₁
  exact ⟨was, becomes⟩

theorem label_setPool {p p' : Pool Job} (hp : r.pools[i]? = some p)
    (same : p'.destination = p.destination) (d : Nat) : (r.setPool i p').label d = r.label d := by
  rw [label, label, setPool, List.getElem?_set]
  split
  · rename_i here
    subst here
    rw [hp, if_pos (List.getElem?_eq_some_iff.mp hp).1, Option.map_some, Option.map_some, same]
  · rfl

theorem heard_of_other {job : Job} {answer : Except BusError Unit}
    (hand : r.inHand? i j = some job) (other : ¬(i = d ∧ job.call = c)) :
    r.heard c d (clock, .reply i j answer) = [] := by
  rw [heard_of_hand hand, if_neg other]

private theorem outputs_of_reply {answer : Except BusError Unit} {job : Job}
    (step : r.step? clock (.reply i j answer) = some (r', outputs))
    (hand : r.inHand? i j = some job) :
    ∃ events : List Event, outputs = events.map (.event (.leg job.call i)) := by
  obtain ⟨p, job', p', hp, finished, claimed⟩ := reply?_cases step
  have same := inHand?_of_finish? hp finished
  rw [hand] at same
  cases same
  rcases claimed with ⟨h, leg, -, -, -, -, rfl⟩ | ⟨-, -, rfl⟩
  · exact ⟨_, (List.map_cons ..).symm⟩
  · exact ⟨[_, _], rfl⟩

/-- What comes of an answer of the bus to a publish of the call. -/
private theorem report_of_reply (sound : r.Sound) {answer : Except BusError Unit} {job : Job}
    (step : r.step? clock (.reply d j answer) = some (r', outputs))
    (hand : r.inHand? d j = some job) :
    Report r r' job.call d [] [⟨clock, job.message, answer⟩]
      (outputs.filterMap (Output.event? (.leg job.call d))) := by
  obtain ⟨p, job', p', hp, finished, claimed⟩ := reply?_cases step
  have same := inHand?_of_finish? hp finished
  rw [hand] at same
  cases same
  have labels : (r.setPool d p').label d = r.label d :=
    label_setPool hp (Pool.Move.finish finished).moved.destination d
  rcases claimed with ⟨h, leg, found, here, submitted, rfl, rfl⟩ | ⟨nobody, rfl, rfl⟩
  · rw [← List.map_cons (f := Output.event (.leg job.call d)), event?_map, if_pos rfl]
    have comes {after : LegPhase} (phase : (leg.answer r.plan clock.now
        (h.message.age? clock.wall) (jobAnswer answer)).phase = after) :=
      comes_setLeg found here (handling?_setPool d p' job.call) submitted phase
    obtain ⟨rfl, phase, events⟩ | ⟨e, rfl, ⟨due, attempts, delay, phase, events⟩ |
      ⟨reason, attempts, phase, events⟩⟩ := answerEvents_cases r.plan clock.now
        (h.message.age? clock.wall) leg answer h.message d (r.setPool d p')
    · rw [events]
      exact .accepted rfl (comes phase)
    · rw [events, labels]
      exact .retried rfl (comes phase)
    · rw [events, labels]
      exact .givenUp rfl (comes phase)
  · -- a leg of the call would wait for the answer
    have nobody : r.leg? job.call d = none := by
      cases there : r.leg? job.call d with
      | none => rfl
      | some leg =>
        obtain ⟨h, found, here⟩ := leg?_eq_some.mp there
        obtain ⟨submitted, -⟩ := sound.job_of_mem found here (mem_jobs_of_inHand? hand) rfl
        exact absurd submitted (nobody h leg found here)
    have worker : (r.setPool d p').worker d j = r.worker d j := by rw [worker, labels]; rfl
    have both := event?_map (.leg job.call d) (.leg job.call d) [r.replyEvent d j job answer,
      .answerUnclaimed ((r.setPool d p').worker d j) ((r.setPool d p').label d)]
    rw [if_pos rfl, labels, worker] at both
    rw [labels, worker]
    exact both ▸ .unclaimed nobody

/-- **What a step publishes, hears and writes about the way of a message is one of the seven
reports.** -/
theorem report_of_step (sound : r.Sound) (step : r.step? clock a = some (r', outputs)) (c d : Nat) :
    Report r r' c d (outputs.filterMap (Output.publish? c d)) (r.heard c d (clock, a))
      (outputs.filterMap (Output.event? (.leg c d))) := by
  cases a with
  | take i j =>
    have unheard : r.heard c d (clock, .take i j) = [] := rfl
    have kept : Unended r r' c d := unended_of_quiet sound step unheard (by simp)
    obtain ⟨p, job, p', -, -, -, rfl⟩ := take?_cases step
    rw [unheard]
    by_cases mine : i = d ∧ job.call = c
    · obtain ⟨rfl, rfl⟩ := mine
      simp only [List.filterMap_cons, List.filterMap_nil, Output.publish?, Output.event?, if_true,
        and_self]
      exact .begun kept
    · have other : ¬ Topic.leg job.call i = .leg c d := by
        rw [Topic.leg.injEq]
        exact fun same ↦ mine ⟨same.2, same.1⟩
      simp only [List.filterMap_cons, List.filterMap_nil, Output.publish?, Output.event?,
        if_neg mine, if_neg other]
      exact .silent kept
  | reply i j answer =>
    rw [no_publish_of_idle step (by simp)]
    obtain ⟨p, job, p', hp, finished, -⟩ := reply?_cases step
    have hand := inHand?_of_finish? hp finished
    by_cases mine : i = d ∧ job.call = c
    · obtain ⟨rfl, rfl⟩ := mine
      rw [heard_of_hand hand, if_pos ⟨rfl, rfl⟩]
      exact report_of_reply sound step hand
    · have unheard : r.heard c d (clock, .reply i j answer) = [] := heard_of_other hand mine
      have kept : Unended r r' c d := unended_of_quiet sound step unheard (by simp)
      have other : ¬ Topic.leg job.call i = .leg c d := by
        rw [Topic.leg.injEq]
        exact fun same ↦ mine ⟨same.2, same.1⟩
      obtain ⟨events, rfl⟩ := outputs_of_reply step hand
      rw [unheard, event?_map, if_neg other]
      exact .silent kept
  | breakOff c' d' =>
    have unheard : r.heard c d (clock, .breakOff c' d') = [] := rfl
    rw [no_publish_of_idle step (by simp), unheard]
    by_cases mine : Topic.leg c' d' = .leg c d
    · cases mine
      obtain ⟨h, leg, due, found, here, waiting, -, rfl, rfl⟩ := breakOff?_cases step
      simp only [List.filterMap_cons, List.filterMap_nil, Output.event?, if_true]
      refine .brokenOff ?_ (comes_setLeg found here rfl waiting rfl)
      rw [leg?_eq_some.mpr ⟨h, found, here⟩]
      rfl
    · have other : Action.breakOff c' d' ≠ .breakOff c d := by
        intro same
        cases same
        exact mine rfl
      have nothing := legEvents_of_quiet step (c := c) (d := d) (by simp) (by simp) other
      rw [nothing]
      exact .silent (unended_of_quiet sound step unheard other)
  | _ =>
    rw [no_publish_of_idle step (by simp), heard_of_silent (by simp),
      legEvents_of_quiet step (by simp) (by simp) (by simp)]
    exact .silent (unended_of_quiet sound step (heard_of_silent (by simp) c d) (by simp))

/-- Whatever is written about the way of a message is an event of a leg and names its
destination. -/
theorem Report.written {published : List Message} {heard : List Reply} {events : List Event}
    (report : Report r r' c d published heard events) :
    ∀ e ∈ events, e.name ∈ Event.legNames ∧ ("destination", r.label d) ∈ e.line.fields := by
  intro e written
  cases report with
  | silent _ => cases written
  | begun _ | accepted _ _ | brokenOff _ _ =>
    cases List.mem_singleton.mp written
    simp [Event.legNames, Event.name, Event.line, Event.workerLine, Event.lineOf]
  | retried _ _ | givenUp _ _ =>
    rcases List.mem_pair.mp written with rfl | rfl <;>
      simp [Event.legNames, Event.name, Event.line, Event.workerLine, Event.lineOf]
  | @unclaimed j job reply _ =>
    rcases List.mem_pair.mp written with rfl | rfl
    · cases answer : reply.answer <;>
        simp [replyEvent, Event.legNames, Event.name, Event.line, Event.workerLine, Event.lineOf]
    · simp [Event.legNames, Event.name, Event.line, Event.workerLine, Event.lineOf]

theorem label_of_runs (runs : Runs s route past r) {dest : Destination}
    (there : route.destinations[d]? = some dest) : r.label d = dest.label := by
  have labels := congrArg (·[d]?) (sound_of_runs runs).destinations
  rw [(kept_of_runs runs).route] at labels
  rw [show (ofRoute s route).route.destinations = route.destinations from rfl, there,
    List.getElem?_map, Option.map_eq_some_iff] at labels
  obtain ⟨p, hp, rfl⟩ := labels
  rw [label, hp]
  rfl

theorem destination_of_runs (runs : Runs s route past r) {dest : Destination}
    (there : route.destinations[d]? = some dest) (c : Nat) :
    ∀ e ∈ legLog c d past, ("destination", dest.label) ∈ e.line.fields := by
  induction runs with
  | refl => exact nofun
  | snoc before step ih =>
    intro e written
    rw [legLog_concat] at written
    rcases List.mem_append.mp written with earlier | now
    · exact ih e earlier
    · rw [← label_of_runs before there]
      exact ((report_of_step (sound_of_runs before) step c d).written e now).2

/-! ## What the workers have written -/

variable {published : List Message} {heard : List Reply} {events : List Event}

/-- The workers write about every publish and every answer. -/
theorem Report.workers (report : Report r r' c d published heard events) :
    Event.count "lane_publish_attempt" events = published.length ∧
      Event.count "lane_publish_ok" events = acceptances heard ∧
      Event.count "lane_publish_failed" events = denials heard := by
  cases report with
  | silent _ => exact ⟨rfl, rfl, rfl⟩
  | begun _ => exact ⟨rfl, rfl, rfl⟩
  | accepted ok _ =>
    obtain ⟨one, zero⟩ := counts_of_ok ok
    rw [one, zero]
    exact ⟨rfl, rfl, rfl⟩
  | retried refused _ =>
    obtain ⟨zero, one⟩ := counts_of_error refused
    rw [one, zero]
    exact ⟨rfl, rfl, rfl⟩
  | givenUp refused _ =>
    obtain ⟨zero, one⟩ := counts_of_error refused
    rw [one, zero]
    exact ⟨rfl, rfl, rfl⟩
  | unclaimed _ =>
    cases answer : Reply.answer _ with
    | ok _ =>
      obtain ⟨one, zero⟩ := counts_of_ok answer
      rw [one, zero]
      exact ⟨rfl, rfl, rfl⟩
    | error e =>
      obtain ⟨zero, one⟩ := counts_of_error answer
      rw [one, zero]
      exact ⟨rfl, rfl, rfl⟩
  | brokenOff _ _ => exact ⟨rfl, rfl, rfl⟩

/-- **The log has an event for every publish and for every answer of the bus.** -/
theorem workers_of_runs (runs : Runs s route past r) (c d : Nat) :
    Event.count "lane_publish_attempt" (legLog c d past) = (publishes c d past).length ∧
      Event.count "lane_publish_ok" (legLog c d past) = acceptances (replies c d past) ∧
      Event.count "lane_publish_failed" (legLog c d past) = denials (replies c d past) := by
  induction runs with
  | refl => exact ⟨rfl, rfl, rfl⟩
  | @snoc past r r' act outputs before step ih =>
    rcases act with ⟨clock, a⟩
    obtain ⟨attempts, accepted, refused⟩ := ih
    obtain ⟨attempts', accepted', refused'⟩ :=
      (report_of_step (sound_of_runs before) step c d).workers
    rw [legLog_concat, publishes_concat, replies_concat]
    simp only [Event.count_append, List.length_append, acceptances_append, denials_append]
    exact ⟨by rw [attempts, attempts'], by rw [accepted, accepted'], by rw [refused, refused']⟩

/-! ## What the leg has written -/

/-- The log of a leg follows up every refusal, and says whether the leg was given up or broken
off. -/
structure Logged (log : List Event) (replies : List Reply) (leg : Leg) : Prop where
  followed : Event.count "delivery_retry_scheduled" log + Event.count "delivery_tolerated" log =
    denials replies
  tolerated : Event.count "delivery_tolerated" log = if leg.endedAs LegEnd.isTolerated then 1 else 0
  cancelled : Event.count "delivery_cancelled" log = if leg.endedAs LegEnd.isCancelled then 1 else 0

variable {log : List Event} {replies : List Reply}

theorem Logged.add (logged : Logged log replies leg)
    (followed : Event.count "delivery_retry_scheduled" events +
      Event.count "delivery_tolerated" events = denials heard)
    (tolerated : (if leg.endedAs LegEnd.isTolerated then 1 else 0) +
      Event.count "delivery_tolerated" events = if leg'.endedAs LegEnd.isTolerated then 1 else 0)
    (cancelled : (if leg.endedAs LegEnd.isCancelled then 1 else 0) +
      Event.count "delivery_cancelled" events = if leg'.endedAs LegEnd.isCancelled then 1 else 0) :
    Logged (log ++ events) (replies ++ heard) leg' := by
  refine ⟨?_, ?_, ?_⟩
  · rw [Event.count_append, Event.count_append, denials_append, ← logged.followed, ← followed]
    omega
  · rw [Event.count_append, logged.tolerated, tolerated]
  · rw [Event.count_append, logged.cancelled, cancelled]

/-- A leg that was going on and has come to another phase has written what the phase says. -/
theorem Logged.come (logged : Logged log replies leg)
    (going_on : leg.result? = none)
    (followed : Event.count "delivery_retry_scheduled" events +
      Event.count "delivery_tolerated" events = denials heard)
    (tolerated : Event.count "delivery_tolerated" events =
      if leg'.endedAs LegEnd.isTolerated then 1 else 0)
    (cancelled : Event.count "delivery_cancelled" events =
      if leg'.endedAs LegEnd.isCancelled then 1 else 0) :
    Logged (log ++ events) (replies ++ heard) leg' := by
  refine logged.add followed ?_ ?_
  · rw [Leg.endedAs_of_result? going_on, ← tolerated]
    exact Nat.zero_add _
  · rw [Leg.endedAs_of_result? going_on, ← cancelled]
    exact Nat.zero_add _

theorem Logged.settle {e : LegEnd} (logged : Logged log replies leg)
    (going_on : leg.result? = none) (settled : leg'.phase = .settled e)
    (followed : Event.count "delivery_retry_scheduled" events +
      Event.count "delivery_tolerated" events = denials heard)
    (tolerated : Event.count "delivery_tolerated" events = if e.isTolerated then 1 else 0)
    (cancelled : Event.count "delivery_cancelled" events = if e.isCancelled then 1 else 0) :
    Logged (log ++ events) (replies ++ heard) leg' := by
  apply logged.come going_on followed
  · rw [Leg.endedAs_of_settled settled, tolerated]
  · rw [Leg.endedAs_of_settled settled, cancelled]

theorem Logged.report (logged : Logged log replies leg) (before : r.leg? c d = some leg)
    (after : r'.leg? c d = some leg') (report : Report r r' c d published heard events) :
    Logged (log ++ events) (replies ++ heard) leg' := by
  cases report with
  | silent kept =>
    obtain ⟨tolerated, cancelled⟩ := kept leg leg' before after
    exact logged.add rfl (by rw [tolerated]; rfl) (by rw [cancelled]; rfl)
  | begun kept =>
    obtain ⟨tolerated, cancelled⟩ := kept leg leg' before after
    exact logged.add rfl (by rw [tolerated]; rfl) (by rw [cancelled]; rfl)
  | accepted ok comes =>
    obtain ⟨submitted, settled⟩ := comes leg leg' before after
    refine logged.settle (Leg.result?_of_submitted submitted) settled ?_ rfl rfl
    rw [(counts_of_ok ok).2]
    rfl
  | retried refused comes =>
    obtain ⟨submitted, waiting⟩ := comes leg leg' before after
    refine logged.come (Leg.result?_of_submitted submitted) ?_ ?_ ?_
    · rw [(counts_of_error refused).2]
      rfl
    · rw [Leg.endedAs_of_result? (Leg.result?_of_waiting waiting)]
      rfl
    · rw [Leg.endedAs_of_result? (Leg.result?_of_waiting waiting)]
      rfl
  | givenUp refused comes =>
    obtain ⟨submitted, settled⟩ := comes leg leg' before after
    refine logged.settle (Leg.result?_of_submitted submitted) settled ?_ rfl rfl
    rw [(counts_of_error refused).2]
    rfl
  | unclaimed nobody =>
    rw [nobody] at before
    cases before
  | brokenOff _ comes =>
    obtain ⟨waiting, settled⟩ := comes leg leg' before after
    exact logged.settle (Leg.result?_of_waiting waiting) settled rfl rfl rfl

/-! ## Nothing is written when nothing is under way -/

theorem legEvents_of_idle (sound : r.Sound) (step : r.step? clock a = some (r', outputs))
    (nobody : r.handling? c = none) (jobs : r.jobsOf c d = []) :
    outputs.filterMap (Output.event? (.leg c d)) = [] := by
  have report := report_of_step sound step c d
  rw [no_publish_of_step step jobs, heard_eq_nil jobs] at report
  generalize outputs.filterMap (Output.event? (.leg c d)) = events at report
  cases report with
  | silent _ => rfl
  | brokenOff there _ =>
    rw [leg?, nobody] at there
    cases there

theorem legLog_of_new (runs : Runs s route past r) (new : r.nextCall ≤ c) (d : Nat) :
    legLog c d past = [] := by
  induction runs with
  | refl => rfl
  | @snoc past r r' act outputs before step ih =>
    have sound := sound_of_runs before
    have new : r.nextCall ≤ c := (kept_of_step step).nextCall.trans new
    have nobody : r.handling? c = none := by
      cases found : r.handling? c with
      | none => rfl
      | some h => exact absurd (sound.handling_lt found) (Nat.not_lt.mpr new)
    rw [legLog_concat, ih new, legEvents_of_idle sound step nobody (sound.jobsOf_eq_nil new d)]
    rfl

theorem legLog_of_over (runs : Runs s route past r) (exec : Execution act r later r')
    (old : c < r.nextCall) (nobody : r.handling? c = none) (jobs : ∀ d, r.jobsOf c d = [])
    (d : Nat) : legLog c d later = [] := by
  rw [legLog, Moment.told, List.filterMap_flatMap]
  apply List.flatMap_eq_nil_iff.mpr
  intro mo hmo
  obtain ⟨earlier, -, -, reach, step, -⟩ := exec.at_moment hmo
  obtain ⟨gone, idle⟩ := stays_over exec old nobody jobs mo hmo
  exact legEvents_of_idle (sound_of_runs (runs.trans reach)) step gone (idle d)

/-- **The log of a handled message says what has become of each of its legs.** -/
theorem logged_of_runs (runs : Runs s route past r) (found : r.handling? c = some h)
    (here : h.legs[d]? = some leg) : Logged (legLog c d past) (Running.replies c d past) leg := by
  induction runs generalizing h leg with
  | refl => cases found
  | @snoc past r r' act outputs before step ih =>
    rcases act with ⟨clock, a⟩
    have sound := sound_of_runs before
    rw [legLog_concat, replies_concat]
    obtain ⟨h₀, leg₀, found₀, here₀, -, -⟩ | ⟨rfl, m, rfl⟩ := sound.leg_of_step step found here
    · exact (ih found₀ here₀).report (leg?_eq_some.mpr ⟨h₀, found₀, here₀⟩)
        (leg?_eq_some.mpr ⟨h, found, here⟩) (report_of_step sound step c d)
    · -- nothing has been written or heard of a call that has just arrived
      have new := (arrival_cases step).1
      rw [legLog_of_new before new, (untouched_of_new before new).replies,
        legEvents_of_quiet step (by simp) (by simp) (by simp), heard_of_silent (by simp)]
      exact ⟨rfl, rfl, rfl⟩

end Running

end MessageBridge
