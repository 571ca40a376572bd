import MessageBridge.Proofs.Delivery.Course
import MessageBridge.Proofs.Execution
import MessageBridge.Proofs.Lane.Moves

/-!
# The steps of a running route

For each action, when it can happen and what it changes. Everything that is proved about running
routes later on is derived from these equivalences and does not look into the machine again.

A handling is looked up by its call and a leg by its place in the handling, so most changes are
stated through what `Running.handling?` finds afterwards. Losing jobs is a fold over the jobs that
are lost; seen through the look-up it is one simultaneous change.
-/

namespace MessageBridge

/-! ## Losing a job -/

/-- The handling with one leg replaced. -/
def Handling.withLeg (d : Nat) (leg : Leg) (h : Handling) : Handling :=
  { h with legs := h.legs.set d leg }

/-- The handling after the job of one of its legs is lost. -/
def Handling.loseAt (d : Nat) (h : Handling) : Handling :=
  { h with legs := h.legs.modify d Leg.lose }

@[simp] theorem Handling.loseAt_loseAt (d : Nat) (h : Handling) :
    (h.loseAt d).loseAt d = h.loseAt d := by
  simp only [Handling.loseAt, List.modify_modify_eq]
  congr 2
  funext leg
  exact leg.lose_lose

theorem Handling.loseAt_eq_self {d : Nat} {h : Handling}
    (same : ∀ leg, h.legs[d]? = some leg → leg.phase ≠ .submitted) : h.loseAt d = h := by
  have legs : h.legs.modify d Leg.lose = h.legs := by
    refine List.ext_getElem? fun i ↦ ?_
    rw [List.getElem?_modify]
    split
    · rename_i here
      subst here
      cases hl : h.legs[d]? with
      | none => rfl
      | some leg => exact congrArg some (Leg.lose_of_ne (same leg hl))
    · exact Option.map_id'
  rw [Handling.loseAt, legs]

theorem Handling.loseAt_eq_set {d : Nat} {h : Handling} {leg : Leg} (hl : h.legs[d]? = some leg) :
    h.loseAt d = h.withLeg d leg.lose := by
  rw [Handling.loseAt, Handling.withLeg]
  congr 1
  refine List.ext_getElem? fun i ↦ ?_
  rw [List.getElem?_modify, List.getElem?_set]
  split
  · rename_i here
    subst here
    rw [hl, if_pos (List.getElem?_eq_some_iff.mp hl).1]
    rfl
  · exact Option.map_id'

namespace Running

variable {clock : Clock} {r r' : Running} {outputs : List Output}

/-! ## Looking up handlings -/

theorem handling?_eq_none_iff {call : Nat} :
    r.handling? call = none ↔ ∀ h ∈ r.handlings, h.call ≠ call := by
  simp [handling?]

@[simp] theorem handling?_setPool (i : Nat) (p : Pool Job) (call : Nat) :
    (r.setPool i p).handling? call = r.handling? call := rfl

theorem handling?_setLeg (c d : Nat) (leg : Leg) (call : Nat) :
    (r.setLeg c d leg).handling? call = (r.handling? call).map fun h ↦
      if call = c then h.withLeg d leg else h := by
  simp only [handling?, setLeg, List.find?_map]
  have same : (fun h : Handling ↦ h.call == call) ∘
      (fun h : Handling ↦ if h.call = c then { h with legs := h.legs.set d leg } else h) =
      fun h ↦ h.call == call := by
    funext h
    simp only [Function.comp]
    split <;> rfl
  rw [same]
  cases hh : r.handlings.find? fun h ↦ h.call == call with
  | none => rfl
  | some h => simp [show h.call = call by simpa using List.find?_some hh, Handling.withLeg]

theorem handling?_withoutHandling (c call : Nat) :
    (r.withoutHandling c).handling? call = if call = c then none else r.handling? call := by
  simp only [handling?, withoutHandling, List.find?_filter]
  split
  · rename_i same
    subst same
    simp
  · rename_i other
    congr 1
    funext h
    by_cases hc : h.call = call
    · simp [hc, other]
    · simp [hc]

/-! ## Losing jobs -/

/-- One job is lost. -/
private def loseJob (clock : Clock) (d : Nat) (r : Running) (j : Job) : Running :=
  ((r.answerJob? clock d j .lost).map Prod.fst).getD r

private theorem loseJobs_cons (clock : Clock) (d : Nat) (j : Job) (jobs : List Job) :
    r.loseJobs clock d (j :: jobs) = (loseJob clock d r j).loseJobs clock d jobs := rfl

/-- Either nobody waits for the job, and nothing changes, or one leg does. -/
private theorem loseJob_cases (clock : Clock) (d : Nat) (j : Job) :
    (∃ h leg, r.handling? j.call = some h ∧ h.legs[d]? = some leg ∧ leg.phase = .submitted ∧
        loseJob clock d r j = r.setLeg j.call d leg.lose) ∨
      (∀ h, r.handling? j.call = some h → h.loseAt d = h) ∧ loseJob clock d r j = r := by
  cases hh : r.handling? j.call with
  | none => exact .inr ⟨fun h hn ↦ (nomatch hn), by simp [loseJob, answerJob?, hh]⟩
  | some h =>
    cases hl : h.legs[d]? with
    | none =>
      refine .inr ⟨fun h' he ↦ ?_, by simp [loseJob, answerJob?, hh, hl]⟩
      cases he
      exact Handling.loseAt_eq_self fun leg hleg ↦ by simp [hl] at hleg
    | some leg =>
      by_cases hs : leg.phase = .submitted
      · refine .inl ⟨h, leg, rfl, hl, hs, ?_⟩
        simp [loseJob, answerJob?, hh, hl, hs, Leg.lose_of_submitted hs r.plan clock.now
          (h.message.age? clock.wall)]
      · refine .inr ⟨fun h' he ↦ ?_, by simp [loseJob, answerJob?, hh, hl, hs]⟩
        cases he
        exact Handling.loseAt_eq_self fun leg' hleg ↦ by
          rw [hl] at hleg
          cases hleg
          exact hs

private theorem handling?_loseJob (clock : Clock) (d : Nat) (j : Job) (call : Nat) :
    (loseJob clock d r j).handling? call = (r.handling? call).map fun h ↦
      if call = j.call then h.loseAt d else h := by
  obtain ⟨h, leg, hh, hl, -, done⟩ | ⟨same, done⟩ := loseJob_cases (r := r) clock d j
  · rw [done, handling?_setLeg]
    by_cases hc : call = j.call
    · subst hc
      simp [hh, Handling.loseAt_eq_set hl]
    · simp [hc]
  · rw [done]
    by_cases hc : call = j.call
    · subst hc
      cases hh : r.handling? j.call with
      | none => rfl
      | some h => simp [same h hh]
    · simp [hc]

/-- Each call that one of the lost jobs belongs to loses its leg to the destination. -/
theorem handling?_loseJobs (clock : Clock) (d : Nat) (jobs : List Job) (call : Nat) :
    (r.loseJobs clock d jobs).handling? call = (r.handling? call).map fun h ↦
      if call ∈ jobs.map Job.call then h.loseAt d else h := by
  induction jobs generalizing r with
  | nil => simp [loseJobs]
  | cons j jobs ih =>
    rw [loseJobs_cons, ih, handling?_loseJob, Option.map_map]
    congr 1
    funext h
    by_cases hc : call = j.call
    · subst hc
      simp only [Function.comp, List.map_cons, List.mem_cons, true_or, if_true]
      split
      · exact h.loseAt_loseAt d
      · rfl
    · simp only [Function.comp, List.map_cons, List.mem_cons, hc, false_or, if_false]

/-- Only legs change when jobs are lost. -/
theorem loseJobs_frame (clock : Clock) (d : Nat) (jobs : List Job) :
    ∃ handlings, handlings.map Handling.call = r.handlings.map Handling.call ∧
      r.loseJobs clock d jobs = { r with handlings } := by
  induction jobs generalizing r with
  | nil => exact ⟨r.handlings, rfl, rfl⟩
  | cons j jobs ih =>
    obtain ⟨handlings, calls, done⟩ := ih (r := loseJob clock d r j)
    rw [loseJobs_cons, done]
    obtain ⟨h, leg, -, -, -, one⟩ | ⟨-, one⟩ := loseJob_cases (r := r) clock d j
    · refine ⟨handlings, ?_, by rw [one]; rfl⟩
      rw [calls, one, setLeg, List.map_map]
      refine List.map_congr_left fun h _ ↦ ?_
      simp only [Function.comp]
      split <;> rfl
    · exact ⟨handlings, by rw [calls, one], by rw [one]⟩

@[simp] theorem loseJobs_pools (clock : Clock) (d : Nat) (jobs : List Job) :
    (r.loseJobs clock d jobs).pools = r.pools := by
  obtain ⟨_, -, h⟩ := loseJobs_frame (r := r) clock d jobs
  rw [h]

@[simp] theorem loseJobs_phase (clock : Clock) (d : Nat) (jobs : List Job) :
    (r.loseJobs clock d jobs).phase = r.phase := by
  obtain ⟨_, -, h⟩ := loseJobs_frame (r := r) clock d jobs
  rw [h]

/-! ## Arrival and departure -/

/-- What is told about a message that is not turned away, before its fate is known. -/
def arrivalOutputs (clock : Clock) (call : Nat) (m : Message) (r : Running) : List Output :=
  Output.event (.call call) (.received r.route.name m.idText m.payload.size) ::
    ((r.route.prepare clock.wall m).passedOver.map fun p ↦
      Output.event (.call call) (.passedOver p)).toList

/-- The handling of a message that has been prepared, with a fresh leg to every destination. -/
def freshHandling (call : Nat) (m : Message) (r : Running) : Handling :=
  ⟨call, m, r.pools.map fun _ ↦ .fresh⟩

theorem handling?_concat {call : Nat} {m : Message}
    (h : r'.handlings = r.handlings ++ [r.freshHandling call m]) (c : Nat) :
    r'.handling? c =
      (r.handling? c).or (if c = call then some (r.freshHandling call m) else none) := by
  rw [handling?, h, List.find?_append]
  congr 1
  by_cases hc : c = call
  · simp [freshHandling, hc]
  · simp [freshHandling, hc, Ne.symm hc]

/-- A message that arrives is answered at once or handled, which the token and the preparation
decide. -/
theorem handle?_cases {call : Nat} {m : Message}
    (step : r.handle? clock call m = some (r', outputs)) :
    r.nextCall ≤ call ∧
      (r.cancelled = true ∧ r' = { r with nextCall := call + 1 } ∧
          outputs = [.event (.call call) (.turnedAway r.route.name m.idText),
            .verdict call (.error .shuttingDown)] ∨
        (∃ reason, r.cancelled = false ∧ (r.route.prepare clock.wall m).outcome = .error reason ∧
          r' = { r with nextCall := call + 1 } ∧
          outputs = r.arrivalOutputs clock call m ++
            [.event (.call call) (.dropped r.route.name r.route.source.label m.idText reason),
              .verdict call (.ok ())]) ∨
        ∃ m', r.cancelled = false ∧ (r.route.prepare clock.wall m).outcome = .ok m' ∧
          r' = { r with
            nextCall := call + 1
            handlings := r.handlings ++ [r.freshHandling call m'] } ∧
          outputs = r.arrivalOutputs clock call m) := by
  unfold handle? at step
  split at step
  · cases step
  · rename_i new
    refine ⟨by omega, ?_⟩
    simp only at step
    split at step
    · rename_i cancelled
      cases step
      exact .inl ⟨cancelled, rfl, rfl⟩
    · rename_i running
      have running : r.cancelled = false := by simpa using running
      split at step
      · rename_i reason dropped
        cases step
        exact .inr (.inl ⟨reason, running, dropped, rfl, rfl⟩)
      · rename_i m' passed
        cases step
        exact .inr (.inr ⟨m', running, passed, rfl, rfl⟩)

theorem abandon_eq_some {call : Nat} :
    r.step? clock (.abandon call) = some (r', outputs) ↔
      (∃ h, r.handling? call = some h) ∧ r' = r.withoutHandling call ∧ outputs = [] := by
  simp only [step?, Option.map_eq_some_iff, Prod.mk.injEq, eq_comm (a := r'),
    eq_comm (a := outputs), exists_and_right]

theorem resolve?_cases {call : Nat} (step : r.resolve? call = some (r', outputs)) :
    ∃ h, r.handling? call = some h ∧ (∀ leg ∈ h.legs, leg.result?.isSome = true) ∧
      r' = r.withoutHandling call ∧
      (r.failures h = [] ∧ outputs =
          [.event (.call call) (.delivered r.route.name h.message.idText
              (countEnds (· matches .published) h.legs)
              (countEnds (· matches .tolerated _) h.legs)),
            .verdict call (.ok ())] ∨
        r.failures h ≠ [] ∧ outputs =
          [.event (.call call) (.undelivered h.message.idText ⟨r.route.name, r.failures h⟩),
            .verdict call (.error (.undelivered ⟨r.route.name, r.failures h⟩))]) := by
  unfold resolve? at step
  obtain ⟨h, hh, step⟩ := Option.bind_eq_some_iff.mp step
  split at step
  · rename_i all
    refine ⟨h, hh, by simpa using all, ?_⟩
    split at step
    · rename_i none_failed
      cases step
      exact ⟨rfl, .inl ⟨none_failed, rfl⟩⟩
    · rename_i failed
      cases step
      exact ⟨rfl, .inr ⟨failed, rfl⟩⟩
  · cases step

/-! ## Legs -/

theorem submit?_cases {call d : Nat} (step : r.submit? clock call d = some (r', outputs)) :
    outputs = [] ∧ ∃ h leg p, r.handling? call = some h ∧ h.legs[d]? = some leg ∧
      leg.phase = .ready ∧ r.pools[d]? = some p ∧
      ((p.submit ⟨call, h.message⟩).2 = true ∧
          r' = (r.setLeg call d leg.submit).setPool d (p.submit ⟨call, h.message⟩).1 ∨
        (p.submit ⟨call, h.message⟩).2 = false ∧
          r' = ((r.setLeg call d leg.submit).setPool d (p.submit ⟨call, h.message⟩).1).loseJobs
            clock d [⟨call, h.message⟩]) := by
  unfold submit? at step
  obtain ⟨h, hh, step⟩ := Option.bind_eq_some_iff.mp step
  obtain ⟨leg, hl, step⟩ := Option.bind_eq_some_iff.mp step
  obtain ⟨p, hp, step⟩ := Option.bind_eq_some_iff.mp step
  split at step
  · rename_i ready
    rcases submitted : p.submit ⟨call, h.message⟩ with ⟨p', accepted⟩
    simp only [submitted] at step
    cases accepted with
    | true =>
      cases step
      exact ⟨rfl, h, leg, p, hh, hl, ready, hp, .inl ⟨by rw [submitted], by rw [submitted]⟩⟩
    | false =>
      cases step
      exact ⟨rfl, h, leg, p, hh, hl, ready, hp, .inr ⟨by rw [submitted], by rw [submitted]⟩⟩
  · cases step

theorem wake?_cases {call d : Nat} (step : r.wake? clock call d = some (r', outputs)) :
    outputs = [] ∧ ∃ h leg due, r.handling? call = some h ∧ h.legs[d]? = some leg ∧
      leg.phase = .waiting due ∧ due ≤ clock.now ∧
      r' = r.setLeg call d { leg with phase := .ready } := by
  unfold wake? at step
  obtain ⟨leg, hl, step⟩ := Option.bind_eq_some_iff.mp step
  obtain ⟨h, hh, hl⟩ := Option.bind_eq_some_iff.mp hl
  obtain ⟨leg', woken, step⟩ := Option.bind_eq_some_iff.mp step
  cases step
  unfold Leg.wake? at woken
  split at woken
  · rename_i due waiting
    split at woken
    · rename_i now
      cases woken
      exact ⟨rfl, h, leg, due, hh, hl, waiting, now, rfl⟩
    · cases woken
  · cases woken

theorem breakOff?_cases {call d : Nat} (step : r.breakOff? call d = some (r', outputs)) :
    ∃ h leg due, r.handling? call = some h ∧ h.legs[d]? = some leg ∧
      leg.phase = .waiting due ∧ r.cancelled = true ∧
      r' = r.setLeg call d (leg.settle (.failed .cancelled)) ∧
      outputs = [.event (.leg call d)
        (.cancelled r.route.name (r.label d) h.message.idText leg.attempts)] := by
  unfold breakOff? at step
  obtain ⟨h, hh, step⟩ := Option.bind_eq_some_iff.mp step
  obtain ⟨leg, hl, step⟩ := Option.bind_eq_some_iff.mp step
  obtain ⟨leg', broken, step⟩ := Option.bind_eq_some_iff.mp step
  split at step
  · rename_i cancelled
    cases step
    unfold Leg.breakOff? at broken
    split at broken
    · rename_i due waiting
      cases broken
      exact ⟨h, leg, due, hh, hl, waiting, cancelled, rfl, rfl⟩
    · cases broken
  · cases step

/-! ## Workers -/

theorem take?_cases {i j : Nat} (step : r.take? i j = some (r', outputs)) :
    ∃ p job p', r.pools[i]? = some p ∧ p.take? j = some (job, p') ∧ r' = r.setPool i p' ∧
      outputs = [.event (.leg job.call i)
          (.publishBegun (r.worker i j) (r.label i) job.message.idText),
        .publish i j job.call job.message] := by
  unfold take? at step
  obtain ⟨p, hp, step⟩ := Option.bind_eq_some_iff.mp step
  obtain ⟨⟨job, p'⟩, taken, step⟩ := Option.bind_eq_some_iff.mp step
  cases step
  exact ⟨p, job, p', hp, taken, rfl, rfl⟩

/-- What the bus answers reaches the leg that waits for it; if there is none, only the worker
notices. -/
theorem reply?_cases {i j : Nat} {answer : Except BusError Unit}
    (step : r.reply? clock i j answer = some (r', outputs)) :
    ∃ p job p', r.pools[i]? = some p ∧ p.finish? j = some (job, p') ∧
      ((∃ h leg, r.handling? job.call = some h ∧ h.legs[i]? = some leg ∧
          leg.phase = .submitted ∧
          r' = (r.setPool i p').setLeg job.call i
            (leg.answer r.plan clock.now (h.message.age? clock.wall) (jobAnswer answer)) ∧
          outputs = .event (.leg job.call i) (r.replyEvent i j job answer) ::
            ((r.setPool i p').answerEvents i
              (leg.answer r.plan clock.now (h.message.age? clock.wall) (jobAnswer answer))
              h.message).map (.event (.leg job.call i))) ∨
        (∀ h leg, r.handling? job.call = some h → h.legs[i]? = some leg →
          leg.phase ≠ .submitted) ∧ r' = r.setPool i p' ∧
          outputs = [.event (.leg job.call i) (r.replyEvent i j job answer),
            .event (.leg job.call i)
              (.answerUnclaimed ((r.setPool i p').worker i j) ((r.setPool i p').label i))]) := by
  unfold reply? at step
  obtain ⟨p, hp, step⟩ := Option.bind_eq_some_iff.mp step
  obtain ⟨⟨job, p'⟩, finished, step⟩ := Option.bind_eq_some_iff.mp step
  refine ⟨p, job, p', hp, finished, ?_⟩
  cases claimed : (r.setPool i p').answerJob? clock i job (jobAnswer answer) with
  | none =>
    refine .inr ⟨fun h leg hh hl submitted ↦ ?_, ?_⟩
    · simp [answerJob?, hh, hl, submitted] at claimed
    · simp only [claimed] at step
      cases step
      exact ⟨rfl, rfl⟩
  | some reaction =>
    simp only [claimed] at step
    cases step
    unfold answerJob? at claimed
    obtain ⟨h, hh, claimed⟩ := Option.bind_eq_some_iff.mp claimed
    obtain ⟨leg, hl, claimed⟩ := Option.bind_eq_some_iff.mp claimed
    split at claimed
    · rename_i submitted
      cases claimed
      exact .inl ⟨h, leg, hh, hl, submitted, rfl, rfl⟩
    · cases claimed

theorem crash?_cases {i j : Nat} (step : r.crash? clock i j = some (r', outputs)) :
    outputs = [] ∧ ∃ p lost p', r.pools[i]? = some p ∧ p.crash? j = some (lost, p') ∧
      r' = (r.setPool i p').loseJobs clock i lost := by
  unfold crash? at step
  obtain ⟨p, hp, step⟩ := Option.bind_eq_some_iff.mp step
  obtain ⟨⟨lost, p'⟩, crashed, step⟩ := Option.bind_eq_some_iff.mp step
  cases step
  exact ⟨rfl, p, lost, p', hp, crashed, rfl⟩

theorem drain?_cases {i j : Nat} (step : r.drain? clock i j = some (r', outputs)) :
    outputs = [] ∧ ∃ p refused p', r.pools[i]? = some p ∧ p.drain? j = some (refused, p') ∧
      r' = (r.setPool i p').loseJobs clock i refused := by
  unfold drain? at step
  obtain ⟨p, hp, step⟩ := Option.bind_eq_some_iff.mp step
  obtain ⟨⟨refused, p'⟩, drained, step⟩ := Option.bind_eq_some_iff.mp step
  cases step
  exact ⟨rfl, p, refused, p', hp, drained, rfl⟩

theorem retire?_cases {i j : Nat} (step : r.retire? i j = some (r', outputs)) :
    ∃ p p', r.pools[i]? = some p ∧ p.end? j = some p' ∧ r' = r.setPool i p' ∧
      outputs = [.event .route (.workerEnded (r.worker i j) (r.label i))] := by
  unfold retire? at step
  obtain ⟨p, hp, step⟩ := Option.bind_eq_some_iff.mp step
  obtain ⟨p', ended, step⟩ := Option.bind_eq_some_iff.mp step
  cases step
  exact ⟨p, p', hp, ended, rfl, rfl⟩

/-! ## Stopping -/

/-- Hearing of a token that may have fired is a step of a route, if it is anything. -/
theorem heed_cases (clock : Clock) (r : Running) (heard : Bool) :
    { r with cancelled := r.cancelled || heard } = r ∨
      r.step? clock .cancel = some ({ r with cancelled := r.cancelled || heard }, []) := by
  cases heard with
  | false => exact .inl (by rw [Bool.or_false])
  | true => exact .inr (by rw [Bool.or_true]; rfl)

theorem stop?_eq_some :
    r.stop? = some (r', outputs) ↔ r.phase = .running ∧
      r' = { r with cancelled := true, phase := .finishing } ∧
      outputs = [.event .route (.routeStopping r.route.name r.handlings.length), .cancelled] := by
  unfold stop?
  split
  · rename_i running
    simp only [running, true_and, Option.some.injEq, Prod.mk.injEq, eq_comm (a := r'),
      eq_comm (a := outputs)]
  · rename_i other
    exact ⟨fun h ↦ (nomatch h), fun h ↦ absurd h.1 other⟩

theorem closePools?_eq_some :
    r.closePools? = some (r', outputs) ↔ r.phase = .finishing ∧ r.handlings = [] ∧
      r' = { r with
        pools := r.pools.map fun p ↦ { p with closing := true }
        phase := .joining r.workerPlaces } ∧
      outputs = r.pools.map fun p ↦ .event .route (.poolClosing p.destination.label) := by
  unfold closePools?
  split
  · rename_i idle
    rw [List.isEmpty_iff] at idle
    simp only [idle, true_and, Option.some.injEq, Prod.mk.injEq, eq_comm (a := r'),
      eq_comm (a := outputs)]
  · rename_i busy
    rw [List.isEmpty_iff] at busy
    exact ⟨fun h ↦ (nomatch h), fun h ↦ absurd ⟨h.1, h.2.1⟩ busy⟩

/-- A worker is joined once it is gone, and the route has stopped when all are joined. -/
theorem join?_cases (step : r.join? = some (r', outputs)) :
    (r.phase = .joining [] ∧ r' = { r with phase := .stopped } ∧
        outputs = [.event .route (.routeStopped r.route.name), .stopped]) ∨
      ∃ place rest, r.phase = .joining (place :: rest) ∧
        r' = { r with phase := .joining rest } ∧
        ((r.workerState? place = some .crashed ∧
            outputs = [.event .route (.workerCrashed (r.worker place.1 place.2))]) ∨
          (r.workerState? place = some .ended ∧ outputs = [])) := by
  unfold join? at step
  split at step
  · rename_i joined
    cases step
    exact .inl ⟨joined, rfl, rfl⟩
  · rename_i place rest joining
    split at step
    · rename_i crashed
      cases step
      exact .inr ⟨place, rest, joining, rfl, .inl ⟨crashed, rfl⟩⟩
    · rename_i ended
      cases step
      exact .inr ⟨place, rest, joining, rfl, .inr ⟨ended, rfl⟩⟩
    · cases step
  · cases step

/-- Letting go changes the phase at most, and not that of a route that has stopped. -/
theorem forsake_cases (r : Running) :
    r.forsake = r ∨ r.phase ≠ .stopped ∧ r.forsake = { r with phase := .forsaken } := by
  unfold forsake
  cases hp : r.phase <;> simp

theorem release?_eq_some :
    r.release? = some (r', outputs) ↔ r.phase = .forsaken ∧ r.handlings = [] ∧
      r' = { r with pools := r.pools.map Pool.release, phase := .released } ∧ outputs = [] := by
  unfold release?
  split
  · rename_i idle
    rw [List.isEmpty_iff] at idle
    simp only [idle, true_and, Option.some.injEq, Prod.mk.injEq, eq_comm (a := r'),
      eq_comm (a := outputs)]
  · rename_i busy
    rw [List.isEmpty_iff] at busy
    exact ⟨fun h ↦ (nomatch h), fun h ↦ absurd ⟨h.1, h.2.1⟩ busy⟩

/-! ## What the pools see -/

/-- What a step of a route means for one of its pools. -/
inductive PoolStep (r : Running) (i : Nat) : Action → Pool Job → Pool Job → Prop where
  | same {a : Action} {p : Pool Job} (stays : ∀ c, a ≠ .abandon c ∧ a ≠ .resolve c)
      (quiet : ∀ j, a ≠ .take i j ∧ ∀ x, a ≠ .reply i j x) : PoolStep r i a p p
  | submit {call : Nat} {h : Handling} {p : Pool Job} (found : r.handling? call = some h) :
      PoolStep r i (.submit call i) p (p.submit ⟨call, h.message⟩).1
  | take {j : Nat} {job : Job} {p p' : Pool Job} (step : p.take? j = some (job, p')) :
      PoolStep r i (.take i j) p p'
  | finish {j : Nat} {answer : Except BusError Unit} {job : Job} {p p' : Pool Job}
      (step : p.finish? j = some (job, p')) : PoolStep r i (.reply i j answer) p p'
  | crash {j : Nat} {lost : List Job} {p p' : Pool Job} (step : p.crash? j = some (lost, p')) :
      PoolStep r i (.crash i j) p p'
  | drain {j : Nat} {refused : List Job} {p p' : Pool Job}
      (step : p.drain? j = some (refused, p')) : PoolStep r i (.drain i j) p p'
  | retire {j : Nat} {p p' : Pool Job} (step : p.end? j = some p') :
      PoolStep r i (.retire i j) p p'
  | leave {a : Action} {call : Nat} {p : Pool Job} (which : a = .abandon call ∨ a = .resolve call) :
      PoolStep r i a p (p.withdraw fun j ↦ j.call == call)
  | close {p : Pool Job} : PoolStep r i .closePools p { p with closing := true }
  | release {p : Pool Job} : PoolStep r i .release p p.release

theorem PoolStep.move {i : Nat} {a : Action} {p p' : Pool Job} (sees : PoolStep r i a p p') :
    p' = p ∨ p.Move p' := by
  cases sees with
  | same => exact .inl rfl
  | submit => exact .inr (.submit _ p)
  | take step => exact .inr (.take step)
  | finish step => exact .inr (.finish step)
  | crash step => exact .inr (.crash step)
  | drain step => exact .inr (.drain step)
  | retire step => exact .inr (.retire step)
  | leave => exact .inr (.withdraw _ p)
  | close => exact .inr (.close p)
  | release => exact .inr (.release p)

/-- The pools of two states correspond, and each of them sees what happened. -/
def PoolSteps (r : Running) (a : Action) (r' : Running) : Prop :=
  r'.pools.length = r.pools.length ∧ ∀ {i : Nat} {p' : Pool Job}, r'.pools[i]? = some p' →
    ∃ p, r.pools[i]? = some p ∧ PoolStep r i a p p'

theorem poolSteps_of_eq {a : Action} (h : r'.pools = r.pools)
    (same : ∀ i p, PoolStep r i a p p) : PoolSteps r a r' :=
  ⟨congrArg List.length h, fun {i p'} hp ↦ ⟨p', h ▸ hp, same i p'⟩⟩

theorem poolSteps_of_set {a : Action} {d : Nat} {p q : Pool Job} (hp : r.pools[d]? = some p)
    (h : r'.pools = r.pools.set d q) (here : PoolStep r d a p q)
    (elsewhere : ∀ i p, d ≠ i → PoolStep r i a p p) : PoolSteps r a r' := by
  refine ⟨by rw [h, List.length_set], fun {i p'} hp' ↦ ?_⟩
  rw [h, List.getElem?_set] at hp'
  split at hp'
  · rename_i same
    subst same
    split at hp'
    · cases hp'
      exact ⟨p, hp, here⟩
    · cases hp'
  · rename_i other
    exact ⟨p', hp', elsewhere i p' other⟩

theorem poolSteps_of_map {a : Action} {f : Pool Job → Pool Job} (h : r'.pools = r.pools.map f)
    (each : ∀ i p, PoolStep r i a p (f p)) : PoolSteps r a r' := by
  refine ⟨by rw [h, List.length_map], fun {i p'} hp' ↦ ?_⟩
  rw [h, List.getElem?_map, Option.map_eq_some_iff] at hp'
  obtain ⟨p, hp, rfl⟩ := hp'
  exact ⟨p, hp, each i p⟩

/-- **Every pool sees what a step means for it.** What is kept by all moves of pools, and of the
lanes in them, is therefore kept by all running routes. -/
theorem poolSteps_of_step {a : Action} (step : r.step? clock a = some (r', outputs)) :
    PoolSteps r a r' := by
  cases a with
  | handle call m =>
    obtain ⟨-, ⟨-, rfl, -⟩ | ⟨_, -, -, rfl, -⟩ | ⟨_, -, -, rfl, -⟩⟩ := handle?_cases step <;>
      exact poolSteps_of_eq rfl fun i p ↦ .same (by simp) (by simp)
  | abandon call =>
    obtain ⟨-, rfl, -⟩ := abandon_eq_some.mp step
    exact poolSteps_of_map rfl fun i p ↦ .leave (.inl rfl)
  | submit call d =>
    obtain ⟨-, h, leg, p, found, -, -, hp, ⟨-, rfl⟩ | ⟨-, rfl⟩⟩ := submit?_cases step
    · exact poolSteps_of_set hp rfl (.submit found) fun i p _ ↦ .same (by simp) (by simp)
    · exact poolSteps_of_set hp (loseJobs_pools ..) (.submit found)
        fun i p _ ↦ .same (by simp) (by simp)
  | wake call d =>
    obtain ⟨-, h, leg, due, -, -, -, -, rfl⟩ := wake?_cases step
    exact poolSteps_of_eq rfl fun i p ↦ .same (by simp) (by simp)
  | breakOff call d =>
    obtain ⟨h, leg, due, -, -, -, -, rfl, -⟩ := breakOff?_cases step
    exact poolSteps_of_eq rfl fun i p ↦ .same (by simp) (by simp)
  | resolve call =>
    obtain ⟨h, -, -, rfl, -⟩ := resolve?_cases step
    exact poolSteps_of_map rfl fun i p ↦ .leave (.inr rfl)
  | take d j =>
    obtain ⟨p, job, p', hp, taken, rfl, -⟩ := take?_cases step
    exact poolSteps_of_set hp rfl (.take taken) fun i p hi ↦ .same (by simp) (by simp [hi])
  | reply d j answer =>
    obtain ⟨p, job, p', hp, finished, ⟨_, _, -, -, -, rfl, -⟩ | ⟨-, rfl, -⟩⟩ :=
      reply?_cases step <;>
      exact poolSteps_of_set hp rfl (.finish finished) fun i p hi ↦ .same (by simp) (by simp [hi])
  | crash d j =>
    obtain ⟨-, p, lost, p', hp, crashed, rfl⟩ := crash?_cases step
    exact poolSteps_of_set hp (loseJobs_pools ..) (.crash crashed)
      fun i p _ ↦ .same (by simp) (by simp)
  | drain d j =>
    obtain ⟨-, p, refused, p', hp, drained, rfl⟩ := drain?_cases step
    exact poolSteps_of_set hp (loseJobs_pools ..) (.drain drained)
      fun i p _ ↦ .same (by simp) (by simp)
  | retire d j =>
    obtain ⟨p, p', hp, ended, rfl, -⟩ := retire?_cases step
    exact poolSteps_of_set hp rfl (.retire ended) fun i p _ ↦ .same (by simp) (by simp)
  | cancel =>
    cases step
    exact poolSteps_of_eq rfl fun i p ↦ .same (by simp) (by simp)
  | stop =>
    obtain ⟨-, rfl, -⟩ := stop?_eq_some.mp step
    exact poolSteps_of_eq rfl fun i p ↦ .same (by simp) (by simp)
  | closePools =>
    obtain ⟨-, -, rfl, -⟩ := closePools?_eq_some.mp step
    exact poolSteps_of_map rfl fun i p ↦ .close
  | join =>
    obtain ⟨-, rfl, -⟩ | ⟨_, _, -, rfl, -⟩ := join?_cases step <;>
      exact poolSteps_of_eq rfl fun i p ↦ .same (by simp) (by simp)
  | forsake =>
    cases step
    obtain same | ⟨-, same⟩ := forsake_cases r <;>
      exact poolSteps_of_eq (by rw [same]) fun i p ↦ .same (by simp) (by simp)
  | release =>
    obtain ⟨-, -, rfl, -⟩ := release?_eq_some.mp step
    exact poolSteps_of_map rfl fun i p ↦ .release

/-- Each pool moves at most once in a step. -/
theorem pool_of_step {a : Action} (step : r.step? clock a = some (r', outputs)) {i : Nat}
    {p' : Pool Job} (hp' : r'.pools[i]? = some p') :
    ∃ p, r.pools[i]? = some p ∧ (p' = p ∨ p.Move p') := by
  obtain ⟨p, hp, sees⟩ := (poolSteps_of_step step).2 hp'
  exact ⟨p, hp, sees.move⟩

end Running

end MessageBridge
