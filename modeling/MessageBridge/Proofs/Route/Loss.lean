import MessageBridge.Proofs.Lane.Contract
import MessageBridge.Proofs.Route.Lanes
import MessageBridge.Proofs.Route.Legs

/-!
# How a leg can fail

A leg fails in two ways. Its wait is broken off, which takes a cancelled route, or its job is lost,
which takes a crash: as long as a message is handled, no pool has been told to close and no lane has
been released, so a lane that takes no jobs, or loses the ones it has, is one whose worker crashed.
`Running.excused_of_runs` finds the step at which the crash took the job, and
`Running.ending_of_runs` adds the reasons of the other ends.
-/

namespace MessageBridge

theorem Leg.phase_answer_ne_failed (plan : RetryPlan) (now : Nat) (age : Option Int) (leg : Leg)
    (answer : Except BusError Unit) (kind : PublishFailure) :
    (leg.answer plan now age (Running.jobAnswer answer)).phase ≠ .settled (.failed kind) := by
  cases answer with
  | ok => simp [Running.jobAnswer, Leg.answer, Leg.settle]
  | error e =>
    simp only [Running.jobAnswer, Leg.answer]
    split <;> simp [Leg.settle]

namespace Running

variable {s : EngineSettings} {route : CompiledRoute} {past : Past} {r r' : Running} {clock : Clock}
  {a : Action} {outputs : List Output} {i j : Nat} {l l' : Lane Job} {c d : Nat} {h h' : Handling}
  {leg leg' : Leg}

/-! ## What a lane sees of a step -/

/-- What a step means for one lane. -/
inductive LaneStep (r : Running) (i j : Nat) : Action → Lane Job → Lane Job → Prop where
  | same {a : Action} {l : Lane Job} (quiet : ∀ answer, a ≠ .reply i j answer) :
      LaneStep r i j a l l
  | submit {call : Nat} {job : Job} {l l' : Lane Job} (step : l.submit? job = some l') :
      LaneStep r i j (.submit call i) l l'
  | take {job : Job} {l l' : Lane Job} (step : l.take? = some (job, l')) :
      LaneStep r i j (.take i j) l l'
  | finish {answer : Except BusError Unit} {job : Job} {l l' : Lane Job}
      (step : l.finish? = some (job, l')) : LaneStep r i j (.reply i j answer) l l'
  | crash {lost : List Job} {l l' : Lane Job} (step : l.crash? = some (lost, l')) :
      LaneStep r i j (.crash i j) l l'
  | drain {p : Pool Job} {refused : List Job} {l l' : Lane Job} (pool : r.pools[i]? = some p)
      (closing : p.closing = true) (step : l.drain? = some (refused, l')) :
      LaneStep r i j (.drain i j) l l'
  | retire {l l' : Lane Job} (step : l.end? = some l') : LaneStep r i j (.retire i j) l l'
  | withdraw {a : Action} {call : Nat} {l : Lane Job}
      (which : a = .abandon call ∨ a = .resolve call) :
      LaneStep r i j a l (l.withdraw fun job ↦ job.call == call)
  | release {l : Lane Job} : LaneStep r i j .release l l.release

private theorem laneStep_setLane {p : Pool Job} {k : Nat} {m m' : Lane Job}
    (hm : p.lanes[k]? = some m) (here : k = j → LaneStep r i j a m m')
    (elsewhere : k ≠ j → ∀ answer, a ≠ .reply i j answer)
    (hl' : (p.setLane k m').lanes[j]? = some l') :
    ∃ l, p.lanes[j]? = some l ∧ LaneStep r i j a l l' := by
  rw [Pool.setLane_lanes, List.getElem?_set] at hl'
  by_cases hk : k = j
  · rw [if_pos hk, if_pos (List.getElem?_eq_some_iff.mp hm).1] at hl'
    cases hl'
    exact ⟨m, hk ▸ hm, here hk⟩
  · rw [if_neg hk] at hl'
    exact ⟨l', hl', .same (elsewhere hk)⟩

theorem laneStep_of_poolStep {p p' : Pool Job} (hp : r.pools[i]? = some p)
    (sees : PoolStep r i a p p') (hl' : p'.lanes[j]? = some l') :
    ∃ l, p.lanes[j]? = some l ∧ LaneStep r i j a l l' := by
  cases sees with
  | same _ quiet => exact ⟨l', hl', .same (quiet j).2⟩
  | @submit call h _ found =>
    obtain ⟨m, m', hm, submitted, done⟩ | ⟨-, done⟩ := Pool.submit_cases ⟨call, h.message⟩ p
    · rw [done] at hl'
      have picked : p.pick.2.lanes[p.turn]? = some m := hm
      exact laneStep_setLane picked (fun _ ↦ .submit submitted) (by simp) hl'
    · rw [done] at hl'
      exact ⟨l', hl', .same (by simp)⟩
  | take step =>
    obtain ⟨m, m', hm, -, taken, rfl⟩ := Pool.take?_eq_some.mp step
    exact laneStep_setLane hm (fun same ↦ same ▸ .take taken) (by simp) hl'
  | finish step =>
    obtain ⟨m, m', hm, finished, rfl⟩ := Pool.finish?_eq_some.mp step
    exact laneStep_setLane hm (fun same ↦ same ▸ .finish finished) (fun other ↦ by simp [other]) hl'
  | crash step =>
    obtain ⟨m, m', hm, crashed, rfl⟩ := Pool.crash?_eq_some.mp step
    exact laneStep_setLane hm (fun same ↦ same ▸ .crash crashed) (by simp) hl'
  | drain step =>
    obtain ⟨m, m', hm, closing, drained, rfl⟩ := Pool.drain?_eq_some.mp step
    exact laneStep_setLane hm (fun same ↦ same ▸ .drain hp closing drained) (by simp) hl'
  | retire step =>
    obtain ⟨m, m', hm, ended, rfl⟩ := Pool.end?_eq_some.mp step
    exact laneStep_setLane hm (fun same ↦ same ▸ .retire ended) (by simp) hl'
  | leave which =>
    rw [Pool.withdraw, List.getElem?_map, Option.map_eq_some_iff] at hl'
    obtain ⟨m, hm, rfl⟩ := hl'
    exact ⟨m, hm, .withdraw which⟩
  | close => exact ⟨l', hl', .same (by simp)⟩
  | release =>
    rw [Pool.release, List.getElem?_map, Option.map_eq_some_iff] at hl'
    obtain ⟨m, hm, rfl⟩ := hl'
    exact ⟨m, hm, .release⟩

/-- **Every lane sees what a step means for it.** -/
theorem laneStep_of_step (step : r.step? clock a = some (r', outputs))
    (hl' : r'.lane? i j = some l') : ∃ l, r.lane? i j = some l ∧ LaneStep r i j a l l' := by
  obtain ⟨p', hp', hl'⟩ := lane?_eq_some.mp hl'
  obtain ⟨p, hp, sees⟩ := (poolSteps_of_step step).2 hp'
  obtain ⟨l, hl, seen⟩ := laneStep_of_poolStep hp sees hl'
  exact ⟨l, lane?_eq_some.mpr ⟨p, hp, hl⟩, seen⟩

theorem exists_laneStep (step : r.step? clock a = some (r', outputs))
    (hl : r.lane? i j = some l) : ∃ l', r'.lane? i j = some l' ∧ LaneStep r i j a l l' := by
  obtain ⟨p, hp, hlane⟩ := lane?_eq_some.mp hl
  obtain ⟨p', hp'⟩ : ∃ p', r'.pools[i]? = some p' := by
    have hi : i < r'.pools.length := by
      rw [(poolSteps_of_step step).1]
      exact (List.getElem?_eq_some_iff.mp hp).1
    exact ⟨_, List.getElem?_eq_getElem hi⟩
  obtain ⟨q, hq, sees⟩ := (poolSteps_of_step step).2 hp'
  rw [hp] at hq
  cases hq
  obtain ⟨l', hl'⟩ : ∃ l', p'.lanes[j]? = some l' := by
    have same : p'.lanes.length = p.lanes.length := by
      obtain rfl | move := sees.move
      · rfl
      · exact move.moved.length
    have hj : j < p'.lanes.length := by
      rw [same]
      exact (List.getElem?_eq_some_iff.mp hlane).1
    exact ⟨_, List.getElem?_eq_getElem hj⟩
  have after := lane?_eq_some.mpr ⟨p', hp', hl'⟩
  obtain ⟨m, hm, seen⟩ := laneStep_of_step step after
  rw [hl] at hm
  cases hm
  exact ⟨l', after, seen⟩

theorem LaneStep.crashed (seen : LaneStep r i j a l l') (crashed : l'.worker = .crashed) :
    l.worker = .crashed ∨ a = .crash i j := by
  cases seen with
  | same => exact .inl crashed
  | submit step =>
    obtain ⟨q, -, rfl⟩ := Lane.submit?_eq_some.mp step
    exact .inl crashed
  | take step =>
    obtain ⟨-, -, q, -, rfl⟩ := Lane.take?_eq_some.mp step
    exact .inl crashed
  | finish step =>
    obtain ⟨-, rfl⟩ := Lane.finish?_eq_some.mp step
    exact .inl crashed
  | crash => exact .inr rfl
  | drain pool closing step =>
    obtain ⟨-, -, -, rfl⟩ := Lane.drain?_eq_some.mp step
    cases crashed
  | retire step =>
    obtain ⟨-, -, -, -, rfl⟩ := Lane.end?_eq_some.mp step
    cases crashed
  | withdraw => exact .inl crashed
  | release => exact .inl crashed

/-- How a queue comes to be closed: with a crash, since its pool closes, by release, or it has been
closed before; and then a worker that has crashed does not come back. -/
theorem LaneStep.closed (seen : LaneStep r i j a l l') (closed : l'.queue.closed = true) :
    l'.worker = .crashed ∨ (∃ p, r.pools[i]? = some p ∧ p.closing = true) ∨ a = .release ∨
      l.queue.closed = true ∧ (l.worker = .crashed → l'.worker = .crashed) := by
  have before (was : l.queue.closed = true) (stays : l.worker = .crashed → l'.worker = .crashed) :
      l'.worker = .crashed ∨ (∃ p, r.pools[i]? = some p ∧ p.closing = true) ∨ a = .release ∨
        l.queue.closed = true ∧ (l.worker = .crashed → l'.worker = .crashed) :=
    .inr (.inr (.inr ⟨was, stays⟩))
  cases seen with
  | same => exact before closed id
  | submit step =>
    obtain ⟨q, offered, rfl⟩ := Lane.submit?_eq_some.mp step
    refine before ?_ id
    unfold Queue.offer? at offered
    split at offered
    · assumption
    · split at offered <;> cases offered <;> exact closed
  | take step =>
    obtain ⟨-, -, q, taken, rfl⟩ := Lane.take?_eq_some.mp step
    exact before ((Queue.closed_take? taken).symm.trans closed) id
  | finish step =>
    obtain ⟨-, rfl⟩ := Lane.finish?_eq_some.mp step
    exact before closed id
  | crash step =>
    obtain ⟨_, -, -, rfl⟩ := Lane.crash?_eq_some.mp step
    exact .inl rfl
  | drain pool closing step => exact .inr (.inl ⟨_, pool, closing⟩)
  | retire step =>
    obtain ⟨working, was, -, -, rfl⟩ := Lane.end?_eq_some.mp step
    refine before was fun crashed ↦ ?_
    simp [Lane.working, crashed] at working
  | withdraw => exact before closed id
  | release => exact .inr (.inr (.inl rfl))

/-! ## Lanes that take no jobs -/

theorem released_iff_of_step (step : r.step? clock a = some (r', outputs)) :
    r'.phase = .released ↔ r.phase = .released ∨ a = .release := by
  cases a with
  | stop =>
    obtain ⟨before, rfl, -⟩ := stop?_eq_some.mp step
    simp [before]
  | closePools =>
    obtain ⟨before, -, rfl, -⟩ := closePools?_eq_some.mp step
    simp [before]
  | join => obtain ⟨before, rfl, -⟩ | ⟨_, _, before, rfl, -⟩ := join?_cases step <;> simp [before]
  | forsake =>
    cases step
    cases before : r.phase <;> simp [forsake, before]
  | release =>
    obtain ⟨-, -, rfl, -⟩ := release?_eq_some.mp step
    simp
  | _ =>
    rw [phase_of_step step (by simp)]
    simp

/-- Why a queue can be closed, and what a released route has come to. -/
structure Tended (r : Running) : Prop where
  released : r.phase = .released → r.handlings = []
  closed : ∀ {i j : Nat} {l : Lane Job}, r.lane? i j = some l → l.queue.closed = true →
    l.worker = .crashed ∨ (∃ p, r.pools[i]? = some p ∧ p.closing = true) ∨ r.phase = .released

theorem lane_ofRoute (hl : (ofRoute s route).lane? i j = some l) : l = .idle (max s.depth 1) := by
  obtain ⟨p, hp, hl⟩ := lane?_eq_some.mp hl
  rw [ofRoute, List.getElem?_map, Option.map_eq_some_iff] at hp
  obtain ⟨dest, -, rfl⟩ := hp
  rw [Pool.ofSettings, List.getElem?_replicate] at hl
  split at hl <;> cases hl
  rfl

theorem tended_ofRoute (s : EngineSettings) (route : CompiledRoute) : (ofRoute s route).Tended where
  released h := by cases h
  closed hl closed := by
    rw [lane_ofRoute hl] at closed
    cases closed

/-- A released route handles nothing, since no message can reach it. -/
theorem idle_of_released (step : r.step? clock a = some (r', outputs))
    (released : r.phase = .released) (idle : r.handlings = []) : r'.handlings = [] := by
  rw [handlings_eq_nil_iff] at idle ⊢
  intro call
  refine ((effect_of_step step).unhandled (idle call) fun m arrives ↦ ?_).1
  subst arrives
  simp [step?, handle?, released] at step

theorem Tended.step (tended : r.Tended) (step : r.step? clock a = some (r', outputs)) :
    r'.Tended where
  released released' := by
    obtain before | rfl := (released_iff_of_step step).mp released'
    · exact idle_of_released step before (tended.released before)
    · obtain ⟨-, idle, rfl, -⟩ := release?_eq_some.mp step
      exact idle
  closed {i j l'} hl' closed' := by
    obtain ⟨l, hl, seen⟩ := laneStep_of_step step hl'
    have closes (before : ∃ p, r.pools[i]? = some p ∧ p.closing = true) :
        ∃ p, r'.pools[i]? = some p ∧ p.closing = true := by
      obtain ⟨p, hp, closing⟩ := before
      obtain ⟨p', hp', -⟩ := lane?_eq_some.mp hl'
      obtain ⟨q, hq, sees⟩ := (poolSteps_of_step step).2 hp'
      rw [hp] at hq
      cases hq
      exact ⟨p', hp', sees.still_closing closing⟩
    obtain crashed | closing | rfl | ⟨was, stays⟩ := seen.closed closed'
    · exact .inl crashed
    · exact .inr (.inl (closes closing))
    · obtain ⟨-, -, rfl, -⟩ := release?_eq_some.mp step
      exact .inr (.inr rfl)
    · obtain crashed | closing | released := tended.closed hl was
      · exact .inl (stays crashed)
      · exact .inr (.inl (closes closing))
      · exact .inr (.inr ((released_iff_of_step step).mpr (.inl released)))

theorem tended_of_runs (runs : Runs s route past r) : r.Tended :=
  runs.invariant (tended_ofRoute s route) fun tended step ↦ Tended.step tended step

/-- As long as a message is handled, only a crash keeps a lane from taking jobs. -/
theorem crashed_of_closed (runs : Runs s route past r) (found : r.handling? c = some h)
    (hl : r.lane? i j = some l) (closed : l.queue.closed = true) : l.worker = .crashed := by
  have busy : r.handlings ≠ [] := by
    intro idle
    rw [handlings_eq_nil_iff.mp idle] at found
    cases found
  have tended := tended_of_runs runs
  obtain crashed | ⟨p, hp, closing⟩ | released := tended.closed hl closed
  · exact crashed
  · exact absurd ((orderly_of_runs runs).closing hp closing).2 busy
  · exact absurd (tended.released released) busy

theorem crash_of_crashed (runs : Runs s route past r) (hl : r.lane? i j = some l)
    (crashed : l.worker = .crashed) : ∃ mo ∈ past, mo.action.2 = .crash i j := by
  induction runs generalizing l with
  | refl =>
    rw [lane_ofRoute hl] at crashed
    cases crashed
  | snoc _ step ih =>
    obtain ⟨m, hm, seen⟩ := laneStep_of_step step hl
    obtain before | now := seen.crashed crashed
    · obtain ⟨mo, hmo, same⟩ := ih hm before
      exact ⟨mo, List.mem_append_left _ hmo, same⟩
    · exact ⟨_, List.mem_append_right _ List.mem_cons_self, now⟩

theorem depth_pos (runs : Runs s route past r) (hl : r.lane? i j = some l) :
    0 < l.queue.depth := by
  obtain ⟨p, hp, hl⟩ := lane?_eq_some.mp hl
  obtain ⟨own, S, served⟩ := served_of_runs runs hp
  rw [← served.pool, Pool.map_lanes, List.getElem?_map, Option.map_eq_some_iff] at hl
  obtain ⟨m, hm, rfl⟩ := hl
  have depth := Service.depth_eq served.exec hm
  show 0 < m.queue.depth
  omega

theorem exists_turn (runs : Runs s route past r) {p : Pool Job} (hp : r.pools[d]? = some p) :
    ∃ l, p.lanes[p.turn]? = some l := by
  have some_lane : 0 < p.lanes.length := by
    induction runs generalizing p with
    | refl =>
      rw [ofRoute, List.getElem?_map, Option.map_eq_some_iff] at hp
      obtain ⟨dest, -, rfl⟩ := hp
      simp only [Pool.ofSettings, List.length_replicate]
      omega
    | snoc _ step ih =>
      obtain ⟨p₀, hp₀, rfl | move⟩ := pool_of_step step hp
      · exact ih hp₀
      · rw [move.moved.length]
        exact ih hp₀
  have turn : p.turn < p.lanes.length := Nat.mod_lt _ some_lane
  exact ⟨_, List.getElem?_eq_getElem turn⟩

/-! ## Why a leg has failed -/

/-- In this step a crash takes the job of a call to a destination: the publish of a worker crashes
that has the job in its lane, or the job is submitted when it is the turn of a lane whose worker has
crashed. -/
def TakenByCrash (c d : Nat) (mo : Moment Running (Clock × Action) Output) : Prop :=
  (∃ j l job, mo.action.2 = .crash d j ∧ mo.before.lane? d j = some l ∧ job ∈ l.jobs ∧
      job.call = c) ∨
    ∃ p l, mo.action.2 = .submit c d ∧ mo.before.pools[d]? = some p ∧
      p.lanes[p.turn]? = some l ∧ l.worker = .crashed

theorem TakenByCrash.crash {mo : Moment Running (Clock × Action) Output}
    (taken : TakenByCrash c d mo) (runs : Runs s route past r) (here : mo ∈ past) :
    ∃ j, ∃ mo ∈ past, mo.action.2 = .crash d j := by
  obtain ⟨j, l, job, crashes, -⟩ | ⟨p, l, -, hp, hl, crashed⟩ := taken
  · exact ⟨j, mo, here, crashes⟩
  · obtain ⟨earlier, later, rfl, before, -⟩ := runs.at_moment here
    obtain ⟨mo', hmo', crashes⟩ := crash_of_crashed before (lane?_eq_some.mpr ⟨p, hp, hl⟩) crashed
    exact ⟨_, mo', List.mem_append_left _ hmo', crashes⟩

theorem cancelled_of_execution {later : Past} (exec : Execution act r later r')
    (cancelled : r.cancelled = true) : r'.cancelled = true :=
  exec.invariant cancelled fun before step ↦ (kept_of_step step).cancelled before

/-- Why a leg of a call failed, if it did. -/
def Excused (past : Past) (r : Running) (c d : Nat) (leg : Leg) : Prop :=
  ∀ {kind : PublishFailure}, leg.phase = .settled (.failed kind) →
    kind = .cancelled ∧ r.cancelled = true ∨
      kind = .laneClosed ∧ ∃ mo ∈ past, TakenByCrash c d mo

/-- **A leg fails only when its route is cancelled, or over a crash.** -/
theorem excused_of_runs (runs : Runs s route past r) (found : r.handling? c = some h)
    (here : h.legs[d]? = some leg) : Excused past r c d leg := by
  induction runs generalizing h leg with
  | refl => cases found
  | @snoc past r r' act outputs runs step ih =>
    intro kind failed
    have sound := sound_of_runs runs
    obtain ⟨h₀, leg₀, found₀, here₀, -, sees⟩ | ⟨rfl, -⟩ := sound.leg_of_step step found here
    · have now (taken : TakenByCrash c d ⟨r, act, r', outputs⟩) (closed : kind = .laneClosed) :
          kind = .cancelled ∧ r'.cancelled = true ∨ kind = .laneClosed ∧
            ∃ mo ∈ past ++ [⟨r, act, r', outputs⟩], TakenByCrash c d mo :=
        .inr ⟨closed, _, List.mem_append_right _ List.mem_cons_self, taken⟩
      rcases act with ⟨clock, a⟩
      cases sees with
      | same =>
        obtain ⟨cancelled, before⟩ | ⟨closed, mo, hmo, taken⟩ := ih found₀ here₀ failed
        · exact .inl ⟨cancelled, (kept_of_step step).cancelled before⟩
        · exact .inr ⟨closed, mo, List.mem_append_left _ hmo, taken⟩
      | submit => cases failed
      | refuse ready pool refused =>
        rw [Leg.phase_lose rfl] at failed
        cases failed
        obtain ⟨l, hl⟩ := exists_turn runs pool
        have closed := Lane.closed_of_submit? (refused l hl)
        have crashed := crashed_of_closed runs found₀ (lane?_eq_some.mpr ⟨_, pool, hl⟩) closed
        exact now (.inr ⟨_, l, rfl, pool, hl, crashed⟩) rfl
      | wake => cases failed
      | breakOff waiting cancelled =>
        cases failed
        exact .inl ⟨rfl, (kept_of_step step).cancelled cancelled⟩
      | reply submitted hand => exact (Leg.phase_answer_ne_failed _ _ _ _ _ _ failed).elim
      | crash submitted lane held =>
        rw [Leg.phase_lose submitted] at failed
        cases failed
        exact now (.inl ⟨_, _, _, rfl, lane, held, rfl⟩) rfl
      | drain submitted pool closing =>
        -- the pools of a route that handles a message have not been told to close
        have idle := ((orderly_of_runs runs).closing pool closing).2
        rw [handlings_eq_nil_iff.mp idle] at found₀
        cases found₀
    · cases failed

/-- Why a destination has ended as it has. -/
inductive Ending (route : CompiledRoute) (past : Past) (r : Running) (c d : Nat) (m : Message) :
    LegEnd → Prop where
  /-- The bus has accepted the message. -/
  | published (accepted : Accepted m (replies c d past)) : Ending route past r c d m .published
  /-- The mode gave it up over its last refusal. -/
  | tolerated {reason : GiveUpReason} (given : GivenUp route.mode m m (replies c d past)) :
      Ending route past r c d m (.tolerated reason)
  /-- Its wait was broken off. -/
  | cancelled (fired : r.cancelled = true) : Ending route past r c d m (.failed .cancelled)
  /-- A crash took its job. -/
  | laneClosed {mo : Moment Running (Clock × Action) Output} (here : mo ∈ past)
      (taken : TakenByCrash c d mo) : Ending route past r c d m (.failed .laneClosed)

/-- **Every end of a leg has its reason.** -/
theorem ending_of_runs (runs : Runs s route past r) (found : r.handling? c = some h)
    (here : h.legs[d]? = some leg) {e : LegEnd} (phase : leg.phase = .settled e) :
    Ending route past r c d h.message e := by
  obtain ⟨x, sent, underway⟩ := (story_of_runs runs c).underway found
  have course := underway.courses here
  rw [← underway.message] at course
  have mode := mode_of_runs runs
  have agrees := course.agrees
  rw [Leg.Agrees, phase, mode] at agrees
  cases e with
  | published =>
    obtain ⟨front, last, split, -, ok⟩ := agrees
    have mem : last ∈ replies c d past := by
      rw [split]
      exact List.mem_append_right _ List.mem_cons_self
    exact .published ⟨last, mem, course.message last mem, ok⟩
  | tolerated reason => exact .tolerated agrees.2
  | failed kind =>
    obtain ⟨rfl, cancelled⟩ | ⟨rfl, mo, hmo, taken⟩ := excused_of_runs runs found here phase
    · exact .cancelled cancelled
    · exact .laneClosed hmo taken

end Running

end MessageBridge
