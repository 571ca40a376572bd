import MessageBridge.Proofs.Endless
import MessageBridge.Proofs.Route.Loss

/-!
# What a route can do by itself

As long as a message is handled, the route is never stuck with it: each of its legs can submit its
job, waits for a time, or has a job in a lane whose worker can go on or waits for the bus; and when
all of them have ended, the verdict can be given. `Running.next_of_handled` puts this together from
what is said of each action before. All of these actions are among those that the route tries of
its own accord.
-/

namespace MessageBridge.Running

variable {s : EngineSettings} {route : CompiledRoute} {past : Past} {r r' : Running} {clock : Clock}
  {a : Action} {i j : Nat} {l : Lane Job} {c d : Nat} {h : Handling} {leg : Leg}

/-! ## Looking up legs and hands -/

theorem leg?_of_found (found : r.handling? c = some h) (here : h.legs[d]? = some leg) :
    r.leg? c d = some leg := by
  rw [leg?, found, Option.bind_some, here]

theorem handled_of_leg? (here : r.leg? c d = some leg) :
    ∃ h, r.handling? c = some h ∧ h.legs[d]? = some leg := Option.bind_eq_some_iff.mp here

theorem inHand?_of_lane (hl : r.lane? i j = some l) : r.inHand? i j = l.inHand := by
  obtain ⟨p, hp, hl⟩ := lane?_eq_some.mp hl
  rw [inHand?, hp, Option.bind_some, hl, Option.bind_some]

theorem inHand?_of_take? {p p' : Pool Job} {job : Job} (hp : r.pools[i]? = some p)
    (taken : p.take? j = some (job, p')) : (r.setPool i p').inHand? i j = some job := by
  obtain ⟨l, l', hl, -, next, rfl⟩ := Pool.take?_eq_some.mp taken
  obtain ⟨-, -, q, -, rfl⟩ := Lane.take?_eq_some.mp next
  have there : (r.setPool i (p.setLane j { l with queue := q, inHand := some job })).lane? i j =
      some { l with queue := q, inHand := some job } := by
    refine lane?_eq_some.mpr ⟨_, List.getElem?_set_self (List.getElem?_eq_some_iff.mp hp).1, ?_⟩
    exact List.getElem?_set_self (List.getElem?_eq_some_iff.mp hl).1
  exact inHand?_of_lane there

/-! ## When an action is possible -/

theorem resolve_of_settled (found : r.handling? c = some h)
    (settled : ∀ leg ∈ h.legs, leg.result?.isSome = true) (clock : Clock) :
    (r.step? clock (.resolve c)).isSome = true := by
  have all : (h.legs.all fun leg ↦ leg.result?.isSome) = true := List.all_eq_true.mpr settled
  simp only [step?, resolve?, found, Option.bind_eq_bind, Option.bind_some, all, if_true]
  split <;> rfl

theorem submit_of_ready (sound : r.Sound) (found : r.handling? c = some h)
    (here : h.legs[d]? = some leg) (ready : leg.phase = .ready) (clock : Clock) :
    (r.step? clock (.submit c d)).isSome = true := by
  have hd : d < r.pools.length := by
    rw [← sound.legs found]
    exact (List.getElem?_eq_some_iff.mp here).1
  have hp := List.getElem?_eq_getElem hd
  simp only [step?, submit?, found, here, hp, Option.bind_eq_bind, Option.bind_some, ready, if_true]
  split <;> rfl

theorem wake_of_waiting (found : r.handling? c = some h) (here : h.legs[d]? = some leg) {due : Nat}
    (waiting : leg.phase = .waiting due) (late : due ≤ clock.now) :
    (r.step? clock (.wake c d)).isSome = true := by
  simp [step?, wake?, leg?, found, here, Leg.wake?, waiting, late]

/-- The wait of a cancelled route can be broken off at any time. -/
theorem breakOff_of_waiting (cancelled : r.cancelled = true) (found : r.handling? c = some h)
    (here : h.legs[d]? = some leg) {due : Nat} (waiting : leg.phase = .waiting due)
    (clock : Clock) : (r.step? clock (.breakOff c d)).isSome = true := by
  simp [step?, breakOff?, found, here, Leg.breakOff?, waiting, cancelled]

/-- As long as a message is handled, a worker whose hands are free can take the next job of its
lane. -/
theorem take_of_job (runs : Runs s route past r) (found : r.handling? c = some h)
    (lane : r.lane? i j = some l) (free : l.inHand = none) {job : Job} (mem : job ∈ l.jobs)
    (clock : Clock) : (r.step? clock (.take i j)).isSome = true := by
  obtain ⟨p, hp, hl⟩ := lane?_eq_some.mp lane
  have sound := (sound_of_runs runs).lane lane
  rw [Lane.jobs, free, Option.toList_none, List.nil_append, Queue.contents] at mem
  -- whoever waits for a place does so behind others, since there is at least one place
  have accepted : l.queue.accepted ≠ [] := by
    intro nothing
    rw [nothing, List.nil_append] at mem
    have full := (sound.queue.full_of_waiting (List.ne_nil_of_mem mem)).1
    rw [nothing, List.length_nil] at full
    exact absurd full (Nat.ne_of_lt (depth_pos runs lane))
  have still_open : p.closing = true → l.worker ≠ .serving := by
    intro closing
    have idle := ((orderly_of_runs runs).closing hp closing).2
    rw [handlings_eq_nil_iff.mp idle] at found
    cases found
  obtain ⟨x, l', next⟩ := sound.exists_take? free accepted
  have taken := Pool.take?_eq_some.mpr ⟨l, l', hl, still_open, next, rfl⟩
  simp [step?, take?, hp, taken]

/-! ## Nothing gets stuck -/

/-- What a handled call waits for next. -/
inductive Next (r : Running) (c : Nat) (h : Handling) : Prop where
  /-- Its verdict can be given. -/
  | verdict (can : ∀ clock, (r.step? clock (.resolve c)).isSome = true)
  /-- One of its legs can submit a job. -/
  | lane {d : Nat} (hd : d < h.legs.length)
      (can : ∀ clock, (r.step? clock (.submit c d)).isSome = true)
  /-- One of its legs waits until it is tried again. -/
  | time {d : Nat} {leg : Leg} {due : Nat} (here : h.legs[d]? = some leg)
      (waiting : leg.phase = .waiting due)
  /-- A worker that has to serve one of its jobs can take the next one. -/
  | worker {d j : Nat} {l : Lane Job} (lane : r.lane? d j = some l)
      (can : ∀ clock, (r.step? clock (.take d j)).isSome = true)
  /-- A worker that has to serve one of its jobs waits for the bus. -/
  | bus {d j : Nat} {job : Job} (hand : r.inHand? d j = some job)

/-- The job that a leg waits for is in some lane. -/
theorem lane_of_submitted (sound : r.Sound) (found : r.handling? c = some h)
    (here : h.legs[d]? = some leg) (submitted : leg.phase = .submitted) :
    ∃ j l, r.lane? d j = some l ∧ (⟨c, h.message⟩ : Job) ∈ l.jobs := by
  have job : (⟨c, h.message⟩ : Job) ∈ r.jobsOf c d := by
    rw [sound.awaited found here, leg.awaits_of_submitted submitted]
    exact List.mem_singleton_self _
  have mem := List.mem_of_mem_filter job
  cases hp : r.pools[d]? with
  | none =>
    rw [jobs, hp] at mem
    cases mem
  | some p =>
    rw [jobs_of_pool hp] at mem
    obtain ⟨j, l, hl, mem⟩ := Pool.lane_of_mem_jobs mem
    exact ⟨j, l, lane?_eq_some.mpr ⟨p, hp, hl⟩, mem⟩

/-- **A handled call is never stuck.** -/
theorem next_of_handled (runs : Runs s route past r) (found : r.handling? c = some h) :
    r.Next c h := by
  have sound := sound_of_runs runs
  by_cases settled : ∀ leg ∈ h.legs, leg.result?.isSome = true
  · exact .verdict (resolve_of_settled found settled)
  · obtain ⟨leg, mem, open_⟩ : ∃ leg ∈ h.legs, leg.result?.isSome ≠ true := by
      simpa using settled
    obtain ⟨d, here⟩ := List.mem_iff_getElem?.mp mem
    cases phase : leg.phase with
    | ready =>
      have hd := (List.getElem?_eq_some_iff.mp here).1
      exact .lane hd (submit_of_ready sound found here phase)
    | waiting due => exact .time here phase
    | submitted =>
      obtain ⟨j, l, lane, job⟩ := lane_of_submitted sound found here phase
      cases hand : l.inHand with
      | some y => exact .bus ((inHand?_of_lane lane).trans hand)
      | none => exact .worker lane (take_of_job runs found lane hand job)
    | settled result => exact absurd (by simp [Leg.result?, phase]) open_

/-! ## Leaving -/

theorem told_of_verdict? {outputs : List Output} {v : Verdict}
    (given : v ∈ outputs.filterMap (Output.verdict? c)) :
    .verdict c v ∈ outputs := by
  obtain ⟨o, told, verdict⟩ := List.mem_filterMap.mp given
  cases o with
  | verdict c' w =>
    by_cases same : c' = c
    · rw [Output.verdict?, if_pos same] at verdict
      cases verdict
      exact same ▸ told
    · rw [Output.verdict?, if_neg same] at verdict
      cases verdict
  | _ => cases verdict

theorem leaves_of_gone (run : Endless act r) (sound : ∀ t, (run.state t).Sound) {c u : Nat}
    (found : r.handling? c = some h) (gone : (run.state u).handling? c = none) :
    ∃ v, (run.action v).2 = .abandon c ∨ ∃ h', (run.state v).handling? c = some h' ∧
      (∀ leg ∈ h'.legs, leg.result?.isSome = true) ∧
        .verdict c (h'.verdict (run.state v).route) ∈ run.outputs v := by
  induction u with
  | zero =>
    rw [run.begins, found] at gone
    cases gone
  | succ u ih =>
    cases here : (run.state u).handling? c with
    | none => exact ih here
    | some h' =>
      obtain ⟨-, abandons | resolves, -⟩ | ⟨h'', found', -⟩ :=
        (effect_of_step (run.steps u)).handled (sound u) here
      · exact ⟨u, .inl abandons⟩
      · have step : (run.state u).step? (run.action u).1 (.resolve c) =
            some (run.state (u + 1), run.outputs u) := resolves ▸ run.steps u
        obtain ⟨settled, told⟩ := (sound u).verdict_of_resolve step here
        refine ⟨u, .inr ⟨h', here, settled, told_of_verdict? ?_⟩⟩
        rw [told]
        exact List.mem_singleton_self _
      · rw [gone] at found'
        cases found'

/-! ## Jobs in hand -/

/-- Nothing but the end of its publish takes a job out of the hand of a worker. -/
theorem LaneStep.inHand {l' : Lane Job} {job : Job} (seen : LaneStep r i j a l l')
    (hand : l.inHand = some job) (silent : ∀ answer, a ≠ .reply i j answer)
    (calm : a ≠ .crash i j) : l'.inHand = some job := by
  cases seen with
  | same => exact hand
  | submit step =>
    obtain ⟨q, -, rfl⟩ := Lane.submit?_eq_some.mp step
    exact hand
  | take step =>
    obtain ⟨-, idle, -⟩ := Lane.take?_eq_some.mp step
    rw [hand] at idle
    cases idle
  | finish => exact absurd rfl (silent _)
  | crash => exact absurd rfl calm
  | drain _ _ step =>
    obtain ⟨-, idle, -⟩ := Lane.drain?_eq_some.mp step
    rw [hand] at idle
    cases idle
  | retire step =>
    obtain ⟨-, -, -, -, rfl⟩ := Lane.end?_eq_some.mp step
    exact hand
  | withdraw => exact hand
  | release => exact hand

theorem hand_of_step {job : Job} {outputs : List Output}
    (step : r.step? clock a = some (r', outputs)) (hand : r.inHand? i j = some job)
    (silent : ∀ answer, a ≠ .reply i j answer) (calm : a ≠ .crash i j) :
    r'.inHand? i j = some job := by
  obtain ⟨p, hp, hand⟩ := Option.bind_eq_some_iff.mp hand
  obtain ⟨l, hl, hand⟩ := Option.bind_eq_some_iff.mp hand
  obtain ⟨l', hl', seen⟩ := exists_laneStep step (lane?_eq_some.mpr ⟨p, hp, hl⟩)
  rw [inHand?_of_lane hl']
  exact seen.inHand hand silent calm

/-- If no worker has a job in hand in the end, every publish has been answered or has crashed. -/
theorem answered_of_rest {later : Past} (exec : Execution act r later r')
    {idle : Nat → Clock × Action} (rest : ∀ t, act r' (idle t) = some (r', []))
    (no_hand : ∀ i j, r'.inHand? i j = none) (t i j : Nat) (job : Job)
    (hand : ((Endless.ofRest exec rest).state t).inHand? i j = some job) :
    ∃ u, t ≤ u ∧ ((∃ answer, ((Endless.ofRest exec rest).action u).2 = .reply i j answer) ∨
      ((Endless.ofRest exec rest).action u).2 = .crash i j) := by
  by_contra never
  have held (u : Nat) (hu : t ≤ u) :
      ((Endless.ofRest exec rest).state u).inHand? i j = some job := by
    induction u, hu using Nat.le_induction with
    | base => exact hand
    | succ u hu held =>
      apply hand_of_step ((Endless.ofRest exec rest).steps u) held
      · exact fun answer replies ↦ never ⟨u, hu, .inl ⟨answer, replies⟩⟩
      · exact fun crashes ↦ never ⟨u, hu, .inr crashes⟩
  have in_the_end := held (max t later.length) (Nat.le_max_left _ _)
  rw [Endless.state_ofRest exec rest (Nat.le_max_right _ _), no_hand] at in_the_end
  cases in_the_end

/-! ## What it tries -/

theorem mem_handlings (found : r.handling? c = some h) : h ∈ r.handlings ∧ h.call = c :=
  ⟨List.mem_of_find?_eq_some found, by simpa using List.find?_some found⟩

theorem mem_ownActions_of_handling (found : r.handling? c = some h)
    (mem : a ∈ r.handlingActions h) : a ∈ r.ownActions := by
  refine List.mem_append_left _ (List.mem_append_left _ ?_)
  exact List.mem_flatMap.mpr ⟨h, (mem_handlings found).1, mem⟩

theorem resolve_mem_ownActions (found : r.handling? c = some h) : .resolve c ∈ r.ownActions := by
  refine mem_ownActions_of_handling found ?_
  rw [handlingActions, (mem_handlings found).2]
  exact List.mem_cons_self

/-- What a leg can do is tried of every leg. -/
private theorem mem_ownActions_of_leg (found : r.handling? c = some h) (hd : d < h.legs.length)
    (mem : a ∈ .submit c d :: (if r.cancelled then [.breakOff c d] else []) ++ [.wake c d]) :
    a ∈ r.ownActions := by
  refine mem_ownActions_of_handling found (List.mem_cons_of_mem _ ?_)
  refine List.mem_flatMap.mpr ⟨d, List.mem_range.mpr hd, ?_⟩
  rw [(mem_handlings found).2]
  exact mem

theorem submit_mem_ownActions (found : r.handling? c = some h) (hd : d < h.legs.length) :
    .submit c d ∈ r.ownActions := by
  apply mem_ownActions_of_leg found hd
  exact List.mem_append_left _ List.mem_cons_self

theorem wake_mem_ownActions (found : r.handling? c = some h) (hd : d < h.legs.length) :
    .wake c d ∈ r.ownActions := by
  apply mem_ownActions_of_leg found hd
  exact List.mem_append_right _ List.mem_cons_self

theorem breakOff_mem_ownActions (cancelled : r.cancelled = true) (found : r.handling? c = some h)
    (hd : d < h.legs.length) : .breakOff c d ∈ r.ownActions := by
  apply mem_ownActions_of_leg found hd
  rw [if_pos cancelled]
  simp

/-- What a worker does by itself. -/
def turns (i j : Nat) : List Action := [.take i j, .drain i j, .retire i j]

theorem mem_turns : a ∈ turns i j ↔ a = .take i j ∨ a = .drain i j ∨ a = .retire i j := by
  simp only [turns, List.mem_cons, List.not_mem_nil, or_false]

/-- What a worker can do is tried of every worker. -/
theorem mem_ownActions_of_turn (lane : r.lane? i j = some l) (turn : a ∈ turns i j) :
    a ∈ r.ownActions := by
  refine List.mem_append_left _ (List.mem_append_right _ ?_)
  exact List.mem_flatMap.mpr ⟨(i, j), mem_workerPlaces lane, turn⟩

theorem take_mem_ownActions (lane : r.lane? i j = some l) : .take i j ∈ r.ownActions :=
  mem_ownActions_of_turn lane List.mem_cons_self

theorem join_mem_ownActions : .join ∈ r.ownActions :=
  List.mem_append_right _ (List.mem_cons_of_mem _ List.mem_cons_self)

theorem next?_ne_none (own : a ∈ r.ownActions) (can : (r.step? clock a).isSome = true) :
    r.next? clock ≠ none := by
  intro stuck
  rw [List.findSome?_eq_none_iff.mp stuck a own] at can
  cases can

end MessageBridge.Running
