import MessageBridge.Proofs.Route.Stop

/-!
# What a leg sees of a step

A leg of a handled call moves when it submits its job, when its wait is over or broken off, and when
it hears of its job; nothing else that happens to the route touches it. `Running.LegStep` lists
these ways with the reason for each: an answer is that to its own job, a job is refused by the lane
whose turn it is, it is lost with the lane that holds it. So whatever is to be known of the legs of
a call is proved by these few cases, and the rest of the route does not matter.
-/

namespace MessageBridge

theorem Handling.getElem?_loseAt {d i : Nat} {leg : Leg} {h : Handling}
    (here : h.legs[i]? = some leg) :
    (h.loseAt d).legs[i]? = some (if d = i then leg.lose else leg) := by
  rw [Handling.loseAt, List.getElem?_modify, here]
  by_cases hd : d = i <;> simp [hd]

namespace Running

variable {clock : Clock} {r r' : Running} {outputs : List Output} {a : Action} {c d : Nat}
  {h h' : Handling} {leg leg' : Leg} {m : Message}

/-! ## The cases -/

/-- What a step means for the leg of a handled call to a destination. -/
inductive LegStep (clock : Clock) (r : Running) (c d : Nat) (m : Message) :
    Action → Leg → Leg → Prop where
  | same {a : Action} {leg : Leg}
      (others : a ≠ .submit c d ∧ a ≠ .wake c d ∧ a ≠ .breakOff c d) :
      LegStep clock r c d m a leg leg
  | submit {leg : Leg} (ready : leg.phase = .ready) :
      LegStep clock r c d m (.submit c d) leg leg.submit
  | refuse {leg : Leg} {p : Pool Job} (ready : leg.phase = .ready) (pool : r.pools[d]? = some p)
      (refused : ∀ l, p.lanes[p.turn]? = some l → l.submit? ⟨c, m⟩ = none) :
      LegStep clock r c d m (.submit c d) leg leg.submit.lose
  | wake {leg : Leg} {due : Nat} (waiting : leg.phase = .waiting due) (late : due ≤ clock.now) :
      LegStep clock r c d m (.wake c d) leg { leg with phase := .ready }
  | breakOff {leg : Leg} {due : Nat} (waiting : leg.phase = .waiting due)
      (cancelled : r.cancelled = true) :
      LegStep clock r c d m (.breakOff c d) leg (leg.settle (.failed .cancelled))
  | reply {leg : Leg} {j : Nat} {answer : Except BusError Unit} (submitted : leg.phase = .submitted)
      (hand : r.inHand? d j = some ⟨c, m⟩) :
      LegStep clock r c d m (.reply d j answer) leg
        (leg.answer r.plan clock.now (m.age? clock.wall) (jobAnswer answer))
  | crash {leg : Leg} {j : Nat} {l : Lane Job} (submitted : leg.phase = .submitted)
      (lane : r.lane? d j = some l) (held : ⟨c, m⟩ ∈ l.jobs) :
      LegStep clock r c d m (.crash d j) leg leg.lose
  | drain {leg : Leg} {j : Nat} {p : Pool Job} (submitted : leg.phase = .submitted)
      (pool : r.pools[d]? = some p) (closing : p.closing = true) :
      LegStep clock r c d m (.drain d j) leg leg.lose

/-! ## Every leg sees what a step means for it -/

theorem Sound.job_of_mem (sound : r.Sound) (found : r.handling? c = some h)
    (here : h.legs[d]? = some leg) {job : Job} (mem : job ∈ r.jobs d) (mine : job.call = c) :
    leg.phase = .submitted ∧ job = ⟨c, h.message⟩ := by
  have of_call : job ∈ r.jobsOf c d := List.mem_filter.mpr ⟨mem, by simpa using mine⟩
  rw [sound.awaited found here] at of_call
  by_cases submitted : leg.phase = .submitted
  · rw [leg.awaits_of_submitted submitted] at of_call
    exact ⟨submitted, List.mem_singleton.mp of_call⟩
  · rw [leg.awaits_of_ne submitted] at of_call
    cases of_call

private theorem legStep_self (clock : Clock) (here : h.legs[d]? = some leg)
    (others : a ≠ .submit c d ∧ a ≠ .wake c d ∧ a ≠ .breakOff c d)
    (kept : r'.handling? c = r.handling? c) (found : r.handling? c = some h)
    (found' : r'.handling? c = some h') :
    ∃ leg', h'.legs[d]? = some leg' ∧ LegStep clock r c d h.message a leg leg' := by
  rw [kept, found] at found'
  cases found'
  exact ⟨leg, here, .same others⟩

private theorem legStep_setLeg {c₀ d₀ : Nat} {h₀ : Handling} {leg₀ : Leg} (new : Leg)
    (found : r.handling? c = some h) (here : h.legs[d]? = some leg)
    (found₀ : r.handling? c₀ = some h₀) (here₀ : h₀.legs[d₀]? = some leg₀)
    (handlings : r'.handling? c = (r.handling? c).map fun h ↦
      if c = c₀ then h.withLeg d₀ new else h)
    (found' : r'.handling? c = some h')
    (this : c = c₀ → d = d₀ → h = h₀ → leg = leg₀ → LegStep clock r c d h.message a leg new)
    (others : ¬(c = c₀ ∧ d = d₀) → a ≠ .submit c d ∧ a ≠ .wake c d ∧ a ≠ .breakOff c d) :
    ∃ leg', h'.legs[d]? = some leg' ∧ LegStep clock r c d h.message a leg leg' := by
  rw [handlings, found, Option.map_some] at found'
  cases found'
  by_cases hc : c = c₀
  · subst hc
    rw [found] at found₀
    cases found₀
    rw [if_pos rfl]
    by_cases hd : d₀ = d
    · subst hd
      rw [here] at here₀
      cases here₀
      exact ⟨new, by rw [Handling.getElem?_withLeg here, if_pos rfl], this rfl rfl rfl rfl⟩
    · refine ⟨leg, by rw [Handling.getElem?_withLeg here, if_neg hd], .same (others ?_)⟩
      exact fun both ↦ hd both.2.symm
  · rw [if_neg hc]
    exact ⟨leg, here, .same (others fun both ↦ hc both.1)⟩

private theorem legStep_lose {i : Nat} {gone : List Job} (sound : r.Sound)
    (found : r.handling? c = some h) (here : h.legs[d]? = some leg)
    (handlings : r'.handling? c = (r.handling? c).map fun h ↦
      if c ∈ gone.map Job.call then h.loseAt i else h)
    (found' : r'.handling? c = some h')
    (others : a ≠ .submit c d ∧ a ≠ .wake c d ∧ a ≠ .breakOff c d)
    (of_pool : ∀ job ∈ gone, job ∈ r.jobs i)
    (this : i = d → leg.phase = .submitted → ⟨c, h.message⟩ ∈ gone →
      LegStep clock r c d h.message a leg leg.lose) :
    ∃ leg', h'.legs[d]? = some leg' ∧ LegStep clock r c d h.message a leg leg' := by
  rw [handlings, found, Option.map_some] at found'
  cases found'
  split
  · rename_i lost
    rw [Handling.getElem?_loseAt here]
    by_cases hi : i = d
    · subst hi
      obtain ⟨job, mem, mine⟩ := List.mem_map.mp lost
      obtain ⟨submitted, rfl⟩ := sound.job_of_mem found here (of_pool job mem) mine
      exact ⟨_, by rw [if_pos rfl], this rfl submitted mem⟩
    · exact ⟨leg, by rw [if_neg hi], .same others⟩
  · exact ⟨leg, here, .same others⟩

/-- **Every leg sees what a step means for it.** -/
theorem legStep_of_step (sound : r.Sound) (step : r.step? clock a = some (r', outputs))
    (found : r.handling? c = some h) (here : h.legs[d]? = some leg)
    (found' : r'.handling? c = some h') :
    ∃ leg', h'.legs[d]? = some leg' ∧ LegStep clock r c d h.message a leg leg' := by
  -- a step that is not about this leg leaves its call as it was
  have self (others : a ≠ .submit c d ∧ a ≠ .wake c d ∧ a ≠ .breakOff c d)
      (kept : r'.handling? c = r.handling? c) :=
    legStep_self clock here others kept found found'
  cases a with
  | handle call m =>
    obtain ⟨-, -, -, same | ⟨m', opened⟩⟩ := arrival_cases step
    · exact self (by simp) (same c)
    · exact self (by simp) (by rw [opened, found, Option.some_or])
  | abandon call =>
    obtain ⟨-, rfl, -⟩ := abandon_eq_some.mp step
    have stays : c ≠ call := by
      rintro rfl
      rw [handling?_withoutHandling, if_pos rfl] at found'
      cases found'
    exact self (by simp) (by rw [handling?_withoutHandling, if_neg stays])
  | submit call i =>
    obtain ⟨-, h₀, leg₀, p, found₀, here₀, ready, hp, ⟨-, rfl⟩ | ⟨refused, rfl⟩⟩ :=
      submit?_cases step
    · refine legStep_setLeg leg₀.submit found here found₀ here₀ ?_ found' ?_ ?_
      · rw [handling?_setPool, handling?_setLeg]
      · rintro rfl rfl rfl rfl
        exact .submit ready
      · intro other
        exact ⟨fun same ↦ other (by cases same; exact ⟨rfl, rfl⟩), by simp, by simp⟩
    · -- the leg is replaced twice: it submits, and then loses the job again
      refine legStep_setLeg leg₀.submit.lose found here found₀ here₀ ?_ found' ?_ ?_
      · rw [handling?_loseJobs, handling?_setPool, handling?_setLeg, Option.map_map, found]
        by_cases hc : c = call
        · subst hc
          rw [found] at found₀
          cases found₀
          have there : (h.withLeg i leg₀.submit).legs[i]? = some leg₀.submit :=
            List.getElem?_set_self (List.getElem?_eq_some_iff.mp here₀).1
          simp only [Option.map_some, Function.comp, if_true, List.map_cons, List.map_nil,
            List.mem_singleton]
          rw [Handling.loseAt_eq_set there]
          simp [Handling.withLeg]
        · simp [hc]
      · rintro rfl rfl rfl rfl
        refine .refuse ready hp fun l hl ↦ ?_
        obtain ⟨_, _, -, -, done⟩ | ⟨none_takes, -⟩ := Pool.submit_cases ⟨c, h.message⟩ p
        · rw [done] at refused
          cases refused
        · exact none_takes l hl
      · intro other
        exact ⟨fun same ↦ other (by cases same; exact ⟨rfl, rfl⟩), by simp, by simp⟩
  | wake call i =>
    obtain ⟨-, h₀, leg₀, due, found₀, here₀, waiting, late, rfl⟩ := wake?_cases step
    refine legStep_setLeg _ found here found₀ here₀ (handling?_setLeg ..) found' ?_ ?_
    · rintro rfl rfl rfl rfl
      exact .wake waiting late
    · intro other
      exact ⟨by simp, fun same ↦ other (by cases same; exact ⟨rfl, rfl⟩), by simp⟩
  | breakOff call i =>
    obtain ⟨h₀, leg₀, due, found₀, here₀, waiting, cancelled, rfl, -⟩ := breakOff?_cases step
    refine legStep_setLeg _ found here found₀ here₀ (handling?_setLeg ..) found' ?_ ?_
    · rintro rfl rfl rfl rfl
      exact .breakOff waiting cancelled
    · intro other
      exact ⟨by simp, by simp, fun same ↦ other (by cases same; exact ⟨rfl, rfl⟩)⟩
  | resolve call =>
    obtain ⟨_, -, -, rfl, -⟩ := resolve?_cases step
    have stays : c ≠ call := by
      rintro rfl
      rw [handling?_withoutHandling, if_pos rfl] at found'
      cases found'
    exact self (by simp) (by rw [handling?_withoutHandling, if_neg stays])
  | take i j =>
    obtain ⟨p, job, p', -, -, rfl, -⟩ := take?_cases step
    exact self (by simp) rfl
  | reply i j answer =>
    obtain ⟨p, job, p', hp, finished, claimed⟩ := reply?_cases step
    have hand := inHand?_of_finish? hp finished
    rcases claimed with ⟨h₀, leg₀, found₀, here₀, submitted, rfl, -⟩ | ⟨-, rfl, -⟩
    · refine legStep_setLeg _ found here found₀ here₀ (by rw [handling?_setLeg, handling?_setPool])
        found' ?_ fun _ ↦ ⟨by simp, by simp, by simp⟩
      rintro mine rfl rfl rfl
      obtain ⟨-, rfl⟩ := sound.job_of_mem found here (mem_jobs_of_inHand? hand) mine.symm
      exact .reply submitted hand
    · exact self (by simp) rfl
  | crash i j =>
    obtain ⟨-, p, lost, p', hp, crashed, rfl⟩ := crash?_cases step
    obtain ⟨l, l', hl, here_crashed, -⟩ := Pool.crash?_eq_some.mp crashed
    have all := (Lane.jobs_crash? here_crashed).1
    refine legStep_lose sound found here (by rw [handling?_loseJobs, handling?_setPool]) found'
      (by simp) (fun job mem ↦ ?_) ?_
    · rw [jobs_of_pool hp]
      exact Pool.mem_jobs hl (by rwa [all])
    · rintro rfl submitted mem
      exact .crash submitted (lane?_eq_some.mpr ⟨p, hp, hl⟩) (by rwa [all])
  | drain i j =>
    obtain ⟨-, p, refused, p', hp, drained, rfl⟩ := drain?_cases step
    obtain ⟨l, l', hl, closing, here_drained, -⟩ := Pool.drain?_eq_some.mp drained
    refine legStep_lose sound found here (by rw [handling?_loseJobs, handling?_setPool]) found'
      (by simp) (fun job mem ↦ ?_) ?_
    · rw [jobs_of_pool hp]
      refine Pool.mem_jobs hl ?_
      rw [Lane.jobs_drain? here_drained]
      exact List.mem_append_right _ mem
    · rintro rfl submitted -
      exact .drain submitted hp closing
  | retire i j =>
    obtain ⟨p, p', -, -, rfl, -⟩ := retire?_cases step
    exact self (by simp) rfl
  | cancel =>
    cases step
    exact self (by simp) rfl
  | stop =>
    obtain ⟨-, rfl, -⟩ := stop?_eq_some.mp step
    exact self (by simp) rfl
  | closePools =>
    obtain ⟨-, -, rfl, -⟩ := closePools?_eq_some.mp step
    exact self (by simp) rfl
  | join =>
    obtain ⟨-, rfl, -⟩ | ⟨_, _, -, rfl, -⟩ := join?_cases step <;> exact self (by simp) rfl
  | forsake =>
    cases step
    obtain same | ⟨-, same⟩ := forsake_cases r
    · exact self (by simp) (by rw [same])
    · exact self (by simp) (by rw [same]; rfl)
  | release =>
    obtain ⟨-, -, rfl, -⟩ := release?_eq_some.mp step
    exact self (by simp) rfl

/-- A leg of a handled call has seen what the step means for it, unless its call has just
arrived. -/
theorem Sound.leg_of_step (sound : r.Sound) (step : r.step? clock a = some (r', outputs))
    (found' : r'.handling? c = some h') (here' : h'.legs[d]? = some leg') :
    (∃ h leg, r.handling? c = some h ∧ h.legs[d]? = some leg ∧ h'.message = h.message ∧
        LegStep clock r c d h.message a leg leg') ∨
      leg' = .fresh ∧ ∃ m, a = .handle c m := by
  obtain ⟨h, found, follows⟩ | ⟨m, m', arrives, rfl⟩ := sound.handling_of_step step found'
  · have hd : d < h.legs.length := by
      rw [← follows.length]
      exact (List.getElem?_eq_some_iff.mp here').1
    have here := List.getElem?_eq_getElem hd
    obtain ⟨leg'', there, sees⟩ := legStep_of_step sound step found here found'
    rw [here'] at there
    cases there
    exact .inl ⟨h, _, found, here, follows.message, sees⟩
  · rw [freshHandling, List.getElem?_map, Option.map_eq_some_iff] at here'
    obtain ⟨p, -, rfl⟩ := here'
    exact .inr ⟨rfl, m, arrives⟩

end Running

end MessageBridge
