import MessageBridge.Proofs.Lane.Closing
import MessageBridge.Proofs.Route.Return

/-!
# Joining the workers

When its pools have been told to close, a route joins its workers one after another. A worker can be
joined once it is gone, no matter whether it has ended or crashed, so the stop returns if each of
them is gone in the end. By then no message is handled any more. So nothing happens to a lane but
what its own worker does, and a worker that can do something can do it until it does.
-/

namespace MessageBridge.Running

variable {s : EngineSettings} {route : CompiledRoute} {past : Past} {r r' : Running}
  {clock : Clock} {a : Action} {outputs : List Output} {i j : Nat} {l l' : Lane Job}
  {p p' : Pool Job} {places : List (Nat × Nat)}

/-! ## What is to be joined -/

theorem lane_of_mem_workerPlaces (mem : (i, j) ∈ r.workerPlaces) : ∃ l, r.lane? i j = some l := by
  obtain ⟨⟨p, k⟩, hp, mem⟩ := List.mem_flatMap.mp mem
  obtain ⟨k', hj, same⟩ := List.mem_map.mp mem
  obtain ⟨rfl, rfl⟩ := Prod.mk.inj same
  have hl := List.getElem?_eq_getElem (List.mem_range.mp hj)
  exact ⟨_, lane?_eq_some.mpr ⟨p, List.mem_zipIdx_iff_getElem?.mp hp, hl⟩⟩

/-- Workers are joined once the pools are told to close, and none of them twice. -/
theorem joining_before (step : r.step? clock a = some (r', outputs))
    (joining : r'.phase = .joining places) :
    a = .closePools ∨ ∃ before, r.phase = .joining before ∧ places ⊆ before := by
  cases a with
  | closePools => exact .inl rfl
  | stop =>
    obtain ⟨-, rfl, -⟩ := stop?_eq_some.mp step
    cases joining
  | join =>
    obtain ⟨-, rfl, -⟩ | ⟨place, rest, before, rfl, -⟩ := join?_cases step
    · cases joining
    · cases joining
      exact .inr ⟨_, before, List.subset_cons_self _ _⟩
  | forsake =>
    cases step
    obtain same | ⟨-, gone⟩ := forsake_cases r
    · rw [same] at joining
      exact .inr ⟨places, joining, List.Subset.refl _⟩
    · rw [gone] at joining
      cases joining
  | release =>
    obtain ⟨-, -, rfl, -⟩ := release?_eq_some.mp step
    cases joining
  | _ =>
    rw [phase_of_step step (by simp)] at joining
    exact .inr ⟨places, joining, List.Subset.refl _⟩

theorem joining_after (step : r.step? clock a = some (r', outputs))
    (joining : r.phase = .joining places) (kept : a ≠ .forsake) :
    r'.phase = .joining places ∨
      a = .join ∧ (r'.phase = .stopped ∨ ∃ rest, r'.phase = .joining rest) := by
  cases a with
  | closePools =>
    obtain ⟨finishing, -⟩ := closePools?_eq_some.mp step
    rw [joining] at finishing
    cases finishing
  | stop =>
    obtain ⟨running, -⟩ := stop?_eq_some.mp step
    rw [joining] at running
    cases running
  | join =>
    refine .inr ⟨rfl, ?_⟩
    obtain ⟨-, rfl, -⟩ | ⟨place, rest, -, rfl, -⟩ := join?_cases step
    · exact .inl rfl
    · exact .inr ⟨rest, rfl⟩
  | forsake => exact absurd rfl kept
  | release =>
    obtain ⟨forsaken, -⟩ := release?_eq_some.mp step
    rw [joining] at forsaken
    cases forsaken
  | _ =>
    rw [phase_of_step step (by simp)]
    exact .inl joining

/-- While workers are joined, all pools have been told to close, and the workers are there. -/
structure ToJoin (r : Running) (places : List (Nat × Nat)) : Prop where
  closing : ∀ {i : Nat} {p : Pool Job}, r.pools[i]? = some p → p.closing = true
  lane : ∀ {i j : Nat}, (i, j) ∈ places → ∃ l, r.lane? i j = some l

theorem toJoin_of_runs (runs : Runs s route past r) (joining : r.phase = .joining places) :
    r.ToJoin places := by
  induction runs generalizing places with
  | refl => cases joining
  | @snoc past r r' a outputs runs step ih =>
    have still_there {i j : Nat} (there : ∃ l, r.lane? i j = some l) :
        ∃ l, r'.lane? i j = some l := by
      obtain ⟨l, hl⟩ := there
      obtain ⟨l', hl', -⟩ := exists_laneStep step hl
      exact ⟨l', hl'⟩
    obtain close | ⟨before, joining, fewer⟩ := joining_before step joining
    · have closes := step
      rw [act, close] at closes
      obtain ⟨-, -, after, -⟩ := closePools?_eq_some.mp closes
      constructor
      · intro i p hp
        rw [after, List.getElem?_map, Option.map_eq_some_iff] at hp
        obtain ⟨q, -, rfl⟩ := hp
        rfl
      · intro i j mem
        rw [after] at joining
        cases joining
        exact still_there (lane_of_mem_workerPlaces mem)
    · obtain ⟨closing, there⟩ := ih joining
      constructor
      · intro i p hp
        obtain ⟨q, hq, sees⟩ := (poolSteps_of_step step).2 hp
        exact sees.still_closing (closing hq)
      · exact fun mem ↦ still_there (there (fewer mem))

theorem lane_after {later : Past} (after : Execution act r later r') (hl : r.lane? i j = some l) :
    ∃ l', r'.lane? i j = some l' := by
  induction after with
  | refl => exact ⟨l, hl⟩
  | snoc _ step ih =>
    obtain ⟨m, hm⟩ := ih
    obtain ⟨l', hl', -⟩ := exists_laneStep step hm
    exact ⟨l', hl'⟩

theorem lane_before {later : Past} (after : Execution act r later r')
    (hl' : r'.lane? i j = some l') : ∃ l, r.lane? i j = some l := by
  induction after generalizing l' with
  | refl => exact ⟨l', hl'⟩
  | snoc _ step ih =>
    obtain ⟨l, hl, -⟩ := lane_of_step step hl'
    exact ih hl

/-! ## Workers of a route -/

theorem works_of_step (step : r.step? clock a = some (r', outputs))
    (mine : a ∈ turns i j ∨ a = .crash i j ∨ ∃ answer, a = .reply i j answer) :
    ∃ p p', r.pools[i]? = some p ∧ r'.pools[i]? = some p' ∧ p.Works j p' := by
  have there {p p' : Pool Job} (hp : r.pools[i]? = some p) :
      (r.setPool i p').pools[i]? = some p' :=
    List.getElem?_set_self (List.getElem?_eq_some_iff.mp hp).1
  rw [mem_turns] at mine
  rcases mine with (rfl | rfl | rfl) | rfl | ⟨answer, rfl⟩
  · obtain ⟨p, job, p', hp, taken, rfl, -⟩ := take?_cases step
    exact ⟨p, p', hp, there hp, .take taken⟩
  · obtain ⟨-, p, refused, p', hp, drained, rfl⟩ := drain?_cases step
    exact ⟨p, p', hp, by rw [loseJobs_pools, there hp], .drain drained⟩
  · obtain ⟨p, p', hp, ended, rfl, -⟩ := retire?_cases step
    exact ⟨p, p', hp, there hp, .retire ended⟩
  · obtain ⟨-, p, lost, p', hp, crashed, rfl⟩ := crash?_cases step
    exact ⟨p, p', hp, by rw [loseJobs_pools, there hp], .crash crashed⟩
  · obtain ⟨p, job, p', hp, finished, ⟨_, _, -, -, -, rfl, -⟩ | ⟨-, rfl, -⟩⟩ := reply?_cases step
    · exact ⟨p, p', hp, there hp, .finish finished⟩
    · exact ⟨p, p', hp, there hp, .finish finished⟩

/-- A worker with free hands that is not gone has something to do, which it can do at any time as
long as its lane stays as it is. -/
theorem exists_worker_turn (sound : l.Sound) (free : l.inHand = none) (here : l.gone = false)
    (i j : Nat) : ∃ a ∈ turns i j, ∀ {r : Running} (clock : Clock), r.lane? i j = some l →
      (∀ {p : Pool Job}, r.pools[i]? = some p → p.closing = true) →
      (r.step? clock a).isSome = true := by
  obtain ⟨refused, l', drains⟩ | ⟨job, l', may, takes⟩ | ⟨l', ends⟩ := Lane.goes_on sound free here
  · refine ⟨.drain i j, mem_turns.mpr (.inr (.inl rfl)), fun clock lane closing ↦ ?_⟩
    obtain ⟨p, hp, hl⟩ := lane?_eq_some.mp lane
    have drained := Pool.drain?_eq_some.mpr ⟨l, l', hl, closing hp, drains, rfl⟩
    simp [step?, drain?, hp, drained]
  · refine ⟨.take i j, mem_turns.mpr (.inl rfl), fun clock lane _ ↦ ?_⟩
    obtain ⟨p, hp, hl⟩ := lane?_eq_some.mp lane
    have taken := Pool.take?_eq_some.mpr ⟨l, l', hl, fun _ ↦ may, takes, rfl⟩
    simp [step?, take?, hp, taken]
  · refine ⟨.retire i j, mem_turns.mpr (.inr (.inr rfl)), fun clock lane _ ↦ ?_⟩
    obtain ⟨p, hp, hl⟩ := lane?_eq_some.mp lane
    have ended := Pool.end?_eq_some.mpr ⟨l, l', hl, ends, rfl⟩
    simp [step?, retire?, hp, ended]

theorem join_of_gone {rest : List (Nat × Nat)} (joining : r.phase = .joining ((i, j) :: rest))
    (hl : r.lane? i j = some l) (gone : l.gone = true) (clock : Clock) :
    (r.step? clock .join).isSome = true := by
  have worker : r.workerState? (i, j) = some l.worker := workerState?_eq_some.mpr ⟨l, hl, rfl⟩
  cases how : l.worker with
  | serving | draining => simp [Lane.gone, how] at gone
  | ended | crashed => simp [step?, join?, joining, worker, how]

theorem lane_still (step : r.step? clock a = some (r', outputs)) (idle : r.handlings = [])
    (held : r.phase ≠ .forsaken) (hp : r.pools[i]? = some p) (closing : p.closing = true)
    (sound : r.Sound) (hl : r.lane? i j = some l) (hl' : r'.lane? i j = some l') :
    l' = l ∨ l'.toGo < l.toGo := by
  have nobody (c : Nat) : r.handling? c = none := handlings_eq_nil_iff.mp idle c
  obtain ⟨q, hq, hl⟩ := lane?_eq_some.mp hl
  rw [hp] at hq
  cases hq
  obtain ⟨p', hp', hl'⟩ := lane?_eq_some.mp hl'
  obtain ⟨q, hq, sees⟩ := (poolSteps_of_step step).2 hp'
  rw [hp] at hq
  cases hq
  have of_works {k : Nat} (works : p.Works k p') : l' = l ∨ l'.toGo < l.toGo := by
    by_cases here : k = j
    · subst here
      exact .inr (works.lane_toGo_lt closing (sound.pools hp) hl hl')
    · obtain ⟨m, m', hm, rfl, -⟩ := works.toGo_lt closing (sound.pools hp)
      rw [Pool.setLane_lanes, List.getElem?_set_ne here, hl] at hl'
      cases hl'
      exact .inl rfl
  cases sees with
  | same =>
    rw [hl] at hl'
    cases hl'
    exact .inl rfl
  | submit found =>
    rw [nobody] at found
    cases found
  | take taken => exact of_works (.take taken)
  | finish finished => exact of_works (.finish finished)
  | crash crashed => exact of_works (.crash crashed)
  | drain drained => exact of_works (.drain drained)
  | retire ended => exact of_works (.retire ended)
  | leave which =>
    rcases which with rfl | rfl
    · obtain ⟨h, -⟩ := abandon_eq_some.mp step
      simp [nobody] at h
    · obtain ⟨h, found, -⟩ := resolve?_cases step
      rw [nobody] at found
      cases found
  | close =>
    rw [hl] at hl'
    cases hl'
    exact .inl rfl
  | release =>
    obtain ⟨forsaken, -⟩ := release?_eq_some.mp step
    exact absurd forsaken held

/-! ## The end of a stop -/

/-- A run in which the workers of a route are joined for ever, though nobody lets go of it. -/
structure Joins (s : EngineSettings) (route : CompiledRoute) (past : Past)
    (run : Endless act r) : Prop where
  runs : Runs s route past r
  kept : ∀ t, (run.action t).2 ≠ .forsake
  joining : ∀ t, ∃ places, (run.state t).phase = .joining places

namespace Joins

variable {run : Endless act r} {t : Nat}

theorem reached (joins : Joins s route past run) (t : Nat) :
    Runs s route (past ++ run.past t) (run.state t) := joins.runs.trans (run.execution t)

theorem sound (joins : Joins s route past run) (t : Nat) : (run.state t).Sound :=
  sound_of_runs (joins.reached t)

theorem closing (joins : Joins s route past run) (t : Nat)
    (hp : (run.state t).pools[i]? = some p) : p.closing = true := by
  obtain ⟨places, joining⟩ := joins.joining t
  exact (toJoin_of_runs (joins.reached t) joining).closing hp

theorem still (joins : Joins s route past run) (hl : (run.state t).lane? i j = some l)
    (hl' : (run.state (t + 1)).lane? i j = some l') : l' = l ∨ l'.toGo < l.toGo := by
  obtain ⟨places, joining⟩ := joins.joining t
  obtain ⟨p, hp, -⟩ := lane?_eq_some.mp hl
  have idle := ((orderly_of_runs (joins.reached t)).joining joining).2.1
  have held : (run.state t).phase ≠ .forsaken := by
    rw [joining]
    exact nofun
  exact lane_still (run.steps t) idle held hp (joins.closing t hp) (joins.sound t) hl hl'

/-- **Every worker that is to be joined is gone in the end.** -/
theorem gone (joins : Joins s route past run) (even : Even run) (hl : r.lane? i j = some l) :
    ∃ t, ∀ u, t ≤ u → ∃ m, (run.state u).lane? i j = some m ∧ m.gone = true := by
  choose lane there using fun t ↦ lane_after (run.execution t) hl
  have sound (t : Nat) : (lane t).Sound := (joins.sound t).lane (there t)
  have still (t : Nat) : lane (t + 1) = lane t ∨ (lane (t + 1)).toGo < (lane t).toGo :=
    joins.still (there t) (there (t + 1))
  have falls {t : Nat} (mine : (run.action t).2 ∈ turns i j ∨ (run.action t).2 = .crash i j ∨
      ∃ answer, (run.action t).2 = .reply i j answer) :
      (lane (t + 1)).toGo < (lane t).toGo := by
    obtain ⟨p, p', hp, hp', works⟩ := works_of_step (run.steps t) mine
    obtain ⟨q, hq, hl⟩ := lane?_eq_some.mp (there t)
    obtain ⟨q', hq', hl'⟩ := lane?_eq_some.mp (there (t + 1))
    rw [hp] at hq
    rw [hp'] at hq'
    cases hq
    cases hq'
    exact works.lane_toGo_lt (joins.closing t hp) ((joins.sound t).pools hp) hl hl'
  have moves (t : Nat) : lane (t + 1) = lane t ∨ (lane t).Move (lane (t + 1)) := by
    obtain ⟨m, hm, moved⟩ := lane_of_step (run.steps t) (there (t + 1))
    rw [there t] at hm
    cases hm
    exact moved
  have stays (t : Nat) : (lane (t + 1)).toGo ≤ (lane t).toGo := by
    obtain same | less := still t
    · rw [same]
    · exact less.le
  have busy (t : Nat) (hand : (lane t).inHand.isSome = true) :
      ∃ u, t ≤ u ∧ (lane (u + 1)).toGo < (lane u).toGo := by
    obtain ⟨job, hand⟩ := Option.isSome_iff_exists.mp hand
    obtain ⟨u, hu, answered⟩ := even.answered t i j job ((inHand?_of_lane (there t)).trans hand)
    exact ⟨u, hu, falls (.inr answered.symm)⟩
  have idle (t : Nat) (free : ∀ u, t ≤ u → (lane u).inHand = none ∧ (lane u).gone = false) :
      ∃ u, t ≤ u ∧ (lane (u + 1)).toGo < (lane u).toGo := by
    by_contra never
    -- a lane whose worker does nothing stays as it is, and so does what the worker can do
    have same (u : Nat) (hu : t ≤ u) : lane u = lane t := by
      induction u, hu using Nat.le_induction with
      | base => rfl
      | succ u hu ih =>
        obtain same | less := still u
        · exact same.trans ih
        · exact absurd ⟨u, hu, less⟩ never
    obtain ⟨not_busy, not_gone⟩ := free t (Nat.le_refl t)
    obtain ⟨a, turn, can⟩ := exists_worker_turn (sound t) not_busy not_gone i j
    obtain ⟨u, hu, acts⟩ := even.turn a t fun u hu ↦ by
      have here := there u
      rw [same u hu] at here
      exact ⟨mem_ownActions_of_turn here turn, can _ here fun hp ↦ joins.closing u hp⟩
    exact never ⟨u, hu, falls (.inl (acts ▸ turn))⟩
  obtain ⟨t, gone⟩ := Lane.eventually_gone moves stays busy idle
  exact ⟨t, fun u hu ↦ ⟨lane u, there u, gone u hu⟩⟩

theorem can_join (joins : Joins s route past run) (even : Even run) (t : Nat)
    (same : ∀ u, t ≤ u → (run.state u).phase = .joining places) :
    ∃ v, t ≤ v ∧ ∀ u, v ≤ u → ∀ clock, ((run.state u).step? clock .join).isSome = true := by
  cases places with
  | nil =>
    refine ⟨t, Nat.le_refl t, fun u hu clock ↦ ?_⟩
    simp [step?, join?, same u hu]
  | cons place rest =>
    obtain ⟨i, j⟩ := place
    have joining := same t (Nat.le_refl t)
    obtain ⟨l, hl⟩ := (toJoin_of_runs (joins.reached t) joining).lane List.mem_cons_self
    obtain ⟨l₀, hl₀⟩ := lane_before (run.execution t) hl
    obtain ⟨v, gone⟩ := joins.gone even hl₀
    refine ⟨max t v, Nat.le_max_left t v, fun u hu clock ↦ ?_⟩
    obtain ⟨m, hm, gone⟩ := gone u ((Nat.le_max_right t v).trans hu)
    exact join_of_gone (same u ((Nat.le_max_left t v).trans hu)) hm gone clock

theorem joins_next (joins : Joins s route past run) (even : Even run)
    (joining : (run.state t).phase = .joining places) :
    ∃ u, (run.state u).phase = .joining places ∧ (run.action u).2 = .join := by
  by_contra never
  have same (u : Nat) (hu : t ≤ u) : (run.state u).phase = .joining places := by
    induction u, hu using Nat.le_induction with
    | base => exact joining
    | succ u _ ih =>
      obtain same | ⟨joined, -⟩ := joining_after (run.steps u) ih (joins.kept u)
      · exact same
      · exact absurd ⟨u, ih, joined⟩ never
  obtain ⟨v, hv, can⟩ := joins.can_join even t same
  obtain ⟨u, hu, joined⟩ := even.turn .join v fun u hu ↦ ⟨join_mem_ownActions, can u hu _⟩
  exact never ⟨u, same u (hv.trans hu), joined⟩

theorem not_forever (joins : Joins s route past run) (even : Even run) {t : Nat}
    (joining : (run.state t).phase = .joining places) : False := by
  induction places generalizing t with
  | nil =>
    obtain ⟨u, last, joined⟩ := joins.joins_next even joining
    have step : (run.state u).step? (run.action u).1 .join =
        some (run.state (u + 1), run.outputs u) := joined ▸ run.steps u
    obtain ⟨rest, more⟩ := joins.joining (u + 1)
    obtain ⟨-, stopped, -⟩ | ⟨place, rest, more, -⟩ := join?_cases step
    · rw [stopped] at more
      cases more
    · rw [last] at more
      cases more
  | cons place rest ih =>
    obtain ⟨u, next, joined⟩ := joins.joins_next even joining
    have step : (run.state u).step? (run.action u).1 .join =
        some (run.state (u + 1), run.outputs u) := joined ▸ run.steps u
    obtain ⟨last, -⟩ | ⟨first, others, before, after, -⟩ := join?_cases step
    · rw [next] at last
      cases last
    · rw [next] at before
      cases before
      apply ih (t := u + 1)
      rw [after]

end Joins

/-- **Once the pools have been told to close, the stop of a route returns**, whatever became of its
workers, unless somebody lets go of the route before. -/
theorem atRest_of_joining (runs : Runs s route past r) (joining : r.phase = .joining places)
    {run : Endless act r} (even : Even run) (kept : ∀ t, (run.action t).2 ≠ .forsake) :
    ∃ t, (run.state t).AtRest := by
  by_contra never
  have always (t : Nat) : ∃ places, (run.state t).phase = .joining places := by
    induction t with
    | zero =>
      rw [run.begins]
      exact ⟨places, joining⟩
    | succ t ih =>
      obtain ⟨places, joining⟩ := ih
      obtain same | ⟨-, stopped | more⟩ := joining_after (run.steps t) joining (kept t)
      · exact ⟨places, same⟩
      · have orderly := orderly_of_runs (runs.trans (run.execution (t + 1)))
        exact absurd ⟨t + 1, orderly.stopped stopped⟩ never
      · exact more
  obtain ⟨places, joining⟩ := always 0
  exact Joins.not_forever ⟨runs, kept, always⟩ even joining

end MessageBridge.Running
