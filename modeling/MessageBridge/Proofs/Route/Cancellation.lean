import Mathlib.Data.Finset.Prod
import Mathlib.Data.List.Chain
import MessageBridge.Proofs.Route.Effort
import MessageBridge.Proofs.Route.Persistence

/-!
# After the token has fired

When the token of a route fires, its calls may be anywhere: about to submit a job, with a job in a
queue or in hand, or in a wait that is over or not. From each of these positions a call begins at
most one more publish to a destination, since a publish that is answered leads to a wait, and the
wait of a cancelled route is broken off before its time comes. So much is true if time passes only
while the route has nothing to do; a wait whose time has come may always end the other way.

In a run that goes on for ever, in which the route gets its turn and every publish is answered, all
calls come to their verdicts.
-/

namespace MessageBridge

theorem Backoff.waits_ofBounds {initial : Duration} (positive : 0 < initial.nanos)
    (greatest : Duration) : (Backoff.ofBounds initial greatest).Waits := by
  intro failures
  have longest : initial.nanos ≤ Nat.max greatest.nanos initial.nanos := Nat.le_max_right _ _
  have doubled : initial.nanos ≤ initial.nanos * Nat.pow 2 (Backoff.doublings failures) :=
    Nat.le_mul_of_pos_right _ (Nat.pow_pos (by omega))
  have some_time : 0 < ((Backoff.ofBounds initial greatest).delayAfter failures).nanos := by
    refine positive.trans_le (Nat.le_min.mpr ⟨?_, longest⟩)
    rw [Backoff.ofBounds, Duration.times?]
    split
    · exact doubled
    · exact longest
  rw [Duration.millisUp]
  omega

/-- The call and the destination of a publish that begins. -/
def Output.publishing? : Output → Option (Nat × Nat)
  | .publish i _ c _ => some (c, i)
  | _ => none

namespace Running

variable {s : EngineSettings} {route : CompiledRoute} {past later : Past} {r r' : Running}
  {clock : Clock} {a : Action} {outputs : List Output} {c d : Nat} {h : Handling} {leg : Leg}

/-! ## Time and fairness -/

/-- Between two steps time passes only if the route can do nothing by itself. -/
def Patient (mo mo' : Moment Running (Clock × Action) Output) : Prop :=
  mo.action.1.now ≤ mo'.action.1.now ∧
    (mo.action.1.now < mo'.action.1.now → mo.after.next? mo.action.1 = none)

/-- In a run time passes only while the route can do nothing by itself. -/
def Timely (past : Past) : Prop := past.IsChain Patient

/-- A run that never ends and in which nobody is put off for ever. -/
structure Fair (run : Endless act r) : Prop where
  /-- Time passes only while the route can do nothing by itself. -/
  patient : ∀ t, Patient (run.moment t) (run.moment (t + 1))
  /-- As long as the route can do something by itself, it does so again and again. -/
  active : ∀ t, (∀ u, t ≤ u → (run.state u).next? (run.action u).1 ≠ none) →
    ∃ u, t ≤ u ∧ (run.action u).2 ∈ (run.state u).ownActions
  /-- Every publish is answered, or crashes its worker. -/
  answered : ∀ t i j job, (run.state t).inHand? i j = some job →
    ∃ u, t ≤ u ∧ ((∃ answer, (run.action u).2 = .reply i j answer) ∨ (run.action u).2 = .crash i j)

theorem fair_ofRest (exec : Execution act r later r')
    (rest : ∀ _ : Nat, act r' (clock, .cancel) = some (r', []))
    (steady : ∀ mo ∈ later, mo.action.1 = clock) (idle : r'.next? clock = none)
    (no_hand : ∀ i j, r'.inHand? i j = none) : Fair (.ofRest exec rest) := by
  have time (t : Nat) : ((Endless.ofRest exec rest).action t).1 = clock := by
    show (((later[t]?).map Moment.action).getD (clock, .cancel)).1 = clock
    cases here : later[t]? with
    | none => rfl
    | some mo => exact steady mo (List.mem_of_getElem? here)
  refine ⟨fun t ↦ ?_, fun t can ↦ ?_, answered_of_rest exec rest no_hand⟩
  · have same : ((Endless.ofRest exec rest).moment t).action.1.now =
        ((Endless.ofRest exec rest).moment (t + 1)).action.1.now := by
      show ((Endless.ofRest exec rest).action t).1.now =
        ((Endless.ofRest exec rest).action (t + 1)).1.now
      rw [time, time]
    exact ⟨same.le, fun passed ↦ absurd same passed.ne⟩
  · have busy := can (max t later.length) (Nat.le_max_left _ _)
    rw [time, Endless.state_ofRest exec rest (Nat.le_max_right _ _)] at busy
    exact absurd idle busy

/-! ## Publishes that begin -/

/-- The calls and destinations of the publishes that begin. -/
def publishing (past : Past) : List (Nat × Nat) :=
  (Moment.told past).filterMap Output.publishing?

theorem count_publishing (c d : Nat) (past : Past) :
    (publishing past).count (c, d) = (publishes c d past).length := by
  rw [publishing, publishes, List.count, List.countP_filterMap, List.length_filterMap_eq_countP]
  congr 1
  funext o
  cases o with
  | publish i j call m =>
    by_cases here : i = d ∧ call = c
    · simp [Output.publishing?, Output.publish?, here]
    · have apart : ¬(call = c ∧ i = d) := fun same ↦ here ⟨same.2, same.1⟩
      simp [Output.publishing?, Output.publish?, here, apart]
  | _ => rfl

theorem publishes_of_step_le (step : r.step? clock a = some (r', outputs)) (c d : Nat) :
    (outputs.filterMap (Output.publish? c d)).length ≤ 1 := by
  by_cases takes : ∃ i j, a = .take i j
  · obtain ⟨i, j, rfl⟩ := takes
    obtain ⟨p, job, p', -, -, -, rfl⟩ := take?_cases step
    exact (List.length_filterMap_le _ [_]).trans (Nat.le_refl 1)
  · have none_begins : outputs.filterMap (Output.publish? c d) = [] := by
      rw [List.filterMap_eq_nil_iff]
      intro o told
      cases o with
      | publish i j call m => exact absurd ⟨i, j, (caused_of_step step _ told).1⟩ takes
      | _ => rfl
    rw [none_begins]
    exact Nat.zero_le 1

/-! ## At most one more publish -/

theorem effort_pos_iff (c d now now' : Nat) (r : Running) :
    0 < r.effort c d now ↔ 0 < r.effort c d now' := by
  have same (leg : Leg) : 0 < leg.effort now ↔ 0 < leg.effort now' := by
    cases phase : leg.phase with
    | waiting due =>
      simp only [Leg.effort, phase]
      split <;> split <;> simp
    | _ => simp [Leg.effort, phase]
  rw [effort, effort]
  cases r.leg? c d with
  | none => rfl
  | some leg =>
    have := same leg
    simp only [Option.map_some, Option.getD_some]
    omega

/-- What is known of the publishes that a cancelled route has begun since. -/
private structure LastPublishes (r : Running) (later : Past) (r' : Running) : Prop where
  sound : r'.Sound
  cancelled : r'.cancelled = true
  waits : r'.backoff.Waits
  left : ∀ {c d now : Nat}, 0 < r'.effort c d now → r.Unresolved c d
  once : ∀ c d, (publishes c d later).length ≤ 1
  begun : ∀ {c d : Nat}, publishes c d later ≠ [] → r.Unresolved c d
  /-- After a publish, not enough is left for another one. -/
  spent : ∀ {c d : Nat} {mo : Moment Running (Clock × Action) Output}, publishes c d later ≠ [] →
    later.getLast? = some mo → mo.after = r' ∧ r'.effort c d mo.action.1.now ≤ 2

private theorem LastPublishes.step {r₁ r₂ : Running} (last : LastPublishes r later r₁)
    (step : r₁.step? clock a = some (r₂, outputs))
    (timely : Timely (later ++ [⟨r₁, (clock, a), r₂, outputs⟩])) :
    LastPublishes r (later ++ [⟨r₁, (clock, a), r₂, outputs⟩]) r₂ := by
  have kept := kept_of_step step
  have less := effort_of_step last.sound last.cancelled last.waits step
  -- what was left after the last step is left still, whatever time has passed in between
  have spent {c d : Nat} (before : publishes c d later ≠ []) :
      r₁.effort c d clock.now ≤ 2 := by
    have some_step : later ≠ [] := by
      rintro rfl
      exact before rfl
    have here := List.getLast?_eq_some_getLast some_step
    obtain ⟨after, few⟩ := last.spent before here
    obtain ⟨later_on, idle⟩ := (List.isChain_append.mp timely).2.2 _ here _ rfl
    rw [after] at idle
    obtain same | passed := Nat.eq_or_lt_of_le later_on
    · exact same ▸ few
    · rwa [effort_of_idle last.cancelled (idle passed)]
  have fresh {c d : Nat} (told : outputs.filterMap (Output.publish? c d) ≠ []) :
      publishes c d later = [] ∧ r.Unresolved c d ∧ r₂.effort c d clock.now ≤ 2 := by
    obtain ⟨o, ho, begins⟩ : ∃ o ∈ outputs, o.publish? c d ≠ none := by
      by_contra nothing
      exact told (List.filterMap_eq_nil_iff.mpr (by simpa using nothing))
    cases o with
    | publish i j call m =>
      obtain ⟨rfl, rfl⟩ : i = d ∧ call = c := by
        by_contra other
        exact begins (if_neg other)
      obtain ⟨enough, few⟩ := effort_of_publish last.sound step ho clock.now
      refine ⟨?_, last.left (Nat.lt_of_lt_of_le (by omega) enough), few⟩
      by_contra before
      have := spent before
      omega
    | _ => exact absurd rfl begins
  refine ⟨last.sound.step step, kept.cancelled last.cancelled, kept.backoff ▸ last.waits,
    fun {c d now} some_left ↦ ?_, fun c d ↦ ?_, fun {c d} published ↦ ?_,
    fun {c d mo} published here ↦ ?_⟩
  · have now_left := (effort_pos_iff c d now clock.now r₂).mp some_left
    exact last.left (now_left.trans_le (less c d).1)
  · rw [publishes_concat, List.length_append]
    by_cases told : outputs.filterMap (Output.publish? c d) = []
    · rw [told]
      exact last.once c d
    · rw [(fresh told).1, List.length_nil, Nat.zero_add]
      exact publishes_of_step_le step c d
  · rw [publishes_concat] at published
    by_cases told : outputs.filterMap (Output.publish? c d) = []
    · rw [told, List.append_nil] at published
      exact last.begun published
    · exact (fresh told).2.1
  · rw [List.getLast?_concat] at here
    cases here
    refine ⟨rfl, ?_⟩
    rw [publishes_concat] at published
    by_cases told : outputs.filterMap (Output.publish? c d) = []
    · rw [told, List.append_nil] at published
      exact (less c d).1.trans (spent published)
    · exact (fresh told).2.2

/-- Whatever happens to a cancelled route, a call begins at most one more publish to a destination,
and only to one at which something was left. -/
private theorem lastPublishes_of_execution (sound : r.Sound) (cancelled : r.cancelled = true)
    (waits : r.backoff.Waits) (exec : Execution act r later r') (timely : Timely later) :
    LastPublishes r later r' := by
  induction exec with
  | refl =>
    exact ⟨sound, cancelled, waits, fun left ↦ unresolved_of_effort left,
      fun _ _ ↦ Nat.zero_le 1, fun published ↦ absurd rfl published,
      fun published ↦ absurd rfl published⟩
  | snoc _ step ih => exact (ih (List.isChain_append.mp timely).1).step step timely

theorem length_publishing_le (sound : r.Sound) (once : (publishing later).Nodup)
    (left : ∀ x ∈ publishing later, r.Unresolved x.1 x.2) :
    (publishing later).length ≤ r.nextCall * r.pools.length := by
  have within : (publishing later).toFinset ⊆
      Finset.range r.nextCall ×ˢ Finset.range r.pools.length := by
    intro x mem
    have there := lt_of_unresolved sound (left x (List.mem_toFinset.mp mem))
    simpa using there
  have few := Finset.card_le_card within
  rwa [List.toFinset_card_of_nodup once, Finset.card_product, Finset.card_range,
    Finset.card_range] at few

/-! ## Every call leaves -/

/-- **In a fair run every call of a cancelled route leaves it in the end.** -/
theorem gone_of_fair (runs : Runs s route past r) (cancelled : r.cancelled = true)
    (waits : r.backoff.Waits) (run : Endless act r) (fair : Fair run) (c : Nat) :
    ∃ u, (run.state u).handling? c = none := by
  have reached (t : Nat) : Runs s route (past ++ run.past t) (run.state t) :=
    runs.trans (run.execution t)
  have still (t : Nat) : (run.state t).cancelled = true :=
    cancelled_of_execution (run.execution t) cancelled
  have still_waits (t : Nat) : (run.state t).backoff.Waits := by
    rw [(kept_of_runs (reached t)).backoff, ← (kept_of_runs runs).backoff]
    exact waits
  have works (t : Nat) := work_of_step (sound_of_runs (reached t)) (still t) (still_waits t)
    (run.steps t)
  -- between two steps time changes nothing about what is left
  have in_between (t : Nat) : (run.state (t + 1)).work (run.action (t + 1)).1.now =
      (run.state (t + 1)).work (run.action t).1.now := by
    obtain ⟨later_on, idle⟩ := fair.patient t
    obtain same | passed := Nat.eq_or_lt_of_le later_on
    · exact congrArg (fun now ↦ (run.state (t + 1)).work now) same.symm
    · exact work_of_idle (still (t + 1)) (idle passed) _ _
  have falls (t : Nat) (advances : (run.state t).Advances (run.action t).2) :
      (run.state (t + 1)).work (run.action (t + 1)).1.now <
        (run.state t).work (run.action t).1.now := by
    rw [in_between]
    exact (works t).2 advances
  have progress (t : Nat) (left : (run.state t).handling? c ≠ none) :
      ∃ u, t ≤ u ∧ ((run.state u).handling? c = none ∨
        (run.state (u + 1)).work (run.action (u + 1)).1.now <
          (run.state u).work (run.action u).1.now) := by
    -- a run that is stuck has no job in hand, so there is a step it can make, and that is progress
    by_contra stuck
    have handled (u : Nat) (hu : t ≤ u) : ∃ h, (run.state u).handling? c = some h :=
      Option.ne_none_iff_exists'.mp fun nobody ↦ stuck ⟨u, hu, .inl nobody⟩
    have advances_not (u : Nat) (hu : t ≤ u) : ¬ (run.state u).Advances (run.action u).2 :=
      fun advances ↦ stuck ⟨u, hu, .inr (falls u advances)⟩
    have no_hand (u : Nat) (hu : t ≤ u) (i j : Nat) (job : Job) :
        (run.state u).inHand? i j ≠ some job := by
      intro hand
      obtain ⟨v, hv, answered⟩ := fair.answered u i j job hand
      exact advances_not v (hu.trans hv) (advances_of_answer (run.steps v) answered)
    have can (u : Nat) (hu : t ≤ u) : (run.state u).next? (run.action u).1 ≠ none := by
      obtain ⟨h, found⟩ := handled u hu
      obtain can | ⟨i, j, job, hand⟩ := ready_of_handled (reached u) (still u) found _
      · exact can
      · exact absurd hand (no_hand u hu i j job)
    obtain ⟨u, hu, own⟩ := fair.active t can
    obtain ⟨h, found⟩ := handled u hu
    exact advances_not u hu (advances_of_own (reached u) found own (run.steps u))
  have never_more (t : Nat) (_ : (run.state t).handling? c ≠ none) :
      (run.state (t + 1)).work (run.action (t + 1)).1.now ≤
        (run.state t).work (run.action t).1.now :=
    (in_between t).trans_le (works t).1
  obtain ⟨u, -, gone⟩ := eventually_of_rank (fun t ↦ (run.state t).handling? c = none)
    (fun t ↦ (run.state t).work (run.action t).1.now) never_more progress 0
  exact ⟨u, gone⟩

/-! ## What follows once the token has fired -/

/-- What can be relied on from the moment on at which the token of a route has fired. -/
structure WindDown (route : CompiledRoute) (past : Past) (r : Running) : Prop where
  /-- A call begins at most one more publish to a destination, and only where something is left. -/
  once : ∀ {later : Past} {r' : Running}, Execution act r later r' → Timely later →
    (publishing later).Nodup ∧ ∀ x ∈ publishing later, r.Unresolved x.1 x.2
  /-- So there is a bound on all publishes that are still to begin. -/
  bounded : ∀ {later : Past} {r' : Running}, Execution act r later r' → Timely later →
    (publishing later).length ≤ r.nextCall * route.destinations.length
  /-- If nobody is put off for ever, a call comes to its verdict, with every destination at its end,
  unless its caller leaves. -/
  resolves : ∀ run : Endless act r, Fair run → ∀ {c : Nat} {h : Handling},
    r.handling? c = some h → ∃ u, (run.action u).2 = .abandon c ∨
      (∃ v, .verdict c v ∈ run.outputs u) ∧ ∀ d, d < route.destinations.length →
        ∃ leg e, (run.state u).leg? c d = some leg ∧ leg.phase = .settled e
  /-- And a destination that has refused the message as often as it was asked ends in one of three
  ways: its wait was broken off, the mode gave it up, or a crash took its job. -/
  failing : ∀ {later : Past} {r' : Running}, Execution act r later r' →
    ∀ {c d : Nat} {h : Handling} {leg : Leg} {e : LegEnd}, r'.handling? c = some h →
      h.legs[d]? = some leg → leg.phase = .settled e → AllRefused (replies c d (past ++ later)) →
        e = .failed .cancelled ∨
          (∃ reason, e = .tolerated reason ∧
            GivenUp route.mode h.message h.message (replies c d (past ++ later))) ∨
          e = .failed .laneClosed ∧ ∃ mo ∈ past ++ later, TakenByCrash c d mo

/-- **Once the token of a route has fired, little is left to do, and all of it is done.** -/
theorem wind_down {initial greatest : Duration} (runs : Runs s route past r)
    (cancelled : r.cancelled = true) (backoff : s.backoff = .ofBounds initial greatest)
    (positive : 0 < initial.nanos) : WindDown route past r := by
  have sound := sound_of_runs runs
  have waits : r.backoff.Waits := by
    have same : r.backoff = s.backoff := (kept_of_runs runs).backoff
    rw [same, backoff]
    exact Backoff.waits_ofBounds positive greatest
  have destinations : r.pools.length = route.destinations.length := by
    rw [sound.length_destinations, (kept_of_runs runs).route]
    rfl
  have once {later : Past} {r' : Running} (exec : Execution act r later r')
      (timely : Timely later) :
      (publishing later).Nodup ∧ ∀ x ∈ publishing later, r.Unresolved x.1 x.2 := by
    have last := lastPublishes_of_execution sound cancelled waits exec timely
    constructor
    · refine List.nodup_iff_count_le_one.mpr ?_
      rintro ⟨c, d⟩
      rw [count_publishing]
      exact last.once c d
    · rintro ⟨c, d⟩ mem
      refine last.begun fun nothing ↦ ?_
      have some_publish := List.count_pos_iff.mpr mem
      rw [count_publishing, nothing] at some_publish
      exact absurd some_publish (Nat.not_lt_zero _)
  refine ⟨once, fun exec timely ↦ ?_, fun run fair {c h} found ↦ ?_,
    fun {later r'} exec {c d h leg e} found here phase refused ↦ ?_⟩
  · rw [← destinations]
    exact length_publishing_le sound (once exec timely).1 (once exec timely).2
  · obtain ⟨u, gone⟩ := gone_of_fair runs cancelled waits run fair c
    have reached (t : Nat) := runs.trans (run.execution t)
    obtain ⟨v, abandons | ⟨h', found', settled, told⟩⟩ :=
      leaves_of_gone run (fun t ↦ sound_of_runs (reached t)) found gone
    · exact ⟨v, .inl abandons⟩
    · refine ⟨v, .inr ⟨⟨_, told⟩, fun d hd ↦ ?_⟩⟩
      rw [← length_legs_of_runs (reached v) found'] at hd
      obtain ⟨e, phase⟩ := result?_of_isSome (settled _ (List.getElem_mem hd))
      exact ⟨_, e, leg?_of_found found' (List.getElem?_eq_getElem hd), phase⟩
  · cases ending_of_runs (runs.trans exec) found here phase with
    | published accepted => exact absurd accepted refused.not_accepted
    | tolerated given => exact .inr (.inl ⟨_, rfl, given⟩)
    | cancelled => exact .inl rfl
    | laneClosed mem taken => exact .inr (.inr ⟨rfl, _, mem, taken⟩)

/-- When the token fires, one destination has the message in hand, and the wait of the other is
over. It is tried once more, and both waits are broken off. -/
theorem wind_down_of_race : ∃ past r, ∃ run : Endless act r,
    Runs oneLane { pairOnce with mode := .persistent } past r ∧ Fair run ∧
      publishing (run.past 7) = [(0, 1)] ∧
      (verdicts 0 (run.past 8)).length = 1 ∧
      WindDown { pairOnce with mode := .persistent } past r := by
  have runs := (Execution.refl : Runs oneLane { pairOnce with mode := .persistent } [] _)
    |>.snoc (a := (⟨0, 0⟩, .handle 0 note)) rfl
    |>.snoc (a := (⟨0, 0⟩, .submit 0 0)) rfl
    |>.snoc (a := (⟨0, 0⟩, .submit 0 1)) rfl
    |>.snoc (a := (⟨0, 0⟩, .take 0 0)) rfl
    |>.snoc (a := (⟨0, 0⟩, .take 1 0)) rfl
    |>.snoc (a := (⟨0, 0⟩, .reply 1 0 (.error .closed))) rfl
    |>.snoc (a := (⟨50, 50⟩, .cancel)) rfl
  have backoff : oneLane.backoff = .ofBounds (.ofMillis 50) (.ofMillis 5000) := rfl
  refine ⟨_, _, ?run, runs, ?_⟩
  case run =>
    -- the last step stands first
    exact .ofRest (a := fun _ ↦ (⟨60, 60⟩, .cancel))
      (.snoc (a := (⟨60, 60⟩, .resolve 0))
        (.snoc (a := (⟨60, 60⟩, .breakOff 0 0))
          (.snoc (a := (⟨60, 60⟩, .reply 0 0 (.error .closed)))
            (.snoc (a := (⟨60, 60⟩, .breakOff 0 1))
              (.snoc (a := (⟨60, 60⟩, .reply 1 0 (.error .closed)))
                (.snoc (a := (⟨60, 60⟩, .take 1 0))
                  (.snoc (a := (⟨60, 60⟩, .submit 0 1))
                    (.snoc (a := (⟨60, 60⟩, .wake 0 1)) .refl rfl)
                  rfl) rfl) rfl) rfl) rfl) rfl) rfl) (fun _ ↦ rfl)
  refine ⟨fair_ofRest _ _ (by decide) rfl fun i j ↦ ?_, rfl, rfl,
    wind_down runs rfl backoff (by decide)⟩
  match i, j with
  | 0, 0 | 1, 0 => rfl
  | 0, j + 1 | 1, j + 1 => rfl
  | i + 2, j => rfl

end Running

end MessageBridge
