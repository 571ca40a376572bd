import MessageBridge.Proofs.Egress.Belfry

/-!
# Calls for records, whole and in steps

What a point does in one step can be done in several. A call that waits at the point is one that
listened, looked and sleeps; when it finds its records it wakes, listens anew and looks; and a
publish that is accepted rings at once. So everything that is told in some history of the point is
told in a history in which the steps are apart (`Belfry.leads_of_runs`), and what holds of all of
these holds of the point.
-/

namespace MessageBridge.Memory

open Notice (acceptances)

/-! ## The point without its calls -/

/-- The point without the calls that wait at it. -/
def Egress.alone (e : Egress) : Egress := { e with waits := [] }

/-- Calls that wait play no part in the decision on a publish. -/
theorem Egress.decide?_alone (call : Nat) (e : Egress) :
    e.alone.decide? call = (e.decide? call).map fun (answer, f) ↦ (answer, f.alone) := by
  have same : e.alone.pending? call = e.pending? call := rfl
  unfold decide?
  rw [same]
  cases e.pending? call with
  | none => rfl
  | some p =>
    dsimp only [Option.bind_eq_bind, Option.bind_some, alone]
    split
    · rfl
    · split
      · rfl
      · rfl

theorem Egress.Decision.waits {e f : Egress} {p : PendingPublish} {answer : Except BusError Unit}
    (decided : e.Decision p answer f) : f.waits = e.waits := by
  cases decided <;> rfl

namespace Depot

variable {x y : Depot} {a : Deed} {outputs : List Notice} {w : PendingWait} {call : Nat}

/-- The point and the clock without the calls that wait. -/
def alone (x : Depot) : Depot := { x with egress := x.egress.alone }

/-- Calls that wait are in nobody's way. -/
theorem step_alone (not_waits : a.waits = false) (step : x.step? a = some (y, outputs)) :
    x.alone.step? a = some (y.alone, outputs) ∧ y.egress.waits = x.egress.waits := by
  cases a with
  | publish m =>
    cases closed : x.egress.closed with
    | true =>
      simp only [step?, Egress.begin_of_closed closed] at step
      cases step
      refine ⟨?_, rfl⟩
      simp only [step?, Egress.begin_of_closed (e := x.alone.egress) closed]
      rfl
    | false =>
      simp only [step?, Egress.begin_of_open closed] at step
      cases step
      refine ⟨?_, rfl⟩
      simp only [step?, Egress.begin_of_open (e := x.alone.egress) closed]
      rfl
  | decide call =>
    unfold step? at step
    dsimp only at step
    split at step
    · cases step
    · rename_i p found
      split at step
      · rename_i due
        obtain ⟨⟨result, egress⟩, decided, same⟩ := Option.map_eq_some_iff.mp step
        cases same
        refine ⟨?_, (Egress.decision_of_decide? found decided).waits⟩
        have found' : x.alone.egress.pending? call = some p := found
        have due' : p.due ≤ x.alone.now := due
        simp only [step?, found', if_pos due']
        rw [show x.alone.egress = x.egress.alone from rfl, Egress.decide?_alone, decided]
        rfl
      · cases step
  | failNext _ | failAlways _ | setDelay _ | close | pass _ =>
    cases step
    exact ⟨rfl, rfl⟩
  | await _ _ | reach | expire => cases not_waits

theorem answered_of_acceptances (step : x.step? a = some (y, outputs)) :
    acceptances outputs = [] ∨ ∃ call, outputs = [.answered call (.ok ())] := by
  cases step_of_step? step with
  | turnedAway _ | begun _ => exact .inl rfl
  | decided _ _ decided =>
    cases decided with
    | forced _ | scripted _ _ => exact .inl rfl
    | accepted _ _ => exact .inr ⟨_, rfl⟩
  | aside aside => exact .inl aside.acceptances

/-! ## The calls that wait at the point -/

/-- The call of that name that waits. -/
def wait? (call : Nat) (x : Depot) : Option PendingWait :=
  x.egress.waits.find? fun w ↦ w.call == call

theorem Queued.wait?_of_mem (queued : x.Queued) (mem : w ∈ x.egress.waits) :
    x.wait? w.call = some w := by
  cases found : x.wait? w.call with
  | none => simpa using List.find?_eq_none.mp found w mem
  | some v =>
    have same : v.call = w.call := by simpa using List.find?_some found
    have there := List.mem_of_find?_eq_some found
    rw [List.inj_on_of_nodup_map queued.once there mem same]

theorem Queued.wait?_calls (queued : x.Queued) : x.wait? x.calls = none := by
  refine List.find?_eq_none.mpr fun w mem ↦ ?_
  simpa using Nat.ne_of_lt (queued.begun w mem)

theorem wait?_concat {egress : Egress} {now calls : Nat} (v : PendingWait) (other : Nat) :
    wait? other ⟨{ egress with waits := egress.waits ++ [v] }, now, calls⟩ =
      if other = v.call then (wait? other ⟨egress, now, calls⟩).or (some v)
      else wait? other ⟨egress, now, calls⟩ := by
  rw [wait?, List.find?_append]
  split
  · rename_i same
    subst same
    simp [wait?]
  · rename_i ne
    simp [wait?, Ne.symm ne]

theorem wait?_dismiss (call other : Nat) (x : Depot) :
    (x.dismiss call).wait? other = if other = call then none else x.wait? other := by
  rw [wait?, dismiss, List.find?_filter]
  split
  · rename_i same
    subst same
    exact List.find?_eq_none.mpr fun w _ ↦ by simp
  · rename_i ne
    refine congrArg (List.find? · x.egress.waits) (funext fun w ↦ ?_)
    by_cases own : w.call = other
    · simp [own, ne]
    · simp [own]

end Depot

namespace Belfry

variable {x x' : Depot} {y z : Belfry} {a : Deed} {act : Act} {told outputs : List Notice}
  {target : String} {past : List (Moment Depot Deed Notice)}

/-! ## What one step of the point comes to -/

/-- A history leads there, and this is told in it. -/
def Leads (y : Belfry) (told : List Notice) (z : Belfry) : Prop :=
  ∃ more, Execution step? y more z ∧ Moment.told more = told

theorem Leads.refl (y : Belfry) : y.Leads [] y := ⟨[], .refl, rfl⟩

theorem Leads.snoc {y' : Belfry} (leads : y.Leads told y')
    (step : y'.step? act = some (z, outputs)) : y.Leads (told ++ outputs) z := by
  obtain ⟨more, exec, rfl⟩ := leads
  exact ⟨_, exec.snoc step, by rw [Moment.told_append, Moment.told_singleton]⟩

variable {w : PendingWait} {call : Nat}

theorem leads_of_enough (arrives : y.watchers call = some ⟨w, .arriving⟩)
    (enough : w.count ≤ y.depot.records) : y.Leads [.released call true] (y.put call none) := by
  have finds := step?_look_of_enough (x := y.put call (some ⟨w, .listening y.rings⟩))
    (put_self ..) enough
  rw [put_put] at finds
  exact ((Leads.refl y).snoc (step?_listen arrives)).snoc finds

theorem leads_of_few (arrives : y.watchers call = some ⟨w, .arriving⟩)
    (few : y.depot.records < w.count) :
    y.Leads [] (y.put call (some ⟨w, .asleep y.rings⟩)) := by
  have sleeps := step?_look_of_few (x := y.put call (some ⟨w, .listening y.rings⟩))
    (put_self ..) few
  rw [put_put] at sleeps
  exact ((Leads.refl y).snoc (step?_listen arrives)).snoc sleeps

theorem Leads.trans {y' : Belfry} (first : y.Leads told y') (second : y'.Leads outputs z) :
    y.Leads (told ++ outputs) z := by
  obtain ⟨_, exec, rfl⟩ := first
  obtain ⟨_, exec', rfl⟩ := second
  exact ⟨_, exec.trans exec', Moment.told_append ..⟩

/-- The calls that wait at the point sleep here, and nobody has yet to ring. -/
structure Matches (x : Depot) (y : Belfry) : Prop where
  depot : y.depot = x.alone
  ringers : y.ringers = []
  waits : ∀ call, (y.watchers call).map Watcher.wait = x.wait? call
  asleep : ∀ call v, y.watchers call = some v → ∃ since, v.stance = .asleep since

theorem matches_ofName (target : String) : Matches (.ofName target) (ofName target) :=
  ⟨rfl, rfl, fun _ ↦ rfl, nofun⟩

/-- When one call is changed here and at the point, the others match as before. -/
theorem matches_put {v : Option Watcher} (depot : y.depot = x'.alone) (ringers : y.ringers = [])
    (others : ∀ other, other ≠ call → (y.watchers other).map Watcher.wait = x'.wait? other)
    (asleep : ∀ call v, y.watchers call = some v → ∃ since, v.stance = .asleep since)
    (own : v.map Watcher.wait = x'.wait? call)
    (own_asleep : ∀ u, v = some u → ∃ since, u.stance = .asleep since) :
    Matches x' (y.put call v) := by
  refine ⟨depot, ringers, fun other ↦ ?_, fun other u found ↦ ?_⟩
  · by_cases same : other = call
    · rw [same, put_self]
      exact own
    · rw [put_of_ne same]
      exact others other same
  · by_cases same : other = call
    · rw [same, put_self] at found
      exact own_asleep u found
    · rw [put_of_ne same] at found
      exact asleep other u found

namespace Matches

variable (agree : Matches x y)
include agree

theorem leads_of_deed (not_waits : a.waits = false) (step : x.step? a = some (x', outputs)) :
    ∃ z, y.Leads outputs z ∧ Matches x' z := by
  obtain ⟨step', same⟩ := Depot.step_alone not_waits step
  have waits : ∀ call, (y.watchers call).map Watcher.wait = x'.wait? call := by
    intro call
    rw [agree.waits, Depot.wait?, Depot.wait?, same]
  have goes : y.step? (.deed a) = some
      ({ y with depot := x'.alone, ringers := acceptances outputs },
        outputs.filter fun n ↦ n.accepted?.isNone) := by
    simp only [step?, agree.depot, step', agree.ringers, not_waits, List.nil_append]
    rfl
  rcases Depot.answered_of_acceptances step with none_accepted | ⟨call, rfl⟩
  · have all : outputs.filter (fun n ↦ n.accepted?.isNone) = outputs := by
      refine List.filter_eq_self.mpr fun n mem ↦ ?_
      rw [List.filterMap_eq_nil_iff.mp none_accepted n mem]
      rfl
    rw [all] at goes
    exact ⟨_, (Leads.refl y).snoc goes, ⟨rfl, none_accepted, waits, agree.asleep⟩⟩
  · have rings := step?_ring (x := { y with depot := x'.alone, ringers := [call] })
      (List.mem_singleton_self call)
    exact ⟨_, ((Leads.refl y).snoc goes).snoc rings, ⟨rfl, by simp, waits, agree.asleep⟩⟩

theorem leads_of_await {count timeout : Nat} (queued : x.Queued)
    (step : x.step? (.await count timeout) = some (x', outputs)) :
    ∃ z, y.Leads outputs z ∧ Matches x' z := by
  obtain ⟨depot, rings, ringers, watchers⟩ := y
  obtain ⟨rfl, rfl, waits, asleep⟩ := agree
  let z : Belfry := ⟨{ x.alone with calls := x.calls + 1 }, rings, [], watchers⟩
  have begins : (⟨x.alone, rings, [], watchers⟩ : Belfry).step? (.await count timeout) =
      some (z.put x.calls (some ⟨x.wait count timeout, .arriving⟩), [.awaited x.calls count]) := rfl
  have arrives := put_self x.calls (some ⟨x.wait count timeout, .arriving⟩) z
  cases Depot.waiting_of_step step with
  | other _ _ _ _ _ not_waits => cases not_waits
  | found enough =>
    have returns := ((Leads.refl _).snoc begins).trans (leads_of_enough arrives enough)
    rw [put_put] at returns
    refine ⟨_, returns, matches_put rfl rfl (fun other _ ↦ waits other) asleep ?_ nofun⟩
    exact queued.wait?_calls.symm
  | began few =>
    have sleeps := ((Leads.refl _).snoc begins).trans (leads_of_few arrives few)
    rw [put_put] at sleeps
    refine ⟨_, sleeps, matches_put rfl rfl (fun other ne ↦ ?_) asleep ?_ ?_⟩
    · rw [Depot.wait?_concat]
      exact (waits other).trans (if_neg ne).symm
    · have fresh : Depot.wait? x.calls ⟨x.egress, x.now, x.calls + 1⟩ = none := queued.wait?_calls
      rw [Depot.wait?_concat, fresh]
      exact (if_pos rfl).symm
    · rintro u ⟨⟩
      exact ⟨_, rfl⟩

theorem asleep_of_mem (queued : x.Queued) (mem : w ∈ x.egress.waits) :
    ∃ since, y.watchers w.call = some ⟨w, .asleep since⟩ := by
  have own := (agree.waits w.call).trans (queued.wait?_of_mem mem)
  obtain ⟨⟨v, stance⟩, found, rfl⟩ := Option.map_eq_some_iff.mp own
  obtain ⟨since, asleep⟩ := agree.asleep _ _ found
  exact ⟨since, asleep ▸ found⟩

/-- When a call returns at the point and here, the others match as before. -/
theorem dismiss (call : Nat) : Matches (x.dismiss call) (y.put call none) := by
  refine matches_put ?_ agree.ringers (fun other ne ↦ ?_) agree.asleep ?_ nofun
  · rw [agree.depot]
    rfl
  · rw [Depot.wait?_dismiss, if_neg ne]
    exact agree.waits other
  · rw [Depot.wait?_dismiss, if_pos rfl]
    rfl

theorem leads_of_reached (wakeful : y.Wakeful) (queued : x.Queued) (mem : w ∈ x.egress.waits)
    (enough : w.count ≤ x.records) :
    y.Leads [.released w.call true] (y.put w.call none) := by
  obtain ⟨since, sleeps⟩ := agree.asleep_of_mem queued mem
  have there : w.count ≤ y.depot.records := by
    rw [agree.depot]
    exact enough
  have rung : since < y.rings :=
    ((wakeful _ _ sleeps).rung since rfl there).resolve_right (not_not.mpr agree.ringers)
  have returns := ((Leads.refl y).snoc (step?_wake sleeps rung)).trans
    (leads_of_enough (put_self ..) there)
  rwa [put_put] at returns

theorem leads_of_late (queued : x.Queued) (mem : w ∈ x.egress.waits) (late : w.due ≤ x.now) :
    y.Leads [.released w.call false] (y.put w.call none) := by
  obtain ⟨since, sleeps⟩ := agree.asleep_of_mem queued mem
  have there : w.due ≤ y.depot.now := by
    rw [agree.depot]
    exact late
  exact (Leads.refl y).snoc (step?_giveUp sleeps there)

/-- Whatever happens at the point can happen here in steps. -/
theorem leads_of_step (wakeful : y.Wakeful) (queued : x.Queued)
    (step : x.step? a = some (x', outputs)) : ∃ z, y.Leads outputs z ∧ Matches x' z := by
  cases about : a.waits with
  | false => exact agree.leads_of_deed about step
  | true =>
    cases Depot.waiting_of_step step with
    | found _ | began _ => exact agree.leads_of_await queued step
    | reached mem enough =>
      exact ⟨_, agree.leads_of_reached wakeful queued mem enough, agree.dismiss _⟩
    | late mem late => exact ⟨_, agree.leads_of_late queued mem late, agree.dismiss _⟩
    | passes => cases about
    | other _ _ _ _ _ not_waits => cases about.symm.trans not_waits

end Matches

/-- **Whatever is told in a history of a point is told in one in which the steps are apart.** -/
theorem leads_of_runs (runs : Depot.Runs target past x) :
    ∃ y, (ofName target).Leads (Moment.told past) y ∧ Matches x y := by
  induction runs with
  | refl => exact ⟨_, .refl _, matches_ofName target⟩
  | snoc before step ih =>
    obtain ⟨y, leads, agree⟩ := ih
    have wakeful : y.Wakeful := by
      obtain ⟨_, exec, -⟩ := leads
      exact wakeful_of_runs exec
    obtain ⟨z, leads', agree'⟩ := agree.leads_of_step wakeful (Depot.queued_of_runs before) step
    rw [Moment.told_append, Moment.told_singleton]
    exact ⟨z, leads.trans leads', agree'⟩

end Belfry

/-! ## The calls -/

/-- **No wakeup is lost.** Calls for records are answered rightly and in time at a point, where a
call looks and begins to wait in one step. They are so where the steps are apart; there, whatever
the schedule, a call whose number is reached or whose time is over can go on to return. And what is
told in a history of the point is told in one in which the steps are apart. -/
theorem no_wakeup_lost (target : String) (count timeout : Nat) :
    (∀ (earlier : List (Moment Depot Deed Notice)) (mo : Moment Depot Deed Notice)
      (later : List (Moment Depot Deed Notice)) (x : Depot),
      Depot.Runs target (earlier ++ mo :: later) x → mo.action = .await count timeout →
        Depot.Prompt later → Timely id (mo.before.wait count timeout) mo later x) ∧
    (∀ (earlier : List (Moment Belfry Belfry.Act Notice)) (mo : Moment Belfry Belfry.Act Notice)
      (later : List (Moment Belfry Belfry.Act Notice)) (x : Belfry),
      Belfry.Runs target (earlier ++ mo :: later) x → mo.action = .await count timeout →
        Belfry.Unmissed (mo.before.depot.wait count timeout) mo later x) ∧
    ∀ (past : List (Moment Depot Deed Notice)) (x : Depot), Depot.Runs target past x →
      ∃ y, (Belfry.ofName target).Leads (Moment.told past) y ∧ Belfry.Matches x y :=
  ⟨fun _ _ _ _ runs awaits prompt ↦ Depot.timely_of_await runs awaits prompt,
    fun _ _ _ _ runs awaits ↦ Belfry.unmissed_of_await runs awaits,
    fun _ _ runs ↦ Belfry.leads_of_runs runs⟩

/-- A call at a point that gets its record in time; and where the steps are apart, a call for two
that sleeps when the first comes, and has begun to listen again but not looked when the second does,
at the same time. -/
theorem no_wakeup_lost_of_race :
    (∃ (earlier : List (Moment Depot Deed Notice)) (mo : Moment Depot Deed Notice)
      (later : List (Moment Depot Deed Notice)) (x : Depot),
      Depot.Runs "out" (earlier ++ mo :: later) x ∧ mo.action = .await 2 20 ∧
        Depot.Prompt later ∧ Timely id (mo.before.wait 2 20) mo later x ∧
        (∃ y, (Belfry.ofName "out").Leads (Moment.told (earlier ++ mo :: later)) y ∧
          Belfry.Matches x y) ∧
        Moment.told later = [.answered 0 (.ok ()), .answered 1 (.ok ()), .released 2 true] ∧
        x.now = 5) ∧
    ∃ (earlier : List (Moment Belfry Belfry.Act Notice)) (mo : Moment Belfry Belfry.Act Notice)
      (later : List (Moment Belfry Belfry.Act Notice)) (x : Belfry),
      Belfry.Runs "out" (earlier ++ mo :: later) x ∧ mo.action = .await 2 20 ∧
        Belfry.Prompt later ∧ Timely Belfry.depot (mo.before.depot.wait 2 20) mo later x ∧
        Moment.told later = [.answered 0 (.ok ()), .released 2 true, .answered 1 (.ok ())] ∧
        x.depot.now = 5 := by
  obtain ⟨whole, apart, finer⟩ := no_wakeup_lost "out" 2 20
  refine ⟨?_, ?_⟩
  · have runs := (Execution.refl : Depot.Runs "out" [] (Depot.ofName "out"))
      |>.snoc (a := .setDelay 5) rfl
      |>.snoc (a := .publish ⟨"x".toUTF8, []⟩) rfl
      |>.snoc (a := .publish ⟨"y".toUTF8, []⟩) rfl
      |>.snoc (a := .await 2 20) rfl
      |>.snoc (a := .pass 5) rfl
      |>.snoc (a := .decide 0) rfl
      |>.snoc (a := .decide 1) rfl
      |>.snoc (a := .reach) rfl
    have split : Depot.Runs "out" ([_, _, _] ++ _ :: [_, _, _, _]) _ := runs
    refine ⟨_, _, _, _, split, rfl, ?prompt, whole _ _ _ _ split rfl ?prompt, finer _ _ split, rfl,
      rfl⟩
    intro mo mem millis passes
    simp only [List.mem_cons, List.not_mem_nil, or_false] at mem
    rcases mem with rfl | rfl | rfl | rfl
    any_goals cases passes
    refine ⟨rfl, rfl, fun v found ↦ ?_⟩
    cases List.mem_singleton.mp found
    decide
  · have runs := (Execution.refl : Belfry.Runs "out" [] (Belfry.ofName "out"))
      |>.snoc (a := .deed (.setDelay 5)) rfl
      |>.snoc (a := .deed (.publish ⟨"x".toUTF8, []⟩)) rfl
      |>.snoc (a := .deed (.publish ⟨"y".toUTF8, []⟩)) rfl
      |>.snoc (a := .await 2 20) rfl
      |>.snoc (a := .listen 2) rfl
      |>.snoc (a := .look 2) rfl
      |>.snoc (a := .deed (.pass 5)) rfl
      |>.snoc (a := .deed (.decide 0)) rfl
      |>.snoc (a := .ring 0) rfl
      |>.snoc (a := .wake 2) rfl
      |>.snoc (a := .listen 2) rfl
      |>.snoc (a := .deed (.decide 1)) rfl
      |>.snoc (a := .look 2) rfl
      |>.snoc (a := .ring 1) rfl
    have split : Belfry.Runs "out" ([_, _, _] ++ _ :: [_, _, _, _, _, _, _, _, _, _]) _ := runs
    refine ⟨_, _, _, _, split, rfl, ?rests, (apart _ _ _ _ split rfl).timely ?rests, rfl, rfl⟩
    intro mo mem millis passes
    simp only [List.mem_cons, List.not_mem_nil, or_false] at mem
    rcases mem with rfl | rfl | rfl | rfl | rfl | rfl | rfl | rfl | rfl | rfl
    any_goals cases passes
    refine Belfry.atRest_iff.mpr ⟨rfl, fun call v found ↦ ?_⟩
    by_cases own : call = 2
    · subst own
      cases found
      exact ⟨⟨0, rfl, by decide⟩, by decide, by decide⟩
    · simp [Belfry.put, Belfry.ofName, Depot.ofName, own] at found

end MessageBridge.Memory
