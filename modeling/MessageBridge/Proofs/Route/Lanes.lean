import MessageBridge.Proofs.Lane.Relabel
import MessageBridge.Proofs.Lane.Waiters
import MessageBridge.Proofs.Route.Story

/-!
# The lanes of a route

The pools of a running route are driven by its legs and workers. Each of them goes through exactly
such changes as any pool with submitters does that come and go by themselves: whatever happens to a
route, one can number the jobs of a pool and find an execution of the pool on its own in which the
same publishes begin and the same are answered. The submitters that still wait there are those whose
calls are handled. So all that is proved of lanes and their submitters holds of routes.
-/

namespace MessageBridge.Running

variable {s : EngineSettings} {route : CompiledRoute} {past : Past} {r r' : Running} {clock : Clock}
  {a : Action} {outputs : List Output} {i j : Nat}

/-! ## What the bus sees of a worker -/

/-- The job that a worker begins to publish in a step. -/
def beginning (i j : Nat) (mo : Moment Running (Clock × Action) Output) : List Job :=
  mo.outputs.filterMap fun
    | .publish i' j' call m => if i' = i ∧ j' = j then some ⟨call, m⟩ else none
    | _ => none

/-- The publish of a worker that the bus answers in a step. -/
def finishing (i j : Nat) (mo : Moment Running (Clock × Action) Output) :
    List (Job × Except BusError Unit) :=
  match mo.action.2 with
  | .reply i' j' answer =>
    if i' = i ∧ j' = j then ((mo.before.inHand? i j).map fun job ↦ (job, answer)).toList else []
  | _ => []

/-- The publishes that a worker has begun, in order. -/
def begun (i j : Nat) (past : Past) : List Job := past.flatMap (beginning i j)

/-- The publishes of a worker that the bus has answered, in order. -/
def finished (i j : Nat) (past : Past) : List (Job × Except BusError Unit) :=
  past.flatMap (finishing i j)

theorem beginning_eq_nil (step : r.step? clock a = some (r', outputs)) (idle : a ≠ .take i j) :
    beginning i j ⟨r, (clock, a), r', outputs⟩ = [] := by
  rw [beginning, List.filterMap_eq_nil_iff]
  intro o told
  cases o with
  | publish i' j' call m =>
    refine if_neg ?_
    rintro ⟨rfl, rfl⟩
    exact idle (caused_of_step step _ told).1
  | _ => rfl

theorem finishing_eq_nil (silent : ∀ answer, a ≠ .reply i j answer) :
    finishing i j ⟨r, (clock, a), r', outputs⟩ = [] := by
  cases a with
  | reply i' j' answer =>
    refine if_neg ?_
    rintro ⟨rfl, rfl⟩
    exact silent answer rfl
  | _ => rfl

/-! ## Tallies -/

/-- The steps of a pool on its own show the same publishes as those of the route. -/
structure Tallies (i : Nat) (past : Past) (own : List (Service.Event Job)) : Prop where
  begun : ∀ j, (Service.begun j own).map Submission.job = begun i j past
  finished : ∀ j,
    (Service.finished j own).map (Prod.map Submission.job id) = finished i j past
  crashed : ∀ {j e}, e ∈ own → e.action = .crash j → ∃ mo ∈ past, mo.action.2 = .crash i j

theorem Tallies.append {later : Past} {own more : List (Service.Event Job)}
    (first : Tallies i past own) (second : Tallies i later more) :
    Tallies i (past ++ later) (own ++ more) where
  begun j := by
    rw [Service.begun, List.flatMap_append, List.map_append, Running.begun, List.flatMap_append]
    exact congrArg₂ _ (first.begun j) (second.begun j)
  finished j := by
    rw [Service.finished, List.flatMap_append, List.map_append, Running.finished,
      List.flatMap_append]
    exact congrArg₂ _ (first.finished j) (second.finished j)
  crashed he crash := by
    rcases List.mem_append.mp he with he | he
    · obtain ⟨mo, hmo, same⟩ := first.crashed he crash
      exact ⟨mo, List.mem_append_left _ hmo, same⟩
    · obtain ⟨mo, hmo, same⟩ := second.crashed he crash
      exact ⟨mo, List.mem_append_right _ hmo, same⟩

/-- Steps in which no worker takes a job, hears of one or crashes show nothing. -/
theorem tallies_of_quiet {S S' : Service Job} {more : List (Service.Event Job)}
    (step : r.step? clock a = some (r', outputs)) (idle : ∀ j, a ≠ .take i j)
    (silent : ∀ j answer, a ≠ .reply i j answer) (run : Execution Service.step? S more S')
    (quiet : ∀ e ∈ more, ∀ j, e.action ≠ .take j ∧ (∀ x, e.action ≠ .reply j x) ∧
      e.action ≠ .crash j) : Tallies i [⟨r, (clock, a), r', outputs⟩] more where
  begun j := by
    have nothing : Service.begun j more = [] := by
      rw [Service.begun, List.flatMap_eq_nil_iff]
      intro e he
      obtain ⟨_, _, -, -, own_step, -⟩ := run.at_moment he
      exact Service.beginning_eq_nil own_step (quiet e he j).1
    rw [nothing, Running.begun, List.flatMap_singleton, beginning_eq_nil step (idle j)]
    rfl
  finished j := by
    have nothing : Service.finished j more = [] := by
      rw [Service.finished, List.flatMap_eq_nil_iff]
      exact fun e he ↦ Service.finishing_eq_nil (quiet e he j).2.1
    rw [nothing, Running.finished, List.flatMap_singleton, finishing_eq_nil (silent j)]
    rfl
  crashed {j e} he crash := absurd crash (quiet e he j).2.2

/-- One step of each shows the same if the workers begin, finish and crash over the same. -/
theorem tallies_of_one {mo : Moment Running (Clock × Action) Output} {e : Service.Event Job}
    (begins : ∀ j, (Service.beginning j e).map Submission.job = beginning i j mo)
    (finishes : ∀ j, (Service.finishing j e).map (Prod.map Submission.job id) = finishing i j mo)
    (crashes : ∀ j, e.action = .crash j → mo.action.2 = .crash i j) : Tallies i [mo] [e] where
  begun j := by
    rw [Service.begun, Running.begun, List.flatMap_singleton, List.flatMap_singleton, begins]
  finished j := by
    rw [Service.finished, Running.finished, List.flatMap_singleton, List.flatMap_singleton,
      finishes]
  crashed he crash := by
    rw [List.mem_singleton.mp he] at crash
    exact ⟨mo, List.mem_singleton_self mo, crashes _ crash⟩

theorem tallies_take {S : Service Job} {p p' : Pool Job} {job : Job}
    (same : S.pool.map Submission.job = p) (step : r.take? i j = some (r', outputs))
    (hp : r.pools[i]? = some p) (taken : p.take? j = some (job, p')) :
    ∃ S' outs, S.step? (.take j) = some (S', outs) ∧ S'.pool.map Submission.job = p' ∧
      Tallies i [⟨r, (clock, .take i j), r', outputs⟩] [⟨S, .take j, S', outs⟩] := by
  obtain ⟨q, job', q', hq, took, -, rfl⟩ := take?_cases step
  rw [hp] at hq
  cases hq
  rw [taken] at took
  cases took
  rw [← same, Pool.take?_map, Option.map_eq_some_iff] at taken
  obtain ⟨⟨x, pool⟩, own_take, pair⟩ := taken
  cases pair
  have serve : S.step? (.take j) = some ({ S with pool }, [.publish j x]) := by
    simp [Service.step?, own_take]
  refine ⟨_, _, serve, rfl, tallies_of_one (fun j' ↦ ?_) (fun j' ↦ ?_) (by simp)⟩
  · by_cases here : j = j' <;> simp [Service.beginning, beginning, here]
  · rw [Service.finishing_eq_nil (by simp), finishing_eq_nil (by simp)]
    rfl

theorem tallies_reply {S : Service Job} {p p' : Pool Job} {job : Job}
    {answer : Except BusError Unit} (same : S.pool.map Submission.job = p)
    (step : r.step? clock (.reply i j answer) = some (r', outputs)) (hp : r.pools[i]? = some p)
    (finished : p.finish? j = some (job, p')) :
    ∃ S' outs, S.step? (.reply j answer) = some (S', outs) ∧ S'.pool.map Submission.job = p' ∧
      Tallies i [⟨r, (clock, .reply i j answer), r', outputs⟩]
        [⟨S, .reply j answer, S', outs⟩] := by
  have hand := inHand?_of_finish? hp finished
  rw [← same, Pool.finish?_map, Option.map_eq_some_iff] at finished
  obtain ⟨⟨x, pool⟩, own_finish, pair⟩ := finished
  cases pair
  have serve : S.step? (.reply j answer) =
      some (S.settle pool [x.number] (jobAnswer answer)) := by
    simp [Service.step?, own_finish]
  obtain ⟨l, l', hl, own_hand, -⟩ := Pool.finish?_eq_some.mp own_finish
  refine ⟨_, _, serve, rfl, tallies_of_one (fun j' ↦ ?_) (fun j' ↦ ?_) (by simp)⟩
  · rw [Service.beginning_eq_nil serve (by simp), beginning_eq_nil step (by simp)]
    rfl
  · by_cases here : j = j'
    · subst here
      rw [Service.finishing_reply hl (Lane.finish?_eq_some.mp own_hand).1]
      simp [finishing, hand]
    · rw [Service.finishing_eq_nil (by simp [here]), finishing_eq_nil (by simp [here])]
      rfl

theorem tallies_crash {S : Service Job} {p p' : Pool Job} {lost : List Job}
    (same : S.pool.map Submission.job = p)
    (step : r.step? clock (.crash i j) = some (r', outputs))
    (crashed : p.crash? j = some (lost, p')) :
    ∃ S' outs, S.step? (.crash j) = some (S', outs) ∧ S'.pool.map Submission.job = p' ∧
      Tallies i [⟨r, (clock, .crash i j), r', outputs⟩] [⟨S, .crash j, S', outs⟩] := by
  rw [← same, Pool.crash?_map, Option.map_eq_some_iff] at crashed
  obtain ⟨⟨gone, pool⟩, own_crash, pair⟩ := crashed
  cases pair
  have serve : S.step? (.crash j) =
      some (S.settle pool (gone.map Submission.number) .lost) := by
    simp [Service.step?, own_crash]
  refine ⟨_, _, serve, rfl, tallies_of_one (fun j' ↦ ?_) (fun j' ↦ ?_) fun j' crash ↦ ?_⟩
  · rw [Service.beginning_eq_nil serve (by simp), beginning_eq_nil step (by simp)]
    rfl
  · rw [Service.finishing_eq_nil (by simp), finishing_eq_nil (by simp)]
    rfl
  · cases crash
    rfl

/-! ## Serving -/

/-- A pool of a route that has gone through an execution of its own. -/
structure Served (s : EngineSettings) (past : Past) (r : Running) (i : Nat) (p : Pool Job)
    (own : List (Service.Event Job)) (S : Service Job) : Prop where
  exec : Execution Service.step? (.ofSettings s p.destination) own S
  /-- It is the pool of the route, up to the numbers. -/
  pool : S.pool.map Submission.job = p
  /-- Those submitters wait whose calls are handled. -/
  waits : ∀ x ∈ S.pool.jobs, x.number ∈ S.waiters ↔ (r.handling? x.job.call).isSome = true
  tallies : Tallies i past own

section Steps

variable {p p' : Pool Job} {own more : List (Service.Event Job)} {S S' : Service Job}

theorem Served.jobs (served : Served s past r i p own S) (hp : r.pools[i]? = some p) :
    r.jobs i = S.pool.jobs.map Submission.job := by
  rw [jobs_of_pool hp, ← served.pool, Pool.jobs_map]

theorem handled_iff_of_step (sound : r.Sound) (step : r.step? clock a = some (r', outputs))
    {c : Nat} (old : c < r.nextCall) (stays : a ≠ .abandon c) (open_ : a ≠ .resolve c) :
    (r'.handling? c).isSome = true ↔ (r.handling? c).isSome = true := by
  constructor
  · intro after
    obtain ⟨h', found⟩ := Option.isSome_iff_exists.mp after
    obtain ⟨h, before, -⟩ | ⟨m, m', rfl, -⟩ := sound.handling_of_step step found
    · rw [before]
      rfl
    · exact absurd (arrival_cases step).1 (Nat.not_le.mpr old)
  · intro before
    obtain ⟨h, found⟩ := Option.isSome_iff_exists.mp before
    obtain ⟨-, left | left, -⟩ | ⟨h', found', -⟩ := (effect_of_step step).handled sound found
    · exact absurd left stays
    · exact absurd left open_
    · rw [found']
      rfl

theorem Served.idle (served : Served s past r i p own S) (runs : Runs s route past r)
    (step : r.step? clock a = some (r', outputs)) (hp : r.pools[i]? = some p)
    (idle : ∀ j, a ≠ .take i j) (silent : ∀ j answer, a ≠ .reply i j answer)
    (stays : ∀ c, a ≠ .abandon c ∧ a ≠ .resolve c) :
    Served s (past ++ [⟨r, (clock, a), r', outputs⟩]) r' i p own S := by
  refine ⟨served.exec, served.pool, fun x hx ↦ ?_, ?_⟩
  · have sound := sound_of_runs runs
    have mem : x.job ∈ r.jobs i := by
      rw [served.jobs hp]
      exact List.mem_map_of_mem hx
    exact (served.waits x hx).trans (handled_iff_of_step sound step (sound.job_lt mem)
      (stays _).1 (stays _).2).symm
  · have stands : Execution Service.step? S [] S := .refl
    have same := served.tallies.append (tallies_of_quiet step idle silent stands (by simp))
    rwa [List.append_nil] at same

theorem Served.one {b : ServiceAction Job} {outs : List (ServiceOutput Job)}
    (served : Served s past r i p own S) (runs : Runs s route past r)
    (step : r.step? clock a = some (r', outputs)) (hp : r.pools[i]? = some p)
    (stays : ∀ c, a ≠ .abandon c ∧ a ≠ .resolve c) (serve : S.step? b = some (S', outs))
    (leaves : ∀ n, b ≠ .abandon n)
    (comes : ∀ job, b = .submit job → (r.handling? job.call).isSome = true)
    (pool : S'.pool.map Submission.job = p') (same : p'.destination = p.destination)
    (tallies : Tallies i [⟨r, (clock, a), r', outputs⟩] [⟨S, b, S', outs⟩]) :
    Served s (past ++ [⟨r, (clock, a), r', outputs⟩]) r' i p' (own ++ [⟨S, b, S', outs⟩]) S' := by
  refine ⟨?_, pool, fun x hx ↦ ?_, served.tallies.append tallies⟩
  · rw [same]
    exact served.exec.snoc serve
  · have sound := sound_of_runs runs
    -- whoever waited before has a call that is as little new as its job
    have handled {c : Nat} (old : c < r.nextCall) :=
      handled_iff_of_step sound step old (stays c).1 (stays c).2
    obtain ⟨j, l', hl', hx⟩ := Pool.lane_of_mem_jobs hx
    obtain ⟨l, hl, before, waits⟩ | ⟨job, rfl, rfl, waits⟩ :=
      Service.stays_of_step served.exec serve (leaves _) hl' hx
    · have mem : x.job ∈ r.jobs i := by
        rw [served.jobs hp]
        exact List.mem_map_of_mem (Pool.mem_jobs hl before)
      exact (waits.trans (served.waits x (Pool.mem_jobs hl before))).trans
        (handled (sound.job_lt mem)).symm
    · have here := comes job rfl
      obtain ⟨h, found⟩ := Option.isSome_iff_exists.mp here
      exact ⟨fun _ ↦ (handled (sound.handling_lt found)).mpr here, fun _ ↦ waits⟩

theorem Served.leave (served : Served s past r i p own S) {c : Nat}
    (which : a = .abandon c ∨ a = .resolve c) (step : r.step? clock a = some (r', outputs)) :
    ∃ own' S', Served s (past ++ [⟨r, (clock, a), r', outputs⟩]) r' i
      (p.withdraw fun j ↦ j.call == c) own' S' := by
  have left : r' = r.withoutHandling c := by
    rcases which with rfl | rfl
    · exact (abandon_eq_some.mp step).2.1
    · obtain ⟨-, -, -, left, -⟩ := resolve?_cases step
      exact left
  subst left
  obtain ⟨more, S', run, left, pool, waiters⟩ :=
    Service.leave served.exec fun x ↦ x.job.call == c
  refine ⟨own ++ more, S', served.exec.trans run, ?_, fun x hx ↦ ?_, served.tallies.append ?_⟩
  · rw [pool, ← served.pool, Pool.withdraw_map]
    rfl
  · rw [pool] at hx
    have before := (Pool.jobs_withdraw_sublist _ _).subset hx
    rw [waiters x before, served.waits x before, handling?_withoutHandling]
    by_cases here : x.job.call = c
    · simp [here]
    · simp [here]
  · refine tallies_of_quiet step ?_ ?_ run fun e he j ↦ ?_
    · rcases which with rfl | rfl <;> simp
    · rcases which with rfl | rfl <;> simp
    · obtain ⟨n, same⟩ := left e he
      simp [same]

/-- **Whatever a route does, each of its pools can do on its own.** -/
theorem Served.step (served : Served s past r i p own S) (runs : Runs s route past r)
    (step : r.step? clock a = some (r', outputs)) (hp : r.pools[i]? = some p)
    (sees : PoolStep r i a p p') :
    ∃ own' S', Served s (past ++ [⟨r, (clock, a), r', outputs⟩]) r' i p' own' S' := by
  have dest : p'.destination = p.destination := by
    obtain rfl | move := sees.move
    · rfl
    · exact move.moved.destination
  have quiet {b : ServiceAction Job} {S' : Service Job} {outs : List (ServiceOutput Job)}
      (idle : ∀ j, a ≠ .take i j) (silent : ∀ j answer, a ≠ .reply i j answer)
      (serve : S.step? b = some (S', outs))
      (calm : ∀ j, b ≠ .take j ∧ (∀ x, b ≠ .reply j x) ∧ b ≠ .crash j) :
      Tallies i [⟨r, (clock, a), r', outputs⟩] [⟨S, b, S', outs⟩] :=
    tallies_of_quiet step idle silent (Execution.refl.snoc serve) (by simpa using calm)
  cases sees with
  | same stays idle =>
    exact ⟨own, S, served.idle runs step hp (fun j ↦ (idle j).1) (fun j ↦ (idle j).2) stays⟩
  | leave which => exact served.leave which step
  | @submit call h _ found =>
    obtain ⟨S', outs, serve, pool⟩ : ∃ S' outs,
        S.step? (.submit ⟨call, h.message⟩) = some (S', outs) ∧
          S'.pool = (S.pool.submit ⟨S.next, ⟨call, h.message⟩⟩).1 := by
      simp only [Service.step?]
      split <;> exact ⟨_, _, rfl, rfl⟩
    refine ⟨_, S', served.one runs step hp (by simp) serve (by simp) ?_ ?_ dest
      (quiet (by simp) (by simp) serve (by simp))⟩
    · intro job same
      cases same
      rw [found]
      rfl
    · have relabelled := Pool.submit_map Submission.job S.pool ⟨S.next, ⟨call, h.message⟩⟩
      rw [served.pool] at relabelled
      rw [pool, relabelled]
      rfl
  | take taken =>
    obtain ⟨S', outs, serve, pool, tallies⟩ := tallies_take served.pool step hp taken
    exact ⟨_, S', served.one runs step hp (by simp) serve (by simp) (by simp) pool dest tallies⟩
  | finish finished =>
    obtain ⟨S', outs, serve, pool, tallies⟩ := tallies_reply served.pool step hp finished
    exact ⟨_, S', served.one runs step hp (by simp) serve (by simp) (by simp) pool dest tallies⟩
  | crash crashed =>
    obtain ⟨S', outs, serve, pool, tallies⟩ := tallies_crash served.pool step crashed
    exact ⟨_, S', served.one runs step hp (by simp) serve (by simp) (by simp) pool dest tallies⟩
  | @drain j _ _ _ drained =>
    rw [← served.pool, Pool.drain?_map, Option.map_eq_some_iff] at drained
    obtain ⟨⟨away, pool⟩, own_drain, pair⟩ := drained
    cases pair
    have serve : S.step? (.drain j) =
        some (S.settle pool (away.map Submission.number) .lost) := by
      simp [Service.step?, own_drain]
    exact ⟨_, _, served.one runs step hp (by simp) serve (by simp) (by simp) rfl dest
      (quiet (by simp) (by simp) serve (by simp))⟩
  | @retire j _ _ ended =>
    rw [← served.pool, Pool.end?_map, Option.map_eq_some_iff] at ended
    obtain ⟨pool, own_end, rfl⟩ := ended
    have serve : S.step? (.retire j) = some ({ S with pool }, []) := by
      simp [Service.step?, own_end]
    exact ⟨_, _, served.one runs step hp (by simp) serve (by simp) (by simp) rfl dest
      (quiet (by simp) (by simp) serve (by simp))⟩
  | close =>
    have serve : S.step? .close = some ({ S with pool := { S.pool with closing := true } }, []) :=
      rfl
    refine ⟨_, _, served.one runs step hp (by simp) serve (by simp) (by simp) ?_ dest
      (quiet (by simp) (by simp) serve (by simp))⟩
    rw [← served.pool]
    rfl
  | release =>
    obtain ⟨-, none_left, -, -⟩ := release?_eq_some.mp step
    -- whoever waits for a place would have a handling, of which none is left
    have nobody : (S.pool.lanes.all fun l ↦ l.queue.waiting.isEmpty) = true := by
      rw [List.all_eq_true]
      intro l hl
      rw [List.isEmpty_iff, List.eq_nil_iff_forall_not_mem]
      intro x hx
      obtain ⟨j, hj⟩ := List.mem_iff_getElem?.mp hl
      have mem := Pool.mem_jobs hj (List.mem_append_right _ (List.mem_append_right _ hx))
      have handled := (served.waits x mem).mp (Service.waits_of_waiting served.exec hj hx)
      rw [handling?, none_left] at handled
      cases handled
    have serve : S.step? .release = some ({ S with pool := S.pool.release }, []) := if_pos nobody
    refine ⟨_, _, served.one runs step hp (by simp) serve (by simp) (by simp) ?_ dest
      (quiet (by simp) (by simp) serve (by simp))⟩
    rw [← served.pool, Pool.release_map]

end Steps

/-! ## Whole runs -/

/-- **Every pool of every route is served as a pool on its own.** -/
theorem served_of_runs (runs : Runs s route past r) {p : Pool Job} (hp : r.pools[i]? = some p) :
    ∃ own S, Served s past r i p own S := by
  induction runs generalizing p with
  | refl =>
    rw [ofRoute, List.getElem?_map, Option.map_eq_some_iff] at hp
    obtain ⟨d, -, rfl⟩ := hp
    refine ⟨[], .ofSettings s d, .refl, Pool.map_ofSettings _ s d, fun x hx ↦ ?_,
      fun j ↦ rfl, fun j ↦ rfl, fun he ↦ absurd he List.not_mem_nil⟩
    rw [Service.ofSettings, Pool.jobs_ofSettings] at hx
    cases hx
  | snoc runs step ih =>
    obtain ⟨p₀, hp₀, sees⟩ := (poolSteps_of_step step).2 hp
    obtain ⟨own, S, served⟩ := ih hp₀
    exact served.step runs step hp₀ sees

end MessageBridge.Running
