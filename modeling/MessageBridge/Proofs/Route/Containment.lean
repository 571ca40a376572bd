import MessageBridge.Proofs.Lane.Twin
import MessageBridge.Proofs.Route.Joining

/-!
# Crashes are contained

A crash costs what is in its lane and what comes to it later, and nothing else. All of these jobs
are answered, since the queue of a worker goes down with it; all other lanes of the pool work on as
before; and a stop gets by the worker that is gone like by any other one.
-/

namespace MessageBridge.Service

variable {s : EngineSettings} {d : Destination} {past : List (Event Job)} {S : Service Job}

/-- What can be relied on in a pool whose workers crash. -/
structure Containment (s : EngineSettings) (d : Destination) (past : List (Event Job))
    (S : Service Job) : Prop where
  /-- A job that is in a lane when its worker crashes, be it in hand, accepted or waiting for a
  place, is lost. Its submitter hears so in the same step if it still waits, and nothing else at
  any time. -/
  lost : ∀ {e : Event Job} {i : Nat} {l : Lane (Submission Job)} {x : Submission Job}, e ∈ past →
    e.action = .crash i → e.before.pool.lanes[i]? = some l → x ∈ l.jobs →
    Told x.number .lost past ∧ x.number ∉ e.after.waiters ∧
      answering x.number e = if x.number ∈ e.before.waiters then [.lost] else []
  /-- Whoever comes to the lane after the crash is told that its job is lost, and the job is
  published nowhere. -/
  refused : ∀ {earlier rest : List (Event Job)} {e : Event Job} {i : Nat} {x : Submission Job},
    past = earlier ++ e :: rest → e.action = .crash i → (i, x) ∈ issued rest →
    answers x.number past = [.lost] ∧ ∀ j, x ∉ begun j past
  /-- A crash leaves every other lane as it is, and tells its submitters nothing. -/
  apart : ∀ {e : Event Job} {i j : Nat}, e ∈ past → e.action = .crash i → j ≠ i →
    e.after.pool.lanes[j]? = e.before.pool.lanes[j]? ∧
      ∀ {x : Submission Job}, (j, x) ∈ issued past → answering x.number e = []
  /-- Nobody else can tell what becomes of a lane: two runs in which all others do the same leave
  every other lane the same, with the same history, and tell its submitters the same. -/
  indifferent : ∀ {i : Nat} {past' : List (Event Job)} {S' : Service Job},
    Execution step? (ofSettings s d) past' S' → others i past = others i past' →
      Indistinct i past past' S S'
  /-- There is always such a run in which the worker of the lane never crashes. -/
  twin : ∀ i, ∃ past' S', Execution step? (ofSettings s d) past' S' ∧
    others i past = others i past' ∧ ∀ e ∈ past', e.action ≠ .crash i
  /-- A lane that has seen no crash itself keeps its promises. -/
  unharmed : ∀ {j : Nat} {l : Lane (Submission Job)}, S.pool.lanes[j]? = some l →
    (∀ e ∈ past, e.action ≠ .crash j) → Unharmed past j l
  /-- Nobody waits for a worker that is gone. -/
  awake : ∀ {i : Nat} {l : Lane (Submission Job)} {x : Submission Job},
    S.pool.lanes[i]? = some l → l.gone = true → (i, x) ∈ issued past → x.number ∉ S.waiters
  /-- A pool that has been told to close comes to its end, -/
  drains : S.pool.closing = true → ∀ {run : Endless step? S}, Fair run →
    ∃ t, ∀ u, t ≤ u → Drained (past ++ run.past u) (run.state u)
  /-- and the stop of a route with this pool, once its workers are being joined, returns unless
  somebody lets go of the route before. -/
  joins : ∀ {route : CompiledRoute} {history : Running.Past} {r : Running} {i : Nat}
    {p : Pool Job} {places : List (Nat × Nat)}, Running.Runs s route history r →
    Running.Served s history r i p past S → r.phase = .joining places →
    ∀ {run : Endless Running.act r}, Running.Even run → (∀ t, (run.action t).2 ≠ .forsake) →
    ∃ t, (run.state t).AtRest

/-- **Crashes are contained**, in every pool and whatever happens to it. -/
theorem crash_containment (exec : Execution step? (ofSettings s d) past S) :
    Containment s d past S where
  lost {e i l x} he crashes hl hx := by
    obtain ⟨earlier, rest, rfl, before, step, after⟩ := exec.at_moment he
    rcases e with ⟨S₁, a, S₂, outputs⟩
    obtain rfl : a = .crash i := crashes
    exact ⟨told_of_crash before hl step after hx, lost_of_crash before hl step hx⟩
  refused {earlier rest e i x} split crashes known := by
    subst split
    obtain ⟨before, step, after⟩ := exec.at_split
    rcases e with ⟨S₁, a, S₂, outputs⟩
    obtain rfl : a = .crash i := crashes
    exact refused_after_crash before step after known
  apart {e i j} he crashes other := by
    refine ⟨?_, fun known ↦ silent_of_crash exec he crashes other known⟩
    obtain ⟨-, -, -, -, step, -⟩ := exec.at_moment he
    rw [crashes] at step
    exact apart_of_crash step other
  indifferent exec' same := indistinct exec exec' same
  twin i := by
    obtain ⟨past', S', exec', twin⟩ := exists_twin exec i
    exact ⟨past', S', exec', twin.same, twin.calm⟩
  unharmed hl calm := Service.unharmed exec calm hl
  awake hl gone known := Service.awake exec hl gone known
  drains closing _ fair := Service.drains exec closing fair
  joins runs _ joining _ even kept := Running.atRest_of_joining runs joining even kept

/-- Two lanes with one place each. The crash takes one job in hand, one that is accepted and one
that waits for a place, and another one comes later, while the other lane still has three jobs when
the pool is told to close. And a route of which one worker has crashed, when its workers are joined.
-/
theorem containment_of_crash :
    (∃ (past : List (Event Job)) (S : Service Job) (run : Endless step? S),
      Execution step? (ofSettings ⟨2, 1, .standard⟩ ⟨0, "out", "copies", "out:copies"⟩) past S ∧
        (∃ e ∈ past, e.action = .crash 0 ∧
          (e.before.pool.lanes[0]?).map (fun l ↦ l.jobs.map Submission.number) = some [0, 2, 4]) ∧
        (List.range 7).map (answers · past) =
          [[.lost], [], [.lost], [], [.lost], [], [.lost]] ∧
        (S.pool.lanes[1]?).map (fun l ↦ l.jobs.map Submission.number) = some [1, 3, 5] ∧
        S.pool.closing = true ∧ Fair run ∧
        Containment ⟨2, 1, .standard⟩ ⟨0, "out", "copies", "out:copies"⟩ past S) ∧
      ∃ (history : Running.Past) (r : Running) (own : List (Event Job)) (S : Service Job)
        (p : Pool Job) (run : Endless Running.act r),
        Running.Runs Running.oneLane Running.pairOnce history r ∧
          (∃ mo ∈ history, mo.action.2 = .crash 0 0) ∧
          Running.Served Running.oneLane history r 0 p own S ∧
          r.phase = .joining [(0, 0), (1, 0)] ∧ Running.Even run ∧
          (∀ t, (run.action t).2 ≠ .forsake) ∧
          Containment Running.oneLane p.destination own S := by
  have exec := (Execution.refl : Execution step?
      (ofSettings ⟨2, 1, .standard⟩ ⟨0, "out", "copies", "out:copies"⟩ : Service Job) [] _)
    |>.snoc (a := .submit ⟨0, Running.note⟩) rfl |>.snoc (a := .take 0) rfl
    |>.snoc (a := .submit ⟨1, Running.note⟩) rfl |>.snoc (a := .take 1) rfl
    |>.snoc (a := .submit ⟨2, Running.note⟩) rfl |>.snoc (a := .submit ⟨3, Running.note⟩) rfl
    |>.snoc (a := .submit ⟨4, Running.note⟩) rfl |>.snoc (a := .crash 0) rfl
    |>.snoc (a := .submit ⟨5, Running.note⟩) rfl |>.snoc (a := .submit ⟨6, Running.note⟩) rfl
    |>.snoc (a := .close) rfl
  have runs := (Execution.refl : Running.Runs Running.oneLane Running.pairOnce [] _)
    |>.snoc (a := (⟨0, 0⟩, .handle 0 Running.note)) rfl
    |>.snoc (a := (⟨0, 0⟩, .submit 0 0)) rfl |>.snoc (a := (⟨0, 0⟩, .submit 0 1)) rfl
    |>.snoc (a := (⟨0, 0⟩, .take 0 0)) rfl |>.snoc (a := (⟨0, 0⟩, .take 1 0)) rfl
    |>.snoc (a := (⟨0, 0⟩, .crash 0 0)) rfl |>.snoc (a := (⟨0, 0⟩, .reply 1 0 (.ok ()))) rfl
    |>.snoc (a := (⟨0, 0⟩, .resolve 0)) rfl |>.snoc (a := (⟨0, 0⟩, .stop)) rfl
    |>.snoc (a := (⟨0, 0⟩, .closePools)) rfl
  obtain ⟨own, S, served⟩ := Running.served_of_runs runs (i := 0) rfl
  have kept {later : Running.Past}
      (held : (later.all fun mo ↦ !mo.action.2 matches .forsake) = true) :
      ∀ mo ∈ later, mo.action.2 ≠ .forsake := by
    intro mo here lets_go
    have := List.all_eq_true.mp held mo here
    rw [lets_go] at this
    cases this
  constructor
  · refine ⟨_, _, ?run, exec, ⟨_, List.mem_of_getElem? (i := 7) rfl, rfl, rfl⟩, rfl, rfl, rfl, ?_,
      crash_containment exec⟩
    case run =>
      -- the last step stands first
      exact .ofRest (a := fun _ ↦ .close)
        (.snoc (a := .retire 1)
          (.snoc (a := .reply 1 (.ok ()))
          (.snoc (a := .take 1)
          (.snoc (a := .drain 1)
          (.snoc (a := .reply 1 (.ok ())) .refl rfl) rfl) rfl) rfl) rfl)
        (fun _ ↦ rfl)
    exact fair_ofRest exec _ rfl _ rfl
  · refine ⟨_, _, own, S, _, ?route, runs, ⟨_, List.mem_of_getElem? (i := 5) rfl, rfl⟩, served, rfl,
      ?_⟩
    case route =>
      exact .ofRest (a := fun t ↦ (⟨t, 0⟩, .cancel))
        (.snoc (a := (⟨0, 0⟩, .join))
          (.snoc (a := (⟨0, 0⟩, .join))
          (.snoc (a := (⟨0, 0⟩, .join))
          (.snoc (a := (⟨0, 0⟩, .retire 1 0))
          (.snoc (a := (⟨0, 0⟩, .drain 1 0)) .refl rfl) rfl) rfl) rfl) rfl)
        (fun _ ↦ rfl)
    refine ⟨Running.even_ofRest _ _ (fun now ↦ ⟨now, fun t ht ↦ ht⟩) (fun _ ↦ rfl) ?free,
      Endless.forall_action_ofRest _ _ (P := fun a : Clock × Action ↦ a.2 ≠ .forsake) (kept rfl)
        (fun _ ↦ nofun),
      crash_containment served.exec⟩
    case free =>
      intro i j
      match i, j with
      | 0, 0 | 1, 0 => rfl
      | 0, j + 1 | 1, j + 1 => rfl
      | i + 2, j => rfl

end MessageBridge.Service
