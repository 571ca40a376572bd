import MessageBridge.Proofs.Lane.Apart

/-!
# The run without the crash

Whatever happened to a lane, there is a run in which all others do the same and the worker of the
lane never crashes. The worker of that run serves each job as soon as it comes, so that its lane
stands in nobody's way: nobody waits for a place in it when the lanes are let go, and the others can
do in that run whatever they did. As lanes do not notice each other (`Service.indistinct`), a crash
changes nothing for anybody else.
-/

namespace MessageBridge.Service

universe u

variable {α : Type u} {s : EngineSettings} {d : Destination} {past past' : List (Event α)}
  {S S' T T' : Service α} {a : ServiceAction α} {outputs outputs' : List (ServiceOutput α)}
  {i k n : Nat} {l l' : Lane (Submission α)} {x : Submission α} {w : Work α}

/-! ## A worker on its own -/

/-- The worker of a lane, on its own and without a crash, brings the lane to some state. -/
def Brings (i : Nat) (S : Service α) (l : Lane (Submission α)) : Prop :=
  ∃ later S', Execution step? S later S' ∧
    (∀ e ∈ later, concerned? e = some i ∧ e.action ≠ .crash i) ∧
    S'.pool.lanes[i]? = some l ∧ S'.pool.closing = S.pool.closing

theorem Brings.work (brings : Brings i S l) (work : work? S.pool.closing l a = some w)
    (acts : a.worker? = some i) (calm : a ≠ .crash i) : Brings i S w.lane := by
  obtain ⟨later, S', after, own, hl, closing⟩ := brings
  rw [← closing] at work
  refine ⟨_, _, after.snoc (step_of_work hl acts work), ?_, ?_, closing⟩
  · intro e he
    rw [List.mem_append, List.mem_singleton] at he
    obtain before | rfl := he
    · exact own e before
    · exact ⟨concerned_of_worker acts, calm⟩
  · show (S'.pool.setLane i w.lane).lanes[i]? = some w.lane
    rw [getElem?_setLane hl, if_pos rfl]

/-- A lane without jobs whose worker is there. -/
structure AtLeisure (l : Lane (Submission α)) : Prop where
  here : l.gone = false
  free : l.inHand = none
  accepted : l.queue.accepted = []
  waiting : l.queue.waiting = []

theorem AtLeisure.jobs (h : AtLeisure l) : l.jobs = [] := by
  rw [Lane.jobs, Queue.contents, h.free, h.accepted, h.waiting]
  rfl

theorem Brings.served {depth : Nat} {closed : Bool} {worker : WorkerState}
    (brings : Brings i S ⟨⟨depth, [x], [], closed⟩, none, worker⟩)
    (works : worker = .serving ∨ worker = .draining)
    (may : (S.pool.closing && worker == .serving) = false) :
    ∃ l, AtLeisure l ∧ Brings i S l := by
  have takes : work? S.pool.closing ⟨⟨depth, [x], [], closed⟩, none, worker⟩
      (.take i : ServiceAction α) =
        some ⟨⟨⟨depth, [], [], closed⟩, some x, worker⟩, [x], [], .lost⟩ := by
    simp only [work?, may]
    obtain rfl | rfl := works <;> rfl
  have took := brings.work takes rfl (by simp)
  have done : Brings i S ⟨⟨depth, [], [], closed⟩, none, worker⟩ :=
    took.work (a := .reply i (.ok ())) (w := ⟨_, [], [x.number], .published⟩) rfl rfl (by simp)
  refine ⟨_, ⟨?_, rfl, rfl, rfl⟩, done⟩
  obtain rfl | rfl := works <;> rfl

theorem exists_served {depth : Nat} {closed : Bool} {worker : WorkerState}
    (hl : S.pool.lanes[i]? = some ⟨⟨depth, [x], [], closed⟩, none, worker⟩)
    (works : worker = .serving ∨ worker = .draining) : ∃ l, AtLeisure l ∧ Brings i S l := by
  have start : Brings i S ⟨⟨depth, [x], [], closed⟩, none, worker⟩ :=
    ⟨[], S, .refl, by simp, hl, rfl⟩
  cases must : S.pool.closing && worker == .serving with
  | false => exact start.served works must
  | true =>
    obtain ⟨closing, serving⟩ := Bool.and_eq_true_iff.mp must
    obtain rfl := beq_iff_eq.mp serving
    have drained := start.work (a := .drain i) (by simp only [work?, closing]; rfl) rfl (by simp)
    exact drained.served (.inr rfl) (Bool.and_false _)

/-! ## The twin -/

/-- A past in which all others do the same, while the worker of one lane never crashes and serves
its jobs as they come. -/
structure Twin (i : Nat) (past past' : List (Event α)) (T : Service α) : Prop where
  same : others i past = others i past'
  calm : ∀ e ∈ past', e.action ≠ .crash i
  leisure : ∀ {l : Lane (Submission α)}, T.pool.lanes[i]? = some l → AtLeisure l

theorem concerned_of_abandon (exec : Execution step? (ofSettings s d) past S)
    (hl : S.pool.lanes[i]? = some l) (hx : x ∈ l.jobs) :
    concerned? ⟨S, .abandon x.number, S', outputs⟩ = some i := by
  have holds : (l.jobs.any fun y ↦ y.number == x.number) = true :=
    List.any_eq_true.mpr ⟨x, hx, beq_self_eq_true _⟩
  obtain ⟨k, hk⟩ : ∃ k, concerned? ⟨S, .abandon x.number, S', outputs⟩ = some k := by
    refine Option.isSome_iff_exists.mp ?_
    exact List.findIdx?_isSome.trans
      (List.any_eq_true.mpr ⟨l, List.mem_of_getElem? hl, holds⟩)
  obtain acts | ⟨m, y, hm, hy, same⟩ := concerned_cases hk
  · cases acts
  · rw [hk]
    obtain same := ServiceAction.abandon.inj same
    rw [(number_inj exec (issued_of_mem_jobs exec hl hx) (issued_of_mem_jobs exec hm hy) same).1]

/-- In the twin the others can do whatever they did. -/
theorem follows (alike : Alike i (issued past) S T)
    (exec : Execution step? (ofSettings s d) past S)
    (leisure : ∀ {l : Lane (Submission α)}, T.pool.lanes[i]? = some l → AtLeisure l)
    (step : S.step? a = some (S', outputs))
    (other : concerned? ⟨S, a, S', outputs⟩ ≠ some i) :
    ∃ T' outputs', T.step? a = some (T', outputs') ∧
      concerned? ⟨T, a, T', outputs'⟩ ≠ some i := by
  have foreign {T' : Service α} {outputs' : List (ServiceOutput α)} :
      concerned? ⟨T, a, T', outputs'⟩ ≠ some i := by
    intro own
    obtain acts | ⟨l, y, hl, hy, -⟩ := concerned_cases own
    · exact other (concerned_of_worker acts)
    · rw [(leisure hl).jobs] at hy
      cases hy
  suffices goes : ∃ r, T.step? a = some r by
    obtain ⟨⟨T', outputs'⟩, goes⟩ := goes
    exact ⟨T', outputs', goes, foreign⟩
  -- what a worker can do depends on its own lane alone, and that lane is the same in the twin
  cases acts : a.worker? with
  | some k =>
    have elsewhere : k ≠ i := fun same ↦ other (concerned_of_worker (same ▸ acts))
    obtain ⟨l, w, hl, work, -⟩ := worker_cases step acts
    rw [alike.closing] at work
    exact ⟨_, step_of_work ((alike.lane elsewhere).symm.trans hl) acts work⟩
  | none =>
    cases a with
    | take | reply | crash | drain | retire => cases acts
    | submit job =>
      simp only [step?]
      split <;> exact ⟨_, rfl⟩
    | close => exact ⟨_, rfl⟩
    | release =>
      simp only [step?] at step ⊢
      split at step <;> cases step
      rename_i nobody
      refine ⟨_, if_pos (List.all_eq_true.mpr fun l hl ↦ ?_)⟩
      obtain ⟨j, hj⟩ := List.mem_iff_getElem?.mp hl
      by_cases mine : j = i
      · subst mine
        rw [(leisure hj).waiting]
        rfl
      · exact List.all_eq_true.mp nobody l
          (List.mem_of_getElem? ((alike.lane mine).trans hj))
    | abandon n =>
      simp only [step?] at step ⊢
      split at step <;> cases step
      rename_i waits
      obtain ⟨k, l, x, hl, hx, rfl⟩ := held_of_waiter exec (List.contains_iff_mem.mp waits)
      have elsewhere : k ≠ i := fun same ↦ other (same ▸ concerned_of_abandon exec hl hx)
      have waits' := (alike.waits elsewhere (issued_of_mem_jobs exec hl hx)).mp
        (List.contains_iff_mem.mp waits)
      exact ⟨_, if_pos (List.contains_iff_mem.mpr waits')⟩

theorem AtLeisure.step (leisure : AtLeisure l) (seen : Seen S i a l l') (depth : 0 < l.queue.depth)
    (other : a.worker? ≠ some i) :
    AtLeisure l' ∨ ∃ depth x closed worker, l' = ⟨⟨depth, [x], [], closed⟩, none, worker⟩ ∧
      (worker = .serving ∨ worker = .draining) := by
  cases seen with
  | same => exact .inl leisure
  | take | finish | crash | drain | retire => exact absurd rfl other
  | abandon =>
    refine .inl { leisure with waiting := ?_ }
    show l.queue.waiting.filter _ = []
    rw [leisure.waiting]
    rfl
  | release => exact .inl { leisure with waiting := rfl }
  | @submit job _ _ turn submitted =>
    obtain ⟨q, offered, rfl⟩ := Lane.submit?_eq_some.mp submitted
    have place : l.queue.hasPlace = true := by
      simp [Queue.hasPlace, leisure.accepted, leisure.waiting, depth]
    simp only [Queue.offer?, place, if_true] at offered
    split at offered <;> cases offered
    refine .inr ⟨l.queue.depth, ⟨S.next, job⟩, l.queue.closed, l.worker, ?_, ?_⟩
    · rw [leisure.accepted, leisure.waiting, leisure.free]
      rfl
    · simpa [Lane.working] using Lane.working_of_not_gone leisure.here

/-- After a step of others, the worker serves the job that came with it. -/
theorem Twin.step (twin : Twin i past past' T) (exec' : Execution step? (ofSettings s d) past' T)
    (own : concerned? ⟨S, a, S', outputs⟩ ≠ some i)
    (step' : T.step? a = some (T', outputs')) (own' : concerned? ⟨T, a, T', outputs'⟩ ≠ some i) :
    ∃ past' U, Execution step? (ofSettings s d) past' U ∧
      Twin i (past ++ [⟨S, a, S', outputs⟩]) past' U := by
  have other : a.worker? ≠ some i := fun acts ↦ own (concerned_of_worker acts)
  have same : others i (past ++ [⟨S, a, S', outputs⟩]) =
      others i (past' ++ [⟨T, a, T', outputs'⟩]) := by
    rw [others_concat, others_concat, if_neg own, if_neg own', twin.same]
  have calm : ∀ e ∈ past' ++ [⟨T, a, T', outputs'⟩], e.action ≠ .crash i := by
    intro e he crashes
    rw [List.mem_append, List.mem_singleton] at he
    obtain before | rfl := he
    · exact twin.calm e before crashes
    · obtain rfl : a = .crash i := crashes
      exact other rfl
  by_cases leisure : ∀ l, T'.pool.lanes[i]? = some l → AtLeisure l
  · exact ⟨_, T', exec'.snoc step', same, calm, fun hl ↦ leisure _ hl⟩
  · obtain ⟨l', hl', busy⟩ : ∃ l', T'.pool.lanes[i]? = some l' ∧ ¬ AtLeisure l' := by
      simpa using leisure
    obtain ⟨l, hl, seen⟩ := seen_of_step step' hl'
    have depth : 0 < l.queue.depth := by
      rw [depth_eq exec' hl]
      exact Nat.lt_of_lt_of_le Nat.one_pos (Nat.le_max_right _ _)
    obtain ⟨depth, x, closed, worker, rfl, works⟩ :=
      ((twin.leisure hl).step seen depth other).resolve_left busy
    obtain ⟨l, done, later, U, after, alone, hl, -⟩ := exists_served hl' works
    refine ⟨_, U, (exec'.snoc step').trans after, ?_, ?_, fun hm ↦ ?_⟩
    · have nothing := others_eq_nil fun e he ↦ (alone e he).1
      refine Eq.trans ?_ others_append.symm
      rw [nothing, List.append_nil, same]
    · intro e he
      rw [List.mem_append] at he
      exact he.elim (calm e) fun later ↦ (alone e later).2
    · rw [hl] at hm
      cases hm
      exact done

/-- **Every run has a twin** in which all others do the same and the worker of a lane never
crashes. -/
theorem exists_twin (exec : Execution step? (ofSettings s d) past S) (i : Nat) :
    ∃ past' T, Execution step? (ofSettings s d) past' T ∧ Twin i past past' T := by
  induction exec with
  | refl =>
    refine ⟨[], _, .refl, rfl, by simp, fun hl ↦ ?_⟩
    rw [lane_ofSettings hl]
    exact ⟨rfl, rfl, rfl, rfl⟩
  | @snoc past S S' a outputs exec step ih =>
    obtain ⟨past', T, exec', twin⟩ := ih
    by_cases own : concerned? ⟨S, a, S', outputs⟩ = some i
    · refine ⟨past', T, exec', ?_, twin.calm, twin.leisure⟩
      rw [others_concat, if_pos own]
      exact twin.same
    · have alike := (indistinct exec exec' twin.same).alike
      obtain ⟨T', outputs', step', own'⟩ := follows alike exec twin.leisure step own
      exact twin.step exec' own step' own'

end MessageBridge.Service
