import MessageBridge.Proofs.Lane.Contract

/-!
# A worker that crashes

The publish of a job may crash the worker of its lane. The queue goes down with the worker, and with
the queue all jobs in it, whether they were accepted or waited for a place; each of their submitters
that stayed hears in the same step that its job is lost. From then on the queue is closed, and
whoever comes to the lane is turned away at once. No other lane notices.

What nobody may overlook is a submitter that still waits. Its job is always in some lane
(`Service.held_of_waiter`), and a lane whose worker is gone holds no jobs, so no submitter waits for
a worker that is gone.
-/

namespace MessageBridge.Service

universe u

variable {α : Type u} {s : EngineSettings} {d : Destination} {past later : List (Event α)}
  {S S' : Service α} {a : ServiceAction α} {outputs : List (ServiceOutput α)} {i j n : Nat}
  {l l' : Lane (Submission α)} {x : Submission α}

/-! ## Steps seen from before -/

theorem move_of_step (step : S.step? a = some (S', outputs)) : S.pool.Move S'.pool := by
  cases a with
  | submit job =>
    have pool : S'.pool = (S.pool.submit ⟨S.next, job⟩).1 := by
      simp only [step?] at step
      split at step <;> cases step <;> rfl
    rw [pool]
    exact .submit _ S.pool
  | abandon n =>
    simp only [step?] at step
    split at step <;> cases step
    exact .withdraw _ S.pool
  | close =>
    cases step
    exact .close S.pool
  | release =>
    simp only [step?] at step
    split at step <;> cases step
    exact .release S.pool
  | take k =>
    obtain ⟨⟨y, p⟩, taken, step⟩ := Option.bind_eq_some_iff.mp step
    cases step
    exact .take taken
  | reply k answer =>
    obtain ⟨⟨y, p⟩, finished, step⟩ := Option.bind_eq_some_iff.mp step
    cases step
    exact .finish finished
  | crash k =>
    obtain ⟨⟨lost, p⟩, crashed, step⟩ := Option.bind_eq_some_iff.mp step
    cases step
    exact .crash crashed
  | drain k =>
    obtain ⟨⟨refused, p⟩, drained, step⟩ := Option.bind_eq_some_iff.mp step
    cases step
    exact .drain drained
  | retire k =>
    obtain ⟨p, ended, step⟩ := Option.bind_eq_some_iff.mp step
    cases step
    exact .retire ended

theorem exists_seen (step : S.step? a = some (S', outputs)) (hl : S.pool.lanes[i]? = some l) :
    ∃ l', S'.pool.lanes[i]? = some l' ∧ Seen S i a l l' := by
  have hi : i < S'.pool.lanes.length := by
    rw [(move_of_step step).moved.length]
    exact (List.getElem?_eq_some_iff.mp hl).1
  have hl' := List.getElem?_eq_getElem hi
  obtain ⟨m, hm, seen⟩ := seen_of_step step hl'
  rw [hl] at hm
  cases hm
  exact ⟨_, hl', seen⟩

theorem exists_lane (after : Execution step? S later S') (hl : S.pool.lanes[i]? = some l) :
    ∃ l', S'.pool.lanes[i]? = some l' := by
  induction after with
  | refl => exact ⟨l, hl⟩
  | snoc _ step ih =>
    obtain ⟨m, hm⟩ := ih
    obtain ⟨l', hl', -⟩ := exists_seen step hm
    exact ⟨l', hl'⟩

theorem next_le (after : Execution step? S later S') : S.next ≤ S'.next := by
  induction after with
  | refl => exact Nat.le_refl _
  | snoc _ step ih =>
    obtain ⟨job, -, next, -⟩ | ⟨next, -⟩ := issuing_of_step step <;> omega

theorem answers_of_gone (after : Execution step? S later S') (gone : n ∉ S.waiters)
    (old : n < S.next) : answers n later = [] ∧ n ∉ S'.waiters := by
  induction after with
  | refl => exact ⟨rfl, gone⟩
  | @snoc later S₁ S₂ a outputs after step ih =>
    have still_old := Nat.lt_of_lt_of_le old (next_le after)
    obtain ⟨silent, gone⟩ := silent_of_step step ih.2 fun _ _ ↦ Nat.ne_of_lt still_old
    exact ⟨by rw [answers_concat, ih.1, silent]; rfl, gone⟩

theorem Told.append {b : JobAnswer} (told : Told n b past) (after : Execution step? S later S')
    (gone : n ∉ S.waiters) (old : n < S.next) : Told n b (past ++ later) := by
  have same : answers n (past ++ later) = answers n past := by
    rw [answers, List.flatMap_append]
    have nothing := (answers_of_gone after gone old).1
    rw [answers] at nothing
    rw [nothing, List.append_nil]
    rfl
  rw [Told, same]
  refine told.imp id fun left ↦ ⟨?_, left.2⟩
  obtain ⟨e, he, leaves⟩ := left.1
  exact ⟨e, List.mem_append_left _ he, leaves⟩

/-! ## The crash -/

theorem crash_cases (step : S.step? (.crash i) = some (S', outputs)) :
    ∃ l l', S.pool.lanes[i]? = some l ∧ l.crash? = some (l.jobs, l') ∧
      S.settle (S.pool.setLane i l') (l.jobs.map Submission.number) .lost = (S', outputs) := by
  obtain ⟨⟨lost, p⟩, crashed, step⟩ := Option.bind_eq_some_iff.mp step
  obtain ⟨l, l', hl, here, rfl⟩ := Pool.crash?_eq_some.mp crashed
  obtain rfl := (Lane.jobs_crash? here).1
  exact ⟨l, l', hl, here, Option.some.inj step⟩

theorem lost_of_crash (exec : Execution step? (ofSettings s d) past S)
    (hl : S.pool.lanes[i]? = some l) (step : S.step? (.crash i) = some (S', outputs))
    (hx : x ∈ l.jobs) :
    x.number ∉ S'.waiters ∧ answering x.number ⟨S, .crash i, S', outputs⟩ =
      if x.number ∈ S.waiters then [.lost] else [] := by
  obtain ⟨m, m', hm, -, done⟩ := crash_cases step
  rw [hl] at hm
  cases hm
  cases done
  have named := List.mem_map_of_mem (f := Submission.number) hx
  have nodup : (l.jobs.map Submission.number).Nodup :=
    ((jobs_came exec hl).map Submission.number).nodup (nodup_toLane exec)
  exact ⟨fun h ↦ ((waiters_settle (b := .lost)).mp h).2 named,
    answering_settle_of_mem nodup named⟩

theorem apart_of_crash (step : S.step? (.crash i) = some (S', outputs)) (other : j ≠ i) :
    S'.pool.lanes[j]? = S.pool.lanes[j]? := by
  obtain ⟨l, l', hl, -, done⟩ := crash_cases step
  cases done
  show (S.pool.setLane i l').lanes[j]? = S.pool.lanes[j]?
  rw [getElem?_setLane hl, if_neg other.symm]

theorem silent_of_crash (exec : Execution step? (ofSettings s d) past S) {e : Event α}
    (he : e ∈ past) (crashes : e.action = .crash i) (other : j ≠ i)
    (known : (j, x) ∈ issued past) : answering x.number e = [] := by
  obtain ⟨first, rest, rfl, reach, step, -⟩ := exec.at_moment he
  have among {y : Submission α} (old : (i, y) ∈ issued first) :
      (i, y) ∈ issued (first ++ e :: rest) := by
    rw [issued, List.flatMap_append]
    exact List.mem_append_left _ old
  rcases e with ⟨S₁, a, S₂, outputs⟩
  obtain rfl : a = .crash i := crashes
  change S₁.step? (.crash i) = some (S₂, outputs) at step
  obtain ⟨l, l', hl, -, done⟩ := crash_cases step
  cases done
  apply answering_settle_of_notMem
  intro named
  obtain ⟨y, hy, same⟩ := List.mem_map.mp named
  exact other (number_inj exec (among (issued_of_mem_jobs reach hl hy)) known same).1.symm

theorem crashed_of_step (step : S.step? a = some (S', outputs)) (hl : S.pool.lanes[i]? = some l)
    (hl' : S'.pool.lanes[i]? = some l') (crashed : l.worker = .crashed) :
    l'.worker = .crashed := by
  obtain ⟨m, hm, seen⟩ := seen_of_step step hl'
  rw [hl] at hm
  cases hm
  have idle : l.working = false := by
    rw [Lane.working, crashed]
    rfl
  cases seen with
  | drain _ drained =>
    obtain ⟨serving, -⟩ := Lane.drain?_eq_some.mp drained
    rw [crashed] at serving
    cases serving
  | retire ended =>
    obtain ⟨working, -⟩ := Lane.end?_eq_some.mp ended
    rw [idle] at working
    cases working
  | take _ taken =>
    obtain ⟨working, -⟩ := Lane.take?_eq_some.mp taken
    rw [idle] at working
    cases working
  | submit _ submitted =>
    obtain ⟨q, -, rfl⟩ := Lane.submit?_eq_some.mp submitted
    exact crashed
  | finish finished =>
    obtain ⟨-, rfl⟩ := Lane.finish?_eq_some.mp finished
    exact crashed
  | crash again =>
    obtain ⟨y, -, -, rfl⟩ := Lane.crash?_eq_some.mp again
    rfl
  | _ => exact crashed

theorem crashed_of_crash (exec : Execution step? (ofSettings s d) past S)
    {e : Event α} (he : e ∈ past) (crashes : e.action = .crash i)
    (hl : S.pool.lanes[i]? = some l) : l.worker = .crashed := by
  induction exec generalizing l with
  | refl => cases he
  | @snoc past S S' a outputs exec step ih =>
    obtain ⟨m, hm, -⟩ := seen_of_step step hl
    rcases List.mem_append.mp he with he | he
    · exact crashed_of_step step hm hl (ih he hm)
    · rw [List.mem_singleton.mp he] at crashes
      obtain rfl : a = .crash i := crashes
      obtain ⟨m₀, m', hm₀, here, done⟩ := crash_cases step
      cases done
      change (S.pool.setLane i m').lanes[i]? = some l at hl
      rw [getElem?_setLane hm₀, if_pos rfl] at hl
      cases hl
      obtain ⟨y, -, -, rfl⟩ := Lane.crash?_eq_some.mp here
      rfl

theorem calm_of_inHand (exec : Execution step? (ofSettings s d) past S)
    (hl : S.pool.lanes[i]? = some l) (hand : l.inHand.isSome = true) :
    ∀ e ∈ past, e.action ≠ .crash i := by
  intro e he crashes
  have working := (lane_sound exec hl).working_of_inHand hand
  rw [Lane.working, crashed_of_crash exec he crashes hl] at working
  cases working

/-- **Every job that is in a lane when its worker crashes is lost.** -/
theorem told_of_crash (before : Execution step? (ofSettings s d) past S)
    (hl : S.pool.lanes[i]? = some l) (step : S.step? (.crash i) = some (S', outputs))
    {S'' : Service α} (after : Execution step? S' later S'') (hx : x ∈ l.jobs) :
    Told x.number .lost (past ++ ⟨S, .crash i, S', outputs⟩ :: later) := by
  have known := issued_of_mem_jobs before hl hx
  have hand : l.inHand.isSome = true := by
    obtain ⟨m, m', hm, crashed, -⟩ := crash_cases step
    rw [hl] at hm
    cases hm
    obtain ⟨y, hand, -⟩ := Lane.crash?_eq_some.mp crashed
    rw [hand]
    rfl
  have calm := calm_of_inHand before hl hand
  obtain ⟨gone, answer⟩ := lost_of_crash before hl step hx
  have old : x.number < S'.next :=
    Nat.lt_of_lt_of_le (number_lt before known) (next_le (Execution.refl.snoc step))
  rw [List.append_cons]
  refine Told.append ?_ after gone old
  cases fate before calm hl known with
  | inside _ untold waits => exact .of_settled untold (waits.imp id And.left) answer
  | answered done => exact absurd hx (finished_once before calm hl done).1
  | refused _ out => exact absurd hx out

/-! ## After the crash -/

theorem refused_of_gone (exec : Execution step? (ofSettings s d) past S) {job : α}
    (step : S.step? (.submit job) = some (S', outputs)) (hl : S.pool.lanes[S.pool.turn]? = some l)
    (gone : l.gone = true) :
    S'.waiters = S.waiters ∧ outputs = [.answer S.next .lost] ∧ S'.next = S.next + 1 := by
  have closed := ((lane_sound exec hl).left_nothing gone).1
  obtain ⟨m, m', hm, submitted, -⟩ | ⟨-, done⟩ := Pool.submit_cases ⟨S.next, job⟩ S.pool
  · rw [hl] at hm
    cases hm
    obtain ⟨q, offered, -⟩ := Lane.submit?_eq_some.mp submitted
    rw [Queue.closed_eq_false_of_offer? offered] at closed
    cases closed
  · simp only [step?, done] at step
    cases step
    exact ⟨rfl, rfl, rfl⟩

theorem begun_of_crashed (after : Execution step? S later S') (hl : S.pool.lanes[i]? = some l)
    (crashed : l.worker = .crashed) : begun i later = [] := by
  suffices still : begun i later = [] ∧
      ∃ l', S'.pool.lanes[i]? = some l' ∧ l'.worker = .crashed from still.1
  induction after with
  | refl => exact ⟨rfl, l, hl, crashed⟩
  | @snoc later S₁ S₂ a outputs after step ih =>
    obtain ⟨nothing, m, hm, crashed⟩ := ih
    obtain ⟨m', hm', -⟩ := exists_seen step hm
    refine ⟨?_, m', hm', crashed_of_step step hm hm' crashed⟩
    have idle : a ≠ .take i := by
      rintro rfl
      obtain ⟨⟨y, p⟩, taken, -⟩ := Option.bind_eq_some_iff.mp step
      obtain ⟨k, k', hk, -, here, -⟩ := Pool.take?_eq_some.mp taken
      rw [hm] at hk
      cases hk
      obtain ⟨working, -⟩ := Lane.take?_eq_some.mp here
      rw [Lane.working, crashed] at working
      cases working
    rw [begun_concat, nothing, beginning_eq_nil step idle]
    rfl

theorem exists_submit (known : (i, x) ∈ issued past) :
    ∃ e ∈ past, e.action = .submit x.job ∧ e.before.pool.turn = i ∧ e.before.next = x.number := by
  obtain ⟨e, he, new⟩ := List.mem_flatMap.mp known
  refine ⟨e, he, ?_⟩
  rcases e with ⟨before, a, after, outputs⟩
  cases a with
  | submit job =>
    obtain ⟨rfl, rfl⟩ := Prod.mk.inj (List.mem_singleton.mp new)
    exact ⟨rfl, rfl, rfl⟩
  | _ => cases new

/-- **Whoever comes to a lane after the crash is turned away at once**, and its job is published
nowhere. -/
theorem refused_after_crash (before : Execution step? (ofSettings s d) past S)
    (step : S.step? (.crash i) = some (S', outputs)) {S'' : Service α}
    (after : Execution step? S' later S'') (known : (i, x) ∈ issued later) :
    answers x.number (past ++ ⟨S, .crash i, S', outputs⟩ :: later) = [.lost] ∧
      ∀ j, x ∉ begun j (past ++ ⟨S, .crash i, S', outputs⟩ :: later) := by
  have crash := before.snoc step
  have whole := crash.trans after
  have crashed : (⟨S, .crash i, S', outputs⟩ : Event α) ∈ past ++ [⟨S, .crash i, S', outputs⟩] :=
    List.mem_append_right _ List.mem_cons_self
  obtain ⟨l, -, hl, -⟩ := crash_cases step
  obtain ⟨m, hm, -⟩ := exists_seen step hl
  obtain ⟨e, he, submits, turn, number⟩ := exists_submit known
  obtain ⟨first, rest, rfl, reach, submit, onward⟩ := after.at_moment he
  have so_far := crash.trans reach
  rw [submits] at submit
  rw [List.append_cons]
  constructor
  · -- nothing was told under this number before, and nothing is after the refusal
    obtain ⟨k, hk⟩ := exists_lane reach hm
    have gone : k.gone = true := by
      rw [Lane.gone, crashed_of_crash so_far (List.mem_append_left _ crashed) rfl hk]
      rfl
    obtain ⟨waiters, told, next⟩ := refused_of_gone so_far submit (turn ▸ hk) gone
    obtain ⟨untold, nobody⟩ := unheard so_far (Nat.le_of_eq number)
    rw [← waiters] at nobody
    have silent := (answers_of_gone onward nobody (by omega)).1
    rw [answers] at untold silent
    rw [answers, ← List.append_assoc, List.flatMap_append, List.flatMap_cons, untold, silent]
    simp [answering, told, number]
  · intro j began
    have among :
        (i, x) ∈ issued (past ++ [⟨S, .crash i, S', outputs⟩] ++ (first ++ e :: rest)) := by
      rw [issued, List.flatMap_append]
      exact List.mem_append_right _ known
    obtain ⟨rfl, -⟩ := number_inj whole (issued_of_mem_begun whole began) among rfl
    have nothing := begun_of_crashed after hm (crashed_of_crash crash crashed rfl hm)
    rw [begun] at nothing
    rw [begun, List.flatMap_append, nothing, List.append_nil] at began
    have old := number_lt crash (issued_of_mem_begun crash began)
    have later_on := next_le reach
    omega

/-! ## Submitters that wait -/

/-- **Whoever waits has a job in some lane.** -/
theorem held_of_waiter (exec : Execution step? (ofSettings s d) past S) (waits : n ∈ S.waiters) :
    ∃ (i : Nat) (l : Lane (Submission α)) (x : Submission α), S.pool.lanes[i]? = some l ∧
      x ∈ l.jobs ∧ x.number = n := by
  induction exec with
  | refl => cases waits
  | @snoc past S S' a outputs exec step ih =>
    by_cases before : n ∈ S.waiters
    · obtain ⟨i, l, x, hl, hx, rfl⟩ := ih before
      obtain ⟨l', hl', seen⟩ := exists_seen step hl
      -- a job that leaves its lane takes its submitter off the list
      obtain kept | ⟨rfl, -⟩ | ⟨answer, rfl, hand⟩ | ⟨rfl, waiting⟩ | rfl := seen.stays hx
      · exact ⟨i, l', x, hl', kept, rfl⟩
      · simp only [step?] at step
        split at step <;> cases step
        simp at waits
      · exact absurd waits (answered_of_reply hl step hand).1
      · exact absurd waits (refused_of_drain exec hl step waiting).1
      · exact absurd waits (lost_of_crash exec hl step hx).1
    · by_cases new : ∃ job, a = .submit job ∧ n = S.next
      · obtain ⟨job, rfl, rfl⟩ := new
        obtain ⟨l, l', hl, submitted, done⟩ | ⟨-, done⟩ :=
          Pool.submit_cases ⟨S.next, job⟩ S.pool
        · simp only [step?, done] at step
          cases step
          have picked : S.pool.pick.2.lanes[S.pool.turn]? = some l := hl
          refine ⟨S.pool.turn, l', ⟨S.next, job⟩, ?_, ?_, rfl⟩
          · show (S.pool.pick.2.setLane S.pool.turn l').lanes[S.pool.turn]? = some l'
            rw [getElem?_setLane picked, if_pos rfl]
          · rw [Lane.jobs_submit? submitted]
            exact List.mem_append_right _ List.mem_cons_self
        · simp only [step?, done] at step
          cases step
          exact absurd waits before
      · refine absurd waits (silent_of_step step before ?_).2
        rintro job rfl same
        exact new ⟨job, rfl, same⟩

theorem jobs_of_gone (exec : Execution step? (ofSettings s d) past S)
    (hl : S.pool.lanes[i]? = some l) (gone : l.gone = true) : l.jobs = [] := by
  have sound := lane_sound exec hl
  obtain ⟨closed, nothing⟩ := sound.left_nothing gone
  have nobody : l.queue.waiting = [] := by
    by_contra some_wait
    rw [(sound.queue.full_of_waiting some_wait).2] at closed
    cases closed
  rw [Lane.jobs, Queue.contents, sound.inHand_eq_none gone, nothing, nobody]
  rfl

/-- **Nobody waits for a worker that is gone.** -/
theorem awake (exec : Execution step? (ofSettings s d) past S) (hl : S.pool.lanes[i]? = some l)
    (gone : l.gone = true) (known : (i, x) ∈ issued past) : x.number ∉ S.waiters := by
  intro waits
  obtain ⟨j, m, y, hm, hy, same⟩ := held_of_waiter exec waits
  obtain ⟨rfl, rfl⟩ := number_inj exec (issued_of_mem_jobs exec hm hy) known same
  rw [hl] at hm
  cases hm
  rw [jobs_of_gone exec hl gone] at hy
  cases hy

/-! ## Lanes without a crash -/

theorem ToldToClose.append (told : ToldToClose past) : ToldToClose (past ++ later) := by
  obtain ⟨e, he, closes⟩ := told
  exact ⟨e, List.mem_append_left _ he, closes⟩

theorem Released.append (released : Released past) : Released (past ++ later) := by
  obtain ⟨e, he, releases⟩ := released
  exact ⟨e, List.mem_append_left _ he, releases⟩

theorem mem_answering_settle {pool : Pool (Submission α)} {numbers : List Nat} {b c : JobAnswer}
    (told : c ∈ answering n ⟨S, a, (S.settle pool numbers b).1, (S.settle pool numbers b).2⟩) :
    c = b ∧ n ∈ numbers := by
  by_cases named : n ∈ numbers
  · rw [answering_settle] at told
    split at told
    · exact ⟨List.eq_of_mem_replicate told, named⟩
    · cases told
  · rw [answering_settle_of_notMem named] at told
    cases told

/-- A step tells a submitter that its job is lost if its lane has been closed, or in a crash of the
lane. -/
theorem closed_of_answering (exec : Execution step? (ofSettings s d) past S)
    (step : S.step? a = some (S', outputs)) (calm : ∀ e ∈ past, e.action ≠ .crash i)
    (quiet : a ≠ .crash i) (hl : S.pool.lanes[i]? = some l)
    (known : (i, x) ∈ issued (past ++ [⟨S, a, S', outputs⟩]))
    (lost : .lost ∈ answering x.number ⟨S, a, S', outputs⟩) : ToldToClose past ∨ Released past := by
  have whole := exec.snoc step
  -- a job is lost when it is refused at once, in a crash, and when a closing worker drains its lane
  cases a with
  | submit job =>
    have this :
        (S.pool.turn, ⟨S.next, job⟩) ∈ issued (past ++ [⟨S, .submit job, S', outputs⟩]) := by
      rw [issued_concat]
      exact List.mem_append_right _ List.mem_cons_self
    obtain ⟨k, k', hk, submitted, done⟩ | ⟨full, done⟩ := Pool.submit_cases ⟨S.next, job⟩ S.pool
    · simp only [step?, done] at step
      cases step
      cases lost
    · simp only [step?, done] at step
      cases step
      have mine : S.next = x.number := by
        by_contra other
        simp [answering, other] at lost
      obtain ⟨rfl, -⟩ := number_inj whole known this mine.symm
      refine closed_cases exec calm hl ?_
      exact Lane.closed_of_submit? (full l hl)
  | abandon k =>
    simp only [step?] at step
    split at step <;> cases step
    cases lost
  | close =>
    cases step
    cases lost
  | release =>
    simp only [step?] at step
    split at step <;> cases step
    cases lost
  | take k | retire k =>
    obtain ⟨_, -, step⟩ := Option.bind_eq_some_iff.mp step
    cases step
    cases lost
  | reply k answer =>
    obtain ⟨⟨y, p⟩, -, step⟩ := Option.bind_eq_some_iff.mp step
    cases step
    have same := (mem_answering_settle lost).1
    cases answer <;> cases same
  | crash k =>
    obtain ⟨m, m', hm, -, done⟩ := crash_cases step
    have named : x.number ∈ m.jobs.map Submission.number := by
      cases done
      exact (mem_answering_settle lost).2
    obtain ⟨y, hy, same⟩ := List.mem_map.mp named
    have among : (k, y) ∈ issued (past ++ [⟨S, .crash k, S', outputs⟩]) := by
      rw [issued_concat]
      exact List.mem_append_left _ (issued_of_mem_jobs exec hm hy)
    obtain ⟨rfl, -⟩ := number_inj whole among known same
    exact absurd rfl quiet
  | drain k =>
    obtain ⟨⟨refused, p⟩, drained, -⟩ := Option.bind_eq_some_iff.mp step
    obtain ⟨m, m', -, closing, -, -⟩ := Pool.drain?_eq_some.mp drained
    exact .inl (toldToClose_of_closing exec closing)

/-- What a lane without a crash can be relied on for, whatever happens to other lanes. -/
structure Unharmed (past : List (Event α)) (i : Nat) (l : Lane (Submission α)) : Prop where
  /-- Every job that it accepted has been begun or is still in the queue, -/
  accepted : entered i past = begun i past ++ l.queue.accepted
  /-- every publish that was begun has been answered or is in hand, -/
  published : begun i past = (finished i past).map Prod.fst ++ l.inHand.toList
  /-- and no job is there twice. -/
  distinct : ((entered i past).map Submission.number).Nodup
  /-- A submitter is told the result of its own publish, -/
  own : ∀ {x : Submission α} {answer : Except BusError Unit}, (x, answer) ∈ finished i past →
    Told x.number (Running.jobAnswer answer) past
  /-- and nothing as long as its job is in the lane. -/
  pending : ∀ {x : Submission α}, x ∈ l.jobs → answers x.number past = []
  /-- Nobody is forgotten. -/
  whole : ∀ {x : Submission α}, (i, x) ∈ issued past → x ∈ l.jobs ∨ ∃ b, Told x.number b past
  /-- A submitter is told that its job is lost only if that was not accepted, since the lanes were
  closed. -/
  lost : ∀ {x : Submission α}, (i, x) ∈ issued past → .lost ∈ answers x.number past →
    x ∉ entered i past ∧ (ToldToClose past ∨ Released past)

theorem closed_of_lost (exec : Execution step? (ofSettings s d) past S)
    (calm : ∀ e ∈ past, e.action ≠ .crash i) (known : (i, x) ∈ issued past)
    (hl : S.pool.lanes[i]? = some l) (lost : .lost ∈ answers x.number past) :
    ToldToClose past ∨ Released past := by
  induction exec generalizing l with
  | refl => cases lost
  | @snoc past S S' a outputs exec step ih =>
    obtain ⟨m, hm, -⟩ := seen_of_step step hl
    have calm_before : ∀ e ∈ past, e.action ≠ .crash i :=
      fun e he ↦ calm e (List.mem_append_left _ he)
    suffices earlier : ToldToClose past ∨ Released past from
      earlier.imp ToldToClose.append Released.append
    rw [answers_concat, List.mem_append] at lost
    rcases lost with lost | lost
    · -- an answer under a number was given after that was given out
      have old : x.number < S.next := by
        by_contra new
        rw [(unheard exec (Nat.le_of_not_lt new)).1] at lost
        cases lost
      refine ih calm_before ?_ hm lost
      rw [issued_concat, List.mem_append] at known
      refine known.resolve_right fun new ↦ ?_
      obtain ⟨job, -, -, one⟩ | ⟨-, nothing⟩ := issuing_of_step step
      · rw [one, List.mem_singleton, Prod.mk.injEq] at new
        rw [new.2] at old
        exact Nat.lt_irrefl _ old
      · rw [nothing] at new
        cases new
    · exact closed_of_answering exec step calm_before
        (calm _ (List.mem_append_right _ List.mem_cons_self)) hm known lost

/-- **Other lanes go on as if nothing had happened.** -/
theorem unharmed (exec : Execution step? (ofSettings s d) past S)
    (calm : ∀ e ∈ past, e.action ≠ .crash i) (hl : S.pool.lanes[i]? = some l) :
    Unharmed past i l where
  accepted := (ledger exec calm hl).1
  published := (ledger exec calm hl).2
  distinct := by
    have fewer := (List.sublist_append_left _ _).trans (came exec hl)
    exact (fewer.map Submission.number).nodup (nodup_toLane exec)
  own {x answer} done := by
    have fewer := (List.sublist_append_left _ _).trans (came exec hl)
    have entered := mem_entered_of_finished exec calm hl (List.mem_map_of_mem done)
    obtain ⟨out, once⟩ := finished_once exec calm hl done
    cases fate exec calm hl (mem_toLane.mp (fewer.subset entered)) with
    | inside held => exact absurd held out
    | answered again gone told =>
      rw [once _ again] at told
      exact told
    | refused never => exact absurd entered never
  pending {x} held := by
    cases fate exec calm hl (issued_of_mem_jobs exec hl held) with
    | inside _ untold => exact untold
    | answered done => exact absurd held (finished_once exec calm hl done).1
    | refused _ out => exact absurd held out
  whole {x} known := by
    cases fate exec calm hl known with
    | inside held => exact .inl held
    | answered _ _ told => exact .inr ⟨_, told⟩
    | refused _ _ _ told => exact .inr ⟨_, told⟩
  lost {x} known told_lost := by
    refine ⟨?_, closed_of_lost exec calm known hl told_lost⟩
    cases fate exec calm hl known with
    | inside _ untold =>
      rw [untold] at told_lost
      cases told_lost
    | @answered answer _ _ told =>
      obtain told | ⟨-, told⟩ := told <;> rw [told] at told_lost
      · have same := List.mem_singleton.mp told_lost
        cases answer <;> cases same
      · cases told_lost
    | refused never => exact never

end MessageBridge.Service
