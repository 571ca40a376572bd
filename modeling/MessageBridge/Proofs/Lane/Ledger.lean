import Mathlib.Data.List.Nodup
import MessageBridge.Proofs.Lane.Service

/-!
# The ledger of a lane

What a lane has done can be read off its history in three columns: the jobs that its queue
accepted, the publishes that its worker began, and those that the bus answered. Every step keeps
them balanced. What was accepted has either been begun or is still in the queue, and what was begun
has either been answered or is in hand, each in the order of acceptance.

A queue accepts the submissions in the order in which they were made. Those that gave up or were
refused are left out, so the accepted ones and the waiting ones together are a sublist of all.
-/

namespace MessageBridge.Service

universe u

variable {α : Type u}

/-! ## Submissions to one lane -/

/-- Those among submissions whose turn it was to go to this lane. -/
def toLane (i : Nat) (submissions : List (Nat × Submission α)) : List (Submission α) :=
  (submissions.filter fun t ↦ t.1 = i).map Prod.snd

theorem mem_toLane {i : Nat} {x : Submission α} {submissions : List (Nat × Submission α)} :
    x ∈ toLane i submissions ↔ (i, x) ∈ submissions := by
  simp [toLane]

theorem toLane_append {i : Nat} (first second : List (Nat × Submission α)) :
    toLane i (first ++ second) = toLane i first ++ toLane i second := by
  simp [toLane]

section Concat

variable {i n : Nat} {past : List (Event α)} {e : Event α}

theorem entered_concat : entered i (past ++ [e]) = entered i past ++ entering i e := by
  simp [entered]

theorem begun_concat : begun i (past ++ [e]) = begun i past ++ beginning i e := by
  simp [begun]

theorem finished_concat : finished i (past ++ [e]) = finished i past ++ finishing i e := by
  simp [finished]

theorem issued_concat : issued (past ++ [e]) = issued past ++ issuing e := by
  simp [issued]

theorem answers_concat : answers n (past ++ [e]) = answers n past ++ answering n e := by
  simp [answers]

end Concat

/-! ## What a step adds to the columns -/

section Columns

variable {S S' : Service α} {a : ServiceAction α} {outputs : List (ServiceOutput α)} {i : Nat}
  {l l' : Lane (Submission α)}

private theorem filterMap_answers {β : Type u} (f : Nat → ServiceOutput α)
    (g : ServiceOutput α → Option β) (silent : ∀ n, g (f n) = none) (ns : List Nat) :
    (ns.map f).filterMap g = [] := by
  rw [List.filterMap_map, List.filterMap_eq_nil_iff]
  exact fun n _ ↦ silent n

theorem beginning_eq_nil (step : S.step? a = some (S', outputs)) (idle : a ≠ .take i) :
    beginning i ⟨S, a, S', outputs⟩ = [] := by
  cases a with
  | submit job =>
    simp only [step?] at step
    split at step <;> cases step <;> rfl
  | abandon n =>
    simp only [step?] at step
    split at step <;> cases step
    rfl
  | close =>
    cases step
    rfl
  | release =>
    simp only [step?] at step
    split at step <;> cases step
    rfl
  | take j =>
    obtain ⟨⟨x, p⟩, -, step⟩ := Option.bind_eq_some_iff.mp step
    cases step
    have other : j ≠ i := fun same ↦ idle (same ▸ rfl)
    simp [beginning, other]
  | reply j answer =>
    obtain ⟨⟨x, p⟩, -, step⟩ := Option.bind_eq_some_iff.mp step
    cases step
    exact filterMap_answers _ _ (fun _ ↦ rfl) _
  | crash j =>
    obtain ⟨⟨lost, p⟩, -, step⟩ := Option.bind_eq_some_iff.mp step
    cases step
    exact filterMap_answers _ _ (fun _ ↦ rfl) _
  | drain j =>
    obtain ⟨⟨refused, p⟩, -, step⟩ := Option.bind_eq_some_iff.mp step
    cases step
    exact filterMap_answers _ _ (fun _ ↦ rfl) _
  | retire j =>
    obtain ⟨p, -, step⟩ := Option.bind_eq_some_iff.mp step
    cases step
    rfl

theorem beginning_take {x : Submission α} (step : S.step? (.take i) = some (S', outputs))
    (hl : S.pool.lanes[i]? = some l) (taken : l.take? = some (x, l')) :
    beginning i ⟨S, .take i, S', outputs⟩ = [x] := by
  obtain ⟨⟨y, p⟩, took, step⟩ := Option.bind_eq_some_iff.mp step
  cases step
  obtain ⟨m, m', hm, -, here, -⟩ := Pool.take?_eq_some.mp took
  rw [hl] at hm
  cases hm
  rw [taken] at here
  cases here
  simp [beginning]

theorem entering_eq_drop (hl : S.pool.lanes[i]? = some l) (hl' : S'.pool.lanes[i]? = some l')
    (quiet : beginning i ⟨S, a, S', outputs⟩ = []) :
    entering i ⟨S, a, S', outputs⟩ = l'.queue.accepted.drop l.queue.accepted.length := by
  simp [entering, hl, hl', quiet]

theorem entering_of_beginning {x : Submission α} (hl : S.pool.lanes[i]? = some l)
    (hl' : S'.pool.lanes[i]? = some l') (began : beginning i ⟨S, a, S', outputs⟩ = [x]) :
    entering i ⟨S, a, S', outputs⟩ =
      l'.queue.accepted.drop (l.queue.accepted.length - 1) := by
  simp [entering, hl, hl', began]

theorem finishing_eq_nil (silent : ∀ answer, a ≠ .reply i answer) :
    finishing i ⟨S, a, S', outputs⟩ = [] := by
  unfold finishing
  split
  · rename_i j answer same
    exact if_neg fun here ↦ silent answer (by rw [← here]; exact same)
  · rfl

theorem finishing_reply {x : Submission α} {answer : Except BusError Unit}
    (hl : S.pool.lanes[i]? = some l) (hand : l.inHand = some x) :
    finishing i ⟨S, .reply i answer, S', outputs⟩ = [(x, answer)] := by
  simp [finishing, hl, hand]

theorem toLane_submit {job : α} (turn : S.pool.turn = i) :
    toLane i (issuing ⟨S, .submit job, S', outputs⟩) = [⟨S.next, job⟩] := by
  simp [toLane, issuing, turn]

end Columns

/-! ## One step -/

/-- A step takes jobs out of a lane, or submits one to it, which goes to the end. -/
theorem Seen.jobs {S : Service α} {a : ServiceAction α} {i : Nat} {l l' : Lane (Submission α)}
    (seen : Seen S i a l l') :
    l'.jobs.Sublist l.jobs ∨
      ∃ job, a = .submit job ∧ S.pool.turn = i ∧ l'.jobs = l.jobs ++ [⟨S.next, job⟩] := by
  cases seen with
  | same => exact .inl (List.Sublist.refl _)
  | submit turn submitted => exact .inr ⟨_, rfl, turn, Lane.jobs_submit? submitted⟩
  | abandon => exact .inl (Lane.jobs_withdraw_sublist _ l)
  | release => exact .inl (Lane.jobs_release_sublist l)
  | take may taken =>
    rw [Lane.jobs_take? taken]
    exact .inl (List.Sublist.refl _)
  | finish finished =>
    rw [Lane.jobs_finish? finished]
    exact .inl (List.sublist_cons_self _ _)
  | crash crashed =>
    rw [(Lane.jobs_crash? crashed).2]
    exact .inl (List.nil_sublist _)
  | drain closing drained =>
    rw [Lane.jobs_drain? drained]
    exact .inl (List.sublist_append_left _ _)
  | retire ended =>
    rw [Lane.jobs_end? ended]
    exact .inl (List.Sublist.refl _)

/-- Nothing gets into a lane except by submission. -/
theorem Seen.mem_jobs {S : Service α} {a : ServiceAction α} {i : Nat} {l l' : Lane (Submission α)}
    (seen : Seen S i a l l') {x : Submission α} (hx : x ∈ l'.jobs) :
    x ∈ l.jobs ∨ ∃ job, a = .submit job ∧ S.pool.turn = i ∧ x = ⟨S.next, job⟩ := by
  obtain fewer | ⟨job, submits, turn, new⟩ := seen.jobs
  · exact .inl (fewer.subset hx)
  · rw [new, List.mem_append, List.mem_singleton] at hx
    exact hx.imp id fun same ↦ ⟨job, submits, turn, same⟩

/-- A job stays in its lane until its publish is answered, or it waits for a place and its
submitter leaves or the queue is closed, or the worker crashes. -/
theorem Seen.stays {S : Service α} {a : ServiceAction α} {i : Nat} {l l' : Lane (Submission α)}
    (seen : Seen S i a l l') {x : Submission α} (hx : x ∈ l.jobs) :
    x ∈ l'.jobs ∨ (a = .abandon x.number ∧ x ∈ l.queue.waiting) ∨
      (∃ answer, a = .reply i answer ∧ l.inHand = some x) ∨
      (a = .drain i ∧ x ∈ l.queue.waiting) ∨ a = .crash i := by
  cases seen with
  | same => exact .inl hx
  | submit turn submitted =>
    rw [Lane.jobs_submit? submitted]
    exact .inl (List.mem_append_left _ hx)
  | @abandon n =>
    -- an accepted job stays when its submitter leaves
    by_cases mine : x.number = n
    · by_cases waits : x ∈ l.queue.waiting
      · exact .inr (.inl ⟨by rw [mine], waits⟩)
      · refine .inl ?_
        rw [Lane.jobs, Queue.contents, ← List.append_assoc, List.mem_append] at hx
        have held := hx.resolve_right waits
        rw [Lane.jobs, Queue.contents, ← List.append_assoc]
        exact List.mem_append_left _ held
    · refine .inl ?_
      have kept : x ∈ l.jobs.filter fun y ↦ y.number != n :=
        List.mem_filter.mpr ⟨hx, by simpa using mine⟩
      have others : ∀ y : Submission α, (y.number != n) = true → (y.number == n) = false := by
        simp
      rw [← Lane.filter_jobs_withdraw others] at kept
      exact List.mem_of_mem_filter kept
  | release nobody =>
    refine .inl ?_
    simpa [Lane.jobs, Lane.release, Queue.close, Queue.contents, nobody] using hx
  | take may taken =>
    rw [Lane.jobs_take? taken]
    exact .inl hx
  | @finish y answer _ _ finished =>
    rw [Lane.jobs_finish? finished, List.mem_cons] at hx
    rcases hx with rfl | hx
    · exact .inr (.inr (.inl ⟨answer, rfl, (Lane.finish?_eq_some.mp finished).1⟩))
    · exact .inl hx
  | crash => exact .inr (.inr (.inr (.inr rfl)))
  | drain closing drained =>
    rw [Lane.jobs_drain? drained, List.mem_append] at hx
    rcases hx with hx | hx
    · exact .inl hx
    · obtain ⟨-, -, rfl, -⟩ := Lane.drain?_eq_some.mp drained
      exact .inr (.inr (.inr (.inl ⟨rfl, hx⟩)))
  | retire ended =>
    rw [Lane.jobs_end? ended]
    exact .inl hx

/-- What a queue accepts when it takes an offer, and who waits afterwards. -/
private theorem offer?_split {x : Submission α} {q r : Queue (Submission α)}
    (offered : q.offer? x = some r) :
    q.accepted ++ r.accepted.drop q.accepted.length = r.accepted ∧
      (r.accepted.drop q.accepted.length ++ r.waiting).Sublist (q.waiting ++ [x]) := by
  unfold Queue.offer? at offered
  split at offered
  · cases offered
  · split at offered
    · rename_i place
      cases offered
      simp only [Queue.hasPlace, Bool.and_eq_true, List.isEmpty_iff] at place
      simp [place.1]
    · cases offered
      simp

/-- What a queue accepts when its first job is taken, and who waits afterwards. -/
private theorem take?_split {x : Submission α} {q r : Queue (Submission α)}
    (taken : q.take? = some (x, r)) :
    q.accepted ++ r.accepted.drop (q.accepted.length - 1) = x :: r.accepted ∧
      r.accepted.drop (q.accepted.length - 1) ++ r.waiting = q.waiting := by
  unfold Queue.take? at taken
  split at taken
  · cases taken
  · rename_i b rest accepted
    split at taken
    · rename_i waiting
      cases taken
      simp [accepted, waiting]
    · rename_i c others waiting
      cases taken
      simp [accepted, waiting]

/-- A step of a lane without a crash keeps its columns balanced. -/
structure Balance (i : Nat) (e : Event α) (l l' : Lane (Submission α)) : Prop where
  accepted : l.queue.accepted ++ entering i e = beginning i e ++ l'.queue.accepted
  inHand : l.inHand.toList ++ beginning i e = (finishing i e).map Prod.fst ++ l'.inHand.toList

theorem balance_of_step {S S' : Service α} {a : ServiceAction α}
    {outputs : List (ServiceOutput α)} (step : S.step? a = some (S', outputs)) {i : Nat}
    {l l' : Lane (Submission α)} (hl : S.pool.lanes[i]? = some l)
    (hl' : S'.pool.lanes[i]? = some l') (calm : a ≠ .crash i) :
    Balance i ⟨S, a, S', outputs⟩ l l' := by
  obtain ⟨m, hm, seen⟩ := seen_of_step step hl'
  rw [hl] at hm
  cases hm
  -- only `take` begins a publish and only `reply` ends one
  have quiet (idle : a ≠ .take i) (silent : ∀ answer, a ≠ .reply i answer)
      (same : l.inHand = l'.inHand)
      (grows : l.queue.accepted ++ l'.queue.accepted.drop l.queue.accepted.length =
        l'.queue.accepted) : Balance i ⟨S, a, S', outputs⟩ l l' := by
    refine ⟨?_, ?_⟩
    · rw [entering_eq_drop hl hl' (beginning_eq_nil step idle), beginning_eq_nil step idle]
      exact grows
    · rw [beginning_eq_nil step idle, finishing_eq_nil silent, same, List.append_nil]
      rfl
  cases seen with
  | same took silent => exact quiet took silent rfl (by simp)
  | submit turn submitted =>
    obtain ⟨q, offered, rfl⟩ := Lane.submit?_eq_some.mp submitted
    exact quiet (by simp) (by simp) rfl (offer?_split offered).1
  | abandon =>
    exact quiet (by simp) (by simp) rfl (by simp [Lane.withdraw, Queue.withdraw])
  | release =>
    exact quiet (by simp) (by simp) rfl (by simp [Lane.release, Queue.close])
  | take may taken =>
    have began := beginning_take step hl taken
    obtain ⟨-, idle, q, here, rfl⟩ := Lane.take?_eq_some.mp taken
    refine ⟨?_, ?_⟩
    · rw [entering_of_beginning hl hl' began, began]
      exact (take?_split here).1
    · rw [began, finishing_eq_nil (by simp), idle]
      rfl
  | finish finished =>
    obtain ⟨hand, rfl⟩ := Lane.finish?_eq_some.mp finished
    refine ⟨?_, ?_⟩
    · rw [entering_eq_drop hl hl' (beginning_eq_nil step (by simp)),
        beginning_eq_nil step (by simp)]
      simp
    · rw [beginning_eq_nil step (by simp), finishing_reply hl hand, hand]
      rfl
  | crash crashed => exact absurd rfl calm
  | drain closing drained =>
    obtain ⟨-, idle, -, rfl⟩ := Lane.drain?_eq_some.mp drained
    exact quiet (by simp) (by simp) rfl (by simp [Queue.close])
  | retire ended =>
    obtain ⟨-, -, -, -, rfl⟩ := Lane.end?_eq_some.mp ended
    exact quiet (by simp) (by simp) rfl (by simp)

/-- Whoever is accepted by a lane in a step, or waits for it afterwards, waited for it before or
has just been submitted to it. -/
theorem came_of_step {S S' : Service α} {a : ServiceAction α}
    {outputs : List (ServiceOutput α)} (step : S.step? a = some (S', outputs)) {i : Nat}
    {l l' : Lane (Submission α)} (hl : S.pool.lanes[i]? = some l)
    (hl' : S'.pool.lanes[i]? = some l') :
    (entering i ⟨S, a, S', outputs⟩ ++ l'.queue.waiting).Sublist
      (l.queue.waiting ++ toLane i (issuing ⟨S, a, S', outputs⟩)) := by
  obtain ⟨m, hm, seen⟩ := seen_of_step step hl'
  rw [hl] at hm
  cases hm
  -- unless a job is submitted or taken, nobody is accepted and those who wait get fewer
  have quiet (idle : a ≠ .take i) (nothing : l'.queue.accepted.drop l.queue.accepted.length = [])
      (less : l'.queue.waiting.Sublist l.queue.waiting) :
      (entering i ⟨S, a, S', outputs⟩ ++ l'.queue.waiting).Sublist
        (l.queue.waiting ++ toLane i (issuing ⟨S, a, S', outputs⟩)) := by
    rw [entering_eq_drop hl hl' (beginning_eq_nil step idle), nothing]
    exact less.trans (List.sublist_append_left _ _)
  cases seen with
  | same took silent => exact quiet took (by simp) (List.Sublist.refl _)
  | submit turn submitted =>
    obtain ⟨q, offered, rfl⟩ := Lane.submit?_eq_some.mp submitted
    rw [entering_eq_drop hl hl' (beginning_eq_nil step (by simp)), toLane_submit turn]
    exact (offer?_split offered).2
  | abandon =>
    exact quiet (by simp) (by simp [Lane.withdraw, Queue.withdraw]) List.filter_sublist
  | release =>
    exact quiet (by simp) (by simp [Lane.release, Queue.close]) (List.nil_sublist _)
  | take may taken =>
    have began := beginning_take step hl taken
    obtain ⟨-, -, q, here, rfl⟩ := Lane.take?_eq_some.mp taken
    rw [entering_of_beginning hl hl' began, (take?_split here).2]
    exact List.sublist_append_left _ _
  | finish finished =>
    obtain ⟨-, rfl⟩ := Lane.finish?_eq_some.mp finished
    exact quiet (by simp) (by simp) (List.Sublist.refl _)
  | crash crashed =>
    obtain ⟨x, -, -, rfl⟩ := Lane.crash?_eq_some.mp crashed
    exact quiet (by simp) (by simp [Queue.discard]) (List.nil_sublist _)
  | drain closing drained =>
    obtain ⟨-, -, -, rfl⟩ := Lane.drain?_eq_some.mp drained
    exact quiet (by simp) (by simp [Queue.close]) (List.nil_sublist _)
  | retire ended =>
    obtain ⟨-, -, -, -, rfl⟩ := Lane.end?_eq_some.mp ended
    exact quiet (by simp) (by simp) (List.Sublist.refl _)

/-! ## Whole runs -/

section Runs

variable {s : EngineSettings} {d : Destination} {past : List (Event α)} {S : Service α} {i : Nat}
  {l : Lane (Submission α)}

theorem lane_ofSettings (hl : (ofSettings s d : Service α).pool.lanes[i]? = some l) :
    l = .idle (max s.depth 1) := by
  change (List.replicate (max s.lanes 1) (Lane.idle (max s.depth 1)))[i]? = some l at hl
  rw [List.getElem?_replicate] at hl
  split at hl <;> cases hl
  rfl

/-- **What was accepted is what was begun and what is still in the queue; what was begun is what was
answered and what is in hand.** -/
theorem ledger (exec : Execution step? (ofSettings s d) past S)
    (calm : ∀ e ∈ past, e.action ≠ .crash i) (hl : S.pool.lanes[i]? = some l) :
    entered i past = begun i past ++ l.queue.accepted ∧
      begun i past = (finished i past).map Prod.fst ++ l.inHand.toList := by
  induction exec generalizing l with
  | refl =>
    rw [lane_ofSettings hl]
    exact ⟨rfl, rfl⟩
  | @snoc past S S' a outputs exec step ih =>
    obtain ⟨m, hm, -⟩ := seen_of_step step hl
    have calm_before : ∀ e ∈ past, e.action ≠ .crash i :=
      fun e he ↦ calm e (List.mem_append_left _ he)
    obtain ⟨accepted, inHand⟩ := ih calm_before hm
    have balance := balance_of_step step hm hl (calm _ (List.mem_append_right _ List.mem_cons_self))
    rw [entered_concat, begun_concat, finished_concat]
    constructor
    · rw [accepted, List.append_assoc, balance.accepted, List.append_assoc]
    · rw [inHand, List.append_assoc, balance.inHand, List.map_append, List.append_assoc]

/-- **Acceptance follows the order of submission.** -/
theorem came (exec : Execution step? (ofSettings s d) past S) (hl : S.pool.lanes[i]? = some l) :
    (entered i past ++ l.queue.waiting).Sublist (toLane i (issued past)) := by
  induction exec generalizing l with
  | refl =>
    rw [lane_ofSettings hl]
    exact List.Sublist.refl _
  | @snoc past S S' a outputs exec step ih =>
    obtain ⟨m, hm, -⟩ := seen_of_step step hl
    -- a place is given to the first that waits, so acceptance and waiting together keep the order
    rw [entered_concat, issued_concat, toLane_append, List.append_assoc]
    refine ((came_of_step step hm hl).append_left _).trans ?_
    rw [← List.append_assoc]
    exact (ih hm).append_right _

/-! ### Numbers -/

theorem issuing_of_step {S S' : Service α} {a : ServiceAction α}
    {outputs : List (ServiceOutput α)} (step : S.step? a = some (S', outputs)) :
    (∃ job, a = .submit job ∧ S'.next = S.next + 1 ∧
        issuing ⟨S, a, S', outputs⟩ = [(S.pool.turn, ⟨S.next, job⟩)]) ∨
      S'.next = S.next ∧ issuing ⟨S, a, S', outputs⟩ = [] := by
  cases a with
  | submit job =>
    simp only [step?] at step
    split at step <;> cases step <;> exact .inl ⟨job, rfl, rfl, rfl⟩
  | abandon n =>
    simp only [step?] at step
    split at step <;> cases step
    exact .inr ⟨rfl, rfl⟩
  | close =>
    cases step
    exact .inr ⟨rfl, rfl⟩
  | release =>
    simp only [step?] at step
    split at step <;> cases step
    exact .inr ⟨rfl, rfl⟩
  | take j | reply j | crash j | drain j | retire j =>
    obtain ⟨_, -, step⟩ := Option.bind_eq_some_iff.mp step
    cases step
    exact .inr ⟨rfl, rfl⟩

/-- Submissions are numbered as they come. -/
theorem issued_numbers (exec : Execution step? (ofSettings s d) past S) :
    (issued past).map (fun t ↦ t.2.number) = List.range S.next := by
  induction exec with
  | refl => rfl
  | snoc _ step ih =>
    rw [issued_concat, List.map_append, ih]
    obtain ⟨job, -, next, new⟩ | ⟨next, nothing⟩ := issuing_of_step step
    · rw [new, next, List.range_succ]
      rfl
    · rw [nothing, next]
      exact List.append_nil _

theorem number_lt (exec : Execution step? (ofSettings s d) past S) {x : Submission α}
    (hx : (i, x) ∈ issued past) : x.number < S.next := by
  rw [← List.mem_range, ← issued_numbers exec]
  exact List.mem_map_of_mem hx

/-- A number names one submission to one lane. -/
theorem number_inj (exec : Execution step? (ofSettings s d) past S) {j : Nat} {x y : Submission α}
    (hx : (i, x) ∈ issued past) (hy : (j, y) ∈ issued past) (same : x.number = y.number) :
    i = j ∧ x = y := by
  have nodup : ((issued past).map fun t ↦ t.2.number).Nodup := by
    rw [issued_numbers exec]
    exact List.nodup_range
  have := List.inj_on_of_nodup_map nodup hx hy same
  exact ⟨congrArg Prod.fst this, congrArg Prod.snd this⟩

theorem nodup_toLane (exec : Execution step? (ofSettings s d) past S) :
    ((toLane i (issued past)).map Submission.number).Nodup := by
  have fewer : ((toLane i (issued past)).map Submission.number).Sublist
      ((issued past).map fun t ↦ t.2.number) := by
    rw [toLane, List.map_map]
    exact List.filter_sublist.map _
  refine fewer.nodup ?_
  rw [issued_numbers exec]
  exact List.nodup_range

/-- The jobs of a lane are in the order in which they were submitted to it. -/
theorem jobs_came (exec : Execution step? (ofSettings s d) past S)
    (hl : S.pool.lanes[i]? = some l) : l.jobs.Sublist (toLane i (issued past)) := by
  induction exec generalizing l with
  | refl =>
    rw [lane_ofSettings hl]
    exact List.Sublist.refl _
  | @snoc past S S' a outputs exec step ih =>
    obtain ⟨m, hm, seen⟩ := seen_of_step step hl
    rw [issued_concat, toLane_append]
    obtain fewer | ⟨job, rfl, turn, new⟩ := seen.jobs
    · exact (fewer.trans (ih hm)).trans (List.sublist_append_left _ _)
    · rw [new, toLane_submit turn]
      exact (ih hm).append_right _

theorem issued_of_mem_jobs (exec : Execution step? (ofSettings s d) past S)
    (hl : S.pool.lanes[i]? = some l) {x : Submission α} (hx : x ∈ l.jobs) :
    (i, x) ∈ issued past := mem_toLane.mp ((jobs_came exec hl).subset hx)

theorem nodup_jobs (exec : Execution step? (ofSettings s d) past S)
    (hl : S.pool.lanes[i]? = some l) : l.jobs.Nodup :=
  (jobs_came exec hl).nodup (List.Nodup.of_map _ (nodup_toLane exec))

end Runs

end MessageBridge.Service
