import MessageBridge.Proofs.Lane.Ledger

/-!
# The fate of a submission

As long as a job is in its lane nothing has been told to its submitter. When it leaves, it leaves
for good: its publish was answered, or it was never accepted. A submitter that stayed is then told
once which of the two it was, and with what result.
-/

namespace MessageBridge.Service

universe u

variable {α : Type u}

/-! ## Answers -/

theorem abandoned_concat {n : Nat} {past : List (Event α)} {e : Event α} :
    Abandoned n (past ++ [e]) ↔ Abandoned n past ∨ e.action = .abandon n := by
  simp [Abandoned, or_and_right, exists_or]

section Settle

variable {S : Service α} {a : ServiceAction α} {pool : Pool (Submission α)} {numbers : List Nat}
  {b : JobAnswer} {n : Nat}

theorem waiters_settle :
    n ∈ (S.settle pool numbers b).1.waiters ↔ n ∈ S.waiters ∧ n ∉ numbers := by
  simp [settle]

theorem answering_settle :
    answering n ⟨S, a, (S.settle pool numbers b).1, (S.settle pool numbers b).2⟩ =
      if n ∈ S.waiters then List.replicate (numbers.count n) b else [] := by
  simp only [answering, settle]
  induction numbers with
  | nil => simp
  | cons m numbers ih =>
    rw [List.filter_cons, List.count_cons]
    by_cases waits : m ∈ S.waiters
    · rw [if_pos (by simpa using waits), List.map_cons, List.filterMap_cons, ih]
      by_cases mine : m = n
      · subst mine
        simp [waits, List.replicate_succ]
      · simp [mine]
    · rw [if_neg (by simpa using waits), ih]
      by_cases mine : m = n
      · subst mine
        simp [waits]
      · simp [mine]

theorem answering_settle_of_notMem (h : n ∉ numbers) :
    answering n ⟨S, a, (S.settle pool numbers b).1, (S.settle pool numbers b).2⟩ = [] := by
  rw [answering_settle, List.count_eq_zero_of_not_mem h]
  exact ite_self _

theorem answering_settle_of_mem (nodup : numbers.Nodup) (h : n ∈ numbers) :
    answering n ⟨S, a, (S.settle pool numbers b).1, (S.settle pool numbers b).2⟩ =
      if n ∈ S.waiters then [b] else [] := by
  rw [answering_settle, List.count_eq_one_of_mem nodup h]
  rfl

end Settle

theorem silent_of_step {S S' : Service α} {a : ServiceAction α}
    {outputs : List (ServiceOutput α)} (step : S.step? a = some (S', outputs)) {n : Nat}
    (gone : n ∉ S.waiters) (old : ∀ job, a = .submit job → n ≠ S.next) :
    answering n ⟨S, a, S', outputs⟩ = [] ∧ n ∉ S'.waiters := by
  cases a with
  | submit job =>
    have other := old job rfl
    simp only [step?] at step
    split at step <;> cases step
    · exact ⟨rfl, by simpa [gone] using other⟩
    · exact ⟨by simp [answering, other.symm], gone⟩
  | abandon m =>
    simp only [step?] at step
    split at step <;> cases step
    exact ⟨rfl, fun h ↦ gone (List.mem_of_mem_filter h)⟩
  | close =>
    cases step
    exact ⟨rfl, gone⟩
  | release =>
    simp only [step?] at step
    split at step <;> cases step
    exact ⟨rfl, gone⟩
  | take j | retire j =>
    obtain ⟨_, -, step⟩ := Option.bind_eq_some_iff.mp step
    cases step
    exact ⟨rfl, gone⟩
  | reply j | crash j | drain j =>
    obtain ⟨_, -, step⟩ := Option.bind_eq_some_iff.mp step
    cases step
    exact ⟨answering_settle.trans (if_neg gone), fun h ↦ gone (List.mem_of_mem_filter h)⟩

/-! ## The fate of a submission -/

/-- A submitter that stayed has been told how its submission ended, and no other has been told
anything. -/
def Told (n : Nat) (b : JobAnswer) (past : List (Event α)) : Prop :=
  answers n past = [b] ∨ Abandoned n past ∧ answers n past = []

/-- What has become of a submission to a lane. -/
inductive Fate (past : List (Event α)) (S : Service α) (i : Nat) (l : Lane (Submission α))
    (x : Submission α) : Prop where
  /-- It is still in the lane, and waits for a place in it only as long as its submitter does. -/
  | inside (held : x ∈ l.jobs) (untold : answers x.number past = [])
      (waits : x.number ∈ S.waiters ∨ Abandoned x.number past ∧ x ∉ l.queue.waiting)
  /-- Its publish has been answered. -/
  | answered {answer : Except BusError Unit} (done : (x, answer) ∈ finished i past)
      (gone : x.number ∉ S.waiters) (told : Told x.number (Running.jobAnswer answer) past)
  /-- It was never accepted. -/
  | refused (never : x ∉ entered i past) (out : x ∉ l.jobs) (gone : x.number ∉ S.waiters)
      (told : Told x.number .lost past)

theorem Told.concat {n : Nat} {b : JobAnswer} {past : List (Event α)} {e : Event α}
    (told : Told n b past) (silent : answering n e = []) : Told n b (past ++ [e]) := by
  unfold Told
  rw [answers_concat, silent, List.append_nil, abandoned_concat]
  exact told.imp id fun left ↦ ⟨.inl left.1, left.2⟩

section Fates

variable {s : EngineSettings} {d : Destination} {past : List (Event α)} {S S' : Service α}
  {a : ServiceAction α} {outputs : List (ServiceOutput α)} {i : Nat} {l l' : Lane (Submission α)}
  {x : Submission α}

theorem jobs_sublist (exec : Execution step? (ofSettings s d) past S)
    (calm : ∀ e ∈ past, e.action ≠ .crash i) (hl : S.pool.lanes[i]? = some l) :
    ((finished i past).map Prod.fst ++ l.jobs).Sublist (toLane i (issued past)) := by
  obtain ⟨accepted, inHand⟩ := ledger exec calm hl
  have whole : (finished i past).map Prod.fst ++ l.jobs = entered i past ++ l.queue.waiting := by
    rw [accepted, inHand, Lane.jobs, Queue.contents]
    simp only [List.append_assoc]
  rw [whole]
  exact came exec hl

theorem notMem_entered_of_waiting (exec : Execution step? (ofSettings s d) past S)
    (hl : S.pool.lanes[i]? = some l) (waits : x ∈ l.queue.waiting) : x ∉ entered i past := by
  have all := List.Nodup.of_map _ (nodup_toLane exec (i := i))
  have apart := (List.nodup_append.mp ((came exec hl).nodup all)).2.2
  exact fun entered ↦ apart x entered x waits rfl

/-- Jobs that leave a lane are not named like any that stay in one. -/
theorem number_notMem_of_leaving (exec : Execution step? (ofSettings s d) past S) {j : Nat}
    {m m' : Lane (Submission α)} {leaving : List (Submission α)} (hm : S.pool.lanes[j]? = some m)
    (parted : m.jobs.Perm (leaving ++ m'.jobs))
    (hl' : (S.pool.setLane j m').lanes[i]? = some l') (known : (i, x) ∈ issued past)
    (kept : x ∈ l'.jobs) : x.number ∉ leaving.map Submission.number := by
  intro named
  -- a number names one submission, which is either among the leaving ones or stays
  obtain ⟨y, hy, same⟩ := List.mem_map.mp named
  have of_lane := issued_of_mem_jobs exec hm (parted.mem_iff.mpr (List.mem_append_left _ hy))
  obtain ⟨rfl, rfl⟩ := number_inj exec of_lane known same
  rw [getElem?_setLane hm, if_pos rfl] at hl'
  cases hl'
  have nodup := parted.nodup_iff.mp (nodup_jobs exec hm)
  exact (List.nodup_append.mp nodup).2.2 y hy y kept rfl

theorem unsettled (exec : Execution step? (ofSettings s d) past S)
    (step : S.step? a = some (S', outputs)) (hl : S.pool.lanes[i]? = some l)
    (hl' : S'.pool.lanes[i]? = some l') (held : x ∈ l.jobs) (kept : x ∈ l'.jobs) :
    answering x.number ⟨S, a, S', outputs⟩ = [] ∧
      (a ≠ .abandon x.number → x.number ∈ S.waiters → x.number ∈ S'.waiters) := by
  have known := issued_of_mem_jobs exec hl held
  have old := number_lt exec known
  -- settled are the jobs that leave a lane, and this one stays in its own
  have settled {j : Nat} {m m' : Lane (Submission α)} {leaving : List (Submission α)}
      {b : JobAnswer} (hm : S.pool.lanes[j]? = some m) (parted : m.jobs.Perm (leaving ++ m'.jobs))
      (done : S.settle (S.pool.setLane j m') (leaving.map Submission.number) b = (S', outputs)) :
      answering x.number ⟨S, a, S', outputs⟩ = [] ∧
        (a ≠ .abandon x.number → x.number ∈ S.waiters → x.number ∈ S'.waiters) := by
    cases done
    have stays := number_notMem_of_leaving exec hm parted hl' known kept
    exact ⟨answering_settle_of_notMem stays,
      fun _ waits ↦ (waiters_settle (b := b)).mpr ⟨waits, stays⟩⟩
  cases a with
  | submit job =>
    simp only [step?] at step
    have other : S.next ≠ x.number := fun same ↦ absurd old (by omega)
    split at step <;> cases step
    · exact ⟨rfl, fun _ waits ↦ List.mem_append_left _ waits⟩
    · exact ⟨by simp [answering, other], fun _ waits ↦ waits⟩
  | abandon n =>
    simp only [step?] at step
    split at step <;> cases step
    refine ⟨rfl, fun other waits ↦ List.mem_filter.mpr ⟨waits, ?_⟩⟩
    rw [bne_iff_ne]
    rintro rfl
    exact other rfl
  | close =>
    cases step
    exact ⟨rfl, fun _ waits ↦ waits⟩
  | release =>
    simp only [step?] at step
    split at step <;> cases step
    exact ⟨rfl, fun _ waits ↦ waits⟩
  | take j | retire j =>
    obtain ⟨_, -, step⟩ := Option.bind_eq_some_iff.mp step
    cases step
    exact ⟨rfl, fun _ waits ↦ waits⟩
  | reply j answer =>
    obtain ⟨⟨y, p⟩, finished, done⟩ := Option.bind_eq_some_iff.mp step
    obtain ⟨m, m', hm, here, rfl⟩ := Pool.finish?_eq_some.mp finished
    have parted : m.jobs.Perm ([y] ++ m'.jobs) := .of_eq (Lane.jobs_finish? here)
    exact settled hm parted (Option.some.inj done)
  | crash j =>
    obtain ⟨⟨lost, p⟩, crashed, done⟩ := Option.bind_eq_some_iff.mp step
    obtain ⟨m, m', hm, here, rfl⟩ := Pool.crash?_eq_some.mp crashed
    obtain ⟨all, nothing⟩ := Lane.jobs_crash? here
    exact settled hm (.of_eq (by rw [all, nothing, List.append_nil])) (Option.some.inj done)
  | drain j =>
    obtain ⟨⟨refused, p⟩, drained, done⟩ := Option.bind_eq_some_iff.mp step
    obtain ⟨m, m', hm, -, here, rfl⟩ := Pool.drain?_eq_some.mp drained
    refine settled hm ?_ (Option.some.inj done)
    rw [Lane.jobs_drain? here]
    exact List.perm_append_comm

theorem answered_of_reply (hl : S.pool.lanes[i]? = some l)
    {answer : Except BusError Unit} (step : S.step? (.reply i answer) = some (S', outputs))
    (hand : l.inHand = some x) :
    x.number ∉ S'.waiters ∧ answering x.number ⟨S, .reply i answer, S', outputs⟩ =
      if x.number ∈ S.waiters then [Running.jobAnswer answer] else [] := by
  obtain ⟨⟨y, p⟩, finished, done⟩ := Option.bind_eq_some_iff.mp step
  obtain ⟨m, m', hm, here, rfl⟩ := Pool.finish?_eq_some.mp finished
  rw [hl] at hm
  cases hm
  rw [(Lane.finish?_eq_some.mp here).1] at hand
  cases hand
  cases done
  exact ⟨fun h ↦ ((waiters_settle (b := Running.jobAnswer answer)).mp h).2 List.mem_cons_self,
    answering_settle_of_mem (List.nodup_singleton _) List.mem_cons_self⟩

theorem refused_of_drain (exec : Execution step? (ofSettings s d) past S)
    (hl : S.pool.lanes[i]? = some l)
    (step : S.step? (.drain i) = some (S', outputs)) (waits : x ∈ l.queue.waiting) :
    x.number ∉ S'.waiters ∧ answering x.number ⟨S, .drain i, S', outputs⟩ =
      if x.number ∈ S.waiters then [.lost] else [] := by
  obtain ⟨⟨refused, p⟩, drained, done⟩ := Option.bind_eq_some_iff.mp step
  obtain ⟨m, m', hm, -, here, rfl⟩ := Pool.drain?_eq_some.mp drained
  rw [hl] at hm
  cases hm
  obtain ⟨-, -, rfl, -⟩ := Lane.drain?_eq_some.mp here
  cases done
  have named := List.mem_map_of_mem (f := Submission.number) waits
  have nodup : (l.queue.waiting.map Submission.number).Nodup := by
    have some_of := ((List.sublist_append_right _ _).trans (came exec hl)).map Submission.number
    exact some_of.nodup (nodup_toLane exec)
  exact ⟨fun h ↦ ((waiters_settle (b := .lost)).mp h).2 named,
    answering_settle_of_mem nodup named⟩

/-- An answer settles whoever still waits, and those who left are told nothing. -/
theorem Told.of_settled {n : Nat} {b : JobAnswer} {e : Event α}
    (untold : answers n past = []) (waits : n ∈ S.waiters ∨ Abandoned n past)
    (answer : answering n e = if n ∈ S.waiters then [b] else []) : Told n b (past ++ [e]) := by
  unfold Told
  rw [answers_concat, untold, List.nil_append, abandoned_concat, answer]
  by_cases waiting : n ∈ S.waiters
  · exact .inl (if_pos waiting)
  · exact .inr ⟨.inl (waits.resolve_left waiting), if_neg waiting⟩

theorem unheard (exec : Execution step? (ofSettings s d) past S) {n : Nat} (new : S.next ≤ n) :
    answers n past = [] ∧ n ∉ S.waiters := by
  induction exec with
  | refl => exact ⟨rfl, List.not_mem_nil⟩
  | @snoc past S S' a outputs exec step ih =>
    have later : S.next ≤ n ∧ ∀ job, a = .submit job → n ≠ S.next := by
      obtain ⟨job, -, next, -⟩ | ⟨next, nothing⟩ := issuing_of_step step
      · exact ⟨by omega, fun _ _ ↦ by omega⟩
      · refine ⟨by omega, ?_⟩
        rintro job rfl
        cases nothing
    obtain ⟨untold, gone⟩ := ih later.1
    obtain ⟨silent, gone⟩ := silent_of_step step gone later.2
    exact ⟨by rw [answers_concat, untold, silent]; rfl, gone⟩

theorem notMem_entering (step : S.step? a = some (S', outputs)) (hl : S.pool.lanes[i]? = some l)
    (hl' : S'.pool.lanes[i]? = some l') (quiet : a ≠ .crash i) (idle : a ≠ .take i)
    (out : x ∉ l'.jobs) : x ∉ entering i ⟨S, a, S', outputs⟩ := by
  intro new
  have balance := (balance_of_step step hl hl' quiet).accepted
  rw [beginning_eq_nil step idle, List.nil_append] at balance
  have accepted : x ∈ l'.queue.accepted := by
    rw [← balance]
    exact List.mem_append_right _ new
  exact out (List.mem_append_right _ (List.mem_append_left _ accepted))

theorem waited_of_came (step : S.step? a = some (S', outputs)) (hl : S.pool.lanes[i]? = some l)
    (hl' : S'.pool.lanes[i]? = some l') (old : x.number < S.next)
    (hx : x ∈ entering i ⟨S, a, S', outputs⟩ ++ l'.queue.waiting) : x ∈ l.queue.waiting := by
  rcases List.mem_append.mp ((came_of_step step hl hl').subset hx) with waited | new
  · exact waited
  · exfalso
    rw [mem_toLane] at new
    obtain ⟨job, -, -, one⟩ | ⟨-, nothing⟩ := issuing_of_step step
    · rw [one, List.mem_singleton, Prod.mk.injEq] at new
      rw [new.2] at old
      exact Nat.lt_irrefl _ old
    · rw [nothing] at new
      cases new

theorem notMem_waiting_of_abandon (step : S.step? (.abandon x.number) = some (S', outputs))
    (hl' : S'.pool.lanes[i]? = some l') : x ∉ l'.queue.waiting := by
  simp only [step?] at step
  split at step <;> cases step
  rw [Pool.withdraw, List.getElem?_map, Option.map_eq_some_iff] at hl'
  obtain ⟨m, -, rfl⟩ := hl'
  simp [Lane.withdraw, Queue.withdraw]

/-- **One step of a fate.** -/
theorem Fate.step (fate : Fate past S i l x) (exec : Execution step? (ofSettings s d) past S)
    (quiet : a ≠ .crash i) (step : S.step? a = some (S', outputs)) (hl : S.pool.lanes[i]? = some l)
    (hl' : S'.pool.lanes[i]? = some l') (known : (i, x) ∈ issued past) :
    Fate (past ++ [⟨S, a, S', outputs⟩]) S' i l' x := by
  have old := number_lt exec known
  have seen : Seen S i a l l' := by
    obtain ⟨m, hm, seen⟩ := seen_of_step step hl'
    rw [hl] at hm
    cases hm
    exact seen
  -- numbers are given out once, so a submitter that does not wait hears nothing any more
  have silent (gone : x.number ∉ S.waiters) := silent_of_step step gone fun _ _ ↦ by omega
  have never_later (waits : x ∈ l.queue.waiting) (idle : a ≠ .take i) (out : x ∉ l'.jobs) :
      x ∉ entered i (past ++ [⟨S, a, S', outputs⟩]) := by
    rw [entered_concat, List.mem_append, not_or]
    exact ⟨notMem_entered_of_waiting exec hl waits, notMem_entering step hl hl' quiet idle out⟩
  -- an end is for ever; only a job inside its lane can still go any way
  cases fate with
  | inside held untold waits =>
    by_cases kept : x ∈ l'.jobs
    · obtain ⟨silent, stay⟩ := unsettled exec step hl hl' held kept
      refine .inside kept (by rw [answers_concat, untold, silent]; rfl) ?_
      rw [abandoned_concat]
      rcases waits with waits | ⟨left, away⟩
      · by_cases leaves : a = .abandon x.number
        · subst leaves
          exact .inr ⟨.inr rfl, notMem_waiting_of_abandon step hl'⟩
        · exact .inl (stay leaves waits)
      · refine .inr ⟨.inl left, fun waits ↦ away ?_⟩
        exact waited_of_came step hl hl' old (List.mem_append_right _ waits)
    · -- the job leaves its lane with this step
      have told_left := waits.imp id And.left
      obtain kept' | ⟨rfl, waiting⟩ | ⟨answer, rfl, hand⟩ | ⟨rfl, waiting⟩ | crashed :=
        seen.stays held
      · exact absurd kept' kept
      · refine .refused (never_later waiting (by simp) kept) kept ?_ ?_
        all_goals
          simp only [step?] at step
          split at step <;> cases step
        · simp
        · exact .inr ⟨abandoned_concat.mpr (.inr rfl), by rw [answers_concat, untold]; rfl⟩
      · obtain ⟨gone, answer⟩ := answered_of_reply hl step hand
        refine .answered ?_ gone (.of_settled untold told_left answer)
        rw [finished_concat, finishing_reply hl hand]
        exact List.mem_append_right _ List.mem_cons_self
      · obtain ⟨gone, answer⟩ := refused_of_drain exec hl step waiting
        exact .refused (never_later waiting (by simp) kept) kept gone
          (.of_settled untold told_left answer)
      · exact absurd crashed quiet
  | answered done gone told =>
    refine .answered ?_ (silent gone).2 (told.concat (silent gone).1)
    rw [finished_concat]
    exact List.mem_append_left _ done
  | refused never out gone told =>
    have not_waiting : x ∉ l.queue.waiting := fun waits ↦
      out (List.mem_append_right _ (List.mem_append_right _ waits))
    refine .refused ?_ ?_ (silent gone).2 (told.concat (silent gone).1)
    · rw [entered_concat, List.mem_append, not_or]
      exact ⟨never, fun new ↦ not_waiting
        (waited_of_came step hl hl' old (List.mem_append_left _ new))⟩
    · intro back
      obtain before | ⟨job, -, -, rfl⟩ := seen.mem_jobs back
      · exact out before
      · exact absurd old (Nat.lt_irrefl _)

/-- A new submission is in the lane whose turn it is, or has been refused at once. -/
theorem Fate.of_submit {job : α} (exec : Execution step? (ofSettings s d) past S)
    (step : S.step? (.submit job) = some (S', outputs)) (turn : S.pool.turn = i)
    (hl : S.pool.lanes[i]? = some l) (hl' : S'.pool.lanes[i]? = some l') :
    Fate (past ++ [⟨S, .submit job, S', outputs⟩]) S' i l' ⟨S.next, job⟩ := by
  obtain ⟨untold, gone⟩ := unheard exec (Nat.le_refl S.next)
  have unknown : (i, ⟨S.next, job⟩) ∉ issued past := fun known ↦
    absurd (number_lt exec known) (Nat.lt_irrefl _)
  have quiet : ServiceAction.submit job ≠ .crash i := by simp
  have idle : ServiceAction.submit job ≠ .take i := by simp
  obtain ⟨m, m', hm, submitted, done⟩ | ⟨-, done⟩ := Pool.submit_cases ⟨S.next, job⟩ S.pool
  · have result := step
    simp only [step?, done] at result
    cases result
    have picked : S.pool.pick.2.lanes[S.pool.turn]? = some m := hm
    change (Pool.setLane S.pool.turn m' S.pool.pick.2).lanes[i]? = some l' at hl'
    rw [getElem?_setLane picked, if_pos turn] at hl'
    cases hl'
    refine .inside ?_ (by rw [answers_concat, untold]; rfl)
      (.inl (List.mem_append_right _ List.mem_cons_self))
    rw [Lane.jobs_submit? submitted]
    exact List.mem_append_right _ List.mem_cons_self
  · have result := step
    simp only [step?, done] at result
    cases result
    have same : l' = l := Option.some.inj (hl'.symm.trans hl)
    have out : ⟨S.next, job⟩ ∉ l'.jobs := fun hx ↦ unknown (issued_of_mem_jobs exec (same ▸ hl) hx)
    refine .refused ?_ out gone (.inl ?_)
    · rw [entered_concat, List.mem_append, not_or]
      refine ⟨fun hx ↦ unknown ?_, notMem_entering step hl hl' quiet idle out⟩
      exact mem_toLane.mp ((came exec hl).subset (List.mem_append_left _ hx))
    · rw [answers_concat, untold]
      simp [answering]

/-- **Every submission to a lane without a crash has one of three fates.** -/
theorem fate (exec : Execution step? (ofSettings s d) past S)
    (calm : ∀ e ∈ past, e.action ≠ .crash i) (hl : S.pool.lanes[i]? = some l)
    (known : (i, x) ∈ issued past) : Fate past S i l x := by
  induction exec generalizing l with
  | refl => cases known
  | @snoc past S S' a outputs exec step ih =>
    obtain ⟨m, hm, -⟩ := seen_of_step step hl
    have calm_before : ∀ e ∈ past, e.action ≠ .crash i :=
      fun e he ↦ calm e (List.mem_append_left _ he)
    rw [issued_concat, List.mem_append] at known
    rcases known with known | new
    · exact (ih calm_before hm known).step exec
        (calm _ (List.mem_append_right _ List.mem_cons_self)) step hm hl known
    · obtain ⟨job, rfl, -, one⟩ | ⟨-, nothing⟩ := issuing_of_step step
      · rw [one, List.mem_singleton, Prod.mk.injEq] at new
        obtain ⟨turn, rfl⟩ := new
        exact .of_submit exec step turn.symm hm hl
      · rw [nothing] at new
        cases new

end Fates

end MessageBridge.Service
