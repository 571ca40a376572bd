import MessageBridge.Proofs.Lane.Fate

/-!
# Submitters that wait

A submitter begins to wait when its job gets into a lane, and goes on as long as the job stays there
unless it leaves. Whoever waits for a place is therefore a submitter that waits, crashes or not, and
any number of submitters can leave together, one after another.
-/

namespace MessageBridge.Service

universe u

variable {α : Type u} {s : EngineSettings} {d : Destination} {past : List (Event α)}
  {S S' : Service α} {a : ServiceAction α} {outputs : List (ServiceOutput α)} {i : Nat}
  {l l' : Lane (Submission α)} {x : Submission α}

/-! ## Staying -/

theorem waits_of_submit {job : α} (exec : Execution step? (ofSettings s d) past S)
    (step : S.step? (.submit job) = some (S', outputs)) (hl' : S'.pool.lanes[i]? = some l')
    (hx : ⟨S.next, job⟩ ∈ l'.jobs) : S.next ∈ S'.waiters := by
  simp only [step?] at step
  split at step <;> cases step
  · exact List.mem_append_right _ List.mem_cons_self
  · rename_i refused
    -- a refused job is in a lane only if it was there before, with a number not yet given out
    obtain ⟨m, m', -, -, done⟩ | ⟨-, done⟩ := Pool.submit_cases ⟨S.next, job⟩ S.pool
    · rw [done] at refused
      exact absurd rfl refused
    · rw [done] at hl'
      have known := issued_of_mem_jobs exec (l := l') hl' hx
      exact absurd (number_lt exec known) (Nat.lt_irrefl _)

/-- Whoever has a job in a lane after a step waits as it did before, unless it leaves; if the job is
new, it waits. -/
theorem stays_of_step (exec : Execution step? (ofSettings s d) past S)
    (step : S.step? a = some (S', outputs)) (stays : a ≠ .abandon x.number)
    (hl' : S'.pool.lanes[i]? = some l') (hx : x ∈ l'.jobs) :
    (∃ l, S.pool.lanes[i]? = some l ∧ x ∈ l.jobs ∧
        (x.number ∈ S'.waiters ↔ x.number ∈ S.waiters)) ∨
      ∃ job, a = .submit job ∧ x = ⟨S.next, job⟩ ∧ x.number ∈ S'.waiters := by
  obtain ⟨l, hl, seen⟩ := seen_of_step step hl'
  obtain held | ⟨job, rfl, -, rfl⟩ := seen.mem_jobs hx
  · have old := number_lt exec (issued_of_mem_jobs exec hl held)
    refine .inl ⟨l, hl, held, fun waits ↦ ?_, (unsettled exec step hl hl' held hx).2 stays⟩
    by_contra gone
    exact (silent_of_step step gone fun _ _ ↦ Nat.ne_of_lt old).2 waits
  · exact .inr ⟨job, rfl, rfl, waits_of_submit exec step hl' hx⟩

/-- **Whoever waits for a place is a submitter that waits.** -/
theorem waits_of_waiting (exec : Execution step? (ofSettings s d) past S)
    (hl : S.pool.lanes[i]? = some l) (hx : x ∈ l.queue.waiting) : x.number ∈ S.waiters := by
  induction exec generalizing l with
  | refl =>
    rw [lane_ofSettings hl] at hx
    cases hx
  | @snoc past S S' a outputs exec step ih =>
    have held : x ∈ l.jobs := List.mem_append_right _ (List.mem_append_right _ hx)
    have stays : a ≠ .abandon x.number := by
      rintro rfl
      exact notMem_waiting_of_abandon step hl hx
    obtain ⟨m, hm, before, same⟩ | ⟨job, -, -, waits⟩ := stays_of_step exec step stays hl held
    · have old := number_lt exec (issued_of_mem_jobs exec hm before)
      exact same.mpr (ih hm (waited_of_came step hm hl old (List.mem_append_right _ hx)))
    · exact waits

/-! ## Leaving -/

theorem leave_numbers (exec : Execution step? (ofSettings s d) past S) (numbers : List Nat) :
    ∃ more S', Execution step? S more S' ∧ (∀ e ∈ more, ∃ n, e.action = .abandon n) ∧
      S'.pool = S.pool.withdraw (fun x ↦ numbers.contains x.number) ∧
      ∀ n, n ∈ S'.waiters ↔ n ∈ S.waiters ∧ n ∉ numbers := by
  induction numbers generalizing past S with
  | nil => exact ⟨[], S, .refl, by simp, (Pool.withdraw_nobody S.pool).symm, by simp⟩
  | cons n numbers ih =>
    by_cases waits : n ∈ S.waiters
    · have step : S.step? (.abandon n) = some ({ S with
          pool := S.pool.withdraw fun x ↦ x.number == n
          waiters := S.waiters.filter fun m ↦ m != n }, []) := if_pos (by simpa using waits)
      obtain ⟨more, S', run, left, pool, waiters⟩ := ih (exec.snoc step)
      refine ⟨_, S', (Execution.refl.snoc step).trans run, ?_, ?_, fun m ↦ ?_⟩
      · intro e he
        rcases List.mem_append.mp he with here | later
        · rw [List.mem_singleton.mp here]
          exact ⟨n, rfl⟩
        · exact left e later
      · rw [pool, Pool.withdraw_withdraw]
        refine Pool.withdraw_congr fun l _ x _ ↦ ?_
        rw [List.contains_cons]
      · rw [waiters, List.mem_filter, List.mem_cons, not_or, bne_iff_ne, and_assoc]
    · -- nobody of that number waits for a place either, so nothing is to be done
      obtain ⟨more, S', run, left, pool, waiters⟩ := ih exec
      refine ⟨more, S', run, left, ?_, fun m ↦ ?_⟩
      · rw [pool]
        refine Pool.withdraw_congr fun l hl x hx ↦ ?_
        obtain ⟨i, hi⟩ := List.mem_iff_getElem?.mp hl
        have other : x.number ≠ n := fun same ↦ waits (same ▸ waits_of_waiting exec hi hx)
        simp [other]
      · rw [waiters, List.mem_cons, not_or]
        refine and_congr_right fun here ↦ ⟨fun out ↦ ⟨?_, out⟩, And.right⟩
        rintro rfl
        exact waits here

/-- **Those submitters can leave whose jobs are of some kind.** -/
theorem leave (exec : Execution step? (ofSettings s d) past S) (givesUp : Submission α → Bool) :
    ∃ more S', Execution step? S more S' ∧ (∀ e ∈ more, ∃ n, e.action = .abandon n) ∧
      S'.pool = S.pool.withdraw givesUp ∧
      ∀ x ∈ S.pool.jobs, x.number ∈ S'.waiters ↔ x.number ∈ S.waiters ∧ givesUp x = false := by
  have named : ∀ x ∈ S.pool.jobs,
      (x.number ∈ (S.pool.jobs.filter givesUp).map Submission.number ↔ givesUp x = true) := by
    intro x hx
    refine ⟨fun named ↦ ?_, fun gives ↦ List.mem_map_of_mem (List.mem_filter.mpr ⟨hx, gives⟩)⟩
    obtain ⟨y, hy, same⟩ := List.mem_map.mp named
    obtain ⟨hy, gives⟩ := List.mem_filter.mp hy
    obtain ⟨i, l, hl, hx⟩ := Pool.lane_of_mem_jobs hx
    obtain ⟨j, m, hm, hy⟩ := Pool.lane_of_mem_jobs hy
    obtain ⟨-, rfl⟩ := number_inj exec (issued_of_mem_jobs exec hm hy)
      (issued_of_mem_jobs exec hl hx) same
    exact gives
  obtain ⟨more, S', run, left, pool, waiters⟩ :=
    leave_numbers exec ((S.pool.jobs.filter givesUp).map Submission.number)
  refine ⟨more, S', run, left, ?_, fun x hx ↦ ?_⟩
  · rw [pool]
    refine Pool.withdraw_congr fun l hl x hx ↦ ?_
    have mem : x ∈ S.pool.jobs := List.mem_flatMap.mpr
      ⟨l, hl, List.mem_append_right _ (List.mem_append_right _ hx)⟩
    rw [Bool.eq_iff_iff, List.contains_iff_mem]
    exact named x mem
  · rw [waiters, named x hx, Bool.not_eq_true]

end MessageBridge.Service
