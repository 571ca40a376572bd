import MessageBridge.Proofs.Lane.Fate

/-!
# The contract of a lane

Whatever order things happen in, a lane serves the jobs that its queue accepted in the order of
acceptance, each once and one at a time; a submitter that stays is answered once, with what became
of its own job; and the worker ends only when the queue is closed and everything it accepted has
been served.

The contract is stated of one lane whose worker never crashed. Other lanes of the pool may do what
they like.
-/

namespace MessageBridge.Service

universe u

variable {α : Type u} {s : EngineSettings} {d : Destination} {past : List (Event α)}
  {S S' : Service α} {a : ServiceAction α} {outputs : List (ServiceOutput α)} {i : Nat}
  {l l' : Lane (Submission α)} {x : Submission α}

/-! ## The worker -/

theorem Seen.moved (seen : Seen S i a l l') : l' = l ∨ l.Move l' := by
  cases seen with
  | same => exact .inl rfl
  | submit turn step => exact .inr (.submit step)
  | abandon => exact .inr (.withdraw _ l)
  | release => exact .inr (.release l)
  | take may step => exact .inr (.take step)
  | finish step => exact .inr (.finish step)
  | crash step => exact .inr (.crash step)
  | drain closing step => exact .inr (.drain step)
  | retire step => exact .inr (.retire step)

theorem lane_sound (exec : Execution step? (ofSettings s d) past S)
    (hl : S.pool.lanes[i]? = some l) : l.Sound := by
  induction exec generalizing l with
  | refl =>
    rw [lane_ofSettings hl]
    exact Lane.sound_idle _
  | snoc _ step ih =>
    obtain ⟨m, hm, seen⟩ := seen_of_step step hl
    rcases seen.moved with rfl | move
    · exact ih hm
    · exact (ih hm).move move

/-- What a worker is about changes only when it closes its queue, ends or crashes, and the number
of places never does. -/
theorem Seen.worker (seen : Seen S i a l l') :
    l'.queue.depth = l.queue.depth ∧
      (l'.worker = l.worker ∨ a = .drain i ∧ l'.worker = .draining ∨
        a = .retire i ∧ l.end? = some l' ∨ a = .crash i) := by
  cases seen with
  | same => exact ⟨rfl, .inl rfl⟩
  | submit turn step =>
    obtain ⟨q, offered, rfl⟩ := Lane.submit?_eq_some.mp step
    refine ⟨?_, .inl rfl⟩
    unfold Queue.offer? at offered
    split at offered
    · cases offered
    · split at offered <;> cases offered <;> rfl
  | abandon => exact ⟨rfl, .inl rfl⟩
  | release => exact ⟨rfl, .inl rfl⟩
  | take may step =>
    obtain ⟨-, -, q, taken, rfl⟩ := Lane.take?_eq_some.mp step
    refine ⟨?_, .inl rfl⟩
    unfold Queue.take? at taken
    split at taken
    · cases taken
    · split at taken <;> cases taken <;> rfl
  | finish step =>
    obtain ⟨-, rfl⟩ := Lane.finish?_eq_some.mp step
    exact ⟨rfl, .inl rfl⟩
  | crash step =>
    obtain ⟨y, -, -, rfl⟩ := Lane.crash?_eq_some.mp step
    exact ⟨rfl, .inr (.inr (.inr rfl))⟩
  | drain closing step =>
    obtain ⟨-, -, -, rfl⟩ := Lane.drain?_eq_some.mp step
    exact ⟨rfl, .inr (.inl ⟨rfl, rfl⟩)⟩
  | retire step =>
    have ended := step
    obtain ⟨-, -, -, -, rfl⟩ := Lane.end?_eq_some.mp step
    exact ⟨rfl, .inr (.inr (.inl ⟨rfl, ended⟩))⟩

theorem depth_eq (exec : Execution step? (ofSettings s d) past S)
    (hl : S.pool.lanes[i]? = some l) : l.queue.depth = max s.depth 1 := by
  induction exec generalizing l with
  | refl =>
    rw [lane_ofSettings hl]
    rfl
  | snoc _ step ih =>
    obtain ⟨m, hm, seen⟩ := seen_of_step step hl
    rw [seen.worker.1, ih hm]

theorem worker_ne_crashed (exec : Execution step? (ofSettings s d) past S)
    (calm : ∀ e ∈ past, e.action ≠ .crash i) (hl : S.pool.lanes[i]? = some l) :
    l.worker ≠ .crashed := by
  induction exec generalizing l with
  | refl =>
    rw [lane_ofSettings hl]
    exact nofun
  | snoc _ step ih =>
    obtain ⟨m, hm, seen⟩ := seen_of_step step hl
    obtain same | ⟨-, drains⟩ | ⟨-, ends⟩ | crashed := seen.worker.2
    · rw [same]
      exact ih (fun e he ↦ calm e (List.mem_append_left _ he)) hm
    · rw [drains]
      exact nofun
    · obtain ⟨-, -, -, -, rfl⟩ := Lane.end?_eq_some.mp ends
      exact nofun
    · exact absurd crashed (calm _ (List.mem_append_right _ List.mem_cons_self))

/-! ## Closing -/

/-- Whether the lanes have been told to close. -/
def ToldToClose (past : List (Event α)) : Prop := ∃ e ∈ past, e.action = .close

theorem closing_of_step (step : S.step? a = some (S', outputs))
    (closing : S'.pool.closing = true) : S.pool.closing = true ∨ a = .close := by
  cases a with
  | submit job =>
    have same : S'.pool.closing = (S.pool.submit ⟨S.next, job⟩).1.closing := by
      simp only [step?] at step
      split at step <;> cases step <;> rfl
    rw [same] at closing
    obtain ⟨m, m', -, -, done⟩ | ⟨-, done⟩ := Pool.submit_cases ⟨S.next, job⟩ S.pool <;>
      rw [done] at closing <;> exact .inl closing
  | abandon n =>
    simp only [step?] at step
    split at step <;> cases step
    exact .inl closing
  | close => exact .inr rfl
  | release =>
    simp only [step?] at step
    split at step <;> cases step
    exact .inl closing
  | take j =>
    obtain ⟨⟨y, p⟩, taken, step⟩ := Option.bind_eq_some_iff.mp step
    cases step
    obtain ⟨m, m', -, -, -, rfl⟩ := Pool.take?_eq_some.mp taken
    exact .inl closing
  | reply j answer =>
    obtain ⟨⟨y, p⟩, finished, step⟩ := Option.bind_eq_some_iff.mp step
    cases step
    obtain ⟨m, m', -, -, rfl⟩ := Pool.finish?_eq_some.mp finished
    exact .inl closing
  | crash j =>
    obtain ⟨⟨lost, p⟩, crashed, step⟩ := Option.bind_eq_some_iff.mp step
    cases step
    obtain ⟨m, m', -, -, rfl⟩ := Pool.crash?_eq_some.mp crashed
    exact .inl closing
  | drain j =>
    obtain ⟨⟨refused, p⟩, drained, step⟩ := Option.bind_eq_some_iff.mp step
    cases step
    obtain ⟨m, m', -, -, -, rfl⟩ := Pool.drain?_eq_some.mp drained
    exact .inl closing
  | retire j =>
    obtain ⟨p, ended, step⟩ := Option.bind_eq_some_iff.mp step
    cases step
    obtain ⟨m, m', -, -, rfl⟩ := Pool.end?_eq_some.mp ended
    exact .inl closing

theorem toldToClose_of_closing (exec : Execution step? (ofSettings s d) past S)
    (closing : S.pool.closing = true) : ToldToClose past := by
  induction exec with
  | refl => cases closing
  | snoc _ step ih =>
    rcases closing_of_step step closing with closing | rfl
    · obtain ⟨e, he, told⟩ := ih closing
      exact ⟨e, List.mem_append_left _ he, told⟩
    · exact ⟨_, List.mem_append_right _ List.mem_cons_self, rfl⟩

theorem Seen.closed (seen : Seen S i a l l') (closed : l'.queue.closed = true) :
    l.queue.closed = true ∨ a = .release ∨ S.pool.closing = true ∨ a = .crash i := by
  cases seen with
  | same => exact .inl closed
  | submit turn step =>
    obtain ⟨q, offered, rfl⟩ := Lane.submit?_eq_some.mp step
    refine .inl ?_
    unfold Queue.offer? at offered
    split at offered
    · assumption
    · split at offered <;> cases offered <;> exact closed
  | abandon => exact .inl closed
  | release => exact .inr (.inl rfl)
  | take may step =>
    obtain ⟨-, -, q, taken, rfl⟩ := Lane.take?_eq_some.mp step
    exact .inl ((Queue.closed_take? taken).symm.trans closed)
  | finish step =>
    obtain ⟨-, rfl⟩ := Lane.finish?_eq_some.mp step
    exact .inl closed
  | crash step => exact .inr (.inr (.inr rfl))
  | drain closing step => exact .inr (.inr (.inl closing))
  | retire step =>
    obtain ⟨-, closed, -⟩ := Lane.end?_eq_some.mp step
    exact .inl closed

/-- A queue is closed only if the lanes have been told to close or nobody can submit any more. -/
theorem closed_cases (exec : Execution step? (ofSettings s d) past S)
    (calm : ∀ e ∈ past, e.action ≠ .crash i) (hl : S.pool.lanes[i]? = some l)
    (closed : l.queue.closed = true) : ToldToClose past ∨ Released past := by
  induction exec generalizing l with
  | refl =>
    rw [lane_ofSettings hl] at closed
    cases closed
  | snoc exec step ih =>
    obtain ⟨m, hm, seen⟩ := seen_of_step step hl
    obtain before | rfl | closing | crashed := seen.closed closed
    · have earlier := ih (fun e he ↦ calm e (List.mem_append_left _ he)) hm before
      exact earlier.imp (fun ⟨e, he, told⟩ ↦ ⟨e, List.mem_append_left _ he, told⟩)
        fun ⟨e, he, released⟩ ↦ ⟨e, List.mem_append_left _ he, released⟩
    · exact .inr ⟨_, List.mem_append_right _ List.mem_cons_self, rfl⟩
    · obtain ⟨e, he, told⟩ := toldToClose_of_closing exec closing
      exact .inl ⟨e, List.mem_append_left _ he, told⟩
    · exact absurd crashed (calm _ (List.mem_append_right _ List.mem_cons_self))

theorem issued_of_mem_begun (exec : Execution step? (ofSettings s d) past S)
    (hx : x ∈ begun i past) : (i, x) ∈ issued past := by
  induction exec with
  | refl => cases hx
  | @snoc past S S' a outputs exec step ih =>
    rw [begun_concat, List.mem_append] at hx
    rw [issued_concat, List.mem_append]
    rcases hx with hx | hx
    · exact .inl (ih hx)
    · refine .inl ?_
      by_cases took : a = .take i
      · subst took
        obtain ⟨⟨y, p⟩, taken, -⟩ := Option.bind_eq_some_iff.mp step
        obtain ⟨m, m', hm, -, here, -⟩ := Pool.take?_eq_some.mp taken
        rw [beginning_take step hm here, List.mem_singleton] at hx
        subst hx
        refine issued_of_mem_jobs exec hm ?_
        obtain ⟨-, -, q, next, -⟩ := Lane.take?_eq_some.mp here
        rw [Lane.jobs, Queue.contents_take? next]
        exact List.mem_append_right _ List.mem_cons_self
      · rw [beginning_eq_nil step took] at hx
        cases hx

/-! ## The contract -/

/-- What a lane owes to its submitters. -/
structure Contract (s : EngineSettings) (past : List (Event α)) (S : Service α) (i : Nat)
    (l : Lane (Submission α)) : Prop where
  /-- Jobs are accepted in the order of submission, and no job twice. -/
  came : (entered i past).Sublist (toLane i (issued past))
  distinct : ((entered i past).map Submission.number).Nodup
  /-- They are published in the order of acceptance. -/
  order : entered i past = begun i past ++ l.queue.accepted
  /-- At most one publish is in flight. -/
  single : begun i past = (finished i past).map Prod.fst ++ l.inHand.toList
  /-- A submitter is told the result of its own publish. -/
  completed : ∀ {x : Submission α} {answer : Except BusError Unit}, (x, answer) ∈ finished i past →
    Told x.number (Running.jobAnswer answer) past
  /-- Until then it is told nothing. -/
  pending : ∀ {x : Submission α}, x ∈ entered i past → x ∉ (finished i past).map Prod.fst →
    answers x.number past = [] ∧ (x.number ∈ S.waiters ∨ Abandoned x.number past)
  /-- What is not accepted is published nowhere; it waits for a place in an open queue, or its
  submitter is told that it was lost. -/
  refused : ∀ {x : Submission α}, (i, x) ∈ issued past → x ∉ entered i past →
    (∀ j, x ∉ begun j past) ∧
      (x ∈ l.queue.waiting ∧ l.queue.closed = false ∧ x.number ∈ S.waiters ∧
          answers x.number past = [] ∨
        Told x.number .lost past)
  /-- The queue is never overfull. -/
  bounded : l.queue.accepted.length ≤ max s.depth 1
  /-- Nothing ends the worker except that it has served everything in a closed queue. -/
  lasting : ∀ {e : Event α} {m m' : Lane (Submission α)}, e ∈ past →
    e.before.pool.lanes[i]? = some m → e.after.pool.lanes[i]? = some m' → m'.gone = true →
    m.gone = true ∨ e.action = .retire i ∧ m.queue.closed = true ∧ m.inHand = none ∧
      m.queue.accepted = []
  /-- When it has ended, everything that was accepted has been published and answered. -/
  ended : l.gone = true → l.worker = .ended ∧ l.queue.closed = true ∧
    (ToldToClose past ∨ Released past) ∧ entered i past = (finished i past).map Prod.fst
  /-- As long as something is left, the worker can go on. -/
  going : entered i past ≠ (finished i past).map Prod.fst →
    (∀ answer, (S.step? (.reply i answer)).isSome = true) ∨ (S.step? (.take i)).isSome = true ∨
      (S.step? (.drain i)).isSome = true

theorem entered_eq (exec : Execution step? (ofSettings s d) past S)
    (calm : ∀ e ∈ past, e.action ≠ .crash i) (hl : S.pool.lanes[i]? = some l) :
    entered i past = (finished i past).map Prod.fst ++ (l.inHand.toList ++ l.queue.accepted) := by
  obtain ⟨accepted, inHand⟩ := ledger exec calm hl
  rw [accepted, inHand, List.append_assoc]

theorem mem_entered_of_finished (exec : Execution step? (ofSettings s d) past S)
    (calm : ∀ e ∈ past, e.action ≠ .crash i) (hl : S.pool.lanes[i]? = some l)
    (done : x ∈ (finished i past).map Prod.fst) : x ∈ entered i past := by
  rw [entered_eq exec calm hl]
  exact List.mem_append_left _ done

theorem waiting_of_jobs (exec : Execution step? (ofSettings s d) past S)
    (calm : ∀ e ∈ past, e.action ≠ .crash i) (hl : S.pool.lanes[i]? = some l) (held : x ∈ l.jobs)
    (never : x ∉ entered i past) : x ∈ l.queue.waiting := by
  rw [Lane.jobs, Queue.contents, ← List.append_assoc] at held
  rcases List.mem_append.mp held with accepted | waits
  · refine absurd ?_ never
    rw [entered_eq exec calm hl]
    exact List.mem_append_right _ accepted
  · exact waits

/-- An answered job has left its lane, and was answered once. -/
theorem finished_once (exec : Execution step? (ofSettings s d) past S)
    (calm : ∀ e ∈ past, e.action ≠ .crash i) (hl : S.pool.lanes[i]? = some l)
    {answer : Except BusError Unit} (done : (x, answer) ∈ finished i past) :
    x ∉ l.jobs ∧ ∀ other, (x, other) ∈ finished i past → other = answer := by
  have all := List.Nodup.of_map _ (nodup_toLane exec (i := i))
  obtain ⟨nodup, -, apart⟩ := List.nodup_append.mp ((jobs_sublist exec calm hl).nodup all)
  refine ⟨fun held ↦ apart x (List.mem_map_of_mem done) x held rfl, fun other again ↦ ?_⟩
  exact congrArg Prod.snd (List.inj_on_of_nodup_map nodup again done rfl)

/-- A worker that is not gone can go on as long as its lane has jobs in hand or accepted. -/
theorem going_of_left (hl : S.pool.lanes[i]? = some l) (sound : l.Sound)
    (left : l.inHand.toList ++ l.queue.accepted ≠ []) :
    (∀ answer, (S.step? (.reply i answer)).isSome = true) ∨ (S.step? (.take i)).isSome = true ∨
      (S.step? (.drain i)).isSome = true := by
  cases hand : l.inHand with
  | some x =>
    refine .inl fun answer ↦ ?_
    have finished := Pool.finish?_eq_some.mpr ⟨l, _, hl, Lane.finish?_eq_some.mpr ⟨hand, rfl⟩, rfl⟩
    simp [step?, finished]
  | none =>
    rw [hand, Option.toList_none, List.nil_append] at left
    -- a worker that has been told to close does that before it takes another job
    by_cases must : S.pool.closing = true ∧ l.worker = .serving
    · refine .inr (.inr ?_)
      have drained := Pool.drain?_eq_some.mpr
        ⟨l, _, hl, must.1, Lane.drain?_eq_some.mpr ⟨must.2, hand, rfl, rfl⟩, rfl⟩
      simp [step?, drained]
    · refine .inr (.inl ?_)
      obtain ⟨x, l', next⟩ := sound.exists_take? hand left
      have taken := Pool.take?_eq_some.mpr
        ⟨l, l', hl, fun closing serving ↦ must ⟨closing, serving⟩, next, rfl⟩
      simp [step?, taken]

/-- **Every lane without a crash keeps its contract**, in all orders in which jobs are submitted,
submitters leave, workers act, and the lanes are told to close. -/
theorem lane_contract (exec : Execution step? (ofSettings s d) past S)
    (calm : ∀ e ∈ past, e.action ≠ .crash i) (hl : S.pool.lanes[i]? = some l) :
    Contract s past S i l where
  came := (List.sublist_append_left _ _).trans (came exec hl)
  distinct := by
    have fewer := (List.sublist_append_left _ _).trans (Service.came exec hl)
    exact (fewer.map Submission.number).nodup (nodup_toLane exec)
  order := (ledger exec calm hl).1
  single := (ledger exec calm hl).2
  completed {x answer} done := by
    have entered := mem_entered_of_finished exec calm hl (List.mem_map_of_mem done)
    have known := mem_toLane.mp
      (((List.sublist_append_left _ _).trans (Service.came exec hl)).subset entered)
    obtain ⟨out, once⟩ := finished_once exec calm hl done
    cases fate exec calm hl known with
    | inside held => exact absurd held out
    | answered again gone told =>
      rw [once _ again] at told
      exact told
    | refused never => exact absurd entered never
  pending {x} entered undone := by
    have known := mem_toLane.mp
      (((List.sublist_append_left _ _).trans (Service.came exec hl)).subset entered)
    cases fate exec calm hl known with
    | inside held untold waits => exact ⟨untold, waits.imp id And.left⟩
    | answered done => exact absurd (List.mem_map_of_mem done) undone
    | refused never => exact absurd entered never
  refused {x} known never := by
    refine ⟨fun j began ↦ never ?_, ?_⟩
    · -- what is begun was accepted by the lane that it was submitted to
      obtain ⟨rfl, -⟩ := number_inj exec (issued_of_mem_begun exec began) known rfl
      rw [(ledger exec calm hl).1]
      exact List.mem_append_left _ began
    · cases fate exec calm hl known with
      | inside held untold waits =>
        have waiting := waiting_of_jobs exec calm hl held never
        have full := (lane_sound exec hl).queue.full_of_waiting (List.ne_nil_of_mem waiting)
        exact .inl ⟨waiting, full.2, waits.resolve_right fun left ↦ left.2 waiting, untold⟩
      | answered done =>
        exact absurd (mem_entered_of_finished exec calm hl (List.mem_map_of_mem done)) never
      | refused _ _ _ told => exact .inr told
  bounded := by
    rw [← depth_eq exec hl]
    exact (lane_sound exec hl).queue.le_depth
  lasting {e m m'} he hm hm' gone := by
    obtain ⟨earlier, later, rfl, -, step, -⟩ := exec.at_moment he
    obtain ⟨m₀, hm₀, seen⟩ := seen_of_step step hm'
    rw [hm] at hm₀
    cases hm₀
    obtain same | ⟨-, drains⟩ | ⟨retires, ends⟩ | crashed := seen.worker.2
    · exact .inl (by rw [Lane.gone, ← same]; exact gone)
    · simp [Lane.gone, drains] at gone
    · obtain ⟨-, closed, idle, nothing, -⟩ := Lane.end?_eq_some.mp ends
      exact .inr ⟨retires, closed, idle, nothing⟩
    · exact absurd crashed (calm e he)
  ended gone := by
    have sound := lane_sound exec hl
    obtain ⟨closed, nothing⟩ := sound.left_nothing gone
    refine ⟨?_, closed, closed_cases exec calm hl closed, ?_⟩
    · have := worker_ne_crashed exec calm hl
      simpa [Lane.gone, this] using gone
    · rw [entered_eq exec calm hl, nothing, sound.inHand_eq_none gone]
      exact List.append_nil _
  going more := by
    refine going_of_left hl (lane_sound exec hl) fun nothing ↦ more ?_
    rw [entered_eq exec calm hl, nothing, List.append_nil]

/-- One lane with one place. The first submitter leaves during its publish, which fails; the fourth
job waits for a place when the queue is closed, and the fifth comes after that. -/
theorem lane_contract_of_late : ∃ (past : List (Event Nat)) (S : Service Nat) (l : Lane _),
    Execution step? (ofSettings ⟨1, 1, .standard⟩ ⟨0, "out", "copies", "out:copies"⟩) past S ∧
      (∀ e ∈ past, e.action ≠ .crash 0) ∧ S.pool.lanes[0]? = some l ∧
      (entered 0 past).map Submission.job = [10, 20, 30] ∧ l.worker = .ended ∧
      Contract ⟨1, 1, .standard⟩ past S 0 l := by
  have run := (Execution.refl : Execution step?
      (ofSettings ⟨1, 1, .standard⟩ ⟨0, "out", "copies", "out:copies"⟩ : Service Nat) [] _)
    |>.snoc (a := .submit 10) rfl |>.snoc (a := .take 0) rfl |>.snoc (a := .submit 20) rfl
    |>.snoc (a := .submit 30) rfl |>.snoc (a := .submit 40) rfl |>.snoc (a := .abandon 0) rfl
    |>.snoc (a := .reply 0 (.error (.publish "refused"))) rfl |>.snoc (a := .take 0) rfl
    |>.snoc (a := .close) rfl |>.snoc (a := .reply 0 (.ok ())) rfl |>.snoc (a := .drain 0) rfl
    |>.snoc (a := .submit 50) rfl |>.snoc (a := .take 0) rfl
    |>.snoc (a := .reply 0 (.ok ())) rfl |>.snoc (a := .retire 0) rfl
  have calm {past : List (Event Nat)}
      (none_crashes : (past.all fun e ↦ !e.action matches .crash _) = true) :
      ∀ e ∈ past, e.action ≠ .crash 0 := by
    intro e he crash
    have := List.all_eq_true.mp none_crashes e he
    rw [crash] at this
    cases this
  exact ⟨_, _, _, run, calm rfl, rfl, rfl, rfl, lane_contract run (calm rfl) rfl⟩

end MessageBridge.Service
