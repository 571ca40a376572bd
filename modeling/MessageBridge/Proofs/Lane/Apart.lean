import MessageBridge.Proofs.Lane.Crash
import MessageBridge.Proofs.Lane.Work

/-!
# Lanes do not notice each other

What the worker of a lane does, be it that it publishes, that it crashes or that it does nothing at
all, makes no difference to any other lane. This is said of two runs of a pool in which all others
do the same: whoever looks at the other lanes and at what their submitters are told cannot tell the
runs apart. A step of the one worker goes unnoticed, a step that both runs make keeps them alike,
and an induction over both runs puts the steps together.
-/

namespace MessageBridge.Service

universe u v

variable {α : Type u} {s : EngineSettings} {d : Destination} {past past' : List (Event α)}
  {S S' T T' : Service α} {a : ServiceAction α} {outputs outputs' : List (ServiceOutput α)}
  {i j k n : Nat} {l : Lane (Submission α)} {x : Submission α}

/-! ## Whom a step concerns -/

/-- The lane of the worker that acts, or of the submitter that leaves. All other steps concern the
pool as a whole. -/
def concerned? (e : Event α) : Option Nat :=
  match e.action with
  | .abandon n => e.before.pool.lanes.findIdx? fun l ↦ l.jobs.any fun x ↦ x.number == n
  | a => a.worker?

/-- What is done by all others than one lane with its worker and the submitters that leave it. -/
def others (i : Nat) (past : List (Event α)) : List (ServiceAction α) :=
  (past.filter fun e ↦ concerned? e != some i).map Moment.action

theorem others_append {later : List (Event α)} :
    others i (past ++ later) = others i past ++ others i later := by
  rw [others, List.filter_append, List.map_append]
  rfl

theorem others_eq_nil (own : ∀ e ∈ past, concerned? e = some i) : others i past = [] := by
  rw [others, List.map_eq_nil_iff, List.filter_eq_nil_iff]
  intro e he
  simp [own e he]

theorem others_concat {e : Event α} :
    others i (past ++ [e]) =
      if concerned? e = some i then others i past else others i past ++ [e.action] := by
  rw [others_append]
  by_cases own : concerned? e = some i
  · have nothing : others i [e] = [] := others_eq_nil (by simpa using own)
    rw [if_pos own, nothing, List.append_nil]
  · have kept : others i [e] = [e.action] := by simp [others, own]
    rw [if_neg own, kept]

/-! ## Two pools, two pasts -/

/-- Two pools that differ in one lane at most, and in who waits for its jobs. -/
structure Alike (i : Nat) (known : List (Nat × Submission α)) (S T : Service α) : Prop where
  closing : S.pool.closing = T.pool.closing
  picks : S.pool.picks = T.pool.picks
  length : S.pool.lanes.length = T.pool.lanes.length
  next : S.next = T.next
  lane : ∀ {j : Nat}, j ≠ i → S.pool.lanes[j]? = T.pool.lanes[j]?
  waits : ∀ {j : Nat} {x : Submission α}, j ≠ i → (j, x) ∈ known →
    (x.number ∈ S.waiters ↔ x.number ∈ T.waiters)

/-- Two pasts that differ in the history of one lane at most, and in what is told to those who
submitted to it. -/
structure SameRecords (i : Nat) (known : List (Nat × Submission α)) (past past' : List (Event α)) :
    Prop where
  issued : issued past = issued past'
  entered : ∀ {j : Nat}, j ≠ i → entered j past = entered j past'
  begun : ∀ {j : Nat}, j ≠ i → begun j past = begun j past'
  finished : ∀ {j : Nat}, j ≠ i → finished j past = finished j past'
  told : ∀ {j : Nat} {x : Submission α}, j ≠ i → (j, x) ∈ known →
    answers x.number past = answers x.number past'

/-- Two runs that whoever looks at all lanes but one, and at what their submitters are told, cannot
tell apart. -/
structure Indistinct (i : Nat) (past past' : List (Event α)) (S T : Service α) : Prop where
  alike : Alike i (issued past) S T
  records : SameRecords i (issued past) past past'

section Relations

variable {known : List (Nat × Submission α)} {later later' : List (Event α)} {R : Service α}

theorem Alike.symm (h : Alike i known S T) : Alike i known T S where
  closing := h.closing.symm
  picks := h.picks.symm
  length := h.length.symm
  next := h.next.symm
  lane other := (h.lane other).symm
  waits other among := (h.waits other among).symm

theorem Alike.trans (h : Alike i known R S) (h' : Alike i known S T) : Alike i known R T where
  closing := h.closing.trans h'.closing
  picks := h.picks.trans h'.picks
  length := h.length.trans h'.length
  next := h.next.trans h'.next
  lane other := (h.lane other).trans (h'.lane other)
  waits other among := (h.waits other among).trans (h'.waits other among)

theorem SameRecords.symm (h : SameRecords i known past past') :
    SameRecords i known past' past where
  issued := h.issued.symm
  entered other := (h.entered other).symm
  begun other := (h.begun other).symm
  finished other := (h.finished other).symm
  told other among := (h.told other among).symm

private theorem flatMap_append_congr {β : Type v} {f : Event α → List β}
    (h : past.flatMap f = past'.flatMap f) (h' : later.flatMap f = later'.flatMap f) :
    (past ++ later).flatMap f = (past' ++ later').flatMap f := by
  rw [List.flatMap_append, List.flatMap_append, h, h']

theorem SameRecords.append (h : SameRecords i known past past')
    (h' : SameRecords i known later later') :
    SameRecords i known (past ++ later) (past' ++ later') where
  issued := flatMap_append_congr h.issued h'.issued
  entered other := flatMap_append_congr (h.entered other) (h'.entered other)
  begun other := flatMap_append_congr (h.begun other) (h'.begun other)
  finished other := flatMap_append_congr (h.finished other) (h'.finished other)
  told other among := flatMap_append_congr (h.told other among) (h'.told other among)

theorem Indistinct.symm (h : Indistinct i past past' S T) : Indistinct i past' past T S := by
  have known := h.records.issued
  exact ⟨known ▸ h.alike.symm, known ▸ h.records.symm⟩

end Relations

/-! ## Steps that concern the one lane -/

theorem concerned_of_worker (acts : a.worker? = some i) :
    concerned? ⟨S, a, S', outputs⟩ = some i := by
  cases a with
  | abandon n => cases acts
  | _ => exact acts

theorem concerned_cases (own : concerned? ⟨S, a, S', outputs⟩ = some i) :
    a.worker? = some i ∨
      ∃ l x, S.pool.lanes[i]? = some l ∧ x ∈ l.jobs ∧ a = .abandon x.number := by
  cases a with
  | abandon n =>
    obtain ⟨hi, holds, -⟩ := List.findIdx?_eq_some_iff_getElem.mp own
    obtain ⟨x, hx, mine⟩ := List.any_eq_true.mp holds
    obtain rfl := beq_iff_eq.mp mine
    exact .inr ⟨_, x, List.getElem?_eq_getElem hi, hx, rfl⟩
  | _ => exact .inl own

theorem number_ne_elsewhere (exec : Execution step? (ofSettings s d) past S)
    (hl : S.pool.lanes[i]? = some l) {y : Submission α} (hy : y ∈ l.jobs) (other : j ≠ i)
    (known : (j, x) ∈ issued past) : x.number ≠ y.number := fun same ↦
  other (number_inj exec known (issued_of_mem_jobs exec hl hy) same).1

theorem notMem_settled (exec : Execution step? (ofSettings s d) past S)
    (hl : S.pool.lanes[i]? = some l) {w : Work α} (work : work? S.pool.closing l a = some w)
    (other : j ≠ i) (known : (j, x) ∈ issued past) : x.number ∉ w.settled := by
  intro settled
  obtain ⟨y, hy, same⟩ := exists_of_settled work settled
  exact number_ne_elsewhere exec hl hy other known same.symm

theorem alike_of_worker (exec : Execution step? (ofSettings s d) past S)
    (step : S.step? a = some (S', outputs)) (acts : a.worker? = some i) :
    Alike i (issued past) S S' := by
  obtain ⟨l, w, hl, work, done⟩ := worker_cases step acts
  obtain rfl : (S.afterWork i w).1 = S' := congrArg Prod.fst done
  refine ⟨rfl, rfl, List.length_set.symm, rfl, fun {j} other ↦ ?_, fun {j x} other known ↦ ?_⟩
  · show S.pool.lanes[j]? = (S.pool.setLane i w.lane).lanes[j]?
    rw [getElem?_setLane hl, if_neg other.symm]
  · show _ ↔ x.number ∈ (S.settle (S.pool.setLane i w.lane) w.settled w.answer).1.waiters
    rw [waiters_settle, and_iff_left (notMem_settled exec hl work other known)]

theorem alike_of_abandon (exec : Execution step? (ofSettings s d) past S)
    (step : S.step? (.abandon x.number) = some (S', outputs)) (hl : S.pool.lanes[i]? = some l)
    (hx : x ∈ l.jobs) : Alike i (issued past) S S' := by
  simp only [step?] at step
  split at step <;> cases step
  refine ⟨rfl, rfl, List.length_map _ |>.symm, rfl, fun {j} other ↦ ?_, fun {j y} other known ↦ ?_⟩
  · show S.pool.lanes[j]? = (S.pool.lanes.map (Lane.withdraw fun y ↦ y.number == x.number))[j]?
    rw [List.getElem?_map]
    cases hm : S.pool.lanes[j]? with
    | none => rfl
    | some m =>
      have nobody : ∀ y ∈ m.queue.waiting, !(y.number == x.number) := by
        intro y hy
        have held : y ∈ m.jobs := List.mem_append_right _ (List.mem_append_right _ hy)
        have among := issued_of_mem_jobs exec hm held
        simpa using number_ne_elsewhere exec hl hx other among
      rw [Option.map_some, Lane.withdraw, Queue.withdraw, List.filter_eq_self.mpr nobody]
  · have stranger := number_ne_elsewhere exec hl hx other known
    simp [stranger]

/-- A step that concerns one lane answers nobody who submitted to another one. -/
theorem silent_elsewhere (exec : Execution step? (ofSettings s d) past S)
    (step : S.step? a = some (S', outputs)) (own : concerned? ⟨S, a, S', outputs⟩ = some i)
    (other : j ≠ i) (known : (j, x) ∈ issued past) :
    answering x.number ⟨S, a, S', outputs⟩ = [] := by
  obtain acts | ⟨l, y, -, -, rfl⟩ := concerned_cases own
  · obtain ⟨l, w, hl, work, done⟩ := worker_cases step acts
    obtain rfl : (S.afterWork i w).1 = S' := congrArg Prod.fst done
    obtain rfl : (S.afterWork i w).2 = outputs := congrArg Prod.snd done
    rw [answering_afterWork,
      List.count_eq_zero_of_not_mem (notMem_settled exec hl work other known)]
    exact ite_self _
  · simp only [step?] at step
    split at step <;> cases step
    rfl

/-- A step that concerns one lane is not a step of another lane, nor does it bring a job. -/
theorem foreign_of_concerned (own : concerned? ⟨S, a, S', outputs⟩ = some i) (other : j ≠ i) :
    a ≠ .take j ∧ (∀ answer, a ≠ .reply j answer) ∧ issuing ⟨S, a, S', outputs⟩ = [] := by
  obtain acts | ⟨l, y, -, -, rfl⟩ := concerned_cases own
  · refine ⟨?_, ?_, ?_⟩
    · rintro rfl
      exact other (Option.some.inj acts)
    · rintro answer rfl
      exact other (Option.some.inj acts)
    · cases a with
      | submit => cases acts
      | _ => rfl
  · exact ⟨by simp, by simp, rfl⟩

/-- **A step that concerns one lane goes unnoticed everywhere else.** -/
theorem unnoticed (exec : Execution step? (ofSettings s d) past S)
    (step : S.step? a = some (S', outputs)) (own : concerned? ⟨S, a, S', outputs⟩ = some i) :
    Alike i (issued past) S S' ∧ SameRecords i (issued past) [⟨S, a, S', outputs⟩] [] := by
  have alike : Alike i (issued past) S S' := by
    obtain acts | ⟨l, y, hl, hy, rfl⟩ := concerned_cases own
    · exact alike_of_worker exec step acts
    · exact alike_of_abandon exec step hl hy
  have idle {j : Nat} (other : j ≠ i) : beginning j ⟨S, a, S', outputs⟩ = [] :=
    beginning_eq_nil step (foreign_of_concerned own other).1
  refine ⟨alike, ?_, fun {j} other ↦ ?_, fun {j} other ↦ ?_, fun {j} other ↦ ?_,
    fun {j x} other known ↦ ?_⟩
  · rw [issued, List.flatMap_singleton]
    exact (foreign_of_concerned own (Nat.succ_ne_self i)).2.2
  · rw [entered, List.flatMap_singleton]
    cases hl : S.pool.lanes[j]? with
    | none => simp [entering, hl, entered]
    | some l =>
      rw [entering_eq_drop hl ((alike.lane other).symm.trans hl) (idle other), List.drop_length]
      rfl
  · rw [begun, List.flatMap_singleton]
    exact idle other
  · rw [finished, List.flatMap_singleton]
    exact finishing_eq_nil (foreign_of_concerned own other).2.1
  · rw [answers, List.flatMap_singleton]
    exact silent_elsewhere exec step own other known

/-! ## Steps that both pools make -/

/-- What the records of a step are for one lane depends on the action, on what the lane is before
and after it, and on what it begins. -/
theorem sameRecords_of_step {known : List (Nat × Submission α)} {e e' : Event α}
    (action : e.action = e'.action) (issued : issuing e = issuing e')
    (before : ∀ {j}, j ≠ i → e.before.pool.lanes[j]? = e'.before.pool.lanes[j]?)
    (after : ∀ {j}, j ≠ i → e.after.pool.lanes[j]? = e'.after.pool.lanes[j]?)
    (begins : ∀ {j}, j ≠ i → beginning j e = beginning j e')
    (told : ∀ {j} {x : Submission α}, j ≠ i → (j, x) ∈ known →
      answering x.number e = answering x.number e') :
    SameRecords i known [e] [e'] where
  issued := by simpa only [Service.issued, List.flatMap_singleton] using issued
  entered other := by
    simp only [entered, List.flatMap_singleton, entering, before other, after other, begins other]
  begun other := by simpa only [begun, List.flatMap_singleton] using begins other
  finished other := by
    simp only [finished, List.flatMap_singleton, finishing, before other, action]
  told other among := by simpa only [answers, List.flatMap_singleton] using told other among

section Together

variable {known : List (Nat × Submission α)}

theorem together_of_worker (alike : Alike i known S T) (step : S.step? a = some (S', outputs))
    (step' : T.step? a = some (T', outputs')) (acts : a.worker? = some k) (other : k ≠ i) :
    Alike i known S' T' ∧
      SameRecords i known [⟨S, a, S', outputs⟩] [⟨T, a, T', outputs'⟩] := by
  obtain ⟨l, w, hl, work, done⟩ := worker_cases step acts
  obtain ⟨m, w', hm, work', done'⟩ := worker_cases step' acts
  -- both workers find the same lane, so the same comes of what they do
  obtain rfl : l = m := Option.some.inj (hl.symm.trans ((alike.lane other).trans hm))
  obtain rfl : w = w' := by
    rw [← alike.closing, work] at work'
    exact Option.some.inj work'
  obtain rfl : (S.afterWork k w).1 = S' := congrArg Prod.fst done
  obtain rfl : (S.afterWork k w).2 = outputs := congrArg Prod.snd done
  obtain rfl : (T.afterWork k w).1 = T' := congrArg Prod.fst done'
  obtain rfl : (T.afterWork k w).2 = outputs' := congrArg Prod.snd done'
  have lane {j : Nat} (hj : j ≠ i) : (S.afterWork k w).1.pool.lanes[j]? =
      (T.afterWork k w).1.pool.lanes[j]? := by
    show (S.pool.setLane k w.lane).lanes[j]? = (T.pool.setLane k w.lane).lanes[j]?
    rw [getElem?_setLane hl, getElem?_setLane hm, alike.lane hj]
  have issued : issuing ⟨S, a, (S.afterWork k w).1, (S.afterWork k w).2⟩ =
      issuing ⟨T, a, (T.afterWork k w).1, (T.afterWork k w).2⟩ := by
    cases a with
    | submit => cases acts
    | _ => rfl
  constructor
  · refine ⟨alike.closing, alike.picks, ?_, alike.next, lane, fun {j x} hj among ↦ ?_⟩
    · exact List.length_set.trans (alike.length.trans List.length_set.symm)
    · show x.number ∈ (S.settle _ w.settled w.answer).1.waiters ↔
        x.number ∈ (T.settle _ w.settled w.answer).1.waiters
      rw [waiters_settle, waiters_settle, alike.waits hj among]
  · refine sameRecords_of_step rfl issued alike.lane lane (fun _ ↦ ?_) fun hj among ↦ ?_
    · rw [beginning_afterWork, beginning_afterWork]
    · simp only [answering_afterWork, alike.waits hj among]

/-- What is done to all lanes alike, and tells nobody anything. -/
theorem together_of_all (alike : Alike i known S T) (step : S.step? a = some (S', outputs))
    (step' : T.step? a = some (T', outputs')) (nobody : a.worker? = none)
    (quiet : ∀ job, a ≠ .submit job) :
    Alike i known S' T' ∧
      SameRecords i known [⟨S, a, S', outputs⟩] [⟨T, a, T', outputs'⟩] := by
  have mapped {f : Lane (Submission α) → Lane (Submission α)} {j : Nat} (other : j ≠ i) :
      (S.pool.lanes.map f)[j]? = (T.pool.lanes.map f)[j]? := by
    rw [List.getElem?_map, List.getElem?_map, alike.lane other]
  have length {f : Lane (Submission α) → Lane (Submission α)} :
      (S.pool.lanes.map f).length = (T.pool.lanes.map f).length := by
    rw [List.length_map, List.length_map, alike.length]
  suffices here : Alike i known S' T' ∧ outputs = [] ∧ outputs' = [] by
    obtain ⟨alike', rfl, rfl⟩ := here
    have issued : issuing ⟨S, a, S', []⟩ = issuing ⟨T, a, T', []⟩ := by
      cases a with
      | submit job => exact absurd rfl (quiet job)
      | _ => rfl
    exact ⟨alike', sameRecords_of_step rfl issued alike.lane alike'.lane (fun _ ↦ rfl)
      fun _ _ ↦ rfl⟩
  cases a with
  | submit job => exact absurd rfl (quiet job)
  | take | reply | crash | drain | retire => cases nobody
  | close =>
    cases step
    cases step'
    exact ⟨{ alike with closing := rfl }, rfl, rfl⟩
  | release =>
    simp only [step?] at step step'
    split at step <;> cases step
    split at step' <;> cases step'
    exact ⟨{ alike with length, lane := mapped }, rfl, rfl⟩
  | abandon n =>
    simp only [step?] at step step'
    split at step <;> cases step
    split at step' <;> cases step'
    refine ⟨{ alike with length, lane := mapped, waits := fun {j x} other among ↦ ?_ }, rfl, rfl⟩
    simp only [List.mem_filter, alike.waits other among]

/-- The lane whose turn it is after a job has come to it, if it takes the job. -/
def taking? (S : Service α) (job : α) : Option (Lane (Submission α)) :=
  (S.pool.lanes[S.pool.turn]?).bind (Lane.submit? ⟨S.next, job⟩)

/-- A submission passes the turn on. The lane takes the job, and the submitter waits, or the
submitter is told at once that its job is lost. -/
theorem submit_taking? {job : α} (step : S.step? (.submit job) = some (S', outputs)) :
    (S', outputs) = match S.taking? job with
      | some l => (⟨S.pool.pick.2.setLane S.pool.turn l, S.waiters ++ [S.next], S.next + 1⟩, [])
      | none => (⟨S.pool.pick.2, S.waiters, S.next + 1⟩, [.answer S.next .lost]) := by
  obtain ⟨l, l', hl, submitted, done⟩ | ⟨full, done⟩ := Pool.submit_cases ⟨S.next, job⟩ S.pool
  · have takes : S.taking? job = some l' := by rw [taking?, hl, Option.bind_some, submitted]
    simp only [step?, done] at step
    cases step
    rw [takes]
  · have takes : S.taking? job = none := Option.bind_eq_none_iff.mpr full
    simp only [step?, done] at step
    cases step
    rw [takes]

/-- What a submission changes apart from the lane whose turn it is, and from what is told to the
submitter. -/
theorem submit_elsewhere {job : α} (step : S.step? (.submit job) = some (S', outputs)) :
    S'.pool.closing = S.pool.closing ∧ S'.pool.picks = S.pool.picks + 1 ∧
      S'.pool.lanes.length = S.pool.lanes.length ∧ S'.next = S.next + 1 ∧
      (∀ j, S.pool.turn ≠ j → S'.pool.lanes[j]? = S.pool.lanes[j]?) ∧
      ∀ n, n ≠ S.next → (n ∈ S'.waiters ↔ n ∈ S.waiters) ∧
        answering n ⟨S, .submit job, S', outputs⟩ = [] := by
  have done := submit_taking? step
  split at done <;> cases done
  · refine ⟨rfl, rfl, List.length_set, rfl, fun j other ↦ ?_, fun n old ↦ ⟨?_, rfl⟩⟩
    · exact List.getElem?_set_ne other
    · simp [old]
  · exact ⟨rfl, rfl, rfl, rfl, fun _ _ ↦ rfl, fun n old ↦ ⟨Iff.rfl, by simp [answering, old.symm]⟩⟩

/-- Two lanes that are the same when a job comes to them are the same afterwards, and their
submitters hear the same. -/
theorem submit_here {job : α} (step : S.step? (.submit job) = some (S', outputs))
    (step' : T.step? (.submit job) = some (T', outputs')) (next : S.next = T.next)
    (lane : S.pool.lanes[S.pool.turn]? = T.pool.lanes[T.pool.turn]?)
    (fresh : S.next ∉ S.waiters) (fresh' : T.next ∉ T.waiters) :
    S'.pool.lanes[S.pool.turn]? = T'.pool.lanes[T.pool.turn]? ∧
      (S.next ∈ S'.waiters ↔ T.next ∈ T'.waiters) ∧ outputs = outputs' := by
  have same : S.taking? job = T.taking? job := by rw [taking?, taking?, lane, next]
  have done := submit_taking? step
  have done' := submit_taking? step'
  rw [← same] at done'
  cases takes : S.taking? job with
  | some l =>
    rw [takes] at done done'
    cases done
    cases done'
    obtain ⟨m, hm, -⟩ := Option.bind_eq_some_iff.mp takes
    have picked : S.pool.pick.2.lanes[S.pool.turn]? = some m := hm
    have picked' : T.pool.pick.2.lanes[T.pool.turn]? = some m := lane.symm.trans hm
    refine ⟨?_, by simp, rfl⟩
    rw [getElem?_setLane picked, getElem?_setLane picked', if_pos rfl, if_pos rfl]
  | none =>
    rw [takes] at done done'
    cases done
    cases done'
    exact ⟨lane, iff_of_false fresh fresh', by rw [next]⟩

theorem together_of_submit {job : α} (alike : Alike i (issued past) S T)
    (exec : Execution step? (ofSettings s d) past S)
    (exec' : Execution step? (ofSettings s d) past' T)
    (step : S.step? (.submit job) = some (S', outputs))
    (step' : T.step? (.submit job) = some (T', outputs')) :
    Alike i (issued (past ++ [⟨S, .submit job, S', outputs⟩])) S' T' ∧
      SameRecords i (issued (past ++ [⟨S, .submit job, S', outputs⟩]))
        [⟨S, .submit job, S', outputs⟩] [⟨T, .submit job, T', outputs'⟩] := by
  have turn : S.pool.turn = T.pool.turn := by
    simp only [Pool.turn, Pool.pick, alike.picks, alike.length]
  obtain ⟨closing, picks, length, next, lanes, others⟩ := submit_elsewhere step
  obtain ⟨closing', picks', length', next', lanes', others'⟩ := submit_elsewhere step'
  have issuing : issuing ⟨S, .submit job, S', outputs⟩ =
      issuing ⟨T, .submit job, T', outputs'⟩ := by
    simp only [Service.issuing, turn, alike.next]
  -- both pools send the job to the same lane, which is alike unless it is the one set apart
  have here (other : S.pool.turn ≠ i) :=
    submit_here step step' alike.next (turn ▸ alike.lane other)
      (unheard exec (Nat.le_refl _)).2 (unheard exec' (Nat.le_refl _)).2
  have lane {j : Nat} (other : j ≠ i) : S'.pool.lanes[j]? = T'.pool.lanes[j]? := by
    by_cases mine : S.pool.turn = j
    · subst mine
      rw [(here other).1, turn]
    · rw [lanes j mine, lanes' j (turn ▸ mine), alike.lane other]
  have submitter {j : Nat} {x : Submission α} (other : j ≠ i)
      (among : (j, x) ∈ issued (past ++ [⟨S, .submit job, S', outputs⟩])) :
      (x.number ∈ S'.waiters ↔ x.number ∈ T'.waiters) ∧
        answering x.number ⟨S, .submit job, S', outputs⟩ =
          answering x.number ⟨T, .submit job, T', outputs'⟩ := by
    rw [issued_concat, List.mem_append] at among
    rcases among with old | new
    · have earlier := number_lt exec old
      obtain ⟨waits, silent⟩ := others x.number (Nat.ne_of_lt earlier)
      obtain ⟨waits', silent'⟩ := others' x.number (alike.next ▸ Nat.ne_of_lt earlier)
      exact ⟨by rw [waits, waits', alike.waits other old], by rw [silent, silent']⟩
    · obtain ⟨rfl, rfl⟩ := Prod.mk.inj (List.mem_singleton.mp new)
      obtain ⟨-, waits, rfl⟩ := here other
      exact ⟨by rw [waits, alike.next], rfl⟩
  refine ⟨⟨?_, ?_, ?_, ?_, lane, fun other among ↦ (submitter other among).1⟩,
    sameRecords_of_step rfl issuing alike.lane lane (fun _ ↦ ?_)
      fun other among ↦ (submitter other among).2⟩
  · rw [closing, closing', alike.closing]
  · rw [picks, picks', alike.picks]
  · rw [length, length', alike.length]
  · rw [next, next', alike.next]
  · rw [beginning_eq_nil step (by simp), beginning_eq_nil step' (by simp)]

end Together

/-- **Two pools that make the same step stay alike**, if it is not a step of the one lane. -/
theorem together (alike : Alike i (issued past) S T)
    (exec : Execution step? (ofSettings s d) past S)
    (exec' : Execution step? (ofSettings s d) past' T)
    (step : S.step? a = some (S', outputs)) (step' : T.step? a = some (T', outputs'))
    (other : a.worker? ≠ some i) :
    Alike i (issued (past ++ [⟨S, a, S', outputs⟩])) S' T' ∧
      SameRecords i (issued (past ++ [⟨S, a, S', outputs⟩]))
        [⟨S, a, S', outputs⟩] [⟨T, a, T', outputs'⟩] := by
  by_cases submits : ∃ job, a = .submit job
  · obtain ⟨job, rfl⟩ := submits
    exact together_of_submit alike exec exec' step step'
  · have quiet (job : α) : a ≠ .submit job := fun same ↦ submits ⟨job, same⟩
    have nothing : issued (past ++ [⟨S, a, S', outputs⟩]) = issued past := by
      obtain ⟨job, same, -⟩ | ⟨-, nothing⟩ := issuing_of_step step
      · exact absurd same (quiet job)
      · rw [issued_concat, nothing, List.append_nil]
    rw [nothing]
    cases acts : a.worker? with
    | none => exact together_of_all alike step step' acts quiet
    | some k => exact together_of_worker alike step step' acts fun same ↦ other (same ▸ acts)

/-! ## Two runs -/

theorem SameRecords.known_concat (same : SameRecords i (Service.issued past) past past')
    (exec : Execution step? (ofSettings s d) past S)
    (exec' : Execution step? (ofSettings s d) past' T) (next : S.next = T.next)
    (step : S.step? a = some (S', outputs)) :
    SameRecords i (Service.issued (past ++ [⟨S, a, S', outputs⟩])) past past' where
  issued := same.issued
  entered := same.entered
  begun := same.begun
  finished := same.finished
  told {j x} other among := by
    rw [Service.issued_concat, List.mem_append] at among
    rcases among with old | new
    · exact same.told other old
    · obtain ⟨job, -, -, one⟩ | ⟨-, nothing⟩ := issuing_of_step step
      · rw [one, List.mem_singleton, Prod.mk.injEq] at new
        have number : x.number = S.next := by rw [new.2]
        rw [(unheard exec (Nat.le_of_eq number.symm)).1,
          (unheard exec' (Nat.le_of_eq (next.symm.trans number.symm))).1]
      · rw [nothing] at new
        cases new

theorem Indistinct.unnoticed (same : Indistinct i past past' S T)
    (exec : Execution step? (ofSettings s d) past S) (step : S.step? a = some (S', outputs))
    (own : concerned? ⟨S, a, S', outputs⟩ = some i) :
    Indistinct i (past ++ [⟨S, a, S', outputs⟩]) past' S' T := by
  obtain ⟨alike, records⟩ := Service.unnoticed exec step own
  have nothing : issued (past ++ [⟨S, a, S', outputs⟩]) = issued past := by
    rw [issued_concat, (foreign_of_concerned own (Nat.succ_ne_self i)).2.2, List.append_nil]
  constructor
  · rw [nothing]
    exact alike.symm.trans same.alike
  · rw [nothing]
    simpa only [List.append_nil] using same.records.append records

theorem Indistinct.together (same : Indistinct i past past' S T)
    (exec : Execution step? (ofSettings s d) past S)
    (exec' : Execution step? (ofSettings s d) past' T)
    (step : S.step? a = some (S', outputs)) (step' : T.step? a = some (T', outputs'))
    (other : a.worker? ≠ some i) :
    Indistinct i (past ++ [⟨S, a, S', outputs⟩]) (past' ++ [⟨T, a, T', outputs'⟩]) S' T' := by
  obtain ⟨alike, records⟩ := Service.together same.alike exec exec' step step' other
  exact ⟨alike, (same.records.known_concat exec exec' same.alike.next step).append records⟩

/-- **Lanes do not notice each other.** Two runs in which all others do the same leave every other
lane the same, with the same history, and tell its submitters the same. -/
theorem indistinct (exec : Execution step? (ofSettings s d) past S)
    (exec' : Execution step? (ofSettings s d) past' T) (same : others i past = others i past') :
    Indistinct i past past' S T := by
  induction exec generalizing past' T with
  | refl =>
    induction exec' with
    | refl =>
      exact ⟨⟨rfl, rfl, rfl, rfl, fun _ ↦ rfl, fun _ _ ↦ Iff.rfl⟩,
        ⟨rfl, fun _ ↦ rfl, fun _ ↦ rfl, fun _ ↦ rfl, fun _ _ ↦ rfl⟩⟩
    | snoc exec' step' ih =>
      rw [others_concat] at same
      split at same
      · exact ((ih same).symm.unnoticed exec' step' ‹_›).symm
      · simp [others] at same
  | @snoc past S S' a outputs exec step ih =>
    by_cases own : concerned? ⟨S, a, S', outputs⟩ = some i
    · rw [others_concat, if_pos own] at same
      exact (ih exec' same).unnoticed exec step own
    · induction exec' with
      | refl =>
        rw [others_concat, if_neg own] at same
        simp [others] at same
      | @snoc past' T T' a' outputs' exec' step' ih' =>
        by_cases own' : concerned? ⟨T, a', T', outputs'⟩ = some i
        · rw [others_concat (e := ⟨T, a', T', outputs'⟩), if_pos own'] at same
          exact ((ih' same).symm.unnoticed exec' step' own').symm
        · rw [others_concat, others_concat, if_neg own, if_neg own'] at same
          obtain ⟨before, one⟩ := List.append_inj' same rfl
          obtain rfl : a = a' := List.singleton_inj.mp one
          exact (ih exec' before).together exec exec' step step' fun acts ↦
            own (concerned_of_worker acts)

end MessageBridge.Service
