import MessageBridge.Proofs.Lane.Moves

/-!
# Relabelling jobs

No operation of a queue, a lane or a pool looks at the jobs, so each of them commutes with a change
of the labels that the jobs carry. What is proved of lanes whose jobs are numbered therefore holds
of lanes whose jobs are not.
-/

namespace MessageBridge

universe u v

variable {α : Type u} {β : Type v}

/-! ## Queues -/

namespace Queue

/-- The queue with other labels. -/
def map (f : α → β) (q : Queue α) : Queue β :=
  ⟨q.depth, q.accepted.map f, q.waiting.map f, q.closed⟩

variable (f : α → β) (q : Queue α)

@[simp] theorem map_accepted : (q.map f).accepted = q.accepted.map f := rfl

@[simp] theorem map_waiting : (q.map f).waiting = q.waiting.map f := rfl

@[simp] theorem map_closed : (q.map f).closed = q.closed := rfl

@[simp] theorem hasPlace_map : (q.map f).hasPlace = q.hasPlace := by
  simp [hasPlace, map]

theorem offer?_map (a : α) : (q.map f).offer? (f a) = (q.offer? a).map (map f) := by
  unfold offer?
  rw [map_closed, hasPlace_map]
  split
  · rfl
  · split <;> simp [map]

theorem take?_map : (q.map f).take? = q.take?.map (Prod.map f (map f)) := by
  rcases q with ⟨depth, _ | ⟨a, rest⟩, _ | ⟨b, others⟩, closed⟩ <;> simp [take?, map]

theorem discard_map : (q.map f).discard = Prod.map (List.map f) (map f) q.discard := by
  simp [discard, map]

theorem withdraw_map (givesUp : β → Bool) :
    (q.map f).withdraw givesUp = (q.withdraw (givesUp ∘ f)).map f := by
  simp [withdraw, map, List.filter_map, Function.comp_def]

theorem contents_map : (q.map f).contents = q.contents.map f := by
  simp [contents]

end Queue

/-! ## Lanes -/

namespace Lane

/-- The lane with other labels. -/
def map (f : α → β) (l : Lane α) : Lane β := ⟨l.queue.map f, l.inHand.map f, l.worker⟩

variable (f : α → β) (l : Lane α)

@[simp] theorem map_queue : (l.map f).queue = l.queue.map f := rfl

@[simp] theorem map_inHand : (l.map f).inHand = l.inHand.map f := rfl

@[simp] theorem map_worker : (l.map f).worker = l.worker := rfl

@[simp] theorem working_map : (l.map f).working = l.working := rfl

theorem submit?_map (a : α) : (l.map f).submit? (f a) = (l.submit? a).map (map f) := by
  rw [submit?, map_queue, Queue.offer?_map, Option.map_map, submit?, Option.map_map]
  rfl

theorem take?_map : (l.map f).take? = l.take?.map (Prod.map f (map f)) := by
  unfold take?
  rw [working_map, map_inHand, Option.isNone_map]
  split
  · rw [map_queue, Queue.take?_map, Option.map_map, Option.map_map]
    rfl
  · rfl

theorem finish?_map : (l.map f).finish? = l.finish?.map (Prod.map f (map f)) := by
  rw [finish?, map_inHand, Option.map_map, finish?, Option.map_map]
  rfl

theorem crash?_map : (l.map f).crash? = l.crash?.map (Prod.map (List.map f) (map f)) := by
  rw [crash?, map_inHand, Option.map_map, crash?, Option.map_map, map_queue, Queue.discard_map]
  rfl

theorem drain?_map : (l.map f).drain? = l.drain?.map (Prod.map (List.map f) (map f)) := by
  unfold drain?
  rw [map_worker, map_inHand, Option.isNone_map]
  split <;> rfl

theorem end?_map : (l.map f).end? = l.end?.map (map f) := by
  unfold end?
  rw [working_map, map_inHand, Option.isNone_map, map_queue, Queue.map_closed, Queue.map_accepted,
    List.isEmpty_map]
  split <;> rfl

theorem release_map : (l.map f).release = l.release.map f := rfl

theorem withdraw_map (givesUp : β → Bool) :
    (l.map f).withdraw givesUp = (l.withdraw (givesUp ∘ f)).map f := by
  rw [withdraw, map_queue, Queue.withdraw_map]
  rfl

theorem jobs_map : (l.map f).jobs = l.jobs.map f := by
  cases hand : l.inHand <;> simp [jobs, Queue.contents_map, hand]

end Lane

/-! ## Pools -/

namespace Pool

/-- The pool with other labels. -/
def map (f : α → β) (p : Pool α) : Pool β :=
  ⟨p.destination, p.lanes.map (Lane.map f), p.picks, p.closing⟩

variable (f : α → β) (p : Pool α) (i : Nat)

@[simp] theorem map_lanes : (p.map f).lanes = p.lanes.map (Lane.map f) := rfl

@[simp] theorem map_closing : (p.map f).closing = p.closing := rfl

theorem map_ofSettings (s : EngineSettings) (d : Destination) :
    (ofSettings s d : Pool α).map f = ofSettings s d := by
  simp [map, ofSettings, Lane.map, Lane.idle, Queue.map, Queue.empty]

theorem setLane_map (l : Lane α) : (p.setLane i l).map f = (p.map f).setLane i (l.map f) := by
  simp [setLane, map]

theorem submit_map (a : α) : (p.map f).submit (f a) = Prod.map (map f) id (p.submit a) := by
  have turn : (p.map f).turn = p.turn := by
    simp [turn, pick, map]
  have picked : (p.map f).pick.2 = p.pick.2.map f := rfl
  obtain ⟨l, l', hl, submitted, done⟩ | ⟨full, done⟩ := submit_cases a p
  · obtain ⟨m, m', hm, here, this⟩ | ⟨full, -⟩ := submit_cases (f a) (p.map f)
    · rw [turn, map_lanes, List.getElem?_map, hl] at hm
      cases hm
      rw [Lane.submit?_map, submitted] at here
      cases here
      rw [this, done, turn, picked, Prod.map, setLane_map]
      rfl
    · have none_here := full (l.map f) (by rw [turn, map_lanes, List.getElem?_map, hl]; rfl)
      rw [Lane.submit?_map, submitted] at none_here
      cases none_here
  · obtain ⟨m, m', hm, here, -⟩ | ⟨-, this⟩ := submit_cases (f a) (p.map f)
    · rw [turn, map_lanes, List.getElem?_map, Option.map_eq_some_iff] at hm
      obtain ⟨l, hl, rfl⟩ := hm
      rw [Lane.submit?_map, full l hl] at here
      cases here
    · rw [this, done, picked]
      rfl

theorem take?_map : (p.map f).take? i = (p.take? i).map (Prod.map f (map f)) := by
  unfold take?
  rw [map_lanes, List.getElem?_map, map_closing]
  cases p.lanes[i]? with
  | none => rfl
  | some l =>
    simp only [Option.map_some, Option.bind_eq_bind, Option.bind_some, Lane.map_worker,
      Lane.take?_map]
    split
    · rfl
    · cases l.take? with
      | none => rfl
      | some t => simp [setLane_map]

theorem finish?_map : (p.map f).finish? i = (p.finish? i).map (Prod.map f (map f)) := by
  unfold finish?
  rw [map_lanes, List.getElem?_map]
  cases p.lanes[i]? with
  | none => rfl
  | some l =>
    simp only [Option.map_some, Option.bind_eq_bind, Option.bind_some, Lane.finish?_map]
    cases l.finish? with
    | none => rfl
    | some t => simp [setLane_map]

theorem crash?_map :
    (p.map f).crash? i = (p.crash? i).map (Prod.map (List.map f) (map f)) := by
  unfold crash?
  rw [map_lanes, List.getElem?_map]
  cases p.lanes[i]? with
  | none => rfl
  | some l =>
    simp only [Option.map_some, Option.bind_eq_bind, Option.bind_some, Lane.crash?_map]
    cases l.crash? with
    | none => rfl
    | some t => simp [setLane_map]

theorem drain?_map :
    (p.map f).drain? i = (p.drain? i).map (Prod.map (List.map f) (map f)) := by
  unfold drain?
  rw [map_lanes, List.getElem?_map, map_closing]
  cases p.lanes[i]? with
  | none => rfl
  | some l =>
    simp only [Option.map_some, Option.bind_eq_bind, Option.bind_some, Lane.drain?_map]
    split
    · cases l.drain? with
      | none => rfl
      | some t => simp [setLane_map]
    · rfl

theorem end?_map : (p.map f).end? i = (p.end? i).map (map f) := by
  unfold end?
  rw [map_lanes, List.getElem?_map]
  cases p.lanes[i]? with
  | none => rfl
  | some l =>
    simp only [Option.map_some, Option.bind_eq_bind, Option.bind_some, Lane.end?_map]
    cases l.end? with
    | none => rfl
    | some l' => simp [setLane_map]

theorem release_map : (p.map f).release = p.release.map f := by
  simp [release, map, Lane.release_map]

theorem withdraw_map (givesUp : β → Bool) :
    (p.map f).withdraw givesUp = (p.withdraw (givesUp ∘ f)).map f := by
  simp [withdraw, map, Lane.withdraw_map]

theorem jobs_map : (p.map f).jobs = p.jobs.map f := by
  simp [jobs, List.flatMap_map, List.map_flatMap, Lane.jobs_map]

end Pool

end MessageBridge
