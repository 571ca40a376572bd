/-!
# Bounded queues

A queue keeps what it accepted in order. It has a fixed number of places; whoever finds them all
taken waits for a place, first come first served. A closed queue accepts nothing more and sends
the waiting away, but what it accepted can still be taken.
-/

namespace MessageBridge

/-- A first-in first-out queue with a fixed number of places. -/
structure Queue (α : Type u) where
  /-- The number of places. -/
  depth : Nat
  /-- What has been accepted and not yet taken, oldest first. -/
  accepted : List α
  /-- What waits for a place, oldest first. -/
  waiting : List α
  /-- Whether nothing more is accepted. -/
  closed : Bool
deriving Repr

namespace Queue

variable {α : Type u}

/-- The greatest number of places that a queue can have, which is the greatest of 61 bits. -/
def greatestDepth : Nat := 2305843009213693951

/-- An open queue with nothing in it. -/
def empty (depth : Nat) : Queue α := ⟨depth, [], [], false⟩

/-- Whether an offer would be accepted at once. -/
def hasPlace (q : Queue α) : Bool := q.waiting.isEmpty && decide (q.accepted.length < q.depth)

/-- The queue after an offer, which takes a place or waits for one; `none` if it is closed. -/
def offer? (a : α) (q : Queue α) : Option (Queue α) :=
  if q.closed then none
  else if q.hasPlace then some { q with accepted := q.accepted ++ [a] }
  else some { q with waiting := q.waiting ++ [a] }

/-- The oldest accepted element, and the queue in which the first of the waiting has its place. -/
def take? (q : Queue α) : Option (α × Queue α) :=
  match q.accepted with
  | [] => none
  | a :: rest =>
    match q.waiting with
    | [] => some (a, { q with accepted := rest })
    | b :: others => some (a, { q with accepted := rest ++ [b], waiting := others })

/-- The closed queue, and whoever waited for a place. -/
def close (q : Queue α) : List α × Queue α := (q.waiting, { q with waiting := [], closed := true })

/-- The closed queue with nothing in it, and all that was lost with it. -/
def discard (q : Queue α) : List α × Queue α :=
  (q.accepted ++ q.waiting, { q with accepted := [], waiting := [], closed := true })

/-- The queue without those of the waiting that give up. -/
def withdraw (givesUp : α → Bool) (q : Queue α) : Queue α :=
  { q with waiting := q.waiting.filter fun a ↦ !givesUp a }

/-! ## Small laws -/

/-- Everything in the queue, in the order in which it will be taken. -/
def contents (q : Queue α) : List α := q.accepted ++ q.waiting

theorem contents_offer? {a : α} {q r : Queue α} (h : q.offer? a = some r) :
    r.contents = q.contents ++ [a] := by
  unfold offer? at h
  split at h
  · cases h
  · split at h
    · rename_i place
      cases h
      simp only [hasPlace, Bool.and_eq_true, List.isEmpty_iff] at place
      simp [contents, place.1]
    · cases h
      simp [contents]

theorem contents_take? {a : α} {q r : Queue α} (h : q.take? = some (a, r)) :
    q.contents = a :: r.contents := by
  unfold take? at h
  split at h
  · cases h
  · rename_i b rest accepted
    split at h <;> rename_i waiting <;> cases h <;> simp [contents, accepted, waiting]

end Queue

end MessageBridge
