import MessageBridge.Memory.Egress
import MessageBridge.Proofs.Execution

/-!
# Egress points in memory as machines

An egress point with a clock, and those who publish to it, change its settings and wait for its
records, as a machine: any of them may act between any two steps of the others. A publish has two
steps, its beginning and its decision, and the clock decides only how early the second can come.

Most of what can happen leaves the publishes alone (`Depot.Aside`). What remains is the beginning
of a publish, at an open point or at a closed one, and the three ways a decision can go
(`Egress.Decision`); `Depot.Step` lists them.
-/

namespace MessageBridge.Memory

/-! ## Decisions -/

namespace Egress

variable {e f : Egress} {call : Nat} {p : PendingPublish} {answer : Except BusError Unit}

/-- What a publish that is rejected ends with. -/
def rejection (e : Egress) : BusError := .publish (e.target ++ " rejected the message")

/-- The point without the publish of a call. -/
def without (call : Nat) (e : Egress) : Egress :=
  { e with pending := e.pending.filter fun p ↦ p.call != call }

/-- The ways the decision on a publish can go. -/
inductive Decision (e : Egress) (p : PendingPublish) : Except BusError Unit → Egress → Prop where
  /-- All are rejected. -/
  | forced : e.failAlways = true → Decision e p (.error e.rejection) (e.without p.call)
  /-- This one is rejected. -/
  | scripted : e.failAlways = false → 0 < e.failNext →
      Decision e p (.error e.rejection) { e.without p.call with failNext := e.failNext - 1 }
  /-- It is accepted. -/
  | accepted : e.failAlways = false → e.failNext = 0 →
      Decision e p (.ok ()) { e.without p.call with published := e.published ++ [p.message] }

/-- A publish that begins at a closed point is turned away. -/
theorem begin_of_closed (closed : e.closed = true) (now call : Nat) (m : Message) :
    e.begin now call m = (some .closed, { e with attempts := e.attempts + 1 }) := if_pos closed

/-- A publish that begins at an open point is under way. -/
theorem begin_of_open (still_open : e.closed = false) (now call : Nat) (m : Message) :
    e.begin now call m = (none, { e with
      attempts := e.attempts + 1
      pending := e.pending ++ [⟨call, m, now + e.delay.getD 0⟩] }) :=
  if_neg (Bool.eq_false_iff.mp still_open)

theorem mem_pending_of_pending? (found : e.pending? call = some p) :
    p ∈ e.pending ∧ p.call = call := by
  refine ⟨List.mem_of_find?_eq_some found, ?_⟩
  simpa using List.find?_some found

theorem decision_of_decide? (found : e.pending? call = some p)
    (decided : e.decide? call = some (answer, f)) : e.Decision p answer f := by
  obtain rfl := (mem_pending_of_pending? found).2
  unfold decide? at decided
  rw [found] at decided
  dsimp only [Option.bind_eq_bind, Option.bind_some] at decided
  split at decided
  · rename_i forced
    cases decided
    exact .forced forced
  · rename_i unforced
    split at decided
    · rename_i some_left
      cases decided
      exact .scripted (Bool.eq_false_iff.mpr unforced) some_left
    · rename_i none_left
      cases decided
      exact .accepted (Bool.eq_false_iff.mpr unforced) (Nat.eq_zero_of_not_pos none_left)

/-- A publish under way can be decided. -/
theorem isSome_decide? (found : e.pending? call = some p) : (e.decide? call).isSome := by
  unfold decide?
  rw [found]
  dsimp only [Option.bind_eq_bind, Option.bind_some]
  split
  · rfl
  · split
    · rfl
    · rfl

theorem Decision.pending (decided : e.Decision p answer f) :
    f.pending = e.pending.filter fun q ↦ q.call != p.call := by
  cases decided <;> rfl

theorem Decision.attempts (decided : e.Decision p answer f) : f.attempts = e.attempts := by
  cases decided <;> rfl

theorem Decision.target (decided : e.Decision p answer f) : f.target = e.target := by
  cases decided <;> rfl

theorem Decision.closed (decided : e.Decision p answer f) : f.closed = e.closed := by
  cases decided <;> rfl

/-- The scripts decide what becomes of a publish, and nothing else does. -/
theorem Decision.result (decided : e.Decision p answer f) :
    answer = if e.rejects then .error e.rejection else .ok () := by
  cases decided with
  | forced always => simp [rejects, always]
  | scripted _ some_left => simp [rejects, some_left]
  | accepted seldom none_left => simp [rejects, seldom, none_left]

end Egress

/-! ## The machine -/

/-- What can happen at an egress point. -/
inductive Deed where
  /-- Someone publishes a message. -/
  | publish (m : Message)
  /-- A publish is decided, its delay being over. -/
  | decide (call : Nat)
  /-- Someone has the next publishes rejected. -/
  | failNext (n : Nat)
  /-- Someone has all publishes rejected, or no longer. -/
  | failAlways (on : Bool)
  /-- Someone makes the point slow. -/
  | setDelay (millis : Nat)
  /-- Someone closes the point. -/
  | close
  /-- Someone waits for a number of records. -/
  | await (count timeout : Nat)
  /-- One who waits finds enough records. -/
  | reach
  /-- One who waits gives up. -/
  | expire
  /-- Time passes. -/
  | pass (millis : Nat)

/-- The number of publishes that are to be rejected from now on. -/
def Deed.script : Deed → Option Nat
  | .failNext n => some n
  | _ => none

/-- Whether the point is closed by it. -/
def Deed.closes : Deed → Bool
  | .close => true
  | _ => false

/-- Whether a publish begins or is decided. -/
def Deed.publishes : Deed → Bool
  | .publish _ | .decide _ => true
  | _ => false

/-- What those around an egress point notice. -/
inductive Notice where
  /-- A publish began. -/
  | begun (call : Nat) (m : Message)
  /-- A publish returned. -/
  | answered (call : Nat) (result : Except BusError Unit)
  /-- A call for a number of records began. -/
  | awaited (call count : Nat)
  /-- A call for a number of records returned, with whether there are as many. -/
  | released (call : Nat) (reached : Bool)

/-- The publish that a notice is about. -/
def Notice.publish? : Notice → Option Nat
  | .begun call _ | .answered call _ => some call
  | .awaited .. | .released .. => none

/-- An egress point and a clock. -/
structure Depot where
  /-- The point. -/
  egress : Egress
  /-- The time. -/
  now : Nat
  /-- The number of calls so far, which is the name of the next. -/
  calls : Nat

namespace Depot

/-- A new point. -/
def ofName (target : String) : Depot := ⟨.ofName target, 0, 0⟩

/-- The point after a deed, and what was noticed of it; `none` if the deed cannot happen. -/
def step? (x : Depot) : Deed → Option (Depot × List Notice)
  | .publish m =>
    match x.egress.begin x.now x.calls m with
    | (some e, egress) =>
      some ({ x with egress, calls := x.calls + 1 },
        [.begun x.calls m, .answered x.calls (.error e)])
    | (none, egress) => some ({ x with egress, calls := x.calls + 1 }, [.begun x.calls m])
  | .decide call =>
    match x.egress.pending? call with
    | none => none
    | some p =>
      if p.due ≤ x.now then
        (x.egress.decide? call).map fun (result, egress) ↦
          ({ x with egress }, [.answered call result])
      else none
  | .failNext n => some ({ x with egress := x.egress.setFailNext n }, [])
  | .failAlways on => some ({ x with egress := x.egress.setFailAlways on }, [])
  | .setDelay millis => some ({ x with egress := x.egress.setDelay millis }, [])
  | .close => some ({ x with egress := x.egress.close }, [])
  | .await count timeout =>
    match x.egress.await x.now x.calls count timeout with
    | (true, egress) =>
      some ({ x with egress, calls := x.calls + 1 },
        [.awaited x.calls count, .released x.calls true])
    | (false, egress) => some ({ x with egress, calls := x.calls + 1 }, [.awaited x.calls count])
  | .reach => x.egress.reached?.map fun (call, egress) ↦ ({ x with egress }, [.released call true])
  | .expire =>
    (x.egress.expired? x.now).map fun (call, egress) ↦ ({ x with egress }, [.released call false])
  | .pass millis => some ({ x with now := x.now + millis }, [])

variable {x y : Depot} {a : Deed} {outputs : List Notice} {target : String}
  {past later : List (Moment Depot Deed Notice)}

/-- What leaves the publishes alone. -/
structure Aside (x : Depot) (a : Deed) (y : Depot) (outputs : List Notice) : Prop where
  other : a.publishes = false
  target : y.egress.target = x.egress.target
  published : y.egress.published = x.egress.published
  attempts : y.egress.attempts = x.egress.attempts
  pending : y.egress.pending = x.egress.pending
  failNext : y.egress.failNext = a.script.getD x.egress.failNext
  closed : y.egress.closed = (x.egress.closed || a.closes)
  calls : x.calls ≤ y.calls
  silent : ∀ n ∈ outputs, n.publish? = none

/-- What one deed does, by what comes of it. -/
inductive Step (x : Depot) : Deed → Depot → List Notice → Prop where
  | turnedAway {m : Message} : x.egress.closed = true →
      Step x (.publish m)
        { x with
          egress := { x.egress with attempts := x.egress.attempts + 1 }
          calls := x.calls + 1 }
        [.begun x.calls m, .answered x.calls (.error .closed)]
  | begun {m : Message} : x.egress.closed = false →
      Step x (.publish m)
        { x with
          egress := { x.egress with
            attempts := x.egress.attempts + 1
            pending := x.egress.pending ++ [⟨x.calls, m, x.now + x.egress.delay.getD 0⟩] }
          calls := x.calls + 1 }
        [.begun x.calls m]
  | decided {p : PendingPublish} {result : Except BusError Unit} {egress : Egress} :
      p ∈ x.egress.pending → p.due ≤ x.now → x.egress.Decision p result egress →
      Step x (.decide p.call) { x with egress } [.answered p.call result]
  | aside {a : Deed} {y : Depot} {outputs : List Notice} : x.Aside a y outputs → Step x a y outputs

theorem step_of_step? (step : x.step? a = some (y, outputs)) : x.Step a y outputs := by
  cases a with
  | publish m =>
    cases closed : x.egress.closed with
    | true =>
      simp only [step?, Egress.begin_of_closed closed] at step
      cases step
      exact .turnedAway closed
    | false =>
      simp only [step?, Egress.begin_of_open closed] at step
      cases step
      exact .begun closed
  | decide call =>
    unfold step? at step
    dsimp only at step
    split at step
    · cases step
    · rename_i p found
      split at step
      · rename_i due
        obtain ⟨⟨result, egress⟩, decided, same⟩ := Option.map_eq_some_iff.mp step
        cases same
        obtain ⟨mem, rfl⟩ := Egress.mem_pending_of_pending? found
        exact .decided mem due (Egress.decision_of_decide? found decided)
      · cases step
  | failNext _ | failAlways _ | setDelay _ | pass _ =>
    cases step
    exact .aside ⟨rfl, rfl, rfl, rfl, rfl, rfl, (Bool.or_false _).symm, Nat.le_refl _, nofun⟩
  | close =>
    cases step
    exact .aside ⟨rfl, rfl, rfl, rfl, rfl, rfl, (Bool.or_true _).symm, Nat.le_refl _, nofun⟩
  | await count timeout =>
    by_cases enough : count ≤ x.egress.published.length
    · simp only [step?, Egress.await, if_pos enough] at step
      cases step
      refine .aside ⟨rfl, rfl, rfl, rfl, rfl, rfl, (Bool.or_false _).symm, Nat.le_succ _, ?_⟩
      simp [Notice.publish?]
    · simp only [step?, Egress.await, if_neg enough] at step
      cases step
      refine .aside ⟨rfl, rfl, rfl, rfl, rfl, rfl, (Bool.or_false _).symm, Nat.le_succ _, ?_⟩
      simp [Notice.publish?]
  | reach | expire =>
    obtain ⟨⟨call, egress⟩, ends, same⟩ := Option.map_eq_some_iff.mp step
    obtain ⟨w, -, same'⟩ := Option.map_eq_some_iff.mp ends
    cases same'
    cases same
    refine .aside ⟨rfl, rfl, rfl, rfl, rfl, rfl, (Bool.or_false _).symm, Nat.le_refl _, ?_⟩
    simp [Notice.publish?]

/-- The histories of a new point, with the state that each has led to. -/
abbrev Runs (target : String) (past : List (Moment Depot Deed Notice)) (x : Depot) : Prop :=
  Execution step? (ofName target) past x

end Depot

end MessageBridge.Memory
