import MessageBridge.Proofs.Egress.Accounting

/-!
# Closed egress points

A publish looks whether the point is closed once, when it begins. So closing a point turns away
those who come later and nobody else: what was under way goes on to its decision, in which the
closing plays no part, and if the scripts let it pass it is recorded in the closed point.

What a closed point has under way only becomes less (`Depot.Dwindles`), so its records can change
only as long as something is left of what was under way when it was closed.
-/

namespace MessageBridge.Memory.Depot

open Notice (acceptances)

variable {x y z : Depot} {a : Deed} {outputs : List Notice} {target : String} {call : Nat}
  {earlier later : List (Moment Depot Deed Notice)} {mo : Moment Depot Deed Notice}

/-- Among these publishes are those that return without an error, with the messages that are
recorded for them. -/
structure Dwindles (x : Depot) (told : List Notice) (y : Depot) : Prop where
  pending : y.egress.pending.Sublist x.egress.pending
  records : ∃ late, y.egress.published = x.egress.published ++ late ∧
    List.Forall₂ (fun call m ↦ ∃ p ∈ x.egress.pending, p.call = call ∧ p.message = m)
      (acceptances told) late

theorem Dwindles.refl (x : Depot) : x.Dwindles [] x :=
  ⟨.refl _, [], (List.append_nil _).symm, .nil⟩

theorem Dwindles.trans {told : List Notice} (first : x.Dwindles told y)
    (last : y.Dwindles outputs z) : x.Dwindles (told ++ outputs) z := by
  obtain ⟨late, before, accepted⟩ := first.records
  obtain ⟨later, now, accepted'⟩ := last.records
  refine ⟨last.pending.trans first.pending, late ++ later, ?_, ?_⟩
  · rw [now, before, List.append_assoc]
  · rw [acceptances, List.filterMap_append]
    refine List.rel_append accepted (accepted'.imp ?_)
    rintro call m ⟨p, mem, own⟩
    exact ⟨p, first.pending.mem mem, own⟩

theorem Dwindles.published_of_nil {told : List Notice} (dwindles : x.Dwindles told y)
    (none_left : x.egress.pending = []) : y.egress.published = x.egress.published := by
  obtain ⟨late, published, accepted⟩ := dwindles.records
  rw [none_left] at accepted
  cases late with
  | nil => rw [published, List.append_nil]
  | cons m late =>
    obtain ⟨_, _, ⟨p, mem, -⟩, -⟩ := List.forall₂_cons_right_iff.mp accepted
    cases mem

/-- Each step of a closed point leaves it closed, and with no more under way. -/
theorem dwindles_of_step (closed : x.egress.closed = true)
    (step : x.step? a = some (y, outputs)) :
    y.egress.closed = true ∧ x.Dwindles outputs y := by
  have step := step_of_step? step
  induction step with
  | turnedAway _ => exact ⟨closed, .refl _, [], (List.append_nil _).symm, .nil⟩
  | begun still_open =>
    rw [closed] at still_open
    cases still_open
  | @decided p answer egress mem due decided =>
    refine ⟨decided.closed.trans closed, decided.pending ▸ List.filter_sublist, ?_⟩
    cases decided with
    | forced _ | scripted _ _ => exact ⟨[], (List.append_nil _).symm, .nil⟩
    | accepted _ _ => exact ⟨[p.message], rfl, .cons ⟨p, mem, rfl, rfl⟩ .nil⟩
  | @aside a y outputs aside =>
    refine ⟨?_, aside.pending ▸ .refl _, [], ?_, ?_⟩
    · rw [aside.closed, closed, Bool.true_or]
    · rw [aside.published, List.append_nil]
    · rw [aside.acceptances]
      exact .nil

theorem dwindles_of_exec (closed : x.egress.closed = true) (exec : Execution step? x later y) :
    y.egress.closed = true ∧ x.Dwindles (Moment.told later) y := by
  induction exec with
  | refl => exact ⟨closed, .refl x⟩
  | snoc _ step ih =>
    obtain ⟨closed, before⟩ := ih
    obtain ⟨closed, last⟩ := dwindles_of_step closed step
    rw [Moment.told_append, Moment.told_singleton]
    exact ⟨closed, before.trans last⟩

/-- What happens at a point after it was closed. -/
structure Shut (target : String) (closing : Moment Depot Deed Notice)
    (later : List (Moment Depot Deed Notice)) (x : Depot) : Prop where
  /-- Who begins to publish is turned away at once, and nothing is recorded of it. -/
  turnedAway : ∀ mo ∈ later, ∀ m, mo.action = .publish m →
    mo.outputs = [.begun mo.before.calls m, .answered mo.before.calls (.error .closed)] ∧
      mo.after.egress.published = mo.before.egress.published
  /-- A publish that is decided was under way before the closing, and the scripts decide it. -/
  decided : ∀ mo ∈ later, ∀ call, mo.action = .decide call →
    (∃ p ∈ closing.after.egress.pending, p.call = call) ∧
      mo.outputs = [.answered call (if mo.before.egress.rejects then
        .error (.publish (target ++ " rejected the message")) else .ok ())]
  /-- The records that are added are the messages of the publishes under way at the closing that
  return without an error, one for each. -/
  late : ∃ late, x.egress.published = closing.after.egress.published ++ late ∧
    List.Forall₂ (fun call m ↦ ∃ p ∈ closing.after.egress.pending, p.call = call ∧ p.message = m)
      (acceptances (Moment.told later)) late
  once : (acceptances (Moment.told later)).Nodup
  /-- As soon as none is under way the records never change again. -/
  settled : ∀ mo ∈ closing :: later, mo.after.egress.pending = [] →
    x.egress.published = mo.after.egress.published

theorem closed_of_close (step : x.step? .close = some (y, outputs)) : y.egress.closed = true := by
  cases step
  rfl

theorem turnedAway_of_closed {m : Message} (closed : x.egress.closed = true)
    (step : x.step? (.publish m) = some (y, outputs)) :
    outputs = [.begun x.calls m, .answered x.calls (.error .closed)] ∧
      y.egress.published = x.egress.published := by
  simp only [step?, Egress.begin_of_closed closed] at step
  cases step
  exact ⟨rfl, rfl⟩

theorem decided_of_step (step : x.step? (.decide call) = some (y, outputs)) :
    (∃ p ∈ x.egress.pending, p.call = call) ∧ outputs =
      [.answered call (if x.egress.rejects then .error x.egress.rejection else .ok ())] := by
  have step := step_of_step? step
  cases step with
  | decided mem _ decided =>
    rw [decided.result]
    exact ⟨⟨_, mem, rfl⟩, rfl⟩
  | aside aside => cases aside.other

/-- **After a point was closed no publish begins, and those that were under way end as if it had not
been closed**: what they add to the records is all that is added. -/
theorem shut_of_close (runs : Runs target (earlier ++ mo :: later) x)
    (closes : mo.action = .close) : Shut target mo later x := by
  obtain ⟨-, step, after⟩ := runs.at_split
  rw [closes] at step
  have closed := closed_of_close step
  have dwindles := (dwindles_of_exec closed after).2
  -- what a moment after the closing finds
  have found {mo' : Moment Depot Deed Notice} (mem : mo' ∈ later) :
      mo'.before.egress.closed = true ∧
        mo'.before.egress.pending.Sublist mo.after.egress.pending ∧
        mo'.before.step? mo'.action = some (mo'.after, mo'.outputs) ∧
        ∃ rest, Execution step? mo'.after rest x := by
    obtain ⟨first, rest, -, until_then, this, from_then⟩ := after.at_moment mem
    obtain ⟨closed', less⟩ := dwindles_of_exec closed until_then
    exact ⟨closed', less.pending, this, rest, from_then⟩
  refine ⟨?_, ?_, dwindles.records, ?_, ?_⟩
  · intro mo' mem m publishes
    obtain ⟨closed', -, this, -⟩ := found mem
    rw [publishes] at this
    exact turnedAway_of_closed closed' this
  · intro mo' mem call decides
    obtain ⟨-, less, this, -⟩ := found mem
    rw [decides] at this
    obtain ⟨⟨p, there, own⟩, outputs⟩ := decided_of_step this
    refine ⟨⟨p, less.mem there, own⟩, ?_⟩
    have rejection :
        mo'.before.egress.rejection = .publish (target ++ " rejected the message") := by
      obtain ⟨_, _, -, until_then, -⟩ := runs.at_moment
        (List.mem_append_right earlier (List.mem_cons_of_mem mo mem))
      exact rejection_of_runs until_then
    rw [outputs, rejection]
  · have all := (sound_of_runs runs).nodup_acceptances
    rw [List.append_cons, Moment.told_append, acceptances, List.filterMap_append] at all
    exact all.of_append_right
  · intro mo' mem none_left
    rcases List.mem_cons.mp mem with rfl | mem
    · exact dwindles.published_of_nil none_left
    · obtain ⟨closed', -, this, rest, from_then⟩ := found mem
      exact (dwindles_of_exec (dwindles_of_step closed' this).1 from_then).2.published_of_nil
        none_left

/-- Two publishes are under way when the point is closed. One is rejected by the script, the other
recorded, and a third that comes after the closing is turned away. -/
theorem shut_of_close_of_two :
    ∃ (earlier : List (Moment Depot Deed Notice)) (mo : Moment Depot Deed Notice)
      (later : List (Moment Depot Deed Notice)) (x : Depot),
      Runs "out" (earlier ++ mo :: later) x ∧ mo.action = .close ∧ Shut "out" mo later x ∧
        acceptances (Moment.told later) = [1] ∧
        (Moment.told later).countP Notice.isRejection = 1 ∧
        (Moment.told later).countP Notice.isClosed = 1 := by
  have runs := (Execution.refl : Runs "out" [] (ofName "out"))
    |>.snoc (a := .publish ⟨"x".toUTF8, []⟩) rfl
    |>.snoc (a := .publish ⟨"y".toUTF8, []⟩) rfl
    |>.snoc (a := .failNext 1) rfl
    |>.snoc (a := .close) rfl
    |>.snoc (a := .publish ⟨"z".toUTF8, []⟩) rfl
    |>.snoc (a := .decide 0) rfl
    |>.snoc (a := .decide 1) rfl
  have split : Runs "out" ([_, _, _] ++ _ :: [_, _, _]) _ := runs
  exact ⟨_, _, _, _, split, rfl, shut_of_close split rfl, rfl, rfl, rfl⟩

/-- A publish waits when the point is closed, and is recorded afterwards. -/
theorem recorded_after_close :
    ∃ (earlier : List (Moment Depot Deed Notice)) (mo : Moment Depot Deed Notice)
      (later : List (Moment Depot Deed Notice)) (x : Depot),
      Runs "out" (earlier ++ mo :: later) x ∧ mo.action = .close ∧
        mo.after.egress.published = [] ∧ x.egress.published.length = 1 ∧
        Moment.told later = [.answered 0 (.ok ())] := by
  have runs := (Execution.refl : Runs "out" [] (ofName "out"))
    |>.snoc (a := .setDelay 10) rfl
    |>.snoc (a := .publish ⟨"x".toUTF8, []⟩) rfl
    |>.snoc (a := .close) rfl
    |>.snoc (a := .pass 10) rfl
    |>.snoc (a := .decide 0) rfl
  have split : Runs "out" ([_, _] ++ _ :: [_, _]) _ := runs
  exact ⟨_, _, _, _, split, rfl, rfl, rfl, rfl⟩

end MessageBridge.Memory.Depot
