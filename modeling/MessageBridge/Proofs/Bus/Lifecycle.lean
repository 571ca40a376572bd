import MessageBridge.Proofs.Bus.Traffic
import MessageBridge.Proofs.Named

/-!
# The lifecycle of a bus

What a call on a bus is owed depends on one thing only: whether a closing began before it
(`Owed`). If so, it is turned away, or has nothing to do; if not, a subscription or a publish gets
what the point of its name answers, and the closing goes through all of its calls in order
(`Progress`), whatever they answer, and returns the first failure in that order (`Verdict`).

A call begins with the notice that it was asked, so a history is cut at that notice. The adapter
there is closed exactly if the earlier part tells of a closing (`closed_of_runs`), and the later
part is the course of the call from where it stands (`of_asked`). With the tables of the adapter
read as those of the connector (`Indexes`) this gives what each request is owed (`owed_of_runs`).
-/

namespace MessageBridge.Adapter

open Traffic (tale tale_append tale_of_all tale_of_none)

variable {Handler : Type}

/-! ## Verdicts -/

/-- Where a call comes in a round: ingress points first, then egress points, then the connector. -/
def rank : ClosingCall → Nat
  | .ingress _ _ => 0
  | .egress _ _ => 1
  | .connector => 2

/-- The answer of a closing: an error of a failing ingress point if there is one, else of a failing
egress point if there is one, else that of the connector as it is. -/
structure Verdict (bus : String) (heard : List (ClosingCall × Except BusError Unit))
    (answer : Except BusError Unit) : Prop where
  ok : answer = .ok () ↔ ∀ c e, (c, .error e) ∉ heard
  ingress : (∃ name i e, (.ingress name i, .error e) ∈ heard) →
    ∃ name i e, (.ingress name i, .error e) ∈ heard ∧
      answer = .error (failure bus e (.ingress name i))
  egress : (∀ name i e, (.ingress name i, .error e) ∉ heard) →
    (∃ name i e, (.egress name i, .error e) ∈ heard) →
      ∃ name i e, (.egress name i, .error e) ∈ heard ∧
        answer = .error (failure bus e (.egress name i))
  connector : (∀ name i e, (.ingress name i, .error e) ∉ heard) →
    (∀ name i e, (.egress name i, .error e) ∉ heard) →
      ∀ e, (.connector, .error e) ∈ heard → answer = .error e

theorem mem_failures_iff {heard : List (ClosingCall × Except BusError Unit)} {c : ClosingCall}
    {e : BusError} : (c, e) ∈ failures heard ↔ (c, .error e) ∈ heard := by
  rw [failures, List.mem_filterMap]
  constructor
  · rintro ⟨⟨c', e' | ⟨⟩⟩, mem, same⟩
    · cases same
      exact mem
    · cases same
  · intro mem
    exact ⟨_, mem, rfl⟩

/-- Of two calls of a round the first comes before the second; the connector comes last. -/
def Before (c c' : ClosingCall) : Prop := c ≠ .connector ∧ rank c ≤ rank c'

/-- The first failure of a round comes before all others. -/
theorem before_of_failures {heard : List (ClosingCall × Except BusError Unit)} {c c' : ClosingCall}
    {e e' : BusError} {rest : List (ClosingCall × BusError)}
    (ordered : (heard.map Prod.fst).Pairwise Before) (first : failures heard = (c, e) :: rest)
    (mem : (c', .error e') ∈ heard) : c' = c ∧ e' = e ∨ Before c c' := by
  -- answers without a failure are passed over, so the first failure is the head at some point
  induction heard with
  | nil => cases first
  | cons p heard ih =>
    obtain ⟨d, r⟩ := p
    rw [List.map_cons, List.pairwise_cons] at ordered
    rcases r with err | ⟨⟩
    · obtain ⟨same, -⟩ := List.cons.inj first
      cases same
      rcases List.mem_cons.mp mem with same | mem
      · cases same
        exact .inl ⟨rfl, rfl⟩
      · exact .inr (ordered.1 _ (List.mem_map.mpr ⟨_, mem, rfl⟩))
    · rcases List.mem_cons.mp mem with same | mem
      · cases same
      · exact ih ordered.2 first mem

theorem verdict_failures {bus : String} {heard : List (ClosingCall × Except BusError Unit)}
    (ordered : (heard.map Prod.fst).Pairwise Before) :
    Verdict bus heard (verdict bus (failures heard)) := by
  rcases first : failures heard with _ | ⟨⟨c, e⟩, rest⟩
  · have none_failed (c : ClosingCall) (e : BusError) : (c, .error e) ∉ heard := by
      rw [← mem_failures_iff, first]
      exact List.not_mem_nil
    constructor
    · exact iff_of_true rfl none_failed
    · rintro ⟨name, i, e, mem⟩
      exact absurd mem (none_failed _ _)
    · rintro - ⟨name, i, e, mem⟩
      exact absurd mem (none_failed _ _)
    · intro _ _ e mem
      exact absurd mem (none_failed _ _)
  · have failed : (c, .error e) ∈ heard := mem_failures_iff.mp (first ▸ List.mem_cons_self)
    have other {c' : ClosingCall} {e' : BusError} (mem : (c', .error e') ∈ heard) :=
      before_of_failures ordered first mem
    constructor
    · exact iff_of_false nofun fun none_failed ↦ none_failed c e failed
    · rintro ⟨name, i, e', mem⟩
      rcases other mem with ⟨rfl, rfl⟩ | ⟨_, least⟩
      · exact ⟨name, i, e', mem, rfl⟩
      · obtain ⟨name', i', rfl⟩ : ∃ name' i', c = .ingress name' i' := by
          cases c <;> simp_all [rank]
        exact ⟨name', i', e, failed, rfl⟩
    · rintro no_ingress ⟨name, i, e', mem⟩
      cases c with
      | ingress _ _ => exact absurd failed (no_ingress _ _ _)
      | egress name' i' => exact ⟨name', i', e, failed, rfl⟩
      | connector => rcases other mem with ⟨⟨⟩, -⟩ | ⟨last, -⟩; exact absurd rfl last
    · intro no_ingress no_egress e' mem
      cases c with
      | ingress _ _ => exact absurd failed (no_ingress _ _ _)
      | egress _ _ => exact absurd failed (no_egress _ _ _)
      | connector =>
        rcases other mem with ⟨-, rfl⟩ | ⟨last, -⟩
        · rfl
        · exact absurd rfl last

/-! ## What a round does -/

namespace Notice

/-- What the bus called on its connector. -/
@[simp] def touch? : Notice Handler → Option (Touch Handler)
  | touched _ touch => some touch
  | _ => none

/-- What answered, and what. -/
@[simp] def heard? : Notice Handler → Option (Touch Handler × Except BusError Unit)
  | heard _ touch result => some (touch, result)
  | _ => none

/-- What the bus answered. -/
@[simp] def answer? : Notice Handler → Option (Except BusError Unit)
  | answered _ result => some result
  | _ => none

/-- What was logged. -/
@[simp] def event? : Notice Handler → Option Event
  | logged _ event => some event
  | _ => none

end Notice

/-- What is noticed of a closing when some of its calls were answered and the others are left. -/
structure Progress (bus : String) (heard : List (ClosingCall × Except BusError Unit))
    (left : List ClosingCall) (events : List (Notice Handler)) : Prop where
  /-- Each call was made after the answer to the one before it. -/
  touched : events.filterMap Notice.touch? = (heard.map Prod.fst ++ left.take 1).map .closing
  replied : events.filterMap Notice.heard? = heard.map fun (c, result) ↦ (.closing c, result)
  /-- The bus answered after the last call. -/
  answered : events.filterMap Notice.answer? =
    if left = [] then [verdict bus (failures heard)] else []
  logged : events.filterMap Notice.event? =
    (failures heard).filterMap (fun (c, e) ↦ failureEvent? bus e c) ++
      if left = [] then [.busClosed bus] else []

namespace Round

variable {bus : String} {call : Nat} {k next : Round} {c : ClosingCall} {left : List ClosingCall}
  {heard : List (ClosingCall × Except BusError Unit)} {result : Except BusError Unit}
  {events : List (Notice Handler)}

theorem progress_turn (bus : String) (call : Nat) (left : List ClosingCall) :
    Progress bus [] left ((⟨call, [], left⟩ : Round).turn bus : List (Notice Handler)) := by
  rcases left with _ | ⟨c, left⟩
  · constructor <;> rfl
  · constructor <;> rfl

theorem failures_concat (heard : List (ClosingCall × Except BusError Unit)) (c : ClosingCall)
    (result : Except BusError Unit) :
    failures (heard ++ [(c, result)]) = failures heard ++ failures [(c, result)] :=
  List.filterMap_append

/-- What is logged of an answer is the event of a failure that has one. -/
theorem logs_eq (bus : String) (call : Nat) (c : ClosingCall) (result : Except BusError Unit) :
    (logs bus call c result : List (Notice Handler)) =
      ((failures [(c, result)]).filterMap fun (c, e) ↦ failureEvent? bus e c).map
        (.logged call) := by
  rcases result with e | ⟨⟩
  · change ((failureEvent? bus e c).map (Notice.logged call)).toList = _
    cases h : failureEvent? bus e c with
    | none => simp [failures, h]
    | some event => simp [failures, h]
  · rfl

/-- An answer takes a closing one call further. -/
theorem progress_hear (progress : Progress bus heard (c :: left) events)
    (result : Except BusError Unit) :
    Progress bus (heard ++ [(c, result)]) left (events ++
      .heard call (.closing c) result :: (logs bus call c result ++
        (⟨call, heard ++ [(c, result)], left⟩ : Round).turn bus)) := by
  obtain ⟨touched, replied, answered, logged⟩ := progress
  -- what is logged of an answer counts for the last of the four only
  have quiet {β : Type} (f : Notice Handler → Option β) (ignores : ∀ e, f (.logged call e) = none) :
      (logs bus call c result).filterMap f = [] := by
    simp [logs_eq, ignores]
  constructor
  · rw [List.filterMap_append, touched, List.filterMap_cons_none rfl, List.filterMap_append,
      quiet _ fun _ ↦ rfl]
    cases left <;> simp [turn]
  · rw [List.filterMap_append, replied, List.filterMap_cons, List.filterMap_append,
      quiet _ fun _ ↦ rfl]
    cases left <;> simp [turn]
  · rw [List.filterMap_append, answered, List.filterMap_cons_none rfl, List.filterMap_append,
      quiet _ fun _ ↦ rfl]
    cases left <;> simp [turn, List.filterMap_cons]
  · rw [List.filterMap_append, logged, List.filterMap_cons_none rfl, List.filterMap_append, logs_eq,
      failures_concat]
    cases left <;> simp [turn, List.filterMap_map, Function.comp_def]

/-- What is noticed of a round, wherever it is. -/
theorem progress_of_rounds {order : List ClosingCall}
    {past : List (Moment Round (Except BusError Unit) (Notice Handler))}
    (rounds : Traffic.Rounds bus ⟨call, [], order⟩ past k) :
    k.call = call ∧ k.heard.map Prod.fst ++ k.left = order ∧
      Progress bus k.heard k.left ((⟨call, [], order⟩ : Round).turn bus ++ Moment.told past) := by
  induction rounds with
  | refl => exact ⟨rfl, rfl, by simpa [Moment.told] using progress_turn bus call order⟩
  | snoc _ step ih =>
    obtain ⟨own, made, progress⟩ := ih
    obtain ⟨c, rest, here, rfl, rfl⟩ := of_hear? step
    rw [here] at made progress
    rw [Moment.told_append, Moment.told_singleton, ← List.append_assoc]
    exact ⟨own, by simpa using made, progress_hear progress _⟩

end Round

/-! ## When calls begin -/

/-- The request with which a call began. -/
def Notice.asked? : Notice Handler → Option (Nat × Request Handler)
  | asked call request => some (call, request)
  | _ => none

/-- A closing began. -/
def CloseBegun (events : List (Notice Handler)) : Prop := ∃ call, .asked call .close ∈ events

theorem closeBegun_append {events later : List (Notice Handler)} :
    CloseBegun (events ++ later) ↔ CloseBegun events ∨ CloseBegun later := by
  simp only [CloseBegun, List.mem_append, exists_or]

namespace Traffic

variable {x y : Traffic Handler} {act : Act Handler} {told : List (Notice Handler)} {call : Nat}
  {r : Request Handler} {a : Adapter}
  {past : List (Moment (Traffic Handler) (Act Handler) (Notice Handler))}

theorem unasked_of_turn {bus : String} {k : Round} :
    ∀ n ∈ (k.turn bus : List (Notice Handler)), n.asked? = none := by
  unfold Round.turn
  split
  · simp [Notice.asked?]
  · simp [Notice.asked?]

/-- The notice that a call began comes first in what is told of asking for it. -/
theorem told_of_ask (step : x.step? (.ask r) = some (y, told)) :
    ∃ rest, told = .asked x.calls r :: rest ∧ ∀ n ∈ rest, n.asked? = none := by
  have step := step_of_step? step
  cases step with
  | turnedAway _ | passed _ | late _ => exact ⟨_, rfl, by simp [Notice.asked?]⟩
  | begins _ => exact ⟨_, rfl, unasked_of_turn⟩

theorem told_of_answer {result : Except BusError Unit}
    (step : x.step? (.answer call result) = some (y, told)) : ∀ n ∈ told, n.asked? = none := by
  have step := step_of_step? step
  cases step with
  | returned _ => simp [Notice.asked?]
  | goesOn _ hears =>
    obtain ⟨c, rest, -, rfl, rfl⟩ := Round.of_hear? hears
    intro n mem
    rcases List.mem_cons.mp mem with rfl | mem
    · rfl
    · rcases List.mem_append.mp mem with mem | mem
      · obtain ⟨event, rfl⟩ := Round.of_mem_logs mem
        rfl
      · exact unasked_of_turn n mem

/-- Where a history tells that a call began, the bus was asked. -/
theorem asked_at_step {before after : List (Notice Handler)}
    (step : x.step? act = some (y, told)) (split : told = before ++ .asked call r :: after) :
    act = .ask r ∧ x.calls = call ∧ before = [] := by
  cases act with
  | ask r' =>
    obtain ⟨rest, rfl, unasked⟩ := told_of_ask step
    cases before with
    | nil =>
      cases split
      exact ⟨rfl, rfl, rfl⟩
    | cons n before =>
      obtain ⟨-, rfl⟩ := List.cons.inj split
      cases unasked (.asked call r) (by simp)
  | answer call' result => cases told_of_answer step (.asked call r) (by simp [split])

/-- A bus is closed as soon as a closing begins. -/
theorem closed_of_step (step : x.step? act = some (y, told)) :
    y.adapter = { x.adapter with closed := y.adapter.closed } ∧
      (y.adapter.closed = true ↔ x.adapter.closed = true ∨ CloseBegun told) := by
  cases act with
  | ask r =>
    have step := step_of_step? step
    cases step with
    | turnedAway h | passed h =>
      have other : Request.close ≠ r := by
        rintro rfl
        cases h
      exact ⟨rfl, by simp [CloseBegun, other]⟩
    | late closed => exact ⟨rfl, by simp [closed]⟩
    | begins _ => exact ⟨rfl, by simp [CloseBegun]⟩
  | answer call result =>
    have unasked := told_of_answer step
    have quiet : ¬ CloseBegun told := fun ⟨call, mem⟩ ↦ by cases unasked _ mem
    have step := step_of_step? step
    cases step with
    | returned _ | goesOn _ _ => exact ⟨rfl, by simp [quiet]⟩

theorem closed_of_runs (opened : a.closed = false) (runs : Runs a past x) :
    x.adapter = { a with closed := x.adapter.closed } ∧
      (x.adapter.closed = true ↔ CloseBegun (Moment.told past)) := by
  induction runs with
  | refl => exact ⟨rfl, by simp [ofAdapter, opened, CloseBegun, Moment.told]⟩
  | snoc _ step ih =>
    obtain ⟨same, closed⟩ := closed_of_step step
    rw [Moment.told_append, Moment.told_singleton, closeBegun_append, ← ih.2]
    exact ⟨by rw [same, ih.1], closed⟩

theorem Sound.lt_of_phase (sound : x.Sound) (stands : x.phase call ≠ .gone) : call < x.calls := by
  rw [Ne, phase_eq_gone_iff] at stands
  by_contra new
  have idle := sound.touch?_eq_none (Nat.le_of_not_lt new)
  refine stands ⟨idle, ?_⟩
  rintro k round rfl
  exact new (sound.round k round).1

/-- The calls that have begun are those with a number below that of the next. -/
theorem calls_of_step (sound : x.Sound) (step : x.step? act = some (y, told)) :
    (∀ n ∈ told, n.call < y.calls) ∧
      ∀ call, call < y.calls ↔ call < x.calls ∨ ∃ r, .asked call r ∈ told := by
  have about := call_of_told step
  cases act with
  | ask r =>
    have next : y.calls = x.calls + 1 := by
      have step := step_of_step? step
      cases step with
      | turnedAway _ | passed _ | late _ | begins _ => rfl
    obtain ⟨rest, rfl, -⟩ := told_of_ask step
    refine ⟨fun n mem ↦ by rw [about n mem, next]; exact Nat.lt_succ_self _, fun call ↦ ?_⟩
    rw [next, Nat.lt_succ_iff_lt_or_eq]
    refine or_congr_right ⟨?_, fun ⟨r', mem⟩ ↦ about _ mem⟩
    rintro rfl
    exact ⟨r, List.mem_cons_self⟩
  | answer c result =>
    have same : y.calls = x.calls := by
      have step := step_of_step? step
      cases step with
      | returned _ | goesOn _ _ => rfl
    have unasked := told_of_answer step
    have stands : x.phase c ≠ .gone := by
      intro gone
      rw [step?, gone] at step
      cases step
    rw [same]
    refine ⟨fun n mem ↦ by rw [about n mem]; exact sound.lt_of_phase stands, fun call ↦ ?_⟩
    rw [or_iff_left]
    rintro ⟨r, mem⟩
    cases unasked _ mem

theorem calls_of_runs (runs : Runs a past x) :
    (∀ n ∈ Moment.told past, n.call < x.calls) ∧
      ∀ call, call < x.calls ↔ ∃ r, .asked call r ∈ Moment.told past := by
  induction runs with
  | refl => simp [ofAdapter, Moment.told]
  | snoc runs step ih =>
    obtain ⟨new, begun⟩ := calls_of_step (sound_of_runs runs) step
    rw [Moment.told_append, Moment.told_singleton]
    constructor
    · intro n mem
      rcases List.mem_append.mp mem with mem | mem
      · exact Nat.lt_of_lt_of_le (ih.1 n mem) (calls_le_of_step step)
      · exact new n mem
    · intro call
      simp only [begun, ih.2, List.mem_append, exists_or]

/-- A place in a history where a call begins: what the bus was asked there, and how the call goes
on from there. -/
theorem of_asked {before after : List (Notice Handler)} (runs : Runs a past x)
    (split : Moment.told past = before ++ .asked call r :: after) :
    ∃ earlier y z rest later, Runs a earlier y ∧ Moment.told earlier = before ∧ y.calls = call ∧
      y.step? (.ask r) = some (z, .asked call r :: rest) ∧
      tale call after = rest ++ tale call later ∧
      Course z.adapter.name call (z.phase call) (tale call later) (x.phase call) := by
  obtain ⟨earlier, mo, later, first, rest, rfl, outputs, rfl, rfl⟩ := Moment.told_split split
  obtain ⟨runs, step, goes⟩ := runs.at_split
  obtain ⟨asks, own, rfl⟩ := asked_at_step step outputs
  rw [asks, outputs, List.nil_append] at step
  have sound := sound_of_runs runs
  refine ⟨earlier, mo.before, mo.after, rest, Moment.told later, runs, by simp, own, step, ?_, ?_⟩
  · rw [tale_append, tale_of_all]
    intro n mem
    exact (call_of_told step n (List.mem_cons_of_mem _ mem)).trans own
  · have begun : call < mo.after.calls :=
      ((calls_of_step sound step).2 call).mpr (.inr ⟨r, List.mem_cons_self⟩)
    exact course_of_runs (sound.step step) begun goes

end Traffic

/-! ## Points by name -/

/-- What a connector exposes: its name, and the names of its points. -/
structure Exposed where
  /-- The name of the connector. -/
  name : String
  /-- The names of the ingress points. -/
  ingresses : List String
  /-- The names of the egress points. -/
  egresses : List String

/-- No two points of a kind share a name. -/
structure Exposed.Distinct (c : Exposed) : Prop where
  ingresses : c.ingresses.Nodup
  egresses : c.egresses.Nodup

/-- The adapter of a connector before the first call, with its points in any order. -/
structure Indexes (a : Adapter) (c : Exposed) : Prop where
  name : a.name = c.name
  ingresses : a.ingresses.Perm (ofNames c.name c.ingresses c.egresses).ingresses
  egresses : a.egresses.Perm (ofNames c.name c.ingresses c.egresses).egresses
  opened : a.closed = false

theorem indexes_ofNames (c : Exposed) : Indexes (ofNames c.name c.ingresses c.egresses) c :=
  ⟨rfl, .refl _, .refl _, rfl⟩

/-! ## What a call is owed -/

/-- A call that is passed on to a point: the bus answers what the point answers. -/
inductive Passed (call : Nat) (touch : Touch Handler) : List (Notice Handler) → Prop where
  | waits : Passed call touch [.touched call touch]
  | returned (result : Except BusError Unit) :
      Passed call touch [.touched call touch, .heard call touch result, .answered call result]

/-- A call by the name of a point is turned away once a closing began, or if there is no such point;
otherwise it is passed on to the point. -/
structure Admission (names : List String) (name : String) (unknown : BusError)
    (touch : Nat → Touch Handler) (begun : Prop) (call : Nat) (events : List (Notice Handler)) :
    Prop where
  closed : begun → events = [.answered call (.error .closed)]
  unknown : ¬ begun → name ∉ names → events = [.answered call (.error unknown)]
  known : ¬ begun → ∀ i, names[i]? = some name → Passed call (touch i) events

/-- The calls of a closing: every ingress point, every egress point, the connector. -/
def InOrder (c : Exposed) (order : List ClosingCall) : Prop :=
  ∃ stops closes, order = stops ++ closes ++ [.connector] ∧
    stops.Perm (c.ingresses.zipIdx.map fun p ↦ .ingress p.1 p.2) ∧
    closes.Perm (c.egresses.zipIdx.map fun p ↦ .egress p.1 p.2)

/-- A closing that goes through its calls in order, whatever they answer. -/
def Releases (c : Exposed) (events : List (Notice Handler)) : Prop :=
  ∃ heard left, InOrder c (heard.map Prod.fst ++ left) ∧ Progress c.name heard left events ∧
    Verdict c.name heard (verdict c.name (failures heard))

/-- What a call on a bus is owed, by whether a closing began before it. -/
def Owed (c : Exposed) (begun : Prop) (call : Nat) (events : List (Notice Handler)) :
    Request Handler → Prop
  | .subscribe source handler =>
    Admission c.ingresses source (.unknownSource c.name source) (.start · handler) begun call events
  | .publish target m =>
    Admission c.egresses target (.unknownTarget c.name target) (.publish · m) begun call events
  | .close => (begun → events = [.answered call (.ok ())]) ∧ (¬ begun → Releases c events)

namespace Traffic

variable {x y z : Traffic Handler} {call : Nat} {r : Request Handler} {c : Exposed}
  {rest later : List (Notice Handler)} {bus : String} {p : Phase Handler}

theorem eq_nil_of_course (course : Course bus call .gone later p) : later = [] := by
  cases course
  rfl

theorem Sound.phase_eq_gone (sound : x.Sound) (new : x.calls ≤ call) : x.phase call = .gone := by
  by_contra stands
  exact Nat.not_lt_of_le new (sound.lt_of_phase stands)

/-! ### Where a call stands when it has just begun -/

theorem Sound.gone_of_answered (sound : y.Sound) :
    phase y.calls { y with calls := y.calls + 1 } = .gone :=
  sound.phase_eq_gone (Nat.le_refl _)

theorem Sound.waits_of_passed (sound : y.Sound) (touch : Touch Handler) :
    phase y.calls { y with calls := y.calls + 1, waiting := y.waiting ++ [(y.calls, touch)] } =
      .waits touch := by
  refine phase_eq_waits_iff.mpr ((touch?_append y _).trans ?_)
  rw [sound.touch?_eq_none (Nat.le_refl _), Option.none_or, if_pos rfl]

theorem Sound.closes_of_begun (sound : y.Sound) (order : List ClosingCall) :
    phase y.calls { y with
      adapter.closed := true
      calls := y.calls + 1
      round := some ⟨y.calls, [], order⟩ } = .closes ⟨y.calls, [], order⟩ :=
  phase_eq_closes_iff.mpr ⟨sound.touch?_eq_none (Nat.le_refl _), rfl, rfl⟩

/-! ### Subscriptions and publishes -/

/-- A call that is turned away is answered, and nothing else happens. -/
theorem turned_away {e : BusError} (sound : y.Sound)
    (refused : y.adapter.admission? r = some (.error e)) (own : y.calls = call)
    (step : y.step? (.ask r) = some (z, .asked call r :: rest))
    (course : Course bus call (z.phase call) later p) :
    rest ++ later = [.answered call (.error e)] := by
  rw [step?, ask, refused] at step
  cases step
  rw [sound.gone_of_answered] at course
  rw [eq_nil_of_course course]
  rfl

theorem passed_on {touch : Touch Handler} (sound : y.Sound)
    (admitted : y.adapter.admission? r = some (.ok touch)) (own : y.calls = call)
    (step : y.step? (.ask r) = some (z, .asked call r :: rest))
    (course : Course bus call (z.phase call) later p) : Passed call touch (rest ++ later) := by
  rw [step?, ask, admitted] at step
  cases step
  rw [sound.waits_of_passed] at course
  cases course with
  | waits => exact .waits
  | returned => exact .returned _

theorem admission_of_lookup {names : List String} {table : List (String × Nat)} {name : String}
    {unknown : BusError} {touch : Nat → Touch Handler} {begun : Prop} (distinct : names.Nodup)
    (perm : table.Perm (Named.ofList names.zipIdx)) (closed : y.adapter.closed = true ↔ begun)
    (looks : y.adapter.admission? r = some (Except.map touch
      (if y.adapter.closed then .error .closed
      else match Named.get? name table with
        | some i => .ok i
        | none => .error unknown)))
    (sound : y.Sound) (own : y.calls = call)
    (step : y.step? (.ask r) = some (z, .asked call r :: rest))
    (course : Course bus call (z.phase call) later p) :
    Admission names name unknown touch begun call (rest ++ later) := by
  constructor
  · intro begun
    rw [closed.mpr begun] at looks
    exact turned_away sound looks own step course
  · intro opened absent
    have missing : Named.get? name table = none := by
      rw [Option.eq_none_iff_forall_ne_some]
      intro i found
      exact absent (List.mem_of_getElem? ((Named.get?_eq_some_iff distinct perm).mp found))
    rw [if_neg (mt closed.mp opened), missing] at looks
    exact turned_away sound looks own step course
  · intro opened i here
    rw [if_neg (mt closed.mp opened), (Named.get?_eq_some_iff distinct perm).mpr here] at looks
    exact passed_on sound looks own step course

end Traffic

theorem InOrder.ordered {c : Exposed} {order : List ClosingCall} (inOrder : InOrder c order) :
    order.Pairwise Before := by
  obtain ⟨stops, closes, rfl, ingress, egress⟩ := inOrder
  have stop {d : ClosingCall} (mem : d ∈ stops) : d ≠ .connector ∧ rank d = 0 := by
    obtain ⟨p, -, rfl⟩ := List.mem_map.mp (ingress.mem_iff.mp mem)
    exact ⟨nofun, rfl⟩
  have close {d : ClosingCall} (mem : d ∈ closes) : d ≠ .connector ∧ rank d = 1 := by
    obtain ⟨p, -, rfl⟩ := List.mem_map.mp (egress.mem_iff.mp mem)
    exact ⟨nofun, rfl⟩
  rw [List.pairwise_append, List.pairwise_append]
  refine ⟨⟨?_, ?_, ?_⟩, List.pairwise_singleton _ _, ?_⟩
  · refine List.pairwise_of_forall_mem_list fun d here d' there ↦ ?_
    exact ⟨(stop here).1, Nat.le_of_eq ((stop here).2.trans (stop there).2.symm)⟩
  · refine List.pairwise_of_forall_mem_list fun d here d' there ↦ ?_
    exact ⟨(close here).1, Nat.le_of_eq ((close here).2.trans (close there).2.symm)⟩
  · intro d here d' there
    exact ⟨(stop here).1, by rw [(stop here).2, (close there).2]; exact Nat.zero_le 1⟩
  · intro d here d' there
    cases List.mem_singleton.mp there
    rcases List.mem_append.mp here with here | here
    · exact ⟨(stop here).1, by rw [(stop here).2]; exact Nat.zero_le 2⟩
    · exact ⟨(close here).1, by rw [(close here).2]; decide⟩

theorem Indexes.inOrder {a : Adapter} {c : Exposed} (distinct : c.Distinct)
    (indexes : Indexes a c) : InOrder c a.closingCalls := by
  obtain ⟨-, ingress, egress, -⟩ := indexes
  have names (l : List String) (nodup : l.Nodup) : Named.ofList l.zipIdx = l.zipIdx :=
    Named.ofList_of_distinct (by rwa [Named.Distinct, Named.names_zipIdx])
  rw [ofNames, names _ distinct.ingresses] at ingress
  rw [ofNames, names _ distinct.egresses] at egress
  exact ⟨_, _, rfl, ingress.map _, egress.map _⟩

namespace Traffic

variable {x y z : Traffic Handler} {call : Nat} {r : Request Handler} {c : Exposed} {a : Adapter}
  {rest later before after : List (Notice Handler)} {bus : String} {p : Phase Handler}
  {past : List (Moment (Traffic Handler) (Act Handler) (Notice Handler))}

theorem releases (inOrder : InOrder c y.adapter.closingCalls) (named : y.adapter.name = c.name)
    (sound : y.Sound) (opened : y.adapter.closed = false) (own : y.calls = call)
    (step : y.step? (.ask .close) = some (z, .asked call .close :: rest))
    (course : Course z.adapter.name call (z.phase call) later p) : Releases c (rest ++ later) := by
  have step := step_of_step? step
  cases step with
  | turnedAway h | passed h => cases h
  | late closed => cases opened.symm.trans closed
  | begins _ =>
    rw [sound.closes_of_begun] at course
    cases course with
    | closes rounds =>
      obtain ⟨-, made, progress⟩ := Round.progress_of_rounds rounds
      rw [← made] at inOrder
      refine ⟨_, _, inOrder, ?_, verdict_failures (List.pairwise_append.mp inOrder.ordered).1⟩
      rw [← named]
      exact progress

theorem late (sound : y.Sound) (closed : y.adapter.closed = true) (own : y.calls = call)
    (step : y.step? (.ask .close) = some (z, .asked call .close :: rest))
    (course : Course bus call (z.phase call) later p) :
    rest ++ later = [.answered call (.ok ())] := by
  have step := step_of_step? step
  cases step with
  | turnedAway h | passed h => cases h
  | begins opened => cases opened.symm.trans closed
  | late _ =>
    rw [sound.gone_of_answered] at course
    rw [eq_nil_of_course course]
    rfl

/-- **Every call on a bus gets what it is owed**, in any interleaving of calls and answers. -/
theorem owed_of_runs (distinct : c.Distinct) (indexes : Indexes a c) (runs : Runs a past x)
    (split : Moment.told past = before ++ .asked call r :: after) :
    Owed c (CloseBegun before) call (tale call after) r := by
  -- the adapter that is asked is the one of the connector, closed if a closing began before
  obtain ⟨earlier, y, z, rest, later, runs, rfl, own, step, tale, course⟩ := of_asked runs split
  obtain ⟨same, closed⟩ := closed_of_runs indexes.opened runs
  have sound := sound_of_runs runs
  have named : y.adapter.name = c.name := by rw [same]; exact indexes.name
  rw [tale]
  cases r with
  | subscribe source handler =>
    have perm : y.adapter.ingresses.Perm (Named.ofList c.ingresses.zipIdx) := by
      rw [same]; exact indexes.ingresses
    refine admission_of_lookup distinct.ingresses perm closed ?_ sound own step course
    rw [← named]
    rfl
  | publish target m =>
    have perm : y.adapter.egresses.Perm (Named.ofList c.egresses.zipIdx) := by
      rw [same]; exact indexes.egresses
    refine admission_of_lookup distinct.egresses perm closed ?_ sound own step course
    rw [← named]
    rfl
  | close =>
    refine ⟨fun begun ↦ late sound (closed.mpr begun) own step course, fun opened ↦ ?_⟩
    have order : y.adapter.closingCalls = a.closingCalls := by rw [same]; rfl
    have inOrder : InOrder c y.adapter.closingCalls := order ▸ indexes.inOrder distinct
    exact releases inOrder named sound (Bool.eq_false_iff.mpr (mt closed.mp opened)) own step course

/-- A call that has begun was answered, or something that it waits for has not answered. -/
theorem answered_or_stands (sound : y.Sound)
    (step : y.step? (.ask r) = some (z, .asked y.calls r :: rest))
    (course : Course z.adapter.name y.calls (z.phase y.calls) later p) :
    (∃ n ∈ rest ++ later, n.answer?.isSome) ∨
      (∃ touch, p = .waits touch) ∨ ∃ k, p = .closes k ∧ k.left ≠ [] := by
  have step := step_of_step? step
  cases step with
  | turnedAway _ | late _ => exact .inl ⟨_, List.mem_cons_self, rfl⟩
  | passed _ =>
    rw [sound.waits_of_passed] at course
    cases course with
    | waits => exact .inr (.inl ⟨_, rfl⟩)
    | @returned _ result => exact .inl ⟨.answered y.calls result, by simp, rfl⟩
  | begins _ =>
    rw [sound.closes_of_begun] at course
    cases course with
    | @closes _ k _ rounds =>
      by_cases finished : k.left = []
      · obtain ⟨-, -, progress⟩ := Round.progress_of_rounds rounds
        have answer := progress.answered
        rw [if_pos finished] at answer
        have mem := List.mem_filterMap.mp (answer ▸ List.mem_singleton_self _)
        obtain ⟨n, mem, answers⟩ := mem
        exact .inl ⟨n, mem, by rw [answers]; rfl⟩
      · exact .inr (.inr ⟨k, rfl, finished⟩)

/-- A call that was not answered can go on with any answer of what it waits for. -/
theorem goes_on (runs : Runs a past x) (asked : .asked call r ∈ Moment.told past) :
    (∃ result, .answered call result ∈ Moment.told past) ∨
      ∀ result, ∃ y told, x.step? (.answer call result) = some (y, told) := by
  obtain ⟨before, after, split⟩ := List.append_of_mem asked
  obtain ⟨earlier, y, z, rest, later, runs, rfl, rfl, step, tale, course⟩ := of_asked runs split
  refine (answered_or_stands (sound_of_runs runs) step course).imp ?_ ?_
  · rintro ⟨n, mem, answers⟩
    rw [← tale] at mem
    obtain ⟨mem, own⟩ := List.mem_filter.mp mem
    cases n with
    | answered call result =>
      obtain rfl : call = y.calls := by simpa [Notice.call] using own
      exact ⟨result, split ▸ List.mem_append_right _ (List.mem_cons_of_mem _ mem)⟩
    | _ => cases answers
  · rintro (⟨touch, waits⟩ | ⟨k, closes, left⟩) result
    · rw [step?, waits]
      exact ⟨_, _, rfl⟩
    · obtain ⟨d, order, here⟩ := List.exists_cons_of_ne_nil left
      rw [step?, closes]
      simp only [Round.hear?, here]
      exact ⟨_, _, rfl⟩

end Traffic

/-! ## The contract -/

/-- What a history of a bus shows of the calls on it. -/
structure Lifecycle (c : Exposed) (events : List (Notice Handler)) (x : Traffic Handler) :
    Prop where
  /-- Whatever is noticed is about a call that began. -/
  begun : ∀ n ∈ events, ∃ r, .asked n.call r ∈ events
  /-- No two calls have one number. -/
  fresh : ∀ before call r after, events = before ++ .asked call r :: after →
    ∀ n ∈ before, n.call ≠ call
  owed : ∀ before call r after, events = before ++ .asked call r :: after →
    Owed c (CloseBegun before) call (Traffic.tale call after) r
  goesOn : ∀ call r, .asked call r ∈ events →
    (∃ result, .answered call result ∈ events) ∨
      ∀ result, ∃ y told, x.step? (.answer call result) = some (y, told)

theorem lifecycle_of_runs {a : Adapter} {c : Exposed} {x : Traffic Handler}
    {past : List (Moment (Traffic Handler) (Act Handler) (Notice Handler))} (distinct : c.Distinct)
    (indexes : Indexes a c) (runs : Traffic.Runs a past x) : Lifecycle c (Moment.told past) x := by
  obtain ⟨bound, begun⟩ := Traffic.calls_of_runs runs
  constructor
  · intro n mem
    exact (begun n.call).mp (bound n mem)
  · intro before call r after split n mem
    obtain ⟨earlier, y, z, rest, later, runs, rfl, rfl, -⟩ := Traffic.of_asked runs split
    exact Nat.ne_of_lt ((Traffic.calls_of_runs runs).1 n mem)
  · intro before call r after split
    exact Traffic.owed_of_runs distinct indexes runs split
  · intro call r asked
    exact Traffic.goes_on runs asked

end MessageBridge.Adapter
