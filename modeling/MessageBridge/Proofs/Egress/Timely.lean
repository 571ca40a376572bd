import MessageBridge.Proofs.Egress.Accounting

/-!
# Calls for records in time

A call for a number of records returns as soon as there are as many, or when its time is over. This
is about histories in which time passes only while nobody who waits has anything to do, and not
beyond the end of anybody's time: tasks run as soon as they can run, and timers are not late.

What it says of one call (`Timely`) is the same for every machine that has an egress point and a
clock. It follows from what single steps do to the call (`Tended`), by the invariant that as long
as the call waits no time has passed since its number was reached (`Course`).
-/

namespace MessageBridge.Memory

/-- The number of records. -/
def Depot.records (x : Depot) : Nat := x.egress.published.length

/-- What waits if a call for records begins now. -/
def Depot.wait (x : Depot) (count timeout : Nat) : PendingWait := ⟨x.calls, count, x.now + timeout⟩

/-- Whether a deed is about calls for records. -/
def Deed.waits : Deed → Bool
  | .await .. | .reach | .expire => true
  | _ => false

/-- A call for records returned. -/
def Notice.isRelease (call : Nat) : Notice → Bool
  | .released c _ => c == call
  | _ => false

variable {σ α : Type} {step? : σ → α → Option (σ × List Notice)} {view : σ → Depot}
  {w : PendingWait} {mo mo' : Moment σ α Notice} {later all : List (Moment σ α Notice)} {x y : σ}
  {a : α} {outputs : List Notice} {b : Bool} {t : Nat} {waits gone : σ → Prop}

/-! ## What a history says about a call -/

/-- The time at which a number of records is reached, for a call that begins at `mo`: they are there
already, or the last of them comes later. -/
inductive Reached (view : σ → Depot) (count : Nat) (mo : Moment σ α Notice)
    (later : List (Moment σ α Notice)) : Nat → Prop where
  | already : count ≤ (view mo.before).records → Reached view count mo later (view mo.before).now
  | last {mo' : Moment σ α Notice} : mo' ∈ later → (view mo'.before).records < count →
      count ≤ (view mo'.after).records → Reached view count mo later (view mo'.before).now

/-- A call for records that began at `mo` is answered rightly and in time. -/
structure Timely (view : σ → Depot) (w : PendingWait) (mo : Moment σ α Notice)
    (later : List (Moment σ α Notice)) (x : σ) : Prop where
  /-- It returns at most once. -/
  once : (Moment.told (mo :: later)).countP (Notice.isRelease w.call) ≤ 1
  /-- If there are as many records when it begins, it returns `true` at this time. -/
  atOnce : w.count ≤ (view mo.before).records → ∀ mo' ∈ mo :: later, ∀ b,
    .released w.call b ∈ mo'.outputs → b = true ∧ (view mo'.before).now = (view mo.before).now
  /-- It returns `true` if there are as many when it begins or the last of them comes before its
  time is over, and only then, unless the last of them comes just when its time is over. -/
  verdict : (∀ mo' ∈ later, (view mo'.before).records < w.count →
      w.count ≤ (view mo'.after).records → (view mo'.before).now ≠ w.due) →
    ∀ b, .released w.call b ∈ Moment.told (mo :: later) → (b = true ↔
      w.count ≤ (view mo.before).records ∨ ∃ t < w.due, Reached view w.count mo later t)
  /-- It returns `true` at the time at which the number is reached. -/
  inTime : ∀ mo' ∈ mo :: later, .released w.call true ∈ mo'.outputs →
    ∀ t, Reached view w.count mo later t ↔ t = (view mo'.before).now
  /-- It returns `false` at the time at which its time is over. -/
  late : ∀ mo' ∈ mo :: later, .released w.call false ∈ mo'.outputs → (view mo'.before).now = w.due
  /-- As long as it has not returned its time is not past, and if the number was reached no time has
  passed since. -/
  unreturned : (∀ b, .released w.call b ∉ Moment.told (mo :: later)) →
    (view x).now ≤ w.due ∧ ∀ t, Reached view w.count mo later t → t = (view x).now

/-! ## What a step does to a call -/

/-- What a step does to a call that waits. -/
inductive Turn (view : σ → Depot) (w : PendingWait) (start : Nat) (waits gone : σ → Prop) (x y : σ)
    (outputs : List Notice) : Prop where
  /-- It goes on to wait. -/
  | waits : waits y → (∀ b, .released w.call b ∉ outputs) → Turn view w start waits gone x y outputs
  /-- It returns, as its number is there. -/
  | reached : gone y → w.count ≤ (view x).records → outputs = [.released w.call true] →
      Turn view w start waits gone x y outputs
  /-- It returns, as its time is over and its number was not there when it began. -/
  | late : gone y → w.due ≤ (view x).now → start < w.count → outputs = [.released w.call false] →
      Turn view w start waits gone x y outputs

/-- What a step does to a call, to the clock and to the records. -/
structure Tended (view : σ → Depot) (w : PendingWait) (start : Nat) (waits gone : σ → Prop)
    (x y : σ) (outputs : List Notice) : Prop where
  turn : waits x → Turn view w start waits gone x y outputs
  gone : gone x → gone y ∧ ∀ b, .released w.call b ∉ outputs
  /-- Records are added in no time, and as time passes nothing else happens. -/
  steady : (view y).now = (view x).now ∧ (view x).records ≤ (view y).records ∨
    (view x).now ≤ (view y).now ∧ (view y).records = (view x).records ∧ outputs = []

/-- Time passes in a step only if the call has a reason to wait. -/
def Patient (view : σ → Depot) (w : PendingWait) (waits : σ → Prop) (x y : σ) : Prop :=
  waits x → (view y).now = (view x).now ∨ (view x).records < w.count ∧ (view y).now ≤ w.due

namespace Tended

variable {start : Nat} (tended : Tended view w start waits gone x y outputs)
include tended

theorem now_le : (view x).now ≤ (view y).now := by
  rcases tended.steady with ⟨same, -⟩ | ⟨le, -, -⟩
  · exact Nat.le_of_eq same.symm
  · exact le

theorem records_le : (view x).records ≤ (view y).records := by
  rcases tended.steady with ⟨-, le⟩ | ⟨-, same, -⟩
  · exact le
  · exact Nat.le_of_eq same.symm

/-- A step that tells something takes no time. -/
theorem now_eq (told : outputs ≠ []) : (view y).now = (view x).now := by
  rcases tended.steady with ⟨same, -⟩ | ⟨-, -, nothing⟩
  · exact same
  · exact absurd nothing told

/-- A call that returns does so for one of two reasons. -/
theorem reason (stands : waits x ∨ gone x) (told : .released w.call b ∈ outputs) :
    if b then w.count ≤ (view x).records else w.due ≤ (view x).now := by
  rcases stands with waits | gone
  · rcases tended.turn waits with ⟨-, silent⟩ | ⟨-, enough, rfl⟩ | ⟨-, late, -, rfl⟩
    · exact absurd told (silent b)
    · cases List.mem_singleton.mp told
      exact enough
    · cases List.mem_singleton.mp told
      exact late
  · exact absurd told ((tended.gone gone).2 b)

end Tended

/-- Whatever the schedule, a call waits until it returns. -/
theorem waits_or_gone {start : Nat} {s : σ} (begins : waits s) (exec : Execution step? s later x)
    (tended : ∀ mo' ∈ later,
      Tended view w start waits gone mo'.before mo'.after mo'.outputs) :
    waits x ∨ gone x ∧ ∃ b, .released w.call b ∈ Moment.told later := by
  induction exec with
  | refl => exact .inl begins
  | snoc _ _ ih =>
    have last := tended _ List.mem_concat_self
    rw [Moment.told_append, Moment.told_singleton]
    rcases ih fun mo' mem ↦ tended mo' (List.mem_append_left _ mem) with waits | ⟨gone, b, told⟩
    · rcases last.turn waits with ⟨waits', -⟩ | ⟨gone', -, rfl⟩ | ⟨gone', -, -, rfl⟩
      · exact .inl waits'
      · exact .inr ⟨gone', true, List.mem_concat_self⟩
      · exact .inr ⟨gone', false, List.mem_concat_self⟩
    · exact .inr ⟨(last.gone gone).1, b, List.mem_append_left _ told⟩

/-! ## The course of a call -/

theorem reached_nil : Reached view w.count mo [] t ↔
    t = (view mo.before).now ∧ w.count ≤ (view mo.before).records := by
  constructor
  · rintro (enough | ⟨mem, -⟩)
    · exact ⟨rfl, enough⟩
    · cases mem
  · rintro ⟨rfl, enough⟩
    exact .already enough

theorem reached_concat : Reached view w.count mo (later ++ [mo']) t ↔
    Reached view w.count mo later t ∨ t = (view mo'.before).now ∧
      (view mo'.before).records < w.count ∧ w.count ≤ (view mo'.after).records := by
  constructor
  · rintro (enough | ⟨mem, few, enough⟩)
    · exact .inl (.already enough)
    · rcases List.mem_append.mp mem with before | now
      · exact .inl (.last before few enough)
      · cases List.mem_singleton.mp now
        exact .inr ⟨rfl, few, enough⟩
  · rintro ((enough | ⟨mem, few, enough⟩) | ⟨rfl, few, enough⟩)
    · exact .already enough
    · exact .last (List.mem_append_left _ mem) few enough
    · exact .last List.mem_concat_self few enough

/-- A call returned this at that time, and nothing else was told of its return. -/
structure Returned (view : σ → Depot) (w : PendingWait) (all : List (Moment σ α Notice)) (b : Bool)
    (t : Nat) : Prop where
  told : .released w.call b ∈ Moment.told all
  once : (Moment.told all).countP (Notice.isRelease w.call) ≤ 1
  only : ∀ mo ∈ all, ∀ b', .released w.call b' ∈ mo.outputs → b' = b ∧ (view mo.before).now = t

theorem countP_isRelease_of_silent (silent : ∀ b, .released w.call b ∉ outputs) :
    outputs.countP (Notice.isRelease w.call) = 0 := by
  refine List.countP_eq_zero.mpr fun n mem own ↦ ?_
  cases n with
  | released c b =>
    cases (beq_iff_eq.mp own : c = w.call)
    exact silent b mem
  | begun _ _ | answered _ _ | awaited _ _ => cases own

theorem Returned.concat (returned : Returned view w all b t)
    (silent : ∀ b, .released w.call b ∉ outputs) :
    Returned view w (all ++ [⟨x, a, y, outputs⟩]) b t := by
  refine ⟨?_, ?_, ?_⟩
  · rw [Moment.told_append]
    exact List.mem_append_left _ returned.told
  · rw [Moment.told_append, Moment.told_singleton, List.countP_append,
      countP_isRelease_of_silent silent]
    exact returned.once
  · intro mo mem b' told
    rcases List.mem_append.mp mem with before | now
    · exact returned.only mo before b' told
    · cases List.mem_singleton.mp now
      exact absurd told (silent b')

/-- The first return of a call is told in its last step. -/
theorem Returned.of_silent (silent : ∀ b, .released w.call b ∉ Moment.told all)
    (returns : ∀ b', .released w.call b' ∈ outputs ↔ b' = b)
    (once : outputs.countP (Notice.isRelease w.call) ≤ 1) :
    Returned view w (all ++ [⟨x, a, y, outputs⟩]) b (view x).now := by
  refine ⟨?_, ?_, ?_⟩
  · rw [Moment.told_append, Moment.told_singleton]
    exact List.mem_append_right _ ((returns b).mpr rfl)
  · rw [Moment.told_append, Moment.told_singleton, List.countP_append,
      countP_isRelease_of_silent silent, Nat.zero_add]
    exact once
  · intro mo mem b' told
    rcases List.mem_append.mp mem with before | now
    · exact absurd (Moment.mem_told.mpr ⟨mo, before, told⟩) (silent b')
    · cases List.mem_singleton.mp now
      exact ⟨(returns b').mp told, rfl⟩

/-- How a call that began at `mo` has fared. -/
inductive Course (view : σ → Depot) (w : PendingWait) (waits gone : σ → Prop)
    (mo : Moment σ α Notice) (later : List (Moment σ α Notice)) (x : σ) : Prop where
  /-- It waits. If its number was reached, then at the present time. -/
  | waiting : waits x → (∀ b, .released w.call b ∉ Moment.told (mo :: later)) →
      (view x).now ≤ w.due →
      (∀ t, Reached view w.count mo later t ↔
        t = (view x).now ∧ w.count ≤ (view x).records) →
      Course view w waits gone mo later x
  /-- It returned at the time at which its number was reached. -/
  | reached {t : Nat} : gone x → Returned view w (mo :: later) true t → t ≤ w.due →
      w.count ≤ (view x).records → (∀ s, Reached view w.count mo later s ↔ s = t) →
      Course view w waits gone mo later x
  /-- It returned as its time was over, and its number was not reached before. -/
  | late : gone x → Returned view w (mo :: later) false w.due → w.due ≤ (view x).now →
      (view mo.before).records < w.count →
      (∀ s, Reached view w.count mo later s → w.due ≤ s) →
      Course view w waits gone mo later x

namespace Course

theorem concat (course : Course view w waits gone mo later x)
    (tended : Tended view w (view mo.before).records waits gone x y outputs)
    (patient : Patient view w waits x y) :
    Course view w waits gone mo (later ++ [⟨x, a, y, outputs⟩]) y := by
  have grown := tended.records_le
  -- only a call that still waits can be released; the others have left and hear nothing more
  cases course with
  | waiting waits silent early reached =>
    cases tended.turn waits with
    | waits waits' silent' =>
      refine .waiting waits' ?_ ?_ fun t ↦ ?_
      · intro b
        rw [← List.cons_append, Moment.told_append, Moment.told_singleton, List.mem_append]
        exact not_or.mpr ⟨silent b, silent' b⟩
      · rcases patient waits with same | ⟨-, early'⟩
        · rw [same]
          exact early
        · exact early'
      · rw [reached_concat, reached]
        dsimp only
        rcases patient waits with same | ⟨few, -⟩
        · rw [same, ← and_or_left]
          refine and_congr_right fun _ ↦ ?_
          omega
        · rcases tended.steady with ⟨same, -⟩ | ⟨-, same, -⟩
          · rw [same, ← and_or_left]
            refine and_congr_right fun _ ↦ ?_
            omega
          · rw [same]
            omega
    | reached gone' enough told =>
      subst told
      have now := tended.now_eq (List.cons_ne_nil _ _)
      refine .reached gone' (.of_silent silent ?_ ?_) early (Nat.le_trans enough grown) fun s ↦ ?_
      · simp
      · simp [Notice.isRelease]
      · rw [reached_concat, reached]
        dsimp only
        omega
    | late gone' late few told =>
      subst told
      have now := tended.now_eq (List.cons_ne_nil _ _)
      have due : (view x).now = w.due := Nat.le_antisymm early late
      refine .late gone' ?_ (now ▸ late) few fun s hs ↦ ?_
      · rw [← due]
        refine .of_silent silent ?_ ?_
        · simp
        · simp [Notice.isRelease]
      · rw [reached_concat, reached] at hs
        dsimp only at hs
        omega
  | reached gone' returned early enough reached =>
    obtain ⟨gone', silent⟩ := tended.gone gone'
    refine .reached gone' (returned.concat silent) early (Nat.le_trans enough grown) fun s ↦ ?_
    rw [reached_concat, reached]
    dsimp only
    omega
  | late gone' returned late few reached =>
    obtain ⟨gone', silent⟩ := tended.gone gone'
    refine .late gone' (returned.concat silent) (Nat.le_trans late tended.now_le) few fun s hs ↦ ?_
    rcases reached_concat.mp hs with before | ⟨rfl, -⟩
    · exact reached s before
    · exact late

/-- What every step keeps holds of the whole history. -/
theorem of_exec (begins : Course view w waits gone mo [] mo.after)
    (exec : Execution step? mo.after later x)
    (tended : ∀ mo' ∈ later,
      Tended view w (view mo.before).records waits gone mo'.before mo'.after mo'.outputs)
    (patient : ∀ mo' ∈ later, Patient view w waits mo'.before mo'.after) :
    Course view w waits gone mo later x := by
  induction exec with
  | refl => exact begins
  | snoc _ _ ih =>
    have before := ih (fun mo' mem ↦ tended mo' (List.mem_append_left _ mem))
      fun mo' mem ↦ patient mo' (List.mem_append_left _ mem)
    exact before.concat (tended _ List.mem_concat_self) (patient _ List.mem_concat_self)

/-- A call that has fared so is answered rightly and in time. -/
theorem timely (course : Course view w waits gone mo later x) : Timely view w mo later x := by
  cases course with
  | waiting _ silent early reached =>
    have untold {mo' : Moment σ α Notice} {b : Bool} (mem : mo' ∈ mo :: later)
        (told : .released w.call b ∈ mo'.outputs) : False :=
      silent b (Moment.mem_told.mpr ⟨mo', mem, told⟩)
    exact {
      once := Nat.le_trans (Nat.le_of_eq (countP_isRelease_of_silent silent)) (Nat.zero_le _)
      atOnce := fun _ mo' mem b told ↦ (untold mem told).elim
      verdict := fun _ b told ↦ (silent b told).elim
      inTime := fun mo' mem told ↦ (untold mem told).elim
      late := fun mo' mem told ↦ (untold mem told).elim
      unreturned := fun _ ↦ ⟨early, fun t reach ↦ ((reached t).mp reach).1⟩ }
  | @reached t _ returned early _ reached =>
    refine {
      once := returned.once
      atOnce := fun enough mo' mem b told ↦ ?_
      verdict := fun apart b told ↦ ?_
      inTime := fun mo' mem told s ↦ ?_
      late := fun mo' mem told ↦ ?_
      unreturned := fun silent ↦ absurd returned.told (silent true) }
    · obtain ⟨rfl, at_time⟩ := returned.only mo' mem b told
      exact ⟨rfl, at_time.trans ((reached _).mp (.already enough)).symm⟩
    · obtain ⟨mo', mem, told⟩ := Moment.mem_told.mp told
      obtain ⟨rfl, -⟩ := returned.only mo' mem b told
      refine iff_of_true rfl ?_
      cases (reached t).mpr rfl with
      | already enough => exact .inl enough
      | @last mo' mem few enough =>
        have before := Nat.lt_of_le_of_ne early (apart mo' mem few enough)
        exact .inr ⟨_, before, .last mem few enough⟩
    · rw [(returned.only mo' mem true told).2]
      exact reached s
    · cases (returned.only mo' mem false told).1
  | late _ returned late few reached =>
    refine {
      once := returned.once
      atOnce := fun enough ↦ absurd enough (Nat.not_le.mpr few)
      verdict := fun apart b told ↦ ?_
      inTime := fun mo' mem told ↦ ?_
      late := fun mo' mem told ↦ (returned.only mo' mem false told).2
      unreturned := fun silent ↦ absurd returned.told (silent false) }
    · obtain ⟨mo', mem, told⟩ := Moment.mem_told.mp told
      obtain ⟨rfl, -⟩ := returned.only mo' mem b told
      refine iff_of_false nofun ?_
      rintro (enough | ⟨t, early, reach⟩)
      · exact Nat.not_le.mpr few enough
      · exact Nat.not_le.mpr early (reached t reach)
    · cases (returned.only mo' mem true told).1

end Course

/-! ## Calls at a point -/

namespace Depot

variable {x y : Depot} {a : Deed} {target : String} {count timeout : Nat}
  {mo : Moment Depot Deed Notice} {earlier later past : List (Moment Depot Deed Notice)}

/-- A call waits no longer. -/
def dismiss (call : Nat) (x : Depot) : Depot :=
  { x with egress := { x.egress with waits := x.egress.waits.filter fun v ↦ v.call != call } }

/-- What a deed does to the calls that wait. -/
inductive Waiting (x : Depot) : Deed → Depot → List Notice → Prop where
  /-- It is not about them. -/
  | other {a : Deed} {y : Depot} {outputs : List Notice} : y.egress.waits = x.egress.waits →
      x.calls ≤ y.calls → y.now = x.now → x.records ≤ y.records →
      (∀ call b, .released call b ∉ outputs) → a.waits = false → Waiting x a y outputs
  /-- Time passes. -/
  | passes {millis : Nat} : Waiting x (.pass millis) { x with now := x.now + millis } []
  /-- A call finds as many records as it wants. -/
  | found {count timeout : Nat} : count ≤ x.records →
      Waiting x (.await count timeout) { x with calls := x.calls + 1 }
        [.awaited x.calls count, .released x.calls true]
  /-- A call begins to wait. -/
  | began {count timeout : Nat} : x.records < count →
      Waiting x (.await count timeout)
        { x with
          egress := { x.egress with waits := x.egress.waits ++ [x.wait count timeout] }
          calls := x.calls + 1 }
        [.awaited x.calls count]
  /-- The number of a call is reached. -/
  | reached {w : PendingWait} : w ∈ x.egress.waits → w.count ≤ x.records →
      Waiting x .reach (x.dismiss w.call) [.released w.call true]
  /-- The time of a call is over. -/
  | late {w : PendingWait} : w ∈ x.egress.waits → w.due ≤ x.now →
      Waiting x .expire (x.dismiss w.call) [.released w.call false]

theorem waiting_of_step (step : x.step? a = some (y, outputs)) : x.Waiting a y outputs := by
  cases a with
  | publish m =>
    cases step_of_step? step with
    | turnedAway _ => exact .other rfl (Nat.le_succ _) rfl (Nat.le_refl _) (by simp) rfl
    | begun _ => exact .other rfl (Nat.le_succ _) rfl (Nat.le_refl _) (by simp) rfl
    | aside aside => cases aside.other
  | decide call =>
    cases step_of_step? step with
    | decided _ _ decided =>
      cases decided with
      | forced _ | scripted _ _ =>
        exact .other rfl (Nat.le_refl _) rfl (Nat.le_refl _) (by simp) rfl
      | accepted _ _ =>
        refine .other rfl (Nat.le_refl _) rfl ?_ (by simp) rfl
        simp [records]
    | aside aside => cases aside.other
  | failNext _ | failAlways _ | setDelay _ | close =>
    cases step
    exact .other rfl (Nat.le_refl _) rfl (Nat.le_refl _) nofun rfl
  | pass millis =>
    cases step
    exact .passes
  | await count timeout =>
    by_cases enough : count ≤ x.egress.published.length
    · simp only [step?, Egress.await, if_pos enough] at step
      cases step
      exact .found enough
    · simp only [step?, Egress.await, if_neg enough] at step
      cases step
      exact .began (Nat.lt_of_not_le enough)
  | reach =>
    obtain ⟨⟨call, egress⟩, ends, same⟩ := Option.map_eq_some_iff.mp step
    obtain ⟨w, found, same'⟩ := Option.map_eq_some_iff.mp ends
    cases same'
    cases same
    have enough := List.find?_some found
    exact .reached (List.mem_of_find?_eq_some found) (by simpa [records] using enough)
  | expire =>
    obtain ⟨⟨call, egress⟩, ends, same⟩ := Option.map_eq_some_iff.mp step
    obtain ⟨w, found, same'⟩ := Option.map_eq_some_iff.mp ends
    cases same'
    cases same
    have late := List.find?_some found
    exact .late (List.mem_of_find?_eq_some found) (by simpa using late)

/-- What takes no time adds records at most, and what takes time does nothing else. -/
theorem time_of_step (step : x.step? a = some (y, outputs)) :
    y.now = x.now ∧ x.records ≤ y.records ∨
      ∃ millis, a = .pass millis ∧ y = { x with now := x.now + millis } ∧ outputs = [] := by
  cases waiting_of_step step with
  | other _ _ now grown _ _ => exact .inl ⟨now, grown⟩
  | passes => exact .inr ⟨_, rfl, rfl, rfl⟩
  | found _ | began _ | reached _ _ | late _ _ => exact .inl ⟨rfl, Nat.le_refl _⟩

theorem steady_of_step (step : x.step? a = some (y, outputs)) :
    y.now = x.now ∧ x.records ≤ y.records ∨
      x.now ≤ y.now ∧ y.records = x.records ∧ outputs = [] := by
  rcases time_of_step step with now | ⟨millis, -, rfl, rfl⟩
  · exact .inl now
  · exact .inr ⟨Nat.le_add_right _ _, rfl, rfl⟩

/-- The calls that wait have begun, each of them once. -/
structure Queued (x : Depot) : Prop where
  begun : ∀ v ∈ x.egress.waits, v.call < x.calls
  once : (x.egress.waits.map PendingWait.call).Nodup

theorem Queued.dismiss (queued : x.Queued) (call : Nat) : (x.dismiss call).Queued :=
  ⟨fun v mem ↦ queued.begun v (List.mem_of_mem_filter mem),
    queued.once.sublist (List.filter_sublist.map _)⟩

theorem Queued.step (queued : x.Queued) (step : x.step? a = some (y, outputs)) : y.Queued := by
  cases waiting_of_step step with
  | other same later _ _ _ _ =>
    refine ⟨fun v mem ↦ ?_, ?_⟩
    · rw [same] at mem
      exact Nat.lt_of_lt_of_le (queued.begun v mem) later
    · rw [same]
      exact queued.once
  | passes => exact ⟨queued.begun, queued.once⟩
  | found _ => exact ⟨fun v mem ↦ Nat.lt_succ_of_lt (queued.begun v mem), queued.once⟩
  | began _ =>
    refine ⟨fun v mem ↦ ?_, ?_⟩
    · rcases List.mem_append.mp mem with before | now
      · exact Nat.lt_succ_of_lt (queued.begun v before)
      · cases List.mem_singleton.mp now
        exact Nat.lt_succ_self _
    · rw [List.map_append, List.nodup_append]
      refine ⟨queued.once, List.nodup_singleton _, ?_⟩
      intro c mem c' mem'
      obtain ⟨v, there, rfl⟩ := List.mem_map.mp mem
      cases List.mem_singleton.mp mem'
      exact Nat.ne_of_lt (queued.begun v there)
  | reached _ _ => exact queued.dismiss _
  | late _ _ => exact queued.dismiss _

theorem queued_of_runs (runs : Runs target past x) : x.Queued :=
  runs.invariant ⟨nofun, List.nodup_nil⟩ Queued.step

/-- A call waits that began when there were not as many records. -/
def Waits (w : PendingWait) (start : Nat) (x : Depot) : Prop :=
  w ∈ x.egress.waits ∧ start < w.count

/-- A call has begun and waits no longer. -/
def Gone (w : PendingWait) (x : Depot) : Prop :=
  w.call < x.calls ∧ ∀ v ∈ x.egress.waits, v.call ≠ w.call

variable {start : Nat} {v : PendingWait}

/-- When a call returns the others go on to wait. -/
theorem Waits.dismiss (waits : x.Waits w start) (other : v.call ≠ w.call) :
    (x.dismiss v.call).Waits w start :=
  ⟨List.mem_filter.mpr ⟨waits.1, by simpa using other.symm⟩, waits.2⟩

theorem gone_dismiss (begun : w.call < x.calls) : (x.dismiss w.call).Gone w := by
  refine ⟨begun, fun v mem ↦ ?_⟩
  simpa using (List.mem_filter.mp mem).2

theorem Gone.dismiss (gone : x.Gone w) (call : Nat) : (x.dismiss call).Gone w :=
  ⟨gone.1, fun v mem ↦ gone.2 v (List.mem_of_mem_filter mem)⟩

/-- A call that returns does so in a step of its own. -/
theorem Queued.tended_dismiss (queued : x.Queued) (mem : v ∈ x.egress.waits)
    (own : v = w → x.Waits w start →
      Turn id w start (Waits w start) (Gone w) x (x.dismiss v.call) [.released v.call b]) :
    Tended id w start (Waits w start) (Gone w) x (x.dismiss v.call) [.released v.call b] := by
  have silent (other : v.call ≠ w.call) :
      ∀ b', .released w.call b' ∉ [Notice.released v.call b] := by
    simp [other.symm]
  refine ⟨fun waits ↦ ?_, fun gone ↦ ?_, .inl ⟨rfl, Nat.le_refl _⟩⟩
  · by_cases same : v.call = w.call
    · exact own (List.inj_on_of_nodup_map queued.once mem waits.1 same) waits
    · exact .waits (waits.dismiss same) (silent same)
  · exact ⟨gone.dismiss _, silent (gone.2 v mem)⟩

theorem Queued.tended (queued : x.Queued) (step : x.step? a = some (y, outputs)) :
    Tended id w start (Waits w start) (Gone w) x y outputs := by
  have steady := steady_of_step step
  cases waiting_of_step step with
  | other same later _ _ silent _ =>
    refine ⟨fun waits ↦ ?_, fun gone ↦ ?_, steady⟩
    · exact .waits ⟨same ▸ waits.1, waits.2⟩ (silent w.call)
    · exact ⟨⟨Nat.lt_of_lt_of_le gone.1 later, same ▸ gone.2⟩, silent w.call⟩
  | passes =>
    exact ⟨fun waits ↦ .waits waits nofun, fun gone ↦ ⟨gone, nofun⟩, steady⟩
  | found enough =>
    refine ⟨fun waits ↦ ?_, fun gone ↦ ?_, steady⟩
    · have before := Nat.ne_of_lt (queued.begun w waits.1)
      exact .waits waits (by simp [before])
    · have before := Nat.ne_of_lt gone.1
      exact ⟨⟨Nat.lt_succ_of_lt gone.1, gone.2⟩, by simp [before]⟩
  | began few =>
    refine ⟨fun waits ↦ ?_, fun gone ↦ ?_, steady⟩
    · exact .waits ⟨List.mem_append_left _ waits.1, waits.2⟩ (by simp)
    · refine ⟨⟨Nat.lt_succ_of_lt gone.1, fun v mem ↦ ?_⟩, by simp⟩
      rcases List.mem_append.mp mem with before | now
      · exact gone.2 v before
      · cases List.mem_singleton.mp now
        exact (Nat.ne_of_lt gone.1).symm
  | reached mem enough =>
    refine queued.tended_dismiss mem ?_
    rintro rfl -
    exact .reached (gone_dismiss (queued.begun _ mem)) enough rfl
  | late mem due =>
    refine queued.tended_dismiss mem ?_
    rintro rfl waits
    exact .late (gone_dismiss (queued.begun _ mem)) due waits.2 rfl

/-- Nobody who waits can return, and nobody would if so much time passed. -/
def AtRest (x : Depot) (millis : Nat) : Prop :=
  x.step? .reach = none ∧ x.step? .expire = none ∧ ∀ v ∈ x.egress.waits, x.now + millis ≤ v.due

/-- Time passes only while everybody is at rest. -/
def Prompt (later : List (Moment Depot Deed Notice)) : Prop :=
  ∀ mo ∈ later, ∀ millis, mo.action = .pass millis → mo.before.AtRest millis

/-- While nobody can return, nobody has as many records as it wants. -/
theorem records_lt_of_reach (idle : x.step? .reach = none) (mem : w ∈ x.egress.waits) :
    x.records < w.count := by
  have none_found := Option.map_eq_none_iff.mp (Option.map_eq_none_iff.mp idle)
  simpa [records] using List.find?_eq_none.mp none_found w mem

theorem patient_of_step (step : x.step? a = some (y, outputs))
    (rest : ∀ millis, a = .pass millis → x.AtRest millis) :
    Patient id w (Waits w start) x y := by
  intro waits
  cases waiting_of_step step with
  | other _ _ same _ _ _ => exact .inl same
  | passes =>
    obtain ⟨idle, -, early⟩ := rest _ rfl
    exact .inr ⟨records_lt_of_reach idle waits.1, early w waits.1⟩
  | found _ | began _ | reached _ _ | late _ _ => exact .inl rfl

/-- A call begins. It returns at once or waits. -/
theorem course_of_await (queued : x.Queued)
    (step : x.step? (.await count timeout) = some (y, outputs)) :
    Course id (x.wait count timeout) (Waits (x.wait count timeout) x.records)
      (Gone (x.wait count timeout)) ⟨x, Deed.await count timeout, y, outputs⟩ [] y := by
  cases waiting_of_step step with
  | other _ _ _ _ _ not_waits => cases not_waits
  | found enough =>
    refine .reached (t := x.now) ⟨Nat.lt_succ_self _, fun v mem ↦ ?_⟩ ?_ (Nat.le_add_right _ _)
      enough fun s ↦ ?_
    · exact Nat.ne_of_lt (queued.begun v mem)
    · change Returned id _ ([] ++ [_]) true (id x).now
      refine .of_silent nofun ?_ ?_
      · simp [wait]
      · simp [wait, Notice.isRelease]
    · exact reached_nil.trans (and_iff_left enough)
  | began few =>
    refine .waiting ⟨List.mem_append_right _ (List.mem_singleton_self _), few⟩ ?_
      (Nat.le_add_right _ _) fun t ↦ reached_nil
    simp [Moment.told]

/-- **A call at a point is answered rightly and in time.** -/
theorem timely_of_await (runs : Runs target (earlier ++ mo :: later) x)
    (awaits : mo.action = .await count timeout) (prompt : Prompt later) :
    Timely id (mo.before.wait count timeout) mo later x := by
  obtain ⟨before, step, after⟩ := runs.at_split
  obtain ⟨s, _, _, outputs⟩ := mo
  subst awaits
  refine (Course.of_exec (course_of_await (queued_of_runs before) step) after ?_ ?_).timely
  · intro mo' mem
    obtain ⟨first, rest, -, until_then, this, -⟩ := after.at_moment mem
    have queued := queued_of_runs ((before.snoc step).trans until_then)
    exact queued.tended this
  · intro mo' mem
    obtain ⟨first, rest, -, -, this, -⟩ := after.at_moment mem
    exact patient_of_step this (prompt mo' mem)

end Depot

end MessageBridge.Memory
