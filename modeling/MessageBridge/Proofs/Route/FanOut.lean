import MessageBridge.Proofs.Route.Story

/-!
# Fan-out accounting

A message that was prepared gets its verdict from the ends of its legs, one for each destination:
the published and the tolerated are counted, and the failed are listed in the order of the
destinations. The bus has accepted the message exactly once for each published end and never for
another, and nothing that happens later changes that.
-/

namespace MessageBridge

/-! ## Counting ends -/

/-- Whether the destination has the message. -/
def LegEnd.isPublished : LegEnd → Bool
  | published => true
  | _ => false

/-- Whether the destination was given up. -/
def LegEnd.isTolerated : LegEnd → Bool
  | tolerated _ => true
  | _ => false

/-- Whether the destination is without the message. -/
def LegEnd.isFailed : LegEnd → Bool
  | failed _ => true
  | _ => false

theorem LegEnd.countP_add (ends : List LegEnd) :
    ends.countP isPublished + ends.countP isTolerated + ends.countP isFailed = ends.length := by
  induction ends with
  | nil => rfl
  | cons e ends ih =>
    rw [List.countP_cons, List.countP_cons, List.countP_cons, List.length_cons, ← ih]
    cases e <;> simp only [isPublished, isTolerated, isFailed] <;> simp <;> omega

theorem countEnds_eq {kind : LegEnd → Bool} {legs : List Leg} {ends : List LegEnd}
    (same : legs.map Leg.result? = ends.map some) :
    Running.countEnds kind legs = ends.countP kind := by
  have mapped : Running.countEnds kind legs =
      (legs.map Leg.result?).countP fun result ↦ (result.map kind).getD false := by
    rw [Running.countEnds, List.countP_map]
    rfl
  rw [mapped, same, List.countP_map]
  rfl

theorem failures_destination {legs : List Leg} {ends : List LegEnd} {ds : List Destination}
    (same : legs.map Leg.result? = ends.map some) :
    ((legs.zip ds).filterMap fun (leg, d) ↦ leg.error? d.label).map PublishError.destination =
      ((ends.zip ds).filter fun (e, _) ↦ e.isFailed).map fun (_, d) ↦ d.label := by
  induction ds generalizing legs ends with
  | nil => simp
  | cons d ds ih =>
    cases legs with
    | nil =>
      cases ends with
      | nil => rfl
      | cons e ends => cases same
    | cons leg legs =>
      cases ends with
      | nil => cases same
      | cons e ends =>
        rw [List.map_cons, List.map_cons] at same
        obtain ⟨this, rest⟩ := List.cons.inj same
        have phase := Running.phase_of_result? this
        have tail := ih rest
        cases e with
        | failed kind =>
          have error : leg.error? d.label =
              some ⟨kind, d.label, leg.attempts, leg.lastError⟩ := by
            rw [Leg.error?, phase]
          simp only [List.zip_cons_cons, List.filterMap_cons, error, List.filter_cons,
            LegEnd.isFailed, if_true, List.map_cons, tail]
        | _ =>
          have error : leg.error? d.label = none := by
            rw [Leg.error?, phase]
          simp only [List.zip_cons_cons, List.filterMap_cons, error, List.filter_cons,
            LegEnd.isFailed, Bool.false_eq_true, if_false, tail]

theorem length_failed {ends : List LegEnd} {ds : List Destination}
    (same : ends.length = ds.length) :
    ((ends.zip ds).filter fun (e, _) ↦ e.isFailed).length = ends.countP LegEnd.isFailed := by
  have first : ends = (ends.zip ds).map Prod.fst := (List.map_fst_zip (by omega)).symm
  rw [← List.countP_eq_length_filter]
  conv_rhs => rw [first, List.countP_map]
  rfl

/-- What the answers of the bus show of an end. -/
def LegEnd.Shown (mode : DeliveryMode) (sent : Message) (replies : List Reply) : LegEnd → Prop
  | published => Accepted sent replies ∧ acceptances replies = 1
  | tolerated _ => GivenUp mode sent sent replies ∧ acceptances replies = 0
  | failed _ => ¬ Accepted sent replies ∧ ¬ GivenUp mode sent sent replies ∧
      acceptances replies = 0

theorem Leg.Course.shown {plan : RetryPlan} {sent : Message} {replies : List Reply} {leg : Leg}
    (course : Course plan sent replies leg) {e : LegEnd} (ended : leg.result? = some e) :
    e.Shown plan.mode sent replies := by
  have phase := Running.phase_of_result? ended
  have agrees := course.agrees
  have count := course.acceptances_eq
  rw [Agrees, phase] at agrees
  rw [phase] at count
  cases e with
  | published =>
    obtain ⟨front, last, rfl, -, ok⟩ := agrees
    exact ⟨⟨last, by simp, course.message last (by simp), ok⟩, count.trans (if_pos rfl)⟩
  | tolerated reason => exact ⟨agrees.2, count.trans (if_neg (by simp))⟩
  | failed kind =>
    exact ⟨agrees.not_accepted, agrees.not_givenUp, count.trans (if_neg (by simp))⟩

namespace Running

variable {s : EngineSettings} {route : CompiledRoute} {past : Past} {r : Running} {call : Nat}

/-! ## Resolution -/

/-- How a message, in the form in which it was sent, got its verdict at the moment `mo`, when its
legs had the given ends. -/
structure Resolution (route : CompiledRoute) (past : Past) (call : Nat) (sent : Message)
    (mo : Moment Running (Clock × Action) Output) (ends : List LegEnd) : Prop where
  /-- Every destination had reached an end. -/
  length : ends.length = route.destinations.length
  final : ∃ h, mo.before.handling? call = some h ∧ h.message = sent ∧
    h.legs.map Leg.result? = ends.map some
  /-- Either all ends are counted, or some failed and are listed. -/
  told : (mo.outputs = [.event (.call call) (.delivered route.name sent.idText
          (ends.countP LegEnd.isPublished) (ends.countP LegEnd.isTolerated)),
        .verdict call (.ok ())] ∧
      ends.countP LegEnd.isPublished + ends.countP LegEnd.isTolerated =
        route.destinations.length) ∨
    ∃ e : AggregateError, mo.outputs = [.event (.call call) (.undelivered sent.idText e),
        .verdict call (.error (.undelivered e))] ∧ e.failures ≠ [] ∧
      e.failures.map PublishError.destination =
        (((ends.zip route.destinations).filter fun (e, _) ↦ e.isFailed).map fun (_, d) ↦ d.label) ∧
      ends.countP LegEnd.isPublished + ends.countP LegEnd.isTolerated + e.failures.length =
        route.destinations.length
  /-- The bus has accepted the message once for every published end, and for no other. -/
  shown : ∀ {d : Nat} {e : LegEnd}, ends[d]? = some e →
    e.Shown route.mode sent (replies call d past)

/-- What is known of the destinations of a call. -/
structure FanOut (route : CompiledRoute) (past : Past) (call : Nat) : Prop where
  /-- A message that was prepared gets its verdict when all destinations have reached an end. -/
  resolution : ∀ {mo : Moment Running (Clock × Action) Output} {v : Verdict}, mo ∈ past →
    .verdict call v ∈ mo.outputs → ∀ {x : Arrival} {sent : Message}, x ∈ arrivals call past →
    x.late = false → (route.prepare x.clock.wall x.message).outcome = .ok sent →
    ∃ ends, Resolution route past call sent mo ends
  /-- The bus accepts the message of a call at most once for each destination. -/
  once : ∀ {d : Nat}, d < route.destinations.length → acceptances (replies call d past) ≤ 1

theorem acceptances_le_one (runs : Runs s route past r) {d : Nat}
    (hd : d < route.destinations.length) : acceptances (replies call d past) ≤ 1 := by
  have sound := sound_of_runs runs
  have same_route : r.route = route := (kept_of_runs runs).route
  have of_course {plan : RetryPlan} {m : Message} {leg : Leg}
      (course : Leg.Course plan m (replies call d past) leg) :
      acceptances (replies call d past) ≤ 1 := by
    rw [course.acceptances_eq]
    split <;> omega
  have of_untouched (untouched : Untouched call past r) :
      acceptances (replies call d past) ≤ 1 := by
    rw [untouched.replies]
    exact Nat.zero_le 1
  cases story_of_runs runs call with
  | unheard _ _ untouched => exact of_untouched untouched
  | turnedAway _ _ _ untouched => exact of_untouched untouched
  | dropped _ _ _ _ untouched => exact of_untouched untouched
  | handled underway =>
    rw [← same_route, ← sound.length_legs underway.found] at hd
    exact of_course (underway.courses (List.getElem?_eq_getElem hd))
  | resolved _ _ _ _ _ _ legs _ courses =>
    rw [← same_route, ← legs] at hd
    exact of_course (courses (List.getElem?_eq_getElem hd))
  | abandoned _ _ _ _ _ _ once =>
    rw [← same_route] at hd
    exact (Nat.le_add_right ..).trans (once d hd)

theorem exists_ends {legs : List Leg} (settled : ∀ leg ∈ legs, leg.result?.isSome = true) :
    ∃ ends : List LegEnd, legs.map Leg.result? = ends.map some := by
  induction legs with
  | nil => exact ⟨[], rfl⟩
  | cons leg legs ih =>
    obtain ⟨ends, same⟩ := ih fun leg mem ↦ settled leg (List.mem_cons_of_mem _ mem)
    obtain ⟨e, this⟩ := Option.isSome_iff_exists.mp (settled leg List.mem_cons_self)
    exact ⟨e :: ends, by rw [List.map_cons, List.map_cons, same, this]⟩

theorem resolve_of_verdict {x : Arrival} {sent : Message}
    {mo : Moment Running (Clock × Action) Output} {v : Verdict} {earlier later : Past}
    (before : Runs s route earlier mo.before)
    (step : act mo.before mo.action = some (mo.after, mo.outputs))
    (split : past = earlier ++ mo :: later) (told : .verdict call v ∈ mo.outputs)
    (came : x ∈ arrivals call past) (only : (arrivals call past).length ≤ 1)
    (early : x.late = false) (passed : (route.prepare x.clock.wall x.message).outcome = .ok sent) :
    mo.action.2 = .resolve call := by
  obtain ⟨m, arrives⟩ | resolves := caused_of_step step _ told
  · -- an arrival that is answered at once is late or dropped
    have route_before : mo.before.route = route := (kept_of_runs before).route
    have mem : mo ∈ past := by
      rw [split]
      exact List.mem_append_right _ List.mem_cons_self
    have this := mem_arrivals mem (Prod.ext rfl arrives)
    have same : x = ⟨mo.action.1, m, mo.before.cancelled⟩ := by
      obtain ⟨y, hy⟩ := List.length_eq_one_iff.mp
        (Nat.le_antisymm only (List.length_pos_of_mem came))
      rw [hy, List.mem_singleton] at came this
      rw [came, this]
    subst same
    have step : mo.before.step? mo.action.1 (.handle call m) = some (mo.after, mo.outputs) := by
      rw [← arrives]
      exact step
    obtain ⟨-, ⟨late, -⟩ | ⟨reason, -, dropped, -⟩ | ⟨m', -, -, -, outputs⟩⟩ := handle?_cases step
    · have early : mo.before.cancelled = false := early
      rw [late] at early
      cases early
    · rw [route_before] at dropped
      rw [dropped] at passed
      cases passed
    · rw [outputs] at told
      exact absurd told (by simp [arrivalOutputs])
  · exact resolves

/-- Resolving accounts for every leg. -/
theorem Underway.resolution {x : Arrival} {sent : Message} {h : Handling} {earlier : Past}
    {clock : Clock} {r' : Running} {outputs : List Output} (sound : r.Sound)
    (underway : Underway call earlier r x sent h)
    (step : r.step? clock (.resolve call) = some (r', outputs)) (route_eq : r.route = route)
    (same : ∀ d, replies call d past = replies call d earlier) :
    ∃ ends, Resolution route past call sent ⟨r, (clock, .resolve call), r', outputs⟩ ends := by
  obtain ⟨h', found, settled, -, told⟩ := resolve?_cases step
  rw [underway.found] at found
  cases found
  obtain ⟨ends, each⟩ := exists_ends settled
  have length : ends.length = route.destinations.length := by
    have := congrArg List.length each
    rw [List.length_map, List.length_map] at this
    rw [← this, sound.length_legs underway.found, route_eq]
  have sum := LegEnd.countP_add ends
  have failed : (h.failures route.destinations).map PublishError.destination =
      ((ends.zip route.destinations).filter fun (e, _) ↦ e.isFailed).map fun (_, d) ↦ d.label :=
    failures_destination each
  refine ⟨ends, length, ⟨h, underway.found, underway.message, each⟩, ?_, fun {d e} hd ↦ ?_⟩
  · rw [sound.failures, route_eq, countEnds_eq each, countEnds_eq each, underway.message] at told
    have count : (h.failures route.destinations).length = ends.countP LegEnd.isFailed := by
      have := congrArg List.length failed
      rw [List.length_map, List.length_map, length_failed length] at this
      exact this
    rcases told with ⟨good, rfl⟩ | ⟨bad, rfl⟩
    · refine .inl ⟨rfl, ?_⟩
      rw [good, List.length_nil] at count
      omega
    · refine .inr ⟨_, rfl, bad, failed, ?_⟩
      rw [count, sum, length]
  · have hlegs := congrArg (·[d]?) each
    simp only [List.getElem?_map, hd, Option.map_some] at hlegs
    obtain ⟨leg, here, ended⟩ := Option.map_eq_some_iff.mp hlegs
    rw [same, show route.mode = r.plan.mode by rw [plan, route_eq]]
    exact (underway.courses here).shown ended

/-- **Fan-out accounting.** Whatever happens to a route in whatever order, the destinations of every
call are accounted for as `FanOut` says. -/
theorem fan_out (runs : Runs s route past r) (call : Nat) : FanOut route past call := by
  refine ⟨fun {mo v} here told {x sent} came early passed ↦ ?_,
    fun {d} hd ↦ acceptances_le_one runs hd⟩
  obtain ⟨earlier, later, split, before, step, after⟩ := runs.at_moment here
  have resolves := resolve_of_verdict before step split told came
    (story_of_runs runs call).arrivals_le_one early passed
  rcases mo with ⟨r₀, ⟨clock, a⟩, r₁, outputs⟩
  obtain rfl : a = .resolve call := resolves
  have sound := sound_of_runs before
  obtain ⟨h, found, settled, -⟩ := resolve?_cases step
  -- the call is handled when it is resolved, so that is how far its story had come
  obtain ⟨x', sent', underway⟩ := (story_of_runs before call).underway found
  have gone := underway.departed sound step
  -- after the verdict the bus answers nothing more for this call
  have unchanged (d : Nat) : replies call d past = replies call d earlier := by
    have nothing := replies_of_over after gone.1 gone.2.1 gone.2.2 d
    rw [split, replies, List.flatMap_append, List.flatMap_cons]
    rw [replies] at nothing
    rw [nothing, List.append_nil]
    exact List.append_nil _
  -- a call arrives once, so its story is about the arrival in question
  have same : x' = x := by
    have : x' ∈ arrivals call past := by
      rw [split, arrivals, List.filterMap_append]
      refine List.mem_append_left _ ?_
      show x' ∈ arrivals call earlier
      rw [underway.came]
      exact List.mem_singleton_self x'
    obtain ⟨y, hy⟩ := List.length_eq_one_iff.mp (Nat.le_antisymm
      (story_of_runs runs call).arrivals_le_one (List.length_pos_of_mem came))
    rw [hy, List.mem_singleton] at this came
    rw [this, came]
  subst same
  have route_eq : r₀.route = route := (kept_of_runs before).route
  have outcome := underway.outcome
  rw [route_eq, passed] at outcome
  cases outcome
  exact underway.resolution sound step route_eq unchanged

/-- When the publish to the second destination crashes, the verdict names that destination. -/
theorem fan_out_of_crash : ∃ past r e, Runs oneLane pairOnce past r ∧
    verdicts 0 past = [.error (.undelivered e)] ∧
    e.failures.map PublishError.destination = ["out:archive"] ∧ FanOut pairOnce past 0 := by
  have runs := (Execution.refl : Runs oneLane pairOnce [] _)
    |>.snoc (a := (⟨0, 0⟩, .handle 0 note)) rfl
    |>.snoc (a := (⟨0, 0⟩, .submit 0 0)) rfl
    |>.snoc (a := (⟨0, 0⟩, .submit 0 1)) rfl
    |>.snoc (a := (⟨0, 0⟩, .take 0 0)) rfl
    |>.snoc (a := (⟨0, 0⟩, .take 1 0)) rfl
    |>.snoc (a := (⟨1, 1⟩, .crash 1 0)) rfl
    |>.snoc (a := (⟨2, 2⟩, .reply 0 0 (.ok ()))) rfl
    |>.snoc (a := (⟨2, 2⟩, .resolve 0)) rfl
  exact ⟨_, _, _, runs, rfl, rfl, fan_out runs 0⟩

end Running

end MessageBridge
