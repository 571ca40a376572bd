import MessageBridge.Proofs.Route.Commit
import MessageBridge.Proofs.Route.FanOut
import MessageBridge.Proofs.Route.Return

/-!
# Independence of destinations

What becomes of a message can be told without the lanes. One destination after the other, the loop
of its leg is run alone along the answers that it gets, and the ends are put together in the order
of the destinations: that is `Running.ToldAlone`. `Running.independence` says that a run in which
the token does not fire and no publish crashes tells the same of the message, however the legs take
turns, whatever else is in their lanes, and however many lanes there are and how long. And if the
loops all come to an end, the call does, in every run in which everyone has their turn.

The result is settled before anything is said of time: by `Leg.Course.tracks` each leg of the run
stands where it would stand alone. That the call returns is `Running.Undisturbed.leaves`.
-/

namespace MessageBridge

/-! ## What a call concludes with -/

/-- What is told in the end of a message with these legs. -/
def Handling.conclusion (route : CompiledRoute) (h : Handling) : List Output :=
  match h.failures route.destinations with
  | [] =>
    [.event (.call h.call) (.delivered route.name h.message.idText
        (Running.countEnds (· matches .published) h.legs)
        (Running.countEnds (· matches .tolerated _) h.legs)),
      .verdict h.call (.ok ())]
  | e :: errors =>
    [.event (.call h.call) (.undelivered h.message.idText ⟨route.name, e :: errors⟩),
      .verdict h.call (.error (.undelivered ⟨route.name, e :: errors⟩))]

namespace Running

variable {s : EngineSettings} {route : CompiledRoute} {past : Past} {r r' : Running}
  {clock now : Clock} {c : Nat} {m : Message} {scripts : Nat → Script}
  {mo : Moment Running (Clock × Action) Output} {outputs outputs' : List Output}

theorem Sound.conclusion_of_resolve (sound : r.Sound)
    (step : r.step? now (.resolve c) = some (r', outputs)) :
    ∃ h, r.handling? c = some h ∧ (∀ leg ∈ h.legs, leg.result?.isSome = true) ∧
      outputs = h.conclusion r.route := by
  obtain ⟨h, found, settled, -, told⟩ := resolve?_cases step
  refine ⟨h, found, settled, ?_⟩
  rw [sound.failures] at told
  have same := (mem_handlings found).2
  rcases told with ⟨good, rfl⟩ | ⟨bad, rfl⟩
  · rw [Handling.conclusion, good]
    cases same
    rfl
  · rw [Handling.conclusion, same]
    cases errors : h.failures r.route.destinations with
    | nil => exact absurd errors bad
    | cons e es => rfl

/-! ## The destinations one by one -/

/-- The legs of a message that comes to an end at every destination alone. -/
structure AllEndAlone (route : CompiledRoute) (sent : Message) (scripts : Nat → Script)
    (legs : List Leg) : Prop where
  length : legs.length = route.destinations.length
  ends : ∀ {d : Nat} {leg : Leg}, legs[d]? = some leg →
    Leg.EndsAlone route.mode sent (scripts d) leg

namespace AllEndAlone

variable {sent : Message} {legs legs' : List Leg}

theorem unique (alone : AllEndAlone route sent scripts legs)
    (alone' : AllEndAlone route sent scripts legs') : legs = legs' := by
  apply List.ext_getElem (alone.length.trans alone'.length.symm)
  intro d hd hd'
  exact (alone.ends (List.getElem?_eq_getElem hd)).unique
    (alone'.ends (List.getElem?_eq_getElem hd'))

theorem exists_end (alone : AllEndAlone route sent scripts legs) {d : Nat}
    (hd : d < route.destinations.length) :
    ∃ leg, Leg.EndsAlone route.mode sent (scripts d) leg := by
  rw [← alone.length] at hd
  exact ⟨_, alone.ends (List.getElem?_eq_getElem hd)⟩

end AllEndAlone

/-- What is told in the end of a message that has arrived with a call, if each destination goes
through its script alone. -/
inductive ToldAlone (route : CompiledRoute) (clock : Clock) (c : Nat) (m : Message)
    (scripts : Nat → Script) : List Output → Prop where
  | dropped {reason : DropReason}
      (outcome : (route.prepare clock.wall m).outcome = .error reason) :
      ToldAlone route clock c m scripts
        (.event (.call c) (.received route.name m.idText m.payload.size) ::
          ((route.prepare clock.wall m).passedOver.map fun p ↦
            Output.event (.call c) (.passedOver p)).toList ++
          [.event (.call c) (.dropped route.name route.source.label m.idText reason),
            .verdict c (.ok ())])
  | concluded {sent : Message} {legs : List Leg}
      (outcome : (route.prepare clock.wall m).outcome = .ok sent)
      (alone : AllEndAlone route sent scripts legs) :
      ToldAlone route clock c m scripts (Handling.conclusion route ⟨c, sent, legs⟩)

theorem ToldAlone.unique (told : ToldAlone route clock c m scripts outputs)
    (told' : ToldAlone route clock c m scripts outputs') : outputs = outputs' := by
  cases told with
  | dropped outcome =>
    cases told' with
    | dropped outcome' =>
      rw [outcome] at outcome'
      cases outcome'
      rfl
    | concluded outcome' =>
      rw [outcome] at outcome'
      cases outcome'
  | concluded outcome alone =>
    cases told' with
    | dropped outcome' =>
      rw [outcome] at outcome'
      cases outcome'
    | concluded outcome' alone' =>
      rw [outcome] at outcome'
      cases outcome'
      rw [alone.unique alone']

/-! ## The same in a run -/

theorem exists_of_mem_arrivals {x : Arrival} (mem : x ∈ arrivals c past) :
    ∃ mo ∈ past, mo.action = (x.clock, .handle c x.message) := by
  obtain ⟨mo, here, arrival⟩ := List.mem_filterMap.mp mem
  refine ⟨mo, here, ?_⟩
  rcases mo with ⟨before, ⟨now, a⟩, after, outputs⟩
  cases a with
  | handle c' m' =>
    simp only [arrival?] at arrival
    split at arrival
    · rename_i same
      cases arrival
      rw [same]
    · cases arrival
  | _ => cases arrival

/-- A run in which the token does not fire and no publish crashes, with the arrival of a call whose
publishes are answered as the scripts say. -/
structure Scripted (s : EngineSettings) (route : CompiledRoute) (past : Past) (r : Running)
    (clock : Clock) (c : Nat) (m : Message) (scripts : Nat → Script) : Prop where
  runs : Runs s route past r
  running : r.cancelled = false
  calm : Calm past
  arrived : ∃ mo ∈ past, mo.action = (clock, .handle c m)
  followed : ∀ d, (scripts d).Followed (replies c d past)

namespace Scripted

variable {earlier later : Past} {h : Handling} {sent : Message}

theorem eq_of_arrival (scripted : Scripted s route past r clock c m scripts) {x : Arrival}
    (came : x ∈ arrivals c past) : x.clock = clock ∧ x.message = m ∧ x.late = false := by
  obtain ⟨mo, here, arrived⟩ := scripted.arrived
  have this := mem_arrivals here arrived
  obtain ⟨y, only⟩ := List.length_eq_one_iff.mp (Nat.le_antisymm
    (story_of_runs scripted.runs c).arrivals_le_one (List.length_pos_of_mem this))
  rw [only, List.mem_singleton] at this came
  rw [came, ← this]
  refine ⟨rfl, rfl, ?_⟩
  -- a token that had fired by then would still have
  by_contra late
  obtain ⟨earlier, later, -, -, step, after⟩ := scripted.runs.at_moment here
  have fired := cancelled_of_execution after
    ((kept_of_step step).cancelled (by simpa using late))
  rw [scripted.running] at fired
  cases fired

theorem came (scripted : Scripted s route past r clock c m scripts) : arrivals c past ≠ [] := by
  obtain ⟨mo, here, arrived⟩ := scripted.arrived
  exact List.ne_nil_of_mem (mem_arrivals here arrived)

theorem prepared (scripted : Scripted s route past r clock c m scripts)
    (outcome : (route.prepare clock.wall m).outcome = .ok sent) :
    PreparedTo route c past sent := by
  intro x came
  obtain ⟨at_clock, with_message, -⟩ := scripted.eq_of_arrival came
  rw [at_clock, with_message]
  exact outcome

/-- Once the call has arrived, all this is true of the run so far. -/
theorem of_later (scripted : Scripted s route past r clock c m scripts)
    (before : Runs s route earlier r') (after : Execution act r' later r)
    (split : past = earlier ++ later) (came : arrivals c earlier ≠ []) :
    Scripted s route earlier r' clock c m scripts := by
  have part {mo : Moment Running (Clock × Action) Output} (mem : mo ∈ earlier) : mo ∈ past := by
    rw [split]
    exact List.mem_append_left _ mem
  refine ⟨before, ?_, fun mo mem ↦ scripted.calm mo (part mem), ?_, fun d ↦ ?_⟩
  · by_contra fired
    have still := cancelled_of_execution after (by simpa using fired)
    rw [scripted.running] at still
    cases still
  · obtain ⟨x, mem⟩ := List.exists_mem_of_ne_nil _ came
    obtain ⟨mo, here, arrived⟩ := exists_of_mem_arrivals mem
    obtain ⟨rfl, rfl, -⟩ := scripted.eq_of_arrival (mem_arrivals (part here) arrived)
    exact ⟨mo, here, arrived⟩
  · have followed := scripted.followed d
    rw [split, replies, List.flatMap_append] at followed
    exact Script.Followed.of_append followed

/-- So it is one step later, unless the step fires the token, crashes or brings an answer. -/
theorem step (scripted : Scripted s route past r clock c m scripts) {a : Action}
    (step : r.step? now a = some (r', outputs)) (running : r'.cancelled = false)
    (calm : ∀ i j, a ≠ .crash i j) (silent : ∀ i j answer, a ≠ .reply i j answer) :
    Scripted s route (past ++ [⟨r, (now, a), r', outputs⟩]) r' clock c m scripts := by
  refine ⟨scripted.runs.snoc step, running, ?_, ?_, fun d ↦ ?_⟩
  · intro mo mem
    rcases List.mem_append.mp mem with mem | mem
    · exact scripted.calm mo mem
    · rw [List.mem_singleton.mp mem]
      exact calm
  · obtain ⟨mo, here, arrived⟩ := scripted.arrived
    exact ⟨mo, List.mem_append_left _ here, arrived⟩
  · rw [replies_concat, heard_of_silent silent, List.append_nil]
    exact scripted.followed d

theorem allEndAlone (scripted : Scripted s route past r clock c m scripts)
    (found : r.handling? c = some h) (settled : ∀ leg ∈ h.legs, leg.result?.isSome = true) :
    (route.prepare clock.wall m).outcome = .ok h.message ∧
      AllEndAlone route h.message scripts h.legs := by
  have same_route : r.route = route := (kept_of_runs scripted.runs).route
  obtain ⟨x, sent, underway⟩ := (story_of_runs scripted.runs c).underway found
  have came : x ∈ arrivals c past := by
    rw [underway.came]
    exact List.mem_singleton_self x
  obtain ⟨at_clock, with_message, -⟩ := scripted.eq_of_arrival came
  have outcome := underway.outcome
  rw [same_route, at_clock, with_message, ← underway.message] at outcome
  refine ⟨outcome, ?_, fun {d leg} here ↦ ?_⟩
  · exact length_legs_of_runs scripted.runs found
  · have tracks := (underway.courses here).tracks (scripted.followed d)
    rw [mode_of_runs scripted.runs, ← underway.message] at tracks
    exact tracks.endsAlone (safe_of_calm scripted.runs scripted.running scripted.calm found here)
      (settled leg (List.mem_of_getElem? here))

/-- **What a run tells of the message in the end is what is told of it alone.** -/
theorem told (scripted : Scripted s route past r clock c m scripts) (here : mo ∈ past) {v : Verdict}
    (given : .verdict c v ∈ mo.outputs) : ToldAlone route clock c m scripts mo.outputs := by
  obtain ⟨earlier, later, split, before, step, after⟩ := scripted.runs.at_moment here
  have same_route : mo.before.route = route := (kept_of_runs before).route
  obtain ⟨m', arrives⟩ | resolves := caused_of_step step _ given
  · have arrived : mo.action = (mo.action.1, .handle c m') := Prod.ext rfl arrives
    obtain ⟨at_clock, with_message, early⟩ := scripted.eq_of_arrival (mem_arrivals here arrived)
    obtain rfl : m' = m := with_message
    have step : mo.before.step? clock (.handle c m') = some (mo.after, mo.outputs) := by
      rw [← at_clock, ← arrives]
      exact step
    obtain ⟨-, ⟨late, -⟩ | ⟨reason, -, outcome, -, all⟩ | ⟨sent, -, -, -, all⟩⟩ :=
      handle?_cases step
    · rw [late] at early
      cases early
    · rw [same_route] at outcome
      rw [all, arrivalOutputs, same_route]
      exact .dropped outcome
    · rw [all] at given
      exact absurd given (by simp [arrivalOutputs])
  · have resolved : mo.before.step? mo.action.1 (.resolve c) = some (mo.after, mo.outputs) :=
      resolves ▸ step
    obtain ⟨h, found, settled, all⟩ := (sound_of_runs before).conclusion_of_resolve resolved
    obtain ⟨x, sent, underway⟩ := (story_of_runs before c).underway found
    have so_far := scripted.of_later before ((Execution.refl.snoc step).trans after) split
      (by simp [underway.came])
    obtain ⟨outcome, alone⟩ := so_far.allEndAlone found settled
    obtain rfl := (mem_handlings found).2
    rw [all, same_route]
    exact .concluded outcome alone

end Scripted

/-! ## Runs that come to rest -/

theorem replies_of_no_destination (runs : Runs s route past r) {d : Nat}
    (hd : route.destinations.length ≤ d) : replies c d past = [] :=
  replies_of_idle (idle_of_no_destination runs hd c).2

theorem scripted_ofRest {later : Past} {idle : Nat → Clock × Action}
    (runs : Runs s route past r) (exec : Execution act r later r')
    (rest : ∀ t, act r' (idle t) = some (r', [])) (no_crash : ∀ t i j, (idle t).2 ≠ .crash i j)
    (silent : ∀ t i j answer, (idle t).2 ≠ .reply i j answer)
    (arrived : ∃ mo ∈ past, mo.action = (clock, .handle c m)) (running : r'.cancelled = false)
    (calm : Calm (past ++ later))
    (followed : ∀ d, d < route.destinations.length →
      (scripts d).Followed (replies c d (past ++ later))) (t : Nat) :
    Scripted s route (past ++ (Endless.ofRest exec rest).past t)
      ((Endless.ofRest exec rest).state t) clock c m scripts := by
  obtain ⟨mo, here, arrives⟩ := arrived
  have at_rest (t : Nat) (ht : later.length ≤ t) :
      Scripted s route (past ++ (Endless.ofRest exec rest).past t)
        ((Endless.ofRest exec rest).state t) clock c m scripts := by
    induction t, ht using Nat.le_induction with
    | base =>
      rw [Endless.past_ofRest, Endless.state_ofRest exec rest (Nat.le_refl _)]
      refine ⟨runs.trans exec, running, calm, ⟨mo, List.mem_append_left _ here, arrives⟩,
        fun d ↦ ?_⟩
      rcases Nat.lt_or_ge d route.destinations.length with hd | hd
      · exact followed d hd
      · rw [replies_of_no_destination (runs.trans exec) hd]
        exact fun k reply here ↦ nomatch here
    | succ t ht ih =>
      have idles := congrArg Prod.snd (Endless.action_ofRest exec rest ht)
      have step : ((Endless.ofRest exec rest).state t).step?
          ((Endless.ofRest exec rest).action t).1 ((Endless.ofRest exec rest).action t).2 =
            some ((Endless.ofRest exec rest).state (t + 1), (Endless.ofRest exec rest).outputs t) :=
        (Endless.ofRest exec rest).steps t
      rw [Endless.past_succ, ← List.append_assoc]
      refine ih.step step ?_ (idles ▸ no_crash t) (idles ▸ silent t)
      rw [Endless.state_ofRest exec rest (Nat.le_succ_of_le ht)]
      exact running
  rcases Nat.le_total later.length t with late | early
  · exact at_rest t late
  · obtain ⟨more, split, after⟩ := (Endless.ofRest exec rest).exists_later early
    apply (at_rest later.length (Nat.le_refl _)).of_later
      (runs.trans ((Endless.ofRest exec rest).execution t)) after
    · rw [split, List.append_assoc]
    · exact List.ne_nil_of_mem (mem_arrivals (List.mem_append_left _ here) arrives)

/-- What it means for a message that its destinations are independent. -/
structure Independence (s : EngineSettings) (route : CompiledRoute) (past : Past) (r : Running)
    (clock : Clock) (c : Nat) (m : Message) (scripts : Nat → Script) : Prop where
  /-- Whatever a run tells of the message in the end is told of it alone, -/
  result : ∀ {mo : Moment Running (Clock × Action) Output} {v : Verdict}, mo ∈ past →
    .verdict c v ∈ mo.outputs → ToldAlone route clock c m scripts mo.outputs
  /-- which is one thing only. -/
  single : ∀ {outputs outputs' : List Output}, ToldAlone route clock c m scripts outputs →
    ToldAlone route clock c m scripts outputs' → outputs = outputs'
  /-- What is told of the message alone is told in every run that goes on like this and in which
  everyone has their turn, unless the caller leaves. -/
  returns : ∀ {outputs : List Output}, ToldAlone route clock c m scripts outputs →
    ∀ run : Endless act r, Even run →
      (∀ t, Scripted s route (past ++ run.past t) (run.state t) clock c m scripts) →
      ∃ t, Abandoned c (past ++ run.past t) ∨ ∃ mo ∈ past ++ run.past t, mo.outputs = outputs

theorem exists_of_verdict {v : Verdict} (given : v ∈ verdicts c past) :
    ∃ mo ∈ past, .verdict c v ∈ mo.outputs :=
  Moment.mem_told.mp (told_of_verdict? given)

/-- **Independence of destinations.** In a run in which the token does not fire and no publish
crashes, what becomes of a message depends only on the answers to its own publishes. -/
theorem independence (scripted : Scripted s route past r clock c m scripts) :
    Independence s route past r clock c m scripts := by
  refine ⟨fun here given ↦ scripted.told here given, ToldAlone.unique,
    fun {outputs} alone run even goes_on ↦ ?_⟩
  have of_verdict {t : Nat} {mo : Moment Running (Clock × Action) Output} {v : Verdict}
      (here : mo ∈ past ++ run.past t) (given : .verdict c v ∈ mo.outputs) :
      ∃ mo ∈ past ++ run.past t, mo.outputs = outputs :=
    ⟨mo, here, ((goes_on t).told here given).unique alone⟩
  have of_told {v : Verdict} (told : verdicts c past = [v]) :
      ∃ mo ∈ past ++ run.past 0, mo.outputs = outputs := by
    obtain ⟨mo, here, given⟩ := exists_of_verdict (told ▸ List.mem_singleton_self v)
    exact of_verdict (List.mem_append_left _ here) given
  -- whoever is still handled leaves in the end; of all others the verdict has been given
  cases story_of_runs scripted.runs c with
  | unheard came => exact absurd came scripted.came
  | turnedAway came late =>
    obtain ⟨-, -, early⟩ := scripted.eq_of_arrival (came ▸ List.mem_singleton_self _)
    rw [late] at early
    cases early
  | dropped _ _ _ told => exact ⟨0, .inr (of_told told)⟩
  | resolved _ _ _ told => exact ⟨0, .inr (of_told told)⟩
  | abandoned _ _ _ _ _ left =>
    obtain ⟨mo, here, leaves⟩ := left
    exact ⟨0, .inl ⟨mo, List.mem_append_left _ here, leaves⟩⟩
  | @handled x sent h underway =>
    have same_route : r.route = route := (kept_of_runs scripted.runs).route
    obtain ⟨at_clock, with_message, -⟩ :=
      scripted.eq_of_arrival (underway.came ▸ List.mem_singleton_self x)
    have outcome := underway.outcome
    rw [same_route, at_clock, with_message] at outcome
    have und : Undisturbed s route past run :=
      ⟨scripted.runs, fun t ↦ (goes_on t).running, fun t ↦ (goes_on t).calm⟩
    have ends (d : Nat) (hd : d < route.destinations.length) :
        ∃ leg, Leg.EndsAlone route.mode sent (scripts d) leg := by
      cases alone with
      | dropped outcome' =>
        rw [outcome] at outcome'
        cases outcome'
      | concluded outcome' alone =>
        rw [outcome] at outcome'
        cases outcome'
        exact alone.exists_end hd
    obtain ⟨u, gone⟩ := und.leaves even (scripted.prepared outcome) scripted.came
      (fun t d ↦ (goes_on t).followed d) ends
    obtain ⟨v, abandons | ⟨_, -, -, given⟩⟩ := leaves_of_gone run und.sound underway.found gone
    all_goals
      have here : run.moment v ∈ past ++ run.past (v + 1) := by
        rw [run.past_succ]
        exact List.mem_append_right _ (List.mem_append_right _ List.mem_cons_self)
    · exact ⟨v + 1, .inl ⟨run.moment v, here, abandons⟩⟩
    · exact ⟨v + 1, .inr (of_verdict here given)⟩

/-- The first destination has another message in its lane and refuses this one once. -/
theorem independence_of_traffic : ∃ past r, ∃ run : Endless act r, ∃ scripts : Nat → Script,
    Runs oneLane { pairOnce with mode := .persistent } past r ∧ Even run ∧
      (∀ t, Scripted oneLane { pairOnce with mode := .persistent } (past ++ run.past t)
        (run.state t) ⟨0, 0⟩ 1 note scripts) ∧
      verdicts 1 (past ++ run.past 17) = [.ok ()] ∧
      Independence oneLane { pairOnce with mode := .persistent } past r ⟨0, 0⟩ 1 note scripts := by
  have runs := (Execution.refl : Runs oneLane { pairOnce with mode := .persistent } [] _)
    |>.snoc (a := (⟨0, 0⟩, .handle 0 note)) rfl
    |>.snoc (a := (⟨0, 0⟩, .submit 0 0)) rfl
    |>.snoc (a := (⟨0, 0⟩, .handle 1 note)) rfl
  let scripts : Nat → Script :=
    fun d k ↦ if d = 0 ∧ k = 0 then (.error .closed, 0) else (.ok (), 0)
  refine ⟨_, _, ?run, scripts, runs, ?_⟩
  case run =>
    -- the last step stands first
    exact .ofRest (a := fun t ↦ (⟨t, 0⟩, .forsake))
      (.snoc (a := (⟨50, 0⟩, .forsake))
        (.snoc (a := (⟨50, 0⟩, .resolve 0))
        (.snoc (a := (⟨50, 0⟩, .reply 1 0 (.ok ())))
        (.snoc (a := (⟨50, 0⟩, .take 1 0))
        (.snoc (a := (⟨50, 0⟩, .submit 0 1))
        (.snoc (a := (⟨50, 0⟩, .resolve 1))
        (.snoc (a := (⟨50, 0⟩, .reply 0 0 (.ok ())))
        (.snoc (a := (⟨50, 0⟩, .take 0 0))
        (.snoc (a := (⟨50, 0⟩, .submit 1 0))
        (.snoc (a := (⟨50, 0⟩, .wake 1 0))
        (.snoc (a := (⟨0, 0⟩, .reply 0 0 (.error .closed)))
        (.snoc (a := (⟨0, 0⟩, .take 0 0))
        (.snoc (a := (⟨0, 0⟩, .reply 0 0 (.ok ())))
        (.snoc (a := (⟨0, 0⟩, .reply 1 0 (.ok ())))
        (.snoc (a := (⟨0, 0⟩, .take 0 0))
        (.snoc (a := (⟨0, 0⟩, .take 1 0))
        (.snoc (a := (⟨0, 0⟩, .submit 1 1))
        (.snoc (a := (⟨0, 0⟩, .submit 1 0)) .refl rfl)
        rfl) rfl) rfl) rfl) rfl) rfl) rfl) rfl) rfl) rfl) rfl) rfl) rfl) rfl) rfl) rfl) rfl)
      (fun _ ↦ rfl)
  refine ⟨even_ofRest _ _ (fun now ↦ ⟨now, fun t ht ↦ ht⟩) (fun _ ↦ rfl) ?free,
    scripted_ofRest runs _ _ (fun _ _ _ ↦ nofun) (fun _ _ _ _ ↦ nofun)
      ⟨_, List.mem_concat_self, rfl⟩ rfl (by decide) ?follows, rfl,
    independence ⟨runs, rfl, by decide, ⟨_, List.mem_concat_self, rfl⟩,
      fun d k reply here ↦ nomatch here⟩⟩
  case free =>
    intro i j
    match i, j with
    | 0, 0 | 1, 0 => rfl
    | 0, j + 1 | 1, j + 1 => rfl
    | i + 2, j => rfl
  case follows =>
    intro d hd
    match d, hd with
    | 0, _ => decide
    | 1, _ => decide

end Running

end MessageBridge
