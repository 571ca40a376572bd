import MessageBridge.Proofs.Delivery.Unstamped
import MessageBridge.Proofs.Route.Commit
import MessageBridge.Proofs.Route.Deliveries

/-!
# Routes that differ in their mode

Of all the steps of a running route only the answer to a job asks the mode, and it asks about the
message that the job was for. So a route whose messages are decided about alike by another mode runs
as it would in that mode: every action can happen in both or in neither, leads to the same state but
for the mode, and tells the same (`Running.run?_withMode`).

`Running.like_persistent` applies this to messages without a creation time and to policies that
bound the time to live but not the attempts.
-/

namespace MessageBridge

/-- The route with another mode. -/
def CompiledRoute.withMode (mode : DeliveryMode) (route : CompiledRoute) : CompiledRoute :=
  { route with mode }

theorem CompiledRoute.prepare_withMode (mode : DeliveryMode) (route : CompiledRoute) (wall : Int)
    (m : Message) : (route.withMode mode).prepare wall m = route.prepare wall m := rfl

theorem CompiledRoute.unstamped_of_prepare {route : CompiledRoute} {wall : Int} {m sent : Message}
    (unstamped : m.Unstamped) (passed : (route.prepare wall m).outcome = .ok sent) :
    sent.Unstamped := unstamped.of_age (age?_of_prepare passed)

/-- Modes that decide alike about a message do so about what it is prepared to. -/
theorem DeliveryMode.AlikeFor.of_prepare {route : CompiledRoute} {wall : Int} {m sent : Message}
    {mode mode' : DeliveryMode} (alike : mode.AlikeFor m mode')
    (passed : (route.prepare wall m).outcome = .ok sent) : mode.AlikeFor sent mode' := by
  intro attempts now
  rw [CompiledRoute.age?_of_prepare passed]
  exact alike attempts now

namespace Running

/-- The running route with another mode. -/
def withMode (mode : DeliveryMode) (r : Running) : Running :=
  { r with route := r.route.withMode mode }

/-- The reaction of the running route with another mode. -/
def reactWith (mode : DeliveryMode) (reaction : Reaction) : Reaction :=
  (reaction.1.withMode mode, reaction.2)

variable {clock : Clock} {r r' : Running} {mode : DeliveryMode} {outputs : List Output} {a : Action}

/-- The mode and another one decide alike about every message that is handled. -/
def AlikeIn (mode : DeliveryMode) (r : Running) : Prop :=
  ∀ {call h}, r.handling? call = some h → r.route.mode.AlikeFor h.message mode

/-- What is done alike with anything that is found is done alike. -/
private theorem bind_reactWith {α : Type} {o : Option α} {g g' : α → Option Reaction}
    (same : ∀ x, o = some x → g' x = (g x).map (reactWith mode)) :
    o.bind g' = (o.bind g).map (reactWith mode) := by
  cases o with
  | none => rfl
  | some x => exact same x rfl

private theorem ite_reactWith {p : Prop} [Decidable p] {x x' y y' : Option Reaction}
    (same : x' = x.map (reactWith mode)) (other : y' = y.map (reactWith mode)) :
    (if p then x' else y') = (if p then x else y).map (reactWith mode) := by
  split
  · exact same
  · exact other

/-! ## Answers -/

theorem answerJob?_withMode {d : Nat} {j : Job} {answer : JobAnswer}
    (alike : answer = .lost ∨ r.AlikeIn mode) :
    (r.withMode mode).answerJob? clock d j answer =
      (r.answerJob? clock d j answer).map (reactWith mode) := by
  refine bind_reactWith (o := r.handling? j.call) fun h found ↦ ?_
  refine bind_reactWith (o := h.legs[d]?) fun leg _ ↦ ?_
  have same : leg.answer (r.withMode mode).plan clock.now (h.message.age? clock.wall) answer =
      leg.answer r.plan clock.now (h.message.age? clock.wall) answer := by
    obtain rfl | alike := alike
    · rfl
    · exact Leg.answer_congr r.plan (alike found) clock.now clock.wall leg answer
  simp only [same]
  split <;> rfl

theorem loseJobs_withMode (d : Nat) (jobs : List Job) :
    (r.withMode mode).loseJobs clock d jobs = (r.loseJobs clock d jobs).withMode mode := by
  induction jobs generalizing r with
  | nil => rfl
  | cons j jobs ih =>
    rw [loseJobs, loseJobs, List.foldl_cons, List.foldl_cons, answerJob?_withMode (.inl rfl)]
    cases r.answerJob? clock d j .lost with
    | none => exact ih
    | some reaction => exact ih

/-! ## Steps -/

private theorem handle?_withMode (call : Nat) (m : Message) :
    (r.withMode mode).handle? clock call m = (r.handle? clock call m).map (reactWith mode) := by
  have prepared : (r.withMode mode).route.prepare clock.wall m = r.route.prepare clock.wall m :=
    CompiledRoute.prepare_withMode mode r.route clock.wall m
  have new : (r.withMode mode).nextCall = r.nextCall := rfl
  have phase : (r.withMode mode).phase = r.phase := rfl
  have cancelled : (r.withMode mode).cancelled = r.cancelled := rfl
  unfold handle?
  simp only [prepared, new, phase, cancelled]
  split
  · rfl
  · split
    · rfl
    · split <;> rfl

private theorem submit?_withMode (call d : Nat) :
    (r.withMode mode).submit? clock call d = (r.submit? clock call d).map (reactWith mode) := by
  refine bind_reactWith (o := r.handling? call) fun h _ ↦ ?_
  refine bind_reactWith (o := h.legs[d]?) fun leg _ ↦ ?_
  refine bind_reactWith (o := r.pools[d]?) fun pool _ ↦ ?_
  split
  · dsimp only
    split
    · rfl
    · exact congrArg (fun r' ↦ some (r', []))
        (loseJobs_withMode (r := (r.setLeg call d leg.submit).setPool d _) d _)
  · rfl

private theorem resolve?_withMode (call : Nat) :
    (r.withMode mode).resolve? call = (r.resolve? call).map (reactWith mode) := by
  refine bind_reactWith (o := r.handling? call) fun h _ ↦ ?_
  have failures : (r.withMode mode).failures h = r.failures h := rfl
  simp only [failures]
  split
  · cases r.failures h <;> rfl
  · rfl

private theorem reply?_withMode (alike : r.AlikeIn mode) (i j : Nat)
    (answer : Except BusError Unit) :
    (r.withMode mode).reply? clock i j answer =
      (r.reply? clock i j answer).map (reactWith mode) := by
  refine bind_reactWith (o := r.pools[i]?) fun p _ ↦ ?_
  refine bind_reactWith (o := p.finish? j) fun finished _ ↦ ?_
  have alike' : (r.setPool i finished.2).AlikeIn mode := alike
  have heard : ((r.setPool i finished.2).withMode mode).answerJob? clock i finished.1
      (jobAnswer answer) = ((r.setPool i finished.2).answerJob? clock i finished.1
        (jobAnswer answer)).map (reactWith mode) := answerJob?_withMode (.inr alike')
  have set : (r.withMode mode).setPool i finished.2 = (r.setPool i finished.2).withMode mode := rfl
  simp only [set, heard]
  cases (r.setPool i finished.2).answerJob? clock i finished.1 (jobAnswer answer) <;> rfl

private theorem join?_withMode : (r.withMode mode).join? = r.join?.map (reactWith mode) := by
  have phase : (r.withMode mode).phase = r.phase := rfl
  have worker (place : Nat × Nat) : (r.withMode mode).workerState? place = r.workerState? place :=
    rfl
  unfold join?
  simp only [phase, worker]
  split
  · rfl
  · split <;> rfl
  · rfl

private theorem forsake_withMode : (r.withMode mode).forsake = r.forsake.withMode mode := by
  have phase : (r.withMode mode).phase = r.phase := rfl
  unfold forsake
  simp only [phase]
  split <;> rfl

/-- **A step asks the mode about messages that are handled, and about nothing else.** -/
theorem step?_withMode (alike : r.AlikeIn mode) (a : Action) :
    (r.withMode mode).step? clock a = (r.step? clock a).map (reactWith mode) := by
  cases a with
  | handle call m => exact handle?_withMode call m
  | abandon call =>
    rw [step?, step?, Option.map_map]
    rfl
  | submit call d => exact submit?_withMode call d
  | wake call d =>
    refine bind_reactWith (o := r.leg? call d) fun leg _ ↦ ?_
    exact bind_reactWith (o := leg.wake? clock.now) fun _ _ ↦ rfl
  | breakOff call d =>
    refine bind_reactWith (o := r.handling? call) fun h _ ↦ ?_
    refine bind_reactWith (o := h.legs[d]?) fun leg _ ↦ ?_
    refine bind_reactWith (o := leg.breakOff?) fun _ _ ↦ ?_
    exact ite_reactWith rfl rfl
  | resolve call => exact resolve?_withMode call
  | take i j =>
    refine bind_reactWith (o := r.pools[i]?) fun p _ ↦ ?_
    exact bind_reactWith (o := p.take? j) fun _ _ ↦ rfl
  | reply i j answer => exact reply?_withMode alike i j answer
  | crash i j =>
    refine bind_reactWith (o := r.pools[i]?) fun p _ ↦ ?_
    refine bind_reactWith (o := p.crash? j) fun crashed _ ↦ ?_
    exact congrArg (fun r' ↦ some (r', []))
      (loseJobs_withMode (r := r.setPool i crashed.2) i crashed.1)
  | drain i j =>
    refine bind_reactWith (o := r.pools[i]?) fun p _ ↦ ?_
    refine bind_reactWith (o := p.drain? j) fun drained _ ↦ ?_
    exact congrArg (fun r' ↦ some (r', []))
      (loseJobs_withMode (r := r.setPool i drained.2) i drained.1)
  | retire i j =>
    refine bind_reactWith (o := r.pools[i]?) fun p _ ↦ ?_
    exact bind_reactWith (o := p.end? j) fun _ _ ↦ rfl
  | cancel => rfl
  | stop =>
    rw [step?, step?, stop?, stop?]
    exact ite_reactWith rfl rfl
  | closePools =>
    rw [step?, step?, closePools?, closePools?]
    exact ite_reactWith rfl rfl
  | join => exact join?_withMode
  | forsake => exact congrArg (fun r' ↦ some (r', [])) forsake_withMode
  | release =>
    rw [step?, step?, release?, release?]
    exact ite_reactWith rfl rfl

/-! ## Runs -/

theorem AlikeIn.step (alike : r.AlikeIn mode) (sound : r.Sound)
    (arriving : ∀ call m, a = .handle call m → r.route.mode.AlikeFor m mode)
    (step : r.step? clock a = some (r', outputs)) : r'.AlikeIn mode := by
  intro call h' found
  rw [(kept_of_step step).route]
  obtain ⟨h, before, follows⟩ | ⟨m, m', rfl, rfl⟩ := sound.handling_of_step step found
  · rw [follows.message]
    exact alike before
  · obtain ⟨new, ⟨-, rfl, -⟩ | ⟨_, -, -, rfl, -⟩ | ⟨sent, -, passed, rfl, -⟩⟩ := handle?_cases step
    · exact absurd (sound.handling_lt found) (Nat.not_lt.mpr new)
    · exact absurd (sound.handling_lt found) (Nat.not_lt.mpr new)
    · have nobody : r.handling? call = none :=
        Option.eq_none_iff_forall_not_mem.mpr fun h before ↦
          absurd (sound.handling_lt before) (Nat.not_lt.mpr new)
      rw [handling?_concat rfl, nobody, if_pos rfl] at found
      cases found
      exact (arriving call m rfl).of_prepare passed

/-- **A route runs as it would in a mode that decides alike about all messages that arrive.** -/
theorem run?_withMode {acts : List (Clock × Action)} (sound : r.Sound) (alike : r.AlikeIn mode)
    (arriving : ∀ clock call m, (clock, .handle call m) ∈ acts → r.route.mode.AlikeFor m mode) :
    (r.withMode mode).run? acts = (r.run? acts).map (reactWith mode) := by
  induction acts generalizing r with
  | nil => rfl
  | cons act acts ih =>
    obtain ⟨clock, a⟩ := act
    rw [run?, run?, step?_withMode alike]
    cases step : r.step? clock a with
    | none => rfl
    | some reaction =>
      obtain ⟨r', outputs⟩ := reaction
      have later := ih (sound.step step)
        (alike.step sound
          (fun call m same ↦ arriving clock call m (same ▸ List.mem_cons_self)) step)
        fun clock call m mem ↦ by
          rw [(kept_of_step step).route]
          exact arriving clock call m (List.mem_cons_of_mem _ mem)
      simp only [Option.bind_eq_bind, Option.map_some, Option.bind_some, reactWith, later]
      cases r'.run? acts <;> rfl

/-- Whatever else a route is busy with, a leg is a delivery of every mode that decides alike about
its message. -/
theorem delivery_withMode {s : EngineSettings} {route : CompiledRoute} {past : Past} {call d : Nat}
    {h : Handling} {leg : Leg} (runs : Runs s route past r) (found : r.handling? call = some h)
    (here : h.legs[d]? = some leg) (alike : route.mode.AlikeFor h.message mode) :
    ∃ meets n, Delivery.after ⟨mode, s.backoff⟩ h.message meets n = ⟨deeds call d past, leg⟩ ∧
      meets.Fits (replies call d past) := by
  obtain ⟨meets, stands, fits⟩ := delivery_of_runs runs found here
  obtain ⟨n, there⟩ := stands.exists_after
  rw [(kept_of_runs runs).plan] at there
  have same := Delivery.after_congr ⟨route.mode, s.backoff⟩ alike meets n
  exact ⟨meets, n, same.trans there, fits⟩

/-! ## Policies without a bound on the attempts -/

/-- A policy does nothing about messages without a creation time that the persistent mode does
not. -/
structure LikePersistent (policy : DropPolicy) : Prop where
  /-- A message without a creation time is prepared to one. -/
  prepared : ∀ {route : CompiledRoute} {wall : Int} {m sent : Message}, m.Unstamped →
    (route.prepare wall m).outcome = .ok sent → sent.Unstamped
  /-- Whatever a delivery of one hears from its lane, whatever the clocks read and whenever it is
  told to stop, it does the same after any number of steps, stands at the same point, and has not
  been given up. -/
  deliveries : ∀ {backoff : Backoff} {m : Message}, m.Unstamped →
    ∀ (meets : Circumstances) (n : Nat),
      Delivery.after ⟨.drop policy, backoff⟩ m meets n =
          Delivery.after ⟨.persistent, backoff⟩ m meets n ∧
        ∀ reason, (Delivery.after ⟨.drop policy, backoff⟩ m meets n).leg.result? ≠
          some (.tolerated reason)
  /-- In a route that is busy with messages of all kinds, the legs of one are deliveries of the
  persistent mode that hear the same answers, and none of them is given up. -/
  legs : ∀ {s : EngineSettings} {route : CompiledRoute} {past : Past} {r : Running} {call d : Nat}
    {h : Handling} {leg : Leg}, Runs s (route.withMode (.drop policy)) past r →
    (∀ x ∈ arrivals call past, x.message.Unstamped) → r.handling? call = some h →
    h.legs[d]? = some leg →
    (∃ meets n, Delivery.after ⟨.persistent, s.backoff⟩ h.message meets n =
        ⟨deeds call d past, leg⟩ ∧ meets.Fits (replies call d past)) ∧
      ∀ reason, leg.result? ≠ some (.tolerated reason)
  /-- A route that receives no other messages can do the same, one action after the other, as it
  could in the persistent mode, and tells the same. -/
  runs : ∀ (s : EngineSettings) (route : CompiledRoute) {acts : List (Clock × Action)},
    (∀ clock call m, (clock, .handle call m) ∈ acts → m.Unstamped) →
    (ofRoute s (route.withMode .persistent)).run? acts =
      ((ofRoute s (route.withMode (.drop policy))).run? acts).map (reactWith .persistent)

/-- **Messages without a creation time are never dropped in silence.** -/
theorem like_persistent {policy : DropPolicy} (unlimited : policy.maxAttempts = none) :
    LikePersistent policy := by
  have alike {m : Message} (unstamped : m.Unstamped) : (DeliveryMode.drop policy).AlikeFor m
      .persistent := DropPolicy.alikeFor_persistent unlimited unstamped
  refine ⟨CompiledRoute.unstamped_of_prepare, fun {backoff m} unstamped meets n ↦ ?_,
    fun {s route past r call d h leg} runs arriving found here ↦ ?_,
    fun s route acts arriving ↦ ?_⟩
  · have same : Delivery.after ⟨.persistent, backoff⟩ m meets n =
        Delivery.after ⟨.drop policy, backoff⟩ m meets n :=
      Delivery.after_congr ⟨.drop policy, backoff⟩ (alike unstamped) meets n
    exact ⟨same.symm, same ▸ Delivery.result?_ne_tolerated _ rfl meets n⟩
  · obtain ⟨x, m, underway⟩ := (story_of_runs runs call).underway found
    have came : x ∈ arrivals call past := underway.came ▸ List.mem_singleton_self x
    have unstamped : h.message.Unstamped := underway.message ▸
      CompiledRoute.unstamped_of_prepare (arriving x came) underway.outcome
    obtain ⟨meets, n, there, fits⟩ := delivery_withMode runs found here (alike unstamped)
    refine ⟨⟨meets, n, there, fits⟩, fun reason ↦ ?_⟩
    have never := Delivery.result?_ne_tolerated ⟨.persistent, s.backoff⟩ (m := h.message)
      rfl meets n reason
    rw [there] at never
    exact never
  · refine run?_withMode (r := ofRoute s (route.withMode (.drop policy)))
      (sound_ofRoute s _) ?_ fun clock call m mem ↦ alike (arriving clock call m mem)
    exact fun found ↦ nomatch found

/-- A time to live and no bound on the attempts. -/
def timeOnly : DropPolicy := ⟨some ⟨1500001⟩, none⟩

/-- Refusals, the last of which is followed by a wait that is broken off. -/
def refusedTwice : Circumstances where
  answer _ := .refused .closed
  clock k := ⟨k, 10000000 + k⟩
  brokenOff k := k == 2

/-- A message arrives and its first publish is refused. -/
def refusedOnce (m : Message) : List (Clock × Action) :=
  [(⟨0, 10000000⟩, .handle 0 m), (⟨0, 10000000⟩, .submit 0 0), (⟨0, 10000000⟩, .take 0 0),
    (⟨1, 10000001⟩, .reply 0 0 (.error .closed)), (⟨51, 10000051⟩, .wake 0 0)]

/-- A creation time that is no number keeps a message from being given up, so its delivery goes on
until it is broken off. The same message goes through a route to the second attempt. -/
theorem like_persistent_of_text :
    timeOnly.maxAttempts = none ∧ (DropPolicy.dated (.string "soon")).Unstamped ∧
    Delivery.after ⟨.drop timeOnly, .standard⟩ (DropPolicy.dated (.string "soon")) refusedTwice 9 =
      ⟨[.submit, .wait 51, .submit, .wait 102], 2, some .closed, .settled (.failed .cancelled)⟩ ∧
    ∃ r outputs, (ofRoute oneLane (pairOnce.withMode .persistent)).run?
        (refusedOnce (DropPolicy.dated (.string "soon"))) = some (r, outputs) ∧
      r.leg? 0 0 = some ⟨1, some .closed, .ready⟩ := by
  have unstamped : (DropPolicy.dated (.string "soon")).Unstamped :=
    Message.unstamped_iff.mpr fun t created ↦ by
      rw [← Message.createdAt?_eq_some_iff] at created
      cases created
  have like : LikePersistent timeOnly := like_persistent rfl
  refine ⟨rfl, unstamped, ?_, ?_⟩
  · rw [(like.deliveries unstamped refusedTwice 9).1]
    decide
  · rw [like.runs oneLane pairOnce]
    · exact ⟨_, _, rfl, rfl⟩
    · intro clock call m mem
      simp only [refusedOnce, List.mem_cons, Prod.mk.injEq, Action.handle.injEq, reduceCtorEq,
        and_false, List.not_mem_nil, or_self, or_false] at mem
      obtain ⟨rfl, rfl, rfl⟩ := mem
      exact unstamped

end Running

end MessageBridge
