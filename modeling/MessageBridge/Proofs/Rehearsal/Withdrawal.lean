import MessageBridge.Proofs.Engine.Withdrawal
import MessageBridge.Proofs.Rehearsal.AllOrNothing
import MessageBridge.Proofs.Rehearsal.Sources

/-!
# A refused start returns

Whoever starts routes on connectors that have just been built, and is refused, waits for the end of
the run that takes itself back. Nothing else goes on in such a world: no message is on its way, and
no publish. The run comes to its end, and apart from it only dispatchers end whose subscription is
cancelled. So there is a number, `World.toReturn`, that everything that happens by itself makes
smaller (`Returning.next`), and when nothing can happen any more the call has its answer
(`Returning.outcome`).

With the seats of sources this settles starts on connectors that have just been built
(`starts_exactly`): the routes of a table run if it compiles and names no source twice; otherwise
the start returns the defect of the table, or the refusal of the first route whose source was named
before.
-/

namespace MessageBridge.Rehearsal

/-! ## Connectors on which nothing goes on -/

namespace Connector

section Lists

variable {α β : Type} {f : α → Option (β × α)} {xs xs' : List α} {b : β}

theorem updateFirst_eq_some (changed : updateFirst f xs = some (b, xs')) :
    ∃ i a a', xs[i]? = some a ∧ f a = some (b, a') ∧ xs' = xs.set i a' := by
  induction xs generalizing xs' with
  | nil => cases changed
  | cons a rest ih =>
    rw [updateFirst] at changed
    split at changed
    · rename_i step
      cases changed
      exact ⟨0, a, _, rfl, step, rfl⟩
    · obtain ⟨⟨b', rest'⟩, later, done⟩ := Option.map_eq_some_iff.mp changed
      cases done
      obtain ⟨i, x, x', found, step, rfl⟩ := ih later
      exact ⟨i + 1, x, x', found, step, rfl⟩

theorem updateFirst_eq_none (still : ∀ a ∈ xs, f a = none) : updateFirst f xs = none := by
  induction xs with
  | nil => rfl
  | cons a rest ih =>
    rw [updateFirst, still a List.mem_cons_self, ih fun x hx ↦ still x (List.mem_cons_of_mem _ hx)]
    rfl

end Lists

/-- Dispatchers have nothing to hand over. -/
def Emptied (i : Memory.Ingress Subscriber) : Prop :=
  ∀ d, i.dispatcher = some d → d.deliveries.contents = []

/-- A connector in memory on which nothing goes on: there is nothing to hand over, no publish is
under way, and nobody waits for records. -/
def Silent (c : Connector) : Prop :=
  ∃ k, c = .memory k ∧ (∀ i ∈ k.ingresses, Emptied i) ∧
    ∀ e ∈ k.egresses, e.pending = [] ∧ e.waits = []

/-- The number of dispatchers of a connector in memory. -/
def dispatchers : Connector → Nat
  | memory k => (k.ingresses.map fun i ↦ i.dispatcher.toList.length).sum
  | _ => 0

variable {c c' : Connector}

theorem silent_ofNames (name : String) (sources targets : List String) :
    (memory (.ofNames name sources targets)).Silent := by
  refine ⟨_, rfl, fun i hi d found ↦ ?_, fun e he ↦ ?_⟩
  · obtain ⟨source, -, rfl⟩ := List.mem_map.mp hi
    cases found
  · obtain ⟨target, -, rfl⟩ := List.mem_map.mp he
    exact ⟨rfl, rfl⟩

theorem Silent.heed (silent : c.Silent) (cancelled : Nat → Bool) :
    (c.heed cancelled).Silent ∧ (c.heed cancelled).dispatchers = c.dispatchers := by
  obtain ⟨k, rfl, emptied, egresses⟩ := silent
  refine ⟨⟨_, rfl, fun i hi d found ↦ ?_, egresses⟩, ?_⟩
  · obtain ⟨i, mem, rfl⟩ := List.mem_map.mp hi
    split at found
    · obtain ⟨d, there, rfl⟩ := Option.map_eq_some_iff.mp found
      exact emptied i mem d there
    · exact emptied i mem d found
  · rw [Connector.heed, dispatchers, dispatchers, List.map_map]
    refine congrArg List.sum (List.map_congr_left fun i _ ↦ ?_)
    rw [Function.comp_apply]
    split
    · rw [Memory.Ingress.cancel]
      cases i.dispatcher <;> rfl
    · rfl

theorem Silent.startIngress (silent : c.Silent) (place : Nat) (s : Subscriber) :
    (c.startIngress place s).2.Silent := by
  obtain ⟨k, rfl, emptied, egresses⟩ := silent
  rw [Connector.startIngress]
  split
  · exact ⟨k, rfl, emptied, egresses⟩
  · split
    · rename_i started
      refine ⟨_, rfl, fun i hi d found ↦ ?_, egresses⟩
      rcases List.mem_or_eq_of_mem_set hi with hi | rfl
      · exact emptied i hi d found
      · unfold Memory.Ingress.start at started
        split at started
        · cases started
        · split at started
          · cases started
          · cases started
            cases found
            rfl
    · exact ⟨k, rfl, emptied, egresses⟩

theorem Silent.halt? {calls : List Nat} (silent : c.Silent) (halts : c.halt? = some (calls, c')) :
    calls = [] ∧ c'.Silent ∧ c'.dispatchers < c.dispatchers := by
  obtain ⟨k, rfl, emptied, egresses⟩ := silent
  obtain ⟨⟨calls', ingresses⟩, changed, done⟩ := Option.map_eq_some_iff.mp halts
  cases done
  obtain ⟨j, i, i', found, ends, rfl⟩ := updateFirst_eq_some changed
  simp only [Memory.Ingress.halt?, Option.bind_eq_bind, Option.bind_eq_some_iff] at ends
  obtain ⟨d, there, ends⟩ := ends
  have nothing : d.deliveries.discard.1 = [] := emptied i (List.mem_of_getElem? found) d there
  split at ends
  · cases ends
    refine ⟨by rw [nothing]; rfl, ⟨_, rfl, fun x hx d found ↦ ?_, egresses⟩, ?_⟩
    · rcases List.mem_or_eq_of_mem_set hx with hx | rfl
      · exact emptied x hx d found
      · cases found
    · have replaced := sum_map_set (fun i : Memory.Ingress Subscriber ↦ i.dispatcher.toList.length)
        found { i with
          dispatcher := none
          pending := i.pending.filter fun c ↦
            !(d.deliveries.discard.1.map Memory.Delivery.call).contains c }
      rw [there] at replaced
      simp only [Option.toList_some, Option.toList_none, List.length_nil, List.length_cons]
        at replaced
      simp only [dispatchers]
      omega
  · cases ends

theorem Silent.handOver? (silent : c.Silent) : c.handOver? = none := by
  obtain ⟨k, rfl, emptied, -⟩ := silent
  rw [Connector.handOver?, Option.map_eq_none_iff]
  refine updateFirst_eq_none fun i hi ↦ ?_
  rw [Memory.Ingress.handOver?]
  cases found : i.dispatcher with
  | none => rfl
  | some d =>
    have nothing := (List.append_eq_nil_iff.mp (emptied i hi d found)).1
    simp [Queue.take?, nothing]

theorem Silent.conclude? (silent : c.Silent) (now : Nat) : c.conclude? now = none := by
  obtain ⟨k, rfl, -, egresses⟩ := silent
  rw [Connector.conclude?, Option.map_eq_none_iff]
  refine updateFirst_eq_none fun e he ↦ ?_
  simp [concludeMemory?, (egresses e he).1]

theorem Silent.endWait? (silent : c.Silent) (now : Nat) : c.endWait? now = none := by
  obtain ⟨k, rfl, -, egresses⟩ := silent
  simp only [Connector.endWait?, Option.map_eq_none_iff]
  refine updateFirst_eq_none fun e he ↦ ?_
  simp [Memory.Egress.reached?, Memory.Egress.expired?, (egresses e he).2]

end Connector

namespace World

variable {w w' : World} {id n : Nat} {e : StartError}

/-- That connectors hear of their tokens sets nothing going. -/
theorem silent_heed (silent : ∀ c ∈ w.connectors, c.Silent) :
    ∀ c ∈ w.heed.connectors, c.Silent := by
  intro c hc
  obtain ⟨c, mem, rfl⟩ := List.mem_map.mp hc
  exact ((silent c mem).heed _).1

theorem silent_set {connectors : List Connector} {c : Connector} {i : Nat}
    (silent : ∀ x ∈ connectors, x.Silent) (here : c.Silent) :
    ∀ x ∈ connectors.set i c, x.Silent := by
  intro x hx
  rcases List.mem_or_eq_of_mem_set hx with hx | rfl
  · exact silent x hx
  · exact here

/-! ## Waiting for the end of a run -/

/-- The most steps until the only run of a world has ended that takes itself back. -/
def toReturn (w : World) : Nat :=
  (w.runs.map fun r ↦ r.run.toEnd).sum + (w.connectors.map Connector.dispatchers).sum

/-- A call waits for the end of the only run of a world, which takes itself back after at most a
number of steps, or has heard of it. -/
structure Returning (id : Nat) (e : StartError) (n : Nat) (w : World) : Prop where
  answers : w.answers = []
  silent : ∀ c ∈ w.connectors, c.Silent
  left : w.toReturn ≤ n
  record : ∃ r, w.runs = [r] ∧ r.run.routes.length ≤ r.routeTokens.length ∧
    r.run.Withdraws e ∧ r.awaitedBy = some id ∧
      (r.run.phase ≠ .ended (some e) ∧ w.outcome? id = none ∧ (w.call? id).isSome = true ∨
        ∃ t, w.outcome? id = some (.notStarted e, t))

theorem Returning.emit (returning : Returning id e n w) (events : List Event) :
    Returning id e n (w.emit events) :=
  ⟨returning.answers, returning.silent, returning.left, returning.record⟩

theorem Returning.heed (returning : Returning id e n w) : Returning id e n w.heed := by
  obtain ⟨answers, silent, left, r, only, enough, withdraws, awaits, told⟩ := returning
  obtain ⟨withdraws', same, length⟩ := withdraws.heed enough fun n ↦ w.tokens.isCancelled n
  refine ⟨answers, silent_heed silent, ?_, ?_⟩
  · refine le_of_eq_of_le ?_ left
    have connectors : (w.heed.connectors.map Connector.dispatchers) =
        w.connectors.map Connector.dispatchers := by
      rw [World.heed, List.map_map]
      exact List.map_congr_left fun c hc ↦ ((silent c hc).heed _).2
    have runs : (w.heed.runs.map fun r ↦ r.run.toEnd) = w.runs.map fun r ↦ r.run.toEnd := by
      rw [World.heed, List.map_map, only, List.map_singleton, List.map_singleton]
      exact congrArg (fun n ↦ [n]) same
    rw [toReturn, toReturn, connectors, runs]
  · refine ⟨{ r with run := _ }, ?_, length.trans_le enough, withdraws', awaits, told⟩
    rw [World.heed, only]
    rfl

theorem Returning.fire (returning : Returning id e n w) (token : Nat) :
    Returning id e n (w.fire token) := by
  have fired : Returning id e n { w with tokens := w.tokens.fire token } :=
    ⟨returning.answers, returning.silent, returning.left, returning.record⟩
  exact fired.heed

/-- What a run tells does not disturb this, as long as nobody gets an answer. -/
theorem Returning.hears (returning : Returning id e n w) (run : Nat) (r : RunRecord)
    {outputs : List RunOutput} (hushed : ∀ o ∈ outputs, o.hushed = true) :
    Returning id e n (outputs.foldl (hear run r) w) := by
  induction outputs generalizing w with
  | nil => exact returning
  | cons o outputs ih =>
    obtain ⟨first, others⟩ := List.forall_mem_cons.mp hushed
    refine ih ?_ others
    cases o with
    | event event => exact returning.emit _
    | cancelled => exact returning.fire _
    | ended error => cases first
    | route i o =>
      cases o with
      | event topic event => exact returning.emit _
      | publish pool lane call m => cases first
      | verdict call v => cases first
      | cancelled =>
        simp only [hear, hearRoute]
        split
        · exact returning.fire _
        · exact returning
      | stopped => exact returning

/-! ## What happens by itself -/

theorem outcome?_close_self (result : Result) (unknown : w.outcome? id = none)
    (there : (w.call? id).isSome = true) :
    (w.close id result).outcome? id = some (result, w.clock.now) := by
  obtain ⟨c, found⟩ := Option.isSome_iff_exists.mp there
  rw [outcome?, found, Option.bind_some] at unknown
  have unheard : c.outcome.isNone = true := by
    rw [unknown]
    rfl
  rw [outcome?, call?_close, found, Option.map_some, if_pos ⟨id_of_call? found, unheard⟩]
  rfl

theorem outcome?_close_of_some {x : Result × Nat} (result : Result)
    (known : w.outcome? id = some x) : (w.close id result).outcome? id = some x := by
  obtain ⟨c, found, known'⟩ := Option.bind_eq_some_iff.mp known
  rw [outcome?, call?_close, found, Option.map_some, if_neg (by rw [known']; simp)]
  exact known'

theorem hear_ended {run : Nat} {r : RunRecord} (awaits : r.awaitedBy = some id) (w : World) :
    w.hear run r (.ended (some e)) = w.close id (.notStarted e) := by
  simp only [hear, awaits]

theorem Returning.nextRun (returning : Returning id e n w) (next : w.nextRun? = some w') :
    ∃ m < n, Returning id e m w' := by
  obtain ⟨answers, silent, left, r, only, enough, withdraws, awaits, told⟩ := returning
  rw [nextRun?, only] at next
  obtain ⟨⟨x, i⟩, hx, next⟩ := List.exists_of_findSome?_eq_some next
  rw [List.zipIdx_singleton, List.mem_singleton] at hx
  obtain ⟨rfl, rfl⟩ := Prod.mk.inj hx
  obtain ⟨⟨run', outputs⟩, own, rfl⟩ := Option.map_eq_some_iff.mp next
  have put : (w.putRun 0 { x with run := run' }).runs = [{ x with run := run' }] := by
    rw [putRun, only, List.set_cons_zero]
  have reacted : w.react 0 (run', outputs) =
      outputs.foldl (hear 0 { x with run := run' }) (w.putRun 0 { x with run := run' }) := by
    simp only [react, only, List.getElem?_cons_zero, putRun]
  have length : run'.routes.length = x.run.routes.length := by
    obtain ⟨a, step⟩ := Run.exists_step_of_next? own
    exact Run.length_of_step step
  obtain ⟨withdraws', less, tells⟩ := withdraws.own own
  have fewer : (w.putRun 0 { x with run := run' }).toReturn < w.toReturn := by
    rw [toReturn, toReturn, put, only, List.map_singleton, List.map_singleton, List.sum_singleton,
      List.sum_singleton]
    exact Nat.add_lt_add_right less _
  refine ⟨(w.putRun 0 { x with run := run' }).toReturn, fewer.trans_le left, ?_⟩
  rw [reacted]
  obtain ⟨hushed, still⟩ | rfl := tells
  · have base : Returning id e (w.putRun 0 { x with run := run' }).toReturn
        (w.putRun 0 { x with run := run' }) := by
      refine ⟨answers, silent, le_refl _, _, put, length.trans_le enough, withdraws', awaits,
        told.imp_left fun before ↦ ⟨fun ended ↦ before.1 ?_, before.2⟩⟩
      rw [still ended, ended]
    exact base.hears 0 _ hushed
  · -- whoever waits for the end of the run hears of it, unless this has happened before
    rw [List.foldl_cons, List.foldl_cons, List.foldl_nil,
      hear_ended (r := { x with run := run' }) awaits]
    refine ⟨answers, silent, le_refl _, { x with run := run' }, put, length.trans_le enough,
      withdraws', awaits, .inr ?_⟩
    obtain ⟨-, unknown, there⟩ | ⟨t, known⟩ := told
    · exact ⟨_, outcome?_close_self _ unknown there⟩
    · exact ⟨t, outcome?_close_of_some _ known⟩

theorem Returning.nextHalt (returning : Returning id e n w) (next : w.nextHalt? = some w') :
    ∃ m < n, Returning id e m w' := by
  obtain ⟨answers, silent, left, record⟩ := returning
  obtain ⟨⟨calls, x⟩, halted, rfl⟩ := Option.map_eq_some_iff.mp next
  obtain ⟨⟨calls', connectors⟩, changed, done⟩ := Option.map_eq_some_iff.mp halted
  cases done
  obtain ⟨i, c, c', found, halts, rfl⟩ := Connector.updateFirst_eq_some changed
  obtain ⟨rfl, silent', fewer⟩ := (silent c (List.mem_of_getElem? found)).halt? halts
  have replaced := sum_map_set Connector.dispatchers found c'
  refine ⟨toReturn { w with connectors := w.connectors.set i c' }, ?_, answers,
    silent_set silent silent', le_refl _, record⟩
  refine Nat.lt_of_lt_of_le ?_ left
  simp only [toReturn]
  omega

/-- No route of the run was let go of, so none is released. -/
theorem Returning.nextRelease (returning : Returning id e n w) : w.nextRelease? = none := by
  obtain ⟨-, -, -, r, only, -, withdraws, -⟩ := returning
  refine List.findSome?_eq_none_iff.mpr fun ⟨x, run⟩ hx ↦ ?_
  rw [only, List.zipIdx_singleton, List.mem_singleton] at hx
  obtain ⟨rfl, rfl⟩ := Prod.mk.inj hx
  refine List.findSome?_eq_none_iff.mpr fun i _ ↦ ?_
  split
  · rfl
  · rw [Option.map_eq_none_iff, Option.eq_none_iff_forall_ne_some]
    intro reaction step
    obtain ⟨y, y', told, hy, released, -⟩ := Run.step?_route_eq_some.mp step
    obtain ⟨forsaken, -⟩ := Running.release?_eq_some.mp released
    exact (withdraws.vacant y (List.mem_of_getElem? hy)).kept.1 forsaken

/-- **Whatever happens by itself brings the answer nearer.** -/
theorem Returning.next (returning : Returning id e n w) (next : w.next? = some w') :
    ∃ m < n, Returning id e m w' := by
  simp only [next?, Option.orElse_eq_orElse, Option.orElse_eq_or, Option.or_eq_some_iff] at next
  rcases next with next | ⟨-, next | ⟨-, next | ⟨-, next | ⟨-, next | ⟨-, next | ⟨-, next⟩⟩⟩⟩⟩⟩
  · simp [nextAnswer?, returning.answers] at next
  · exact returning.nextRun next
  · exact returning.nextHalt next
  · have still : Connector.updateFirst Connector.handOver? w.connectors = none :=
      Connector.updateFirst_eq_none fun c hc ↦ (returning.silent c hc).handOver?
    simp [nextHandOver?, nextConnector?, still] at next
  · rw [returning.nextRelease] at next
    cases next
  · have still : Connector.updateFirst (Connector.conclude? w.clock.now) w.connectors = none :=
      Connector.updateFirst_eq_none fun c hc ↦ (returning.silent c hc).conclude? _
    simp [nextPublish?, nextConnector?, still] at next
  · have still : Connector.updateFirst (Connector.endWait? w.clock.now) w.connectors = none :=
      Connector.updateFirst_eq_none fun c hc ↦ (returning.silent c hc).endWait? _
    simp [nextWait?, nextConnector?, still] at next

/-- When nothing can happen any more, the call has heard of the end. -/
theorem Returning.outcome_of_still (returning : Returning id e n w) (still : w.next? = none) :
    ∃ t, w.outcome? id = some (.notStarted e, t) := by
  obtain ⟨-, -, -, r, only, -, withdraws, -, told⟩ := returning
  obtain ⟨going, -⟩ | known := told
  · simp only [next?, Option.orElse_eq_orElse, Option.orElse_eq_or, Option.or_eq_none_iff] at still
    have idle := still.2.1
    rw [nextRun?, only] at idle
    have own := List.findSome?_eq_none_iff.mp idle (r, 0) (by simp)
    exact absurd (withdraws.ended_of_still (Option.map_eq_none_iff.mp own)) going
  · exact known

/-- **Whoever waits for the end of the run hears of it.** -/
theorem Returning.outcome (returning : Returning id e n w) (limit : Option Nat) {fuel : Nat}
    (enough : n < fuel) : ∃ t, (w.advance (fun w ↦ (w.outcome? id).isSome) limit fuel).outcome? id =
      some (.notStarted e, t) := by
  induction fuel generalizing n w with
  | zero => exact absurd enough (Nat.not_lt_zero n)
  | succ fuel ih =>
    rw [advance]
    cases next : w.next? with
    | some w' =>
      obtain ⟨m, less, returning'⟩ := returning.next next
      exact ih returning' (less.trans_le (Nat.le_of_lt_succ enough))
    | none =>
      obtain ⟨t, known⟩ := returning.outcome_of_still next
      simp only [known, Option.isSome_some, if_true]
      exact ⟨t, rfl⟩

/-! ## The beginning -/

/-- A world of connectors in memory in which nothing goes on and nothing was started. -/
structure Idle (w : World) : Prop where
  answers : w.answers = []
  silent : ∀ c ∈ w.connectors, c.Silent
  runs : w.runs = []
  calls : ∀ c ∈ w.calls, c.id < w.nextCall

variable {x last : World} {table : RouteTable} {above : Nat}

theorem Idle.heed (idle : w.Idle) : w.heed.Idle where
  answers := idle.answers
  silent := silent_heed idle.silent
  runs := by
    rw [World.heed, idle.runs]
    rfl
  calls := idle.calls

theorem Idle.subscribe (idle : w.Idle) (bus : Nat) (source : String) (s : Subscriber) :
    (w.subscribe bus source s).2.Idle := by
  unfold World.subscribe
  split
  · rename_i i a _
    split
    · exact idle
    · rename_i place _
      split
      · rename_i answer y changed
        obtain ⟨c, c', found, step, rfl⟩ := updateConnector?_cases changed
        have started : (c.startIngress place s).2 = c' := congrArg Prod.snd (Option.some.inj step)
        have silent := (idle.silent c (List.mem_of_getElem? found)).startIngress place s
        rw [started] at silent
        exact Idle.heed ⟨idle.answers, silent_set idle.silent silent, idle.runs, idle.calls⟩
      · exact idle
  · -- there are no scripted buses
    rename_i i _
    cases found : w.connectors[i]? with
    | none => simpa [updateConnector?, found] using idle
    | some c =>
      obtain ⟨k, rfl, -⟩ := idle.silent c (List.mem_of_getElem? found)
      simpa [updateConnector?, found] using idle
  · exact idle

theorem Idle.ask {count i : Nat} {route : CompiledRoute} {answer : Except BusError Unit}
    (idle : x.Idle) (asked : w.ask count i route x = (answer, last)) : last.Idle := by
  have subscribed := idle.subscribe route.source.bus route.source.point
    ⟨.route w.runs.length i, (w.routeTokens count)[i]?.getD w.tokens.length⟩
  rwa [show x.subscribe _ _ _ = _ from asked] at subscribed

theorem Idle.accepted {count index : Nat} {routes : List CompiledRoute} (idle : x.Idle)
    (accepted : Run.Accepted (w.ask count) index x routes last) : last.Idle := by
  induction accepted with
  | nil => exact idle
  | cons first _ ih => exact ih (idle.ask first)

/-- A run that takes itself back enters a world in which nothing goes on. -/
theorem Idle.enrol (idle : w.Idle) (subject : Subject) (record : RunRecord)
    (withdraws : record.run.Withdraws e) (going : record.run.phase ≠ .ended (some e))
    (enough : record.run.routes.length ≤ record.routeTokens.length)
    (awaits : record.awaitedBy = some w.nextCall) :
    ∃ n, Returning w.nextCall e n ((w.openCall subject).2.enrol record) := by
  have new : ((w.openCall subject).2.enrol record).call? w.nextCall =
      some ⟨w.nextCall, subject, none⟩ := by
    have older : (w.calls.find? fun c ↦ c.id == w.nextCall) = none := by
      refine List.find?_eq_none.mpr fun c hc same ↦ ?_
      exact absurd (beq_iff_eq.mp same) (Nat.ne_of_lt (idle.calls c hc))
    simp [World.enrol, openCall, call?, List.find?_append, older]
  refine ⟨_, idle.answers, idle.silent, le_refl _, record, ?_, enough, withdraws, awaits,
    .inl ⟨going, ?_, ?_⟩⟩
  · simp [World.enrol, openCall, idle.runs]
  · rw [outcome?, new]
    rfl
  · rw [new]
    rfl

/-- **Whoever is refused a start hears of it.** -/
theorem Idle.returning_start (idle : w.Idle) {index : Nat}
    (refused : w.start table above = (.ok (index, some id), w')) :
    ∃ e n, Returning id e n w' := by
  cases compiled : w.environment.compile table with
  | error e =>
    rw [start, compiled] at refused
    cases refused
  | ok routes =>
    rw [start_of_compiled compiled] at refused
    have hushed := Run.hushed_start w.parts.settings w.registry.length (w.ask routes.length)
      (w.handOut above routes.length) routes
    have begun := Run.begun_start w.parts.settings w.registry.length (w.ask routes.length)
      (w.handOut above routes.length) routes
    dsimp only at refused
    generalize Run.start _ _ _ _ _ = result at refused hushed begun
    cases begun with
    | running => cases refused
    | @refused before after route middle last e outputs split accepted denied =>
      have out : (w.handOut above routes.length).Idle :=
        ⟨idle.answers, idle.silent, idle.runs, idle.calls⟩
      have idle' := (out.accepted accepted).ask denied
      have few : before.length + 1 ≤ (w.routeTokens routes.length).length := by
        rw [routeTokens, List.length_range', split, List.length_append, List.length_cons]
        omega
      have quiet := quiet_of_refused accepted denied
      dsimp only at refused
      rw [crash_unless routes quiet.parts] at refused
      cases refused
      have sane : (last.failUnless (w.fits routes)).Idle :=
        ⟨idle'.answers, idle'.silent, idle'.runs, idle'.calls⟩
      obtain ⟨n, entered⟩ := sane.enrol (.run w.runs.length)
        (w.recordRefused routes.length before route e last.nextCall)
        (Run.withdraws_refused _ _ _ _) (by simp [recordRefused])
        (by simpa [recordRefused] using few) rfl
      have here : ((last.failUnless (w.fits routes)).openCall (.run w.runs.length)).2.runs.length =
          w.runs.length := quiet.runs.length_eq.symm
      rw [react_enrol here]
      exact ⟨_, n, (entered.hears _ _ hushed).heed⟩

/-! ## Starts on connectors that have just been built -/

/-- Whoever waits for a start hears that it failed and why. -/
structure Returns (id : Nat) (e : StartError) (w : World) : Prop where
  /-- The answer is there after a number of steps, however far the clock may go. -/
  hears : ∃ n, ∀ limit fuel, n < fuel → ∃ t,
    (w.advance (fun w ↦ (w.outcome? id).isSome) limit fuel).outcome? id = some (.notStarted e, t)
  /-- No other defect is ever named, whatever happens meanwhile. -/
  only : ∀ {w' e' t}, Later w w' → w'.outcome? id = some (.notStarted e', t) → e' = e

variable {parts : EngineParts} {routes : List CompiledRoute}

theorem New.idle (new : w.New parts) : w.Idle where
  answers := new.answers
  silent c hc := by
    obtain ⟨name, sources, targets, rfl⟩ := new.fresh c hc
    exact Connector.silent_ofNames name sources targets
  runs := new.runs
  calls c hc := by
    rw [new.calls] at hc
    cases hc

theorem New.numbered (new : w.New parts) : w.Numbered where
  calls := new.idle.calls
  awaited r hr := by
    rw [new.runs] at hr
    cases hr

theorem New.returns (new : w.New parts) (realizable : parts.settings.realizable = true)
    {index : Nat} {record : RunRecord}
    (refused : w.start table above = (.ok (index, some id), w'))
    (entered : w'.runs[0]? = some record) (phase : record.run.phase = .retracting e) :
    w'.Returns id e := by
  obtain ⟨e', n, returning⟩ := new.idle.returning_start refused
  have same : e' = e := by
    obtain ⟨r, only, -, withdraws, -⟩ := returning.record
    rw [only, List.getElem?_cons_zero, Option.some.injEq] at entered
    subst entered
    exact withdraws.far.same phase
  subst same
  have hears := fun limit fuel (enough : n < fuel) ↦ returning.outcome limit enough
  refine ⟨⟨n, hears⟩, ?_⟩
  have whole := allOrNothing_start table above new.numbered
  rw [refused] at whole
  cases whole with
  | crashes _ _ unrealizable _ =>
    rw [new.parts, realizable] at unrealizable
    cases unrealizable
  | refused _ _ _ _ _ _ cleaned _ =>
    -- it has been heard of once, so this is what is heard of
    obtain ⟨t, heard⟩ := hears none (n + 1) (Nat.lt_succ_self n)
    have named := (cleaned (ticks_advance _ _ _ _).later heard).1
    intro w'' e'' t'' later heard''
    exact (cleaned later heard'').1.trans named.symm

/-- **A start on connectors that have just been built succeeds** just if the table compiles and no
two of its routes name one source. A table that does not compile is answered with its defect, and
one that names a source twice with the refusal of the first route whose source was named before. -/
theorem starts_exactly (wall : Int) (parts : EngineParts) (tokens : Tokens) (layouts : List Layout)
    (order : List Nat) (realizable : parts.settings.realizable = true) (table : RouteTable)
    (above : Nat) :
    ((built wall parts tokens layouts order).Starts table above ↔
        (∃ routes, (built wall parts tokens layouts order).environment.compile table = .ok routes) ∧
          (table.routes.map RouteSpec.source).Nodup) ∧
      (∀ e, (built wall parts tokens layouts order).environment.compile table = .error e →
        ((built wall parts tokens layouts order).start table above).1 = .error e) ∧
      ∀ routes, (built wall parts tokens layouts order).environment.compile table = .ok routes →
        ¬(table.routes.map RouteSpec.source).Nodup →
        ∃ r id w', table.FirstRepeat r ∧
          (built wall parts tokens layouts order).start table above = (.ok (0, some id), w') ∧
          w'.Returns id (.subscribe r.name
            (.subscribe (Text.quoted r.source.source ++ " already has a subscriber"))) := by
  have new := new_built wall parts tokens layouts order
  refine ⟨new.starts_iff realizable, fun e defect ↦ ?_, fun routes compiled repeated ↦ ?_⟩
  · rw [start, defect]
  · obtain ⟨r, id, w', record, first, refused, entered, phase⟩ :=
      new.refused_of_repeated compiled repeated
    exact ⟨r, id, w', first, refused, new.returns realizable refused entered phase⟩

/-- Two connectors whose points have the same names. -/
def pair : List Layout := [⟨"left", ["in"], ["out"]⟩, ⟨"right", ["in"], ["out"]⟩]

/-- A route from each connector to the other one. -/
def across : RouteTable :=
  ⟨[.direct "there" ⟨"left", "in"⟩ ⟨"right", "out"⟩,
    .direct "back" ⟨"right", "in"⟩ ⟨"left", "out"⟩], []⟩

/-- The route that goes round from the left connector to itself. -/
def round : RouteSpec := .direct "round" ⟨"left", "in"⟩ ⟨"left", "out"⟩

/-- Routes whose sources have the same name on different connectors start; one more on the first
connector is refused. -/
theorem starts_exactly_of_pair :
    Running.oneLane.realizable = true ∧
      (built 0 ⟨Running.oneLane, [], [], .empty⟩ [⟨none, false⟩] pair [0, 1]).Starts across 0 ∧
      ∃ id w', (built 0 ⟨Running.oneLane, [], [], .empty⟩ [⟨none, false⟩] pair [0, 1]).start
          ⟨across.routes ++ [round], []⟩ 0 = (.ok (0, some id), w') ∧
        w'.Returns id (.subscribe "round" (.subscribe "\"in\" already has a subscriber")) := by
  have realizable : Running.oneLane.realizable = true := rfl
  have settled := starts_exactly 0 ⟨Running.oneLane, [], [], .empty⟩ [⟨none, false⟩] pair [0, 1]
    realizable
  refine ⟨realizable, (settled across 0).1.mpr ⟨⟨_, rfl⟩, by decide⟩, ?_⟩
  obtain ⟨r, id, w', first, refused, returns⟩ :=
    (settled ⟨across.routes ++ [round], []⟩ 0).2.2 _ rfl (by decide)
  have same : r = round :=
    first.unique ⟨across.routes, [], rfl, by decide, by decide⟩
  subst same
  exact ⟨id, w', refused, returns⟩

end World

end MessageBridge.Rehearsal
