import Mathlib.Data.List.Forall2
import MessageBridge.Proofs.Engine.Start
import MessageBridge.Rehearsal.Clockwork

/-!
# What goes on around runs

Between the steps of its runs a world publishes, passes verdicts on, fires tokens and logs. None of
this changes what a run is about: the tokens of runs stay, what is cancelled stays cancelled, a
route at most hears that its token has fired, and no call learns that a start has failed. This
module says so once, as `Quiet`, and shows it of each thing that a run tells, the end of the run
apart.

The occupation of ingress points is recorded beside it: quiet changes that leave it alone as well
are `Still`. Only subscribing and closing are not still.
-/

namespace MessageBridge

/-! ## Lists side by side -/

section Lists

universe u v

variable {α : Type u} {β : Type v} {R : α → β → Prop} {S : α → α → Prop}

theorem exists_of_forall₂ {l : List α} {l' : List β} (h : List.Forall₂ R l l') {i : Nat} {a : α}
    (ha : l[i]? = some a) : ∃ b, l'[i]? = some b ∧ R a b := by
  induction h generalizing i with
  | nil => cases ha
  | cons first _ ih =>
    cases i with
    | zero =>
      cases ha
      exact ⟨_, rfl, first⟩
    | succ i => exact ih ha

theorem forall₂_trans (trans : ∀ {a b c}, S a b → S b c → S a c) {l l' l'' : List α}
    (first : List.Forall₂ S l l') (second : List.Forall₂ S l' l'') : List.Forall₂ S l l'' := by
  induction first generalizing l'' with
  | nil => exact second
  | cons first _ ih =>
    cases second with
    | cons second others => exact .cons (trans first second) (ih others)

end Lists

/-! ## Forests that grow -/

namespace Tokens

variable {n m : Nat} {tokens tokens' tokens'' : Tokens}

/-- The number of the token above a token. -/
def parent? (n : Nat) : Tokens → Option Nat
  | [] => none
  | t :: older => if n = older.length then t.above else parent? n older

theorem lt_of_parent? (h : parent? n tokens = some m) : n < tokens.length := by
  induction tokens with
  | nil => cases h
  | cons t older ih =>
    rw [parent?] at h
    rw [List.length_cons]
    split at h
    · omega
    · exact Nat.lt_succ_of_lt (ih h)

/-- A token is cancelled with the one above it. -/
theorem isCancelled_of_parent (below : parent? n tokens = some m) (older : m < n)
    (cancelled : isCancelled m tokens = true) : isCancelled n tokens = true := by
  induction tokens with
  | nil => cases below
  | cons t rest ih =>
    rw [parent?] at below
    rw [isCancelled] at cancelled ⊢
    by_cases here : n = rest.length
    · rw [if_pos here] at below ⊢
      rw [if_neg (by omega)] at cancelled
      rw [below]
      simp [cancelled]
    · rw [if_neg here] at below ⊢
      have inside := lt_of_parent? below
      rw [if_neg (by omega)] at cancelled
      exact ih below cancelled

theorem isCancelled_of_le (h : tokens.length ≤ n) : isCancelled n tokens = false := by
  induction tokens with
  | nil => rfl
  | cons t older ih =>
    rw [List.length_cons] at h
    rw [isCancelled, if_neg (by omega)]
    exact ih (by omega)

/-- Tokens are only added, stay where they are, and are cancelled once and for all. -/
structure Grows (tokens tokens' : Tokens) : Prop where
  length : tokens.length ≤ tokens'.length
  cancelled : ∀ {n}, isCancelled n tokens = true → isCancelled n tokens' = true
  parent : ∀ {n m}, parent? n tokens = some m → parent? n tokens' = some m

theorem Grows.refl (tokens : Tokens) : Grows tokens tokens := ⟨Nat.le_refl _, id, id⟩

theorem Grows.trans (first : Grows tokens tokens') (second : Grows tokens' tokens'') :
    Grows tokens tokens'' :=
  ⟨first.length.trans second.length, second.cancelled ∘ first.cancelled,
    second.parent ∘ first.parent⟩

theorem grows_create (above : Option Nat) (tokens : Tokens) :
    Grows tokens (create above tokens).2 where
  length := Nat.le_succ _
  cancelled {n} cancelled := by
    have inside : n < tokens.length := by
      by_contra beyond
      rw [isCancelled_of_le (by omega)] at cancelled
      cases cancelled
    rw [create, isCancelled, if_neg (by omega)]
    exact cancelled
  parent {n m} below := by
    have inside := lt_of_parent? below
    rw [create, parent?, if_neg (by omega)]
    exact below

theorem parent?_fire (m n : Nat) (tokens : Tokens) :
    parent? n (fire m tokens) = parent? n tokens := by
  induction tokens with
  | nil => rfl
  | cons t older ih =>
    rw [fire]
    split
    · rfl
    · rw [parent?, parent?, length_fire, ih]

theorem grows_fire (m : Nat) (tokens : Tokens) : Grows tokens (fire m tokens) where
  length := (length_fire m tokens).ge
  cancelled {n} cancelled := by
    induction tokens generalizing n with
    | nil => cases cancelled
    | cons t older ih =>
      rw [isCancelled] at cancelled
      rw [fire]
      split
      · rw [isCancelled]
        split at cancelled
        · rw [if_pos (by assumption)]
          simp
        · rw [if_neg (by assumption)]
          exact cancelled
      · rw [isCancelled, length_fire]
        split at cancelled
        · rw [if_pos (by assumption)]
          -- the token above may be the one that is fired
          cases fired : t.fired with
          | true => rfl
          | false =>
            rw [fired, Bool.false_or] at cancelled
            rw [Bool.false_or]
            split at cancelled
            · exact ih cancelled
            · cases cancelled
        · rw [if_neg (by assumption)]
          exact ih cancelled
  parent {n k} below := by rw [parent?_fire, below]

end Tokens

namespace Rehearsal

/-! ## Records -/

namespace RunRecord

variable {r r' r'' : RunRecord}

/-- The routes of a record become others, and its tokens stay. Routes without a token of their own
are left out of this. -/
structure Becomes (r r' : RunRecord) : Prop where
  token : r'.token = r.token
  routeTokens : r'.routeTokens = r.routeTokens
  routes : r.run.routes.length ≤ r.routeTokens.length →
    List.Forall₂ Running.Becomes r.run.routes r'.run.routes

theorem Becomes.refl (r : RunRecord) : Becomes r r :=
  ⟨rfl, rfl, fun _ ↦ List.forall₂_same.mpr fun x _ ↦ .refl x⟩

theorem Becomes.trans (first : Becomes r r') (second : Becomes r' r'') : Becomes r r'' where
  token := second.token.trans first.token
  routeTokens := second.routeTokens.trans first.routeTokens
  routes enough := by
    have before := first.routes enough
    refine forall₂_trans (S := Running.Becomes) Running.Becomes.trans before (second.routes ?_)
    rw [← before.length_eq, first.routeTokens]
    exact enough

/-- A record becomes another one in which the run is as far as before, and awaited as before. -/
structure Listens (r r' : RunRecord) : Prop extends Becomes r r' where
  awaitedBy : r'.awaitedBy = r.awaitedBy
  phase : r'.run.phase = r.run.phase

theorem Listens.refl (r : RunRecord) : Listens r r := ⟨.refl r, rfl, rfl⟩

theorem Listens.trans (first : Listens r r') (second : Listens r' r'') : Listens r r'' :=
  ⟨first.toBecomes.trans second.toBecomes, second.awaitedBy.trans first.awaitedBy,
    second.phase.trans first.phase⟩

end RunRecord

/-! ## Seats -/

/-- What an ingress point says about itself to whoever wants to subscribe. -/
structure Seat where
  /-- The name of the point. -/
  source : String
  /-- Whether a handler was started on it. -/
  taken : Bool
  /-- Whether it was stopped. -/
  stopped : Bool
deriving DecidableEq, Repr

/-- The seats of connectors. -/
abbrev Seats := List (Option (List Seat))

/-- The seat of an ingress point in memory. -/
def seat (i : Memory.Ingress Subscriber) : Seat := ⟨i.source, i.subscribed, i.stopped⟩

/-- The seats of a connector in memory; other connectors have none. -/
def Connector.seats : Connector → Option (List Seat)
  | memory k => some (k.ingresses.map seat)
  | _ => none

section Seats

variable {α β γ : Type} {i i' : Memory.Ingress Subscriber} {c c' : Connector} {b : β}

/-- A change of the first element that can change, seen through a function that does not see it. -/
theorem map_updateFirst {f : α → Option (β × α)} {g : α → γ}
    (same : ∀ {a b a'}, f a = some (b, a') → g a' = g a) {xs xs' : List α}
    (changed : Connector.updateFirst f xs = some (b, xs')) : xs'.map g = xs.map g := by
  induction xs generalizing xs' with
  | nil => cases changed
  | cons a rest ih =>
    rw [Connector.updateFirst] at changed
    split at changed
    · rename_i step
      cases changed
      rw [List.map_cons, List.map_cons, same step]
    · obtain ⟨⟨b', rest'⟩, later, done⟩ := Option.map_eq_some_iff.mp changed
      cases done
      rw [List.map_cons, List.map_cons, ih later]

theorem seat_verdict? {id : Nat} {v : Except HandleError Unit} {result : Except InjectError Unit}
    (changed : i.verdict? id v = some (result, i')) : seat i' = seat i := by
  unfold Memory.Ingress.verdict? at changed
  split at changed
  · split at changed <;> cases changed <;> rfl
  · cases changed

theorem seat_inject {id : Nat} {m : Message} (changed : i.inject id m = .ok i') :
    seat i' = seat i := by
  unfold Memory.Ingress.inject at changed
  split at changed
  · cases changed
  · split at changed
    · cases changed
    · split at changed
      · cases changed
      · split at changed
        · cases changed
        · cases changed
          rfl

theorem seat_handOver? {d : Subscriber × Memory.Delivery} (changed : i.handOver? = some (d, i')) :
    seat i' = seat i := by
  simp only [Memory.Ingress.handOver?, Option.bind_eq_bind, Option.bind_eq_some_iff] at changed
  obtain ⟨d, -, changed⟩ := changed
  split at changed
  · cases changed
  · obtain ⟨_, -, done⟩ := Option.bind_eq_some_iff.mp changed
    cases done
    rfl

theorem seat_halt? {calls : List Nat} (changed : i.halt? = some (calls, i')) :
    seat i' = seat i := by
  simp only [Memory.Ingress.halt?, Option.bind_eq_bind, Option.bind_eq_some_iff] at changed
  obtain ⟨d, -, changed⟩ := changed
  split at changed
  · cases changed
    rfl
  · cases changed

namespace Connector

theorem seats_heed (isCancelled : Nat → Bool) (c : Connector) :
    (c.heed isCancelled).seats = c.seats := by
  cases c with
  | memory k =>
    rw [heed, seats, seats, List.map_map]
    refine congrArg some (List.map_congr_left fun i _ ↦ ?_)
    rw [Function.comp_apply]
    split <;> rfl
  | _ => rfl

theorem seats_updateIngress? {source : String}
    {f : Memory.Ingress Subscriber → Option (β × Memory.Ingress Subscriber)}
    (same : ∀ {i b i'}, f i = some (b, i') → seat i' = seat i)
    (changed : c.updateIngress? source f = some (b, c')) : c'.seats = c.seats := by
  cases c with
  | memory k =>
    obtain ⟨⟨b', ingresses⟩, found, done⟩ := Option.map_eq_some_iff.mp changed
    cases done
    refine congrArg some (map_updateFirst (fun step ↦ ?_) found)
    split at step
    · exact same step
    · cases step
  | _ => cases changed

theorem seats_beginPublish (now call i : Nat) (m : Message) (c : Connector) :
    (c.beginPublish now call i m).2.seats = c.seats := by
  cases c with
  | memory k =>
    rw [beginPublish]
    split <;> rfl
  | _ => rfl

theorem seats_conclude? {now : Nat} {ended : Concluded}
    (changed : c.conclude? now = some (ended, c')) : c'.seats = c.seats := by
  cases c <;>
    · obtain ⟨_, -, done⟩ := Option.map_eq_some_iff.mp changed
      cases done
      rfl

theorem seats_endWait? {now : Nat} {x : Nat × Bool} (changed : c.endWait? now = some (x, c')) :
    c'.seats = c.seats := by
  cases c with
  | memory k =>
    obtain ⟨_, -, done⟩ := Option.map_eq_some_iff.mp changed
    cases done
    rfl
  | _ => cases changed

theorem seats_halt? {calls : List Nat} (changed : c.halt? = some (calls, c')) :
    c'.seats = c.seats := by
  cases c with
  | memory k =>
    obtain ⟨_, found, done⟩ := Option.map_eq_some_iff.mp changed
    cases done
    exact congrArg some (map_updateFirst seat_halt? found)
  | _ => cases changed

theorem seats_handOver? {d : Subscriber × Memory.Delivery}
    (changed : c.handOver? = some (d, c')) : c'.seats = c.seats := by
  cases c with
  | memory k =>
    obtain ⟨_, found, done⟩ := Option.map_eq_some_iff.mp changed
    cases done
    exact congrArg some (map_updateFirst seat_handOver? found)
  | _ => cases changed

end Connector

end Seats

namespace World

variable {w w' w'' : World} {n run : Nat}

/-- The seats of all connectors. -/
def seats (w : World) : Seats := w.connectors.map Connector.seats

/-! ## Quiet changes -/

/-- The numbers of calls are given in order. -/
structure Numbered (w : World) : Prop where
  calls : ∀ c ∈ w.calls, c.id < w.nextCall
  awaited : ∀ r ∈ w.runs, ∀ id, r.awaitedBy = some id → id < w.nextCall

/-- A change that is none of the runs' business. -/
structure Quiet (w w' : World) : Prop where
  tokens : w.tokens.Grows w'.tokens
  runs : List.Forall₂ RunRecord.Listens w.runs w'.runs
  buses : w'.buses = w.buses
  registry : w'.registry = w.registry
  parts : w'.parts = w.parts
  crashed : w'.crashed = w.crashed
  nextCall : w.nextCall ≤ w'.nextCall
  calls : (∀ c ∈ w.calls, c.id < w.nextCall) → ∀ c ∈ w'.calls, c.id < w'.nextCall
  outcomes : ∀ {id e t}, w'.outcome? id = some (.notStarted e, t) →
    w.outcome? id = some (.notStarted e, t)

/-- A quiet change that leaves ingress points as free or occupied as they are. -/
structure Still (w w' : World) : Prop extends Quiet w w' where
  seats : w'.seats = w.seats

/-- A still change of which runs and tokens hear nothing. -/
structure Aside (w w' : World) : Prop extends Still w w' where
  sameTokens : w'.tokens = w.tokens
  sameRuns : w'.runs = w.runs

theorem Quiet.refl (w : World) : Quiet w w :=
  ⟨.refl _, List.forall₂_same.mpr fun r _ ↦ .refl r, rfl, rfl, rfl, rfl, Nat.le_refl _, id, id⟩

theorem Quiet.trans (first : Quiet w w') (second : Quiet w' w'') : Quiet w w'' where
  tokens := first.tokens.trans second.tokens
  runs := forall₂_trans (S := RunRecord.Listens) RunRecord.Listens.trans first.runs second.runs
  buses := second.buses.trans first.buses
  registry := second.registry.trans first.registry
  parts := second.parts.trans first.parts
  crashed := second.crashed.trans first.crashed
  nextCall := first.nextCall.trans second.nextCall
  calls := second.calls ∘ first.calls
  outcomes := first.outcomes ∘ second.outcomes

theorem Still.refl (w : World) : Still w w := ⟨.refl w, rfl⟩

theorem Still.trans (first : Still w w') (second : Still w' w'') : Still w w'' :=
  ⟨first.toQuiet.trans second.toQuiet, second.seats.trans first.seats⟩

theorem Aside.refl (w : World) : Aside w w := ⟨.refl w, rfl, rfl⟩

theorem Aside.trans (first : Aside w w') (second : Aside w' w'') : Aside w w'' :=
  ⟨first.toStill.trans second.toStill, second.sameTokens.trans first.sameTokens,
    second.sameRuns.trans first.sameRuns⟩

/-- What keeps records apart from their routes keeps the numbers in order. -/
theorem Quiet.numbered (quiet : Quiet w w') (numbered : w.Numbered) : w'.Numbered where
  calls := quiet.calls numbered.calls
  awaited r' hr' id awaits := by
    obtain ⟨i, hi⟩ := List.mem_iff_getElem?.mp hr'
    obtain ⟨r, hr, listens⟩ := exists_of_forall₂ quiet.runs.flip hi
    rw [listens.awaitedBy] at awaits
    exact (numbered.awaited r (List.mem_of_getElem? hr) id awaits).trans_le quiet.nextCall

/-! ## Calls -/

theorem aside_openCall (subject : Subject) (w : World) : Aside w (w.openCall subject).2 :=
  { Aside.refl w with
    nextCall := Nat.le_succ _
    calls := fun before c hc ↦ by
      rcases List.mem_append.mp hc with hc | hc
      · exact Nat.lt_succ_of_lt (before c hc)
      · rw [List.mem_singleton.mp hc]
        exact Nat.lt_succ_self _
    outcomes := fun {id e t} known ↦ by
      rw [openCall, outcome?, call?, List.find?_append] at known
      rw [outcome?, call?]
      cases found : w.calls.find? fun c ↦ c.id == id with
      | some c => simpa [found] using known
      | none =>
        -- a new call has no outcome
        rw [found, Option.none_or, List.find?_singleton] at known
        split at known <;> cases known }

/-- A call after a call ends: the one that ends has an outcome, if it had none. -/
theorem call?_close (id other : Nat) (result : Result) (w : World) :
    (w.close id result).call? other = (w.call? other).map fun c ↦
      if c.id = id ∧ c.outcome.isNone then { c with outcome := some (result, w.clock.now) }
      else c := by
  rw [call?, call?, close, List.find?_map]
  refine congrArg (fun p ↦ (w.calls.find? p).map _) (funext fun c ↦ ?_)
  rw [Function.comp_apply]
  split <;> rfl

theorem id_of_call? {id : Nat} {c : Call} (found : w.call? id = some c) : c.id = id := by
  simpa using List.find?_some found

theorem outcome?_close_of_ne {id other : Nat} (ne : other ≠ id) (result : Result) (w : World) :
    (w.close id result).outcome? other = w.outcome? other := by
  rw [outcome?, outcome?, call?_close]
  cases found : w.call? other with
  | none => rfl
  | some c =>
    have unmoved : ¬(c.id = id ∧ c.outcome.isNone) :=
      fun h ↦ ne ((id_of_call? found).symm.trans h.1)
    rw [Option.map_some, if_neg unmoved]

/-- A call that ends has the outcome with which it ends, or the one that it had. -/
theorem outcome?_close {id : Nat} {result : Result} {x : Result × Nat}
    (known : (w.close id result).outcome? id = some x) :
    w.outcome? id = some x ∨ w.outcome? id = none ∧ x.1 = result := by
  rw [outcome?, call?_close] at known
  rw [outcome?]
  cases found : w.call? id with
  | none =>
    rw [found] at known
    cases known
  | some c =>
    rw [found, Option.map_some] at known
    split at known
    · rename_i ends
      cases known
      exact .inr ⟨Option.isNone_iff_eq_none.mp ends.2, rfl⟩
    · exact .inl known

theorem ids_close (id : Nat) (result : Result) (w : World) :
    (w.close id result).calls.map Call.id = w.calls.map Call.id := by
  rw [close, List.map_map]
  refine List.map_congr_left fun c _ ↦ ?_
  rw [Function.comp_apply]
  split <;> rfl

theorem numbers_close {id : Nat} {result : Result} (before : ∀ c ∈ w.calls, c.id < w.nextCall) :
    ∀ c ∈ (w.close id result).calls, c.id < w.nextCall := by
  intro c hc
  have number := List.mem_map_of_mem (f := Call.id) hc
  rw [ids_close] at number
  obtain ⟨c', hc', same⟩ := List.mem_map.mp number
  rw [← same]
  exact before c' hc'

/-- No end of a call is noticed by runs but the end of a failed start. -/
theorem aside_close {result : Result} (other : ∀ e, result ≠ .notStarted e) (id : Nat) (w : World) :
    Aside w (w.close id result) :=
  { Aside.refl w with
    calls := fun before ↦ numbers_close before
    outcomes := fun {id' e t} known ↦ by
      by_cases here : id' = id
      · subst here
        obtain known | ⟨-, same⟩ := outcome?_close known
        · exact known
        · exact absurd same.symm (other e)
      · rw [outcome?_close_of_ne here] at known
        exact known }

/-! ## Connectors and buses -/

theorem aside_of_connectors {connectors : List Connector}
    (seats : connectors.map Connector.seats = w.seats) :
    Aside w { w with connectors := connectors } :=
  { Aside.refl w with seats := seats }

theorem updateConnector?_cases {β : Type} {i : Nat} {f : Connector → Option (β × Connector)}
    {b : β} (changed : w.updateConnector? i f = some (b, w')) :
    ∃ c c', w.connectors[i]? = some c ∧ f c = some (b, c') ∧
      w' = { w with connectors := w.connectors.set i c' } := by
  simp only [updateConnector?, Option.bind_eq_bind, Option.bind_eq_some_iff, Option.pure_def,
    Option.some.injEq, Prod.mk.injEq] at changed
  obtain ⟨c, found, ⟨_, c'⟩, step, rfl, rfl⟩ := changed
  exact ⟨c, c', found, step, rfl⟩

theorem quiet_updateConnector? {β : Type} {i : Nat} {f : Connector → Option (β × Connector)} {b : β}
    (changed : w.updateConnector? i f = some (b, w')) : Quiet w w' := by
  obtain ⟨c, c', -, -, rfl⟩ := updateConnector?_cases changed
  exact { Quiet.refl w with }

theorem aside_updateConnector? {β : Type} {i : Nat} {f : Connector → Option (β × Connector)} {b : β}
    (same : ∀ {c b c'}, f c = some (b, c') → c'.seats = c.seats)
    (changed : w.updateConnector? i f = some (b, w')) : Aside w w' := by
  obtain ⟨c, c', found, step, rfl⟩ := updateConnector?_cases changed
  refine aside_of_connectors ?_
  rw [seats, List.map_set, same step]
  refine List.ext_getElem? fun j ↦ ?_
  rw [List.getElem?_set]
  split
  · rename_i here
    subst here
    rw [List.length_map, if_pos (List.getElem?_eq_some_iff.mp found).1, List.getElem?_map, found]
    rfl
  · rfl

theorem aside_nextConnector? {β : Type} {f : Connector → Option (β × Connector)} {b : β}
    (same : ∀ {c b c'}, f c = some (b, c') → c'.seats = c.seats)
    (changed : w.nextConnector? f = some (b, w')) : Aside w w' := by
  obtain ⟨⟨b', connectors⟩, found, done⟩ := Option.map_eq_some_iff.mp changed
  cases done
  exact aside_of_connectors (map_updateFirst same found)

theorem aside_emit (events : List Event) (w : World) : Aside w (w.emit events) :=
  { Aside.refl w with }

theorem aside_conclude (id : Nat) (answer : Option (Except BusError Unit)) (w : World) :
    Aside w (w.conclude id answer) :=
  { Aside.refl w with }

theorem aside_concludePoint (c : Connector.Concluded) (w : World) : Aside w (w.concludePoint c) :=
  (aside_emit _ w).trans (aside_conclude _ _ _)

theorem aside_publishAt (connector place id : Nat) (m : Message) (w : World) :
    Aside w (w.publishAt connector place id m) := by
  have begins {c c' : Connector} {ended : Option Connector.Concluded}
      (step : some (c.beginPublish w.clock.now id place m) = some (ended, c')) :
      c'.seats = c.seats := by
    rw [← Connector.seats_beginPublish w.clock.now id place m c, Option.some.inj step]
  unfold publishAt
  split
  · rename_i changed
    exact (aside_updateConnector? begins changed).trans (aside_concludePoint _ _)
  · rename_i changed
    exact aside_updateConnector? begins changed
  · exact .refl w

theorem aside_publish (bus : Nat) (target : String) (id : Nat) (m : Message) (w : World) :
    Aside w (w.publish bus target id m) := by
  unfold publish
  split
  · split
    · exact aside_publishAt _ _ _ _ w
    · exact aside_conclude _ _ w
  · split
    · split
      · exact aside_publishAt _ _ _ _ w
      · exact aside_conclude _ _ w
    · exact aside_conclude _ _ w
  · exact aside_conclude _ _ w

theorem aside_verdict (id : Nat) (v : Verdict) (w : World) : Aside w (w.verdict id v) := by
  unfold verdict
  split
  · split
    · rename_i changed
      refine (aside_updateConnector? (fun step ↦ ?_) changed).trans
        (aside_close (fun _ same ↦ by cases same) _ _)
      exact Connector.seats_updateIngress? seat_verdict? step
    · exact .refl w
  · exact aside_close (fun _ same ↦ by cases same) _ w
  · exact .refl w

/-! ## Tokens -/

theorem still_newToken (above : Option Nat) (w : World) : Still w (w.newToken above).2 where
  toQuiet := { Quiet.refl w with tokens := Tokens.grows_create above w.tokens }
  seats := rfl

theorem listens_heed (cancelled : Nat → Bool) (r : RunRecord) :
    r.Listens { r with run.routes := (r.run.routes.zip r.routeTokens).map fun (x, token) ↦
      { x with cancelled := x.cancelled || cancelled token } } where
  token := rfl
  routeTokens := rfl
  awaitedBy := rfl
  phase := rfl
  routes enough := by
    refine List.forall₂_iff_get.mpr ⟨by simp [enough], fun i h h' ↦ ?_⟩
    rw [List.get_eq_getElem, List.get_eq_getElem, List.getElem_map, List.getElem_zip]
    exact Running.becomes_of_heed _ _

theorem still_heed (w : World) : Still w w.heed where
  tokens := .refl _
  runs := List.forall₂_map_right_iff.mpr (List.forall₂_same.mpr fun r _ ↦
    listens_heed (fun n ↦ w.tokens.isCancelled n) r)
  buses := rfl
  registry := rfl
  parts := rfl
  crashed := rfl
  nextCall := Nat.le_refl _
  calls := id
  outcomes := id
  seats := by
    rw [seats, heed, List.map_map]
    exact List.map_congr_left fun c _ ↦ Connector.seats_heed _ c

theorem still_fire (token : Nat) (w : World) : Still w (w.fire token) := by
  have fired : Still w { w with tokens := w.tokens.fire token } :=
    { Still.refl w with tokens := Tokens.grows_fire token w.tokens }
  exact fired.trans (still_heed _)

/-! ## What runs tell -/

theorem still_hearRoute (run route : Nat) (r : RunRecord) (o : Output) (w : World) :
    Still w (w.hearRoute run route r o) := by
  cases o with
  | event _ e => exact (aside_emit _ w).toStill
  | verdict id v => exact (aside_verdict id v w).toStill
  | cancelled =>
    simp only [hearRoute]
    split
    · exact still_fire _ w
    · exact .refl w
  | stopped => exact .refl w
  | publish pool lane c m =>
    simp only [hearRoute]
    split
    · have noted : Aside w { w with
          nextCall := w.nextCall + 1
          publishes := (w.nextCall, ⟨run, route, pool, lane⟩) :: w.publishes } :=
        { Aside.refl w with
          nextCall := Nat.le_succ _
          calls := fun before c hc ↦ Nat.lt_succ_of_lt (before c hc) }
      exact (noted.trans (aside_publish _ _ _ _ _)).toStill
    · exact .refl w

/-- Nothing that a run tells disturbs runs, unless it has ended. -/
theorem still_hear (run : Nat) (r : RunRecord) {o : RunOutput} (silent : ∀ e, o ≠ .ended e)
    (w : World) : Still w (w.hear run r o) := by
  cases o with
  | route i o => exact still_hearRoute run i r o w
  | event e => exact (aside_emit _ w).toStill
  | cancelled => exact still_fire _ w
  | ended e => exact absurd rfl (silent e)

theorem still_hears (run : Nat) (r : RunRecord) {outputs : List RunOutput}
    (silent : ∀ e, RunOutput.ended e ∉ outputs) (w : World) :
    Still w (outputs.foldl (hear run r) w) := by
  induction outputs generalizing w with
  | nil => exact .refl w
  | cons o outputs ih =>
    have first : Still w (w.hear run r o) :=
      still_hear run r (fun e same ↦ silent e (same ▸ List.mem_cons_self)) w
    exact first.trans (ih (fun e told ↦ silent e (List.mem_cons_of_mem _ told)) _)

/-- A run that says so fires its token. -/
theorem isCancelled_hears {r : RunRecord} {outputs : List RunOutput}
    (silent : ∀ e, RunOutput.ended e ∉ outputs) (fires : RunOutput.cancelled ∈ outputs)
    (there : r.token < w.tokens.length) :
    (outputs.foldl (hear run r) w).tokens.isCancelled r.token = true := by
  induction outputs generalizing w with
  | nil => cases fires
  | cons o outputs ih =>
    have others : ∀ e, RunOutput.ended e ∉ outputs :=
      fun e told ↦ silent e (List.mem_cons_of_mem _ told)
    rcases List.mem_cons.mp fires with rfl | fires
    · exact (still_hears run r others _).tokens.cancelled (Tokens.isCancelled_fire_self there)
    · have first : Still w (w.hear run r o) :=
        still_hear run r (fun e same ↦ silent e (same ▸ List.mem_cons_self)) w
      exact ih others fires (there.trans_le first.tokens.length)

/-! ## Subscribing -/

theorem quiet_subscribe (bus : Nat) (source : String) (x : Subscriber) (w : World) :
    Quiet w (w.subscribe bus source x).2 := by
  unfold subscribe
  split
  · split
    · exact .refl w
    · split
      · rename_i changed
        exact (quiet_updateConnector? changed).trans (still_heed _).toQuiet
      · exact .refl w
  · dsimp only
    generalize changed : w.updateConnector? _ _ = answer
    cases answer with
    | none => exact .refl w
    | some p => exact quiet_updateConnector? changed
  · exact .refl w

end World

end Rehearsal

end MessageBridge
