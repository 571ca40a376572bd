import MessageBridge.Proofs.Rehearsal.Quiet

/-!
# How a start goes

A start hands out tokens, asks the buses for one route after the other, and enters a run into the
world. `start_of_compiled` takes it apart like this, and `Started` lists the ways in which it can
go: the table has a defect, all routes are accepted, or one of them is refused.
-/

namespace MessageBridge.Rehearsal.World

variable {w : World} {run : Nat}

/-! ## What a start is made of -/

/-- The tokens of the routes of the next run. -/
def routeTokens (count : Nat) (w : World) : List Nat := List.range' (w.tokens.length + 1) count

/-- The world with the tokens of its next run: one below `above`, and one below that for each of its
routes. -/
def handOut (above count : Nat) (w : World) : World :=
  { w with
    tokens := List.replicate count ⟨some w.tokens.length, false⟩ ++
      ⟨some above, false⟩ :: w.tokens }

/-- Asks a bus to subscribe a route of the next run. -/
def ask (w : World) (count i : Nat) (route : CompiledRoute) (x : World) :
    Except BusError Unit × World :=
  x.subscribe route.source.bus route.source.point
    ⟨.route w.runs.length i, (w.routeTokens count)[i]?.getD w.tokens.length⟩

/-- Whether there can be lanes for all routes. -/
def fits (routes : List CompiledRoute) (w : World) : Bool :=
  routes.isEmpty || w.parts.settings.realizable

theorem foldl_newToken (token : Nat) (routes : List CompiledRoute) (tokens : List Nat) (w : World) :
    routes.foldl (fun (p : List Nat × World) _ ↦
        (p.1 ++ [(p.2.newToken (some token)).1], (p.2.newToken (some token)).2)) (tokens, w) =
      (tokens ++ List.range' w.tokens.length routes.length, { w with
        tokens := List.replicate routes.length ⟨some token, false⟩ ++ w.tokens }) := by
  induction routes generalizing tokens w with
  | nil => simp
  | cons route rest ih =>
    rw [List.foldl_cons, ih]
    simp [newToken, Tokens.create, List.range'_succ, List.replicate_succ']

/-- The world with one more run. -/
def enrol (record : RunRecord) (w : World) : World := { w with runs := w.runs ++ [record] }

/-- The world, which comes to grief unless something is the case. -/
def failUnless (fits : Bool) (w : World) : World := { w with crashed := w.crashed || !fits }

theorem start_of_compiled {table : RouteTable} {above : Nat} {routes : List CompiledRoute}
    (compiled : w.environment.compile table = .ok routes) :
    w.start table above =
      let begun := Run.start w.parts.settings w.registry.length (w.ask routes.length)
        (w.handOut above routes.length) routes
      let x := if routes.isEmpty || begun.1.parts.settings.realizable then begun.1
        else { begun.1 with crashed := true }
      let record (awaitedBy : Option Nat) : RunRecord :=
        ⟨⟨[], .running⟩, w.tokens.length, w.routeTokens routes.length, awaitedBy⟩
      match begun.2.1.phase with
      | .running => (.ok (w.runs.length, none),
          ((x.enrol (record none)).react w.runs.length begun.2).heed)
      | _ => (.ok (w.runs.length, some x.nextCall),
          (((x.openCall (.run w.runs.length)).2.enrol (record (some x.nextCall))).react
            w.runs.length begun.2).heed) := by
  rw [start, compiled]
  have made := foldl_newToken w.tokens.length routes [] (w.newToken (some above)).2
  dsimp only
  generalize folded : List.foldl _ _ routes = made₁
  rw [show made₁ = _ from folded.symm.trans made]
  rfl

/-! ## Asking and entering -/

theorem still_handOut (above count : Nat) (w : World) : Still w (w.handOut above count) := by
  induction count with
  | zero => exact still_newToken (some above) w
  | succ count ih => exact ih.trans (still_newToken (some w.tokens.length) (w.handOut above count))

theorem quiet_ask {count i : Nat} {route : CompiledRoute} {x next : World}
    {answer : Except BusError Unit} (asked : w.ask count i route x = (answer, next)) :
    Quiet x next := by
  have subscribed := quiet_subscribe route.source.bus route.source.point
    ⟨.route w.runs.length i, (w.routeTokens count)[i]?.getD w.tokens.length⟩ x
  rw [show x.subscribe _ _ _ = _ from asked] at subscribed
  exact subscribed

theorem quiet_accepted {count index : Nat} {x last : World} {routes : List CompiledRoute}
    (accepted : Run.Accepted (w.ask count) index x routes last) : Quiet x last := by
  induction accepted with
  | nil => exact .refl _
  | cons first _ ih => exact (quiet_ask first).trans ih

/-- Handing out tokens and asking the buses for routes disturbs no run. -/
theorem quiet_of_accepted {above count : Nat} {routes : List CompiledRoute} {last : World}
    (accepted : Run.Accepted (w.ask count) 0 (w.handOut above count) routes last) : Quiet w last :=
  (still_handOut above count w).toQuiet.trans (quiet_accepted accepted)

theorem quiet_of_refused {above count i : Nat} {before : List CompiledRoute} {route : CompiledRoute}
    {middle last : World} {answer : Except BusError Unit}
    (accepted : Run.Accepted (w.ask count) 0 (w.handOut above count) before middle)
    (refused : w.ask count i route middle = (answer, last)) : Quiet w last :=
  (quiet_of_accepted accepted).trans (quiet_ask refused)

/-- A run enters the world as it has begun, and what it tells is heard after that. -/
theorem react_enrol {x : World} {empty begun : Run} {outputs : List RunOutput} {token : Nat}
    {tokens : List Nat} {awaitedBy : Option Nat} (here : x.runs.length = run) :
    (x.enrol ⟨empty, token, tokens, awaitedBy⟩).react run (begun, outputs) =
      outputs.foldl (hear run ⟨begun, token, tokens, awaitedBy⟩)
        (x.enrol ⟨begun, token, tokens, awaitedBy⟩) := by
  subst here
  simp only [react, enrol, List.getElem?_concat_length]
  rw [List.set_append_right _ _ (Nat.le_refl _), Nat.sub_self, List.set_cons_zero]

theorem still_enter {x : World} {begun : Run} {outputs : List RunOutput} {token : Nat}
    {tokens : List Nat} {awaitedBy : Option Nat} (here : x.runs.length = run)
    (silent : ∀ e, RunOutput.ended e ∉ outputs) :
    Still (x.enrol ⟨begun, token, tokens, awaitedBy⟩)
      ((x.enrol ⟨⟨[], .running⟩, token, tokens, awaitedBy⟩).react run (begun, outputs)).heed := by
  rw [react_enrol here]
  exact (still_hears _ _ silent _).trans (still_heed _)

theorem getElem?_enrolled {last : World} (before : Quiet w last) (record : RunRecord) :
    (last.runs ++ [record])[w.runs.length]? = some record := by
  rw [before.runs.length_eq]
  exact List.getElem?_concat_length

/-- A world is as sane after a start as before, if there can be lanes for the routes. -/
theorem crashed_of_entered {last : World} {routes : List CompiledRoute} {x : World}
    (before : Quiet w last) (same : x.crashed = (last.failUnless (w.fits routes)).crashed) :
    x.crashed = (w.crashed || !w.fits routes) := by
  rw [same, failUnless, before.crashed]

/-- The start of the next run with a book beside the buses, which holds the routes that they are
asked to subscribe, in order. -/
def startBooked (above : Nat) (routes : List CompiledRoute) (w : World) :
    World × List CompiledRoute :=
  (Run.start w.parts.settings w.registry.length (Run.booked (w.ask routes.length))
    (w.handOut above routes.length, []) routes).1

/-- The record of the next run when all its routes are accepted. -/
def recordRunning (routes : List CompiledRoute) (w : World) : RunRecord :=
  ⟨⟨routes.map (.ofRoute w.parts.settings), .running⟩, w.tokens.length,
    w.routeTokens routes.length, none⟩

/-- The record of the next run, of `count` routes, when a route is refused after some before it were
accepted, and a call waits for the end of that. -/
def recordRefused (count : Nat) (before : List CompiledRoute) (route : CompiledRoute) (e : BusError)
    (id : Nat) (w : World) : RunRecord :=
  ⟨⟨before.map (.ofRoute w.parts.settings) ++ [.refused w.parts.settings route],
    .retracting (.subscribe route.name e)⟩, w.tokens.length, w.routeTokens count, some id⟩

/-- How a start can go. The routes that buses are asked for are those of the run that enters the
world; what it tells is heard after that. -/
inductive Started (w : World) (table : RouteTable) (above : Nat) :
    Except CompileError (Nat × Option Nat) × World → Prop where
  | rejected {e : CompileError} (defect : w.environment.compile table = .error e) :
      Started w table above (.error e, w.emit [.tableRejected e])
  | runs {routes : List CompiledRoute} {last w' : World}
      (compiled : w.environment.compile table = .ok routes)
      (accepted : Run.Accepted (w.ask routes.length) 0 (w.handOut above routes.length) routes last)
      (asked : w.startBooked above routes = (last, routes))
      (still : Still ((last.failUnless (w.fits routes)).enrol (w.recordRunning routes)) w') :
      Started w table above (.ok (w.runs.length, none), w')
  | refused {routes before after : List CompiledRoute} {route : CompiledRoute}
      {middle last w' : World} {e : BusError}
      (compiled : w.environment.compile table = .ok routes)
      (split : routes = before ++ route :: after)
      (accepted : Run.Accepted (w.ask routes.length) 0 (w.handOut above routes.length) before
        middle)
      (refused : w.ask routes.length before.length route middle = (.error e, last))
      (asked : w.startBooked above routes = (last, before ++ [route]))
      (still : Still (((last.failUnless (w.fits routes)).openCall (.run w.runs.length)).2.enrol
        (w.recordRefused routes.length before route e last.nextCall)) w') :
      Started w table above (.ok (w.runs.length, some last.nextCall), w')

theorem crash_unless {x : World} (routes : List CompiledRoute) (parts : x.parts = w.parts) :
    (if routes.isEmpty || x.parts.settings.realizable then x else { x with crashed := true }) =
      x.failUnless (w.fits routes) := by
  have same : (routes.isEmpty || x.parts.settings.realizable) = w.fits routes := by rw [fits, parts]
  rw [same]
  cases w.fits routes with
  | true => simp [failUnless]
  | false => simp [failUnless]

theorem started (w : World) (table : RouteTable) (above : Nat) :
    Started w table above (w.start table above) := by
  cases compiled : w.environment.compile table with
  | error e =>
    rw [start, compiled]
    exact .rejected compiled
  | ok routes =>
    rw [start_of_compiled compiled]
    have silent := Run.ended_notMem_start w.parts.settings w.registry.length (w.ask routes.length)
      (w.handOut above routes.length) routes
    have begun := Run.begun_start w.parts.settings w.registry.length (w.ask routes.length)
      (w.handOut above routes.length) routes
    have asked : w.startBooked above routes = _ := congrArg Prod.fst (Run.start_booked
      w.parts.settings w.registry.length (w.ask routes.length) (w.handOut above routes.length)
      routes)
    dsimp only at asked ⊢
    generalize Run.start _ _ _ _ _ = result at silent begun asked ⊢
    cases begun with
    | @running last outputs accepted =>
      have before := quiet_of_accepted accepted
      have here : last.runs.length = w.runs.length := before.runs.length_eq.symm
      dsimp only at silent asked ⊢
      rw [crash_unless routes before.parts]
      refine .runs compiled accepted (asked.trans (by simp))
        (still_enter (x := last.failUnless (w.fits routes)) here silent)
    | @refused before after route middle last e outputs split accepted refused =>
      have before := quiet_of_refused accepted refused
      have here : last.runs.length = w.runs.length := before.runs.length_eq.symm
      dsimp only at silent asked ⊢
      rw [crash_unless routes before.parts]
      exact @Started.refused w table above routes _ _ route middle last _ e compiled split accepted
        refused (asked.trans (by simp))
        (still_enter (x := ((last.failUnless (w.fits routes)).openCall (.run w.runs.length)).2) here
          silent)

end MessageBridge.Rehearsal.World
