import MessageBridge.Rehearsal.World

/-!
# The clockwork of a rehearsal

What happens by itself. The clock stands still while anything can happen, and then jumps to the
next time at which something will. `World.next?` does one thing, in a fixed order of trying; the
loops stop when their purpose is reached, and are bounded by a number of steps that no rehearsal
comes near.
-/

namespace MessageBridge.Rehearsal.World

/-! ## One thing at a time -/

/-- The first known answer is passed on. -/
def nextAnswer? (w : World) : Option World :=
  match w.answers with
  | [] => none
  | (id, answer) :: rest => some ({ w with answers := rest }.passOn id answer)

/-- The first run that can do something by itself does it. -/
def nextRun? (w : World) : Option World :=
  w.runs.zipIdx.findSome? fun (r, i) ↦ (r.run.next? w.clock).map fun reaction ↦ w.react i reaction

/-- The first connector that can change does so. -/
def nextConnector? {β : Type} (f : Connector → Option (β × Connector)) (w : World) :
    Option (β × World) :=
  (Connector.updateFirst f w.connectors).map fun (b, connectors) ↦
    (b, { w with connectors := connectors })

/-- A wait for records ends. -/
def nextWait? (w : World) : Option World :=
  (w.nextConnector? (Connector.endWait? w.clock.now)).map fun ((id, inTime), w) ↦
    w.close id (.reached inTime)

/-- A cancelled dispatcher ends and sends its calls away. -/
def nextHalt? (w : World) : Option World :=
  (w.nextConnector? Connector.halt?).map fun (calls, w) ↦
    calls.foldl (fun w id ↦ w.close id (.injected (.error .stopped))) w

/-- A dispatcher hands a message over. -/
def nextHandOver? (w : World) : Option World :=
  (w.nextConnector? Connector.handOver?).map fun ((s, d), w) ↦ w.handle s.handler d.call d.message

/-- A forsaken route whose handler is on no source any more releases its lanes. -/
def nextRelease? (w : World) : Option World :=
  w.runs.zipIdx.findSome? fun (r, run) ↦
    (List.range r.run.routes.length).findSome? fun i ↦
      if w.connectors.any (Connector.keeps (.route run i)) then none
      else (r.run.step? w.clock (.route i .release)).map fun reaction ↦ w.react run reaction

/-- A publish whose time has come ends. -/
def nextPublish? (w : World) : Option World :=
  (w.nextConnector? (Connector.conclude? w.clock.now)).map fun (c, w) ↦ w.concludePoint c

/-- The first thing that can happen by itself, done. -/
def next? (w : World) : Option World :=
  w.nextAnswer? <|> w.nextRun? <|> w.nextHalt? <|> w.nextHandOver? <|> w.nextRelease? <|>
    w.nextPublish? <|> w.nextWait?

/-- The next time at which something will happen by itself. -/
def nextTime? (w : World) : Option Nat :=
  (w.runs.flatMap (fun r ↦ r.run.routes.filterMap Running.nextWake?) ++
    w.connectors.flatMap Connector.times).min?

/-! ## Loops -/

/-- The bound on the number of steps of a loop. -/
def patience : Nat := 1000000000000

/-- Lets things happen until nothing can and the purpose is reached, while the clock does not pass
`limit`. -/
def advance (purpose : World → Bool) (limit : Option Nat) : Nat → World → World
  | 0, w => w
  | fuel + 1, w =>
    match w.next? with
    | some w => advance purpose limit fuel w
    | none =>
      if purpose w then w
      else
        match w.nextTime? with
        | none => w
        | some t =>
          if limit.all (t ≤ ·) then
            advance purpose limit fuel { w with clock := { w.clock with now := t } }
          else w

/-- Lets everything happen that can happen now. -/
def settle (w : World) : World := w.advance (fun _ ↦ true) none patience

/-- Waits for the outcome of a call. -/
def awaitCall (id : Nat) (w : World) : World :=
  w.advance (fun w ↦ (w.outcome? id).isSome) none patience

/-- Lets some time pass. -/
def sleep (millis : Nat) (w : World) : World :=
  let wakeAt := w.clock.now + millis
  let w := w.advance (fun _ ↦ false) (some wakeAt) patience
  { w with clock := { w.clock with now := wakeAt } }.settle

end MessageBridge.Rehearsal.World
