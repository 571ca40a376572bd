import MessageBridge.Check
import MessageBridge.Rehearsal.Step

/-!
# Command line

`--config FILE` names the configuration. With `--check` its route table is compiled and reported;
without, the routes run until the standard input ends.
-/

namespace MessageBridge

open Rehearsal (World)

/-- What the command line asks for. -/
structure Invocation where
  /-- The configuration file. -/
  config : Option String
  /-- Whether it is only checked. -/
  check : Bool

namespace Invocation

/-- The invocation that some arguments ask for, after what was read before. -/
def ofArguments? (before : Invocation) : List String → Option Invocation
  | [] => if before.config.isSome then some before else none
  | "--check" :: rest => ofArguments? { before with check := true } rest
  | "--config" :: file :: rest | "-c" :: file :: rest =>
    if before.config.isSome then none else ofArguments? { before with config := some file } rest
  | _ => none

/-- The usage line. -/
def usage : String := "Usage: configurable-bridge [--check] --config <FILE>\n"

end Invocation

/-- The world of a configuration: its connectors, all registered. -/
def Config.world (c : Config) (wall : Int) : World :=
  let parts : Rehearsal.EngineParts :=
    ⟨c.settings, FilterRegistry.builtins, ProjectionRegistry.builtins, c.codecs⟩
  let w := { World.empty wall parts with
    connectors := (c.buildConnectors Rehearsal.Subscriber).map .memory }
  (List.range w.connectors.length).foldl (fun w i ↦ (w.register i).2) w

/-- The log of some events, from the level of information on. -/
def logText (events : List Event) : String :=
  String.join ((events.map Event.line).filterMap fun l ↦
    if l.level = .debug then none else some (l.render ++ "\n"))

/-- Performs a step and logs what happened. -/
def performLogged (step : Rehearsal.Step) (w : World) : IO (Rehearsal.Answer × World) := do
  let done := w.perform step
  IO.print (logText done.events)
  return (done.answer, done.world)

/-- Reads the standard input to its end. -/
partial def awaitEndOfInput (input : IO.FS.Stream) : IO Unit := do
  if (← input.getLine).isEmpty then return
  awaitEndOfInput input

/-- Runs the routes of a configuration until the standard input ends. -/
def runBridge (c : Config) : IO UInt32 := do
  let (started, w) ← performLogged (.start "bridge" c.table none) (c.world 0)
  match started with
  | .started (.error e) =>
    IO.eprint ("Error: " ++ e.message ++ "\n")
    return 1
  | _ =>
    awaitEndOfInput (← IO.getStdin)
    let (_, w) ← performLogged (.stop "bridge") w
    let _ ← performLogged .closeAll w
    return 0

/-- The contents of a file, or why it cannot be read. -/
def contentsOf (path : String) : IO (Except String String) := do
  try
    return .ok (← IO.FS.readFile path)
  catch e => return .error (toString e)

/-- Does what an invocation asks for. -/
def Invocation.perform (file : String) (check : Bool) : IO UInt32 := do
  let contents ← contentsOf file
  let outcome := CheckOutcome.ofContents contents
  match check, outcome, contents.toOption.bind fun s ↦ (Config.ofString? s).toOption with
  | false, .accepted _, some config => runBridge config
  | _, _, _ =>
    IO.print outcome.output
    IO.eprint (outcome.errors file)
    return outcome.exitCode.toUInt32

end MessageBridge

open MessageBridge in
/-- Performs the invocation of the command line. -/
def main (args : List String) : IO UInt32 := do
  match Invocation.ofArguments? ⟨none, false⟩ args with
  | some ⟨some file, check⟩ => Invocation.perform file check
  | _ =>
    IO.eprint Invocation.usage
    return 2
