import MessageBridge.Config

/-!
# Checking a configuration

The check reads a configuration and compiles its route table against its own connectors, without
running anything. It reports one line per route and their number, or the first thing that is
wrong.
-/

namespace MessageBridge

/-- The outcome of a check. -/
inductive CheckOutcome where
  /-- The file cannot be read. -/
  | unreadable (reason : String)
  /-- The file does not hold a configuration. -/
  | invalid (error : ConfigError)
  /-- The route table has a defect. -/
  | rejected (error : CompileError)
  /-- The routes of the table. -/
  | accepted (routes : List CompiledRoute)

namespace CheckOutcome

/-- The check of the contents of a file, or of the reason why it cannot be read. -/
def ofContents : Except String String → CheckOutcome
  | .error reason => .unreadable reason
  | .ok contents =>
    match Config.ofString? contents with
    | .error e => .invalid e
    | .ok config =>
      match config.environment.compile config.table with
      | .error e => .rejected e
      | .ok routes => .accepted routes

/-- The line about one route. -/
def routeLine (r : CompiledRoute) : String :=
  r.name ++ ": " ++ r.source.label ++ " -> [" ++
    ", ".intercalate (r.destinations.map Destination.label) ++ "] mode=" ++ r.mode.display ++
    " filters=" ++ Text.quotedList r.filters.names ++
    " projection=" ++ (r.projection.map Projection.name).getD "none" ++ "\n"

/-- What the check writes to the standard output. -/
def output : CheckOutcome → String
  | accepted routes =>
    String.join (routes.map routeLine) ++ toString routes.length ++ " route(s) OK\n"
  | _ => ""

/-- What the check writes to the error output about the file at `path`. -/
def errors (path : String) : CheckOutcome → String
  | unreadable reason =>
    "Error: " ++ Text.quoted ("Unable to read config file " ++ path ++ ": " ++ reason) ++ "\n"
  | invalid error =>
    "Error: " ++ Text.quoted ("Unable to parse config file " ++ path ++ ": " ++ error.message) ++
      "\n"
  | rejected error => "Error: " ++ error.describe ++ "\n"
  | accepted _ => ""

/-- The exit code of the check. -/
def exitCode : CheckOutcome → Nat
  | accepted _ => 0
  | _ => 1

end CheckOutcome

end MessageBridge
