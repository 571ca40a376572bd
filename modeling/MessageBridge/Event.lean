import MessageBridge.Bus.Error
import MessageBridge.Route.Preparation

/-!
# Events

What a running bridge reports about itself. Every event has a level, a name that log queries can
rely on, named fields and a sentence; `Event.line` gives all four, and `LogLine.render` writes
them on one line.
-/

namespace MessageBridge

/-! ## Lines -/

/-- How much an event matters. -/
inductive Level where
  | debug
  | info
  | warn
deriving DecidableEq, Repr

/-- The name of a level. -/
def Level.name : Level → String
  | debug => "DEBUG"
  | info => "INFO"
  | warn => "WARN"

/-- An event as it is logged. -/
structure LogLine where
  /-- The level. -/
  level : Level
  /-- The name of the event. -/
  name : String
  /-- The fields. -/
  fields : List (String × String)
  /-- The event in words. -/
  text : String
deriving DecidableEq, Repr

/-- Level, name, the fields in the order of their names, and the sentence. -/
def LogLine.render (l : LogLine) : String :=
  let fields := l.fields.mergeSort fun a b ↦ decide (a.1 ≤ b.1)
  l.level.name ++ " " ++ l.name ++
    String.join (fields.map fun f ↦ " " ++ f.1 ++ "=" ++ f.2) ++ " | " ++ l.text

/-! ## Events -/

/-- A point of a bus that could not be closed. -/
inductive BusPoint where
  | ingress (name : String)
  | egress (name : String)
deriving DecidableEq, Repr

/-- Something that happened in a running bridge. Messages appear by their identifier, points and
lanes by their label. -/
inductive Event where
  /-- A bus was closed. -/
  | busClosed (bus : String)
  /-- A point of a bus could not be closed. -/
  | pointNotClosed (bus : String) (point : BusPoint) (error : BusError)
  /-- An egress point accepted a message. -/
  | egressAccepted (target message : String) (size : Nat)
  /-- An egress point refused a message. -/
  | egressRefused (target message : String) (size : Nat) (error : BusError)
  /-- The lanes of a destination were made. -/
  | poolCreated (route destination : String) (lanes depth : Nat)
  /-- The lanes of a destination were told to close. -/
  | poolClosing (destination : String)
  /-- The worker of a lane started. -/
  | workerStarted (worker destination : String)
  /-- The worker of a lane ended. -/
  | workerEnded (worker destination : String)
  /-- The worker of a lane was found crashed. -/
  | workerCrashed (worker : String)
  /-- A publish began. -/
  | publishBegun (worker destination message : String)
  /-- The bus accepted a publish. -/
  | publishAccepted (worker destination message : String)
  /-- The bus refused a publish. -/
  | publishRefused (worker destination message : String) (error : BusError)
  /-- Nobody waited for the answer to a job. -/
  | answerUnclaimed (worker destination : String)
  /-- A route received a message. -/
  | received (route message : String) (size : Nat)
  /-- A stopping route turned a message away. -/
  | turnedAway (route message : String)
  /-- A route dropped a message. -/
  | dropped (route source message : String) (reason : DropReason)
  /-- A projection of best effort failed. -/
  | passedOver (failure : PassedOver)
  /-- A message was handled by every destination. -/
  | delivered (route message : String) (published tolerated : Nat)
  /-- Some destinations are without a message. -/
  | undelivered (message : String) (error : AggregateError)
  /-- A destination will be tried again. -/
  | retryScheduled (route destination : String) (attempts : Nat) (delay : Duration)
      (error : BusError)
  /-- A destination is given up. -/
  | tolerated (route destination message : String) (attempts : Nat) (reason : GiveUpReason)
      (error : BusError)
  /-- A wait was broken off. -/
  | cancelled (route destination message : String) (attempts : Nat)
  /-- A route table was rejected. -/
  | tableRejected (error : CompileError)
  /-- A route was started. -/
  | routeStarted (route source : String) (destinations : Nat) (mode : DeliveryMode)
  /-- A route could not be subscribed. -/
  | routeRefused (route source : String) (error : BusError)
  /-- A route began to stop. -/
  | routeStopping (route : String) (inFlight : Nat)
  /-- A route stopped. -/
  | routeStopped (route : String)
  /-- All routes of a table were started. -/
  | engineStarted (routes buses : Nat)
  /-- All routes began to stop. -/
  | engineStopping (routes : Nat)
  /-- All routes stopped. -/
  | engineStopped
deriving DecidableEq, Repr

namespace Event

/-- The line of a component's event. -/
def lineOf (component : String) (level : Level) (name : String)
    (fields : List (String × String)) (text : String) : LogLine :=
  ⟨level, name, ("component", component) :: fields, text⟩

/-- The line of a lane worker's event. -/
def workerLine (worker destination : String) (level : Level) (name : String)
    (fields : List (String × String)) (text : String) : LogLine :=
  lineOf "lane_worker" level name
    ([("worker_id", worker), ("destination", destination)] ++ fields) text

/-- The line of a dropped message. -/
def dropLine (route source message : String) : DropReason → LogLine
  | .undecodable e =>
    line .warn "pipeline_decode_failed" [("err", e.message)] "dropping undecodable message"
  | .filtered filter =>
    line .debug "pipeline_filtered" [("filter", filter)] "message filtered out"
  | .filterFailed filter e =>
    line .warn "pipeline_filter_failed" [("filter", filter), ("err", e.message)]
      "filter failed; dropping message"
  | .projectionFailed (.missingField projection field) =>
    line .debug "pipeline_projection_missing_field"
      [("err", (ProjectionError.missingField projection field).message)]
      "strict projection dropped message"
  | .projectionFailed e =>
    line .warn "pipeline_projection_failed" [("err", e.message)]
      "projection failed; dropping message"
  | .unencodable e =>
    line .warn "pipeline_encode_failed" [("err", e.message)] "re-encode failed; dropping message"
where
  /-- The line with the fields that every drop has. -/
  line (level : Level) (name : String) (fields : List (String × String)) (text : String) :
      LogLine :=
    lineOf "pipeline" level name
      ([("route_label", route), ("source", source), ("msg_id", message)] ++ fields) text

/-- The event as it is logged. -/
def line : Event → LogLine
  | busClosed bus => lineOf "bus_adapter" .debug "bus_closed" [("bus", bus)] "bus closed"
  | pointNotClosed bus (.ingress name) e =>
    lineOf "bus_adapter" .warn "bus_close_failed"
      [("bus", bus), ("source_name", name), ("err", e.message)] "unable to stop ingress"
  | pointNotClosed bus (.egress name) e =>
    lineOf "bus_adapter" .warn "bus_close_failed"
      [("bus", bus), ("target_name", name), ("err", e.message)] "unable to close egress"
  | egressAccepted target message size =>
    lineOf "logged_egress" .debug "egress_publish_ok"
      [("target", target), ("msg_id", message), ("size", toString size)]
      "egress publish succeeded"
  | egressRefused target message size e =>
    lineOf "logged_egress" .warn "egress_publish_failed"
      [("target", target), ("msg_id", message), ("size", toString size), ("err", e.message)]
      "egress publish failed"
  | poolCreated route destination lanes depth =>
    lineOf "lane_pool" .debug "lane_pool_create"
      [("route_label", route), ("destination", destination), ("lanes", toString lanes),
        ("queue_depth", toString depth)] "lane pool created"
  | poolClosing destination =>
    lineOf "lane_pool" .debug "lane_pool_close" [("destination", destination)]
      "closing lane pool"
  | workerStarted worker destination =>
    workerLine worker destination .debug "lane_worker_start" [] "lane worker started"
  | workerEnded worker destination =>
    workerLine worker destination .info "lane_worker_stop" [("reason", "queue_closed")]
      "lane queue closed; stopping worker"
  | workerCrashed worker =>
    lineOf "lane_pool" .warn "lane_worker_join_failed" [("worker_id", worker)]
      "lane worker did not finish cleanly"
  | publishBegun worker destination message =>
    workerLine worker destination .debug "lane_publish_attempt" [("msg_id", message)]
      "attempting lane publish"
  | publishAccepted worker destination message =>
    workerLine worker destination .debug "lane_publish_ok" [("msg_id", message)]
      "lane publish succeeded"
  | publishRefused worker destination message e =>
    workerLine worker destination .warn "lane_publish_failed"
      [("msg_id", message), ("err", e.message)] "lane publish failed"
  | answerUnclaimed worker destination =>
    workerLine worker destination .debug "lane_completion_dropped" []
      "submitter stopped waiting for this job"
  | received route message size =>
    lineOf "ingress_handler" .debug "ingress_receive"
      [("route_label", route), ("msg_id", message), ("size", toString size)]
      "received inbound message"
  | turnedAway route message =>
    lineOf "ingress_handler" .debug "ingress_reject_shutting_down"
      [("route_label", route), ("msg_id", message)] "route stopping; refusing message"
  | dropped route source message reason => dropLine route source message reason
  | passedOver failure =>
    lineOf "projection" .warn "projection_best_effort_passthrough"
      [("projection", failure.projection), ("err", failure.error.message)]
      "best-effort projection failed, passing fields through"
  | delivered route message published givenUp =>
    lineOf "pipeline" .debug "pipeline_delivered"
      [("route_label", route), ("msg_id", message), ("published", toString published),
        ("tolerated", toString givenUp)] "message handled by every destination"
  | undelivered message e =>
    lineOf "pipeline" .warn "pipeline_undelivered"
      [("route_label", e.route), ("msg_id", message), ("err", e.message)]
      "message not delivered; source must not commit"
  | retryScheduled route destination attempts delay e =>
    lineOf "pipeline" .debug "delivery_retry_scheduled"
      [("route_label", route), ("destination", destination), ("attempt", toString attempts),
        ("delay_ms", toString (delay.millis % 18446744073709551616)), ("err", e.message)]
      "retrying destination"
  | tolerated route destination message attempts reason e =>
    lineOf "pipeline" .warn "delivery_tolerated"
      [("route_label", route), ("destination", destination), ("msg_id", message),
        ("attempt", toString attempts), ("reason", reason.text), ("err", e.message)]
      "giving up on destination under drop mode"
  | cancelled route destination message attempts =>
    lineOf "pipeline" .info "delivery_cancelled"
      [("route_label", route), ("destination", destination), ("msg_id", message),
        ("attempt", toString attempts), ("reason", "cancelled")]
      "route stopping; leaving message uncommitted"
  | tableRejected e =>
    lineOf "engine" .warn "route_compile_failed" [("err", e.message)] "route table rejected"
  | routeStarted route source destinations mode =>
    lineOf "route_lifecycle" .info "route_start"
      [("route_label", route), ("source", source), ("destinations", toString destinations),
        ("mode", mode.display)] "route started"
  | routeRefused route source e =>
    lineOf "route_lifecycle" .warn "route_start_failed"
      [("route_label", route), ("source", source), ("err", e.message)]
      "unable to subscribe route handler"
  | routeStopping route inFlight =>
    lineOf "route_lifecycle" .info "route_stop_start"
      [("route_label", route), ("in_flight", toString inFlight)] "stopping route"
  | routeStopped route =>
    lineOf "route_lifecycle" .info "route_stop_ok" [("route_label", route)] "route stopped"
  | engineStarted routes buses =>
    lineOf "engine" .info "engine_start_ok"
      [("routes", toString routes), ("buses", toString buses)] "routes started"
  | engineStopping routes =>
    lineOf "engine" .info "engine_stop_start" [("routes", toString routes)] "stopping routes"
  | engineStopped => lineOf "engine" .info "engine_stop_ok" [] "all routes stopped"

end Event

end MessageBridge
