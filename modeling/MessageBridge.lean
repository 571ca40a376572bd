import MessageBridge.Main
import MessageBridge.Rehearsal.Parts
import MessageBridge.Proofs.Execution
import MessageBridge.Proofs.Lane.Moves
import MessageBridge.Proofs.Route.Steps
import MessageBridge.Proofs.Route.Effects
import MessageBridge.Proofs.Route.Outstanding
import MessageBridge.Proofs.Route.History
import MessageBridge.Proofs.Route.Story
import MessageBridge.Proofs.Route.Commit
import MessageBridge.Proofs.Route.FanOut
import MessageBridge.Proofs.Lane.Ledger
import MessageBridge.Proofs.Lane.Fate
import MessageBridge.Proofs.Lane.Contract
import MessageBridge.Proofs.Route.Stop
import MessageBridge.Proofs.Engine.Routes
import MessageBridge.Proofs.Engine.Stop
import MessageBridge.Proofs.Rehearsal.Stop
import MessageBridge.Proofs.Lane.Relabel
import MessageBridge.Proofs.Lane.Waiters
import MessageBridge.Proofs.Route.Lanes
import MessageBridge.Proofs.Endless
import MessageBridge.Proofs.Lane.Load
import MessageBridge.Proofs.Route.Legs
import MessageBridge.Proofs.Route.Loss
import MessageBridge.Proofs.Route.Persistence
import MessageBridge.Proofs.Route.Effort
import MessageBridge.Proofs.Route.Cancellation
import MessageBridge.Proofs.Delivery.Alone
import MessageBridge.Proofs.Route.Turns
import MessageBridge.Proofs.Route.Return
import MessageBridge.Proofs.Route.Independence
import MessageBridge.Proofs.Lane.Crash
import MessageBridge.Proofs.Lane.Work
import MessageBridge.Proofs.Lane.Apart
import MessageBridge.Proofs.Lane.Twin
import MessageBridge.Proofs.Lane.Closing
import MessageBridge.Proofs.Route.Joining
import MessageBridge.Proofs.Route.Containment
import MessageBridge.Proofs.Compile.Checks
import MessageBridge.Proofs.Compile.Admission
import MessageBridge.Proofs.Compile.Defects
import MessageBridge.Proofs.Engine.Start
import MessageBridge.Proofs.Rehearsal.Quiet
import MessageBridge.Proofs.Rehearsal.Later
import MessageBridge.Proofs.Rehearsal.Start
import MessageBridge.Proofs.Rehearsal.AllOrNothing
import MessageBridge.Proofs.Rehearsal.Seats
import MessageBridge.Proofs.Rehearsal.Restart
import MessageBridge.Proofs.Json.Numerals
import MessageBridge.Proofs.Json.Scanning
import MessageBridge.Proofs.Named
import MessageBridge.Proofs.Json.ReadBack
import MessageBridge.Proofs.Codec.RoundTrip
import MessageBridge.Proofs.Ingress.Exchange
import MessageBridge.Proofs.Ingress.Fidelity
import MessageBridge.Proofs.Lane.Hands
import MessageBridge.Proofs.Route.Publishing
import MessageBridge.Proofs.Route.Attempts
import MessageBridge.Proofs.Rehearsal.Sources
import MessageBridge.Proofs.Route.Vacant
import MessageBridge.Proofs.Engine.Withdrawal
import MessageBridge.Proofs.Rehearsal.Withdrawal
import MessageBridge.Proofs.Bus.Release
import MessageBridge.Proofs.Bus.Traffic
import MessageBridge.Proofs.Bus.Fleet
import MessageBridge.Proofs.Bus.Lifecycle
import MessageBridge.Proofs.Bus.Alone
import MessageBridge.Proofs.Config.Wiring
import MessageBridge.Proofs.Document.Records
import MessageBridge.Proofs.Route.TableText
import MessageBridge.Proofs.Compile.Mentions
import MessageBridge.Proofs.Delivery.Rounds
import MessageBridge.Proofs.Route.Deliveries
import MessageBridge.Proofs.Route.Published
import MessageBridge.Proofs.Decimal.Nearest
import MessageBridge.Proofs.Document.Integers
import MessageBridge.Proofs.Document.JsonText
import MessageBridge.Proofs.Document.Dialects
import MessageBridge.Proofs.Config.Text
import MessageBridge.Proofs.Config.Reload
import MessageBridge.Proofs.Json.Verbatim
import MessageBridge.Proofs.Route.Selection
import MessageBridge.Proofs.Route.Stages
import MessageBridge.Proofs.Text.Integers
import MessageBridge.Proofs.Delivery.Expiry
import MessageBridge.Proofs.Route.Bounds
import MessageBridge.Proofs.Delivery.Backoff
import MessageBridge.Proofs.Delivery.Unstamped
import MessageBridge.Proofs.Route.Modes
import MessageBridge.Proofs.Decimal.Value
import MessageBridge.Proofs.Json.IntegerNumerals
import MessageBridge.Proofs.Message.Integers
import MessageBridge.Proofs.Filter.BasicUser
import MessageBridge.Proofs.Ingress.Subscription
import MessageBridge.Proofs.Egress.Accounting
import MessageBridge.Proofs.Egress.Closing
import MessageBridge.Proofs.Route.Audit
import MessageBridge.Proofs.Lane.Fairness
import MessageBridge.Proofs.Route.Fairness
import MessageBridge.Proofs.Rehearsal.Tuning
import MessageBridge.Proofs.Egress.Timely
import MessageBridge.Proofs.Egress.Belfry
import MessageBridge.Proofs.Egress.Wakeups
