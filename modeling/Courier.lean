import Courier.Bus.Network
import Courier.Dispatch.Session
import Courier.Gateway.Address
import Courier.Gateway.Instances
import Courier.Main
import Courier.Provider.Inbound
import Courier.Report.Activity
import Courier.Report.Config
import Courier.Report.Errors
import Courier.Rpc.Script
import Courier.Rpc.Session
import Courier.Shutdown
import Courier.Proofs.Text.Utf8
import Courier.Proofs.Text.Trimming
import Courier.Proofs.Text.Hexadecimal
import Courier.Proofs.Decimal.Digits
import Courier.Proofs.Json.Tokens
import Courier.Proofs.Json.Texts
import Courier.Proofs.Json.Documents
import Courier.Proofs.Json.Values
import Courier.Proofs.Json.Records
import Courier.Proofs.Message.Commands
import Courier.Proofs.Message.Identifiers
import Courier.Proofs.Routing.Names
import Courier.Proofs.Routing.Keys
import Courier.Proofs.Routing.Patterns
import Courier.Proofs.Provider.Registrations
import Courier.Proofs.Provider.Hosting
import Courier.Proofs.Config.Hosting
import Courier.Proofs.Config.Durations
import Courier.Proofs.Shutdown.Drains
import Courier.Proofs.Time.Calendar
import Courier.Proofs.Time.Timestamps
import Courier.Proofs.Bus.Queues
import Courier.Proofs.Bus.Brokers
import Courier.Proofs.Bus.Deliveries
import Courier.Proofs.Bus.Traffic
import Courier.Proofs.Bus.Accounts
import Courier.Proofs.Bus.Routes
import Courier.Proofs.Bus.Exclusivity
import Courier.Proofs.Bus.DeadLetters
import Courier.Proofs.Bus.Consumers
import Courier.Proofs.Bus.Waiting
import Courier.Proofs.Bus.Keeping
import Courier.Proofs.Bus.Ephemeral
import Courier.Proofs.Bus.Requests
import Courier.Proofs.Bus.Rolls
import Courier.Proofs.Bus.Lingering
import Courier.Proofs.Bus.Outlines
import Courier.Proofs.Bus.Abandonment
import Courier.Proofs.Bus.Ordering
import Courier.Proofs.Bus.Sharing
import Courier.Proofs.Rpc.Breakers
import Courier.Proofs.Rpc.Traffic
import Courier.Proofs.Rpc.Probe
import Courier.Proofs.Rpc.Cooldown
import Courier.Proofs.Rpc.Interleaving
import Courier.Proofs.Rpc.Moves
import Courier.Proofs.Rpc.Recovery
import Courier.Proofs.Rpc.Attempts
import Courier.Proofs.Rpc.Execution
import Courier.Proofs.Rpc.Outcomes
import Courier.Proofs.Rpc.Clock
import Courier.Proofs.Rpc.Targets
import Courier.Proofs.Rpc.Reports
import Courier.Proofs.Rpc.Openings
import Courier.Proofs.Rpc.Rotation
import Courier.Proofs.Rpc.Failover
import Courier.Proofs.Rpc.Events
import Courier.Proofs.Rpc.Backoffs
import Courier.Proofs.Dispatch.Courses
import Courier.Proofs.Dispatch.Retries
import Courier.Proofs.Dispatch.Settling
import Courier.Proofs.Dispatch.Attempts
import Courier.Proofs.Dispatch.Addressing
import Courier.Proofs.Dispatch.Misrouting
import Courier.Proofs.Dispatch.BlankKeys
import Courier.Proofs.Dispatch.Pipelines
import Courier.Proofs.Dispatch.Enrollment
import Courier.Proofs.Dispatch.FanOut
import Courier.Proofs.Dispatch.Dealings
import Courier.Proofs.Dispatch.Closing
import Courier.Proofs.Dispatch.Rest
import Courier.Proofs.Dispatch.Schedule
import Courier.Proofs.Dispatch.Shutdowns
import Courier.Proofs.Dispatch.Ticks
import Courier.Proofs.Dispatch.Lodging
import Courier.Proofs.Dispatch.Launches
import Courier.Proofs.Dispatch.Refusals
import Courier.Proofs.Dispatch.Returns
import Courier.Proofs.Dispatch.Endings
import Courier.Proofs.Dispatch.Work
import Courier.Proofs.Dispatch.Service
import Courier.Proofs.Gateway.Bodies
import Courier.Proofs.Gateway.Endings
import Courier.Proofs.Provider.Forwarding
import Courier.Proofs.Webhook.Paths
import Courier.Proofs.Webhook.Ingress
