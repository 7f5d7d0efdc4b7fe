import HopTrace.Address.Basic
import HopTrace.Address.Reader
import HopTrace.Address.Text
import HopTrace.Barrier.Basic
import HopTrace.Barrier.Session
import HopTrace.Command.Args
import HopTrace.Command.Input
import HopTrace.Command.Options
import HopTrace.Command.Run
import HopTrace.Datagram
import HopTrace.Duration
import HopTrace.Endpoint
import HopTrace.Error
import HopTrace.Gate.Basic
import HopTrace.Gate.Session
import HopTrace.Handles
import HopTrace.Hook
import HopTrace.Hop.Basic
import HopTrace.Hop.Codec
import HopTrace.Json.Items
import HopTrace.Json.Layout
import HopTrace.Json.Record
import HopTrace.Json.Scan
import HopTrace.Json.Value
import HopTrace.Listener.Basic
import HopTrace.Listener.Clock
import HopTrace.Listening
import HopTrace.Log
import HopTrace.Main
import HopTrace.Network
import HopTrace.Number.Binary64
import HopTrace.Number.Shortest
import HopTrace.Params.Basic
import HopTrace.Params.Codec
import HopTrace.Plugin.Basic
import HopTrace.Plugin.Bundled
import HopTrace.Plugin.Dispatch
import HopTrace.Plugin.Recorder
import HopTrace.Plugin.Registry
import HopTrace.Probe
import HopTrace.Proofs.Route.Entries
import HopTrace.Proofs.Route.Walk
import HopTrace.Proofs.Trace.History
import HopTrace.Proofs.Trace.Move
import HopTrace.Proofs.Trace.OneThread
import HopTrace.Replay
import HopTrace.Route.Codec
import HopTrace.Route.Reduction
import HopTrace.Route.Table
import HopTrace.Signal.Basic
import HopTrace.Signal.Session
import HopTrace.Text.Blank
import HopTrace.Text.Digits
import HopTrace.Text.Hex
import HopTrace.Text.Printable
import HopTrace.Text.Quoted
import HopTrace.Trace.Basic
import HopTrace.Trace.Clock
import HopTrace.Trace.Step
import HopTrace.Proofs.Trace.Standing
import HopTrace.Proofs.Trace.Schedule
import HopTrace.Proofs.Trace.Balance
import HopTrace.Proofs.Trace.Outcome
import HopTrace.Proofs.Trace.Conclusion
import HopTrace.Proofs.Trace.Route
import HopTrace.Proofs.Trace.Effort
import HopTrace.Proofs.Trace.Readiness
import HopTrace.Proofs.Trace.Completion
import HopTrace.Proofs.Trace.Pending
import HopTrace.Proofs.Trace.Attribution
import HopTrace.Proofs.Gate.Calls
import HopTrace.Proofs.Gate.Move
import HopTrace.Proofs.Gate.Line
import HopTrace.Proofs.Gate.Accounts
import HopTrace.Proofs.Gate.Precedence
import HopTrace.Proofs.Gate.Prompt
import HopTrace.Proofs.Gate.Absence
import HopTrace.Proofs.Listener.Move
import HopTrace.Proofs.Listener.Quiet
import HopTrace.Proofs.Listener.Conservation
import HopTrace.Proofs.Waiting
import HopTrace.Proofs.Barrier.Calls
import HopTrace.Proofs.Barrier.Release
import HopTrace.Proofs.Signal.Calls
import HopTrace.Proofs.Signal.Wakes
import HopTrace.Proofs.Listener.Ending
import HopTrace.Proofs.Trace.Flight
import HopTrace.Proofs.Listener.Shutdown
import HopTrace.Proofs.Trace.Firing
import HopTrace.Proofs.Trace.EarlyStop
import HopTrace.Proofs.Trace.Chronicle
import HopTrace.Proofs.Route.Replay
import HopTrace.Proofs.Trace.Replay
import HopTrace.Proofs.Trace.Report
import HopTrace.Proofs.Trace.Mail
import HopTrace.Proofs.Trace.CleanUp
import HopTrace.Proofs.Address
import HopTrace.Proofs.Route.Exactness
import HopTrace.Proofs.Route.Bounds
import HopTrace.Proofs.Trace.Indifference
import HopTrace.Proofs.Trace.Course
import HopTrace.Proofs.Trace.Outside
import HopTrace.Proofs.Trace.Waits
import HopTrace.Proofs.Listener.Joining
import HopTrace.Proofs.Json.Places
import HopTrace.Proofs.Number.Rounding
import HopTrace.Proofs.Trace.LastHop
import HopTrace.Proofs.Route.Load
import HopTrace.Proofs.Trace.Clockwork
import HopTrace.Proofs.Trace.Pace
import HopTrace.Proofs.Json.Layout
import HopTrace.Proofs.Json.ReadBack
import HopTrace.Proofs.Address.Text
import HopTrace.Proofs.Params.Text
import HopTrace.Proofs.Route.Announced
import HopTrace.Proofs.Route.Text
import HopTrace.Proofs.Listener.Buffers
import HopTrace.Proofs.Plugin.EnableList
import HopTrace.Proofs.Plugin.Broadcast
import HopTrace.Proofs.Trace.Keys
import HopTrace.Proofs.Listening
