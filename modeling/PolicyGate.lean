import PolicyGate.CommandLine.Help
import PolicyGate.CommandLine.Invocation
import PolicyGate.CommandLine.LogLevel
import PolicyGate.CommandLine.Options
import PolicyGate.CommandLine.Report
import PolicyGate.CommandLine.Run
import PolicyGate.Config.Basic
import PolicyGate.Config.Document
import PolicyGate.Config.Load
import PolicyGate.Config.Setting
import PolicyGate.Document
import PolicyGate.Fault
import PolicyGate.Gatehouse
import PolicyGate.Host.Folder
import PolicyGate.Json.Form
import PolicyGate.Json.Lookup
import PolicyGate.Json.Read
import PolicyGate.Json.Reader
import PolicyGate.Json.Text
import PolicyGate.Json.Token
import PolicyGate.Json.Value
import PolicyGate.Main
import PolicyGate.Number.Binary64
import PolicyGate.Number.DecimalText
import PolicyGate.Number.Int64Text
import PolicyGate.Number.Layout
import PolicyGate.Number.Shortest
import PolicyGate.Offset.Basic
import PolicyGate.Offset.Coordinator
import PolicyGate.Offset.Exposition
import PolicyGate.Offset.Worker
import PolicyGate.Overview
import PolicyGate.Pipeline.Basic
import PolicyGate.Pipeline.Schedule
import PolicyGate.Pipeline.Stages
import PolicyGate.Pipeline.Step
import PolicyGate.Pipeline.Work
import PolicyGate.Policy.Document
import PolicyGate.Policy.Load
import PolicyGate.Policy.Service
import PolicyGate.Policy.Table
import PolicyGate.Proofs.Json.Formed
import PolicyGate.Proofs.Json.Lexed
import PolicyGate.Proofs.List.Update
import PolicyGate.Proofs.Number.Decimal
import PolicyGate.Proofs.Offset.Known
import PolicyGate.Proofs.Offset.Mapping
import PolicyGate.Proofs.Offset.Move
import PolicyGate.Proofs.Offset.Placement
import PolicyGate.Proofs.Offset.Step
import PolicyGate.Proofs.Pipeline.Answers
import PolicyGate.Proofs.Pipeline.Arrival
import PolicyGate.Proofs.Pipeline.Coordination
import PolicyGate.Proofs.Pipeline.Offers
import PolicyGate.Proofs.Pipeline.Step
import PolicyGate.Proofs.Policy.Reached
import PolicyGate.Proofs.Rule.Name
import PolicyGate.Proofs.Stage.Decision
import PolicyGate.Proofs.Stage.Gather
import PolicyGate.Proofs.Stage.Intake
import PolicyGate.Proofs.Stage.Release
import PolicyGate.Proofs.Store.Kept
import PolicyGate.Proofs.Topic.Stream
import PolicyGate.Record
import PolicyGate.Resource.Basic
import PolicyGate.Resource.Id
import PolicyGate.Rule.Apply
import PolicyGate.Rule.Basic
import PolicyGate.Rule.Builtin
import PolicyGate.Rule.Error
import PolicyGate.Rule.Item
import PolicyGate.Rule.Map
import PolicyGate.Rule.Registry
import PolicyGate.Rule.Set
import PolicyGate.Rule.Wire
import PolicyGate.Sorted.Map
import PolicyGate.Stage.Audit
import PolicyGate.Stage.Authorise
import PolicyGate.Stage.Ingress
import PolicyGate.Stage.Reading
import PolicyGate.Stage.Records
import PolicyGate.Stage.Reporter
import PolicyGate.Stage.Request
import PolicyGate.Stage.Users
import PolicyGate.Store.Address
import PolicyGate.Store.Any
import PolicyGate.Store.Error
import PolicyGate.Store.Location
import PolicyGate.Store.Memory
import PolicyGate.Store.Stored
import PolicyGate.Store.Table
import PolicyGate.Store.Timed
import PolicyGate.Subject
import PolicyGate.Subject.Fresh
import PolicyGate.Text.Blank
import PolicyGate.Text.Glyph
import PolicyGate.Text.Quoted
import PolicyGate.Text.Split
import PolicyGate.Time.Duration
import PolicyGate.Time.Epoch
import PolicyGate.Time.Instant
import PolicyGate.Time.Span
import PolicyGate.Time.Timestamp
import PolicyGate.Topic.Envelope
import PolicyGate.Topic.Log
import PolicyGate.Topic.Traffic
import PolicyGate.Wire.Format
import PolicyGate.Wire.Reader
import PolicyGate.Yaml.Classic.Document
import PolicyGate.Yaml.Classic.Scalar
import PolicyGate.Yaml.Classic.Scan
import PolicyGate.Yaml.Cursor
import PolicyGate.Yaml.Node
import PolicyGate.Yaml.Reader
import PolicyGate.Yaml.Revised.Document
import PolicyGate.Yaml.Revised.Scalar
import PolicyGate.Yaml.Revised.Scan
import PolicyGate.Yaml.Scalar
import PolicyGate.Yaml.Source
import PolicyGate.Yaml.Text
import PolicyGate.Yaml.Token
import PolicyGate.Yaml.Writer
import PolicyGate.Proofs.Offset.Reaping
import PolicyGate.Proofs.Resource.Directory
import PolicyGate.Proofs.Json.Reading
import PolicyGate.Proofs.Store.Remembered
import PolicyGate.Proofs.Pipeline.Recorded
import PolicyGate.Proofs.Resource.Chain
import PolicyGate.Proofs.Rule.Hierarchy
import PolicyGate.Proofs.Policy.Inherited
import PolicyGate.Proofs.Rule.Records
import PolicyGate.Proofs.Policy.Concealed
import PolicyGate.Proofs.Pipeline.Ledger
import PolicyGate.Proofs.Pipeline.Accounted
import PolicyGate.Proofs.Stage.Filter
import PolicyGate.Proofs.Pipeline.Enforced
import PolicyGate.Proofs.Store.Lifetime
import PolicyGate.Proofs.Policy.Declared
import PolicyGate.Proofs.Pipeline.Indexed
import PolicyGate.Proofs.Topic.Following
import PolicyGate.Proofs.Topic.Drained
import PolicyGate.Proofs.Pipeline.Consulted
import PolicyGate.Proofs.Pipeline.Topics
import PolicyGate.Proofs.Offset.Cancelled
import PolicyGate.Proofs.Pipeline.Marked
import PolicyGate.Proofs.Pipeline.Shutdown
import PolicyGate.Proofs.Wire.Messages
import PolicyGate.Proofs.Resource.Forest
import PolicyGate.Proofs.Rule.Levels
import PolicyGate.Proofs.Offset.Story
import PolicyGate.Proofs.Offset.Foreign
import PolicyGate.Proofs.Offset.Decided
import PolicyGate.Proofs.Rule.Unordered
import PolicyGate.Proofs.Stage.ReadBack
import PolicyGate.Proofs.Offset.Counted
import PolicyGate.Proofs.Offset.Deadlines
import PolicyGate.Proofs.Store.Fields
import PolicyGate.Proofs.Store.Retained
import PolicyGate.Proofs.Pipeline.Clock
import PolicyGate.Proofs.Pipeline.Registered
import PolicyGate.Proofs.Rule.History
