import FaultInjection.Admin
import FaultInjection.Admin.Locator
import FaultInjection.Client
import FaultInjection.CommandLine.Arguments
import FaultInjection.CommandLine.Launch
import FaultInjection.CommandLine.Option
import FaultInjection.Config
import FaultInjection.Config.Checked
import FaultInjection.Config.Issue
import FaultInjection.Config.Load
import FaultInjection.Config.Schema
import FaultInjection.Delay
import FaultInjection.Delay.Callbacks
import FaultInjection.Destination
import FaultInjection.Document
import FaultInjection.Document.Json
import FaultInjection.Document.Yaml
import FaultInjection.Document.Yaml.BlockText
import FaultInjection.Document.Yaml.InlineText
import FaultInjection.Document.Yaml.Layout
import FaultInjection.Document.Yaml.Layout.Builder
import FaultInjection.Document.Yaml.Node
import FaultInjection.Document.Yaml.Node.KeyText
import FaultInjection.Document.Yaml.Node.Reading
import FaultInjection.Document.Yaml.Node.Reference
import FaultInjection.Document.Yaml.Properties
import FaultInjection.Document.Yaml.Scalar
import FaultInjection.Document.Yaml.Token
import FaultInjection.Document.Yaml.Token.Scanner
import FaultInjection.Duration
import FaultInjection.Duration.Search
import FaultInjection.Exchange
import FaultInjection.Exchange.Transition
import FaultInjection.Files
import FaultInjection.Framing
import FaultInjection.Headers
import FaultInjection.Headers.HeaderRecord
import FaultInjection.Headers.Heap
import FaultInjection.History
import FaultInjection.Host
import FaultInjection.Listening
import FaultInjection.Log
import FaultInjection.Main
import FaultInjection.Message
import FaultInjection.Number.Basic
import FaultInjection.Number.Decimal
import FaultInjection.Proofs.Admin.Page
import FaultInjection.Proofs.Admin.Paging
import FaultInjection.Proofs.Admin.Query
import FaultInjection.Proofs.Config.Checked
import FaultInjection.Proofs.Config.Delays
import FaultInjection.Proofs.Config.Listing
import FaultInjection.Proofs.Config.Outline
import FaultInjection.Proofs.Config.Rejections
import FaultInjection.Proofs.Config.ReplacedHeaders
import FaultInjection.Proofs.Config.RulesAlone
import FaultInjection.Proofs.Config.Schema
import FaultInjection.Proofs.Config.Validity
import FaultInjection.Proofs.Delay.Callbacks
import FaultInjection.Proofs.Delay.Steps
import FaultInjection.Proofs.Document.KeyOrder
import FaultInjection.Proofs.Document.Yaml.KeyOrder
import FaultInjection.Proofs.Document.Yaml.Scalars
import FaultInjection.Proofs.Duration.Grammar
import FaultInjection.Proofs.Duration.Search
import FaultInjection.Proofs.Exchange.Answer
import FaultInjection.Proofs.Exchange.Conclusion
import FaultInjection.Proofs.Exchange.Course
import FaultInjection.Proofs.Exchange.Delivery
import FaultInjection.Proofs.Exchange.Departure
import FaultInjection.Proofs.Exchange.Destination
import FaultInjection.Proofs.Exchange.Ends
import FaultInjection.Proofs.Exchange.InboundView
import FaultInjection.Proofs.Exchange.OutsidePorts
import FaultInjection.Proofs.Exchange.Progress
import FaultInjection.Proofs.Exchange.Reading
import FaultInjection.Proofs.Exchange.Renumbering
import FaultInjection.Proofs.Exchange.RequestFraming
import FaultInjection.Proofs.Exchange.RequestLine
import FaultInjection.Proofs.Exchange.Settlement
import FaultInjection.Proofs.Exchange.Timers
import FaultInjection.Proofs.Exchange.Transparency
import FaultInjection.Proofs.Framing
import FaultInjection.Proofs.HeaderRecord.Representation
import FaultInjection.Proofs.Headers.Heap
import FaultInjection.Proofs.Headers.Replacing
import FaultInjection.Proofs.History.Recent
import FaultInjection.Proofs.Number.Exact
import FaultInjection.Proofs.Number.Integers
import FaultInjection.Proofs.Number.Rounding
import FaultInjection.Proofs.Proxy.Accounting
import FaultInjection.Proofs.Proxy.Chronicle
import FaultInjection.Proofs.Proxy.Departure
import FaultInjection.Proofs.Proxy.Isolation
import FaultInjection.Proofs.Proxy.Moment
import FaultInjection.Proofs.Proxy.TimerLengths
import FaultInjection.Proofs.Proxy.Timetable
import FaultInjection.Proofs.Rule.Changes
import FaultInjection.Proofs.Rule.Description
import FaultInjection.Proofs.Rule.HeaderChanges
import FaultInjection.Proofs.Rule.Precedence
import FaultInjection.Proofs.Rule.Retargeting
import FaultInjection.Proofs.Rule.Visibility
import FaultInjection.Proofs.RuleSource.Session
import FaultInjection.Proofs.Simulation.Order
import FaultInjection.Proofs.Simulation.Timetable
import FaultInjection.Proofs.Target.Appending
import FaultInjection.Proofs.Target.Commuting
import FaultInjection.Proofs.Target.Forms
import FaultInjection.Proofs.Target.Grammar
import FaultInjection.Proofs.Target.Overriding
import FaultInjection.Proofs.Target.Parameters
import FaultInjection.Proofs.Target.PercentEncoding
import FaultInjection.Proofs.Target.QueryBytes
import FaultInjection.Proofs.Target.QueryCodec
import FaultInjection.Proofs.Target.Replacement
import FaultInjection.Proofs.Target.RoundTrip
import FaultInjection.Proofs.Target.Steps
import FaultInjection.Proofs.Target.WellFormed
import FaultInjection.Proofs.Trial
import FaultInjection.Proofs.Trial.Waiting
import FaultInjection.Proxy
import FaultInjection.Record
import FaultInjection.Rule
import FaultInjection.Rule.Application
import FaultInjection.Rule.Description
import FaultInjection.Rule.Matching
import FaultInjection.Rule.Verdict
import FaultInjection.RuleSource
import FaultInjection.Simulation
import FaultInjection.Target
import FaultInjection.Target.Parameters
import FaultInjection.Text.Encoding
import FaultInjection.Text.LeadingInteger
import FaultInjection.Text.LetterCase
import FaultInjection.Text.Pieces
import FaultInjection.Timestamp
import FaultInjection.Trial
