import Switchboard.Bus.Basic
import Switchboard.Bus.Broker
import Switchboard.Bus.Client
import Switchboard.Bus.Clock
import Switchboard.Bus.Connection
import Switchboard.Bus.Delivery
import Switchboard.Bus.DispatchTree
import Switchboard.Bus.Error
import Switchboard.Bus.Executor
import Switchboard.Bus.Handler
import Switchboard.Bus.Publishing
import Switchboard.Bus.ReplyCollector
import Switchboard.Bus.Report
import Switchboard.Bus.Transport
import Switchboard.Codec.Basic
import Switchboard.Codec.Document
import Switchboard.Codec.Error
import Switchboard.Codec.Pool
import Switchboard.CorrelationId
import Switchboard.Decimal.Binary64
import Switchboard.Decimal.Layout
import Switchboard.Decimal.Shortest
import Switchboard.Json.Basic
import Switchboard.Json.Number
import Switchboard.Json.Record
import Switchboard.Json.Text
import Switchboard.Json.Token
import Switchboard.Log.Event
import Switchboard.Log.Level
import Switchboard.MessagePack.Item
import Switchboard.MessagePack.Record
import Switchboard.Packet.Header
import Switchboard.Packet.Literal
import Switchboard.Packet.Payload
import Switchboard.Packet.TypeRegistry
import Switchboard.Record
import Switchboard.Settings.Basic
import Switchboard.Settings.Load
import Switchboard.Settings.Merge
import Switchboard.Settings.Override
import Switchboard.Table
import Switchboard.Telemetry
import Switchboard.Text.Alphanumeric
import Switchboard.Text.Base64
import Switchboard.Text.Hex
import Switchboard.Text.Quoted
import Switchboard.Text.Utf8
import Switchboard.Topic.Basic
import Switchboard.Topic.Destination
import Switchboard.Topic.Filter
import Switchboard.Topic.Identity
import Switchboard.Topic.Segment
import Switchboard.Topic.Subject
import Switchboard.Validation
import Switchboard.Proofs.Base64
import Switchboard.Proofs.Codec.Conveyance
import Switchboard.Proofs.Codec.Detection
import Switchboard.Proofs.Codec.Pool
import Switchboard.Proofs.Delivery.Assembly
import Switchboard.Proofs.Delivery.Awaiting
import Switchboard.Proofs.Delivery.BrokerRun
import Switchboard.Proofs.Delivery.Change
import Switchboard.Proofs.Delivery.Gathering
import Switchboard.Proofs.Delivery.Hearing
import Switchboard.Proofs.Delivery.Operation
import Switchboard.Proofs.Delivery.Publishing
import Switchboard.Proofs.Delivery.Soundness
import Switchboard.Proofs.DispatchMap
import Switchboard.Proofs.DispatchNode
import Switchboard.Proofs.Document
import Switchboard.Proofs.Identity
import Switchboard.Proofs.Json.Number
import Switchboard.Proofs.Json.Record
import Switchboard.Proofs.Json.RoundTrip
import Switchboard.Proofs.MessagePack.Item
import Switchboard.Proofs.MessagePack.Record
import Switchboard.Proofs.MessagePack.RoundTrip
import Switchboard.Proofs.Packet.Header
import Switchboard.Proofs.Request.Answer
import Switchboard.Proofs.Request.Books
import Switchboard.Proofs.Request.Collecting
import Switchboard.Proofs.Request.Ends
import Switchboard.Proofs.Request.Exchange
import Switchboard.Proofs.Request.Publication
import Switchboard.Proofs.Request.ReplyAddress
import Switchboard.Proofs.Request.Sending
import Switchboard.Proofs.Request.Settlement
import Switchboard.Proofs.Topic.Segment
import Switchboard.Proofs.Topic.Subscription
import Switchboard.Proofs.Topic.Ownership
import Switchboard.Proofs.Delivery.Binding
import Switchboard.Proofs.Request.Answerable
import Switchboard.Proofs.Delivery.Desk
import Switchboard.Proofs.DispatchShape
import Switchboard.Proofs.Delivery.Likeness
import Switchboard.Proofs.Delivery.Routes
import Switchboard.Proofs.Delivery.LikenessRun
import Switchboard.Proofs.Delivery.Withdrawal
import Switchboard.Proofs.DispatchListing
import Switchboard.Proofs.Delivery.Ledger
import Switchboard.Proofs.Held
import Switchboard.Proofs.MessagePack.Prefix
import Switchboard.Proofs.Json.Prefix
import Switchboard.Proofs.Json.Members
import Switchboard.Proofs.Json.Ordered
import Switchboard.Proofs.Codec.Truncation
import Switchboard.Proofs.Codec.FieldStore
import Switchboard.Proofs.Codec.TypeTag
import Switchboard.Proofs.Delivery.Closing
import Switchboard.Proofs.Delivery.Isolation
import Switchboard.Proofs.Settings.Overlay
import Switchboard.Proofs.Settings.Setting
import Switchboard.Proofs.Settings.Override
import Switchboard.Proofs.Json.Reading
import Switchboard.Proofs.Settings.Document
import Switchboard.Proofs.Settings.Layers
import Switchboard.Proofs.Settings.Ranges
import Switchboard.Proofs.DispatchPaths
import Switchboard.Proofs.Topic.Origin
import Switchboard.Proofs.Executor
import Switchboard.Proofs.Request.Collector
import Switchboard.Proofs.Delivery.Dispatching
import Switchboard.Proofs.Delivery.Sifting
import Switchboard.Proofs.Codec.TypedDecoding
import Switchboard.Proofs.Json.Finite
import Switchboard.Proofs.Codec.Loans
import Switchboard.Proofs.Delivery.Registry
import Switchboard.Proofs.Topic.Matching
import Switchboard.Proofs.Request.IdForms
import Switchboard.Proofs.Settings.Nulls
import Switchboard.Proofs.Settings.Saving
import Switchboard.Proofs.Log.Attribution
import Switchboard.Proofs.Settings.Prevalence
import Switchboard.Proofs.Topic.Text
