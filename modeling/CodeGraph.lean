import CodeGraph.Bytes
import CodeGraph.Text.Utf8
import CodeGraph.Decimal.Reading
import CodeGraph.Decimal.Shortest
import CodeGraph.Json.Printer
import CodeGraph.Json.Reader
import CodeGraph.NodeId
import CodeGraph.Record
import CodeGraph.Metadata
import CodeGraph.Traversal
import CodeGraph.Multimap
import CodeGraph.Disk
import CodeGraph.Failure
import CodeGraph.Graph.Index
import CodeGraph.Graph.Basic
import CodeGraph.Graph.Query
import CodeGraph.Graph.Snapshot
import CodeGraph.Graph.Image
import CodeGraph.Graph.Persistence
import CodeGraph.Graph.Batch
import CodeGraph.Text.Ranges
import CodeGraph.Text.Alphanumeric
import CodeGraph.Text.Uppercase
import CodeGraph.Text.Blank
import CodeGraph.Text.Quoted
import CodeGraph.Rules.Syntax
import CodeGraph.Rules.Cursor
import CodeGraph.Rules.Parser
import CodeGraph.Rules.Schedule
import CodeGraph.Rules.Bindings
import CodeGraph.Rules.Answers
import CodeGraph.Transport
import CodeGraph.Metrics
import CodeGraph.Pack.Head
import CodeGraph.Pack.Item
import CodeGraph.Pack.Fault
import CodeGraph.Pack.Json
import CodeGraph.Pack.Value
import CodeGraph.Pack.Fields
import CodeGraph.Protocol.Wire
import CodeGraph.Protocol.Request
import CodeGraph.Protocol.Envelope
import CodeGraph.Protocol.Naming
import CodeGraph.Protocol.Response
import CodeGraph.Catalog
import CodeGraph.Session
import CodeGraph.Server.Questions
import CodeGraph.Server.Changes
import CodeGraph.Server.Dispatch
import CodeGraph.Framing
import CodeGraph.Server.Connection
import CodeGraph.Server.Handler
import CodeGraph.Path
import CodeGraph.Config
import CodeGraph.CommandLine
import CodeGraph.Client.Error
import CodeGraph.Client.Reply
import CodeGraph.Client.Settings
import CodeGraph.Client.Unix
import CodeGraph.Client.Pending
import CodeGraph.Client.WebSocket
import CodeGraph.Server.Listeners
import CodeGraph.Server.Network
import CodeGraph.Main
import CodeGraph.Proofs.Listing
import CodeGraph.Proofs.Traversal
import CodeGraph.Proofs.Traversal.BreadthFirst
import CodeGraph.Proofs.Traversal.DepthFirst
import CodeGraph.Proofs.Traversal.DepthBound
import CodeGraph.Proofs.Graph.Index
import CodeGraph.Proofs.Graph.Run
import CodeGraph.Proofs.Graph.Query
import CodeGraph.Proofs.Graph.Attributes
import CodeGraph.Proofs.Graph.Reachability
import CodeGraph.Proofs.NodeId
import CodeGraph.Proofs.Rules.Bindings
import CodeGraph.Proofs.Rules.Schedule
import CodeGraph.Proofs.Rules.Admissible
import CodeGraph.Proofs.Rules.Conjunction
import CodeGraph.Proofs.Rules.Unify
import CodeGraph.Proofs.Rules.Kinds
import CodeGraph.Proofs.Rules.Builtins
import CodeGraph.Proofs.Rules.Derived
import CodeGraph.Proofs.Rules.Order
import CodeGraph.Proofs.Rules.Derivation
import CodeGraph.Proofs.Rules.Reading
import CodeGraph.Proofs.Rules.Monotone
import CodeGraph.Proofs.Rules.Forget
import CodeGraph.Proofs.Rules.Anonymous
import CodeGraph.Proofs.Rules.Repeated
import CodeGraph.Proofs.Rules.Comparison
import CodeGraph.Proofs.Rules.Paths
import CodeGraph.Proofs.Graph.Snapshot
import CodeGraph.Proofs.Graph.Difference
import CodeGraph.Proofs.Disk
import CodeGraph.Proofs.Graph.Image
import CodeGraph.Proofs.Graph.Persistence
import CodeGraph.Proofs.Graph.Clearing
import CodeGraph.Proofs.Graph.Batch
import CodeGraph.Proofs.Graph.Delta
import CodeGraph.Proofs.Path
import CodeGraph.Proofs.Graph.Declaring
import CodeGraph.Proofs.Graph.Unflushed
import CodeGraph.Proofs.Catalog
import CodeGraph.Proofs.Server.Transition
import CodeGraph.Proofs.Server.Population
import CodeGraph.Proofs.Server.Isolation
import CodeGraph.Proofs.Server.Databases
import CodeGraph.Proofs.Server.Directories
import CodeGraph.Proofs.Server.Interleaving
import CodeGraph.Proofs.Pack.Head
import CodeGraph.Proofs.Pack.Json
import CodeGraph.Proofs.Client.Reply
import CodeGraph.Proofs.Server.Streaming
import CodeGraph.Proofs.Server.Incident
import CodeGraph.Proofs.Server.Version
import CodeGraph.Proofs.Framing
import CodeGraph.Proofs.Server.Transports
import CodeGraph.Proofs.Graph.Naming
import CodeGraph.Proofs.Server.Naming
import CodeGraph.Proofs.Server.ReadBack
import CodeGraph.Proofs.Pack.Item
import CodeGraph.Proofs.Pack.Value
import CodeGraph.Proofs.Rules.Layout
import CodeGraph.Proofs.Rules.Moves
import CodeGraph.Proofs.Rules.Readers
import CodeGraph.Proofs.Rules.RoundTrip
import CodeGraph.Proofs.Rules.Trail
import CodeGraph.Proofs.Pack.Fields
import CodeGraph.Proofs.Protocol.Wire
import CodeGraph.Proofs.Protocol.Request
import CodeGraph.Proofs.Protocol.Envelope
import CodeGraph.Proofs.Graph.Endpoints
import CodeGraph.Proofs.Pack.Document
import CodeGraph.Proofs.Protocol.Response
import CodeGraph.Proofs.Server.Contract
import CodeGraph.Proofs.Server.Departure
import CodeGraph.Proofs.Server.Course
import CodeGraph.Proofs.Client.Pending
import CodeGraph.Proofs.Client.Traffic
import CodeGraph.Proofs.Metrics
