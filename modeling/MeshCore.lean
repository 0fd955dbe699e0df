import MeshCore.Lib.Endian
import MeshCore.Wire.Header
import MeshCore.Lib.Framing
import MeshCore.Wire.Frame
import MeshCore.Session.Handshake
import MeshCore.Lib.CostGraph
import MeshCore.Lib.LabelSearch
import MeshCore.Lib.Collections
import MeshCore.Topology.Database
import MeshCore.Lib.Runs
import MeshCore.Session.Delivery
import MeshCore.Session.Restart
import MeshCore.Storage.StateFile
import MeshCore.Topology.Routes
import MeshCore.Topology.Sync
import MeshCore.Topology.LocalEntry
import MeshCore.Routing.Tasks
import MeshCore.Topology.Flooding
import MeshCore.Wire.Meta
import MeshCore.Lib.Budget
import MeshCore.Session.Queue
import MeshCore.Session.Window
import MeshCore.Session.Ttl
import MeshCore.Session.Acceptance
import MeshCore.Session.Cleanup
import MeshCore.Session.Reachability
import MeshCore.Grpc.Data
import MeshCore.Grpc.Queue
import MeshCore.Grpc.Delivery
import MeshCore.Grpc.Subscriptions
import MeshCore.Grpc.Node
import MeshCore.Grpc.Completion
import MeshCore.Grpc.Effects
import MeshCore.Grpc.Local
import MeshCore.Grpc.Schedules
import MeshCore.Grpc.Retries
import MeshCore.Grpc.Control
import MeshCore.Grpc.Origin
import MeshCore.Storage.Records
import MeshCore.Lib.InOrder
import MeshCore.Storage.Agreement
import MeshCore.Storage.Torn
import MeshCore.Storage.Rotation
import MeshCore.Topology.Duplicates
import MeshCore.Topology.Rejoin
import MeshCore.Topology.SequenceNumbers
import MeshCore.Topology.Readvertise
import MeshCore.Topology.Snapshot
import MeshCore.Routing.Neighbors
import MeshCore.Wire.Chunk
import MeshCore.Session.Overlap
import MeshCore.Routing.Hitless
import MeshCore.Storage.Watermark
import MeshCore.Topology.Executions
import MeshCore.Topology.Termination
import MeshCore.Lib.ShortestTree
import MeshCore.Topology.HopCount
import MeshCore.Wire.Interleaving
import MeshCore.Wire.Transfer
import MeshCore.Wire.Decoder
import MeshCore.Wire.Builder
import MeshCore.Wire.Checksum
import MeshCore.Wire.Canonical
import MeshCore.Wire.Cbor
import MeshCore.Session.ControlMeta
import MeshCore.Session.Drain
import MeshCore.Routing.Selection
import MeshCore.Session.Accounting
import MeshCore.Grpc.Rejection
import MeshCore.Grpc.Release
import MeshCore.Lib.Pipeline
import MeshCore.Network.Mesh
import MeshCore.Network.Flows
import MeshCore.Network.Delivery
import MeshCore.Network.Reading
import MeshCore.Network.Progress
import MeshCore.Topology.Views
import MeshCore.Network.Converged
import MeshCore.Network.Pair
import MeshCore.Network.Served
import MeshCore.Network.Confirmations
import MeshCore.Network.Subscribers
import MeshCore.Lib.Mailbox
import MeshCore.Session.Exchange
import MeshCore.Session.ExactlyOnce
import MeshCore.Grpc.Streams
import MeshCore.Grpc.StreamRuns
