import XStack.Async.Basic
import XStack.Basic
import XStack.Book
import XStack.Connector.Basic
import XStack.Connector.Consistency
import XStack.Connector.Dead
import XStack.Connector.Dial
import XStack.Data.Best
import XStack.Data.Except
import XStack.Data.HashMap
import XStack.Data.Index
import XStack.Data.Random
import XStack.Data.Recency
import XStack.Data.TryStream
import XStack.Ed25519
import XStack.Kad.Convergence
import XStack.Kad.Eviction
import XStack.Kad.Invariant
import XStack.Kad.Key
import XStack.Kad.Lookup
import XStack.Kad.Nodes
import XStack.Kad.Table
import XStack.Lts.Basic
import XStack.Multiaddr
import XStack.Quic.Basic
import XStack.Quic.Lifetime
import XStack.Stream.Basic
import XStack.Stream.Gate
import XStack.Switch.Basic
import XStack.Switch.Connect
import XStack.Switch.Incoming
import XStack.Switch.Protocols
import XStack.Tls.Basic
import XStack.X509.Basic
import XStack.X509.Symbolic
import XStack.Discovery.Basic
import XStack.Discovery.Erasure
import XStack.Async.Passes
import XStack.Switch.Residue
import XStack.Circuit.Reservation
import XStack.Circuit.NatAddrs
import XStack.Circuit.Count
import XStack.Stream.Conservation
import XStack.Data.Channel
import XStack.Event.Mediator
import XStack.Event.Delivery
import XStack.Data.ByteStream
import XStack.Rpc.Basic
import XStack.Data.Varint
import XStack.Rpc.Framing
import XStack.Circuit.Transport
import XStack.Tcp
import XStack.Dnsaddr.Basic
import XStack.Switch.Pool
import XStack.Dnsaddr.Resolution
import XStack.Dnsaddr.Peer
import XStack.Connector.Transports
import XStack.Connector.Reuse
import XStack.Circuit.Dcutr
import XStack.Switch.Selection
import XStack.Autonat.Client
import XStack.Autonat.Verdict
import XStack.Data.Scan
import XStack.Kad.Closest
import XStack.Kad.Nearest
import XStack.Book.ReverseLookup
import XStack.Connector.Limit
import XStack.Connector.HandedOut
import XStack.Kad.Discipline
import XStack.Switch.Raises
import XStack.Kad.Router
import XStack.Book.NatPeers
import XStack.Connector.Complete
import XStack.Data.Window
import XStack.Switch.Dialable
import XStack.Switch.Observed
import XStack.Data.Sections
import XStack.Dnsaddr.Names
import XStack.Async.Quiet
import XStack.Dnsaddr.Leaves
import XStack.Switch.Identify
import XStack.Circuit.Hop
import XStack.X509.Acceptance
import XStack.Data.Xor
import XStack.Kad.Metric
import XStack.Stream.Table
import XStack.Kad.Rpc
import XStack.Kad.Seeds
import XStack.Data.Split
import XStack.Discovery.Announcement
import XStack.Data.Protobuf
import XStack.Data.Wire
import XStack.Proto.Circuit
import XStack.Proto.Kad
import XStack.Proto.Switch
import XStack.Proto.Types
import XStack.Circuit.Supervisor
import XStack.Switch.Announce
import XStack.Switch.Gossip
import XStack.Circuit.Stop
import XStack.Circuit.StopServer
import XStack.Circuit.Sync
import XStack.Rpc.Ping
import XStack.Kad.FindNode
import XStack.Switch.Streams
import XStack.Connector.Handles
