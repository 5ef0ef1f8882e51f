import TonTunnel.Lib.BigEndian
import TonTunnel.Lib.Interleaving
import TonTunnel.Lib.EntryCount
import TonTunnel.Lib.Segments
import TonTunnel.Lib.Polling
import TonTunnel.Protocol.Server
import TonTunnel.Protocol.Layout
import TonTunnel.Protocol.Desktop
import TonTunnel.Protocol.Android
import TonTunnel.Protocol.Uplink
import TonTunnel.Protocol.Downlink
import TonTunnel.Egress.Policy
import TonTunnel.Egress.Node
import TonTunnel.Egress.Threads
import TonTunnel.Egress.Moves
import TonTunnel.Egress.Effects
import TonTunnel.Egress.Ownership
import TonTunnel.Egress.Events
import TonTunnel.Egress.Table
import TonTunnel.Egress.Registration
import TonTunnel.Egress.Accounting
import TonTunnel.Egress.JoinSafety
import TonTunnel.Egress.CloseTarget
import TonTunnel.Egress.Mediation
import TonTunnel.Egress.Isolation
import TonTunnel.Egress.OpenOutcome
import TonTunnel.Egress.Destinations
import TonTunnel.Lib.Pending
import TonTunnel.Egress.AdnlBackend
import TonTunnel.Egress.PendingQueries
import TonTunnel.Egress.Descriptors
import TonTunnel.Protocol.Unknown
import TonTunnel.Protocol.Partition
import TonTunnel.Protocol.Measure
import TonTunnel.Egress.Teardown
import TonTunnel.Egress.Timing
import TonTunnel.Lib.Fifo
import TonTunnel.Egress.Gauge
import TonTunnel.Client.History
import TonTunnel.Client.Core
import TonTunnel.Client.Queues
import TonTunnel.Client.Demux
import TonTunnel.Client.Transport
import TonTunnel.Client.TransportQueues
import TonTunnel.Client.Leak
import TonTunnel.Client.OpenPhase
import TonTunnel.Client.OpenClock
import TonTunnel.Client.OpenCodes
import TonTunnel.Client.Stale
import TonTunnel.Lib.Coupled
import TonTunnel.Client.Socks
import TonTunnel.Client.SocksMoves
import TonTunnel.Tunnel.Wire
import TonTunnel.Tunnel.FarEnd
import TonTunnel.Tunnel.Downstream
import TonTunnel.Egress.Confidentiality
import TonTunnel.Tunnel.NearEnd
import TonTunnel.Tunnel.Bridge
import TonTunnel.Tunnel.System
import TonTunnel.Tunnel.Integrity
import TonTunnel.Tunnel.Lifetime
import TonTunnel.Tunnel.Upstream
import TonTunnel.Tunnel.InOrder
import TonTunnel.Tunnel.Sending
import TonTunnel.Tunnel.Endings
import TonTunnel.Tunnel.HalfOpen
import TonTunnel.Handler.Handshake
import TonTunnel.Handler.Session
import TonTunnel.Handler.Moves
import TonTunnel.Handler.Requests
import TonTunnel.Handler.Sockets
import TonTunnel.Handler.Idle
import TonTunnel.Handler.Android
import TonTunnel.Handler.CloseOnce
import TonTunnel.Lib.Buffer
import TonTunnel.Lib.Datagram
import TonTunnel.Lib.DnsMessage
import TonTunnel.Lib.Find
import TonTunnel.Lib.Utf16
import TonTunnel.Lib.FlatJson
import TonTunnel.Lib.Regex
import TonTunnel.Dns.Query
import TonTunnel.Dns.Bounds
import TonTunnel.Dns.Checksum
import TonTunnel.Dns.Reply
import TonTunnel.Dns.Names
import TonTunnel.Dns.Filter
import TonTunnel.Dns.CaseBlind
import TonTunnel.Dns.Verdict
import TonTunnel.Dns.Doh
import TonTunnel.Config.EgressAddress
import TonTunnel.Config.JsonField
import TonTunnel.Config.Load
import TonTunnel.App.SystemProxy
import TonTunnel.App.ProxyRecovery
import TonTunnel.App.Sessions
import TonTunnel.App.Stages
import TonTunnel.App.Crew
import TonTunnel.Lib.Waiting
import TonTunnel.Egress.JoinOrder
import TonTunnel.Lib.Outcome
import TonTunnel.Handler.AndroidRequests
import TonTunnel.Lib.Quoted
import TonTunnel.Config.Runtime
import TonTunnel.Egress.Delivery
import TonTunnel.Dns.Service
import TonTunnel.Client.NativeContext
import TonTunnel.Client.NativeOnce
