import Mlink.Client.Agreement
import Mlink.Client.Connection
import Mlink.Lib.Transition
import Mlink.Core.LinkScore
import Mlink.Core.Packing
import Mlink.Core.Reconnect
import Mlink.Protocol.Window
import Mlink.Core.Session.WireRoundTrip
import Mlink.Core.Session.RecvTermination
import Mlink.Core.Session.Failover
import Mlink.Core.Session.AckSafety
import Mlink.Core.Session.AckRaces
import Mlink.Core.Session.SackMirror
import Mlink.Core.Session.Resend
import Mlink.Core.Session.AckDebt
import Mlink.Core.Session.ActiveLink
import Mlink.Core.Session.Switchback
import Mlink.Protocol.WindowSet
import Mlink.Protocol.FrameExact
import Mlink.Protocol.RingHistory
import Mlink.Core.Node.LegacyRoundTrip
import Mlink.Core.Node.RecvRaw
import Mlink.Core.Node.Heartbeat
import Mlink.Core.Node.Modes
import Mlink.Core.Node.Nonce
import Mlink.Core.Node.MutualDial
import Mlink.Core.Node.Rooms
import Mlink.Core.Node.Tables
import Mlink.Core.Node.ReaderCleanup
import Mlink.Core.Node.PeerEvents
import Mlink.Core.Node.Bridges
import Mlink.Core.Node.Restart
import Mlink.Core.Node.Attempt
import Mlink.Core.Session.ReadAny
import Mlink.Core.Session.ManagerAlone
import Mlink.Core.Session.ManagerRaces
import Mlink.Daemon.Delivery
import Mlink.Daemon.HandshakeWait
import Mlink.Daemon.RoomLifecycle
import Mlink.Daemon.Isolation
import Mlink.Daemon.Bookkeeping
import Mlink.Daemon.ReaderSpawns
import Mlink.Daemon.PeerFabric
import Mlink.Daemon.Dispatch
import Mlink.Daemon.Lifecycle
import Mlink.Cli.ConnTracker
import Mlink.Cli.Role
import Mlink.Api.Stream
import Mlink.Api.PubSub
import Mlink.Api.RpcCleanup
import Mlink.Transport.Isolation
import Mlink.Lib.Recent
import Mlink.Lib.Word
import Mlink.Lib.Stride
import Mlink.Lib.Broadcast
import Mlink.Daemon.QueueHistory
import Mlink.Daemon.Backlog
import Mlink.Daemon.SwitchNotices
import Mlink.Core.TrustStore
import Mlink.Core.Scanner
import Mlink.Api.Subscriptions
import Mlink.Api.StreamHeader
import Mlink.Api.StreamIds
import Mlink.Client.Requests
import Mlink.Lib.Utf8
import Mlink.Transport.HexCodec
import Mlink.Transport.StreamFifo
import Mlink.Core.Node.Channel
import Mlink.Protocol.Codec
import Mlink.Core.HandshakeExchange
import Mlink.Api.RpcServer
import Mlink.Api.RpcEndToEnd
import Mlink.Lib.AtomicReplace
import Mlink.Daemon.RoomStore
import Mlink.Daemon.SessionLoop
import Mlink.Daemon.RoomViews
import Mlink.Daemon.Discovery
import Mlink.Daemon.Journey
import Mlink.Lib.Notify
import Mlink.Transport.ReadySignal
import Mlink.Lib.SocketAddr
import Mlink.Transport.MdnsDiscovery
import Mlink.Api.StreamTransfer
