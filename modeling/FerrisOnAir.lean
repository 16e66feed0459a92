import FerrisOnAir.Foundation.Runs
import FerrisOnAir.Foundation.Emission
import FerrisOnAir.Foundation.RingWindow
import FerrisOnAir.Foundation.RingLog
import FerrisOnAir.Foundation.FirstSeen
import FerrisOnAir.Foundation.Signal
import FerrisOnAir.Foundation.Ticker
import FerrisOnAir.Foundation.Ownership
import FerrisOnAir.Tx.BufferManagement
import FerrisOnAir.Tx.Queue
import FerrisOnAir.Tx.QueueSystem
import FerrisOnAir.Tx.QueueInvariant
import FerrisOnAir.Tx.QueueRuns
import FerrisOnAir.Tx.QueueOwnership
import FerrisOnAir.Tx.System
import FerrisOnAir.Tx.SystemRuns
import FerrisOnAir.Util.RxRouter
import FerrisOnAir.Util.RxRouterSystem
import FerrisOnAir.Util.RxRouterRuns
import FerrisOnAir.Rsn.SecurityAssociation
import FerrisOnAir.Rsn.KeyEnvelope
import FerrisOnAir.Rsn.InitialHandshake
import FerrisOnAir.Rsn.InitialExchange
import FerrisOnAir.Rsn.KeyInstallation
import FerrisOnAir.Rsn.GroupKeys
import FerrisOnAir.Rsn.ReplayCounter
import FerrisOnAir.Rsn.PacketNumbers
import FerrisOnAir.Rsn.ReplayOrder
import FerrisOnAir.Lmac.ChannelState
import FerrisOnAir.Lmac.OffChannel
import FerrisOnAir.Lmac.OffChannelCompletion
import FerrisOnAir.Lmac.ChannelRuns
import FerrisOnAir.Lmac.Crypto
import FerrisOnAir.Sta.RxRouter
import FerrisOnAir.Sta.Routing
import FerrisOnAir.Sta.Freshness
import FerrisOnAir.Sta.ConnectionResponse
import FerrisOnAir.Sta.MsduTx
import FerrisOnAir.Sta.Connection
import FerrisOnAir.Sta.ConnectionRuns
import FerrisOnAir.Sta.CryptoLifetime
import FerrisOnAir.Sta.BeaconTimeout
import FerrisOnAir.Sta.ConnectionTracker
import FerrisOnAir.Awdl.Election
import FerrisOnAir.Awdl.Session
import FerrisOnAir.Awdl.Network
import FerrisOnAir.Foundation.Periodic
import FerrisOnAir.Awdl.Slots
import FerrisOnAir.Awdl.Overlap
import FerrisOnAir.Awdl.Arithmetic
import FerrisOnAir.Awdl.Spoofing
import FerrisOnAir.Awdl.MsduTx
import FerrisOnAir.Foundation.Buffer
import FerrisOnAir.Foundation.Slices
import FerrisOnAir.Foundation.PeekQueue
import FerrisOnAir.Lmac.KeySlots
import FerrisOnAir.Rx.ArcPool
import FerrisOnAir.Rx.Delivery
import FerrisOnAir.Lmac.LockFailure
import FerrisOnAir.Tx.Probe
import FerrisOnAir.Foundation.Parts
import FerrisOnAir.Tx.GatewayEcho
import FerrisOnAir.Tx.ProbeState
import FerrisOnAir.Tx.ProbedQueues
import FerrisOnAir.Awdl.Events
import FerrisOnAir.Awdl.Broadcast
import FerrisOnAir.Awdl.Management
import FerrisOnAir.Awdl.Interface
import FerrisOnAir.Awdl.Neighbors
import FerrisOnAir.Awdl.DataPath
import FerrisOnAir.Sta.HandshakeProbe
import FerrisOnAir.Sta.EapolFraming
import FerrisOnAir.Sta.EapolReception
import FerrisOnAir.Sta.EnvelopeBytes
import FerrisOnAir.Sta.MsduRetirement
import FerrisOnAir.Foundation.Unwinding
import FerrisOnAir.Util.Scan
import FerrisOnAir.Util.ScanCallback
import FerrisOnAir.Sta.Bss
import FerrisOnAir.Sta.BssScan
import FerrisOnAir.Tx.Wakers
import FerrisOnAir.Sta.ConnectionAttempt
import FerrisOnAir.Sta.ConnectionCleanup
import FerrisOnAir.Sta.ConnectionPolls
import FerrisOnAir.Sta.ConnectionAtomicity
import FerrisOnAir.Sta.ConnectionRefinement
