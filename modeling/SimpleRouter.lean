import SimpleRouter.System
import SimpleRouter.Frames
import SimpleRouter.Outcomes
import SimpleRouter.Passes
import SimpleRouter.Steps
import SimpleRouter.Invariants
import SimpleRouter.Retries
import SimpleRouter.Provenance
import SimpleRouter.Accounting
import SimpleRouter.Paths
import SimpleRouter.Order
import SimpleRouter.Freshness
import SimpleRouter.Uniqueness
import SimpleRouter.Lib.Resolution
import SimpleRouter.Neighbours
import SimpleRouter.Interleaving
import SimpleRouter.Bounds
import SimpleRouter.IcmpErrors
import SimpleRouter.Verifying
import SimpleRouter.Lib.Stream
import SimpleRouter.VnsProtocol
import SimpleRouter.Server
import SimpleRouter.Reassembly
import SimpleRouter.Dispatch
import SimpleRouter.ServerBounds
import SimpleRouter.Transport
import SimpleRouter.HardwareInfo
import SimpleRouter.Client
import SimpleRouter.SourceCheck
import SimpleRouter.Lib.Best
import SimpleRouter.Lib.CText
import SimpleRouter.RoutingTable
import SimpleRouter.RouteSelection
import SimpleRouter.ChecksumAgreement
import SimpleRouter.PointwiseSweep
import SimpleRouter.EndOfStream
import SimpleRouter.Timeouts
import SimpleRouter.EchoReplies
import SimpleRouter.ArpResponder
import SimpleRouter.MalformedHeaders
import SimpleRouter.MessageLengths
import SimpleRouter.QuotedDatagrams
import SimpleRouter.Lib.BlockHash
import SimpleRouter.Sha1
import SimpleRouter.Digests
import SimpleRouter.Handshake
import SimpleRouter.Listener
import SimpleRouter.Session
import SimpleRouter.FailedSessions
import SimpleRouter.SessionCalls
import SimpleRouter.SessionSafety
import SimpleRouter.Settling
import SimpleRouter.SessionRuns
