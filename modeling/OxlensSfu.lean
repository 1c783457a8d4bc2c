import OxlensSfu.QueueDiscipline
import OxlensSfu.FloorViews
import OxlensSfu.BurstNumbering
import OxlensSfu.BurstClock
import OxlensSfu.BurstContinuity
import OxlensSfu.LayerNumbering
import OxlensSfu.RtxPacket
import OxlensSfu.AddressIndex
import OxlensSfu.StunLatch
import OxlensSfu.StunTrailing
import OxlensSfu.SpeakerAgreement
import OxlensSfu.FanoutSsrc
import OxlensSfu.RetransmissionSource
import OxlensSfu.VirtualRetransmission
import OxlensSfu.SessionOwnership
import OxlensSfu.FloorMembership
import OxlensSfu.Catalog
import OxlensSfu.TracksAck
import OxlensSfu.UfragIndex
import OxlensSfu.RtcpCompound
import OxlensSfu.PliRelay
import OxlensSfu.LayerFrames
import OxlensSfu.LayerGating
import OxlensSfu.VirtualSsrcs
import OxlensSfu.AnnouncedSsrcs
import OxlensSfu.RtxPairing
import OxlensSfu.SenderReports
import OxlensSfu.TrackLists
import OxlensSfu.MirroredCatalog
import OxlensSfu.AnnouncedSources
import OxlensSfu.TrackMirror
import OxlensSfu.TransportFeedback
import OxlensSfu.TwccRecorder
import OxlensSfu.TwccArrivals
import OxlensSfu.TwccCoverage
import OxlensSfu.ReceiverStats
import OxlensSfu.SourceTracking
import OxlensSfu.ReceiverReports
import OxlensSfu.RtcpBuilders
import OxlensSfu.RtcpRoundTrip
import OxlensSfu.BindingResponse
import OxlensSfu.BurstMap
import OxlensSfu.RewriterGate
import OxlensSfu.FloorIdempotence
import OxlensSfu.PoisedRewriters
import OxlensSfu.BurstLimits
import OxlensSfu.LastSeen
import OxlensSfu.Liveness
import OxlensSfu.PliRetry
import OxlensSfu.QueuedReplies
import OxlensSfu.ReportTicks
import OxlensSfu.FractionLost
import OxlensSfu.JitterOrigin
import OxlensSfu.IdleClock
import OxlensSfu.SendCounts
import OxlensSfu.SsrcUniqueness
import OxlensSfu.PayloadTypes
import OxlensSfu.RtpLayout
import OxlensSfu.Vp8Keyframe
import OxlensSfu.H264Keyframe
import OxlensSfu.CacheHistory
import OxlensSfu.Utf8Text
import OxlensSfu.MbcpRoundTrip
import OxlensSfu.TruncatedFloat
import OxlensSfu.RembBitrate
import OxlensSfu.TwccExtension
import OxlensSfu.StunAttributes
import OxlensSfu.CheckedReads
import OxlensSfu.ParserSafety
import OxlensSfu.WindowTally
import OxlensSfu.AggLogger
import OxlensSfu.EventCounts
import OxlensSfu.StunWalkers
import OxlensSfu.StepRefinement
import OxlensSfu.DtlsTransport
import OxlensSfu.CompoundEvents
import OxlensSfu.TransportStory
import OxlensSfu.SessionSteps
import OxlensSfu.HandshakeTasks
import OxlensSfu.SessionKeys
import OxlensSfu.DatagramOrder
import OxlensSfu.Interleaving
import OxlensSfu.PacketDispatch
import OxlensSfu.PacketSteps
import OxlensSfu.PacketOrder
import OxlensSfu.MuteMirror
import OxlensSfu.SyncReplies
import OxlensSfu.ParticipantMoves
import OxlensSfu.RoomFrames
import OxlensSfu.RoomEvents
import OxlensSfu.RoomIsolation
import OxlensSfu.EgressOrder
import OxlensSfu.ResendBudget
import OxlensSfu.RoomMoves
import OxlensSfu.RoomPushes
import OxlensSfu.HandshakeProgress
import OxlensSfu.Reception
import OxlensSfu.PliBursts
