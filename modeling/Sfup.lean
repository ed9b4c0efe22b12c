import Sfup.Lib.Ring
import Sfup.Lib.Transition
import Sfup.Lib.Fifo
import Sfup.Lib.Varint
import Sfup.Lib.Serial
import Sfup.Lib.Blocks
import Sfup.Client.ByteBuffer
import Sfup.Client.ByteBufferSpec
import Sfup.Client.ByteBufferRefinement
import Sfup.Client.Fields
import Sfup.Client.Packetizer
import Sfup.Client.ConnectionClient
import Sfup.Client.Handlers
import Sfup.Client.Framing
import Sfup.Client.Packets
import Sfup.Client.TypedFields
import Sfup.Client.Cipher
import Sfup.Client.Md5
import Sfup.Client.Md5Spec
import Sfup.Client.Reactions
import Sfup.Client.Receiving
import Sfup.Client.Login
import Sfup.Client.SigningOut
import Sfup.Client.Conductor
import Sfup.Client.PeerConnections
import Sfup.Lib.Memory
import Sfup.Rtp.Headers
import Sfup.Lib.Scaled
import Sfup.Rtp.BitRates
import Sfup.Rtp.VP8Parser
import Sfup.Rtp.PacketQueue
import Sfup.Rtp.Reordering
import Sfup.Core.WebRtcConnection
import Sfup.Core.SlideShow
import Sfup.Core.Routing
import Sfup.Core.Feedback
import Sfup.Media.ExternalOutput
import Sfup.Media.Reassembly
import Sfup.Media.Packaging
import Sfup.Media.RoundTrip
import Sfup.Lib.Text
import Sfup.Lib.OrdMap
import Sfup.Sdp.StringUtil
import Sfup.Sdp.SdpInfo
import Sfup.Sdp.ProcessSdp
import Sfup.Lib.Simulation
import Sfup.Sdp.Branches
import Sfup.Sdp.Handlers
import Sfup.Sdp.Collecting
import Sfup.Sdp.Reprocessing
import Sfup.Sdp.PayloadTypes
import Sfup.Sdp.Offers
import Sfup.Sdp.Lines
import Sfup.Sdp.Sections
import Sfup.Sdp.Recovery
import Sfup.Sdp.Codecs
import Sfup.Sdp.CodecRecovery
import Sfup.Sdp.Candidates
import Sfup.Lib.Walk
import Sfup.Rtp.RtcpProcessor
import Sfup.Rtp.RtcpAggregator
import Sfup.Rtp.Records
import Sfup.Rtp.Reports
import Sfup.Rtp.ReceiverReports
import Sfup.Rtp.ReportValues
import Sfup.Rtp.Compounds
import Sfup.Rtp.NackFilter
import Sfup.Rtp.NackNumbers
import Sfup.Rtp.Nacks
import Sfup.Rtp.Bandwidth
import Sfup.Rtp.RtcpForwarder
import Sfup.Core.Stats
import Sfup.Core.Walkers
import Sfup.Core.Forwarding
import Sfup.Core.NiceConnection
import Sfup.Core.OneToManyProcessor
import Sfup.Core.Subscribers
import Sfup.Core.FanOut
import Sfup.Core.ConnectionState
import Sfup.Core.IceStates
import Sfup.Core.DtlsTransport
import Sfup.Core.DtlsStates
import Sfup.Core.Encryption
import Sfup.Core.LocalCandidates
import Sfup.Media.InputProcessor
import Sfup.Lib.Json
import Sfup.Core.StatsText
import Sfup.Sdp.Accesses
import Sfup.Sdp.Recognition
import Sfup.Lib.Cursor
import Sfup.Core.RtpExtensionProcessor
import Sfup.Core.ExtensionBounds
import Sfup.Core.ExtensionElements
import Sfup.Core.Negotiation
import Sfup.Core.RemoteDescriptions
import Sfup.Sdp.Support
import Sfup.Rtp.Overflow
import Sfup.Core.HeaderLength
import Sfup.Media.Partition
import Sfup.Media.CopiedRanges
import Sfup.Media.Timestamps
import Sfup.Lib.Drain
import Sfup.Lib.Stores
import Sfup.Media.VideoDecoder
import Sfup.Media.AudioDecoder
import Sfup.Media.DecodedPictures
import Sfup.Media.VideoUtils
import Sfup.Media.Composition
import Sfup.Media.OutputBounds
import Sfup.Client.KeyExchange
import Sfup.Client.KeyRequests
import Sfup.Client.VarInts
import Sfup.Client.ReadAgain
import Sfup.Client.Positions
import Sfup.Client.Md5Digests
import Sfup.Common.Base64
import Sfup.Common.UrlDecode
import Sfup.Common.Utf8
import Sfup.Client.Utf16Strings
import Sfup.Lib.Occurrences
import Sfup.Common.Replace
import Sfup.Client.Replacements
import Sfup.Common.Split
import Sfup.Common.Trim
import Sfup.Lib.Monitor
import Sfup.Common.Queue
import Sfup.Common.ThreadPool
import Sfup.Common.Event
import Sfup.Core.PacketLoop
import Sfup.Core.SendLoop
