import Sfup.Rtp.Headers
import Sfup.Rtp.VP8Parser

/-! The media path of `WebRtcConnection.cpp`: the packets it is given are renumbered and put on the
send queue, and the packets of the transport are delivered to its sinks. `none` is a call with
undefined behaviour: a copy past the end of `dataPacket::data`, or a call on a null sink. -/
namespace Sfup.Core
open Sfup.Rtp

/-- The payload type tables of the remote `SdpInfo`. -/
structure PayloadTypes where
  inOutPTMap : ℕ → Option ℕ
  outInPTMap : ℕ → Option ℕ
  payloadVector : List ℕ

namespace PayloadTypes

/-- The subscript operator of a map inserts 0 for a missing key. -/
def supportLoop (payloadType : ℕ) : List ℕ → (ℕ → Option ℕ) → Bool × (ℕ → Option ℕ)
  | [], inOutPTMap => (false, inOutPTMap)
  | rtp :: rest, inOutPTMap =>
    let inOutPTMap :=
      if (inOutPTMap rtp).isSome then inOutPTMap else Function.update inOutPTMap rtp (some 0)
    if inOutPTMap rtp = some payloadType then (true, inOutPTMap)
    else supportLoop payloadType rest inOutPTMap

def supportPayloadType (s : PayloadTypes) (payloadType : ℕ) : Bool × PayloadTypes :=
  if (s.inOutPTMap payloadType).isSome then
    let (found, inOutPTMap) := supportLoop payloadType s.payloadVector s.inOutPTMap
    (found, { s with inOutPTMap })
  else (false, s)

def getExternalPT (s : PayloadTypes) (internalPT : ℕ) : ℕ := (s.inOutPTMap internalPT).getD internalPT

def getInternalPT (s : PayloadTypes) (externalPT : ℕ) : ℕ := (s.outInPTMap externalPT).getD externalPT

end PayloadTypes

inductive PacketType where
  | video
  | audio
  | other
deriving DecidableEq, Repr

structure DataPacket where
  comp : ℤ
  data : Mem
  length : ℕ
  type : PacketType

structure WebRtcConnection where
  bundle : Bool
  audioEnabled : Bool
  videoEnabled : Bool
  audioTransport : Bool
  videoTransport : Bool
  audioSink : Bool
  videoSink : Bool
  fbSink : Bool
  audioSourceSSRC : UInt32
  videoSourceSSRC : UInt32
  shouldSendFeedback : Bool
  slideShowMode : Bool
  sending : Bool
  seqNo : UInt16
  grace : UInt16
  sendSeqNo : UInt16
  seqNoOffset : UInt16
  sendQueue : List DataPacket
  remoteSdp : PayloadTypes

/-- What uninitialised locals hold. -/
structure Fresh where
  packet : DataPacket
  vp8 : RTPPayloadVP8
  recvSSRC : UInt32

/-- Locals on a stack of zeros. -/
def Fresh.zero : Fresh :=
  { packet := ⟨0, fun _ => 0, 0, .video⟩, vp8 := .zero, recvSSRC := 0 }

/-- What a call on the send side leaves for others. -/
inductive Output where
  | queued (packet : DataPacket)
  | discarded
  | red (headerLength : ℕ) (sequenceNumber : UInt16) (buf : Mem) (len : ℕ)

namespace WebRtcConnection

/-- The object after its constructor. -/
def new (audioEnabled videoEnabled : Bool) (remoteSdp : PayloadTypes) : WebRtcConnection :=
  { bundle := false, audioEnabled, videoEnabled, audioTransport := false, videoTransport := false,
    audioSink := false, videoSink := false, fbSink := false, audioSourceSSRC := 0, videoSourceSSRC := 0,
    shouldSendFeedback := true, slideShowMode := false, sending := true, seqNo := 1000, grace := 0,
    sendSeqNo := 0, seqNoOffset := 0, sendQueue := [], remoteSdp }

def changePayloadType (replace : ℕ → ℕ) (data : Mem) : Mem :=
  if RtcpHeader.isRtcp data 0 then data
  else
    let pt := RtpHeader.getPayloadType data 0
    if pt ≠ replace pt then RtpHeader.setPayloadType data 0 (replace pt) else data

def changeDeliverPayloadType (c : WebRtcConnection) (data : Mem) (type : PacketType) : Mem :=
  changePayloadType (fun pt => if type = .other then pt else c.remoteSdp.getExternalPT pt) data

def parseIncomingPayloadType (c : WebRtcConnection) (buf : Mem) (type : PacketType) : Mem :=
  changePayloadType (fun pt => if type = .other then pt else c.remoteSdp.getInternalPT pt) buf

/-- The packet that is put on the queue. The number 0 leaves its number as it is. -/
def dataPacket (c : WebRtcConnection) (fresh : Fresh) (comp : ℤ) (buf : Mem) (length : ℕ)
    (type : PacketType) (seqNum : UInt16) : DataPacket :=
  let data := fun i => if i < length then buf i else fresh.packet.data i
  let data := c.changeDeliverPayloadType data type
  let data := if seqNum ≠ 0 then RtpHeader.setSeqNumber data 0 seqNum else data
  { comp, data, length, type }

def queueData (c : WebRtcConnection) (fresh : Fresh) (comp : ℤ) (buf : Mem) (length : ℕ)
    (type : PacketType) (seqNum : UInt16) : Option (Output × WebRtcConnection) :=
  if !c.sending then some (.discarded, c)
  else if comp = -1 then
    let packet := { fresh.packet with comp := -1 }
    some (.queued packet, { c with sending := false, sendQueue := [packet] })
  else if c.sendQueue.length < 1000 then
    if 1500 < length then none
    else
      let packet := c.dataPacket fresh comp buf length type seqNum
      some (.queued packet, { c with sendQueue := c.sendQueue ++ [packet] })
  else some (.discarded, c)

def keyframe (fresh : Fresh) (buf : Mem) (len : ℕ) : Bool :=
  let headerLength := RtpHeader.getHeaderLength buf 0
  (RtpVP8Parser.parseVP8 buf fresh.vp8 headerLength (len - headerLength)).frameType = .kIFrame

def deliverSlideShow (c : WebRtcConnection) (fresh : Fresh) (buf : Mem) (len : ℕ) :
    Option (Option Output × WebRtcConnection) :=
  let grace := if keyframe fresh buf len then 1 else c.grace
  if grace ≠ 0 then
    (queueData { c with grace, seqNo := c.seqNo + 1 } fresh 0 buf len .video c.seqNo).map fun p =>
      (some p.1, if RtpHeader.getMarker buf 0 then { p.2 with grace := 0 } else p.2)
  else some (none, { c with grace })

/-- Recovered packets come back as calls of their own. -/
def deliverVideoData (c : WebRtcConnection) (fresh : Fresh) (buf : Mem) (len : ℕ) :
    Option (Option Output × WebRtcConnection) :=
  if !(c.videoTransport && c.videoEnabled) then some (none, c)
  else if RtcpHeader.isRtcp buf 0 then
    (c.queueData fresh 0 buf len .video 0).map fun p => (some p.1, p.2)
  else
    let c := { c with sendSeqNo := RtpHeader.getSeqNumber buf 0 }
    let isRed := decide (RtpHeader.getPayloadType buf 0 = 116)
    let (supported, remoteSdp) := if isRed then c.remoteSdp.supportPayloadType 116 else (true, c.remoteSdp)
    let c := { c with remoteSdp }
    if isRed && (!supported || c.slideShowMode) then
      some (some (.red (RtpHeader.getHeaderLength buf 0) (RtpHeader.getSeqNumber buf 0) buf len), c)
    else if c.slideShowMode then c.deliverSlideShow fresh buf len
    else
      let seqNum := if 0 < c.seqNoOffset then c.sendSeqNo - c.seqNoOffset else 0
      (c.queueData fresh 0 buf len .video seqNum).map fun p => (some p.1, p.2)

def deliverAudioData (c : WebRtcConnection) (fresh : Fresh) (buf : Mem) (len : ℕ) :
    Option WebRtcConnection :=
  if (if c.bundle then c.videoTransport else c.audioTransport) && c.audioEnabled then
    (c.queueData fresh 0 buf len .audio 0).map Prod.snd
  else some c

def setSlideShowMode (c : WebRtcConnection) (state : Bool) : WebRtcConnection :=
  if c.slideShowMode = state then c
  else if state then
    { c with seqNo := c.sendSeqNo - c.seqNoOffset, grace := 0, slideShowMode := true,
             shouldSendFeedback := false }
  else
    { c with seqNoOffset := c.sendSeqNo - c.seqNo + 1, slideShowMode := false,
             shouldSendFeedback := true }

/-- What one turn of `sendLoop` does to the queue. -/
def sendLoop (c : WebRtcConnection) : WebRtcConnection :=
  if !c.sending then c
  else
    match c.sendQueue with
    | [] => c
    | packet :: rest =>
      if packet.comp = -1 then { c with sending := false, sendQueue := rest }
      else { c with sendQueue := rest }

/-- The numbers of one RTCP packet of a compound are shifted back by the offset of the sent ones. -/
def shiftFeedback (seqNoOffset : UInt16) (m : Mem) (chead : ℕ) : Mem :=
  if RtcpHeader.packettype m chead = 201 then
    let highest := RtcpHeader.getHighestSeqnum m chead
    -- both operands are promoted to `int`, so the sum does not wrap here
    let m := if highest.toNat + seqNoOffset.toNat < highest.toNat then
        RtcpHeader.setSeqnumCycles m chead (RtcpHeader.getSeqnumCycles m chead + 1)
      else m
    RtcpHeader.setHighestSeqnum m chead (RtcpHeader.getHighestSeqnum m chead + seqNoOffset)
  else if RtcpHeader.packettype m chead = 205 then
    RtcpHeader.setNackPid m chead (RtcpHeader.getNackPid m chead + seqNoOffset)
  else m

/-- The loop over a compound packet; `movingBuf` is also the length walked so far. -/
def feedbackLoop (seqNoOffset : UInt16) (len : ℕ) : ℕ → Mem → ℕ → Mem
  | 0, m, _ => m
  | fuel + 1, m, movingBuf =>
    let rtcpLength := (RtcpHeader.getLength m movingBuf + 1) * 4
    let m := shiftFeedback seqNoOffset m movingBuf
    if movingBuf + rtcpLength < len then feedbackLoop seqNoOffset len fuel m (movingBuf + rtcpLength)
    else m

end WebRtcConnection

/-- A call on a sink. -/
inductive Delivery where
  | feedback (buf : Mem) (len : ℕ)
  | video (buf : Mem) (len : ℕ)
  | audio (buf : Mem) (len : ℕ)

namespace WebRtcConnection

/-- Every RTCP packet of a compound has at least four bytes, so `len + 1` turns are enough. -/
def deliverFeedback (c : WebRtcConnection) (buf : Mem) (len : ℕ) : Option Delivery :=
  if c.fbSink && c.shouldSendFeedback then
    some (.feedback (if 0 < c.seqNoOffset then feedbackLoop c.seqNoOffset len (len + 1) buf 0 else buf) len)
  else none

/-- RTP packets and sender reports on a transport of their own. -/
def deliverMedia (c : WebRtcConnection) (recvSSRC : UInt32) (buf : Mem) (len : ℕ)
    (mediaType : PacketType) : Option Delivery × WebRtcConnection :=
  match mediaType with
  | .audio =>
    if c.audioSink then
      (some (.audio (c.parseIncomingPayloadType buf .audio) len),
        if c.audioSourceSSRC = 0 then { c with audioSourceSSRC := recvSSRC } else c)
    else (none, c)
  | .video =>
    if c.videoSink then
      (some (.video (c.parseIncomingPayloadType buf .video) len),
        if c.videoSourceSSRC = 0 then { c with videoSourceSSRC := recvSSRC } else c)
    else (none, c)
  | .other => (none, c)

def deliverBundle (c : WebRtcConnection) (recvSSRC : UInt32) (buf : Mem) (len : ℕ) :
    Option (Option Delivery) :=
  if recvSSRC = c.videoSourceSSRC then
    if c.videoSink then some (some (.video (c.parseIncomingPayloadType buf .video) len)) else none
  else if recvSSRC = c.audioSourceSSRC then
    if c.audioSink then some (some (.audio (c.parseIncomingPayloadType buf .audio) len)) else none
  else some none

def recvSSRC (fresh : Fresh) (buf : Mem) : UInt32 :=
  let long (p : ℕ) : UInt32 := UInt32.ofNat ((buf.word p).toNat * 65536 + (buf.word (p + 2)).toNat)
  if RtcpHeader.isRtcp buf 0 then
    if RtcpHeader.packettype buf 0 = 200 then long 4 else fresh.recvSSRC
  else long 8

def onTransportData (c : WebRtcConnection) (fresh : Fresh) (buf : Mem) (len : ℕ)
    (mediaType : PacketType) : Option (Option Delivery × WebRtcConnection) :=
  if !c.audioSink && !c.videoSink && !c.fbSink then some (none, c)
  else if RtcpHeader.isFeedback buf 0 then some (c.deliverFeedback buf len, c)
  else if c.bundle then (c.deliverBundle (recvSSRC fresh buf) buf len).map fun d => (d, c)
  else some (c.deliverMedia (recvSSRC fresh buf) buf len mediaType)

end WebRtcConnection
end Sfup.Core
