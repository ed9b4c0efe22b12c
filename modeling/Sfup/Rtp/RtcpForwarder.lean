import Sfup.Rtp.RtcpProcessor

/-! The RTCP forwarder: the feedback of the one subscriber is rewritten in its buffer and sent on. -/
namespace Sfup.Rtp
open RtcpProcessor (Sources rtcpLength)

structure RtcpForwarder where
  rtcpData : Sources
  maxVideoBw : ℕ

namespace RtcpForwarder

/-- The constructor of the base class does not store its `maxVideoBw`. -/
def new (uninitialized _maxVideoBw : UInt32) : RtcpForwarder := ⟨.empty, uninitialized.toNat⟩

def addSourceSsrc (c : Call) (ssrc : ℕ) (f : RtcpForwarder) : RtcpForwarder :=
  { f with rtcpData := RtcpProcessor.addSourceSsrc c ssrc f.rtcpData }

def setMaxVideoBW (bandwidth : UInt32) (f : RtcpForwarder) : RtcpForwarder := { f with maxVideoBw := bandwidth.toNat }

def setPublisherBW (_bandwidth : UInt32) (f : RtcpForwarder) : RtcpForwarder := f

def analyzeSr (c : Call) (m : Mem) (chead : ℕ) (f : RtcpForwarder) : RtcpForwarder :=
  { f with rtcpData := RtcpProcessor.analyzeSr c m chead f.rtcpData }

def checkRtcpFb (f : RtcpForwarder) : RtcpForwarder := f

/-- One packet of a compound: reports get the number of the sink, bandwidths are capped. -/
def forwardPart (e : Endpoints) (maxVideoBw : ℕ) (m : Mem) (chead : ℕ) : Mem :=
  if RtcpHeader.packettype m chead = 201 then
    if RtcpHeader.getSourceSSRC m chead = e.videoSourceSSRC then RtcpHeader.setSSRC m chead e.videoSinkSSRC
    else RtcpHeader.setSSRC m chead e.audioSinkSSRC
  else if RtcpHeader.packettype m chead = 206 then
    if RtcpHeader.getBlockCount m chead = 15 then
      if RtcpHeader.isREMB m chead then
        let bitrate := RtcpHeader.bitrate m chead
        RtcpHeader.setREMBBitRate m chead (if bitrate < maxVideoBw then bitrate else maxVideoBw)
      else m
    else m
  else m

def forwardLoop (e : Endpoints) (maxVideoBw len : ℕ) (m : Mem) : Mem :=
  (Walk.loop rtcpLength (fun _ m p => ((), forwardPart e maxVideoBw m p)) len (len + 1) () m 0).2

/-- The length to send, which is 0 for a buffer that is not sent on, and the buffer. -/
def analyzeFeedback (c : Call) (buf : Mem) (len : ℕ) (f : RtcpForwarder) : (ℕ × Mem) × RtcpForwarder :=
  if RtcpProcessor.analyzes buf len then
    ((len, forwardLoop c.ends f.maxVideoBw len buf), f.addSourceSsrc c (RtcpHeader.getSourceSSRC buf 0))
  else ((0, buf), f)

/-- The calls of a forwarder. -/
inductive Event where
  | addSourceSsrc (c : Call) (ssrc : ℕ)
  | setMaxVideoBW (bandwidth : UInt32)
  | setPublisherBW (bandwidth : UInt32)
  | analyzeSr (c : Call) (m : Mem)
  | analyzeFeedback (c : Call) (buf : Mem) (len : ℕ)
  | checkRtcpFb

def step (f : RtcpForwarder) : Event → RtcpForwarder
  | .addSourceSsrc c ssrc => f.addSourceSsrc c ssrc
  | .setMaxVideoBW bandwidth => f.setMaxVideoBW bandwidth
  | .setPublisherBW bandwidth => f.setPublisherBW bandwidth
  | .analyzeSr c m => f.analyzeSr c m 0
  | .analyzeFeedback c buf len => (f.analyzeFeedback c buf len).2
  | .checkRtcpFb => f.checkRtcpFb

/-- The forwarder behind its calls. -/
def run (f : RtcpForwarder) (evs : List Event) : RtcpForwarder := evs.foldl step f

end RtcpForwarder
end Sfup.Rtp
