import Sfup.Rtp.Headers
import Sfup.Lib.OrdMap
import Sfup.Lib.Walk
import Sfup.Sdp.SdpInfo
import Mathlib.Data.Finset.Max

/-! What the RTCP processors keep of each source, and the compound packets they walk over. -/
namespace Sfup.Rtp
open Sfup.Sdp (MediaType)

/-- A reading of the clock. -/
structure Timeval where
  sec : ℤ
  usec : ℤ
deriving DecidableEq, Repr

/-- The milliseconds between two readings, as an unsigned number. -/
def Timeval.since (now last : Timeval) : UInt32 :=
  UInt32.ofInt ((now.sec - last.sec) * 1000 + (now.usec - last.usec).tdiv 1000)

/-- The milliseconds of a reading. -/
def Timeval.ms (t : Timeval) : ℤ := t.sec * 1000 + t.usec.tdiv 1000

structure SrData where
  srNtp : UInt32
  timestamp : Timeval
deriving DecidableEq

structure RtcpData where
  rrsReceivedInPeriod : UInt16 := 0
  totalPacketsLost : UInt32 := 0
  prevTotalPacketsLost : UInt32 := 0
  ratioLost : UInt8 := 0
  highestSeqNumReceived : UInt16 := 0
  seqNumCycles : UInt16 := 0
  extendedSeqNo : UInt32 := 0
  prevExtendedSeqNo : UInt32 := 0
  lastSr : UInt32 := 0
  reportedBandwidth : ℕ := 0
  delaySinceLastSr : UInt32 := 0
  nextPacketInMs : UInt32 := 0
  lastDelay : UInt32 := 0
  jitter : UInt32 := 0
  nackSeqnum : UInt16 := 0
  nackBlp : UInt16 := 0
  /-- The constructor does not set it. -/
  lastSrUpdated : Timeval
  lastREMBSent : Timeval := ⟨0, 0⟩
  lastRrWasScheduled : Timeval := ⟨0, 0⟩
  lastRrSent : Timeval := ⟨0, 0⟩
  shouldSendPli : Bool := false
  shouldSendREMB : Bool := false
  shouldSendNACK : Bool := false
  requestRr : Bool := false
  shouldReset : Bool := false
  mediaType : MediaType
  senderReports : List SrData := []
  nackedPackets : Finset ℕ := ∅

/-- The numbers that the sink and the source of a processor answer with. -/
structure Endpoints where
  audioSourceSSRC : ℕ
  videoSourceSSRC : ℕ
  audioSinkSSRC : ℕ
  videoSinkSSRC : ℕ

/-- What a call takes from its surroundings: the two endpoints, the clock, and memory that is read before it
is written. -/
structure Call where
  ends : Endpoints
  now : Timeval
  lastSrUpdated : Timeval
  delay : UInt32

namespace RtcpProcessor

abbrev Sources := OrdMap ℕ RtcpData

def addSourceSsrc (c : Call) (ssrc : ℕ) (rtcpData : Sources) : Sources :=
  match rtcpData.find? ssrc with
  | some _ => rtcpData
  | none => rtcpData.set ssrc
      { lastSrUpdated := c.lastSrUpdated
        mediaType := if ssrc = c.ends.audioSourceSSRC then .audioType else .videoType }

/-- The entry of a source that was just added. -/
def data (c : Call) (ssrc : ℕ) (rtcpData : Sources) : RtcpData :=
  (rtcpData.find? ssrc).getD { lastSrUpdated := c.lastSrUpdated, mediaType := .videoType }

/-- Only the last 20 sender reports are kept. -/
def analyzeSr (c : Call) (m : Mem) (chead : ℕ) (rtcpData : Sources) : Sources :=
  let recvSSRC := RtcpHeader.getSSRC m chead
  let rtcpData := addSourceSsrc c recvSSRC rtcpData
  let theData := data c recvSSRC rtcpData
  let ntp := UInt32.ofNat (RtcpHeader.getNtpTimestamp m chead / 2 ^ 16)
  let senderReports := theData.senderReports ++ [⟨ntp, c.now⟩]
  rtcpData.set recvSSRC { theData with
    senderReports := if 20 < senderReports.length then senderReports.tail else senderReports }

def rtcpLength (m : Mem) (chead : ℕ) : ℕ := (RtcpHeader.getLength m chead + 1) * 4

def isEmptyRr (m : Mem) (len : ℕ) : Bool := RtcpHeader.getBlockCount m 0 = 0 && rtcpLength m 0 = len

/-- The test before the loop of `analyzeFeedback`. -/
def analyzes (m : Mem) (len : ℕ) : Bool := RtcpHeader.isFeedback m 0 && !isEmptyRr m len

theorem rtcpLength_pos (m : Mem) (chead : ℕ) : 0 < rtcpLength m chead := by
  unfold rtcpLength
  omega

theorem find?_addSourceSsrc (c : Call) (ssrc : ℕ) (rtcpData : Sources) {k : ℕ} {d : RtcpData}
    (h : rtcpData.find? k = some d) : (addSourceSsrc c ssrc rtcpData).find? k = some d := by
  unfold addSourceSsrc
  split
  · exact h
  · rename_i hnone
    rw [OrdMap.find?_set, if_neg, h]
    rintro rfl
    rw [hnone] at h
    cases h

end RtcpProcessor
end Sfup.Rtp
