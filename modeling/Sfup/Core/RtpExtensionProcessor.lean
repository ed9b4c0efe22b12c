import Sfup.Core.WebRtcConnection
import Sfup.Rtp.RtcpProcessor
import Sfup.Lib.Cursor

/-! `RtpExtensionProcessor.cpp`: the header extensions of the packets that are sent. -/
namespace Sfup.Core
open Sfup.Sdp Sfup.Rtp

def translationMap : List (Str × ℕ) :=
  [("urn:ietf:params:rtp-hdrext:ssrc-audio-level".toList, 0),
   ("http://www.webrtc.org/experiments/rtp-hdrext/abs-send-time".toList, 1),
   ("urn:ietf:params:rtp-hdrext:toffset".toList, 2),
   ("urn:3gpp:video-orientation".toList, 3),
   ("http://www.webrtc.org/experiments/rtp-hdrext/playout-delay".toList, 4)]

/-- The two arrays of `RtpExtensionProcessor`. They have ten places; a higher one is behind their end. -/
structure ExtensionMaps where
  extMapVideo : ℕ → ℕ := fun _ => 0
  extMapAudio : ℕ → ℕ := fun _ => 0

def ExtensionMaps.setSdpInfo (theInfo : SdpInfo) (e : ExtensionMaps) : ExtensionMaps :=
  theInfo.extMapVector.foldl (fun e theMap =>
    match theMap.mediaType, translationMap.lookup theMap.uri with
    | .videoType, some value => { e with extMapVideo := Function.update e.extMapVideo theMap.value.toNat value }
    | .audioType, some value => { e with extMapAudio := Function.update e.extMapAudio theMap.value.toNat value }
    | _, _ => e) e

namespace ExtensionMaps

/-- The table for a packet. Others are not processed. -/
def extMap (e : ExtensionMaps) : PacketType → Option (ℕ → ℕ)
  | .video => some e.extMapVideo
  | .audio => some e.extMapAudio
  | .other => none

/-- Six bits of the seconds and 18 bits of their fraction. The product with 1e-6 is a double, which is rounded down;
the microseconds have no multiple of it but 0, so that it is off by too little to matter. -/
def absSendTime (theNow : Timeval) : ℕ := (theNow.sec % 64).toNat * 2 ^ 18 + (theNow.usec * (2 ^ 18 - 1) / 1000000).toNat

def processAbsSendTime (theNow : Timeval) (m : Mem) (buf : ℕ) : Mem := RtcpHeader.setTriple m (buf + 1) (absSendTime theNow)

def extId (m : Mem) (extBuffer : ℕ) : ℕ := (m extBuffer).toNat / 16

def extLength (m : Mem) (extBuffer : ℕ) : ℕ := (m extBuffer).toNat % 16

def advance (m : Mem) (extBuffer : ℕ) : ℕ := extLength m extBuffer + 2

def isAbsSendTime (extMap : ℕ → ℕ) (m : Mem) (extBuffer : ℕ) : Bool :=
  decide (extId m extBuffer ≠ 0 ∧ extMap (extId m extBuffer) ≠ 0 ∧ extMap (extId m extBuffer) = 1)

def processElement (extMap : ℕ → ℕ) (now : ℕ → Timeval) (m : Mem) (extBuffer : ℕ) : Mem :=
  if isAbsSendTime extMap m extBuffer then processAbsSendTime (now extBuffer) m extBuffer else m

def extensionLoop (extMap : ℕ → ℕ) (now : ℕ → Timeval) (totalExtLength fuel : ℕ) (m : Mem) : Option Mem :=
  Cursor.loop advance (processElement extMap now) (totalExtLength * 4) fuel (1 : BitVec 16) 16 m

/-- The length or 0, and the bytes; none if the loop does not end within `fuel` turns. -/
def processRtpExtensions (e : ExtensionMaps) (now : ℕ → Timeval) (fuel : ℕ) (p : DataPacket) : Option (ℕ × Mem) :=
  if RtpHeader.hasextension p.data 0 ≠ 0 then
    match e.extMap p.type with
    | none => some (0, p.data)
    | some extMap =>
      if RtpHeader.getExtId p.data 0 = 0xBEDE then
        (extensionLoop extMap now (RtpHeader.getExtLength p.data 0) fuel p.data).map fun m => (p.length, m)
      else some (p.length, p.data)
  else some (p.length, p.data)

/-- The elements that the first turns of the loop meet, each with the bytes before it. -/
def reached (e : ExtensionMaps) (now : ℕ → Timeval) (fuel : ℕ) (p : DataPacket) : List (Mem × ℕ) :=
  if RtpHeader.hasextension p.data 0 ≠ 0 ∧ RtpHeader.getExtId p.data 0 = 0xBEDE then
    match e.extMap p.type with
    | none => []
    | some extMap => Cursor.visits advance (processElement extMap now) (RtpHeader.getExtLength p.data 0 * 4) fuel
        (1 : BitVec 16) 16 p.data
  else []

end ExtensionMaps
end Sfup.Core
