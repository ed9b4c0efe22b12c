import Sfup.Rtp.RtcpProcessor

/-! The statistics that `Stats.cpp` takes from RTCP packets. -/
namespace Sfup.Core
open Sfup.Rtp

/-- The keys of the table of one source. -/
inductive Stat where
  | packetsLost
  | fractionLost
  | rtcpPacketSent
  | rtcpBytesSent
  | jitter
  | bandwidth
  | pli
  | sli
  | fir
  | nack
  | sourceSsrc
deriving DecidableEq

structure Stats where
  statsPacket : ℕ → Stat → Option ℕ

namespace Stats

def set (s : Stats) (ssrc : ℕ) (key : Stat) (value : ℕ) : Stats :=
  ⟨Function.update s.statsPacket ssrc (Function.update (s.statsPacket ssrc) key (some value))⟩

def account (s : Stats) (ssrc : ℕ) (key : Stat) : Stats :=
  s.set ssrc key (match s.statsPacket ssrc key with
    | some count => (count + 1) % 2 ^ 64
    | none => 1)

def processPart (s : Stats) (m : Mem) (chead : ℕ) : Stats :=
  let ssrc := RtcpHeader.getSSRC m chead
  if RtcpHeader.packettype m chead = 201 then
    let s := s.set ssrc .fractionLost (RtcpHeader.getFractionLost m chead).toNat
    let s := s.set ssrc .packetsLost (RtcpHeader.getLostPackets m chead).toNat
    let s := s.set ssrc .jitter (RtcpHeader.getJitter m chead).toNat
    s.set ssrc .sourceSsrc (RtcpHeader.getSourceSSRC m chead)
  else if RtcpHeader.packettype m chead = 200 then
    let s := s.set ssrc .rtcpPacketSent (RtcpHeader.getPacketsSent m chead)
    s.set ssrc .rtcpBytesSent (RtcpHeader.getOctetsSent m chead)
  else if RtcpHeader.packettype m chead = 205 then s.account ssrc .nack
  else if RtcpHeader.packettype m chead = 206 then
    if RtcpHeader.getBlockCount m chead = 1 then s.account ssrc .pli
    else if RtcpHeader.getBlockCount m chead = 2 then s.account ssrc .sli
    else if RtcpHeader.getBlockCount m chead = 4 then s.account ssrc .fir
    else if RtcpHeader.getBlockCount m chead = 15 then
      if RtcpHeader.isREMB m chead then s.set ssrc .bandwidth (RtcpHeader.bitrate m chead) else s
    else s
  else s

end Stats
end Sfup.Core
