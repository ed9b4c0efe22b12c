import Sfup.Media.Reassembly

/-! The packaging of VP8 frames: the fragmenter of `rtp/RtpVP8Fragmenter.cpp` and `packageVideo` of
`media/MediaProcessor.cpp`. -/
namespace Sfup.Media
open Sfup.Rtp

namespace RtpVP8Fragmenter

/-- A fragment of the frame, by its place. -/
structure Piece where
  position : ℕ
  size : ℕ
  first : Bool

/-- The loop over the remaining bytes; each turn takes at least one. -/
def calculatePackets : ℕ → ℕ → ℕ → List Piece
  | 0, _, _ => []
  | fuel + 1, remaining, currentPos =>
    if 0 < remaining then
      let size := if remaining > 1099 then 1099 else remaining
      { position := currentPos, size, first := currentPos = 0 } ::
        calculatePackets fuel (remaining - size) (currentPos + size)
    else []

def writeFragment (totalData : List UInt8) (fragment : Piece) : List UInt8 :=
  (if fragment.first then 0x10 else 0x00) :: (totalData.drop fragment.position).take fragment.size

end RtpVP8Fragmenter

/-- The number is an `unsigned int`, of which the header takes the low half. -/
structure OutputProcessor where
  videoPackager : Bool
  seqnum : UInt32
  rtpBuffer : Mem

namespace OutputProcessor
open RtpVP8Fragmenter

def header (lastFrame : Bool) (seqnum timestamp : UInt32) : Mem :=
  let rtpHeader := RtpHeader.setMarker RtpHeader.new 0 lastFrame
  let rtpHeader := RtpHeader.setSeqNumber rtpHeader 0 seqnum.toUInt16
  let rtpHeader := RtpHeader.setTimestamp rtpHeader 0 timestamp
  let rtpHeader := RtpHeader.setSSRC rtpHeader 0 55543
  RtpHeader.setPayloadType rtpHeader 0 100

/-- The loop over the fragments, which are not empty; the last one ends it. Every turn calls the receiver
with the RTP buffer and a length. -/
def packageLoop (timestamp : UInt32) (inBuff : List UInt8) :
    List Piece → OutputProcessor → List (Mem × ℕ) × OutputProcessor
  | [], p => ([], p)
  | fragment :: rest, p =>
    let outBuff := writeFragment inBuff fragment
    let rtpHeader := header rest.isEmpty p.seqnum timestamp
    let headerLength := RtpHeader.getHeaderLength rtpHeader 0
    let rtpBuffer := (p.rtpBuffer.copy 0 (rtpHeader.bytes 0 headerLength)).copy headerLength outBuff
    let (packets, p) := packageLoop timestamp inBuff rest { p with seqnum := p.seqnum + 1, rtpBuffer }
    ((rtpBuffer, outBuff.length + headerLength) :: packets, p)

/-- `timestamp` is what `av_rescale` makes of the presentation time or the clock. -/
def packageVideo (p : OutputProcessor) (inBuff : List UInt8) (timestamp : UInt32) :
    List (Mem × ℕ) × OutputProcessor :=
  if !p.videoPackager || inBuff.isEmpty then ([], p)
  else packageLoop timestamp inBuff (calculatePackets inBuff.length inBuff.length 0) p

variable {lastFrame : Bool} {seqnum timestamp : UInt32}

theorem header_flags : header lastFrame seqnum timestamp 0 = 0x80 := by
  simp only [header, RtpHeader.setPayloadType, RtpHeader.setSSRC, RtpHeader.setTimestamp,
    RtpHeader.setSeqNumber, RtpHeader.setMarker]
  rw [Function.update_of_ne (by decide), Mem.setLong_of_lt (by decide), Mem.setLong_of_lt (by decide),
    Mem.setWord_of_ne (by decide) (by decide), Function.update_of_ne (by decide)]
  rfl

theorem header_second : header lastFrame seqnum timestamp 1 = if lastFrame then 0xe4 else 0x64 := by
  simp only [header, RtpHeader.setPayloadType, RtpHeader.setSSRC, RtpHeader.setTimestamp,
    RtpHeader.setSeqNumber, RtpHeader.setMarker]
  rw [Function.update_self, Mem.setLong_of_lt (by decide), Mem.setLong_of_lt (by decide),
    Mem.setWord_of_ne (by decide) (by decide), Function.update_self]
  cases lastFrame <;> rfl

theorem header_number : RtpHeader.getSeqNumber (header lastFrame seqnum timestamp) 0 = seqnum.toUInt16 := by
  simp only [header, RtpHeader.getSeqNumber_setPayloadType, RtpHeader.getSeqNumber_setSSRC,
    RtpHeader.getSeqNumber_setTimestamp, RtpHeader.getSeqNumber_setSeqNumber]

theorem getHeaderLength_of_flags {m : Mem} (h : m 0 = 0x80) : RtpHeader.getHeaderLength m 0 = 12 := by
  simp [RtpHeader.getHeaderLength, RtpHeader.cc, RtpHeader.hasextension, h]

/-- The RTP buffer with a header and a descriptor of one byte in front of a payload. -/
def packet (rtpBuffer : Mem) (lastFrame first : Bool) (seqnum timestamp : UInt32) (payload : List UInt8) :
    Mem :=
  (rtpBuffer.copy 0 ((header lastFrame seqnum timestamp).bytes 0 12)).copy 12
    ((if first then 0x10 else 0x00) :: payload)

variable {rtpBuffer : Mem} {first : Bool} {payload : List UInt8}

theorem packet_header {i : ℕ} (h : i < 12) :
    packet rtpBuffer lastFrame first seqnum timestamp payload i = header lastFrame seqnum timestamp i := by
  rw [packet, Mem.copy_of_lt h, Mem.copy_bytes_of_lt h]

theorem packet_descriptor :
    packet rtpBuffer lastFrame first seqnum timestamp payload 12 = if first then 0x10 else 0x00 := by
  have h : 0 < ((if first then 0x10 else 0x00) :: payload : List UInt8).length := by simp
  exact Mem.copy_get h

theorem packet_payload :
    (packet rtpBuffer lastFrame first seqnum timestamp payload).bytes 13 payload.length = payload := by
  have h := Mem.bytes_copy (m := rtpBuffer.copy 0 ((header lastFrame seqnum timestamp).bytes 0 12)) (p := 12)
    ((if first then 0x10 else 0x00) :: payload)
  rw [List.length_cons, Nat.add_comm, Mem.bytes_add] at h
  exact (List.append_inj' (h.trans (List.singleton_append).symm) (by simp)).2

end OutputProcessor

namespace ExternalOutput
open OutputProcessor

/-- What the reassembly reads of a packet that was packaged. -/
theorem Call.fragment_packet {e : Call} {rtpBuffer : Mem} {lastFrame first : Bool}
    {seqnum timestamp : UInt32} {payload : List UInt8} (hp : payload ≠ [])
    (hb : e.buf = packet rtpBuffer lastFrame first seqnum timestamp payload)
    (hl : e.len = payload.length + 1 + 12) :
    e.fragment = ⟨seqnum.toUInt16, first, lastFrame, payload⟩ := by
  have hflags : e.buf 0 = 0x80 := by rw [hb, packet_header (by decide), header_flags]
  have hd : e.buf 12 = if first then 0x10 else 0x00 := by rw [hb, packet_descriptor]
  have hpos : 0 < payload.length := List.length_pos_of_ne_nil hp
  have hparse : e.payload = RtpVP8Parser.parseVP8 e.buf e.vp8 12 (payload.length + 1) := by
    simp only [Call.payload, parse, getHeaderLength_of_flags hflags, hl]
    congr 1
    omega
  obtain ⟨hs, hdata, hlen⟩ := RtpVP8Parser.parseVP8_oneByte hd hpos e.vp8
  rw [← hparse] at hs hdata hlen
  unfold Call.fragment
  congr 1
  · have hn : e.buf.word 2 = (header lastFrame seqnum timestamp).word 2 := by
      rw [hb]
      exact Mem.word_congr (packet_header (by decide)) (packet_header (by decide))
    exact hn.trans header_number
  · have hm : e.buf 1 = if lastFrame then 0xe4 else 0x64 := by rw [hb, packet_header (by decide), header_second]
    simp only [RtpHeader.getMarker, hm]
    cases lastFrame <;> rfl
  · rw [hdata, hlen, hb]
    exact packet_payload

end ExternalOutput
end Sfup.Media
