import Sfup.Rtp.VP8Parser
import Sfup.Lib.Transition

/-! The unpackaging of video in `media/MediaProcessor.cpp`. The write pointer is an index into the buffer; that a copy
went past the end of the buffer is kept in the state. The structure of the parser is not initialised, so its contents
come with each packet. What the decoder makes of its input is left out. -/
namespace Sfup.Media
open Sfup.Rtp Sfup.Transition

/-- `UNPACKAGED_BUFFER_SIZE` -/
def unpackagedBufferSize : ℕ := 150000

structure InputProcessor where
  videoUnpackager : Bool := true
  videoDecoder : Bool := false
  gotUnpackagedFrame : Bool := false
  upackagedSize : ℕ := 0
  unpackagedBufferPtr : ℕ := 0
  unpackagedBuffer : Mem
  overrun : Bool := false

/-- An RTP packet, with what is in the memory of the structure that it is parsed into. -/
structure VideoPacket where
  buf : Mem
  len : ℤ
  fresh : RTPPayloadVP8

namespace InputProcessor

/-- The object after `init` with video. -/
def init (unpackagedBuffer : Mem) : InputProcessor := { videoDecoder := true, unpackagedBuffer }

def parsed (packet : VideoPacket) : RTPPayloadVP8 :=
  let headerLength := RtpHeader.getHeaderLength packet.buf 0
  RtpVP8Parser.parseVP8 packet.buf packet.fresh headerLength (packet.len - headerLength)

/-- `none` is a negative return value. The payload is copied without a look at the room for it. -/
def unpackageVideo (packet : VideoPacket) (p : InputProcessor) : Option ℕ × InputProcessor :=
  if !p.videoUnpackager then (none, p)
  else
    let p := { p with gotUnpackagedFrame := false }
    if RtpHeader.getPayloadType packet.buf 0 ≠ 100 then (none, p)
    else
      let vp8 := parsed packet
      (if vp8.dataLength < 2 ^ 31 then some vp8.dataLength else none,
        { p with
          unpackagedBuffer := p.unpackagedBuffer.copy p.unpackagedBufferPtr (packet.buf.bytes vp8.data vp8.dataLength)
          overrun := p.overrun || decide (unpackagedBufferSize < p.unpackagedBufferPtr + vp8.dataLength)
          gotUnpackagedFrame := RtpHeader.getMarker packet.buf 0 })

/-- The bytes that are given to the decoder, if any. -/
def deliverVideoData (packet : VideoPacket) (p : InputProcessor) : Option (List UInt8) × InputProcessor :=
  if p.videoUnpackager && p.videoDecoder then
    match p.unpackageVideo packet with
    | (none, p) => (none, p)
    | (some ret, p) =>
      let p := { p with upackagedSize := p.upackagedSize + ret, unpackagedBufferPtr := p.unpackagedBufferPtr + ret }
      if p.gotUnpackagedFrame then
        let p := { p with unpackagedBufferPtr := p.unpackagedBufferPtr - p.upackagedSize }
        (some (p.unpackagedBuffer.bytes p.unpackagedBufferPtr p.upackagedSize),
          { p with upackagedSize := 0, gotUnpackagedFrame := false })
      else (none, p)
  else (none, p)

end InputProcessor

/-! ## What the decoder should get -/

/-- The payloads since the last marker, and the frames that markers ended. -/
structure Frames where
  pending : List UInt8 := []
  complete : List (List UInt8) := []

def Frames.add (payload : List UInt8) (marker : Bool) (f : Frames) : Frames :=
  if marker then ⟨[], f.complete ++ [f.pending ++ payload]⟩ else ⟨f.pending ++ payload, f.complete⟩

namespace VideoPacket

/-- Where the payload starts behind a header of `headerLength` bytes, unless the descriptor is damaged or nothing
follows it. -/
def payloadStart (packet : VideoPacket) (headerLength : ℕ) : Option ℕ :=
  if RtpVP8Parser.HasPayload packet.buf headerLength (packet.len - headerLength) then
    some (headerLength + RtpVP8Parser.descriptorLength packet.buf headerLength)
  else none

/-- The VP8 payload behind the true header, which is empty if there is none. -/
def payload (packet : VideoPacket) : List UInt8 :=
  match packet.payloadStart (RtpHeader.rfcHeaderLength packet.buf 0) with
  | some start => packet.buf.bytes start (packet.len - start).toNat
  | none => []

/-- The header as the code measures it leads to the payload. Where the code finds none, the structure it is parsed into
happens to point to the bytes of the payload. -/
def Located (packet : VideoPacket) : Prop :=
  match packet.payloadStart (RtpHeader.getHeaderLength packet.buf 0) with
  | some start => packet.payloadStart (RtpHeader.rfcHeaderLength packet.buf 0) = some start
  | none => packet.buf.bytes packet.fresh.data packet.fresh.dataLength = packet.payload

/-- A packet is located if the length of its extension is where the code looks for it, and it has a payload or the
structure happens to hold the length 0. -/
theorem located_of_extensionInPlace {packet : VideoPacket} (hplace : RtpHeader.ExtensionInPlace packet.buf 0)
    (h : (packet.payloadStart (RtpHeader.rfcHeaderLength packet.buf 0)).isSome ∨ packet.fresh.dataLength = 0) :
    packet.Located := by
  unfold Located payload
  rw [RtpHeader.getHeaderLength_eq_rfcHeaderLength_iff.mpr hplace]
  cases hs : packet.payloadStart (RtpHeader.rfcHeaderLength packet.buf 0) with
  | some start => rfl
  | none =>
    rw [hs] at h
    have hzero : packet.fresh.dataLength = 0 := h.resolve_left (by simp)
    simp [hzero, Mem.bytes]

end VideoPacket

/-- The processor beside what the decoder was given and what it should have been. -/
structure Unpackaging where
  proc : InputProcessor
  decoded : List (List UInt8) := []
  frames : Frames := {}

namespace Unpackaging

def step (s : Unpackaging) (packet : VideoPacket) : Option (Option (List UInt8) × Unpackaging) :=
  let r := s.proc.deliverVideoData packet
  some (r.1,
    { proc := r.2
      decoded := s.decoded ++ r.1.toList
      frames :=
        if RtpHeader.getPayloadType packet.buf 0 = 100 then
          s.frames.add packet.payload (RtpHeader.getMarker packet.buf 0)
        else s.frames })

/-- The payload is found, and fits behind those since the last marker. -/
def Fits (s : Unpackaging) (packet : VideoPacket) : Prop :=
  RtpHeader.getPayloadType packet.buf 0 = 100 → packet.Located ∧
    s.frames.pending.length + packet.payload.length ≤ unpackagedBufferSize

/-! ## One packet -/

section Packet
variable {s s' : Unpackaging} {packet : VideoPacket} {out : Option (List UInt8)} {p : InputProcessor}

def copied (packet : VideoPacket) : List UInt8 :=
  packet.buf.bytes (InputProcessor.parsed packet).data (InputProcessor.parsed packet).dataLength

end Packet

/-! ## Runs -/

/-- A packet of a frame that does not end: 1200 bytes of payload behind a descriptor of one byte, and no marker. -/
def endless : VideoPacket := ⟨vp8Packet 0 false 0x10 0, 1213, .zero⟩

end Unpackaging
end Sfup.Media
