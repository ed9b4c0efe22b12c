import Sfup.Rtp.Headers
import Sfup.Rtp.VP8Parser

/-! The reassembly of VP8 frames in `media/ExternalOutput.cpp`. The write pointer is an index into the
buffer, and `none` is an access outside it. What the libav calls of `initContext` do is an input. -/
namespace Sfup.Media
open Sfup.Rtp

inductive Vp8SearchState where
  | lookingForStart
  | lookingForEnd
deriving DecidableEq, Repr

/-- `UNPACKAGE_BUFFER_SIZE` -/
def unpackageBufferSize : ℕ := 200000

/-- The packet given to `av_interleaved_write_frame`. -/
structure AVPacket where
  data : List UInt8
  pts : ℤ

/-- `videoStream` is the denominator of the time base of `video_stream_`. -/
structure ExternalOutput where
  unpackagedBuffer : Mem
  unpackagedBufferpart : ℕ
  unpackagedSize : ℕ
  vp8SearchState : Vp8SearchState
  lastVideoSequenceNumber : UInt16
  firstVideoTimestamp : ℤ
  videoOffsetMsec : ℤ
  videoStream : Option ℤ

namespace ExternalOutput

/-- The object after its constructor, which leaves the buffer and the last number as they are. -/
def new (unpackagedBuffer : Mem) (lastVideoSequenceNumber : UInt16) : ExternalOutput :=
  { unpackagedBuffer, unpackagedBufferpart := 0, unpackagedSize := 0, vp8SearchState := .lookingForStart,
    lastVideoSequenceNumber, firstVideoTimestamp := -1, videoOffsetMsec := -1, videoStream := none }

/-- Both members that describe the contents of the buffer are set back. -/
def reset (o : ExternalOutput) : ExternalOutput := { o with unpackagedSize := 0, unpackagedBufferpart := 0 }

/-- The sum is computed in 32 unsigned bits. -/
def bufferCheck (o : ExternalOutput) (payload : RTPPayloadVP8) : Bool × ExternalOutput :=
  if unpackageBufferSize ≤ (payload.dataLength + o.unpackagedSize) % 2 ^ 32 then
    (false, { o.reset with vp8SearchState := .lookingForStart })
  else (true, o)

/-- The payload behind what is in the buffer, if there is room for it. -/
def append (o : ExternalOutput) (buf : Mem) (payload : RTPPayloadVP8) : Option (Bool × ExternalOutput) :=
  match o.bufferCheck payload with
  | (false, o) => some (false, o)
  | (true, o) =>
    if unpackageBufferSize < o.unpackagedBufferpart + payload.dataLength then none
    else
      some (true, { o with
        unpackagedBuffer :=
          o.unpackagedBuffer.copy o.unpackagedBufferpart (buf.bytes payload.data payload.dataLength)
        unpackagedSize := o.unpackagedSize + payload.dataLength
        unpackagedBufferpart := o.unpackagedBufferpart + payload.dataLength })

/-- The search state machine; the flag is `deliver`. -/
def search (o : ExternalOutput) (buf : Mem) (payload : RTPPayloadVP8) (startOfFrame endOfFrame : Bool) :
    Option (Bool × ExternalOutput) :=
  match o.vp8SearchState, startOfFrame, endOfFrame with
  | .lookingForStart, true, true => o.reset.append buf payload
  | .lookingForStart, false, false => some (false, o.reset)
  | .lookingForStart, true, false =>
    (o.append buf payload).map fun p =>
      (false, if p.1 then { p.2 with vp8SearchState := .lookingForEnd } else p.2)
  | .lookingForStart, false, true => some (false, o.reset)
  | .lookingForEnd, true, true => append { o.reset with vp8SearchState := .lookingForStart } buf payload
  | .lookingForEnd, false, false => (o.append buf payload).map fun p => (false, p.2)
  | .lookingForEnd, true, false => (o.reset.append buf payload).map fun p => (false, p.2)
  | .lookingForEnd, false, true => append { o with vp8SearchState := .lookingForStart } buf payload

/-- A gap in the numbers discards what is in the buffer. The successor is computed in `int`, so there is
none for 65535. -/
def checkSequence (o : ExternalOutput) (currentVideoSeqNumber : UInt16) : ExternalOutput :=
  let o := if currentVideoSeqNumber.toNat ≠ o.lastVideoSequenceNumber.toNat + 1 then
      { o.reset with vp8SearchState := .lookingForStart }
    else o
  { o with lastVideoSequenceNumber := currentVideoSeqNumber }

/-- The timestamp of the first packet is kept. -/
def noteTimestamp (o : ExternalOutput) (timestamp : ℕ) : ExternalOutput :=
  { o with firstVideoTimestamp := if o.firstVideoTimestamp = -1 then timestamp else o.firstVideoTimestamp }

/-- The stream is made once; `stream` is what this call makes of it. -/
def initContext (o : ExternalOutput) (stream : Option ℤ) : ExternalOutput :=
  { o with videoStream := o.videoStream.or stream }

/-- The time base is at most 1/1000, so neither quotient is 0. -/
def timestampToWrite (o : ExternalOutput) (den : ℤ) (timestamp : ℕ) : ℤ :=
  let currentTimestamp : ℤ := timestamp
  let currentTimestamp :=
    if currentTimestamp - o.firstVideoTimestamp < 0 then currentTimestamp + 0xFFFFFFFF else currentTimestamp
  (currentTimestamp - o.firstVideoTimestamp).tdiv (Int.tdiv 90000 den) +
    o.videoOffsetMsec.tdiv (Int.tdiv 1000 den)

/-- What follows the search: the frame is written, unless there is no stream yet. -/
def deliverFrame (o : ExternalOutput) (deliver : Bool) (timestamp : ℕ) :
    Option (Option AVPacket × ExternalOutput) :=
  match o.videoStream with
  | none => some (none, o)
  | some den =>
    if deliver then
      if o.unpackagedBufferpart < o.unpackagedSize then none
      else
        let data := o.unpackagedBuffer.bytes (o.unpackagedBufferpart - o.unpackagedSize) o.unpackagedSize
        some (some { data, pts := o.timestampToWrite den timestamp }, o.reset)
    else some (none, o)

def parse (vp8 : RTPPayloadVP8) (buf : Mem) (len : ℕ) : RTPPayloadVP8 :=
  let headerLength := RtpHeader.getHeaderLength buf 0
  RtpVP8Parser.parseVP8 buf vp8 headerLength (len - headerLength)

def writeVideoData (o : ExternalOutput) (vp8 : RTPPayloadVP8) (buf : Mem) (len : ℕ) (stream : Option ℤ) :
    Option (Option AVPacket × ExternalOutput) := do
  let timestamp := buf.long 4
  let o := (o.checkSequence (RtpHeader.getSeqNumber buf 0)).noteTimestamp timestamp
  let payload := parse vp8 buf len
  let (deliver, o) ← o.search buf payload payload.beginningOfPartition (RtpHeader.getMarker buf 0)
  (o.initContext stream).deliverFrame deliver timestamp

end ExternalOutput
end Sfup.Media
