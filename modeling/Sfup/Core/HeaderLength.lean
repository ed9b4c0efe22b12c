import Sfup.Core.WebRtcConnection
import Sfup.Media.ExternalOutput
import Sfup.Media.InputProcessor

/-! Where the payload of an RTP packet starts, and where the code takes it to start. The length of the
extension is read behind the fixed header, although the list of contributing sources is in between. -/
namespace Sfup.Core
open Sfup.Rtp Sfup.Media

/-- The three users of the parser start it at `start`. -/
structure ParsedFrom (buf : Mem) (len : ℕ) (start : ℕ) : Prop where
  writeVideoData : ∀ vp8, ExternalOutput.parse vp8 buf len = RtpVP8Parser.parseVP8 buf vp8 start (len - start)
  unpackageVideo : ∀ vp8, InputProcessor.parsed ⟨buf, len, vp8⟩ = RtpVP8Parser.parseVP8 buf vp8 start (len - start)
  deliverVideoData : ∀ fresh, WebRtcConnection.keyframe fresh buf len =
    decide ((RtpVP8Parser.parseVP8 buf fresh.vp8 start (len - start)).frameType = .kIFrame)

private theorem parsedFrom_getHeaderLength (buf : Mem) (len : ℕ) :
    ParsedFrom buf len (RtpHeader.getHeaderLength buf 0) :=
  ⟨fun _ => rfl, fun _ => rfl, fun _ => rfl⟩

/-- The header is as long as the code says, and the payload is parsed behind it, exactly if there is no
extension, there are no contributing sources, or the word read happens to be the right one. -/
theorem headerLength_iff (buf : Mem) (len : ℕ) :
    (RtpHeader.getHeaderLength buf 0 = RtpHeader.rfcHeaderLength buf 0 ∧
      ParsedFrom buf len (RtpHeader.rfcHeaderLength buf 0)) ↔ RtpHeader.ExtensionInPlace buf 0 := by
  constructor
  · exact fun h => RtpHeader.getHeaderLength_eq_rfcHeaderLength_iff.mp h.1
  · intro h
    have he := RtpHeader.getHeaderLength_eq_rfcHeaderLength_iff.mpr h
    exact ⟨he, he ▸ parsedFrom_getHeaderLength buf len⟩

/-- One contributing source, whose identifier is 0, and an extension of one word; then a VP8 payload. -/
def sourceAndExtension : Mem := fun i =>
  if i = 0 then 0x91 else if i = 1 then 0xe4 else if i = 16 then 0xbe else if i = 17 then 0xde
  else if i = 19 then 1 else if i = 24 then 0x10 else 0

/-- The extension is taken to be empty, and its word is parsed as the descriptor. -/
theorem not_headerLength : RtpHeader.getHeaderLength sourceAndExtension 0 ≠
      RtpHeader.rfcHeaderLength sourceAndExtension 0 ∧
    ¬ ParsedFrom sourceAndExtension 34 (RtpHeader.rfcHeaderLength sourceAndExtension 0) := by
  refine ⟨by decide, fun h => ?_⟩
  have hdata := congrArg RTPPayloadVP8.data (h.writeVideoData RTPPayloadVP8.zero)
  exact absurd hdata (by decide)

end Sfup.Core
