import Sfup.Sdp.Layout
import Sfup.Sdp.Recovery
import Mathlib.Algebra.BigOperators.Group.List.Basic

/-! The codecs are recovered from the text of `getSdp` under a condition on their parameters. -/
namespace Sfup.Sdp.Parser
open SdpInfo

namespace Codecs

section Reading
variable {v : Codecs} {rtp : RtpMap} {ps : List RtpMap} {es : List (Str × Str)} {fbs : RtpMap → List Str}

def setFormat (m : OrdMap Str Str) (x : Str × Str) : OrdMap Str Str :=
  match readFormat x with
  | none => m
  | some (option, value) => m.set option value

/-- The lines of a codec, of which those of `fbs` are kept for the end. -/
def read (fbs : RtpMap → List Str) (v : Codecs) (rtp : RtpMap) : Codecs :=
  rtp.formatParameters.entries.foldl (fun v x => v.addFormat rtp.payloadType x)
    ((fbs rtp).foldl (fun v w => v.addLine (feedbackLine rtp w)) (v.add { bare rtp with mediaType := v.mtype }))

def readCodec (t : MediaType) (rtp : RtpMap) : RtpMap :=
  { bare rtp with mediaType := t, formatParameters := rtp.formatParameters.entries.foldl setFormat .empty }

private theorem foldl_addLine (ws : List Str) :
    ws.foldl (fun v w => v.addLine (feedbackLine rtp w)) v =
      { v with feedbackLines := v.feedbackLines ++ ws.map (feedbackLine rtp) } := by
  induction ws generalizing v with
  | nil => simp
  | cons w ws ih =>
    rw [List.foldl_cons, ih]
    simp [addLine]

theorem addFormat_last (hnew : ∀ p ∈ ps, p.payloadType ≠ rtp.payloadType) (hv : v.payloads = ps ++ [rtp])
    (x : Str × Str) : v.addFormat rtp.payloadType x =
      { v with payloads := ps ++ [{ rtp with formatParameters := setFormat rtp.formatParameters x }] } := by
  unfold addFormat setFormat
  cases readFormat x with
  | none => rw [← hv]
  | some y =>
    have hps : ps.map (Parser.addFormat rtp.payloadType y.1 y.2) = ps :=
      (List.map_congr_left fun p hp => if_neg (hnew p hp)).trans (List.map_id ps)
    simp only [hv, List.map_append, hps, List.map_cons, List.map_nil, Parser.addFormat, if_true]

private theorem foldl_addFormat (hnew : ∀ p ∈ ps, p.payloadType ≠ rtp.payloadType) (hv : v.payloads = ps ++ [rtp]) :
    es.foldl (fun v x => v.addFormat rtp.payloadType x) v =
      { v with payloads := ps ++ [{ rtp with formatParameters := es.foldl setFormat rtp.formatParameters }] } := by
  induction es generalizing v rtp with
  | nil => simp [← hv]
  | cons x es ih =>
    have hnext : ∀ p ∈ ps, p.payloadType ≠
        ({ rtp with formatParameters := setFormat rtp.formatParameters x } : RtpMap).payloadType := hnew
    rw [List.foldl_cons, addFormat_last hnew hv]
    exact ih hnext rfl

theorem read_eq (hnew : ∀ p ∈ v.payloads, p.payloadType ≠ rtp.payloadType) :
    v.read fbs rtp = { v with
      payloads := v.payloads ++ [readCodec v.mtype rtp]
      feedbackLines := v.feedbackLines ++ (fbs rtp).map (feedbackLine rtp) } := by
  have hbare : ∀ p ∈ v.payloads, p.payloadType ≠ ({ bare rtp with mediaType := v.mtype } : RtpMap).payloadType := hnew
  unfold read
  rw [foldl_addLine]
  exact foldl_addFormat hbare rfl

end Reading

section Formats
variable {x : Str × Str} {m : OrdMap Str Str} {es : List (Str × Str)}

end Formats
section Feedback
variable {rtp p : RtpMap} {ps : List RtpMap} {w : Str} {info : SdpInfo}

def addFeedbacks (rtp : RtpMap) (p : RtpMap) : RtpMap :=
  if p.payloadType = rtp.payloadType then { p with feedbackTypes := p.feedbackTypes ++ rtp.feedbackTypes } else p

end Feedback
end Codecs

section Lines
variable {rtp : RtpMap} {fbs : RtpMap → List Str} {ls : List Str} {f : Codecs → Codecs}

theorem Internal.media {rtp : RtpMap} (h : Internal rtp) : rtp.mediaType ≠ .other ∧ ¬ rtp.channels > 1 := by
  have hall : ∀ r ∈ internalPayloadVector, r.mediaType ≠ .other ∧ ¬ r.channels > 1 := by decide +kernel
  obtain ⟨r, hr, -, -, hm, hc⟩ := h
  rw [hm, hc]
  exact hall r hr

end Lines

section Parsed
variable {info info' : SdpInfo} {sdp media : Str} {r : Bool}

/-- While the lines are read the codecs have no feedback yet, and the lines kept for the end have no line breaks. -/
def Unbroken (c : Codecs) : Prop := (∀ p ∈ c.payloads, p.feedbackTypes = []) ∧ ∀ l ∈ c.feedbackLines, '\n' ∉ l

end Parsed

end Sfup.Sdp.Parser

namespace Sfup.Sdp.SdpInfo
open Sfup.Sdp.Parser

/-- No line of another field and no word of a codec passes for a line of a codec, for a media line or for one that
hides the sources, the user names or the tags. -/
structure Separate (s : SdpInfo) : Prop where
  codecs : ∀ l ∈ s.otherLines, Spares codecBranches l
  sources : ∀ l ∈ s.otherLines, SsrcReadable l
  usernames : ∀ l ∈ s.otherLines, Marker.iceUser <:+: l → ∀ v ∈ valueOf l, v.head? ≠ some '\r'
  tags : (s.otherLines.map (addedOthers .group)).sum < 256
  formats : ∀ rtp ∈ s.payloadVector, ∀ x ∈ rtp.formatParameters.entries, Spares [.video, .audio] (formatWord x)
  feedback : ∀ rtp ∈ s.payloadVector, rtp.mediaType = .videoType → ∀ w ∈ rtp.feedbackTypes,
    Spares [.video, .audio, .rtpmap, .fmtp, .group] w

section CodecRecovery
variable {s : SdpInfo} {rtp : RtpMap}

/-- The codecs of both sections in the order in which they are written. -/
def written (s : SdpInfo) : List RtpMap :=
  s.payloadVector.filter (·.mediaType = .audioType) ++ s.payloadVector.filter (·.mediaType = .videoType)

variable {rand : ℕ → ℕ} {videoDirection audioDirection : StreamDirection} {media : Str}

/-- One codec for each medium, with a format parameter and feedback types for the video, and other fields that hold
blanks and colons. -/
def codecExample (audioFeedback : List Str) : SdpInfo :=
  { bundledExample with
    iceAudioUsername := "u v".toList, iceVideoPassword := "p:q".toList
    candidateVector := [{ componentId := 1, foundation := "1".toList, hostAddress := "fe80::1".toList, hostPort := 9
                          netProtocol := "udp".toList, mediaType := .audioType }]
    payloadVector :=
      [{ payloadType := 0, encodingName := "PCMU".toList, clockRate := 8000, mediaType := .audioType,
         feedbackTypes := audioFeedback },
       { payloadType := 97, encodingName := "VP8".toList, clockRate := 90000, mediaType := .videoType,
         feedbackTypes := ["ccm fir".toList, "nack".toList],
         formatParameters := OrdMap.empty.set "max-fr".toList "30".toList }] }

end CodecRecovery
end Sfup.Sdp.SdpInfo
