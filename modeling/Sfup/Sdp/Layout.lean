import Sfup.Sdp.Acceptance
import Sfup.Sdp.Codecs
import Mathlib.Algebra.Order.Group.Multiset
import Mathlib.Tactic.Abel

/-! The lines of a text of `getSdp`: those of the codecs, and those of all other fields. -/
namespace Sfup.Sdp.Parser

def Fixed (line : Str) : Prop := ∃ b g, Reads line b g ∧ b ∈ [Branch.rtcpMux, .direction, .ssrc]

end Sfup.Sdp.Parser

namespace Sfup.Sdp.SdpInfo
open Sfup.Sdp.Parser

/-- The lines that `std::getline` gives for one that was written. -/
def broken (line : Str) : List Str := getlines (line ++ ['\n'])

def sentCandidates (s : SdpInfo) : MediaType → List CandidateInfo
  | .audioType => s.candidateVector.filter fun c => c.mediaType = .audioType ∨ s.isBundle
  | t => s.candidateVector.filter (·.mediaType = t)

/-- The lines of a section that hold a field of the description other than its codecs. -/
def sectionFields (s : SdpInfo) (t : MediaType) (username password : Str) : List Str :=
  (s.sentCandidates t).map stringifyCandidate ++ [userLine username, passLine password] ++
    (if s.isFingerprint then [fingerprintLine s.fingerprint] else []) ++
    (s.extMapVector.filter (·.mediaType = t)).map extMapLine ++ (s.bundleTags.filter (·.mediaType = t)).map midLine ++
    (s.cryptoVector.filter (·.mediaType = t)).map cryptoLine

def fieldLines (s : SdpInfo) : List Str :=
  (if s.isBundle then [groupLine ((s.bundleTags.map (·.id)).map (' ' :: ·))] else []) ++
    s.sectionFields .audioType s.iceAudioUsername s.iceAudioPassword ++
    s.sectionFields .videoType s.iceVideoUsername s.iceVideoPassword

def otherLines (s : SdpInfo) : List Str := s.fieldLines.flatMap broken

/-- The lines around the media lines and the codecs of the two sections. -/
structure Layout where
  head : List Str
  beforeAudio : List Str
  afterAudio : List Str
  beforeVideo : List Str
  afterVideo : List Str

namespace Layout

def lines (x : Layout) (s : SdpInfo) : List Str :=
  x.head ++
    (mediaLine "m=audio 1".toList s.profile (s.payloadVector.filter (·.mediaType = .audioType)) s.audioCodecs ::
      (x.beforeAudio ++ ((s.payloadVector.filter (·.mediaType = .audioType)).flatMap audioCodecLines ++ x.afterAudio))) ++
    (mediaLine "m=video 1".toList s.profile (s.payloadVector.filter (·.mediaType = .videoType)) s.videoCodecs ::
      (x.beforeVideo ++ ((s.payloadVector.filter (·.mediaType = .videoType)).flatMap videoCodecLines ++ x.afterVideo)))

end Layout

section Written
variable {s : SdpInfo} {msidtemp : Str} {ls : List Str}

end Written
end Sfup.Sdp.SdpInfo

namespace Sfup.Sdp.Parser
open SdpInfo

section Lines
variable {ls : List Str} {l w : Str} {b : Branch} {g : View → Option View} {bs : List Branch}

theorem readable_of_not_found {c : Context} (h : ∀ m ∈ b.markers, ¬ m <:+: l) (hb : b ≠ .ssrc) :
    b.readable l c = true := by
  cases b with
  | ssrc => contradiction
  | fingerprint | group | candidate | crypto | user | pass | rtpmap | extMap =>
    exact decide_eq_true fun hf => absurd hf (h _ List.mem_cons_self)
  | _ => rfl

theorem Reads.readable (h : Reads l b g) (hb : ∀ c, b.readable l c = true) : Readable l := by
  intro b' _ hne
  by_cases he : b' = b
  · rw [he]
    exact hb _
  · exact readable_of_not_found (h.takes b' ((List.mem_erase_of_ne he).mpr (mem_all b'))) hne

theorem Fixed.no_break (h : Fixed l) : '\n' ∉ l := by
  obtain ⟨b, g, hr, -⟩ := h
  exact hr.no_break

end Lines

section CodecLines
variable {rtp : RtpMap} {h w : Str} {b : Branch} {bs : List Branch} {x : Str × Str} {n : ℤ}

theorem Internal.reads (hi : Internal rtp) : Reads (rtpmapLine rtp) .rtpmap some := by
  have hall : ∀ r ∈ internalPayloadVector,
      Free [' ', ':', '\r', '\n'] r.encodingName ∧ Takes r.encodingName .rtpmap := by decide +kernel
  obtain ⟨r, hr, hname, -⟩ := hi
  obtain ⟨hp, ht⟩ := hall r hr
  exact reads_rtpmap (hname ▸ hp) (hname ▸ ht)

end CodecLines
end Sfup.Sdp.Parser
