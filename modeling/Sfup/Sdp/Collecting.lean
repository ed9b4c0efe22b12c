import Sfup.Sdp.Handlers

/-! What the lines of a description are collected in: the codecs with their counters and payload type maps, and
the other vectors. -/
namespace Sfup.Sdp.Parser
open SdpInfo

/-- The vectors, counters and maps, with the number of tags. -/
structure Collected where
  mtype : MediaType
  feedbackLines : List Str
  payloads : List RtpMap
  videoCodecs : ℤ
  audioCodecs : ℤ
  inOutPTMap : OrdMap ℤ ℤ
  outInPTMap : OrdMap ℤ ℤ
  extMaps : List ExtMap
  tags : ℕ
  candidates : List CandidateInfo
  cryptos : List CryptoInfo

def collected (st : Parser) : Collected where
  mtype := st.mtype
  feedbackLines := st.tmpFeedbackVector
  payloads := st.info.payloadVector
  videoCodecs := st.info.videoCodecs
  audioCodecs := st.info.audioCodecs
  inOutPTMap := st.info.inOutPTMap
  outInPTMap := st.info.outInPTMap
  extMaps := st.info.extMapVector
  tags := st.info.bundleTags.length
  candidates := st.info.candidateVector
  cryptos := st.info.cryptoVector

def plainBranches : List Branch :=
  [.rtcpMux, .direction, .profile, .fingerprint, .user, .pass, .mid, .ssrc, .ssrcGroup, .bandwidth]

section Kept
variable {line : Str} {b : Branch}

private theorem collected_setDirection (d : StreamDirection) (st : Parser) :
    collected (setDirection d st) = collected st := by
  unfold setDirection
  split_ifs <;> rfl

theorem effects_plain (h : b ∈ plainBranches) : Effects collected (b.run line) id := by
  apply effects_of_result_keep
  intro _ st st' hr
  cases b with
  | group | video | audio | candidate | crypto | rtpmap | extMap | feedback | fmtp => exact absurd h (by decide)
  | rtcpMux | profile =>
    cases hr
    rfl
  | direction =>
    cases hr
    cases directionOf line with
    | none => rfl
    | some d => exact collected_setDirection d st
  | fingerprint | ssrcGroup | bandwidth =>
    obtain ⟨_, rfl⟩ := hr
    rfl
  | user | pass | ssrc =>
    obtain ⟨_, _, rfl⟩ := hr
    rfl
  | mid =>
    obtain ⟨tags, rfl, hlen⟩ := hr
    simp only [collected, hlen]

end Kept

/-- The codec that a line names. -/
def codecOf (line : Str) : Option Codec :=
  if Marker.rtpmap <:+: line then
    match splitOneOf line [' ', ':', '/', '\n'] 4 with
    | _ :: pt :: codecname :: clock :: _ => some ⟨strtoul pt, codecname, strtoul clock⟩
    | _ => none
  else none

def mappedBy (line : Str) : Option (UInt32 × UInt32) := do
  let c ← codecOf line
  let r ← internalOf c
  return (c.payloadType, r.payloadType)

/-- The number of elements that a line adds to the vectors other than that of the codecs. -/
def addedOthers : Branch → Str → ℕ
  | .group, line => if Marker.group <:+: line then (splitOneOf line [':', ' ', ' ', '\r', '\n'] 10).length - 2 else 0
  | .candidate, line => if Marker.cand <:+: line ∧ Accepted (splitOneOf line [' ', ':'] 0) then 1 else 0
  | .crypto, line => if Marker.crypto <:+: line then 1 else 0
  | .extMap, line => if Marker.extmap <:+: line ∧ 3 ≤ (splitOneOf line [' ', ':', '='] 3).length then 1 else 0
  | _, _ => 0

/-- The codecs by payload type and medium, their counters and the payload type maps, and the number of all
other elements. -/
structure Tally where
  mtype : MediaType
  entries : List (UInt32 × MediaType)
  videoCodecs : ℤ
  audioCodecs : ℤ
  inOutPTMap : OrdMap ℤ ℤ
  outInPTMap : OrdMap ℤ ℤ
  others : ℕ

namespace Tally

def setMedia (t : MediaType) (v : Tally) : Tally := { v with mtype := t }

def addInternal (pt internal : UInt32) (v : Tally) : Tally :=
  { v with
    entries := v.entries ++ [(pt, v.mtype)]
    videoCodecs := if v.mtype = .videoType then v.videoCodecs + 1 else v.videoCodecs
    audioCodecs := if v.mtype = .videoType then v.audioCodecs else v.audioCodecs + 1
    outInPTMap := v.outInPTMap.set (toInt pt) (toInt internal)
    inOutPTMap := v.inOutPTMap.set (toInt internal) (toInt pt) }

def addCodec (c : Codec) (v : Tally) : Tally :=
  match internalOf c with
  | none => v
  | some r => v.addInternal c.payloadType r.payloadType

def addOthers (n : ℕ) (v : Tally) : Tally := { v with others := v.others + n }

def change (line : Str) (v : Tally) : Branch → Tally
  | .video => if Marker.video <:+: line then v.setMedia .videoType else v
  | .audio => if Marker.audio <:+: line then v.setMedia .audioType else v
  | .rtpmap => (codecOf line).elim v v.addCodec
  | b => v.addOthers (addedOthers b line)

end Tally

def tallyOf (info : SdpInfo) (mtype : MediaType) : Tally where
  mtype := mtype
  entries := info.payloadVector.map fun rtp => (rtp.payloadType, rtp.mediaType)
  videoCodecs := info.videoCodecs
  audioCodecs := info.audioCodecs
  inOutPTMap := info.inOutPTMap
  outInPTMap := info.outInPTMap
  others := info.extMapVector.length + info.bundleTags.length + info.candidateVector.length + info.cryptoVector.length

def tally (st : Parser) : Tally := tallyOf st.info st.mtype

section Changes
variable {line marker : Str} {act : Parser → Except Fault Parser} {b : Branch}

theorem effects_tally_plain (h : b ∈ plainBranches) : Effects tally (b.run line) id :=
  (effects_plain h).of_keep (q := fun c => (⟨c.mtype, c.payloads.map fun rtp => (rtp.payloadType, rtp.mediaType),
    c.videoCodecs, c.audioCodecs, c.inOutPTMap, c.outInPTMap,
    c.extMaps.length + c.tags + c.candidates.length + c.cryptos.length⟩ : Tally))

/-- A branch that adds `n` elements where its marker is found. -/
theorem effects_addOthers {n : ℕ} {marker : Str} (hb : b.searched = [marker])
    (h : ∀ st st', b.Result line st st' → tally st' = (tally st).addOthers n) :
    Effects tally (b.run line) (Tally.addOthers (if marker <:+: line then n else 0)) := by
  have heffect := effects_of_result b line h
  rw [found_of_searched hb] at heffect
  by_cases hf : marker <:+: line
  · rw [decide_eq_true hf, if_pos rfl] at heffect
    rw [if_pos hf]
    exact heffect
  · rw [decide_eq_false hf, if_neg (by decide)] at heffect
    rw [if_neg hf]
    exact heffect

theorem effects_tally_group : Effects tally (Branch.group.run line) fun v => v.change line .group := by
  apply effects_addOthers rfl
  rintro st st' ⟨isBundle, rfl⟩
  simp only [tally, tallyOf, Tally.addOthers, List.length_append, List.length_map, List.length_drop]
  congr 1
  omega

theorem effects_tally_candidate : Effects tally (Branch.candidate.run line) fun v => v.change line .candidate := by
  have heffect : Effects tally (Branch.candidate.run line) (Tally.addOthers (if Marker.cand <:+: line then
      if Accepted (splitOneOf line [' ', ':'] 0) then 1 else 0 else 0)) := by
    apply effects_addOthers rfl
    rintro st st' ⟨cs, rfl, hlen⟩
    simp only [tally, tallyOf, Tally.addOthers, List.length_append, hlen]
    congr 1
    omega
  rw [← ite_and] at heffect
  exact heffect

theorem effects_tally_crypto : Effects tally (Branch.crypto.run line) fun v => v.change line .crypto := by
  apply effects_addOthers rfl
  rintro st st' ⟨c, rfl⟩
  simp only [tally, tallyOf, Tally.addOthers, List.length_append, List.length_singleton]
  rfl

theorem effects_tally_extMap : Effects tally (Branch.extMap.run line) fun v => v.change line .extMap := by
  have heffect : Effects tally (Branch.extMap.run line) (Tally.addOthers (if Marker.extmap <:+: line then
      if 3 ≤ (splitOneOf line [' ', ':', '='] 3).length then 1 else 0 else 0)) := by
    apply effects_addOthers rfl
    rintro st st' ⟨es, rfl, hlen⟩
    simp only [tally, tallyOf, Tally.addOthers, List.length_append, hlen]
    congr 1
    omega
  rw [← ite_and] at heffect
  exact heffect

private theorem tally_addFormat (pt : UInt32) (option value : Str) (ps : List RtpMap) :
    (ps.map (addFormat pt option value)).map (fun rtp => (rtp.payloadType, rtp.mediaType)) =
      ps.map fun rtp => (rtp.payloadType, rtp.mediaType) := by
  rw [List.map_map]
  refine List.map_congr_left fun rtp _ => ?_
  unfold Function.comp addFormat
  split_ifs <;> rfl

theorem effects_tally_fmtp : Effects tally (Branch.fmtp.run line) id := by
  apply effects_of_result_keep
  intro _ st st' hr
  rcases hr with rfl | ⟨pt, option, value, rfl⟩
  · rfl
  · simp only [tally, tallyOf, tally_addFormat]

private theorem tally_addCodec (c : Codec) (st : Parser) :
    tally (addCodec c.payloadType c.encodingName c.clockRate st) = (tally st).addCodec c := by
  rw [addCodec_eq, Tally.addCodec]
  cases internalOf c with
  | none => rfl
  | some r =>
    simp only [tally, tallyOf, Tally.addInternal, List.map_append, List.map_cons, List.map_nil]
    rfl

private theorem codecOf_of_part {pt codecname clock : Str} (hf : Marker.rtpmap <:+: line)
    (h₁ : (splitOneOf line [' ', ':', '/', '\n'] 4)[1]? = some pt)
    (h₂ : (splitOneOf line [' ', ':', '/', '\n'] 4)[2]? = some codecname)
    (h₃ : (splitOneOf line [' ', ':', '/', '\n'] 4)[3]? = some clock) :
    codecOf line = some ⟨strtoul pt, codecname, strtoul clock⟩ := by
  rw [codecOf, if_pos hf]
  generalize splitOneOf line [' ', ':', '/', '\n'] 4 = parts at h₁ h₂ h₃ ⊢
  rcases parts with _ | ⟨w₀, _ | ⟨w₁, _ | ⟨w₂, _ | ⟨w₃, ws⟩⟩⟩⟩
  · cases h₁
  · cases h₁
  · cases h₂
  · cases h₃
  · cases h₁
    cases h₂
    cases h₃
    rfl

private theorem effects_tally_rtpmap : Effects tally (Branch.rtpmap.run line) fun v => v.change line .rtpmap := by
  intro st st' hrun
  by_cases hf : Marker.rtpmap <:+: line
  · obtain ⟨pt, name, clock, rfl, h₁, h₂, h₃⟩ := result_run ((found_of_searched rfl line).trans (decide_eq_true hf)) hrun
    simp only [Tally.change, codecOf_of_part hf h₁ h₂ h₃]
    exact tally_addCodec ⟨strtoul pt, name, strtoul clock⟩ st
  · rw [run_of_not_found ((found_of_searched rfl line).trans (decide_eq_false hf))] at hrun
    have hcodec : codecOf line = none := if_neg hf
    cases hrun
    simp only [Tally.change, hcodec]
    rfl

theorem effects_tally (b : Branch) (line : Str) : Effects tally (b.run line) fun v => v.change line b := by
  cases b with
  | rtcpMux | direction | profile | fingerprint | user | pass | mid | ssrc | ssrcGroup | bandwidth =>
    exact effects_tally_plain (by decide)
  | group => exact effects_tally_group
  | candidate => exact effects_tally_candidate
  | crypto => exact effects_tally_crypto
  | extMap => exact effects_tally_extMap
  | fmtp => exact effects_tally_fmtp
  | rtpmap => exact effects_tally_rtpmap
  | feedback =>
    apply effects_of_result_keep
    intro _ st st' hr
    cases hr
    rfl
  | video | audio =>
    intro st st' h
    simp only [Branch.run, videoBranch, audioBranch, onFound] at h
    simp only [Tally.change]
    split_ifs at h ⊢
    · cases h
      rfl
    · cases h
      rfl

/-- What a line does to the tally. -/
def Tally.read (v : Tally) (line : Str) : Tally := Branch.all.foldl (·.change line ·) v

def mediaAfter (t : MediaType) (line : Str) : MediaType :=
  if Marker.audio <:+: line then .audioType else if Marker.video <:+: line then .videoType else t

def added (line : Str) : ℕ :=
  addedOthers .group line + addedOthers .candidate line + addedOthers .crypto line + addedOthers .extMap line

namespace Tally

private theorem addOthers_addOthers (v : Tally) (m n : ℕ) : (v.addOthers m).addOthers n = v.addOthers (m + n) := by
  simp only [addOthers, Nat.add_assoc]

private theorem addInternal_addOthers (v : Tally) (n : ℕ) (pt internal : UInt32) :
    (v.addOthers n).addInternal pt internal = (v.addInternal pt internal).addOthers n := rfl

private theorem elim_codecOf (v : Tally) (line : Str) :
    (codecOf line).elim v v.addCodec = (mappedBy line).elim v fun x => v.addInternal x.1 x.2 := by
  unfold mappedBy
  cases codecOf line with
  | none => rfl
  | some c =>
    simp only [Option.elim, addCodec, Option.bind_eq_bind, Option.bind_some]
    cases internalOf c <;> rfl

/-- The section of the line comes first, then its codec, and the other elements can be added at the end. -/
theorem read_eq (v : Tally) (line : Str) : v.read line =
    ((mappedBy line).elim (v.setMedia (mediaAfter v.mtype line))
      fun x => (v.setMedia (mediaAfter v.mtype line)).addInternal x.1 x.2).addOthers (added line) := by
  have hmedia : ∀ (w : Tally) (n : ℕ),
      (if Marker.audio <:+: line then
        (if Marker.video <:+: line then (w.addOthers n).setMedia .videoType else w.addOthers n).setMedia .audioType
      else if Marker.video <:+: line then (w.addOthers n).setMedia .videoType else w.addOthers n) =
        (w.setMedia (mediaAfter w.mtype line)).addOthers n := by
    intro w n
    unfold mediaAfter
    split_ifs <;> rfl
  have hzero : ∀ w : Tally, w.addOthers 0 = w := fun _ => rfl
  simp only [read, Branch.all, List.foldl_cons, List.foldl_nil, change, addedOthers, hzero, hmedia, elim_codecOf]
  cases mappedBy line with
  | none => simp only [Option.elim, addOthers_addOthers, added, addedOthers]
  | some x => simp only [Option.elim, addOthers_addOthers, addInternal_addOthers, added, addedOthers]

end Tally

private theorem effects_tally_line (line : Str) : Effects tally (processLine · line) (·.read line) :=
  Effects.foldlM fun b _ => effects_tally b line

theorem effects_tally_lines (ls : List Str) : Effects tally (fun st => ls.foldlM processLine st) (ls.foldl Tally.read) :=
  Effects.foldlM fun line _ => effects_tally_line line

end Changes

section Whole
variable {info info' : SdpInfo} {st : Parser} {mtype : MediaType} {r : Bool}

private theorem tally_mapFeedback {line : Str} (h : mapFeedback info line = .ok info') :
    tallyOf info' mtype = tallyOf info mtype := by
  unfold mapFeedback at h
  simp only [bind_eq_ok] at h
  obtain ⟨pt, -, feedback, -, h⟩ := h
  cases h
  have hkeep : ∀ rtp, ((addFeedback (strtoul pt) feedback rtp).payloadType,
      (addFeedback (strtoul pt) feedback rtp).mediaType) = (rtp.payloadType, rtp.mediaType) := by
    intro rtp
    unfold addFeedback
    split_ifs <;> rfl
  simp only [tallyOf, List.map_map, Function.comp_def, hkeep]

private theorem tally_fillCredentials (info : SdpInfo) (mtype : MediaType) :
    tallyOf (fillCredentials info) mtype = tallyOf info mtype := by
  unfold fillCredentials
  split_ifs <;> rfl

private theorem tally_fillCandidates (info : SdpInfo) (mtype : MediaType) :
    tallyOf (fillCandidates info) mtype = tallyOf info mtype := by
  simp only [tallyOf, fillCandidates, List.length_map]

theorem tally_finish (h : st.finish = .ok (r, info)) : tallyOf info st.mtype = tally st := by
  unfold finish at h
  split_ifs at h
  · cases h
    rfl
  · obtain ⟨info', hfold, h⟩ := bind_eq_ok.mp h
    cases h
    have hkeep : Effects (tallyOf · st.mtype) (fun info => st.tmpFeedbackVector.foldlM mapFeedback info) id :=
      Effects.foldlM_keep fun _ _ _ _ h => tally_mapFeedback h
    refine (hkeep _ _ hfold).trans ?_
    show tallyOf (fillCandidates (fillCredentials st.info)) st.mtype = tally st
    rw [tally_fillCandidates, tally_fillCredentials]
    rfl

theorem tally_processSdp {sdp media : Str} (h : processSdp info sdp media = .ok (r, info')) :
    ∃ t, tallyOf info' t = (getlines sdp).foldl Tally.read (tallyOf info (mediaTypeOf media)) := by
  obtain ⟨st, hlines, hfinish⟩ := bind_eq_ok.mp h
  exact ⟨st.mtype, (tally_finish hfinish).trans (effects_tally_lines (getlines sdp) _ st hlines)⟩

end Whole
end Sfup.Sdp.Parser
