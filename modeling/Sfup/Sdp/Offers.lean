import Sfup.Lib.Transition
import Sfup.Sdp.PayloadTypes
import Mathlib.Tactic.Ring

/-! The codec counters of descriptions that are offered, answered and read, in any order of the calls. -/
namespace Sfup.Sdp

namespace SdpInfo

/-- The loop over the internal codecs adds to the counters. -/
def createOfferSdp (info : SdpInfo) (videoEnabled audioEnabled : Bool) : SdpInfo :=
  { info with
    payloadVector := internalPayloadVector
    isBundle := true
    profile := .savpf
    isRtcpMux := true
    videoSdpMLine := if videoEnabled then 0 else info.videoSdpMLine
    audioSdpMLine := if audioEnabled then 0 else info.audioSdpMLine
    videoCodecs := internalPayloadVector.foldl (fun n rtp => if rtp.mediaType = .videoType then n + 1 else n)
      info.videoCodecs
    audioCodecs := internalPayloadVector.foldl
      (fun n rtp => if rtp.mediaType = .videoType then n else if rtp.mediaType = .audioType then n + 1 else n)
      info.audioCodecs
    hasVideo := videoEnabled
    hasAudio := audioEnabled
    videoDirection := .sendRecv
    audioDirection := .sendRecv }

def answerDirection : StreamDirection → StreamDirection
  | .sendOnly => .recvOnly
  | .recvOnly => .sendOnly
  | .sendRecv => .sendRecv

def setOfferSdp (info offerSdp : SdpInfo) : SdpInfo :=
  { info with
    videoCodecs := offerSdp.videoCodecs
    audioCodecs := offerSdp.audioCodecs
    payloadVector := offerSdp.payloadVector
    isBundle := offerSdp.isBundle
    profile := offerSdp.profile
    isRtcpMux := offerSdp.isRtcpMux
    videoSdpMLine := offerSdp.videoSdpMLine
    audioSdpMLine := offerSdp.audioSdpMLine
    inOutPTMap := offerSdp.inOutPTMap
    outInPTMap := offerSdp.outInPTMap
    hasVideo := offerSdp.hasVideo
    hasAudio := offerSdp.hasAudio
    bundleTags := offerSdp.bundleTags
    extMapVector := offerSdp.extMapVector
    videoDirection := answerDirection offerSdp.videoDirection
    audioDirection := answerDirection offerSdp.audioDirection }

def countOf (info : SdpInfo) (t : MediaType) : ℤ := (info.payloadVector.filter (·.mediaType = t)).length

def Counted (info : SdpInfo) : Prop :=
  info.videoCodecs = info.countOf .videoType ∧ info.audioCodecs = info.countOf .audioType

def spacedLine (info : SdpInfo) (start : Str) (t : MediaType) : Str :=
  start ++ (if info.profile = .savpf then " UDP/TLS/RTP/SAVPF ".toList else " RTP/AVPF ".toList) ++
    List.intercalate " ".toList ((info.payloadVector.filter (·.mediaType = t)).map fun rtp => dec rtp.payloadType.toNat)

def Spaced (info : SdpInfo) : Prop :=
  ∀ rand text info', getSdp rand info = .ok (text, info') → ∃ ls : List Str, text = ls.flatMap (· ++ ['\n']) ∧
    (info.hasAudio = true → info.spacedLine "m=audio 1".toList .audioType ∈ ls) ∧
    (info.hasVideo = true → info.spacedLine "m=video 1".toList .videoType ∈ ls)

end SdpInfo

/-- A call on one of the objects. -/
inductive Call
  | createOfferSdp (object : ℕ) (videoEnabled audioEnabled : Bool)
  | setOfferSdp (object offer : ℕ)
  | initWithSdp (object : ℕ) (sdp media : Str)

abbrev Objects := ℕ → SdpInfo

namespace Objects
open SdpInfo

def step (s : Objects) : Call → Option (Unit × Objects)
  | .createOfferSdp i videoEnabled audioEnabled =>
    some ((), Function.update s i ((s i).createOfferSdp videoEnabled audioEnabled))
  | .setOfferSdp i j => some ((), Function.update s i ((s i).setOfferSdp (s j)))
  | .initWithSdp i sdp media =>
    match (s i).initWithSdp sdp media with
    | .ok (_, info) => some ((), Function.update s i info)
    | .error _ => none

/-- The objects as their constructor makes them, with the directions that it leaves open. -/
def fresh (directions : ℕ → StreamDirection × StreamDirection) : Objects :=
  fun i => SdpInfo.new (directions i).1 (directions i).2

/-- In every object the counters are right and the text is spaced. -/
def Right (s : Objects) : Prop := ∀ i, (s i).Counted ∧ (s i).Spaced

/-- No supported codec stands in front of the first media line. -/
def Placed : MediaType → List Str → Prop
  | _, [] => True
  | t, line :: ls => ((Parser.mappedBy line).isSome → Parser.mediaAfter t line ≠ .other) ∧
      Placed (Parser.mediaAfter t line) ls

/-- An offer is made from an object that has counted no codec, and a text that is read through has its codecs in
the sections of audio and video. -/
def Meets (s : Objects) : Call → Prop
  | .createOfferSdp i _ _ => (s i).videoCodecs = 0 ∧ (s i).audioCodecs = 0
  | .setOfferSdp _ _ => True
  | .initWithSdp i sdp media =>
    ((s i).initWithSdp sdp media).isOk → Placed (mediaTypeOf media) (getlines sdp)

end Objects

namespace SdpInfo

section Spacing
variable {info info' : SdpInfo} {rand : ℕ → ℕ} {text msidtemp : Str} {ls : List Str}

/-- A blank behind each number but the last. -/
theorem flatMap_blanks (f : RtpMap → Str) (ps : List RtpMap) (k : ℕ) {n : ℤ} (h : n + 1 = k + ps.length) :
    ((ps.zipIdx k).flatMap fun x => f x.1 ++ if (x.2 : ℤ) < n then " ".toList else []) =
      List.intercalate " ".toList (ps.map f) := by
  induction ps generalizing k with
  | nil => rfl
  | cons p ps ih =>
    cases ps with
    | nil =>
      have hlast : ¬ (k : ℤ) < n := by
        simp only [List.length_singleton] at h
        omega
      simp [hlast]
    | cons q ps =>
      have hmore : (k : ℤ) < n := by
        simp only [List.length_cons] at h
        omega
      have hnext : n + 1 = (k + 1 : ℕ) + (q :: ps).length := by
        simp only [List.length_cons] at h ⊢
        omega
      rw [List.zipIdx_cons, List.flatMap_cons, if_pos hmore, ih (k + 1) hnext]
      simp [List.intercalate_cons_cons]

theorem mediaLine_eq_spacedLine {t : MediaType} {n : ℤ} (start : Str) (h : n = info.countOf t) :
    mediaLine start info.profile (info.payloadVector.filter (·.mediaType = t)) n = info.spacedLine start t := by
  unfold mediaLine spacedLine
  rw [flatMap_blanks (fun rtp => dec rtp.payloadType.toNat) _ 1 (by rw [h, countOf, add_comm]; rfl)]

theorem mem_audioLines (h : audioLines msidtemp info = .ok ls) :
    mediaLine "m=audio 1".toList info.profile (info.payloadVector.filter (·.mediaType = .audioType)) info.audioCodecs
      ∈ ls := by
  unfold audioLines at h
  simp only [bind_eq_ok] at h
  obtain ⟨extMaps, -, mids, -, h⟩ := h
  cases h
  simp only [List.mem_append, List.mem_cons, true_or]

private theorem mem_videoLines (h : videoLines msidtemp info = .ok ls) :
    mediaLine "m=video 1".toList info.profile (info.payloadVector.filter (·.mediaType = .videoType)) info.videoCodecs
      ∈ ls := by
  unfold videoLines at h
  simp only [bind_eq_ok] at h
  obtain ⟨extMaps, -, mids, -, h⟩ := h
  cases h
  simp only [List.mem_append, List.mem_cons, true_or]

private theorem getSdp_eq_ok (h : getSdp rand info = .ok (text, info')) : ∃ head audio video,
    text = (head ++ audio ++ video).flatMap (· ++ ['\n']) ∧
    (info.hasAudio = true → audioLines (genRandom rand 10) info.withSsrcs = .ok audio) ∧
    (info.hasVideo = true → videoLines (genRandom rand 10) info.withSsrcs = .ok video) := by
  unfold getSdp at h
  simp only [] at h
  obtain ⟨head, -, h⟩ := bind_eq_ok.mp h
  have hsame : info.withSsrcs.hasAudio = info.hasAudio ∧ info.withSsrcs.hasVideo = info.hasVideo := ⟨rfl, rfl⟩
  rw [hsame.1, hsame.2] at h
  split_ifs at h with ha hv hv
  · simp only [bind_eq_ok] at h
    obtain ⟨audio, haudio, video, hvideo, h⟩ := h
    cases h
    exact ⟨head, audio, video, rfl, fun _ => haudio, fun _ => hvideo⟩
  · simp only [bind_eq_ok] at h
    obtain ⟨audio, haudio, video, -, h⟩ := h
    cases h
    exact ⟨head, audio, video, rfl, fun _ => haudio, fun hv' => absurd hv' hv⟩
  · simp only [bind_eq_ok] at h
    obtain ⟨audio, -, video, hvideo, h⟩ := h
    cases h
    exact ⟨head, audio, video, rfl, fun ha' => absurd ha' ha, fun _ => hvideo⟩
  · simp only [bind_eq_ok] at h
    obtain ⟨audio, -, video, -, h⟩ := h
    cases h
    exact ⟨head, audio, video, rfl, fun ha' => absurd ha' ha, fun hv' => absurd hv' hv⟩

theorem Counted.spaced (h : info.Counted) : info.Spaced := by
  intro rand text info' hget
  obtain ⟨head, audio, video, rfl, ha, hv⟩ := getSdp_eq_ok hget
  refine ⟨head ++ audio ++ video, rfl, fun haudio => ?_, fun hvideo => ?_⟩
  · have hmem := mem_audioLines (ha haudio)
    rw [← mediaLine_eq_spacedLine "m=audio 1".toList h.2]
    exact List.mem_append_left _ (List.mem_append_right _ hmem)
  · have hmem := mem_videoLines (hv hvideo)
    rw [← mediaLine_eq_spacedLine "m=video 1".toList h.1]
    exact List.mem_append_right _ hmem

end Spacing
end SdpInfo

namespace Parser.Tally
open Objects

def countOf (v : Tally) (t : MediaType) : ℤ := (v.entries.filter (·.2 = t)).length

def videoExcess (v : Tally) : ℤ := v.videoCodecs - v.countOf .videoType

def audioExcess (v : Tally) : ℤ := v.audioCodecs - v.countOf .audioType

def strays : MediaType → List Str → ℕ
  | _, [] => 0
  | t, line :: ls =>
    (if (mappedBy line).isSome ∧ mediaAfter t line = .other then 1 else 0) + strays (mediaAfter t line) ls

theorem strays_eq_zero_iff (t : MediaType) (ls : List Str) : strays t ls = 0 ↔ Placed t ls := by
  induction ls generalizing t with
  | nil => simp [strays, Placed]
  | cons line ls ih =>
    rw [strays, Placed, Nat.add_eq_zero_iff, ih]
    refine and_congr_left' ?_
    by_cases h : (mappedBy line).isSome ∧ mediaAfter t line = .other
    · rw [if_pos h]
      exact iff_of_false one_ne_zero fun hplaced => hplaced h.1 h.2
    · rw [if_neg h]
      exact iff_of_true rfl fun hsome hother => h ⟨hsome, hother⟩

theorem excess_addInternal (v : Tally) (pt internal : UInt32) :
    (v.addInternal pt internal).videoExcess = v.videoExcess ∧
      (v.addInternal pt internal).audioExcess = v.audioExcess + if v.mtype = .other then 1 else 0 := by
  have hcount : ∀ t, (v.addInternal pt internal).countOf t = v.countOf t + if v.mtype = t then 1 else 0 := by
    intro t
    simp only [countOf, addInternal, List.filter_append, List.length_append, Nat.cast_add, List.filter_singleton]
    split_ifs <;> simp_all
  unfold videoExcess audioExcess
  rw [hcount, hcount]
  unfold addInternal
  cases v.mtype with
  | videoType => simp
  | audioType => simp
  | other => simp; omega

private theorem excess_read (v : Tally) (line : Str) :
    (v.read line).mtype = mediaAfter v.mtype line ∧ (v.read line).videoExcess = v.videoExcess ∧
      (v.read line).audioExcess =
        v.audioExcess + if (mappedBy line).isSome ∧ mediaAfter v.mtype line = .other then 1 else 0 := by
  rw [read_eq]
  cases mappedBy line with
  | none => exact ⟨rfl, rfl, by simp [setMedia, addOthers, audioExcess, countOf]⟩
  | some x =>
    obtain ⟨hv, ha⟩ := excess_addInternal (v.setMedia (mediaAfter v.mtype line)) x.1 x.2
    refine ⟨rfl, hv, ha.trans ?_⟩
    by_cases hm : mediaAfter v.mtype line = .other
    · simp [setMedia, audioExcess, countOf, hm]
    · simp [setMedia, audioExcess, countOf, hm]

private theorem excess_foldl_read (v : Tally) (ls : List Str) : (ls.foldl read v).videoExcess = v.videoExcess ∧
    (ls.foldl read v).audioExcess = v.audioExcess + strays v.mtype ls := by
  induction ls generalizing v with
  | nil => exact ⟨rfl, (add_zero _).symm⟩
  | cons line ls ih =>
    obtain ⟨hm, hv, ha⟩ := excess_read v line
    obtain ⟨ihv, iha⟩ := ih (v.read line)
    refine ⟨ihv.trans hv, ?_⟩
    rw [List.foldl_cons, iha, ha, hm, strays]
    push_cast
    ring

private theorem countOf_tallyOf (info : SdpInfo) (m t : MediaType) : (tallyOf info m).countOf t = info.countOf t := by
  simp only [countOf, SdpInfo.countOf, tallyOf, List.filter_map, List.length_map]
  rfl

private theorem counted_iff (info : SdpInfo) (m : MediaType) :
    info.Counted ↔ (tallyOf info m).videoExcess = 0 ∧ (tallyOf info m).audioExcess = 0 := by
  unfold SdpInfo.Counted videoExcess audioExcess
  rw [countOf_tallyOf, countOf_tallyOf, sub_eq_zero, sub_eq_zero]
  rfl

end Parser.Tally

namespace Objects
open SdpInfo Sfup.Sdp.Parser

section Runs
variable {s s' : Objects} {c : Call}

/-- Reading a text keeps the counters right exactly if its codecs stand in the sections. -/
theorem counted_initWithSdp_iff {info info' : SdpInfo} {sdp media : Str} {r : Bool} (hc : info.Counted)
    (h : info.initWithSdp sdp media = .ok (r, info')) :
    info'.Counted ↔ Placed (mediaTypeOf media) (getlines sdp) := by
  obtain ⟨t, ht⟩ := tally_processSdp h
  obtain ⟨hv, ha⟩ := Tally.excess_foldl_read (tallyOf info (mediaTypeOf media)) (getlines sdp)
  obtain ⟨hv₀, ha₀⟩ := (Tally.counted_iff info (mediaTypeOf media)).mp hc
  rw [Tally.counted_iff info' t, ht, hv, ha, hv₀, ha₀, ← Tally.strays_eq_zero_iff]
  simp only [true_and, zero_add, Nat.cast_eq_zero]
  rfl

/-- Making an offer keeps the counters right exactly if they were zero. -/
theorem counted_createOfferSdp_iff (info : SdpInfo) (videoEnabled audioEnabled : Bool) :
    (info.createOfferSdp videoEnabled audioEnabled).Counted ↔ info.videoCodecs = 0 ∧ info.audioCodecs = 0 := by
  have hvideo : (info.createOfferSdp videoEnabled audioEnabled).videoCodecs = info.videoCodecs + 3 := by
    simp [createOfferSdp, internalPayloadVector]
    omega
  have haudio : (info.createOfferSdp videoEnabled audioEnabled).audioCodecs = info.audioCodecs + 2 := by
    simp [createOfferSdp, internalPayloadVector]
    omega
  have hcount : (info.createOfferSdp videoEnabled audioEnabled).countOf .videoType = 3 ∧
      (info.createOfferSdp videoEnabled audioEnabled).countOf .audioType = 2 := ⟨rfl, rfl⟩
  unfold Counted
  rw [hvideo, haudio, hcount.1, hcount.2]
  omega

private theorem right_update_iff {i : ℕ} {info : SdpInfo} (h : Right s) :
    Right (Function.update s i info) ↔ info.Counted := by
  constructor
  · intro hr
    have hi := (hr i).1
    rwa [Function.update_self] at hi
  · intro hc j
    by_cases hj : j = i
    · subst hj
      rw [Function.update_self]
      exact ⟨hc, hc.spaced⟩
    · rw [Function.update_of_ne hj]
      exact h j

/-- A call keeps all objects right exactly under the condition. -/
theorem right_step_iff (h : Right s) {u : Unit} (hs : step s c = some (u, s')) : Right s' ↔ Meets s c := by
  cases c with
  | createOfferSdp i videoEnabled audioEnabled =>
    cases hs
    rw [right_update_iff h]
    exact counted_createOfferSdp_iff (s i) videoEnabled audioEnabled
  | setOfferSdp i j =>
    cases hs
    rw [right_update_iff h]
    exact iff_of_true (h j).1 trivial
  | initWithSdp i sdp media =>
    simp only [step] at hs
    split at hs
    · rename_i r info hok
      cases hs
      rw [right_update_iff h, counted_initWithSdp_iff (h i).1 hok, Meets, hok]
      exact ⟨fun hp _ => hp, fun hp => hp rfl⟩
    · cases hs

private theorem meets_of_none (hs : step s c = none) : Meets s c := by
  cases c with
  | createOfferSdp i videoEnabled audioEnabled => cases hs
  | setOfferSdp i j => cases hs
  | initWithSdp i sdp media =>
    simp only [step] at hs
    split at hs
    · cases hs
    · rename_i e herr
      intro hok
      rw [herr] at hok
      cases hok

private theorem right_fresh (directions : ℕ → StreamDirection × StreamDirection) : Right (fresh directions) :=
  fun _ => ⟨⟨rfl, rfl⟩, Counted.spaced ⟨rfl, rfl⟩⟩

/-- Over any sequence of calls on fresh objects, the counters are right and the media lines spaced in every state
exactly if every call meets the condition. -/
theorem always_right_iff_along_meets (directions : ℕ → StreamDirection × StreamDirection) (calls : List Call) :
    Transition.Always step Right (fresh directions) calls ↔
      Transition.Along step Meets (fresh directions) calls :=
  Transition.always_iff_along (I := fun _ => True) (fun _ _ _ _ _ h hs => right_step_iff h hs)
    (fun _ _ hs => meets_of_none hs) (fun _ _ _ _ _ _ => trivial) trivial (right_fresh directions) calls

/-- Two offers of one object count each codec twice. -/
theorem not_always_right_createOffer_twice : ¬ Transition.Always step Right (fresh fun _ => (.sendRecv, .sendRecv))
    [.createOfferSdp 0 true true, .createOfferSdp 0 true true] := by
  intro h
  have hright := (h.2 () _ rfl).2 () _ rfl
  exact absurd (hright 0).1.1 (by decide)

end Runs
end Objects
end Sfup.Sdp
