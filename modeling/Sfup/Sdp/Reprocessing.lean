import Sfup.Sdp.Collecting

/-! A description that is read a second time into the same object. -/
namespace Sfup.Sdp

namespace SdpInfo

/-- The same codecs with their parameters, counters and maps, and the same other vectors. -/
structure SameModel (info info' : SdpInfo) : Prop where
  payloadVector : info'.payloadVector = info.payloadVector
  extMapVector : info'.extMapVector = info.extMapVector
  bundleTags : info'.bundleTags = info.bundleTags
  candidateVector : info'.candidateVector = info.candidateVector
  cryptoVector : info'.cryptoVector = info.cryptoVector
  videoCodecs : info'.videoCodecs = info.videoCodecs
  audioCodecs : info'.audioCodecs = info.audioCodecs
  inOutPTMap : info'.inOutPTMap = info.inOutPTMap
  outInPTMap : info'.outInPTMap = info.outInPTMap

end SdpInfo

namespace Parser
open SdpInfo

/-- No supported codec, extension map, tag, candidate or key is on the line. -/
def AddsNothing (line : Str) : Prop := mappedBy line = none ∧ added line = 0

instance {line : Str} : Decidable (AddsNothing line) := inferInstanceAs (Decidable (_ ∧ _))

/-- What decides whether a line can be read. -/
structure Kept where
  mtype : MediaType
  feedbackLines : List Str
  tags : List BundleTag
  videoSsrc : UInt32
  audioSsrc : UInt32
  videoUsername : Str
  audioUsername : Str

def kept (st : Parser) : Kept where
  mtype := st.mtype
  feedbackLines := st.tmpFeedbackVector
  tags := st.info.bundleTags
  videoSsrc := st.info.videoSsrc
  audioSsrc := st.info.audioSsrc
  videoUsername := st.info.iceVideoUsername
  audioUsername := st.info.iceAudioUsername

/-- The second reading has no tags, and has every source and every user name that the first has. -/
structure Kept.Covers (v w : Kept) : Prop where
  mtype : w.mtype = v.mtype
  feedbackLines : w.feedbackLines = v.feedbackLines
  tags : w.tags = []
  videoSsrc : w.videoSsrc = 0 → v.videoSsrc = 0
  audioSsrc : w.audioSsrc = 0 → v.audioSsrc = 0
  videoUsername : w.videoUsername = [] → v.videoUsername = []
  audioUsername : w.audioUsername = [] → v.audioUsername = []

def Covers (st st' : Parser) : Prop := (kept st).Covers (kept st')

section Again
variable {line marker : Str} {act : Parser → Except Fault Parser} {b : Branch}

theorem tracks_onFound (h : marker <:+: line → Tracks Covers act act) :
    Tracks Covers (onFound marker line act) (onFound marker line act) := by
  by_cases hf : marker <:+: line
  · rw [onFound_of hf]
    exact h hf
  · rw [onFound_of_not hf]
    exact Tracks.ok

theorem tracks_direction : Tracks Covers (directionBranch line) (directionBranch line) := by
  intro st st' hR s hs
  have hset : ∀ d, kept (setDirection d st) = kept st ∧ kept (setDirection d st') = kept st' := by
    intro d
    unfold setDirection
    constructor
    · split_ifs <;> rfl
    · split_ifs <;> rfl
  have hcovers : ∀ d, Covers (setDirection d st) (setDirection d st') := by
    intro d
    rw [Covers, (hset d).1, (hset d).2]
    exact hR
  unfold directionBranch at hs ⊢
  split_ifs at hs ⊢
  · cases hs
    exact ⟨_, rfl, hcovers _⟩
  · cases hs
    exact ⟨_, rfl, hcovers _⟩
  · cases hs
    exact ⟨_, rfl, hcovers _⟩
  · cases hs
    exact ⟨_, rfl, hR⟩

theorem tracks_group (h : addedOthers .group line = 0) : Tracks Covers (groupBranch line) (groupBranch line) := by
  refine tracks_onFound fun hf st st' hR s hs => ?_
  have hnone : (splitOneOf line [':', ' ', ' ', '\r', '\n'] 10).drop 2 = [] := by
    rw [addedOthers, if_pos hf] at h
    exact List.drop_eq_nil_of_le (by omega)
  obtain ⟨kind, hkind, hs⟩ := bind_eq_ok.mp hs
  cases hs
  refine ⟨_, bind_eq_ok.mpr ⟨kind, hkind, rfl⟩, hR.mtype, hR.feedbackLines, ?_, hR.videoSsrc, hR.audioSsrc,
    hR.videoUsername, hR.audioUsername⟩
  show st'.info.bundleTags ++ _ = []
  rw [hnone, List.map_nil, List.append_nil]
  exact hR.tags

private theorem processCandidate_any {pieces : List Str} {t : MediaType} {info : SdpInfo} {r : Bool × SdpInfo}
    (h : processCandidate pieces t info = .ok r) (info' : SdpInfo) :
    ∃ r', processCandidate pieces t info' = .ok r' := by
  unfold processCandidate at h ⊢
  simp only [bind_eq_ok] at h
  obtain ⟨foundation, h₁, componentId, h₂, proto, h₃, h⟩ := h
  simp only [h₁, h₂, h₃, ok_bind]
  split_ifs at h ⊢ with hudp
  · exact ⟨_, rfl⟩
  simp only [bind_eq_ok] at h
  obtain ⟨priority, h₄, hostAddress, h₅, hostPort, h₆, typ, h₇, h⟩ := h
  simp only [h₄, h₅, h₆, h₇, ok_bind]
  split_ifs at h ⊢ with htyp
  · exact ⟨_, rfl⟩
  obtain ⟨hostType, h₈, h⟩ := bind_eq_ok.mp h
  simp only [h₈, ok_bind]
  split_ifs at h ⊢ with hrelated
  · simp only [bind_eq_ok] at h
    obtain ⟨rAddress, h₁₀, rPort, h₁₂, h⟩ := h
    simp only [h₁₀, h₁₂, ok_bind]
    exact ⟨_, rfl⟩
  · exact ⟨_, rfl⟩

theorem tracks_candidate : Tracks Covers (candidateBranch line) (candidateBranch line) := by
  refine tracks_onFound fun _ st st' hR s hs => ?_
  obtain ⟨⟨r, info⟩, hr, hs⟩ := bind_eq_ok.mp hs
  obtain ⟨cs, rfl, -⟩ := processCandidate_keeps hr
  cases hs
  obtain ⟨⟨r', info'⟩, hr'⟩ := processCandidate_any hr st'.info
  obtain ⟨cs', rfl, -⟩ := processCandidate_keeps hr'
  rw [show st.mtype = st'.mtype from hR.mtype.symm] at hr'
  exact ⟨_, bind_eq_ok.mpr ⟨_, hr', rfl⟩, hR⟩

theorem tracks_crypto : Tracks Covers (cryptoBranch line) (cryptoBranch line) := by
  refine tracks_onFound fun _ st st' hR s hs => ?_
  simp only [bind_eq_ok] at hs
  obtain ⟨cipherSuite, h₂, keyParams, h₄, hs⟩ := hs
  cases hs
  simp only [h₂, h₄, ok_bind]
  exact ⟨_, rfl, hR⟩

theorem tracks_user : Tracks Covers (userBranch line) (userBranch line) := by
  refine tracks_onFound fun _ st st' hR s hs => ?_
  obtain ⟨username, hu, hs⟩ := bind_eq_ok.mp hs
  have hmtype : st'.mtype = st.mtype := hR.mtype
  cases hs
  refine ⟨_, bind_eq_ok.mpr ⟨username, hu, rfl⟩, ?_⟩
  by_cases hm : st.mtype = .audioType
  · rw [if_pos hm, if_pos (hmtype.trans hm)]
    exact ⟨hR.mtype, hR.feedbackLines, hR.tags, hR.videoSsrc, hR.audioSsrc, hR.videoUsername, id⟩
  · rw [if_neg hm, if_neg fun h => hm (hmtype.symm.trans h)]
    exact ⟨hR.mtype, hR.feedbackLines, hR.tags, hR.videoSsrc, hR.audioSsrc, id, hR.audioUsername⟩

theorem tracks_pass : Tracks Covers (passBranch line) (passBranch line) := by
  refine tracks_onFound fun _ st st' hR s hs => ?_
  obtain ⟨password, hp, hs⟩ := bind_eq_ok.mp hs
  cases hs
  refine ⟨_, bind_eq_ok.mpr ⟨password, hp, rfl⟩, ?_⟩
  split_ifs <;> exact hR

/-- Without tags the second reading of a name cannot fail. -/
theorem tracks_mid : Tracks Covers (midBranch line) (midBranch line) := by
  refine tracks_onFound fun _ st st' hR s hs => ?_
  simp only [] at hs ⊢
  have hs' : ∃ tags, kept s = { kept st with tags } := by
    split_ifs at hs with hmid
    · simp only [bind_eq_ok] at hs
      obtain ⟨_, -, tags, -, hs⟩ := hs
      cases hs
      exact ⟨tags, rfl⟩
    · cases hs
      exact ⟨_, rfl⟩
  have hcovers : ∀ t', kept t' = kept st' → Covers s t' := by
    obtain ⟨tags, htags⟩ := hs'
    intro t' ht'
    rw [Covers, htags, ht']
    exact ⟨hR.mtype, hR.feedbackLines, hR.tags, hR.videoSsrc, hR.audioSsrc, hR.videoUsername, hR.audioUsername⟩
  have htags : st'.info.bundleTags = [] := hR.tags
  split_ifs with hmid
  · have hloop : ∀ id, uint8Loop st'.info.bundleTags (fun t => [setTagType id st'.mtype t]) = .ok [] := by
      intro id
      rw [htags]
      rfl
    have hpart := part_of_lt (show 1 < (splitOneOf line [':', ' ', '\r', '\n'] 4).length by omega)
    refine ⟨_, bind_eq_ok.mpr ⟨_, hpart, bind_eq_ok.mpr ⟨[], hloop _, rfl⟩⟩, hcovers _ ?_⟩
    simp only [kept, htags]
  · exact ⟨st', rfl, hcovers st' rfl⟩

theorem tracks_ssrc : Tracks Covers (ssrcBranch line) (ssrcBranch line) := by
  refine tracks_onFound fun _ st st' hR s hs => ?_
  have hmtype : st'.mtype = st.mtype := hR.mtype
  simp only [] at hs ⊢
  by_cases hv' : st'.mtype = .videoType ∧ st'.info.videoSsrc = 0
  · rw [if_pos ⟨hmtype.symm.trans hv'.1, hR.videoSsrc hv'.2⟩] at hs
    obtain ⟨value, hvalue, hs⟩ := bind_eq_ok.mp hs
    cases hs
    rw [if_pos hv']
    exact ⟨_, bind_eq_ok.mpr ⟨value, hvalue, rfl⟩, hR.mtype, hR.feedbackLines, hR.tags, id, hR.audioSsrc,
      hR.videoUsername, hR.audioUsername⟩
  · rw [if_neg hv']
    by_cases ha' : st'.mtype = .audioType ∧ st'.info.audioSsrc = 0
    · have hm : st.mtype = .audioType := hmtype.symm.trans ha'.1
      rw [if_neg (fun h => by simp [hm] at h), if_pos ⟨hm, hR.audioSsrc ha'.2⟩] at hs
      obtain ⟨value, hvalue, hs⟩ := bind_eq_ok.mp hs
      cases hs
      rw [if_pos ha']
      exact ⟨_, bind_eq_ok.mpr ⟨value, hvalue, rfl⟩, hR.mtype, hR.feedbackLines, hR.tags, hR.videoSsrc, id,
        hR.videoUsername, hR.audioUsername⟩
    · rw [if_neg ha']
      split_ifs at hs with hv ha
      · obtain ⟨value, -, hs⟩ := bind_eq_ok.mp hs
        cases hs
        exact ⟨st', rfl, hR.mtype, hR.feedbackLines, hR.tags, fun h => absurd ⟨hmtype.trans hv.1, h⟩ hv', hR.audioSsrc,
          hR.videoUsername, hR.audioUsername⟩
      · obtain ⟨value, -, hs⟩ := bind_eq_ok.mp hs
        cases hs
        exact ⟨st', rfl, hR.mtype, hR.feedbackLines, hR.tags, hR.videoSsrc, fun h => absurd ⟨hmtype.trans ha.1, h⟩ ha',
          hR.videoUsername, hR.audioUsername⟩
      · cases hs
        exact ⟨st', rfl, hR⟩

/-- A value that is read in the video section. -/
theorem tracks_video_value {parts : List Str} {i n : ℕ} {f : UInt32 → Parser → Parser}
    (hkeep : ∀ v st, kept (f v st) = kept st) :
    Tracks Covers
      (fun st => if st.mtype = .videoType ∧ parts.length ≥ n then do return f (strtoul (← part parts i)) st else .ok st)
      (fun st => if st.mtype = .videoType ∧ parts.length ≥ n then do return f (strtoul (← part parts i)) st
        else .ok st) := by
  intro st st' hR s hs
  beta_reduce at hs ⊢
  have hmtype : st'.mtype = st.mtype := hR.mtype
  by_cases h : st.mtype = .videoType ∧ parts.length ≥ n
  · rw [if_pos h] at hs
    rw [if_pos ⟨hmtype.trans h.1, h.2⟩]
    obtain ⟨value, hvalue, hs⟩ := bind_eq_ok.mp hs
    cases hs
    refine ⟨_, bind_eq_ok.mpr ⟨value, hvalue, rfl⟩, ?_⟩
    rw [Covers, hkeep, hkeep]
    exact hR
  · rw [if_neg h] at hs
    rw [if_neg fun h' => h ⟨hmtype.symm.trans h'.1, h'.2⟩]
    cases hs
    exact ⟨st', rfl, hR⟩

theorem tracks_rtpmap : Tracks Covers (rtpmapBranch line) (rtpmapBranch line) := by
  have hadd : ∀ (c : Codec) st, kept (addCodec c.payloadType c.encodingName c.clockRate st) = kept st := by
    intro c st
    rw [addCodec_eq]
    cases internalOf c <;> rfl
  refine tracks_onFound fun _ st st' hR s hs => ?_
  simp only [bind_eq_ok] at hs
  obtain ⟨pt, h₁, codecname, h₂, clock, h₃, hs⟩ := hs
  cases hs
  simp only [h₁, h₂, h₃, ok_bind]
  refine ⟨_, rfl, ?_⟩
  rw [Covers, hadd ⟨strtoul pt, codecname, strtoul clock⟩, hadd ⟨strtoul pt, codecname, strtoul clock⟩]
  exact hR

private theorem tracks_extMap : Tracks Covers (extMapBranch line) (extMapBranch line) := by
  refine tracks_onFound fun _ st st' hR s hs => ?_
  simp only [] at hs ⊢
  split_ifs at hs ⊢
  · simp only [bind_eq_ok] at hs
    obtain ⟨value, h₂, uri, h₃, hs⟩ := hs
    cases hs
    simp only [h₂, h₃, ok_bind]
    exact ⟨_, rfl, hR⟩
  · cases hs
    exact ⟨st', rfl, hR⟩

private theorem tracks_fmtp : Tracks Covers (fmtpBranch line) (fmtpBranch line) := by
  refine tracks_onFound fun _ st st' hR s hs => ?_
  simp only [] at hs ⊢
  split_ifs at hs ⊢
  · simp only [bind_eq_ok] at hs
    obtain ⟨pt, h₂, value, h₃, _, -, hs⟩ := hs
    cases hs
    simp only [h₂, h₃, ok_bind]
    exact ⟨_, rfl, hR⟩
  · simp only [bind_eq_ok] at hs
    obtain ⟨pt, h₂, option, h₃, value, h₄, _, -, hs⟩ := hs
    cases hs
    simp only [h₂, h₃, h₄, ok_bind]
    exact ⟨_, rfl, hR⟩
  · cases hs
    exact ⟨st', rfl, hR⟩

/-- What the first reading gets through, the second does. -/
theorem tracks_run (h : added line = 0) (b : Branch) : Tracks Covers (b.run line) (b.run line) := by
  cases b with
  | rtcpMux | profile =>
    refine tracks_onFound fun _ st st' hR s hs => ?_
    cases hs
    exact ⟨_, rfl, hR⟩
  | direction => exact tracks_direction
  | fingerprint =>
    refine tracks_onFound fun _ st st' hR s hs => ?_
    obtain ⟨fingerprint, hf, hs⟩ := bind_eq_ok.mp hs
    cases hs
    exact ⟨_, bind_eq_ok.mpr ⟨fingerprint, hf, rfl⟩, hR⟩
  | group =>
    apply tracks_group
    unfold added at h
    omega
  | video | audio =>
    refine tracks_onFound fun _ st st' hR s hs => ?_
    cases hs
    exact ⟨_, rfl, rfl, hR.feedbackLines, hR.tags, hR.videoSsrc, hR.audioSsrc, hR.videoUsername, hR.audioUsername⟩
  | candidate => exact tracks_candidate
  | crypto => exact tracks_crypto
  | user => exact tracks_user
  | pass => exact tracks_pass
  | mid => exact tracks_mid
  | ssrc => exact tracks_ssrc
  | ssrcGroup =>
    exact tracks_onFound fun _ => tracks_video_value (f := fun v st => { st with info.videoRtxSsrc := v }) fun _ _ => rfl
  | rtpmap => exact tracks_rtpmap
  | extMap => exact tracks_extMap
  | feedback =>
    refine tracks_onFound fun _ st st' hR s hs => ?_
    cases hs
    refine ⟨_, rfl, hR.mtype, ?_, hR.tags, hR.videoSsrc, hR.audioSsrc, hR.videoUsername, hR.audioUsername⟩
    exact congrArg (· ++ [line]) hR.feedbackLines
  | fmtp => exact tracks_fmtp
  | bandwidth =>
    exact tracks_onFound fun _ => tracks_video_value (f := fun v st => { st with info.videoBandwidth := v }) fun _ _ => rfl

theorem tracks_lines {ls : List Str} (h : ∀ line ∈ ls, AddsNothing line) :
    Tracks Covers (fun st => ls.foldlM processLine st) fun st => ls.foldlM processLine st :=
  Tracks.foldlM fun line hline => Tracks.foldlM fun b _ => tracks_run (h line hline).2 b

private theorem mapFeedback_any {ls : List Str} : Tracks (fun _ _ => True) (fun info => ls.foldlM mapFeedback info)
    fun info => ls.foldlM mapFeedback info := by
  refine Tracks.foldlM fun line _ info info' _ s hs => ?_
  unfold mapFeedback at hs ⊢
  simp only [bind_eq_ok] at hs
  obtain ⟨pt, h₁, feedback, h₂, hs⟩ := hs
  simp only [h₁, h₂, ok_bind]
  exact ⟨_, rfl, trivial⟩

theorem Covers.finish {st st' : Parser} {info : SdpInfo} (hR : Covers st st') (h : st.finish = .ok (true, info)) :
    ∃ info', st'.finish = .ok (true, info') := by
  unfold Parser.finish at h ⊢
  split_ifs at h with hempty
  · cases h
  · have hsome : ¬ (st'.info.iceVideoUsername.isEmpty = true ∧ st'.info.iceAudioUsername.isEmpty = true) := by
      simp only [List.isEmpty_iff] at hempty ⊢
      exact fun he => hempty ⟨hR.videoUsername he.1, hR.audioUsername he.2⟩
    have hlines : st'.tmpFeedbackVector = st.tmpFeedbackVector := hR.feedbackLines
    obtain ⟨info₁, hfold, -⟩ := bind_eq_ok.mp h
    obtain ⟨info₂, hfold', -⟩ := mapFeedback_any _ (fillCandidates (fillCredentials st'.info)) trivial info₁ hfold
    rw [if_neg hsome, hlines]
    exact ⟨info₂, bind_eq_ok.mpr ⟨info₂, hfold', rfl⟩⟩

end Again

namespace Tally

section Size
variable {line : Str} {ls : List Str} {v : Tally}

/-- The number of elements of all vectors. -/
def size (v : Tally) : ℕ := v.entries.length + v.others

def growth (line : Str) : ℕ := (mappedBy line).toList.length + added line

theorem growth_eq_zero_iff : growth line = 0 ↔ AddsNothing line := by
  rw [growth, Nat.add_eq_zero_iff, List.length_eq_zero_iff, Option.toList_eq_nil_iff]
  rfl

private theorem size_read (v : Tally) (line : Str) : (v.read line).size = v.size + growth line := by
  rw [read_eq, growth]
  cases mappedBy line with
  | none =>
    simp only [Option.elim, addOthers, setMedia, size, Option.toList_none, List.length_nil]
    omega
  | some x =>
    simp only [Option.elim, addInternal, addOthers, setMedia, size, List.length_append, List.length_singleton,
      Option.toList_some]
    omega

theorem size_foldl_read (v : Tally) (ls : List Str) : (ls.foldl read v).size = v.size + (ls.map growth).sum := by
  induction ls generalizing v with
  | nil => rfl
  | cons line ls ih =>
    rw [List.foldl_cons, ih, size_read, List.map_cons, List.sum_cons]
    omega

private theorem foldl_read_of_addsNothing (v : Tally) (h : ∀ line ∈ ls, AddsNothing line) :
    ∃ t, ls.foldl read v = v.setMedia t := by
  induction ls generalizing v with
  | nil => exact ⟨v.mtype, rfl⟩
  | cons line ls ih =>
    obtain ⟨hline, hls⟩ := List.forall_mem_cons.mp h
    have hread : v.read line = v.setMedia (mediaAfter v.mtype line) := by
      rw [read_eq, hline.1, hline.2]
      rfl
    obtain ⟨t, ht⟩ := ih (v.read line) hls
    exact ⟨t, by rw [List.foldl_cons, ht, hread]; rfl⟩

end Size
end Tally

section Twice
variable {videoDirection audioDirection : StreamDirection} {sdp media : Str} {info info' : SdpInfo} {r : Bool}

theorem processSdp_of_addsNothing (h : processSdp info sdp media = .ok (r, info'))
    (hadd : ∀ line ∈ getlines sdp, AddsNothing line) (m : MediaType) : tallyOf info' m = tallyOf info m := by
  obtain ⟨t, ht⟩ := tally_processSdp h
  obtain ⟨t', ht'⟩ := Tally.foldl_read_of_addsNothing (tallyOf info (mediaTypeOf media)) hadd
  exact congrArg (Tally.setMedia m) (ht.trans ht')

private theorem size_sameModel (h : SameModel info info') (m : MediaType) :
    (tallyOf info' m).size = (tallyOf info m).size := by
  simp only [Tally.size, tallyOf, h.payloadVector, h.extMapVector, h.bundleTags, h.candidateVector, h.cryptoVector]

private theorem sameModel_of_tally (h : tallyOf info' .other = tallyOf info .other)
    (hsize : (tallyOf info .other).size = 0) :
    SameModel info info' := by
  have hsize' : (tallyOf info' .other).size = 0 := by rw [h, hsize]
  have hempty : ∀ {s : SdpInfo}, (tallyOf s .other).size = 0 → s.payloadVector = [] ∧ s.extMapVector = [] ∧
      s.bundleTags = [] ∧ s.candidateVector = [] ∧ s.cryptoVector = [] := by
    intro s hs
    simpa [Tally.size, tallyOf, and_assoc] using hs
  obtain ⟨hp, he, hb, hc, hk⟩ := hempty hsize
  obtain ⟨hp', he', hb', hc', hk'⟩ := hempty hsize'
  exact ⟨hp'.trans hp.symm, he'.trans he.symm, hb'.trans hb.symm, hc'.trans hc.symm, hk'.trans hk.symm,
    congrArg Tally.videoCodecs h, congrArg Tally.audioCodecs h, congrArg Tally.inOutPTMap h,
    congrArg Tally.outInPTMap h⟩

/-- A text that was accepted changes nothing when it is read again exactly if no line of it adds anything. -/
theorem processSdp_again_iff (h : processSdp (SdpInfo.new videoDirection audioDirection) sdp media = .ok (true, info)) :
    (∃ info', processSdp info sdp media = .ok (true, info') ∧ SameModel info info') ↔
      ∀ line ∈ getlines sdp, AddsNothing line := by
  constructor
  · rintro ⟨info', h', hsame⟩
    obtain ⟨t, ht⟩ := tally_processSdp h'
    have hsize := congrArg Tally.size ht
    rw [Tally.size_foldl_read, show (tallyOf info' t).size = (tallyOf info (mediaTypeOf media)).size from
      size_sameModel hsame _] at hsize
    have hsum : ((getlines sdp).map Tally.growth).sum = 0 := by omega
    intro line hline
    rw [← Tally.growth_eq_zero_iff]
    exact List.sum_eq_zero_iff_forall_eq_nat.mp hsum _ (List.mem_map_of_mem hline)
  · intro hadd
    have hfirst := processSdp_of_addsNothing h hadd .other
    have hsize : (tallyOf info .other).size = 0 := by
      rw [hfirst]
      rfl
    have htags : info.bundleTags = [] := by
      rw [← List.length_eq_zero_iff]
      simp only [Tally.size, tallyOf] at hsize
      omega
    obtain ⟨st, hlines, hfinish⟩ := bind_eq_ok.mp h
    have hstart : Covers { info := SdpInfo.new videoDirection audioDirection, mtype := mediaTypeOf media }
        { info, mtype := mediaTypeOf media } :=
      ⟨rfl, rfl, htags, fun _ => rfl, fun _ => rfl, fun _ => rfl, fun _ => rfl⟩
    obtain ⟨st', hlines', hR⟩ := tracks_lines hadd _ _ hstart st hlines
    obtain ⟨info', hfinish'⟩ := hR.finish hfinish
    have hagain : processSdp info sdp media = .ok (true, info') := bind_eq_ok.mpr ⟨st', hlines', hfinish'⟩
    exact ⟨info', hagain, sameModel_of_tally (processSdp_of_addsNothing hagain hadd .other) hsize⟩

/-- Credentials, a fingerprint and a direction. -/
def plainExample : Str := "m=video\na=ice-ufrag:u\na=ice-pwd:p\na=fingerprint:sha-256 AB\na=sendonly\n".toList

theorem processSdp_again_plainExample : ∃ info,
    processSdp (SdpInfo.new .sendRecv .sendRecv) plainExample [] = .ok (true, info) ∧
      ∃ info', processSdp info plainExample [] = .ok (true, info') ∧ SameModel info info' := by
  have hadd : ∀ line ∈ getlines plainExample, AddsNothing line := by decide +kernel
  have hrun : (processSdp (SdpInfo.new .sendRecv .sendRecv) plainExample []).toOption.map (·.1) = some true := by
    decide +kernel
  cases h : processSdp (SdpInfo.new .sendRecv .sendRecv) plainExample [] with
  | error e =>
    rw [h] at hrun
    cases hrun
  | ok p =>
    rw [h] at hrun
    obtain ⟨r, info⟩ := p
    cases Option.some.inj hrun
    exact ⟨info, rfl, (processSdp_again_iff h).mpr hadd⟩

/-- Credentials and a codec. -/
def codecExample : Str := "m=video\na=ice-ufrag:u\na=rtpmap:96 VP8/90000\n".toList

/-- The codec is there twice after the second reading. -/
theorem processSdp_again_codecExample : ∃ info,
    processSdp (SdpInfo.new .sendRecv .sendRecv) codecExample [] = .ok (true, info) ∧
      ¬ ∃ info', processSdp info codecExample [] = .ok (true, info') ∧ SameModel info info' := by
  have hrun : (do
      let p ← processSdp (SdpInfo.new .sendRecv .sendRecv) codecExample []
      let q ← processSdp p.2 codecExample []
      return (p.1, p.2.payloadVector.length, q.2.payloadVector.length)).toOption = some (true, 1, 2) := by
    decide +kernel
  cases h : processSdp (SdpInfo.new .sendRecv .sendRecv) codecExample [] with
  | error e =>
    rw [h] at hrun
    cases hrun
  | ok p =>
    obtain ⟨r, info⟩ := p
    rw [h, ok_bind] at hrun
    cases h' : processSdp info codecExample [] with
    | error e =>
      simp only [h'] at hrun
      cases hrun
    | ok q =>
      simp only [h', ok_bind] at hrun
      obtain ⟨rfl, hlen⟩ := Prod.mk.inj (Option.some.inj hrun)
      obtain ⟨hone, htwo⟩ := Prod.mk.inj hlen
      refine ⟨info, rfl, ?_⟩
      rintro ⟨info', hagain, hsame⟩
      cases h'.symm.trans hagain
      rw [hsame.payloadVector, hone] at htwo
      cases htwo

end Twice
end Parser
end Sfup.Sdp
