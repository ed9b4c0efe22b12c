import Sfup.Sdp.Lines

/-! Reading back the whole text of `getSdp`, section by section. -/
namespace Sfup.Sdp.Parser
open SdpInfo

/-- All lines can be read back, and together do to the view what `f` says. -/
structure ReadsAll (ls : List Str) (f : View → Option View) : Prop where
  reads : ∀ l ∈ ls, ∃ b g, Reads l b g
  simulates : Simulates view (fun st => ls.foldlM processLine st) f

namespace ReadsAll
variable {ls ls' : List Str} {f f' : View → Option View}

theorem congr (h : ReadsAll ls f) (hf : ∀ v, f v = f' v) : ReadsAll ls f' := by
  obtain rfl : f = f' := funext hf
  exact h

theorem append (h : ReadsAll ls f) (h' : ReadsAll ls' f') : ReadsAll (ls ++ ls') fun v => f v >>= f' :=
  ⟨fun l hl => (List.mem_append.mp hl).elim (h.reads l) (h'.reads l), h.simulates.append h'.simulates⟩

theorem map {α : Type} {xs : List α} {line : α → Str} {b : Branch} {g : View → α → Option View}
    (h : ∀ x ∈ xs, Reads (line x) b (g · x)) : ReadsAll (xs.map line) fun v => xs.foldlM g v := by
  constructor
  · intro l hl
    obtain ⟨x, hx, rfl⟩ := List.mem_map.mp hl
    exact ⟨b, _, h x hx⟩
  · simp only [List.foldlM_map]
    exact Simulates.foldlM fun x hx => (h x hx).simulates

theorem skip (h : ∀ l ∈ ls, ∃ b, Reads l b some) : ReadsAll ls some := by
  constructor
  · intro l hl
    obtain ⟨b, hb⟩ := h l hl
    exact ⟨b, some, hb⟩
  · apply Simulates.foldlM_skip
    intro l hl
    obtain ⟨b, hb⟩ := h l hl
    exact hb.simulates

theorem single {l : Str} {b : Branch} (h : Reads l b f) : ReadsAll [l] f := by
  constructor
  · intro l' hl'
    rw [List.mem_singleton.mp hl']
    exact ⟨b, f, h⟩
  · simpa using h.simulates

theorem flatMap {α : Type} {xs : List α} {lines : α → List Str} {g : View → α → Option View}
    (h : ∀ x ∈ xs, ReadsAll (lines x) (g · x)) : ReadsAll (xs.flatMap lines) fun v => xs.foldlM g v := by
  induction xs with
  | nil => exact skip (by simp)
  | cons x xs ih =>
    simp only [List.flatMap_cons, List.foldlM_cons]
    exact (h x List.mem_cons_self).append (ih fun y hy => h y (List.mem_cons_of_mem _ hy))

theorem ite {p : Prop} [Decidable p] (h : p → ReadsAll ls f) : ReadsAll (if p then ls else []) fun v =>
    if p then f v else some v := by
  split_ifs with hp
  · exact h hp
  · exact skip (by simp)

end ReadsAll

/-- What is written can be read back line by line: no field holds a delimiter that it must not hold or a
marker. -/
structure Tidy (s : SdpInfo) : Prop where
  tags_lt : s.bundleTags.length < 256
  extMaps_lt : s.extMapVector.length < 256
  tags : ∀ t ∈ s.bundleTags, Plain t.id ∧ Takes t.id .group ∧ Takes t.id .mid
  extMaps : ∀ e ∈ s.extMapVector, e.mediaType ≠ .other → Clean e.uri ∧ Takes e.uri .extMap
  fingerprint : s.isFingerprint → Clean s.fingerprint ∧ Takes s.fingerprint .fingerprint
  usernames : ∀ w ∈ [s.iceAudioUsername, s.iceVideoUsername], w ≠ [] ∧ Plain w ∧ Takes w .user
  passwords : ∀ w ∈ [s.iceAudioPassword, s.iceVideoPassword], w ≠ [] ∧ Plain w ∧ Takes w .pass
  cryptos : ∀ c ∈ s.cryptoVector, c.mediaType ≠ .other →
    Plain c.cipherSuite ∧ Plain c.keyParams ∧ Takes c.cipherSuite .crypto ∧ Takes c.keyParams .crypto
  candidates : ∀ c ∈ s.candidateVector, c.mediaType ≠ .other ∨ s.isBundle → PlainCandidate c
  names : ∀ rtp ∈ s.payloadVector, rtp.mediaType ≠ .other → Plain rtp.encodingName ∧ Takes rtp.encodingName .rtpmap
  formats : ∀ rtp ∈ s.payloadVector, rtp.mediaType ≠ .other → ∀ x ∈ rtp.formatParameters.entries,
    '\n' ∉ formatWord x ∧ Takes (formatWord x) .fmtp
  feedback : ∀ rtp ∈ s.payloadVector, rtp.mediaType = .videoType → ∀ w ∈ rtp.feedbackTypes,
    '\n' ∉ w ∧ Takes w .feedback

namespace View

def addFeedbacks (ws : List Str) (v : View) : View :=
  { v with readable := v.readable && ws.all fun w => !w.isEmpty }

def addExtMaps (t : MediaType) (s : SdpInfo) (v : View) : Option View :=
  (s.extMapVector.filter (·.mediaType = t)).foldlM (fun v e => v.addExtMap e) v

def setMids (t : MediaType) (s : SdpInfo) (v : View) : Option View :=
  (s.bundleTags.filter (·.mediaType = t)).foldlM (fun v x => v.setMid x.id) v

def addCryptos (t : MediaType) (s : SdpInfo) (v : View) : Option View :=
  (s.cryptoVector.filter (·.mediaType = t)).foldlM (fun v c => v.addCrypto c) v

def setFingerprints (s : SdpInfo) (v : View) : Option View :=
  if s.isFingerprint then v.setFingerprint s.fingerprint else some v

def head (s : SdpInfo) (v : View) : View :=
  if s.isBundle then v.addGroup (groupIds (s.bundleTags.map (·.id))) else v

def audio (s : SdpInfo) (v : View) : Option View := do
  let v := ((v.setMedia .audioType).setUser s.iceAudioUsername).setPass s.iceAudioPassword
  let v ← v.setFingerprints s
  let v ← (v.setDirection s.audioDirection).addExtMaps .audioType s
  let v ← v.setMids .audioType s
  v.addCryptos .audioType s

def video (s : SdpInfo) (v : View) : Option View := do
  let v := ((v.setMedia .videoType).setUser s.iceVideoUsername).setPass s.iceVideoPassword
  let v ← v.addExtMaps .videoType s
  let v ← v.setFingerprints s
  let v ← (v.setDirection s.videoDirection).setMids .videoType s
  let v ← v.addCryptos .videoType s
  return v.addFeedbacks ((s.payloadVector.filter (·.mediaType = .videoType)).flatMap (·.feedbackTypes))

end View

section Parts
variable {s : SdpInfo}

theorem uint8Loop_filter {α : Type} {xs : List α} {p : α → Prop} [DecidablePred p] {line : α → Str}
    (h : xs.length < 256) : uint8Loop xs (fun x => if p x then [line x] else []) = .ok ((xs.filter p).map line) := by
  have hmap : ∀ ys : List α, (ys.flatMap fun x => if p x then [line x] else []) = (ys.filter p).map line := by
    intro ys
    induction ys with
    | nil => rfl
    | cons y ys ih =>
      rw [List.flatMap_cons, ih, List.filter_cons]
      by_cases hp : p y <;> simp [hp]
  rw [uint8Loop, if_pos h, hmap]

theorem readsAll_extMaps (hs : Tidy s) {t : MediaType} (ht : t ≠ .other) :
    ReadsAll ((s.extMapVector.filter (·.mediaType = t)).map extMapLine) (View.addExtMaps t s) := by
  apply ReadsAll.map (b := .extMap)
  intro e he
  rw [List.mem_filter, decide_eq_true_eq] at he
  obtain ⟨hc, hq⟩ := hs.extMaps e he.1 (he.2 ▸ ht)
  exact reads_extMap hc.no_break hq

theorem readsAll_mids (hs : Tidy s) (t : MediaType) :
    ReadsAll ((s.bundleTags.filter (·.mediaType = t)).map midLine) (View.setMids t s) := by
  apply ReadsAll.map (b := .mid)
  intro x hx
  obtain ⟨hp, -, ht⟩ := hs.tags x (List.mem_filter.mp hx).1
  exact reads_mid hp ht

theorem readsAll_cryptos (hs : Tidy s) {t : MediaType} (ht : t ≠ .other) :
    ReadsAll ((s.cryptoVector.filter (·.mediaType = t)).map cryptoLine) (View.addCryptos t s) := by
  apply ReadsAll.map (b := .crypto)
  intro c hc
  rw [List.mem_filter, decide_eq_true_eq] at hc
  obtain ⟨hp, hk, hqp, hqk⟩ := hs.cryptos c hc.1 (hc.2 ▸ ht)
  exact reads_crypto hp hk hqp hqk

theorem readsAll_fingerprint (hs : Tidy s) :
    ReadsAll (if s.isFingerprint then [fingerprintLine s.fingerprint] else []) (View.setFingerprints s) := by
  apply ReadsAll.ite
  intro h
  obtain ⟨hc, hq⟩ := hs.fingerprint h
  exact ReadsAll.single (reads_fingerprint hc hq)

theorem readsAll_credentials {u p : Str} (hu : u ≠ [] ∧ Plain u ∧ Takes u .user) (hp : p ≠ [] ∧ Plain p ∧ Takes p .pass) :
    ReadsAll [userLine u, passLine p] fun v => some ((v.setUser u).setPass p) := by
  have h₁ := ReadsAll.single (reads_user hu.2.1 hu.1 hu.2.2)
  have h₂ := ReadsAll.single (reads_pass hp.2.1 hp.1 hp.2.2)
  exact h₁.append h₂

theorem readsAll_candidates {p : CandidateInfo → Bool} (hs : Tidy s)
    (hp : ∀ c, p c → c.mediaType ≠ .other ∨ s.isBundle) :
    ReadsAll ((s.candidateVector.filter p).map stringifyCandidate) some := by
  apply ReadsAll.skip
  intro l hl
  obtain ⟨c, hc, rfl⟩ := List.mem_map.mp hl
  obtain ⟨hmem, hpc⟩ := List.mem_filter.mp hc
  exact ⟨_, reads_candidate (hs.candidates c hmem (hp c hpc))⟩

theorem readsAll_formats (hs : Tidy s) {rtp : RtpMap} (hr : rtp ∈ s.payloadVector) (ht : rtp.mediaType ≠ .other) :
    ReadsAll (rtp.formatParameters.entries.map (fmtpLine rtp)) some := by
  apply ReadsAll.skip
  intro l hl
  obtain ⟨x, hx, rfl⟩ := List.mem_map.mp hl
  obtain ⟨hn, hq⟩ := hs.formats rtp hr ht x hx
  exact ⟨_, reads_fmtp hn hq⟩

private theorem readsAll_feedback {rtp : RtpMap} {ws : List Str} (h : ∀ w ∈ ws, '\n' ∉ w ∧ Takes w .feedback) :
    ReadsAll (ws.map (feedbackLine rtp)) fun v => some (v.addFeedbacks ws) := by
  have hfold : ∀ v : View, ws.foldlM (fun v w => some (v.addFeedback w)) v = some (v.addFeedbacks ws) := by
    induction ws with
    | nil =>
      intro v
      simp [View.addFeedbacks]
    | cons w ws ih =>
      intro v
      rw [List.foldlM_cons]
      exact (ih (fun x hx => h x (List.mem_cons_of_mem _ hx)) _).trans
        (by simp [View.addFeedbacks, View.addFeedback, Bool.and_assoc])
  have hr : ReadsAll (ws.map (feedbackLine rtp)) _ := ReadsAll.map fun w hw => reads_feedback (h w hw).1 (h w hw).2
  simpa only [hfold] using hr

theorem readsAll_audioCodecs (hs : Tidy s) :
    ReadsAll ((s.payloadVector.filter (·.mediaType = .audioType)).flatMap audioCodecLines) some := by
  apply ReadsAll.skip
  intro l hl
  obtain ⟨rtp, hr, hl⟩ := List.mem_flatMap.mp hl
  rw [List.mem_filter, decide_eq_true_eq] at hr
  have ht : rtp.mediaType ≠ .other := by
    rw [hr.2]
    decide
  obtain ⟨hp, hq⟩ := hs.names rtp hr.1 ht
  rcases List.mem_cons.mp hl with rfl | hl
  · split_ifs
    · exact ⟨_, reads_audioRtpmap hp hq _⟩
    · exact ⟨_, reads_rtpmap hp hq⟩
  · obtain ⟨x, hx, rfl⟩ := List.mem_map.mp hl
    obtain ⟨hn, hqx⟩ := hs.formats rtp hr.1 ht x hx
    exact ⟨_, reads_fmtp hn hqx⟩

theorem readsAll_videoCodecs (hs : Tidy s) :
    ReadsAll ((s.payloadVector.filter (·.mediaType = .videoType)).flatMap videoCodecLines)
      fun v => some (v.addFeedbacks ((s.payloadVector.filter (·.mediaType = .videoType)).flatMap (·.feedbackTypes))) := by
  have hone : ∀ rtp ∈ s.payloadVector.filter (·.mediaType = .videoType),
      ReadsAll (videoCodecLines rtp) fun v => some (v.addFeedbacks rtp.feedbackTypes) := by
    intro rtp hr
    rw [List.mem_filter, decide_eq_true_eq] at hr
    have ht : rtp.mediaType ≠ .other := by
      rw [hr.2]
      decide
    obtain ⟨hp, hq⟩ := hs.names rtp hr.1 ht
    have hmap := ReadsAll.single (reads_rtpmap hp hq)
    have hfeedback : ReadsAll (rtp.feedbackTypes.map (feedbackLine rtp)) _ :=
      readsAll_feedback (hs.feedback rtp hr.1 hr.2)
    exact hmap.append (hfeedback.append (readsAll_formats hs hr.1 ht))
  refine (ReadsAll.flatMap hone).congr fun v => ?_
  generalize s.payloadVector.filter (·.mediaType = .videoType) = rs
  induction rs generalizing v with
  | nil => simp [View.addFeedbacks]
  | cons rtp rs ih =>
    rw [List.foldlM_cons]
    exact (ih _).trans (by simp [View.addFeedbacks, Bool.and_assoc])

end Parts

section Whole
variable {s : SdpInfo} {msidtemp : Str}

theorem readsAll_fixed {ls : List Str} (h : ls ⊆ fixedLines) : ReadsAll ls some :=
  ReadsAll.skip fun _ hl => ⟨_, reads_fixed (h hl)⟩

theorem readsAll_ssrc (hm : Free ['=', '\n'] msidtemp) (label : Str) (hl : Free ['=', '\n'] label) (n : UInt32) :
    ReadsAll (ssrcLines n msidtemp label) some :=
  ReadsAll.skip fun _ h => ⟨_, reads_ssrcLines hm hl n h⟩

theorem Tidy.ids (hs : Tidy s) : uint8Loop s.bundleTags (fun t => [' ' :: t.id]) =
    .ok ((s.bundleTags.map (·.id)).map (' ' :: ·)) := by
  rw [uint8Loop, if_pos hs.tags_lt, ← List.map_eq_flatMap, List.map_map]
  rfl

theorem Tidy.reads_group (hs : Tidy s) : Reads (groupLine ((s.bundleTags.map (·.id)).map (' ' :: ·))) .group
    fun v => some (v.addGroup (groupIds (s.bundleTags.map (·.id)))) := by
  apply Parser.reads_group
  · simpa using fun t ht => (hs.tags t ht).1.no_break
  · simpa using fun t ht => (hs.tags t ht).2.1

theorem readsAll_headLines (hs : Tidy s) (hm : Free ['=', '\n'] msidtemp) :
    ∃ ls, headLines msidtemp s = .ok ls ∧ ReadsAll ls fun v => some (v.head s) := by
  have hstart : ReadsAll ["v=0".toList, "o=- 0 0 IN IP4 127.0.0.1".toList, "s=LicodeMCU".toList, "t=0 0".toList]
      some := readsAll_fixed (by
    simp only [fixedLines, List.cons_subset, List.mem_cons, true_or, or_true, List.nil_subset, and_self])
  unfold headLines View.head
  by_cases hb : s.isBundle
  · simp only [hb, if_true, hs.ids]
    exact ⟨_, rfl, hstart.append ((ReadsAll.single hs.reads_group).append (ReadsAll.single (reads_msid hm)))⟩
  · simp only [hb]
    exact ⟨_, rfl, hstart⟩

theorem readsAll_rtcp (mux : Bool) : ReadsAll (if mux then ["a=rtcp:1 IN IP4 0.0.0.0".toList] else []) some := by
  apply readsAll_fixed
  split_ifs <;>
    simp only [fixedLines, List.cons_subset, List.mem_cons, true_or, or_true, List.nil_subset, and_self]

theorem readsAll_rtcpMux (mux : Bool) : ReadsAll (if mux then ["a=rtcp-mux".toList] else []) some := by
  apply readsAll_fixed
  split_ifs <;>
    simp only [fixedLines, List.cons_subset, List.mem_cons, true_or, or_true, List.nil_subset, and_self]

theorem readsAll_connection : ReadsAll ["c=IN IP4 0.0.0.0".toList] some :=
  readsAll_fixed (by
    simp only [fixedLines, List.cons_subset, List.mem_cons, true_or, or_true, List.nil_subset, and_self])

private theorem readsAll_maxptime : ReadsAll ["a=maxptime:60".toList] some :=
  readsAll_fixed (by
    simp only [fixedLines, List.cons_subset, List.mem_cons, true_or, or_true, List.nil_subset, and_self])

theorem readsAll_audioLines (hs : Tidy s) (hm : Free ['=', '\n'] msidtemp) :
    ∃ ls, audioLines msidtemp s = .ok ls ∧ ReadsAll ls (View.audio s) := by
  have haudio : MediaType.audioType ≠ .other := by decide
  have hu := hs.usernames s.iceAudioUsername List.mem_cons_self
  have hp := hs.passwords s.iceAudioPassword List.mem_cons_self
  have hlen : s.iceAudioUsername.length > 0 := List.length_pos_iff.mpr hu.1
  have hcand : ReadsAll ((s.candidateVector.filter fun c => c.mediaType = .audioType ∨ s.isBundle).map
      stringifyCandidate) some := by
    apply readsAll_candidates hs
    intro c h
    rw [decide_eq_true_eq] at h
    exact h.imp_left fun ht : c.mediaType = .audioType => ht ▸ haudio
  have hmedia := (ReadsAll.single (reads_audioMedia s.profile (s.payloadVector.filter (·.mediaType = .audioType))
    s.audioCodecs)).append readsAll_connection
  have hstart := ((hmedia.append (readsAll_rtcp s.isRtcpMux)).append hcand).append (readsAll_credentials hu hp)
  have hparts := ((hstart.append (readsAll_fingerprint hs)).append
    (ReadsAll.single (reads_direction s.audioDirection))).append (readsAll_extMaps hs haudio)
  have hcodecs := (((hparts.append (readsAll_mids hs .audioType)).append (readsAll_rtcpMux s.isRtcpMux)).append
    (readsAll_cryptos hs haudio)).append (readsAll_audioCodecs hs)
  have hall := (hcodecs.append readsAll_maxptime).append (readsAll_ssrc hm "a0".toList (by decide) s.audioSsrc)
  unfold audioLines
  rw [uint8Loop_filter hs.extMaps_lt, uint8Loop_filter hs.tags_lt, if_pos hlen]
  refine ⟨_, rfl, hall.congr fun v => ?_⟩
  simp [View.audio, Option.bind_assoc]

theorem readsAll_videoLines (hs : Tidy s) (hm : Free ['=', '\n'] msidtemp) :
    ∃ ls, videoLines msidtemp s = .ok ls ∧ ReadsAll ls (View.video s) := by
  have hvideo : MediaType.videoType ≠ .other := by decide
  have hu := hs.usernames s.iceVideoUsername (by simp)
  have hp := hs.passwords s.iceVideoPassword (by simp)
  have hcand : ReadsAll ((s.candidateVector.filter (·.mediaType = .videoType)).map stringifyCandidate) some := by
    apply readsAll_candidates hs
    intro c h
    rw [decide_eq_true_eq] at h
    exact Or.inl (h ▸ hvideo)
  have hrtx : ReadsAll (if s.videoRtxSsrc ≠ 0 then ssrcLines s.videoRtxSsrc msidtemp "v0".toList else []) some := by
    split_ifs
    · exact readsAll_ssrc hm "v0".toList (by decide) s.videoRtxSsrc
    · exact ReadsAll.skip (by simp)
  have hmedia := (ReadsAll.single (reads_videoMedia s.profile (s.payloadVector.filter (·.mediaType = .videoType))
    s.videoCodecs)).append readsAll_connection
  have hstart := ((hmedia.append (readsAll_rtcp s.isRtcpMux)).append hcand).append (readsAll_credentials hu hp)
  have hparts := ((hstart.append (readsAll_extMaps hs hvideo)).append (readsAll_fingerprint hs)).append
    (ReadsAll.single (reads_direction s.videoDirection))
  have hcodecs := (((hparts.append (readsAll_mids hs .videoType)).append (readsAll_rtcpMux s.isRtcpMux)).append
    (readsAll_cryptos hs hvideo)).append (readsAll_videoCodecs hs)
  have hall := (hcodecs.append (readsAll_ssrc hm "v0".toList (by decide) s.videoSsrc)).append hrtx
  unfold videoLines
  rw [uint8Loop_filter hs.extMaps_lt, uint8Loop_filter hs.tags_lt]
  refine ⟨_, rfl, hall.congr fun v => ?_⟩
  simp [View.video, Option.bind_assoc]

theorem genRandom_free (rand : ℕ → ℕ) (len : ℕ) : Free ['=', '\n'] (genRandom rand len) := by
  have hall : Free ['=', '\n'] alphanum := by decide +kernel
  intro c hc
  obtain ⟨i, -, rfl⟩ := List.mem_map.mp hc
  exact hall _ (List.get_mem _ _)

theorem Tidy.withSsrcs (hs : Tidy s) : Tidy s.withSsrcs :=
  ⟨hs.tags_lt, hs.extMaps_lt, hs.tags, hs.extMaps, hs.fingerprint, hs.usernames, hs.passwords, hs.cryptos,
    hs.candidates, hs.names, hs.formats, hs.feedback⟩

theorem ReadsAll.getlines_eq {ls : List Str} {f : View → Option View} (h : ReadsAll ls f) :
    getlines (ls.flatMap (· ++ ['\n'])) = ls := by
  apply Text.split_lines rfl
  intro l hl c hc hbreak
  obtain ⟨b, g, hr⟩ := h.reads l hl
  exact hr.no_break (beq_iff_eq.mp hbreak ▸ hc)

/-- The text is cut into the lines of the three parts, which can be read back one after the other. -/
theorem getSdp_tidy (hs : Tidy s) (haudio : s.hasAudio) (hvideo : s.hasVideo) (rand : ℕ → ℕ) :
    ∃ text head audio video, getSdp rand s = .ok (text, s.withSsrcs) ∧ getlines text = head ++ audio ++ video ∧
      headLines (genRandom rand 10) s.withSsrcs = .ok head ∧ ReadsAll head (fun v => some (v.head s)) ∧
      audioLines (genRandom rand 10) s.withSsrcs = .ok audio ∧ ReadsAll audio (View.audio s) ∧
      videoLines (genRandom rand 10) s.withSsrcs = .ok video ∧ ReadsAll video (View.video s) := by
  have hm := genRandom_free rand 10
  obtain ⟨head, hhead, hrh⟩ := readsAll_headLines hs.withSsrcs hm
  obtain ⟨audio, ha, hra⟩ := readsAll_audioLines hs.withSsrcs hm
  obtain ⟨video, hv, hrv⟩ := readsAll_videoLines hs.withSsrcs hm
  have hall := (hrh.append hra).append hrv
  refine ⟨_, head, audio, video, ?_, hall.getlines_eq, hhead, hrh, ha, hra, hv, hrv⟩
  have hA : s.withSsrcs.hasAudio = true := haudio
  have hV : s.withSsrcs.hasVideo = true := hvideo
  simp only [getSdp, hhead, hA, hV, ha, hv, if_true]
  rfl

end Whole
end Sfup.Sdp.Parser
