import Sfup.Sdp.Sections

/-! The parameters of a session are recovered from the text of `getSdp` under a condition on its fields. -/
namespace Sfup.Sdp.Parser
open SdpInfo

namespace View

section Folds
variable {s : SdpInfo} {t : MediaType} {v w : View}

def readExtMap (t : MediaType) (e : ExtMap) : ExtMap := ⟨strtoul (dec e.value.toNat), e.uri.dropLast, t⟩

def readCrypto (t : MediaType) (c : CryptoInfo) : CryptoInfo := { c with tag := 0, mediaType := t }

theorem foldlM_addExtMap {es : List ExtMap} : es.foldlM (fun v e => v.addExtMap e) v = some w ↔
    (∀ e ∈ es, e.uri ≠ []) ∧ w = { v with extMaps := v.extMaps ++ es.map (readExtMap v.mtype) } := by
  induction es generalizing v with
  | nil => simp [eq_comm]
  | cons e es ih =>
    rw [List.foldlM_cons, Option.bind_eq_bind, Option.bind_eq_some_iff]
    constructor
    · rintro ⟨v', hv, h⟩
      unfold addExtMap at hv
      split_ifs at hv with he
      obtain rfl := Option.some.inj hv
      obtain ⟨hes, rfl⟩ := ih.mp h
      refine ⟨List.forall_mem_cons.mpr ⟨by simpa using he, hes⟩, ?_⟩
      simp [readExtMap]
    · rintro ⟨hes, rfl⟩
      obtain ⟨he, hes⟩ := List.forall_mem_cons.mp hes
      refine ⟨_, if_neg (by simpa using he), ih.mpr ⟨hes, ?_⟩⟩
      simp [readExtMap]

theorem foldlM_addCrypto {cs : List CryptoInfo} : cs.foldlM (fun v c => v.addCrypto c) v = some w ↔
    (∀ c ∈ cs, c.keyParams ≠ []) ∧ w = { v with cryptos := v.cryptos ++ cs.map (readCrypto v.mtype) } := by
  induction cs generalizing v with
  | nil => simp [eq_comm]
  | cons c cs ih =>
    rw [List.foldlM_cons, Option.bind_eq_bind, Option.bind_eq_some_iff]
    constructor
    · rintro ⟨v', hv, h⟩
      unfold addCrypto at hv
      split_ifs at hv with hc
      obtain rfl := Option.some.inj hv
      obtain ⟨hcs, rfl⟩ := ih.mp h
      refine ⟨List.forall_mem_cons.mpr ⟨by simpa using hc, hcs⟩, ?_⟩
      simp [readCrypto]
    · rintro ⟨hcs, rfl⟩
      obtain ⟨hc, hcs⟩ := List.forall_mem_cons.mp hcs
      refine ⟨_, if_neg (by simpa using hc), ih.mpr ⟨hcs, ?_⟩⟩
      simp [readCrypto]

def typeTag (ids : List Str) (t : MediaType) (x : BundleTag) : BundleTag :=
  if x.id ≠ [] ∧ x.id ∈ ids then { x with mediaType := t } else x

theorem foldlM_setMid {xs : List BundleTag} (hb : v.isBundle = true) (hl : v.bundleTags.length < 256) :
    xs.foldlM (fun v x => v.setMid x.id) v =
      some { v with bundleTags := v.bundleTags.map (typeTag (xs.map (·.id)) v.mtype) } := by
  induction xs generalizing v with
  | nil =>
    have hid : (fun x => typeTag [] v.mtype x) = id := funext fun x => if_neg (by simp)
    simp [hid]
  | cons x xs ih =>
    rw [List.foldlM_cons, Option.bind_eq_bind]
    by_cases hx : x.id = []
    · have hstep : v.setMid x.id = some v := if_pos (Or.inl (by simp [hx]))
      have htype : typeTag ((x :: xs).map (·.id)) v.mtype = typeTag (xs.map (·.id)) v.mtype := by
        funext y
        unfold typeTag
        by_cases hy : y.id = [] <;> simp [hx, hy]
      rw [hstep, Option.bind_some, ih hb hl, htype]
    · have hstep : v.setMid x.id = some { v with bundleTags := v.bundleTags.map (setTagType x.id v.mtype) } :=
        (if_neg (by simp [hx, hb])).trans (if_pos hl)
      have htype : ∀ y, typeTag (xs.map (·.id)) v.mtype (setTagType x.id v.mtype y) =
          typeTag ((x :: xs).map (·.id)) v.mtype y := by
        intro y
        unfold typeTag setTagType
        by_cases hy : y.id = x.id
        · simp [hy, hx]
        · simp [hy]
      rw [hstep, Option.bind_some]
      refine (ih (v := { v with bundleTags := v.bundleTags.map (setTagType x.id v.mtype) }) hb
        (by simpa using hl)).trans ?_
      simp [Function.comp_def, htype]

end Folds

section Parts
variable {s : SdpInfo} {t : MediaType} {v w : View}

theorem addExtMaps_eq_some : v.addExtMaps t s = some w ↔
    (∀ e ∈ s.extMapVector.filter (·.mediaType = t), e.uri ≠ []) ∧ w = { v with
      extMaps := v.extMaps ++ (s.extMapVector.filter (·.mediaType = t)).map (readExtMap v.mtype) } :=
  foldlM_addExtMap

theorem addCryptos_eq_some : v.addCryptos t s = some w ↔
    (∀ c ∈ s.cryptoVector.filter (·.mediaType = t), c.keyParams ≠ []) ∧ w = { v with
      cryptos := v.cryptos ++ (s.cryptoVector.filter (·.mediaType = t)).map (readCrypto v.mtype) } :=
  foldlM_addCrypto

theorem setMids_eq (hb : v.isBundle = true) (hl : v.bundleTags.length < 256) : v.setMids t s = some { v with
    bundleTags := v.bundleTags.map (typeTag ((s.bundleTags.filter (·.mediaType = t)).map (·.id)) v.mtype) } :=
  foldlM_setMid hb hl

theorem setFingerprints_eq_some (hf : s.isFingerprint = true) : v.setFingerprints s = some w ↔
    s.fingerprint ≠ [] ∧ w = { v with fingerprint := s.fingerprint } := by
  unfold setFingerprints setFingerprint
  rw [if_pos hf]
  split_ifs with h
  · simpa using fun hne => absurd (List.isEmpty_iff.mp h) hne
  · simpa [eq_comm] using fun _ => (by simpa using h : s.fingerprint ≠ [])

theorem audio_eq_some (hb : v.isBundle = true) (hl : v.bundleTags.length < 256) (hf : s.isFingerprint = true) :
    v.audio s = some w ↔ s.fingerprint ≠ [] ∧
      (∀ e ∈ s.extMapVector.filter (·.mediaType = .audioType), e.uri ≠ []) ∧
      (∀ c ∈ s.cryptoVector.filter (·.mediaType = .audioType), c.keyParams ≠ []) ∧
      w = { v with
        mtype := .audioType
        audioUsername := s.iceAudioUsername
        audioPassword := s.iceAudioPassword
        fingerprint := s.fingerprint
        audioDirection := s.audioDirection
        extMaps := v.extMaps ++ (s.extMapVector.filter (·.mediaType = .audioType)).map (readExtMap .audioType)
        bundleTags := v.bundleTags.map
          (typeTag ((s.bundleTags.filter (·.mediaType = .audioType)).map (·.id)) .audioType)
        cryptos := v.cryptos ++ (s.cryptoVector.filter (·.mediaType = .audioType)).map (readCrypto .audioType) } := by
  simp only [audio, setMedia, setUser, setPass, setDirection, if_true, Option.bind_eq_bind, Option.bind_eq_some_iff,
    setFingerprints_eq_some hf, addExtMaps_eq_some, addCryptos_eq_some, and_assoc, exists_and_left, exists_eq_left,
    setMids_eq, hb, hl, Option.some.injEq, exists_eq_left']

theorem video_eq_some (hb : v.isBundle = true) (hl : v.bundleTags.length < 256) (hf : s.isFingerprint = true) :
    v.video s = some w ↔ s.fingerprint ≠ [] ∧
      (∀ e ∈ s.extMapVector.filter (·.mediaType = .videoType), e.uri ≠ []) ∧
      (∀ c ∈ s.cryptoVector.filter (·.mediaType = .videoType), c.keyParams ≠ []) ∧
      w = { v with
        mtype := .videoType
        videoUsername := s.iceVideoUsername
        videoPassword := s.iceVideoPassword
        fingerprint := s.fingerprint
        videoDirection := s.videoDirection
        extMaps := v.extMaps ++ (s.extMapVector.filter (·.mediaType = .videoType)).map (readExtMap .videoType)
        bundleTags := v.bundleTags.map
          (typeTag ((s.bundleTags.filter (·.mediaType = .videoType)).map (·.id)) .videoType)
        cryptos := v.cryptos ++ (s.cryptoVector.filter (·.mediaType = .videoType)).map (readCrypto .videoType)
        readable := v.readable && ((s.payloadVector.filter (·.mediaType = .videoType)).flatMap
          (·.feedbackTypes)).all fun w => !w.isEmpty } := by
  have hmedia : MediaType.videoType ≠ .audioType := by decide
  simp only [video, setMedia, setUser, setPass, setDirection, hmedia, if_false, Option.bind_eq_bind,
    Option.bind_eq_some_iff, setFingerprints_eq_some hf, addExtMaps_eq_some, addCryptos_eq_some, and_assoc,
    exists_and_left, exists_eq_left, setMids_eq, hb, hl, Option.some.injEq, exists_eq_left', addFeedbacks,
    Option.pure_def]
  tauto

end Parts

end View

theorem all_feedback_iff {ps : List RtpMap} :
    (((ps.filter (·.mediaType = .videoType)).flatMap (·.feedbackTypes)).all fun w => !w.isEmpty) = true ↔
      ∀ rtp ∈ ps, rtp.mediaType = .videoType → [] ∉ rtp.feedbackTypes := by
  simp only [List.all_eq_true, List.mem_flatMap, List.mem_filter, decide_eq_true_eq, Bool.not_eq_true',
    List.isEmpty_eq_false_iff]
  constructor
  · intro h rtp hr ht hnil
    exact h [] ⟨rtp, ⟨hr, ht⟩, hnil⟩ rfl
  · rintro h w ⟨rtp, ⟨hr, ht⟩, hw⟩ rfl
    exact h rtp hr ht hw

section Finish
variable {st : Parser}

private theorem fillCredentials_eq {info : SdpInfo} (hv : info.iceVideoUsername ≠ [])
    (ha : info.iceAudioUsername ≠ []) :
    fillCredentials info = info := by
  unfold fillCredentials
  rw [if_neg (by simpa using hv), if_neg (by simpa using ha)]

/-- With credentials for both media, only the candidates and the codecs still change. -/
theorem finish_ok (hv : st.info.iceVideoUsername ≠ []) (ha : st.info.iceAudioUsername ≠ [])
    (h : st.view.readable = true) :
    ∃ ps, st.finish = .ok (true, { fillCandidates st.info with payloadVector := ps }) := by
  have hlines : ∀ l ∈ st.tmpFeedbackVector, 3 ≤ (splitOneOf l [' ', ':'] 2).length := by
    intro l hl
    exact of_decide_eq_true (List.all_eq_true.mp h l hl)
  have hempty : ¬ (st.info.iceVideoUsername.isEmpty = true ∧ st.info.iceAudioUsername.isEmpty = true) :=
    fun h => hv (List.isEmpty_iff.mp h.1)
  obtain ⟨ps, hps⟩ := foldlM_mapFeedback (fillCandidates st.info) hlines
  refine ⟨ps, ?_⟩
  unfold finish
  rw [if_neg hempty, fillCredentials_eq hv ha, hps]
  rfl

theorem finish_error (hv : st.info.iceVideoUsername ≠ []) (h : st.view.readable = false) :
    ∃ e, st.finish = .error e := by
  obtain ⟨l, hl, hlen⟩ := List.all_eq_false.mp h
  have hempty : ¬ (st.info.iceVideoUsername.isEmpty = true ∧ st.info.iceAudioUsername.isEmpty = true) :=
    fun h => hv (List.isEmpty_iff.mp h.1)
  refine ⟨.outOfRange, ?_⟩
  unfold finish
  rw [if_neg hempty, foldlM_mapFeedback_error _ hl (by simpa using hlen)]
  rfl

end Finish
end Sfup.Sdp.Parser

namespace Sfup.Sdp.SdpInfo
open Sfup.Sdp.Parser

/-- The strings that `getSdp` writes, apart from the fingerprint and the extension maps. -/
def strings (s : SdpInfo) : List Str :=
  s.bundleTags.map (·.id) ++
    [s.iceAudioUsername, s.iceAudioPassword, s.iceVideoUsername, s.iceVideoPassword] ++
    s.cryptoVector.flatMap (fun c => [c.cipherSuite, c.keyParams]) ++
    s.candidateVector.flatMap (fun c => [c.foundation, c.netProtocol, c.hostAddress, c.rAddress]) ++
    s.payloadVector.flatMap fun rtp =>
      rtp.encodingName :: rtp.feedbackTypes ++ rtp.formatParameters.entries.flatMap fun x => [x.1, x.2]

/-- A description with audio and video, credentials, a fingerprint and a bundle of at most eight different
tags, whose strings hold no blanks, colons and line breaks; extension maps and fingerprints may hold colons. -/
structure Bundled (s : SdpInfo) : Prop where
  hasAudio : s.hasAudio = true
  hasVideo : s.hasVideo = true
  credentials : ∀ w ∈ [s.iceAudioUsername, s.iceAudioPassword, s.iceVideoUsername, s.iceVideoPassword], w ≠ []
  isFingerprint : s.isFingerprint = true
  isBundle : s.isBundle = true
  tags_le : s.bundleTags.length ≤ 8
  tags_nodup : (s.bundleTags.map (·.id)).Nodup
  tags_media : ∀ t ∈ s.bundleTags, t.mediaType ≠ .other
  extMaps_lt : s.extMapVector.length < 256
  plain : ∀ w ∈ s.strings, Plain w
  fingerprint : Clean s.fingerprint
  extMaps : ∀ e ∈ s.extMapVector, Clean e.uri

/-- No word that is written holds a marker that would send its line to another branch too. -/
structure MarkerFree (s : SdpInfo) : Prop where
  tags : ∀ t ∈ s.bundleTags, Takes t.id .group ∧ Takes t.id .mid
  usernames : ∀ w ∈ [s.iceAudioUsername, s.iceVideoUsername], Takes w .user
  passwords : ∀ w ∈ [s.iceAudioPassword, s.iceVideoPassword], Takes w .pass
  fingerprint : Takes s.fingerprint .fingerprint
  extMaps : ∀ e ∈ s.extMapVector, e.mediaType ≠ .other → Takes e.uri .extMap
  cryptos : ∀ c ∈ s.cryptoVector, c.mediaType ≠ .other → Takes c.cipherSuite .crypto ∧ Takes c.keyParams .crypto
  candidates : ∀ c ∈ s.candidateVector, (∀ w ∈ [c.foundation, c.netProtocol, c.hostAddress], Takes w .candidate) ∧
    (c.hostType = .srflx ∨ c.hostType = .relay → Takes c.rAddress .candidate)
  codecs : ∀ rtp ∈ s.payloadVector, rtp.mediaType ≠ .other →
    Takes rtp.encodingName .rtpmap ∧ ∀ x ∈ rtp.formatParameters.entries, Takes (formatWord x) .fmtp
  feedback : ∀ rtp ∈ s.payloadVector, rtp.mediaType = .videoType → ∀ w ∈ rtp.feedbackTypes, Takes w .feedback

/-- The parameters of the session and of its media are the same. Keys are compared in each medium. -/
structure SameParameters (s t : SdpInfo) : Prop where
  extMapVector : t.extMapVector = s.extMapVector
  bundleTags : t.bundleTags = s.bundleTags
  fingerprint : t.fingerprint = s.fingerprint
  audioCredentials : t.iceAudioUsername = s.iceAudioUsername ∧ t.iceAudioPassword = s.iceAudioPassword
  videoCredentials : t.iceVideoUsername = s.iceVideoUsername ∧ t.iceVideoPassword = s.iceVideoPassword
  directions : t.audioDirection = s.audioDirection ∧ t.videoDirection = s.videoDirection
  cryptos : ∀ m, t.cryptoVector.filter (·.mediaType = m) = s.cryptoVector.filter (·.mediaType = m)

/-- Reading the text of `getSdp` into a fresh object gives the same parameters. -/
def Recovers (rand : ℕ → ℕ) (videoDirection audioDirection : StreamDirection) (media : Str) (s : SdpInfo) : Prop :=
  ∃ text s' t, getSdp rand s = .ok (text, s') ∧
    initWithSdp (new videoDirection audioDirection) text media = .ok (true, t) ∧ SameParameters s t

/-- No field is lost on the way: there are no extension maps, whose last letter is dropped, all keys have the
tag 0, belong to a medium and are not empty, and neither is any other field that ends its line. -/
structure Keepable (s : SdpInfo) : Prop where
  extMaps : s.extMapVector = []
  fingerprint : s.fingerprint ≠ []
  tags : ∀ t ∈ s.bundleTags, t.id ≠ []
  cryptos : ∀ c ∈ s.cryptoVector, c.tag = 0 ∧ c.keyParams ≠ [] ∧ c.mediaType ≠ .other
  feedback : ∀ rtp ∈ s.payloadVector, rtp.mediaType = .videoType → [] ∉ rtp.feedbackTypes

section Recovery
variable {s : SdpInfo}

theorem mem_strings {w : Str} : w ∈ s.strings ↔ (∃ t ∈ s.bundleTags, t.id = w) ∨
    w ∈ [s.iceAudioUsername, s.iceAudioPassword, s.iceVideoUsername, s.iceVideoPassword] ∨
    (∃ c ∈ s.cryptoVector, w ∈ [c.cipherSuite, c.keyParams]) ∨
    (∃ c ∈ s.candidateVector, w ∈ [c.foundation, c.netProtocol, c.hostAddress, c.rAddress]) ∨
    ∃ rtp ∈ s.payloadVector, w ∈ rtp.encodingName :: rtp.feedbackTypes ∨
      ∃ x ∈ rtp.formatParameters.entries, w ∈ [x.1, x.2] := by
  simp only [strings, List.mem_append, List.mem_map, List.mem_flatMap, or_assoc]

theorem Bundled.tidy (hs : Bundled s) (hm : MarkerFree s) : Tidy s where
  tags_lt := by
    have := hs.tags_le
    omega
  extMaps_lt := hs.extMaps_lt
  tags t ht := ⟨hs.plain _ (mem_strings.mpr (Or.inl ⟨t, ht, rfl⟩)), hm.tags t ht⟩
  extMaps e he ht := ⟨hs.extMaps e he, hm.extMaps e he ht⟩
  fingerprint _ := ⟨hs.fingerprint, hm.fingerprint⟩
  usernames w hw := by
    have hmem : w ∈ [s.iceAudioUsername, s.iceAudioPassword, s.iceVideoUsername, s.iceVideoPassword] :=
      List.Sublist.mem hw (by simp)
    exact ⟨hs.credentials w hmem, hs.plain w (mem_strings.mpr (Or.inr (Or.inl hmem))), hm.usernames w hw⟩
  passwords w hw := by
    have hmem : w ∈ [s.iceAudioUsername, s.iceAudioPassword, s.iceVideoUsername, s.iceVideoPassword] :=
      List.Sublist.mem hw (by simp)
    exact ⟨hs.credentials w hmem, hs.plain w (mem_strings.mpr (Or.inr (Or.inl hmem))), hm.passwords w hw⟩
  cryptos c hc ht := by
    have hp : ∀ w ∈ [c.cipherSuite, c.keyParams], Plain w := fun w hw =>
      hs.plain w (mem_strings.mpr (Or.inr (Or.inr (Or.inl ⟨c, hc, hw⟩))))
    exact ⟨hp _ (by simp), hp _ (by simp), hm.cryptos c hc ht⟩
  candidates c hc _ := ⟨fun w hw => hs.plain w (mem_strings.mpr (Or.inr (Or.inr (Or.inr (Or.inl ⟨c, hc, hw⟩))))),
    (hm.candidates c hc).1, (hm.candidates c hc).2⟩
  names rtp hr ht := ⟨hs.plain _ (mem_strings.mpr (Or.inr (Or.inr (Or.inr (Or.inr
    ⟨rtp, hr, Or.inl List.mem_cons_self⟩))))), (hm.codecs rtp hr ht).1⟩
  formats rtp hr ht x hx := by
    have hp : ∀ w ∈ [x.1, x.2], '\n' ∉ w := fun w hw =>
      (hs.plain w (mem_strings.mpr (Or.inr (Or.inr (Or.inr (Or.inr ⟨rtp, hr, Or.inr ⟨x, hx, hw⟩⟩)))))).no_break
    have h₁ := hp x.1 (by simp)
    have h₂ := hp x.2 (by simp)
    refine ⟨?_, (hm.codecs rtp hr ht).2 x hx⟩
    unfold formatWord
    split_ifs
    · simp [h₁, h₂]
    · exact h₂
  feedback rtp hr ht w hw := ⟨(hs.plain w (mem_strings.mpr (Or.inr (Or.inr (Or.inr (Or.inr
    ⟨rtp, hr, Or.inl (List.mem_cons_of_mem _ hw)⟩)))))).no_break, hm.feedback rtp hr ht w hw⟩

/-- The view behind the last line. -/
def recovered (s : SdpInfo) (v : View) : View :=
  { v with
    mtype := .videoType
    isBundle := true
    bundleTags := ((s.bundleTags.map (·.id) |> Text.dropEmpty).map fun id => (⟨id, .other⟩ : BundleTag)).map
      (View.typeTag ((s.bundleTags.filter (·.mediaType = .audioType)).map (·.id)) .audioType) |>.map
      (View.typeTag ((s.bundleTags.filter (·.mediaType = .videoType)).map (·.id)) .videoType)
    fingerprint := s.fingerprint
    audioUsername := s.iceAudioUsername
    audioPassword := s.iceAudioPassword
    videoUsername := s.iceVideoUsername
    videoPassword := s.iceVideoPassword
    audioDirection := s.audioDirection
    videoDirection := s.videoDirection
    extMaps := (s.extMapVector.filter (·.mediaType = .audioType)).map (View.readExtMap .audioType) ++
      (s.extMapVector.filter (·.mediaType = .videoType)).map (View.readExtMap .videoType)
    cryptos := (s.cryptoVector.filter (·.mediaType = .audioType)).map (View.readCrypto .audioType) ++
      (s.cryptoVector.filter (·.mediaType = .videoType)).map (View.readCrypto .videoType)
    readable := ((s.payloadVector.filter (·.mediaType = .videoType)).flatMap (·.feedbackTypes)).all fun w => !w.isEmpty }

def Filled (s : SdpInfo) : Prop :=
  s.fingerprint ≠ [] ∧ (∀ e ∈ s.extMapVector, e.mediaType ≠ .other → e.uri ≠ []) ∧
    ∀ c ∈ s.cryptoVector, c.mediaType ≠ .other → c.keyParams ≠ []

private theorem head_eq (hs : Bundled s) (v : View) :
    v.head s = v.addGroup (Text.dropEmpty (s.bundleTags.map (·.id))) := by
  have hplain : ∀ id ∈ s.bundleTags.map (·.id), Plain id := by
    intro id hid
    obtain ⟨t, ht, rfl⟩ := List.mem_map.mp hid
    exact hs.plain _ (mem_strings.mpr (Or.inl ⟨t, ht, rfl⟩))
  rw [View.head, if_pos hs.isBundle, groupIds_eq (by simpa using hs.tags_le) hplain]

theorem whole_eq_some (hs : Bundled s) {v w : View} (ht : v.bundleTags = []) (he : v.extMaps = []) (hc : v.cryptos = [])
    (hr : v.readable = true) :
    (some (v.head s) >>= View.audio s >>= View.video s) = some w ↔ Filled s ∧ w = recovered s v := by
  have hlen : (Text.dropEmpty (s.bundleTags.map (·.id))).length < 256 := by
    have h := (Text.dropEmpty_sublist (s.bundleTags.map (·.id))).length_le
    have hle := hs.tags_le
    rw [List.length_map] at h
    omega
  have hfilled : Filled s ↔ s.fingerprint ≠ [] ∧
      ((∀ e ∈ s.extMapVector.filter (·.mediaType = .audioType), e.uri ≠ []) ∧
        ∀ c ∈ s.cryptoVector.filter (·.mediaType = .audioType), c.keyParams ≠ []) ∧
      (∀ e ∈ s.extMapVector.filter (·.mediaType = .videoType), e.uri ≠ []) ∧
        ∀ c ∈ s.cryptoVector.filter (·.mediaType = .videoType), c.keyParams ≠ [] := by
    have hmedia : ∀ m : MediaType, m ≠ .other ↔ m = .audioType ∨ m = .videoType := by
      intro m
      cases m <;> decide
    simp only [Filled, hmedia, List.mem_filter, decide_eq_true_eq, or_imp, and_imp]
    constructor
    · rintro ⟨hf, hes, hcs⟩
      exact ⟨hf, ⟨fun e he => (hes e he).1, fun c hc => (hcs c hc).1⟩, fun e he => (hes e he).2, fun c hc => (hcs c hc).2⟩
    · rintro ⟨hf, ⟨hea, hca⟩, hev, hcv⟩
      exact ⟨hf, fun e he => ⟨hea e he, hev e he⟩, fun c hc => ⟨hca c hc, hcv c hc⟩⟩
  rw [head_eq hs, Option.bind_eq_bind, Option.bind_some, Option.bind_eq_some_iff, hfilled]
  have haudio := fun w => View.audio_eq_some (s := s) (v := v.addGroup (Text.dropEmpty (s.bundleTags.map (·.id))))
    (w := w) rfl (by simpa [View.addGroup, ht] using hlen) hs.isFingerprint
  constructor
  · rintro ⟨v₁, hv₁, hw⟩
    obtain ⟨hf, hea, hca, rfl⟩ := (haudio v₁).mp hv₁
    obtain ⟨-, hev, hcv, rfl⟩ := (View.video_eq_some rfl (by simpa [View.addGroup, ht] using hlen) hs.isFingerprint).mp hw
    refine ⟨⟨hf, ⟨hea, hca⟩, hev, hcv⟩, ?_⟩
    simp [recovered, View.addGroup, ht, he, hc, hr]
  · rintro ⟨⟨hf, ⟨hea, hca⟩, hev, hcv⟩, rfl⟩
    refine ⟨_, (haudio _).mpr ⟨hf, hea, hca, rfl⟩,
      (View.video_eq_some rfl (by simpa [View.addGroup, ht] using hlen) hs.isFingerprint).mpr ⟨hf, hev, hcv, ?_⟩⟩
    simp [recovered, View.addGroup, ht, he, hc, hr]

variable {rand : ℕ → ℕ} {videoDirection audioDirection : StreamDirection} {media : Str}

def KeptBy (s : SdpInfo) (v : View) : Prop :=
  v.extMaps = s.extMapVector ∧ v.bundleTags = s.bundleTags ∧
    ∀ m, v.cryptos.filter (·.mediaType = m) = s.cryptoVector.filter (·.mediaType = m)

private theorem sameParameters_iff {st : Parser} {v : View} (hst : st.view = recovered s v) (ps : List RtpMap) :
    SameParameters s { fillCandidates st.info with payloadVector := ps } ↔ KeptBy s (recovered s v) := by
  constructor
  · intro h
    rw [← hst]
    exact ⟨h.extMapVector, h.bundleTags, h.cryptos⟩
  · intro h
    have hcred := hst
    rw [← hst] at h
    exact ⟨h.1, h.2.1, congrArg View.fingerprint hst, ⟨congrArg View.audioUsername hst, congrArg View.audioPassword hst⟩,
      ⟨congrArg View.videoUsername hst, congrArg View.videoPassword hst⟩,
      ⟨congrArg View.audioDirection hst, congrArg View.videoDirection hst⟩, h.2.2⟩

/-- The text is read without a fault if the fields are filled, and gives the recovered view. -/
theorem recovers_iff_kept (hs : Bundled s) (hm : MarkerFree s) :
    Recovers rand videoDirection audioDirection media s ↔ Filled s ∧
      ∃ v, (recovered s v).readable = true ∧ KeptBy s (recovered s v) := by
  obtain ⟨text, head, audio, video, hget, hlines, -, hrh, -, hra, -, hrv⟩ :=
    getSdp_tidy (hs.tidy hm) hs.hasAudio hs.hasVideo rand
  have hsim := ((hrh.append hra).append hrv).simulates
    { info := new videoDirection audioDirection, mtype := mediaTypeOf media }
  have hinit : initWithSdp (new videoDirection audioDirection) text media =
      (head ++ audio ++ video).foldlM processLine
        { info := new videoDirection audioDirection, mtype := mediaTypeOf media } >>= Parser.finish := by
    rw [← hlines]
    rfl
  have hrecovers : Recovers rand videoDirection audioDirection media s ↔
      ∃ t, initWithSdp (new videoDirection audioDirection) text media = .ok (true, t) ∧ SameParameters s t := by
    constructor
    · rintro ⟨text', s', t, hget', h⟩
      obtain ⟨rfl, -⟩ := Prod.mk.inj (Except.ok.inj (hget'.symm.trans hget))
      exact ⟨t, h⟩
    · rintro ⟨t, h⟩
      exact ⟨text, _, t, hget, h⟩
  have hwhole := fun w => whole_eq_some hs (w := w)
    (v := view { info := new videoDirection audioDirection, mtype := mediaTypeOf media }) rfl rfl rfl rfl
  rw [hrecovers, hinit]
  simp only [] at hsim
  cases hrun : (head ++ audio ++ video).foldlM processLine
      { info := new videoDirection audioDirection, mtype := mediaTypeOf media } with
  | error e =>
    rw [hrun] at hsim
    constructor
    · rintro ⟨t, ht, -⟩
      cases ht
    · rintro ⟨hfilled, -⟩
      have h := (hwhole _).mpr ⟨hfilled, rfl⟩
      rw [← hsim] at h
      cases h
  | ok st =>
    rw [hrun] at hsim
    obtain ⟨hfilled, hview⟩ := (hwhole st.view).mp hsim.symm
    have hv : st.info.iceVideoUsername ≠ [] := by
      rw [show st.info.iceVideoUsername = s.iceVideoUsername from congrArg View.videoUsername hview]
      exact hs.credentials _ (by simp)
    have ha : st.info.iceAudioUsername ≠ [] := by
      rw [show st.info.iceAudioUsername = s.iceAudioUsername from congrArg View.audioUsername hview]
      exact hs.credentials _ (by simp)
    cases hread : st.view.readable with
    | true =>
      obtain ⟨ps, hps⟩ := finish_ok hv ha hread
      constructor
      · rintro ⟨t, ht, hsame⟩
        obtain ⟨-, rfl⟩ := Prod.mk.inj (Except.ok.inj (hps.symm.trans ht))
        exact ⟨hfilled, _, hview ▸ hread, (sameParameters_iff hview ps).mp hsame⟩
      · rintro ⟨-, v, -, hkept⟩
        exact ⟨_, hps, (sameParameters_iff hview ps).mpr hkept⟩
    | false =>
      obtain ⟨e, he⟩ := finish_error hv hread
      constructor
      · rintro ⟨t, ht, -⟩
        cases he.symm.trans ht
      · rintro ⟨-, v, hr, -⟩
        have hsame : (recovered s v).readable = st.view.readable := by rw [hview]; rfl
        rw [hsame, hread] at hr
        cases hr

theorem media_cases {m : MediaType} (h : m ≠ .other) : m = .audioType ∨ m = .videoType := by
  cases m with
  | videoType => exact Or.inr rfl
  | audioType => exact Or.inl rfl
  | other => contradiction

/-- Every extension map that is read back has lost a letter, so that none can be kept. -/
theorem extMaps_kept {v : View} (hf : Filled s) (h : (recovered s v).extMaps = s.extMapVector) :
    s.extMapVector = [] := by
  let letters : List ExtMap → ℕ := fun es => (es.map (·.uri.length)).sum
  have hread : ∀ (t : MediaType) (es : List ExtMap), (∀ e ∈ es, e.uri ≠ []) →
      letters (es.map (View.readExtMap t)) + es.length = letters es := by
    intro t es hes
    induction es with
    | nil => rfl
    | cons e es ih =>
      have hpos : 0 < e.uri.length := List.length_pos_iff.mpr (hes e List.mem_cons_self)
      have h := ih fun x hx => hes x (List.mem_cons_of_mem _ hx)
      simp only [letters, List.map_cons, List.sum_cons, View.readExtMap, List.length_dropLast, List.length_cons] at h ⊢
      omega
  have hsplit : ∀ es : List ExtMap, letters (es.filter (·.mediaType = .audioType)) +
      letters (es.filter (·.mediaType = .videoType)) ≤ letters es := by
    intro es
    induction es with
    | nil => exact le_rfl
    | cons e es ih =>
      simp only [letters, List.filter_cons, List.map_cons, List.sum_cons] at ih ⊢
      cases e.mediaType <;> simp <;> omega
  have huri : ∀ t : MediaType, t ≠ .other → ∀ e ∈ s.extMapVector.filter (·.mediaType = t), e.uri ≠ [] := by
    intro t ht e he
    rw [List.mem_filter, decide_eq_true_eq] at he
    exact hf.2.1 e he.1 (he.2 ▸ ht)
  have ha := hread .audioType _ (huri .audioType (by decide))
  have hv := hread .videoType _ (huri .videoType (by decide))
  have hle := hsplit s.extMapVector
  have hsum : letters s.extMapVector = letters ((s.extMapVector.filter (·.mediaType = .audioType)).map
      (View.readExtMap .audioType)) + letters ((s.extMapVector.filter (·.mediaType = .videoType)).map
      (View.readExtMap .videoType)) := by
    conv_lhs => rw [← h]
    simp [letters, recovered]
  have hnil : (recovered s v).extMaps = [] := by
    have h₁ : s.extMapVector.filter (·.mediaType = .audioType) = [] := List.length_eq_zero_iff.mp (by omega)
    have h₂ : s.extMapVector.filter (·.mediaType = .videoType) = [] := List.length_eq_zero_iff.mp (by omega)
    simp [recovered, h₁, h₂]
  rw [← h, hnil]

private theorem typeTag_id (ids : List Str) (t : MediaType) (x : BundleTag) : (View.typeTag ids t x).id = x.id := by
  unfold View.typeTag
  split_ifs <;> rfl

theorem tags_kept_iff (hs : Bundled s) {v : View} :
    (recovered s v).bundleTags = s.bundleTags ↔ ∀ t ∈ s.bundleTags, t.id ≠ [] := by
  have hlist : (recovered s v).bundleTags = (Text.dropEmpty (s.bundleTags.map (·.id))).map fun id =>
      View.typeTag ((s.bundleTags.filter (·.mediaType = .videoType)).map (·.id)) .videoType
        (View.typeTag ((s.bundleTags.filter (·.mediaType = .audioType)).map (·.id)) .audioType ⟨id, .other⟩) := by
    simp [recovered, Function.comp_def]
  rw [hlist]
  constructor
  · intro h t ht hid
    rw [← h] at ht
    obtain ⟨id, -, rfl⟩ := List.mem_map.mp ht
    rw [typeTag_id, typeTag_id] at hid
    have hother : View.typeTag ((s.bundleTags.filter (·.mediaType = .videoType)).map (·.id)) .videoType
        (View.typeTag ((s.bundleTags.filter (·.mediaType = .audioType)).map (·.id)) .audioType ⟨id, .other⟩) =
        ⟨id, .other⟩ := by
      subst hid
      simp [View.typeTag]
    rw [h, hother] at ht
    exact hs.tags_media _ ht rfl
  · intro h
    have hinj : ∀ t ∈ s.bundleTags, ∀ t' ∈ s.bundleTags, t.id = t'.id → t = t' :=
      fun t ht t' ht' => List.inj_on_of_nodup_map hs.tags_nodup ht ht'
    rw [Text.dropEmpty_of_ne (by simpa using h), List.map_map]
    refine (List.map_congr_left fun t ht => ?_).trans (List.map_id _)
    have hid := h t ht
    have hmem : ∀ m, t.id ∈ (s.bundleTags.filter (·.mediaType = m)).map (·.id) ↔ t.mediaType = m := by
      intro m
      constructor
      · intro hm
        obtain ⟨t', ht', he⟩ := List.mem_map.mp hm
        rw [List.mem_filter, decide_eq_true_eq] at ht'
        rw [hinj t ht t' ht'.1 he.symm]
        exact ht'.2
      · intro hm
        exact List.mem_map.mpr ⟨t, List.mem_filter.mpr ⟨ht, decide_eq_true hm⟩, rfl⟩
    obtain ⟨id, m⟩ := t
    rcases media_cases (hs.tags_media _ ht) with hm | hm
    · simp only at hm hid hmem
      subst hm
      simp [View.typeTag, hid, hmem]
    · simp only at hm hid hmem
      subst hm
      simp [View.typeTag, hid, hmem]

private theorem filter_readCrypto (cs : List CryptoInfo) (t m : MediaType) :
    (cs.map (View.readCrypto t)).filter (·.mediaType = m) = if t = m then cs.map (View.readCrypto t) else [] := by
  induction cs with
  | nil => simp
  | cons c cs ih =>
    rw [List.map_cons, List.filter_cons, ih]
    by_cases h : t = m <;> simp [View.readCrypto, h]

private theorem map_readCrypto_iff {t : MediaType} : (s.cryptoVector.filter (·.mediaType = t)).map (View.readCrypto t) =
    s.cryptoVector.filter (·.mediaType = t) ↔ ∀ c ∈ s.cryptoVector, c.mediaType = t → c.tag = 0 := by
  have hmap := List.map_inj_left (l := s.cryptoVector.filter (·.mediaType = t)) (f := View.readCrypto t) (g := id)
  rw [List.map_id] at hmap
  rw [hmap]
  constructor
  · intro h c hc ht
    have hread := h c (List.mem_filter.mpr ⟨hc, decide_eq_true ht⟩)
    exact (congrArg CryptoInfo.tag hread).symm
  · intro h c hc
    rw [List.mem_filter, decide_eq_true_eq] at hc
    obtain ⟨tag, suite, key, m⟩ := c
    have htag := h _ hc.1 hc.2
    have hm := hc.2
    simp only at htag hm
    subst htag hm
    rfl

private theorem cryptos_kept_iff {v : View} :
    (∀ m, (recovered s v).cryptos.filter (·.mediaType = m) = s.cryptoVector.filter (·.mediaType = m)) ↔
      ∀ c ∈ s.cryptoVector, c.tag = 0 ∧ c.mediaType ≠ .other := by
  have haudio : (recovered s v).cryptos.filter (·.mediaType = .audioType) =
      (s.cryptoVector.filter (·.mediaType = .audioType)).map (View.readCrypto .audioType) := by
    simp [recovered, filter_readCrypto]
  have hvideo : (recovered s v).cryptos.filter (·.mediaType = .videoType) =
      (s.cryptoVector.filter (·.mediaType = .videoType)).map (View.readCrypto .videoType) := by
    simp [recovered, filter_readCrypto]
  have hother : (recovered s v).cryptos.filter (·.mediaType = .other) = [] := by
    simp [recovered, filter_readCrypto]
  constructor
  · intro h c hc
    have hm : c.mediaType ≠ .other := by
      intro hm
      have hnil := (h .other).symm.trans hother
      exact (List.filter_eq_nil_iff.mp hnil) c hc (decide_eq_true hm)
    refine ⟨?_, hm⟩
    rcases media_cases hm with ht | ht
    · exact map_readCrypto_iff.mp (haudio.symm.trans (h .audioType)) c hc ht
    · exact map_readCrypto_iff.mp (hvideo.symm.trans (h .videoType)) c hc ht
  · intro h m
    cases m with
    | videoType => exact hvideo.trans (map_readCrypto_iff.mpr fun c hc _ => (h c hc).1)
    | audioType => exact haudio.trans (map_readCrypto_iff.mpr fun c hc _ => (h c hc).1)
    | other =>
      rw [hother, eq_comm, List.filter_eq_nil_iff]
      exact fun c hc hm => (h c hc).2 (of_decide_eq_true hm)

private theorem readable_recovered_iff {v : View} : (recovered s v).readable = true ↔
    ∀ rtp ∈ s.payloadVector, rtp.mediaType = .videoType → [] ∉ rtp.feedbackTypes := all_feedback_iff

/-- A bundled description without markers in its words is recovered from its own text exactly if no field is
lost on the way, whatever the random stream name, the media argument and the directions of the fresh object. -/
theorem recovers_iff (hs : Bundled s) (hm : MarkerFree s) (rand : ℕ → ℕ)
    (videoDirection audioDirection : StreamDirection) (media : Str) :
    Recovers rand videoDirection audioDirection media s ↔ Keepable s := by
  rw [recovers_iff_kept hs hm]
  constructor
  · rintro ⟨hf, v, hread, hext, htags, hcryptos⟩
    have hc := cryptos_kept_iff.mp hcryptos
    exact ⟨extMaps_kept hf hext, hf.1, (tags_kept_iff hs).mp htags,
      fun c h => ⟨(hc c h).1, hf.2.2 c h (hc c h).2, (hc c h).2⟩, readable_recovered_iff.mp hread⟩
  · intro h
    have hext : s.extMapVector = [] := h.extMaps
    have hf : Filled s := by
      refine ⟨h.fingerprint, ?_, fun c hc _ => (h.cryptos c hc).2.1⟩
      rw [hext]
      exact fun e he => absurd he List.not_mem_nil
    refine ⟨hf, view { info := new .sendRecv .sendRecv, mtype := .other }, readable_recovered_iff.mpr h.feedback, ?_,
      (tags_kept_iff hs).mpr h.tags, cryptos_kept_iff.mpr fun c hc => ⟨(h.cryptos c hc).1, (h.cryptos c hc).2.2⟩⟩
    simp [recovered, hext]

theorem Bundled.withExtMaps (h : Bundled s) {es : List ExtMap} (hl : es.length < 256)
    (he : ∀ e ∈ es, Clean e.uri) : Bundled { s with extMapVector := es } :=
  ⟨h.hasAudio, h.hasVideo, h.credentials, h.isFingerprint, h.isBundle, h.tags_le, h.tags_nodup, h.tags_media, hl,
    h.plain, h.fingerprint, he⟩

theorem MarkerFree.withExtMaps (h : MarkerFree s) (es : List ExtMap)
    (he : ∀ e ∈ es, e.mediaType ≠ .other → Takes e.uri .extMap) : MarkerFree { s with extMapVector := es } :=
  ⟨h.tags, h.usernames, h.passwords, h.fingerprint, he, h.cryptos, h.candidates, h.codecs, h.feedback⟩

/-- An audio and a video tag, a fingerprint with colons and a key for each medium. -/
def bundledExample : SdpInfo :=
  { new .sendRecv .recvOnly with
    hasAudio := true, hasVideo := true, isBundle := true, isFingerprint := true, isRtcpMux := true
    fingerprint := "AB:CD".toList
    bundleTags := [⟨"audio".toList, .audioType⟩, ⟨"video".toList, .videoType⟩]
    iceAudioUsername := "u1".toList, iceAudioPassword := "p1".toList
    iceVideoUsername := "u2".toList, iceVideoPassword := "p2".toList
    cryptoVector :=
      [{ cipherSuite := "AES".toList, keyParams := "k2".toList, mediaType := .videoType },
       { cipherSuite := "AES".toList, keyParams := "k1".toList, mediaType := .audioType }]
    payloadVector := internalPayloadVector
    videoCodecs := 3, audioCodecs := 2 }

theorem bundled_bundledExample : Bundled bundledExample where
  hasAudio := rfl
  hasVideo := rfl
  credentials := by decide +kernel
  isFingerprint := rfl
  isBundle := rfl
  tags_le := by decide
  tags_nodup := by decide +kernel
  tags_media := by decide +kernel
  extMaps_lt := by decide
  plain := by
    have h : ∀ w ∈ bundledExample.strings, Free [' ', ':', '\r', '\n'] w := by decide +kernel
    exact h
  fingerprint := by
    have h : Free [' ', '\r', '\n'] bundledExample.fingerprint := by decide +kernel
    exact h
  extMaps e he := absurd he List.not_mem_nil

theorem markerFree_bundledExample : MarkerFree bundledExample where
  tags := by decide +kernel
  usernames := by decide +kernel
  passwords := by decide +kernel
  fingerprint := by decide +kernel
  extMaps e he := absurd he List.not_mem_nil
  cryptos := by decide +kernel
  candidates c hc := absurd hc List.not_mem_nil
  codecs := by decide +kernel
  feedback := by decide +kernel

private theorem keepable_bundledExample : Keepable bundledExample where
  extMaps := rfl
  fingerprint := by decide +kernel
  tags := by decide +kernel
  cryptos := by decide +kernel
  feedback := by decide +kernel

/-- Without extension maps the example is recovered. -/
theorem recovers_bundledExample : Bundled bundledExample ∧ MarkerFree bundledExample ∧
    Recovers id .sendRecv .sendRecv "video".toList bundledExample :=
  ⟨bundled_bundledExample, markerFree_bundledExample, (recovers_iff bundled_bundledExample markerFree_bundledExample
    id .sendRecv .sendRecv "video".toList).mpr keepable_bundledExample⟩

/-- With an extension map `urn:a` for the audio, the example is not recovered: the map comes back as `urn:`. -/
theorem not_recovers_extMap : Bundled { bundledExample with extMapVector := [⟨1, "urn:a".toList, .audioType⟩] } ∧
    ¬ Recovers id .sendRecv .sendRecv "video".toList
      { bundledExample with extMapVector := [⟨1, "urn:a".toList, .audioType⟩] } := by
  have hclean : ∀ e ∈ [(⟨1, "urn:a".toList, .audioType⟩ : ExtMap)], Free [' ', '\r', '\n'] e.uri := by decide +kernel
  have hb := bundled_bundledExample.withExtMaps (by decide) hclean
  have hm := markerFree_bundledExample.withExtMaps [⟨1, "urn:a".toList, .audioType⟩] (by decide +kernel)
  constructor
  · exact hb
  · rw [recovers_iff_kept hb hm]
    rintro ⟨hf, v, -, hext, -⟩
    exact List.cons_ne_nil _ _ (extMaps_kept hf hext)

end Recovery
end Sfup.Sdp.SdpInfo
