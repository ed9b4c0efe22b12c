import Sfup.Sdp.Branches

/-! The handlers of `processSdp`: when they run, and what they can do to the state of the loop. -/
namespace Sfup.Sdp.Parser
open SdpInfo

/-- The texts that the line is searched for. -/
def Branch.searched : Branch → List Str
  | rtcpMux => [Marker.rtcpmux]
  | direction => [Marker.recvonly, Marker.sendonly, Marker.sendrecv]
  | profile => [Marker.savpf]
  | fingerprint => [Marker.fp]
  | group => [Marker.group]
  | video => [Marker.video]
  | audio => [Marker.audio]
  | candidate => [Marker.cand]
  | crypto => [Marker.crypto]
  | user => [Marker.iceUser]
  | pass => [Marker.icePass]
  | mid => [Marker.mid]
  | ssrc => [Marker.ssrctag]
  | ssrcGroup => [Marker.ssrcgrouptag]
  | rtpmap => [Marker.rtpmap]
  | extMap => [Marker.extmap]
  | feedback => [Marker.rtcpfb]
  | fmtp => [Marker.fmtp]
  | bandwidth => [Marker.bas]

def Branch.found (b : Branch) (line : Str) : Bool := b.searched.any fun marker => marker <:+: line

def directionOf (line : Str) : Option StreamDirection :=
  if Marker.recvonly <:+: line then some .recvOnly
  else if Marker.sendonly <:+: line then some .sendOnly
  else if Marker.sendrecv <:+: line then some .sendRecv
  else none

section Candidates
variable {pieces : List Str} {t : MediaType} {info : SdpInfo} {r : Bool × SdpInfo}

theorem part_eq_ok {parts : List Str} {i : ℕ} {w : Str} : part parts i = .ok w ↔ parts[i]? = some w := by
  unfold part
  cases parts[i]? with
  | none => exact iff_of_false (fun h => nomatch h) (fun h => nomatch h)
  | some w' => simp

/-- The checks of `processCandidate`: the protocol is UDP and the type follows. -/
def Accepted (pieces : List Str) : Prop :=
  (pieces[3]? = some "UDP".toList ∨ pieces[3]? = some "udp".toList) ∧ pieces[7]? = some "typ".toList

instance : Decidable (Accepted pieces) := inferInstanceAs (Decidable (_ ∧ _))

/-- At most one candidate is added, and nothing else changes. -/
theorem processCandidate_keeps (h : processCandidate pieces t info = .ok r) :
    ∃ cs, r.2 = { info with candidateVector := info.candidateVector ++ cs } ∧
      cs.length = if Accepted pieces then 1 else 0 := by
  unfold processCandidate at h
  simp only [bind_eq_ok, part_eq_ok] at h
  obtain ⟨_, -, _, -, proto, hproto, h⟩ := h
  split_ifs at h with hudp
  · cases h
    have hno : ¬ Accepted pieces := by
      rintro ⟨ha | ha, -⟩
      · exact hudp.1 (Option.some.inj (hproto.symm.trans ha))
      · exact hudp.2 (Option.some.inj (hproto.symm.trans ha))
    exact ⟨[], by rw [List.append_nil], (if_neg hno).symm⟩
  simp only [bind_eq_ok, part_eq_ok] at h
  obtain ⟨_, -, _, -, _, -, typ, htyp, h⟩ := h
  split_ifs at h with hne
  · cases h
    exact ⟨[], by rw [List.append_nil], (if_neg fun ha => hne (Option.some.inj (htyp.symm.trans ha.2))).symm⟩
  have hyes : Accepted pieces := by
    refine ⟨?_, htyp.trans (congrArg some (not_not.mp hne))⟩
    rw [hproto]
    by_cases hup : proto = "UDP".toList
    · exact .inl (congrArg some hup)
    · exact .inr (congrArg some (not_not.mp fun hlow => hudp ⟨hup, hlow⟩))
  obtain ⟨_, -, h⟩ := bind_eq_ok.mp h
  split_ifs at h
  · simp only [bind_eq_ok] at h
    obtain ⟨_, -, _, -, h⟩ := h
    cases h
    exact ⟨[_], rfl, (if_pos hyes).symm⟩
  · cases h
    exact ⟨[_], rfl, (if_pos hyes).symm⟩

end Candidates

/-- What a handler that runs without a fault can do. -/
def Branch.Result (line : Str) (st st' : Parser) : Branch → Prop
  | rtcpMux => st' = { st with info.isRtcpMux := true }
  | direction => st' = (directionOf line).elim st (setDirection · st)
  | profile => st' = { st with info.profile := .savpf }
  | fingerprint => ∃ w, st' = { st with info.fingerprint := w, info.isFingerprint := true }
  | group => ∃ isBundle, st' = { st with
      info.isBundle := isBundle
      info.bundleTags := st.info.bundleTags ++
        ((splitOneOf line [':', ' ', ' ', '\r', '\n'] 10).drop 2).map fun id => { id, mediaType := .other } }
  | video => st' = { st with
      mlineNum := st.mlineNum + 1, info.videoSdpMLine := st.mlineNum + 1
      mtype := .videoType, info.hasVideo := true }
  | audio => st' = { st with
      mlineNum := st.mlineNum + 1, info.audioSdpMLine := st.mlineNum + 1
      mtype := .audioType, info.hasAudio := true }
  | candidate => ∃ cs, st' = { st with info.candidateVector := st.info.candidateVector ++ cs } ∧
      cs.length = if Accepted (splitOneOf line [' ', ':'] 0) then 1 else 0
  | crypto => ∃ c, st' = { st with info.cryptoVector := st.info.cryptoVector ++ [c] }
  | user => ∃ a v, st' = { st with info.iceAudioUsername := a, info.iceVideoUsername := v }
  | pass => ∃ a v, st' = { st with info.iceAudioPassword := a, info.iceVideoPassword := v }
  | mid => ∃ tags, st' = { st with info.bundleTags := tags } ∧ tags.length = st.info.bundleTags.length
  | ssrc => ∃ a v, st' = { st with info.audioSsrc := a, info.videoSsrc := v }
  | ssrcGroup => ∃ rtx, st' = { st with info.videoRtxSsrc := rtx }
  | rtpmap => ∃ pt name clock, st' = addCodec (strtoul pt) name (strtoul clock) st ∧
      (splitOneOf line [' ', ':', '/', '\n'] 4)[1]? = some pt ∧
      (splitOneOf line [' ', ':', '/', '\n'] 4)[2]? = some name ∧
      (splitOneOf line [' ', ':', '/', '\n'] 4)[3]? = some clock
  | extMap => ∃ es, st' = { st with info.extMapVector := st.info.extMapVector ++ es } ∧
      es.length = if 3 ≤ (splitOneOf line [' ', ':', '='] 3).length then 1 else 0
  | feedback => st' = { st with tmpFeedbackVector := st.tmpFeedbackVector ++ [line] }
  | fmtp => st' = st ∨ ∃ pt option value,
      st' = { st with info.payloadVector := st.info.payloadVector.map (addFormat pt option value) }
  | bandwidth => ∃ bw, st' = { st with info.videoBandwidth := bw }

section Run
variable {b : Branch} {line : Str} {st st' : Parser}

/-- A handler whose attribute is not found does not run. -/
theorem run_of_not_found (h : b.found line = false) : b.run line = .ok := by
  unfold Branch.found at h
  cases b with
  | direction =>
    simp only [Branch.searched, List.any_cons, List.any_nil, Bool.or_false, Bool.or_eq_false_iff,
      decide_eq_false_iff_not] at h
    funext st
    simp only [Branch.run, directionBranch, if_neg h.1, if_neg h.2.1, if_neg h.2.2]
  | rtcpMux | profile | fingerprint | group | video | audio | candidate | crypto | user | pass | mid | ssrc | ssrcGroup
  | rtpmap | extMap | feedback | fmtp | bandwidth =>
    simp only [Branch.searched, List.any_cons, List.any_nil, Bool.or_false, decide_eq_false_iff_not] at h
    exact onFound_of_not h

theorem found_of_searched {b : Branch} {marker : Str} (h : b.searched = [marker]) (line : Str) :
    b.found line = decide (marker <:+: line) := by
  rw [Branch.found, h, List.any_cons, List.any_nil, Bool.or_false]

theorem result_direction (h : directionBranch line st = .ok st') : Branch.direction.Result line st st' := by
  unfold directionBranch at h
  simp only [Branch.Result, directionOf]
  split_ifs at h ⊢ <;> exact (Except.ok.inj h).symm

theorem result_candidate (hf : Marker.cand <:+: line) (h : candidateBranch line st = .ok st') :
    Branch.candidate.Result line st st' := by
  rw [candidateBranch, onFound_of hf] at h
  obtain ⟨⟨r, info⟩, hr, h⟩ := bind_eq_ok.mp h
  obtain ⟨cs, rfl, hlen⟩ := processCandidate_keeps hr
  cases h
  exact ⟨cs, rfl, hlen⟩

theorem result_mid (hf : Marker.mid <:+: line) (h : midBranch line st = .ok st') : Branch.mid.Result line st st' := by
  rw [midBranch, onFound_of hf] at h
  simp only [] at h
  split_ifs at h
  · simp only [bind_eq_ok] at h
    obtain ⟨thisId, -, tags, htags, h⟩ := h
    unfold uint8Loop at htags
    split_ifs at htags
    cases htags
    cases h
    exact ⟨_, rfl, by simp only [← List.map_eq_flatMap, List.length_map]⟩
  · cases h
    exact ⟨_, rfl, rfl⟩

theorem result_ssrc (hf : Marker.ssrctag <:+: line) (h : ssrcBranch line st = .ok st') :
    Branch.ssrc.Result line st st' := by
  rw [ssrcBranch, onFound_of hf] at h
  simp only [] at h
  split_ifs at h
  · obtain ⟨_, -, h⟩ := bind_eq_ok.mp h
    cases h
    exact ⟨_, _, rfl⟩
  · obtain ⟨_, -, h⟩ := bind_eq_ok.mp h
    cases h
    exact ⟨_, _, rfl⟩
  · cases h
    exact ⟨_, _, rfl⟩

private theorem result_extMap (hf : Marker.extmap <:+: line) (h : extMapBranch line st = .ok st') :
    Branch.extMap.Result line st st' := by
  rw [extMapBranch, onFound_of hf] at h
  simp only [ge_iff_le] at h
  by_cases hlen : 3 ≤ (splitOneOf line [' ', ':', '='] 3).length
  · rw [if_pos hlen] at h
    simp only [bind_eq_ok] at h
    obtain ⟨_, -, _, -, h⟩ := h
    cases h
    exact ⟨[_], rfl, (if_pos hlen).symm⟩
  · rw [if_neg hlen] at h
    cases h
    exact ⟨[], by rw [List.append_nil], (if_neg hlen).symm⟩

private theorem result_fmtp (hf : Marker.fmtp <:+: line) (h : fmtpBranch line st = .ok st') :
    Branch.fmtp.Result line st st' := by
  rw [fmtpBranch, onFound_of hf] at h
  simp only [] at h
  split_ifs at h
  · simp only [bind_eq_ok] at h
    obtain ⟨_, -, _, -, ⟨option, value⟩, -, h⟩ := h
    cases h
    exact .inr ⟨_, option, value, rfl⟩
  · simp only [bind_eq_ok] at h
    obtain ⟨_, -, _, -, _, -, ⟨option, value⟩, -, h⟩ := h
    cases h
    exact .inr ⟨_, option, value, rfl⟩
  · cases h
    exact .inl rfl

/-- A handler whose attribute is found. -/
theorem result_run (hf : b.found line) (h : b.run line st = .ok st') : b.Result line st st' := by
  have hone : ∀ marker, b.searched = [marker] → marker <:+: line := by
    intro marker hb
    rw [found_of_searched hb] at hf
    exact of_decide_eq_true hf
  cases b with
  | direction => exact result_direction h
  | candidate => exact result_candidate (hone _ rfl) h
  | mid => exact result_mid (hone _ rfl) h
  | ssrc => exact result_ssrc (hone _ rfl) h
  | extMap => exact result_extMap (hone _ rfl) h
  | fmtp => exact result_fmtp (hone _ rfl) h
  | rtcpMux | profile | video | audio | feedback =>
    simp only [Branch.run, rtcpMuxBranch, profileBranch, videoBranch, audioBranch, feedbackBranch] at h
    rw [onFound_of (hone _ rfl)] at h
    exact (Except.ok.inj h).symm
  | fingerprint | group =>
    simp only [Branch.run, fingerprintBranch, groupBranch] at h
    rw [onFound_of (hone _ rfl)] at h
    obtain ⟨_, -, h⟩ := bind_eq_ok.mp h
    exact ⟨_, (Except.ok.inj h).symm⟩
  | crypto =>
    rw [Branch.run, cryptoBranch, onFound_of (hone _ rfl)] at h
    simp only [bind_eq_ok] at h
    obtain ⟨_, -, _, -, h⟩ := h
    exact ⟨_, (Except.ok.inj h).symm⟩
  | user | pass =>
    simp only [Branch.run, userBranch, passBranch] at h
    rw [onFound_of (hone _ rfl)] at h
    obtain ⟨_, -, h⟩ := bind_eq_ok.mp h
    cases h
    simp only [Branch.Result]
    split_ifs
    · exact ⟨_, _, rfl⟩
    · exact ⟨_, _, rfl⟩
  | ssrcGroup | bandwidth =>
    simp only [Branch.run, ssrcGroupBranch, bandwidthBranch] at h
    rw [onFound_of (hone _ rfl)] at h
    split_ifs at h
    · obtain ⟨_, -, h⟩ := bind_eq_ok.mp h
      exact ⟨_, (Except.ok.inj h).symm⟩
    · cases h
      exact ⟨_, rfl⟩
  | rtpmap =>
    rw [Branch.run, rtpmapBranch, onFound_of (hone _ rfl)] at h
    simp only [bind_eq_ok, part_eq_ok] at h
    obtain ⟨pt, h₁, name, h₂, clock, h₃, h⟩ := h
    exact ⟨pt, name, clock, (Except.ok.inj h).symm, h₁, h₂, h₃⟩

end Run

section Effects
variable {τ : Type} {π : Parser → τ} {f : τ → τ}

theorem effects_of_result (b : Branch) (line : Str) (h : ∀ st st', b.Result line st st' → π st' = f (π st)) :
    Effects π (b.run line) (if b.found line then f else id) := by
  intro st st' hrun
  cases hf : b.found line with
  | false =>
    rw [run_of_not_found hf] at hrun
    cases hrun
    rfl
  | true => exact h st st' (result_run hf hrun)

theorem effects_of_result_keep (b : Branch) (line : Str)
    (h : b.found line → ∀ st st', b.Result line st st' → π st' = π st) : Effects π (b.run line) id := by
  intro st st' hrun
  cases hf : b.found line with
  | false =>
    rw [run_of_not_found hf] at hrun
    cases hrun
    rfl
  | true => exact h hf st st' (result_run hf hrun)

end Effects
end Sfup.Sdp.Parser
