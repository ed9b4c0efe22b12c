import Sfup.Core.Negotiation
import Sfup.Core.WebRtcConnection
import Sfup.Sdp.Codecs
import Sfup.Sdp.Support

/-! What a remote description leaves in a connection, whether it is accepted or not, and in its media path. -/
namespace Sfup.Core
open Sfup.Sdp Sfup.Rtp
open Sfup.Sdp.Parser (Guarded Halts turns start behind)

/-- There are user names for both media, and every candidate of a medium has its credentials. -/
structure Credited (info : SdpInfo) : Prop where
  videoUsername : info.iceVideoUsername ≠ []
  audioUsername : info.iceAudioUsername ≠ []
  video : ∀ c ∈ info.candidateVector, c.mediaType = .videoType →
    c.username = info.iceVideoUsername ∧ c.password = info.iceVideoPassword
  audio : ∀ c ∈ info.candidateVector, c.mediaType = .audioType →
    c.username = info.iceAudioUsername ∧ c.password = info.iceAudioPassword

section Credited
variable {info info' : SdpInfo} {sdp media line : Str}

private theorem fillCredentials_named (h : ¬ (info.iceVideoUsername.isEmpty ∧ info.iceAudioUsername.isEmpty)) :
    (Parser.fillCredentials info).iceVideoUsername ≠ [] ∧ (Parser.fillCredentials info).iceAudioUsername ≠ [] := by
  simp only [List.isEmpty_iff] at h
  unfold Parser.fillCredentials
  split_ifs with hv ha
  · have haudio : info.iceAudioUsername ≠ [] := fun ha => h ⟨List.isEmpty_iff.mp hv, ha⟩
    exact ⟨haudio, haudio⟩
  · have hvideo : info.iceVideoUsername ≠ [] := fun hv' => hv (List.isEmpty_iff.mpr hv')
    exact ⟨hvideo, hvideo⟩
  · exact ⟨fun hv' => hv (List.isEmpty_iff.mpr hv'), fun ha' => ha (List.isEmpty_iff.mpr ha')⟩

private theorem credited_fillCandidates (hv : info.iceVideoUsername ≠ []) (ha : info.iceAudioUsername ≠ []) :
    Credited (Parser.fillCandidates info) := by
  refine ⟨hv, ha, ?_, ?_⟩
  · intro c hc
    obtain ⟨c₀, -, rfl⟩ := List.mem_map.mp hc
    unfold Parser.setCandidate
    split_ifs with h
    · exact fun _ => ⟨rfl, rfl⟩
    · exact fun h' => absurd h' h
  · intro c hc
    obtain ⟨c₀, -, rfl⟩ := List.mem_map.mp hc
    unfold Parser.setCandidate
    split_ifs with h
    · intro h'
      have hne : MediaType.videoType = .audioType := h.symm.trans h'
      cases hne
    · exact fun _ => ⟨rfl, rfl⟩

private theorem credited_mapFeedback (hc : Credited info) (h : Parser.mapFeedback info line = .ok info') :
    Credited info' := by
  unfold Parser.mapFeedback at h
  simp only [bind_eq_ok] at h
  obtain ⟨_, -, _, -, h⟩ := h
  cases h
  exact ⟨hc.videoUsername, hc.audioUsername, hc.video, hc.audio⟩

theorem credited_processSdp (h : info.processSdp sdp media = .ok (true, info')) : Credited info' := by
  obtain ⟨st, -, hfinish⟩ := bind_eq_ok.mp h
  unfold Parser.finish at hfinish
  split_ifs at hfinish with hempty
  · cases hfinish
  · obtain ⟨info₁, hfold, heq⟩ := bind_eq_ok.mp hfinish
    cases heq
    obtain ⟨hv, ha⟩ := fillCredentials_named hempty
    exact foldlM_invariant (fun _ _ _ _ hc h => credited_mapFeedback hc h) (credited_fillCandidates hv ha) hfold

end Credited

namespace Negotiation

section Stages
variable {c c' : Negotiation} {rand : ℕ → ℕ} {videoKeys audioKeys : LocalKeys} {call : Rtp.Call} {sdp : Str}

def settled (c : Negotiation) : SdpInfo × Bool × Bool × WebRTCEvent :=
  (c.remoteSdp, c.trickleEnabled, c.connEventListener, c.globalState)

theorem settled_prepareTransports : (c.prepareTransports videoKeys audioKeys).settled = c.settled := by
  unfold prepareTransports
  dsimp only
  split_ifs <;> rfl

theorem settled_limitBandwidth : c.limitBandwidth.settled = c.settled := by
  unfold limitBandwidth
  split_ifs <;> rfl

theorem settled_pass {candidates : List CandidateInfo} {transport : Option Link} {f : Link → Negotiation}
    (hf : ∀ l, (f l).settled = c.settled) (h : (do
      let (_, l) ← c.pass candidates transport
      return f l) = .ok c') : c'.settled = c.settled := by
  obtain ⟨⟨res, l⟩, -, heq⟩ := bind_eq_ok.mp h
  cases heq
  exact hf l

private theorem settled_passVideo (h : c.passVideo = .ok c') : c'.settled = c.settled := by
  unfold passVideo at h
  split_ifs at h
  · exact settled_pass (f := fun l => { c with videoTransport := some l }) (fun _ => rfl) h
  · cases h
    rfl

private theorem settled_passAudio (h : c.passAudio = .ok c') : c'.settled = c.settled := by
  unfold passAudio at h
  split_ifs at h
  · exact settled_pass (f := fun l => { c with audioTransport := some l }) (fun _ => rfl) h
  · cases h
    rfl

private theorem settled_passCandidates (h : c.passCandidates = .ok c') : c'.settled = c.settled := by
  unfold passCandidates at h
  split_ifs at h
  · obtain ⟨c₁, h₁, h₂⟩ := bind_eq_ok.mp h
    exact (settled_passAudio h₂).trans (settled_passVideo h₁)
  · cases h
    rfl

private theorem settled_answer {n : Option (WebRTCEvent × Str)} (h : c.answer rand = .ok (n, c')) :
    c'.settled = c.settled := by
  unfold answer at h
  split_ifs at h
  · obtain ⟨⟨object, c₁⟩, h₁, heq⟩ := bind_eq_ok.mp h
    cases heq
    obtain ⟨⟨text, localSdp⟩, -, heq⟩ := bind_eq_ok.mp h₁
    cases heq
    rfl
  · cases h
    rfl

/-- A call that comes back says that the description was received, and keeps what was read of it. -/
theorem setRemoteSdp_cases {r : Bool} {n : Option (WebRTCEvent × Str)}
    (h : c.setRemoteSdp rand videoKeys audioKeys call sdp = .ok (r, n, c')) :
    r = true ∧ ∃ accepted, c.remoteSdp.processSdp sdp [] = .ok (accepted, c'.remoteSdp) ∧
      c'.settled = (c'.remoteSdp, c.settled.2) := by
  obtain ⟨⟨accepted, remoteSdp⟩, hread, h⟩ := bind_eq_ok.mp h
  obtain ⟨c₁, hpass, h⟩ := bind_eq_ok.mp h
  obtain ⟨⟨notified, c₂⟩, hanswer, heq⟩ := bind_eq_ok.mp h
  cases heq
  have hsettled : c₂.limitBandwidth.settled = (remoteSdp, c.settled.2) := by
    rw [settled_limitBandwidth, settled_answer hanswer, settled_passCandidates hpass, settled_prepareTransports]
    rfl
  have hremote : c₂.limitBandwidth.remoteSdp = remoteSdp := congrArg Prod.fst hsettled
  refine ⟨rfl, accepted, ?_, by rw [hremote, hsettled]⟩
  rw [hremote]
  exact inCall_eq_ok.mp hread

def signalling (c : Negotiation) (sending : Bool) : Signalling where
  bundle := c.bundle
  trickleEnabled := c.trickleEnabled
  sending := sending
  connEventListener := c.connEventListener
  globalState := c.globalState
  remoteSdp := c.remoteSdp
  localSdp := c.localSdp
  audioTransport := c.audioTransport.map (·.transport)
  videoTransport := c.videoTransport.map (·.transport)

/-- For the state of the connection the call is a negotiation. -/
theorem signalling_setRemoteSdp {r : Bool} {n : Option (WebRTCEvent × Str)}
    (h : c.setRemoteSdp rand videoKeys audioKeys call sdp = .ok (r, n, c')) (sending : Bool) :
    (c.signalling sending).step (.negotiate c'.bundle c'.remoteSdp c'.localSdp (c'.audioTransport.map (·.transport))
      (c'.videoTransport.map (·.transport))) = some ({}, c'.signalling sending) := by
  obtain ⟨-, -, -, hsettled⟩ := setRemoteSdp_cases h
  simp only [settled, Prod.mk.injEq, true_and] at hsettled
  obtain ⟨htrickle, hlistener, hstate⟩ := hsettled
  simp only [Signalling.step, signalling, htrickle, hlistener, hstate]

/-- Both descriptions, the bundle, the sources and the transports are the same. -/
structure Untouched (c c' : Negotiation) : Prop where
  remoteSdp : c'.remoteSdp = c.remoteSdp
  localSdp : c'.localSdp = c.localSdp
  bundle : c'.bundle = c.bundle
  videoSource : c'.ends.videoSourceSSRC = c.ends.videoSourceSSRC
  audioSource : c'.ends.audioSourceSSRC = c.ends.audioSourceSSRC
  videoTransport : c'.videoTransport = c.videoTransport
  audioTransport : c'.audioTransport = c.audioTransport

/-- A rejected description is reported and leaves no trace, and an accepted one leaves credentials. -/
structure Answers (rand : ℕ → ℕ) (videoKeys audioKeys : LocalKeys) (call : Rtp.Call) (sdp : Str) (c : Negotiation) :
    Prop where
  rejected : ∀ info, c.remoteSdp.processSdp sdp [] = .ok (false, info) →
    ∃ n c', c.setRemoteSdp rand videoKeys audioKeys call sdp = .ok (false, n, c') ∧ Untouched c c'
  accepted : ∀ info, c.remoteSdp.processSdp sdp [] = .ok (true, info) →
    ∀ r n c', c.setRemoteSdp rand videoKeys audioKeys call sdp = .ok (r, n, c') → Credited c'.remoteSdp

/-- The text is read to its end, and then there is no user name. -/
def Nameless (sdp : Str) (info : SdpInfo) : Prop :=
  Guarded (turns sdp) (start info []) ∧ Halts (turns sdp) (start info []) ∧ (behind info sdp []).named = false

theorem nameless_iff {info : SdpInfo} : Nameless sdp info ↔ ∃ info', info.processSdp sdp [] = .ok (false, info') := by
  constructor
  · rintro ⟨hg, hh, hnamed⟩
    obtain ⟨r, info', h⟩ := Parser.processSdp_of hg hh
    obtain rfl : r = false := (Parser.processSdp_outcome h).1.trans hnamed
    exact ⟨info', h⟩
  · rintro ⟨info', h⟩
    have hne : ∀ e, info.processSdp sdp [] ≠ .error e := by
      intro e
      rw [h]
      nofun
    exact ⟨Parser.guarded_iff.mp (Parser.processSdp_ne_iff.mp (hne _)),
      Parser.halts_iff.mp (Parser.processSdp_ne_iff.mp (hne _)), (Parser.processSdp_outcome h).1.symm⟩

/-- Descriptions are answered as they should be exactly if they are not rejected. -/
theorem answers_iff (rand : ℕ → ℕ) (videoKeys audioKeys : LocalKeys) (call : Rtp.Call) (sdp : Str) (c : Negotiation) :
    c.Answers rand videoKeys audioKeys call sdp ↔ ¬ Nameless sdp c.remoteSdp := by
  constructor
  · intro ha hn
    obtain ⟨info, h⟩ := nameless_iff.mp hn
    obtain ⟨n, c', hset, -⟩ := ha.rejected info h
    cases (setRemoteSdp_cases hset).1
  · intro hn
    refine ⟨fun info h => absurd (nameless_iff.mpr ⟨info, h⟩) hn, ?_⟩
    intro info h r n c' hset
    obtain ⟨-, accepted, hread, -⟩ := setRemoteSdp_cases hset
    obtain rfl : accepted = true := congrArg Prod.fst (Except.ok.inj (hread.symm.trans h))
    exact credited_processSdp hread

end Stages

/-- A connection before any description. -/
def fresh : Negotiation where
  trickleEnabled := true
  connEventListener := true
  remoteSdp := SdpInfo.new .sendRecv .sendRecv
  localSdp := SdpInfo.new .sendRecv .sendRecv
  audioEnabled := true
  videoEnabled := true
  ends := ⟨0, 0, 44444, 55543⟩
  statsVideoSSRC := 0
  statsAudioSSRC := 0
  rtcpProcessor := ⟨.empty, 0⟩

/-- A video section without credentials is rejected, which is not reported. -/
theorem not_answers_nameless :
    ¬ fresh.Answers (fun _ => 0) ⟨[], [], []⟩ ⟨[], [], []⟩ ⟨⟨0, 0, 0, 0⟩, ⟨0, 0⟩, ⟨0, 0⟩, 0⟩ "m=video\n".toList := by
  have hn : Nameless "m=video\n".toList fresh.remoteSdp :=
    ⟨by decide +kernel, by decide +kernel, by decide +kernel⟩
  intro ha
  obtain ⟨info, h⟩ := nameless_iff.mp hn
  obtain ⟨n, c', hset, -⟩ := ha.rejected info h
  cases (setRemoteSdp_cases hset).1

end Negotiation

/-! ## The payload types of the media path -/

def table (m : OrdMap ℤ ℤ) (n : ℕ) : Option ℕ := (m.find? n).map Int.toNat

def payloadTypes (info : SdpInfo) : PayloadTypes where
  inOutPTMap := table info.inOutPTMap
  outInPTMap := table info.outInPTMap
  payloadVector := info.payloadVector.map (·.payloadType.toNat)

def Nonneg (m : OrdMap ℤ ℤ) : Prop := ∀ k v, m.find? k = some v → 0 ≤ v

section PayloadTypes
variable {m : OrdMap ℤ ℤ} {rs : List RtpMap} {info : SdpInfo} {n p : ℕ}

theorem isSome_table : (table m n).isSome = (m.find? n).isSome := Option.isSome_map

private theorem table_touch : table (m.touch n 0) =
    if (table m n).isSome then table m else Function.update (table m) n (some 0) := by
  rw [isSome_table]
  unfold OrdMap.touch
  split_ifs with h
  · rfl
  · funext k
    rw [table, OrdMap.find?_set, Function.update_apply]
    by_cases hk : n = k
    · rw [if_pos (congrArg Nat.cast hk), if_pos hk.symm]
      rfl
    · rw [if_neg fun h => hk (Int.natCast_inj.mp h), if_neg (Ne.symm hk)]
      rfl

private theorem table_eq_some_iff (hpos : Nonneg m) : table m n = some p ↔ m.find? n = some (p : ℤ) := by
  rw [table, Option.map_eq_some_iff]
  constructor
  · rintro ⟨v, hv, rfl⟩
    rw [hv, Int.toNat_of_nonneg (hpos _ _ hv)]
  · intro h
    exact ⟨p, h, Int.toNat_natCast p⟩

theorem Nonneg.touch (hpos : Nonneg m) : Nonneg (m.touch n 0) := by
  intro k v
  unfold OrdMap.touch
  split_ifs
  · exact hpos k v
  · rw [OrdMap.find?_set]
    split_ifs
    · intro h
      obtain rfl := Option.some.inj h
      exact le_rfl
    · exact hpos k v

private theorem supportLoop_table (hsmall : ∀ rtp ∈ rs, rtp.payloadType.toNat < 2 ^ 31) (hpos : Nonneg m) :
    PayloadTypes.supportLoop p (rs.map (·.payloadType.toNat)) (table m) =
      ((SdpInfo.supportLoop p rs m).1, table (SdpInfo.supportLoop p rs m).2) := by
  induction rs generalizing m with
  | nil => rfl
  | cons rtp rs ih =>
    obtain ⟨hrtp, hrs⟩ := List.forall_mem_cons.mp hsmall
    have hkey : SdpInfo.toInt rtp.payloadType = (rtp.payloadType.toNat : ℤ) := by rw [Parser.toInt_eq, if_pos hrtp]
    have htouch := hpos.touch (n := rtp.payloadType.toNat)
    simp only [List.map_cons, PayloadTypes.supportLoop, SdpInfo.supportLoop, hkey, ← table_touch,
      table_eq_some_iff htouch]
    split_ifs
    · rfl
    · exact ih hrs htouch

/-- The media path asks the description, if its payload types are numbers that an `int` can hold. -/
theorem supportPayloadType_payloadTypes (hsmall : ∀ rtp ∈ info.payloadVector, rtp.payloadType.toNat < 2 ^ 31)
    (hpos : Nonneg info.inOutPTMap) : (payloadTypes info).supportPayloadType p =
      ((info.supportPayloadType p).1, payloadTypes (info.supportPayloadType p).2) := by
  unfold PayloadTypes.supportPayloadType SdpInfo.supportPayloadType
  rw [show ((payloadTypes info).inOutPTMap p).isSome = (info.inOutPTMap.find? p).isSome from isSome_table]
  split_ifs
  · have hloop := supportLoop_table (p := p) hsmall hpos
    simp only [payloadTypes, hloop]
  · rfl

end PayloadTypes
end Sfup.Core
