import Sfup.Lib.Simulation
import Sfup.Sdp.ProcessSdp

/-! Which branches a line takes, and what they do to the parameters of the session. -/
namespace Sfup.Sdp.Parser

/-- What a line can change of the parameters of the session and its media, and whether the feedback lines
kept so far can be read behind the loop. -/
structure View where
  mtype : MediaType
  isBundle : Bool
  bundleTags : List BundleTag
  fingerprint : Str
  audioUsername : Str
  audioPassword : Str
  videoUsername : Str
  videoPassword : Str
  audioDirection : StreamDirection
  videoDirection : StreamDirection
  extMaps : List ExtMap
  cryptos : List CryptoInfo
  readable : Bool

def view (st : Parser) : View where
  mtype := st.mtype
  isBundle := st.info.isBundle
  bundleTags := st.info.bundleTags
  fingerprint := st.info.fingerprint
  audioUsername := st.info.iceAudioUsername
  audioPassword := st.info.iceAudioPassword
  videoUsername := st.info.iceVideoUsername
  videoPassword := st.info.iceVideoPassword
  audioDirection := st.info.audioDirection
  videoDirection := st.info.videoDirection
  extMaps := st.info.extMapVector
  cryptos := st.info.cryptoVector
  readable := st.tmpFeedbackVector.all fun line => 3 ≤ (splitOneOf line [' ', ':'] 2).length

/-- The markers whose branches change the view or the codecs, or can fail. -/
def Branch.markers : Branch → List Str
  | direction => [Marker.recvonly, Marker.sendonly, Marker.sendrecv]
  | fingerprint => [Marker.fp]
  | group => [Marker.group]
  | video => [Marker.video]
  | audio => [Marker.audio]
  | candidate => [Marker.cand]
  | crypto => [Marker.crypto]
  | user => [Marker.iceUser]
  | pass => [Marker.icePass]
  | mid => [Marker.mid]
  | rtpmap => [Marker.rtpmap]
  | extMap => [Marker.extmap]
  | feedback => [Marker.rtcpfb]
  | fmtp => [Marker.fmtp]
  | rtcpMux | profile | ssrc | ssrcGroup | bandwidth => []

def activeMarkers : List Str := Branch.all.flatMap Branch.markers

/-- The text holds none of the markers of these branches. -/
def Spares (bs : List Branch) (line : Str) : Prop := ∀ b ∈ bs, ∀ m ∈ b.markers, ¬ m <:+: line

instance {bs : List Branch} {line : Str} : Decidable (Spares bs line) :=
  inferInstanceAs (Decidable (∀ b ∈ bs, ∀ m ∈ b.markers, ¬ m <:+: line))

/-- The text holds no marker of a branch other than `b`. -/
abbrev Takes (line : Str) (b : Branch) : Prop := Spares (Branch.all.erase b) line

section Markers
variable {a w m : Str} {d : Char} {b : Branch} {bs bs' : List Branch}

theorem mem_all (b : Branch) : b ∈ Branch.all := by cases b <;> decide

theorem mem_activeMarkers (hm : m ∈ b.markers) : m ∈ activeMarkers := List.mem_flatMap.mpr ⟨b, mem_all b, hm⟩

theorem Spares.mono (h : Spares bs w) (hs : bs' ⊆ bs) : Spares bs' w := fun b hb => h b (hs hb)

theorem spares_of_not_mem (h : '=' ∉ w) : Spares bs w := by
  have hmem : ∀ m ∈ activeMarkers, '=' ∈ m := by decide
  intro b _ m hm hw
  exact h (hw.subset (hmem m (mem_activeMarkers hm)))

theorem Spares.append_colon (ha : Spares bs (a ++ [':'])) (hw : Spares bs w) : Spares bs (a ++ ':' :: w) := by
  have hlast : ∀ m ∈ activeMarkers, ':' ∉ m.dropLast := by decide
  intro b hb m hm h
  rcases (Text.infix_append_cons (hlast m (mem_activeMarkers hm))).mp h with h | h
  · exact ha b hb m hm h
  · exact hw b hb m hm h

theorem Spares.append (hd : ∀ m ∈ activeMarkers, d ∉ m) (ha : Spares bs a) (hw : Spares bs w) :
    Spares bs (a ++ d :: w) := by
  intro b hb m hm h
  have hout := hd m (mem_activeMarkers hm)
  rcases (Text.infix_append_cons fun hmem => hout (List.dropLast_subset m hmem)).mp h with h | h
  · exact ha b hb m hm (Text.infix_concat_of_not_mem hout h)
  · exact hw b hb m hm h

theorem Spares.append_blank (ha : Spares bs a) (hw : Spares bs w) : Spares bs (a ++ ' ' :: w) :=
  ha.append (by decide) hw

theorem Spares.append_slash (ha : Spares bs a) (hw : Spares bs w) : Spares bs (a ++ '/' :: w) :=
  ha.append (by decide) hw

end Markers

section Skipped
variable {marker line : Str} {act : Parser → Except Fault Parser} {b : Branch}

theorem part_of_lt {parts : List Str} {i : ℕ} (h : i < parts.length) : part parts i = .ok parts[i] := by
  rw [part, List.getElem?_eq_getElem h]

theorem part_of_le {parts : List Str} {i : ℕ} (h : parts.length ≤ i) : part parts i = .error .outOfRange := by
  rw [part, List.getElem?_eq_none h]

theorem part_bind_error {α : Type} {parts : List Str} {i : ℕ} {f : Str → Except Fault α}
    (h : ∀ w, f w = .error .outOfRange) : part parts i >>= f = .error .outOfRange := by
  unfold part
  cases parts[i]? with
  | none => rfl
  | some w => exact h w

theorem onFound_of (h : marker <:+: line) : onFound marker line act = act := funext fun _ => if_pos h

theorem onFound_of_not (h : ¬ marker <:+: line) : onFound marker line act = .ok := funext fun _ => if_neg h

theorem simulates_found {f : View → Option View} (h : marker <:+: line) (hact : Simulates view act f) :
    Simulates view (onFound marker line act) f := by
  rw [onFound_of h]
  exact hact

theorem simulates_onFound (h : marker <:+: line → Simulates view act some) :
    Simulates view (onFound marker line act) some := by
  by_cases hf : marker <:+: line
  · rw [onFound_of hf]
    exact h hf
  · rw [onFound_of_not hf]
    exact Simulates.ok

def SsrcReadable (line : Str) : Prop := Marker.ssrctag <:+: line → 2 ≤ (splitOneOf line [' ', ':'] 2).length

instance {line : Str} : Decidable (SsrcReadable line) :=
  inferInstanceAs (Decidable (Marker.ssrctag <:+: line → 2 ≤ (splitOneOf line [' ', ':'] 2).length))

theorem simulates_ssrcBranch (h : SsrcReadable line) : Simulates view (ssrcBranch line) some := by
  apply simulates_onFound
  intro hf st
  have hlen : 1 < (splitOneOf line [' ', ':'] 2).length := h hf
  simp only [part_of_lt hlen]
  split_ifs <;> rfl

private theorem simulates_ssrcGroupBranch : Simulates view (ssrcGroupBranch line) some := by
  apply simulates_onFound
  intro _ st
  simp only []
  split_ifs with h
  · rw [part_of_lt (by omega)]
    rfl
  · rfl

theorem simulates_fmtpBranch : Simulates view (fmtpBranch line) some := by
  apply simulates_onFound
  intro _ st
  simp only []
  split_ifs with hge hfour
  · rw [part_of_lt (by omega), part_of_lt (by omega)]
    rfl
  · rw [part_of_lt (by omega), part_of_lt (by omega), part_of_lt (by omega)]
    rfl
  · rfl

private theorem simulates_bandwidthBranch : Simulates view (bandwidthBranch line) some := by
  apply simulates_onFound
  intro _ st
  simp only []
  split_ifs with h
  · rw [part_of_lt (by omega)]
    rfl
  · rfl

/-- A branch whose markers are not on the line leaves the view as it is. -/
theorem simulates_skip (hs : SsrcReadable line) (h : ∀ m ∈ b.markers, ¬ m <:+: line) :
    Simulates view (b.run line) some := by
  cases b with
  | rtcpMux => exact simulates_onFound fun _ _ => rfl
  | profile => exact simulates_onFound fun _ _ => rfl
  | ssrc => exact simulates_ssrcBranch hs
  | ssrcGroup => exact simulates_ssrcGroupBranch
  | fmtp => exact simulates_fmtpBranch
  | bandwidth => exact simulates_bandwidthBranch
  | direction =>
    intro st
    simp only [Branch.markers, List.mem_cons, List.not_mem_nil, or_false, forall_eq_or_imp, forall_eq] at h
    simp only [Branch.run, directionBranch, if_neg h.1, if_neg h.2.1, if_neg h.2.2]
    rfl
  | fingerprint | group | video | audio | candidate | crypto | user | pass | mid | rtpmap | extMap | feedback =>
    exact simulates_onFound fun hf => absurd hf (h _ List.mem_cons_self)

theorem simulates_processLine {f : View → Option View} (hs : SsrcReadable line) (ht : Takes line b)
    (hb : Simulates view (b.run line) f) : Simulates view (processLine · line) f :=
  Simulates.only (mem_all b) (by decide) hb fun b' hb' hne =>
    simulates_skip hs (ht b' ((List.mem_erase_of_ne hne).mpr hb'))

end Skipped

section Feedback
variable {line : Str} {lines : List Str}

theorem mapFeedback_ok (info : SdpInfo) (h : 3 ≤ (splitOneOf line [' ', ':'] 2).length) :
    ∃ ps, mapFeedback info line = .ok { info with payloadVector := ps } := by
  unfold mapFeedback
  simp only [part_of_lt (show 1 < (splitOneOf line [' ', ':'] 2).length by omega),
    part_of_lt (show 2 < (splitOneOf line [' ', ':'] 2).length by omega)]
  exact ⟨_, rfl⟩

private theorem mapFeedback_error (info : SdpInfo) (h : ¬ 3 ≤ (splitOneOf line [' ', ':'] 2).length) :
    mapFeedback info line = .error .outOfRange := by
  refine part_bind_error fun _ => ?_
  rw [part_of_le (by omega)]
  rfl

theorem foldlM_mapFeedback (info : SdpInfo) (h : ∀ l ∈ lines, 3 ≤ (splitOneOf l [' ', ':'] 2).length) :
    ∃ ps, lines.foldlM mapFeedback info = .ok { info with payloadVector := ps } := by
  induction lines generalizing info with
  | nil => exact ⟨info.payloadVector, rfl⟩
  | cons l ls ih =>
    obtain ⟨ps, hps⟩ := mapFeedback_ok info (h l List.mem_cons_self)
    obtain ⟨qs, hqs⟩ := ih { info with payloadVector := ps } fun x hx => h x (List.mem_cons_of_mem _ hx)
    refine ⟨qs, ?_⟩
    rw [List.foldlM_cons, hps]
    exact hqs

theorem foldlM_mapFeedback_error (info : SdpInfo) {l : Str} (hl : l ∈ lines) (h : ¬ 3 ≤ (splitOneOf l [' ', ':'] 2).length) :
    lines.foldlM mapFeedback info = .error .outOfRange := by
  induction lines generalizing info with
  | nil => cases hl
  | cons k ls ih =>
    rw [List.foldlM_cons]
    by_cases hk : 3 ≤ (splitOneOf k [' ', ':'] 2).length
    · obtain ⟨ps, hps⟩ := mapFeedback_ok info hk
      rw [hps, ok_bind]
      refine ih _ ((List.mem_cons.mp hl).resolve_left ?_)
      rintro rfl
      exact h hk
    · rw [mapFeedback_error info hk]
      rfl

end Feedback

section Codecs
open SdpInfo

/-- What an `rtpmap` line says of a codec. -/
structure Codec where
  payloadType : UInt32
  encodingName : Str
  clockRate : UInt32
  deriving DecidableEq

/-- The internal codec of that name and clock rate. -/
def internalOf (c : Codec) : Option RtpMap :=
  internalPayloadVector.find? fun r => r.encodingName = c.encodingName ∧ r.clockRate = c.clockRate

private theorem foldl_mapCodec_of_not {c : Codec} {rs : List RtpMap} {x : SdpInfo × Option UInt32}
    (h : ∀ r ∈ rs, ¬ (r.encodingName = c.encodingName ∧ r.clockRate = c.clockRate)) :
    rs.foldl (mapCodec c.payloadType c.encodingName c.clockRate) x = x := by
  induction rs with
  | nil => rfl
  | cons r rs ih =>
    obtain ⟨hr, hrs⟩ := List.forall_mem_cons.mp h
    rw [List.foldl_cons, mapCodec, if_neg hr]
    exact ih hrs

/-- The internal codecs differ in name or clock rate, so that the loop over them finds at most one. -/
theorem foldl_mapCodec (c : Codec) (info : SdpInfo) :
    internalPayloadVector.foldl (mapCodec c.payloadType c.encodingName c.clockRate) (info, none) =
      match internalOf c with
      | none => (info, none)
      | some r =>
        ({ info with
            outInPTMap := info.outInPTMap.set (toInt c.payloadType) (toInt r.payloadType)
            inOutPTMap := info.inOutPTMap.set (toInt r.payloadType) (toInt c.payloadType) }, some r.channels) := by
  have hdistinct : internalPayloadVector.Pairwise fun r r' =>
      ¬ (r'.encodingName = r.encodingName ∧ r'.clockRate = r.clockRate) := by decide +kernel
  unfold internalOf
  cases hfind : internalPayloadVector.find? fun r =>
      decide (r.encodingName = c.encodingName ∧ r.clockRate = c.clockRate) with
  | none =>
    refine foldl_mapCodec_of_not fun r hr => ?_
    simpa using List.find?_eq_none.mp hfind r hr
  | some r =>
    obtain ⟨hr, before, after, hsplit, hbefore⟩ := List.find?_eq_some_iff_append.mp hfind
    have hname := of_decide_eq_true hr
    rw [hsplit] at hdistinct ⊢
    have hafter : ∀ r' ∈ after, ¬ (r'.encodingName = c.encodingName ∧ r'.clockRate = c.clockRate) := by
      intro r' hr' h
      have hpair := (List.pairwise_cons.mp (List.pairwise_append.mp hdistinct).2.1).1 r' hr'
      exact hpair ⟨h.1.trans hname.1.symm, h.2.trans hname.2.symm⟩
    have hfirst : ∀ r' ∈ before, ¬ (r'.encodingName = c.encodingName ∧ r'.clockRate = c.clockRate) := by
      intro r' hr'
      exact of_decide_eq_false ((Bool.not_eq_true' _).mp (hbefore r' hr'))
    rw [List.foldl_append, foldl_mapCodec_of_not hfirst, List.foldl_cons, mapCodec, if_pos hname,
      foldl_mapCodec_of_not hafter]

/-- A codec goes to the maps and the vector, if it is one of the internal ones. -/
theorem addCodec_eq (c : Codec) (st : Parser) : addCodec c.payloadType c.encodingName c.clockRate st =
    match internalOf c with
    | none => st
    | some r =>
      { st with info := { st.info with
        outInPTMap := st.info.outInPTMap.set (toInt c.payloadType) (toInt r.payloadType)
        inOutPTMap := st.info.inOutPTMap.set (toInt r.payloadType) (toInt c.payloadType)
        videoCodecs := if st.mtype = .videoType then st.info.videoCodecs + 1 else st.info.videoCodecs
        audioCodecs := if st.mtype = .videoType then st.info.audioCodecs else st.info.audioCodecs + 1
        payloadVector := st.info.payloadVector ++ [{
          payloadType := c.payloadType, encodingName := c.encodingName, clockRate := c.clockRate
          mediaType := st.mtype, channels := r.channels }] } } := by
  unfold addCodec
  rw [foldl_mapCodec]
  cases internalOf c <;> rfl

end Codecs
end Sfup.Sdp.Parser
