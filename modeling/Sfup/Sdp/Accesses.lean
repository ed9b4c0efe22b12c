import Sfup.Lib.Counter
import Sfup.Sdp.Collecting

/-! Where reading a description fails: which pieces each line must have, and where the loop over the tags does not
end. -/
namespace Sfup.Sdp.Parser
open SdpInfo

/-- What the lines read so far decide about the next ones. -/
structure Context where
  mtype : MediaType
  isBundle : Bool
  tags : ℕ
  candidates : ℕ
  videoSsrc : UInt32
  audioSsrc : UInt32
  videoUsername : Str
  audioUsername : Str
  feedbackLines : List Str

def context (st : Parser) : Context where
  mtype := st.mtype
  isBundle := st.info.isBundle
  tags := st.info.bundleTags.length
  candidates := st.info.candidateVector.length
  videoSsrc := st.info.videoSsrc
  audioSsrc := st.info.audioSsrc
  videoUsername := st.info.iceVideoUsername
  audioUsername := st.info.iceAudioUsername
  feedbackLines := st.tmpFeedbackVector

def valueOf (line : Str) : Option Str := (splitOneOf line [':'] 1)[1]?

/-- The pieces that `processCandidate` reads are there. -/
def readableCandidate (pieces : List Str) : Bool :=
  4 ≤ pieces.length && (
    (pieces[3]? ≠ some "UDP".toList ∧ pieces[3]? ≠ some "udp".toList) || 8 ≤ pieces.length && (
      pieces[7]? ≠ some "typ".toList || 9 ≤ pieces.length && (
        (pieces[8]? ≠ some "srflx".toList ∧ pieces[8]? ≠ some "relay".toList) || 13 ≤ pieces.length)))

/-- A source is read in a section that has none yet. -/
def Context.lacksSsrc (c : Context) : Bool :=
  c.mtype = .videoType ∧ c.videoSsrc = 0 ∨ c.mtype = .audioType ∧ c.audioSsrc = 0

def Branch.readable : Branch → Str → Context → Bool
  | fingerprint, line, _ => Marker.fp <:+: line → (valueOf line).any fun v => 2 ≤ (splitOneOf v [' '] 0).length
  | group, line, _ => Marker.group <:+: line → 2 ≤ (splitOneOf line [':', ' ', ' ', '\r', '\n'] 10).length
  | candidate, line, _ => Marker.cand <:+: line → readableCandidate (splitOneOf line [' ', ':'] 0)
  | crypto, line, _ => Marker.crypto <:+: line → 5 ≤ (splitOneOf line [' ', ':'] 0).length
  | user, line, _ => Marker.iceUser <:+: line → (valueOf line).isSome
  | pass, line, _ => Marker.icePass <:+: line → (valueOf line).isSome
  | ssrc, line, c => Marker.ssrctag <:+: line ∧ c.lacksSsrc → 2 ≤ (splitOneOf line [' ', ':'] 2).length
  | rtpmap, line, _ => Marker.rtpmap <:+: line → 4 ≤ (splitOneOf line [' ', ':', '/', '\n'] 4).length
  | extMap, line, _ => Marker.extmap <:+: line → (splitOneOf line [' ', ':', '='] 3).length ≠ 3
  | _, _, _ => true

/-- The 8-bit counter of the loop over the tags does not reach their number. -/
def Branch.stuck : Branch → Str → Context → Bool
  | mid, line, c =>
    Marker.mid <:+: line ∧ 2 ≤ (splitOneOf line [':', ' ', '\r', '\n'] 4).length ∧ c.isBundle ∧ 256 ≤ c.tags
  | _, _, _ => false

/-- What a branch makes of the context. -/
def Branch.next : Branch → Str → Context → Context
  | group, line, c =>
    if Marker.group <:+: line then
      let parts := splitOneOf line [':', ' ', ' ', '\r', '\n'] 10
      { c with
        isBundle := if parts[1]? = some "BUNDLE".toList then true else c.isBundle
        tags := c.tags + (parts.length - 2) }
    else c
  | candidate, line, c => { c with candidates := c.candidates + addedOthers .candidate line }
  | video, line, c => if Marker.video <:+: line then { c with mtype := .videoType } else c
  | audio, line, c => if Marker.audio <:+: line then { c with mtype := .audioType } else c
  | user, line, c =>
    if Marker.iceUser <:+: line then
      let username := ((valueOf line).bind fun v => (splitOneOf v ['\r'] 1)[0]?).getD []
      if c.mtype = .audioType then { c with audioUsername := username } else { c with videoUsername := username }
    else c
  | ssrc, line, c =>
    if Marker.ssrctag <:+: line then
      let value := strtoul ((splitOneOf line [' ', ':'] 2)[1]?.getD [])
      if c.mtype = .videoType ∧ c.videoSsrc = 0 then { c with videoSsrc := value }
      else if c.mtype = .audioType ∧ c.audioSsrc = 0 then { c with audioSsrc := value }
      else c
    else c
  | feedback, line, c => if Marker.rtcpfb <:+: line then { c with feedbackLines := c.feedbackLines ++ [line] } else c
  | _, _, c => c

def Branch.check (b : Branch) (line : Str) (c : Context) : Except Fault Context :=
  if ¬ b.readable line c then .error .outOfRange else if b.stuck line c then .error .endless else .ok (b.next line c)

section Branches
variable {line marker : Str} {act : Parser → Except Fault Parser} {b : Branch} {parts : List Str} {i : ℕ}

theorem error_bind {α β : Type} (e : Fault) (f : α → Except Fault β) : Except.error e >>= f = .error e := rfl

variable {c : Context}

theorem check_of_not (h : b.readable line c = false) : b.check line c = .error .outOfRange := by
  rw [Branch.check, if_pos (by simp [h])]

theorem check_of (h : b.readable line c) (hs : b.stuck line c = false) : b.check line c = .ok (b.next line c) := by
  rw [Branch.check, if_neg (by simp [h]), if_neg (by simp [hs])]

theorem mirrors_onFound (hfound : marker <:+: line → Mirrors context act (b.check line))
    (hnot : ¬ marker <:+: line → ∀ c, b.check line c = .ok c) :
    Mirrors context (onFound marker line act) (b.check line) := by
  by_cases hf : marker <:+: line
  · rw [onFound_of hf]
    exact hfound hf
  · rw [onFound_of_not hf]
    intro st
    rw [hnot hf]
    rfl

theorem mirrors_direction : Mirrors context (directionBranch line) (Branch.direction.check line) := by
  intro st
  have hset : ∀ d, context (setDirection d st) = context st := by
    intro d
    unfold setDirection
    split_ifs <;> rfl
  have hcheck : Branch.direction.check line (context st) = .ok (context st) := rfl
  unfold directionBranch
  rw [hcheck]
  split_ifs <;> simp only [Except.map, hset]

theorem mirrors_fingerprint : Mirrors context (fingerprintBranch line) (Branch.fingerprint.check line) := by
  refine mirrors_onFound (fun hf st => ?_) fun hf c => check_of (by simp [Branch.readable, hf]) rfl
  unfold fingerprintValue
  cases hv : (splitOneOf line [':'] 1)[1]? with
  | none =>
    rw [check_of_not (by simp [Branch.readable, hf, valueOf, hv]), part, hv]
    rfl
  | some v =>
    rw [part_eq_ok.mpr hv, ok_bind]
    by_cases hlen : 1 < (splitOneOf v [' '] 0).length
    · rw [part_of_lt hlen, check_of (by simp [Branch.readable, hf, valueOf, hv]; omega) rfl]
      rfl
    · rw [part_of_le (by omega), check_of_not (by simp [Branch.readable, hf, valueOf, hv]; omega)]
      rfl

theorem mirrors_group : Mirrors context (groupBranch line) (Branch.group.check line) := by
  refine mirrors_onFound (fun hf st => ?_) fun hf c => ?_
  · by_cases hlen : 1 < (splitOneOf line [':', ' ', ' ', '\r', '\n'] 10).length
    · rw [check_of (by simp [Branch.readable, hf]; omega) rfl]
      simp only [part_of_lt hlen, ok_bind, Branch.next, if_pos hf, List.getElem?_eq_getElem hlen, Option.some.injEq]
      simp only [context, Except.map, pure, Except.pure, List.length_append, List.length_map, List.length_drop]
    · rw [check_of_not (by simp [Branch.readable, hf]; omega)]
      simp only [part_of_le (Nat.le_of_not_lt hlen), error_bind, Except.map]
  · rw [check_of (by simp [Branch.readable, hf]) rfl, Branch.next, if_neg hf]

theorem related_iff (w : Str) :
    hostTypeOf w = .srflx ∨ hostTypeOf w = .relay ↔ ¬ (w ≠ "srflx".toList ∧ w ≠ "relay".toList) := by
  unfold hostTypeOf
  split_ifs <;> simp_all

theorem processCandidate_of (t : MediaType) (info : SdpInfo) (h : readableCandidate parts) :
    ∃ r, processCandidate parts t info = .ok r := by
  simp only [readableCandidate, Bool.and_eq_true, Bool.or_eq_true, decide_eq_true_eq] at h
  obtain ⟨hfour, h⟩ := h
  unfold processCandidate
  simp only [part_of_lt (show 1 < parts.length by omega), part_of_lt (show 2 < parts.length by omega),
    part_of_lt (show 3 < parts.length by omega), ok_bind]
  simp only [List.getElem?_eq_getElem (show 3 < parts.length by omega), ne_eq, Option.some.injEq] at h
  split_ifs with hudp
  · exact ⟨_, rfl⟩
  obtain ⟨height, h⟩ := h.resolve_left hudp
  simp only [part_of_lt (show 4 < parts.length by omega), part_of_lt (show 5 < parts.length by omega),
    part_of_lt (show 6 < parts.length by omega), part_of_lt (show 7 < parts.length by omega), ok_bind]
  simp only [List.getElem?_eq_getElem (show 7 < parts.length by omega), Option.some.injEq] at h
  split_ifs with htyp
  · exact ⟨_, rfl⟩
  obtain ⟨hnine, h⟩ := h.resolve_left htyp
  simp only [List.getElem?_eq_getElem (show 8 < parts.length by omega), Option.some.injEq] at h
  simp only [part_of_lt (show 8 < parts.length by omega), ok_bind]
  split_ifs with hrelated
  · have hlen := h.resolve_left ((related_iff _).mp hrelated)
    simp only [part_of_lt (show 10 < parts.length by omega), part_of_lt (show 12 < parts.length by omega), ok_bind]
    exact ⟨_, rfl⟩
  · exact ⟨_, rfl⟩

theorem processCandidate_of_not (t : MediaType) (info : SdpInfo) (h : readableCandidate parts = false) :
    processCandidate parts t info = .error .outOfRange := by
  simp only [readableCandidate, Bool.and_eq_false_iff, Bool.or_eq_false_iff, decide_eq_false_iff_not] at h
  unfold processCandidate
  refine part_bind_error fun _ => part_bind_error fun _ => ?_
  by_cases hfour : 3 < parts.length
  swap
  · exact part_of_le (Nat.le_of_not_lt hfour) ▸ rfl
  obtain ⟨hudp, h⟩ := h.resolve_left (by omega)
  simp only [List.getElem?_eq_getElem hfour, ne_eq, Option.some.injEq] at hudp
  rw [part_of_lt hfour, ok_bind, if_neg hudp]
  refine part_bind_error fun _ => part_bind_error fun _ => part_bind_error fun _ => ?_
  by_cases height : 7 < parts.length
  swap
  · exact part_of_le (Nat.le_of_not_lt height) ▸ rfl
  obtain ⟨htyp, h⟩ := h.resolve_left (by omega)
  simp only [List.getElem?_eq_getElem height, ne_eq, Option.some.injEq] at htyp
  rw [part_of_lt height, ok_bind, if_neg htyp]
  by_cases hnine : 8 < parts.length
  swap
  · exact part_of_le (Nat.le_of_not_lt hnine) ▸ rfl
  obtain ⟨hrelated, hlen⟩ := h.resolve_left (by omega)
  simp only [List.getElem?_eq_getElem hnine, ne_eq, Option.some.injEq] at hrelated
  rw [part_of_lt hnine, ok_bind, if_pos ((related_iff _).mpr hrelated)]
  refine part_bind_error fun _ => ?_
  rw [part_of_le (by omega)]
  rfl

theorem mirrors_candidate : Mirrors context (candidateBranch line) (Branch.candidate.check line) := by
  refine mirrors_onFound (fun hf st => ?_) fun hf c => ?_
  · cases hr : readableCandidate (splitOneOf line [' ', ':'] 0) with
    | true =>
      obtain ⟨⟨r, info⟩, hp⟩ := processCandidate_of st.mtype st.info hr
      obtain ⟨cs, rfl, hlen⟩ := processCandidate_keeps hp
      rw [check_of (by simp [Branch.readable, hr]) rfl, hp, ok_bind, Branch.next, addedOthers]
      simp only [hf, true_and, ← hlen]
      simp only [context, Except.map, pure, Except.pure, List.length_append]
    | false =>
      rw [check_of_not (by simp [Branch.readable, hf, hr]), processCandidate_of_not st.mtype st.info hr]
      rfl
  · rw [check_of (by simp [Branch.readable, hf]) rfl, Branch.next, addedOthers, if_neg (fun h => hf h.1)]
    rfl

theorem mirrors_crypto : Mirrors context (cryptoBranch line) (Branch.crypto.check line) := by
  refine mirrors_onFound (fun hf st => ?_) fun hf c => check_of (by simp [Branch.readable, hf]) rfl
  by_cases hlen : 4 < (splitOneOf line [' ', ':'] 0).length
  · rw [check_of (by simp [Branch.readable]; omega) rfl]
    simp only [part_of_lt hlen, part_of_lt (show 2 < (splitOneOf line [' ', ':'] 0).length by omega), ok_bind]
    rfl
  · rw [check_of_not (by simp [Branch.readable, hf]; omega)]
    simp only []
    rw [part_bind_error fun _ => part_of_le (Nat.le_of_not_lt hlen) ▸ rfl]
    rfl

/-- Something stands behind the colon, or the line cannot be read. -/
theorem credential_eq (line : Str) : credential line =
    match (valueOf line).bind fun v => (splitOneOf v ['\r'] 1)[0]? with
    | some w => .ok w
    | none => .error .outOfRange := by
  unfold credential part valueOf
  cases (splitOneOf line [':'] 1)[1]? with
  | none => rfl
  | some v => rfl

theorem isSome_credential {v : Str} (h : valueOf line = some v) : ∃ w, (splitOneOf v ['\r'] 1)[0]? = some w := by
  have hv : v ≠ [] := by
    rw [valueOf, splitOneOf_eq] at h
    exact Text.ne_nil_of_split_one h
  have hne : splitOneOf v ['\r'] 1 ≠ [] := by
    rw [splitOneOf_eq]
    exact Text.split_ne_nil _ hv
  exact ⟨_, List.getElem?_eq_getElem (List.length_pos_iff.mpr hne)⟩

theorem mirrors_user : Mirrors context (userBranch line) (Branch.user.check line) := by
  refine mirrors_onFound (fun hf st => ?_) fun hf c => ?_
  · rw [credential_eq]
    cases hv : valueOf line with
    | none =>
      rw [check_of_not (by simp [Branch.readable, hf, hv])]
      rfl
    | some v =>
      obtain ⟨w, hw⟩ := isSome_credential hv
      rw [check_of (by simp [Branch.readable, hv]) rfl]
      simp only [Option.bind_some, hw, ok_bind, Branch.next, if_pos hf, hv]
      show Except.map context (.ok _) = _
      by_cases hm : st.mtype = .audioType
      · rw [if_pos hm, if_pos (show (context st).mtype = .audioType from hm)]
        rfl
      · rw [if_neg hm, if_neg (show ¬ (context st).mtype = .audioType from hm)]
        rfl
  · rw [check_of (by simp [Branch.readable, hf]) rfl, Branch.next, if_neg hf]

theorem mirrors_pass : Mirrors context (passBranch line) (Branch.pass.check line) := by
  refine mirrors_onFound (fun hf st => ?_) fun hf c => check_of (by simp [Branch.readable, hf]) rfl
  rw [credential_eq]
  cases hv : valueOf line with
  | none =>
    rw [check_of_not (by simp [Branch.readable, hf, hv])]
    rfl
  | some v =>
    obtain ⟨w, hw⟩ := isSome_credential hv
    rw [check_of (by simp [Branch.readable, hv]) rfl]
    simp only [Option.bind_some, hw, ok_bind]
    show Except.map context (.ok _) = _
    split_ifs <;> rfl

theorem mirrors_mid : Mirrors context (midBranch line) (Branch.mid.check line) := by
  refine mirrors_onFound (fun hf st => ?_) fun hf c => check_of rfl (by simp [Branch.stuck, hf])
  simp only []
  split_ifs with hmid
  · rw [part_of_lt (show 1 < (splitOneOf line [':', ' ', '\r', '\n'] 4).length by omega), ok_bind]
    unfold uint8Loop
    split_ifs with hlen
    · have hstuck : ¬ Branch.mid.stuck line (context st) := by
        rw [Branch.stuck, decide_eq_true_eq]
        exact fun h => absurd hlen (Nat.not_lt.mpr h.2.2.2)
      rw [check_of rfl (Bool.eq_false_iff.mpr hstuck)]
      simp only [ok_bind, pure, Except.pure, Except.map, context, ← List.map_eq_flatMap, List.length_map, Branch.next]
    · have hstuck : Branch.mid.stuck line (context st) := by
        simp [Branch.stuck, context, hf, hmid]
        omega
      rw [Branch.check, if_neg (by simp [Branch.readable]), if_pos hstuck]
      rfl
  · rw [check_of rfl (by simp [Branch.stuck, context, hf]; tauto)]
    rfl

theorem mirrors_ssrc : Mirrors context (ssrcBranch line) (Branch.ssrc.check line) := by
  refine mirrors_onFound (fun hf st => ?_) fun hf c => ?_
  · have hnext : ∀ c, Branch.ssrc.next line c =
        if c.mtype = .videoType ∧ c.videoSsrc = 0 then
          { c with videoSsrc := strtoul ((splitOneOf line [' ', ':'] 2)[1]?.getD []) }
        else if c.mtype = .audioType ∧ c.audioSsrc = 0 then
          { c with audioSsrc := strtoul ((splitOneOf line [' ', ':'] 2)[1]?.getD []) }
        else c := fun c => if_pos hf
    by_cases hlen : 1 < (splitOneOf line [' ', ':'] 2).length
    · rw [check_of (by simp [Branch.readable]; omega) rfl, hnext, List.getElem?_eq_getElem hlen]
      simp only [part_of_lt hlen, ok_bind, Option.getD_some]
      by_cases hv : st.mtype = .videoType ∧ st.info.videoSsrc = 0
      · rw [if_pos hv, if_pos (show (context st).mtype = _ ∧ (context st).videoSsrc = 0 from hv)]
        rfl
      · rw [if_neg hv, if_neg (show ¬ ((context st).mtype = _ ∧ (context st).videoSsrc = 0) from hv)]
        by_cases ha : st.mtype = .audioType ∧ st.info.audioSsrc = 0
        · rw [if_pos ha, if_pos (show (context st).mtype = _ ∧ (context st).audioSsrc = 0 from ha)]
          rfl
        · rw [if_neg ha, if_neg (show ¬ ((context st).mtype = _ ∧ (context st).audioSsrc = 0) from ha)]
          rfl
    · simp only [part_of_le (Nat.le_of_not_lt hlen), error_bind]
      by_cases hlacks : (context st).lacksSsrc
      · rw [check_of_not (by simp [Branch.readable, hf, hlacks]; omega)]
        split_ifs with hv ha
        · rfl
        · rfl
        · rcases of_decide_eq_true hlacks with h | h
          · exact absurd h hv
          · exact absurd h ha
      · rw [check_of (by simp [Branch.readable, hf, hlacks]) rfl, hnext]
        simp only [Context.lacksSsrc, decide_eq_true_eq, not_or] at hlacks
        rw [if_neg hlacks.1, if_neg hlacks.2, if_neg (show ¬ (st.mtype = _ ∧ st.info.videoSsrc = 0) from hlacks.1),
          if_neg (show ¬ (st.mtype = _ ∧ st.info.audioSsrc = 0) from hlacks.2)]
        rfl
  · rw [check_of (by simp [Branch.readable, hf]) rfl, Branch.next, if_neg hf]

private theorem mirrors_rtpmap : Mirrors context (rtpmapBranch line) (Branch.rtpmap.check line) := by
  refine mirrors_onFound (fun hf st => ?_) fun hf c => check_of (by simp [Branch.readable, hf]) rfl
  have hadd : ∀ (c : Codec) st, context (addCodec c.payloadType c.encodingName c.clockRate st) = context st := by
    intro c st
    rw [addCodec_eq]
    cases internalOf c <;> rfl
  by_cases hlen : 3 < (splitOneOf line [' ', ':', '/', '\n'] 4).length
  · rw [check_of (by simp [Branch.readable]; omega) rfl]
    simp only [part_of_lt hlen, part_of_lt (show 1 < (splitOneOf line [' ', ':', '/', '\n'] 4).length by omega),
      part_of_lt (show 2 < (splitOneOf line [' ', ':', '/', '\n'] 4).length by omega), ok_bind]
    exact congrArg Except.ok (hadd ⟨_, _, _⟩ st)
  · rw [check_of_not (by simp [Branch.readable, hf]; omega)]
    simp only []
    rw [part_bind_error fun _ => part_bind_error fun _ => part_of_le (Nat.le_of_not_lt hlen) ▸ rfl]
    rfl

private theorem mirrors_extMap : Mirrors context (extMapBranch line) (Branch.extMap.check line) := by
  refine mirrors_onFound (fun hf st => ?_) fun hf c => check_of (by simp [Branch.readable, hf]) rfl
  simp only []
  split_ifs with hthree
  · by_cases hlen : 3 < (splitOneOf line [' ', ':', '='] 3).length
    · rw [check_of (by simp [Branch.readable]; omega) rfl, part_of_lt (by omega), part_of_lt hlen]
      rfl
    · rw [check_of_not (by simp [Branch.readable, hf]; omega)]
      rw [part_bind_error fun _ => part_of_le (Nat.le_of_not_lt hlen) ▸ rfl]
      rfl
  · rw [check_of (by simp [Branch.readable]; omega) rfl]
    rfl

/-- Every branch, seen through the context, is its check. -/
theorem mirrors_run (b : Branch) (line : Str) : Mirrors context (b.run line) (b.check line) := by
  cases b with
  | rtcpMux | profile => exact mirrors_onFound (fun _ _ => rfl) fun _ _ => rfl
  | direction => exact mirrors_direction
  | fingerprint => exact mirrors_fingerprint
  | group => exact mirrors_group
  | video | audio | feedback =>
    refine mirrors_onFound (fun hf st => ?_) fun hf c => ?_
    · rw [check_of rfl rfl, Branch.next, if_pos hf]
      rfl
    · rw [check_of rfl rfl, Branch.next, if_neg hf]
  | candidate => exact mirrors_candidate
  | crypto => exact mirrors_crypto
  | user => exact mirrors_user
  | pass => exact mirrors_pass
  | mid => exact mirrors_mid
  | ssrc => exact mirrors_ssrc
  | ssrcGroup | bandwidth =>
    refine mirrors_onFound (fun _ st => ?_) fun _ _ => rfl
    simp only []
    split_ifs with h
    · rw [part_of_lt (by omega)]
      rfl
    · rfl
  | rtpmap => exact mirrors_rtpmap
  | extMap => exact mirrors_extMap
  | fmtp =>
    refine mirrors_onFound (fun _ st => ?_) fun _ _ => rfl
    simp only []
    split_ifs with hge hfour
    · rw [part_of_lt (by omega), part_of_lt (by omega)]
      rfl
    · rw [part_of_lt (by omega), part_of_lt (by omega), part_of_lt (by omega)]
      rfl
    · rfl

end Branches

section Whole
variable {info : SdpInfo} {sdp media : Str}

/-- The branches in the order in which the loop comes to them. -/
def turns (sdp : Str) : List (Branch × Str) := (getlines sdp).flatMap fun line => Branch.all.map fun b => (b, line)

/-- The context in which the loop starts. -/
def start (info : SdpInfo) (media : Str) : Context := context { info, mtype := mediaTypeOf media }

theorem mirrors_lines (sdp : Str) : Mirrors context (fun st => (getlines sdp).foldlM processLine st) fun c =>
    (turns sdp).foldlM (fun c x => x.1.check x.2 c) c := by
  have hlines : Mirrors context (fun st => (getlines sdp).foldlM processLine st) fun c =>
      (getlines sdp).foldlM (fun c line => Branch.all.foldlM (fun c b => b.check line c) c) c :=
    Mirrors.foldlM fun line _ => Mirrors.foldlM fun b _ => mirrors_run b line
  simpa only [turns, foldlM_flatMap, List.foldlM_map] using hlines

def Context.readableFeedback (c : Context) : Bool :=
  ¬ (c.videoUsername = [] ∧ c.audioUsername = []) → ∀ line ∈ c.feedbackLines, 3 ≤ (splitOneOf line [' ', ':'] 2).length

def Context.named (c : Context) : Bool := ¬ (c.videoUsername = [] ∧ c.audioUsername = [])

def Context.outcome (c : Context) : Except Fault (Bool × ℕ) :=
  if c.readableFeedback then .ok (c.named, c.candidates) else .error .outOfRange

private theorem length_fill (info : SdpInfo) :
    (fillCandidates (fillCredentials info)).candidateVector.length = info.candidateVector.length := by
  unfold fillCandidates fillCredentials
  split_ifs <;> simp only [List.length_map]

private theorem finish_eq (st : Parser) :
    st.finish.map (fun x => (x.1, x.2.candidateVector.length)) = (context st).outcome := by
  have hcred : (context st).videoUsername = [] ∧ (context st).audioUsername = [] ↔
      st.info.iceVideoUsername.isEmpty ∧ st.info.iceAudioUsername.isEmpty := by
    simp only [context, List.isEmpty_iff]
  unfold finish Context.outcome
  by_cases hempty : st.info.iceVideoUsername.isEmpty ∧ st.info.iceAudioUsername.isEmpty
  · have hread : (context st).readableFeedback := decide_eq_true fun h => absurd (hcred.mpr hempty) h
    have hnamed : (context st).named = false := decide_eq_false fun h => h (hcred.mpr hempty)
    rw [if_pos hempty, if_pos hread, hnamed]
    rfl
  · have hread : (context st).readableFeedback ↔
        ∀ line ∈ st.tmpFeedbackVector, 3 ≤ (splitOneOf line [' ', ':'] 2).length := by
      rw [Context.readableFeedback, decide_eq_true_eq, hcred]
      exact ⟨fun h => h hempty, fun h _ => h⟩
    have hnamed : (context st).named := decide_eq_true fun h => hempty (hcred.mp h)
    rw [if_neg hempty, hnamed]
    split_ifs with hr
    · obtain ⟨ps, hps⟩ := foldlM_mapFeedback (fillCandidates (fillCredentials st.info)) (hread.mp hr)
      rw [hps]
      exact congrArg (fun n => Except.ok (true, n)) (length_fill st.info)
    · obtain ⟨l, hl, hlen⟩ : ∃ l ∈ st.tmpFeedbackVector, ¬ 3 ≤ (splitOneOf l [' ', ':'] 2).length := by
        simpa only [hread, not_forall, exists_prop] using hr
      rw [foldlM_mapFeedback_error _ hl hlen]
      rfl

/-- The turns seen through the context. -/
def scan (xs : List (Branch × Str)) (c : Context) : Except Fault Context := xs.foldlM (fun c x => x.1.check x.2 c) c

theorem processSdp_eq (info : SdpInfo) (sdp media : Str) :
    (processSdp info sdp media).map (fun x => (x.1, x.2.candidateVector.length)) =
      (scan (turns sdp) (start info media) >>= Context.outcome) := by
  have hlines := mirrors_lines sdp { info, mtype := mediaTypeOf media }
  beta_reduce at hlines
  rw [scan, start, ← hlines, processSdp]
  cases (getlines sdp).foldlM processLine { info, mtype := mediaTypeOf media } with
  | error e => rfl
  | ok st => exact finish_eq st

/-- Every line that the loop reaches has the pieces that its branches read, and so do the feedback lines behind
the loop, if it ends. -/
def Guarded : List (Branch × Str) → Context → Prop
  | [], c => c.readableFeedback
  | (b, line) :: rest, c => b.readable line c ∧ (b.stuck line c ∨ Guarded rest (b.next line c))

/-- No loop that is reached is endless. -/
def Halts : List (Branch × Str) → Context → Prop
  | [], _ => True
  | (b, line) :: rest, c => b.readable line c → ¬ b.stuck line c ∧ Halts rest (b.next line c)

instance decidableGuarded : (xs : List (Branch × Str)) → (c : Context) → Decidable (Guarded xs c)
  | [], c => inferInstanceAs (Decidable (c.readableFeedback = true))
  | (b, line) :: rest, c =>
    have := decidableGuarded rest (b.next line c)
    inferInstanceAs (Decidable (_ ∧ (_ ∨ _)))

instance decidableHalts : (xs : List (Branch × Str)) → (c : Context) → Decidable (Halts xs c)
  | [], _ => inferInstanceAs (Decidable True)
  | (b, line) :: rest, c =>
    have := decidableHalts rest (b.next line c)
    inferInstanceAs (Decidable (_ → _ ∧ _))

theorem scan_cons (b : Branch) (line : Str) (xs : List (Branch × Str)) (c : Context) :
    scan ((b, line) :: xs) c = (b.check line c >>= scan xs) := List.foldlM_cons ..

theorem guarded_iff {xs : List (Branch × Str)} {c : Context} :
    (scan xs c >>= Context.outcome) ≠ .error .outOfRange ↔ Guarded xs c := by
  induction xs generalizing c with
  | nil =>
    show c.outcome ≠ _ ↔ (c.readableFeedback = true)
    unfold Context.outcome
    split_ifs with h
    · exact iff_of_true nofun h
    · exact iff_of_false (fun h' => h' rfl) h
  | cons x xs ih =>
    obtain ⟨b, line⟩ := x
    rw [scan_cons, Branch.check, Guarded]
    split_ifs with hread hstuck
    · exact iff_of_true nofun ⟨hread, .inl hstuck⟩
    · rw [ok_bind, ih]
      exact ⟨fun h => ⟨hread, .inr h⟩, fun h => h.2.resolve_left hstuck⟩
    · exact iff_of_false (fun h => h rfl) fun h => hread h.1

theorem halts_iff {xs : List (Branch × Str)} {c : Context} :
    (scan xs c >>= Context.outcome) ≠ .error .endless ↔ Halts xs c := by
  induction xs generalizing c with
  | nil =>
    show c.outcome ≠ _ ↔ True
    unfold Context.outcome
    split_ifs <;> exact iff_of_true nofun trivial
  | cons x xs ih =>
    obtain ⟨b, line⟩ := x
    rw [scan_cons, Branch.check, Halts]
    split_ifs with hread hstuck
    · exact iff_of_false (fun h => h rfl) fun h => (h hread).1 hstuck
    · rw [ok_bind, ih]
      exact ⟨fun h _ => ⟨hstuck, h⟩, fun h => (h hread).2⟩
    · exact iff_of_true nofun fun h => absurd h hread

def behind (info : SdpInfo) (sdp media : Str) : Context :=
  (turns sdp).foldl (fun c x => x.1.next x.2 c) (start info media)

theorem scan_of {xs : List (Branch × Str)} {c : Context} (hg : Guarded xs c) (hh : Halts xs c) :
    (scan xs c >>= Context.outcome) = .ok
      ((xs.foldl (fun c x => x.1.next x.2 c) c).named, (xs.foldl (fun c x => x.1.next x.2 c) c).candidates) := by
  induction xs generalizing c with
  | nil => exact if_pos hg
  | cons x xs ih =>
    obtain ⟨b, line⟩ := x
    obtain ⟨hread, hg⟩ := hg
    obtain ⟨hstuck, hh⟩ := hh hread
    rw [scan_cons, check_of hread (Bool.eq_false_iff.mpr hstuck), ok_bind, ih (hg.resolve_left hstuck) hh]
    rfl

def candidatesIn (sdp : Str) : ℕ := ((getlines sdp).map (addedOthers .candidate)).sum

private theorem candidates_next (b : Branch) (line : Str) (c : Context) :
    (b.next line c).candidates = c.candidates + if b = .candidate then addedOthers .candidate line else 0 := by
  cases b with
  | candidate => rfl
  | group | video | audio | user | ssrc | feedback =>
    simp only [Branch.next, reduceCtorEq, if_false, Nat.add_zero]
    split_ifs <;> rfl
  | _ => rfl

theorem candidates_behind (info : SdpInfo) (sdp media : Str) :
    (behind info sdp media).candidates = info.candidateVector.length + candidatesIn sdp := by
  have hlines : ∀ (ls : List Str) (c : Context), ((ls.flatMap fun line => Branch.all.map fun b => (b, line)).foldl
      (fun c x => x.1.next x.2 c) c).candidates = c.candidates + (ls.map (addedOthers .candidate)).sum := by
    intro ls
    induction ls with
    | nil => exact fun c => rfl
    | cons line ls ih =>
      intro c
      rw [List.flatMap_cons, List.foldl_append, ih, List.map_cons, List.sum_cons, ← Nat.add_assoc]
      simp only [Branch.all, List.map_cons, List.map_nil, List.foldl_cons, List.foldl_nil, candidates_next, reduceCtorEq,
        if_false, if_true, Nat.add_zero]
  exact hlines (getlines sdp) (start info media)

theorem processSdp_ne_iff {e : Fault} :
    processSdp info sdp media ≠ .error e ↔ (scan (turns sdp) (start info media) >>= Context.outcome) ≠ .error e := by
  rw [← processSdp_eq, ne_eq, ne_eq, map_eq_error]

/-- A text is accepted or not, and has its candidates, as the context behind its last line says. -/
theorem processSdp_outcome {r : Bool} {info' : SdpInfo} (h : processSdp info sdp media = .ok (r, info')) :
    r = (behind info sdp media).named ∧ info'.candidateVector.length = (behind info sdp media).candidates := by
  have hg : Guarded (turns sdp) (start info media) := guarded_iff.mp (processSdp_ne_iff.mp (by rw [h]; nofun))
  have hh : Halts (turns sdp) (start info media) := halts_iff.mp (processSdp_ne_iff.mp (by rw [h]; nofun))
  have heq := (processSdp_eq info sdp media).trans (scan_of hg hh)
  rw [h] at heq
  exact Prod.mk.inj (Except.ok.inj heq)

theorem processSdp_of (hg : Guarded (turns sdp) (start info media)) (hh : Halts (turns sdp) (start info media)) :
    ∃ r info', processSdp info sdp media = .ok (r, info') := by
  obtain ⟨⟨r, info'⟩, h, -⟩ := map_eq_ok.mp ((processSdp_eq info sdp media).trans (scan_of hg hh))
  exact ⟨r, info', h⟩

/-- Reading stays within the pieces of the lines exactly if every line that is reached has them. -/
theorem inRange_iff (info : SdpInfo) (sdp media : Str) (pieces : List Str) (mediaType : MediaType) :
    (processSdp info sdp media ≠ .error .outOfRange ↔ Guarded (turns sdp) (start info media)) ∧
      (processCandidate pieces mediaType info ≠ .error .outOfRange ↔ readableCandidate pieces) := by
  constructor
  · rw [processSdp_ne_iff, guarded_iff]
  · cases h : readableCandidate pieces with
    | true =>
      obtain ⟨r, hr⟩ := processCandidate_of mediaType info h
      rw [hr]
      exact iff_of_true nofun rfl
    | false =>
      rw [processCandidate_of_not mediaType info h]
      exact iff_of_false (fun h => h rfl) nofun

/-- An extension with a number but no name. -/
def truncatedExtMap : Str := "a=extmap:1\n".toList

theorem not_inRange_truncatedExtMap :
    processSdp (SdpInfo.new .sendRecv .sendRecv) truncatedExtMap [] = .error .outOfRange := by
  have hnot : ¬ Guarded (turns truncatedExtMap) (start (SdpInfo.new .sendRecv .sendRecv) []) := by decide +kernel
  exact not_not.mp fun h => hnot (guarded_iff.mp (processSdp_ne_iff.mp h))

end Whole

end Sfup.Sdp.Parser

/-! ## Writing a description -/

namespace Sfup.Sdp.SdpInfo

section Loops
variable {α β : Type} {msidtemp : Str} {s : SdpInfo}

def Endless (x : Except Fault α) : Prop := x = .error .endless ∨ ∃ a, x = .ok a

theorem Endless.bind {x : Except Fault α} {f : α → Except Fault β} (hx : Endless x) (hf : ∀ a, Endless (f a)) :
    Endless (x >>= f) := by
  rcases hx with rfl | ⟨a, rfl⟩
  · exact .inl rfl
  · exact hf a

theorem endless_ok (a : α) : Endless (.ok a) := .inr ⟨a, rfl⟩

theorem Endless.ne_iff {x : Except Fault α} (h : Endless x) : x ≠ .error .endless ↔ ∃ a, x = .ok a := by
  rcases h with rfl | ⟨a, rfl⟩
  · exact iff_of_false (fun h => h rfl) (by rintro ⟨a, ⟨⟩⟩)
  · exact iff_of_true nofun ⟨a, rfl⟩

/-- A loop over a vector with a `uint8_t` counter, given so many tests of its condition. -/
def uint8Turns (xs : List α) (f : α → List β) (fuel : ℕ) : Option (List β) :=
  Counter.loop (fun out i => out ++ xs[i]?.elim [] f) xs.length fuel (0 : BitVec 8) []

section Turns
variable {xs : List α} {f : α → List β}

private theorem foldl_range_append {k : ℕ} : (List.range k).foldl (fun out i => out ++ xs[i]?.elim [] f) [] =
    (xs.take k).flatMap f := by
  induction k with
  | zero => rfl
  | succ k ih =>
    rw [List.range_succ, List.foldl_append, ih, List.take_add_one, List.flatMap_append, List.foldl_cons,
      List.foldl_nil]
    cases xs[k]? with
    | none => rfl
    | some x => rw [Option.toList, List.flatMap_singleton, Option.elim]

theorem uint8Loop_eq_ok_iff {out : List β} : uint8Loop xs f = .ok out ↔ ∃ fuel, uint8Turns xs f fuel = some out := by
  unfold uint8Loop uint8Turns
  rw [Counter.exists_loop_eq_some, foldl_range_append, List.take_length]
  split_ifs with h
  · exact ⟨fun heq => ⟨h, Except.ok.inj heq⟩, fun heq => congrArg Except.ok heq.2⟩
  · exact iff_of_false nofun fun heq => h heq.1

/-- The loop is endless exactly if its counter never gets to the size. -/
theorem uint8Loop_eq_endless_iff : uint8Loop xs f = .error .endless ↔ ∀ fuel, uint8Turns xs f fuel = none := by
  unfold uint8Loop uint8Turns
  rw [Counter.forall_loop_eq_none]
  split_ifs with h
  · exact iff_of_false nofun (Nat.not_le_of_lt h)
  · exact iff_of_true rfl (Nat.le_of_not_lt h)

end Turns

theorem endless_uint8Loop (xs : List α) (f : α → List β) : Endless (uint8Loop xs f) := by
  unfold uint8Loop
  split_ifs
  · exact endless_ok _
  · exact .inl rfl

theorem uint8Loop_iff {xs : List α} {f : α → List β} : (∃ ys, uint8Loop xs f = .ok ys) ↔ xs.length < 256 := by
  simp only [uint8Loop_eq_ok_iff, uint8Turns, Counter.exists_loop_eq_some, exists_and_left, exists_eq', and_true]
  rfl

theorem headLines_iff : (∃ ls, headLines msidtemp s = .ok ls) ↔ (s.isBundle → s.bundleTags.length < 256) := by
  unfold headLines
  split_ifs with hb
  · exact exists_bind_pure.trans (uint8Loop_iff.trans ⟨fun h _ => h, fun h => h hb⟩)
  · exact iff_of_true ⟨_, rfl⟩ fun h => absurd h hb

theorem sectionLines_iff {f : ExtMap → List Str} {g : BundleTag → List Str} {h : List Str → List Str → List Str} :
    (∃ ls, (do
      let extMaps ← uint8Loop s.extMapVector f
      let mids ← uint8Loop s.bundleTags g
      return h extMaps mids) = .ok ls) ↔ s.extMapVector.length < 256 ∧ s.bundleTags.length < 256 :=
  (exists_bind_eq_ok fun _ => exists_bind_pure.trans uint8Loop_iff).trans (and_congr_left' uint8Loop_iff)

private theorem audioLines_iff : (∃ ls, audioLines msidtemp s = .ok ls) ↔
    s.extMapVector.length < 256 ∧ s.bundleTags.length < 256 := sectionLines_iff

private theorem videoLines_iff : (∃ ls, videoLines msidtemp s = .ok ls) ↔
    s.extMapVector.length < 256 ∧ s.bundleTags.length < 256 := sectionLines_iff

theorem ifLines_iff {b : Bool} {x : Except Fault (List Str)} {P : Prop} (h : (∃ ls, x = .ok ls) ↔ P) :
    (∃ ls, (if b then x else .ok []) = .ok ls) ↔ (b → P) := by
  cases b with
  | true => simpa using h
  | false => exact iff_of_true ⟨[], rfl⟩ nofun

/-- The loops over the tags and the extensions that are reached end. -/
def Writable (s : SdpInfo) : Prop :=
  (s.isBundle → s.bundleTags.length < 256) ∧
    (s.hasAudio ∨ s.hasVideo → s.extMapVector.length < 256 ∧ s.bundleTags.length < 256)

theorem getSdp_eq (rand : ℕ → ℕ) (s : SdpInfo) : getSdp rand s =
    (headLines (genRandom rand 10) s.withSsrcs >>= fun head =>
      (if s.withSsrcs.hasAudio then audioLines (genRandom rand 10) s.withSsrcs else .ok []) >>= fun audio =>
        (if s.withSsrcs.hasVideo then videoLines (genRandom rand 10) s.withSsrcs else .ok []) >>= fun video =>
          pure ((head ++ audio ++ video).flatMap (· ++ ['\n']), s.withSsrcs)) := by
  unfold getSdp
  refine congrArg _ (funext fun head => ?_)
  split_ifs <;> rfl

theorem getSdp_iff (rand : ℕ → ℕ) : (∃ r, getSdp rand s = .ok r) ↔ Writable s := by
  have hvideo : (∃ ls, (if s.withSsrcs.hasVideo then videoLines (genRandom rand 10) s.withSsrcs else .ok []) = .ok ls) ↔
      (s.hasVideo → s.extMapVector.length < 256 ∧ s.bundleTags.length < 256) := ifLines_iff videoLines_iff
  have haudio : (∃ ls, (if s.withSsrcs.hasAudio then audioLines (genRandom rand 10) s.withSsrcs else .ok []) = .ok ls) ↔
      (s.hasAudio → s.extMapVector.length < 256 ∧ s.bundleTags.length < 256) := ifLines_iff audioLines_iff
  have hget := exists_bind_eq_ok (x := headLines (genRandom rand 10) s.withSsrcs) fun head =>
    (exists_bind_eq_ok fun audio => (exists_bind_pure (f := fun video =>
      ((head ++ audio ++ video).flatMap (· ++ ['\n']), s.withSsrcs))).trans hvideo).trans (and_congr_left' haudio)
  rw [getSdp_eq, hget, headLines_iff, Writable, or_imp]
  rfl

private theorem endless_getSdp (rand : ℕ → ℕ) : Endless (getSdp rand s) := by
  have hhead : Endless (headLines (genRandom rand 10) s.withSsrcs) := by
    unfold headLines
    split_ifs
    · exact (endless_uint8Loop ..).bind fun _ => endless_ok _
    · exact endless_ok _
  have hif : ∀ (b : Bool) {x : Except Fault (List Str)}, Endless x → Endless (if b then x else .ok []) := by
    intro b x hx
    split_ifs
    · exact hx
    · exact endless_ok _
  rw [getSdp_eq]
  refine hhead.bind fun head => (hif _ ?_).bind fun audio => (hif _ ?_).bind fun video => endless_ok _
  · exact (endless_uint8Loop ..).bind fun _ => (endless_uint8Loop ..).bind fun _ => endless_ok _
  · exact (endless_uint8Loop ..).bind fun _ => (endless_uint8Loop ..).bind fun _ => endless_ok _

theorem getSdp_ne_iff (rand : ℕ → ℕ) : getSdp rand s ≠ .error .endless ↔ Writable s :=
  (endless_getSdp rand).ne_iff.trans (getSdp_iff rand)

end Loops
end Sfup.Sdp.SdpInfo
