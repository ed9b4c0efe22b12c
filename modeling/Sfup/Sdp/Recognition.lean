import Sfup.Sdp.Collecting

/-! Which handlers a line of a description runs. A line is searched for each attribute, and an attribute is found
wherever it stands in the line, in the value of another one as well. -/
namespace Sfup.Sdp.Parser

/-- The direction is set for the section before the line. -/
structure Directions where
  mtype : MediaType
  audio : StreamDirection
  video : StreamDirection

def directions (st : Parser) : Directions := ⟨st.mtype, st.info.audioDirection, st.info.videoDirection⟩

namespace Directions

def set (d : StreamDirection) (r : Directions) : Directions :=
  if r.mtype = .audioType then { r with audio := d } else { r with video := d }

def read (r : Directions) (line : Str) : Directions :=
  { (directionOf line).elim r (set · r) with mtype := mediaAfter r.mtype line }

end Directions

/-- What the lines say of the media: the attributes that set a field are found somewhere in a line. -/
structure Recognizes (lines : List Str) (st st' : Parser) : Prop where
  hasVideo : st'.info.hasVideo = (st.info.hasVideo || lines.any (Marker.video <:+: ·))
  hasAudio : st'.info.hasAudio = (st.info.hasAudio || lines.any (Marker.audio <:+: ·))
  isRtcpMux : st'.info.isRtcpMux = (st.info.isRtcpMux || lines.any (Marker.rtcpmux <:+: ·))
  directions : directions st' = lines.foldl Directions.read (directions st)
  bundleTags : (∀ line ∈ lines, ¬ Marker.group <:+: line ∧ ¬ Marker.mid <:+: line) →
    st'.info.bundleTags = st.info.bundleTags
  ssrcs : (∀ line ∈ lines, ¬ Marker.ssrctag <:+: line) → st'.info.audioSsrc = st.info.audioSsrc ∧
    st'.info.videoSsrc = st.info.videoSsrc ∧ st'.info.videoRtxSsrc = st.info.videoRtxSsrc
  candidates : (∀ line ∈ lines, ¬ Marker.cand <:+: line) → st'.info.candidateVector = st.info.candidateVector
  bandwidth : (∀ line ∈ lines, ¬ Marker.bas <:+: line) → st'.info.videoBandwidth = st.info.videoBandwidth

/-- The fields that are set for the media. -/
structure Fields where
  directions : Directions
  hasVideo : Bool
  hasAudio : Bool
  isRtcpMux : Bool
  bundleTags : List BundleTag
  ssrcs : UInt32 × UInt32 × UInt32
  candidates : List CandidateInfo
  bandwidth : UInt32

def fields (st : Parser) : Fields where
  directions := directions st
  hasVideo := st.info.hasVideo
  hasAudio := st.info.hasAudio
  isRtcpMux := st.info.isRtcpMux
  bundleTags := st.info.bundleTags
  ssrcs := (st.info.audioSsrc, st.info.videoSsrc, st.info.videoRtxSsrc)
  candidates := st.info.candidateVector
  bandwidth := st.info.videoBandwidth

def Branch.Changes (line : Str) (f f' : Fields) : Branch → Prop
  | rtcpMux => f' = { f with isRtcpMux := true }
  | direction => f' = { f with directions := (directionOf line).elim f.directions (Directions.set · f.directions) }
  | video => f' = { f with directions := { f.directions with mtype := .videoType }, hasVideo := true }
  | audio => f' = { f with directions := { f.directions with mtype := .audioType }, hasAudio := true }
  | group | mid => ∃ tags, f' = { f with bundleTags := tags }
  | ssrc | ssrcGroup => ∃ ssrcs, f' = { f with ssrcs }
  | candidate => ∃ cs, f' = { f with candidates := cs }
  | bandwidth => ∃ bw, f' = { f with bandwidth := bw }
  | profile | fingerprint | crypto | user | pass | rtpmap | extMap | feedback | fmtp => f' = f

section Run
variable {b : Branch} {line : Str} {st st' : Parser}

private theorem fields_setDirection (d : StreamDirection) (st : Parser) :
    fields (setDirection d st) = { fields st with directions := (fields st).directions.set d } := by
  unfold setDirection
  by_cases hm : st.mtype = .audioType
  · have hset : (fields st).directions.set d = { (fields st).directions with audio := d } := if_pos hm
    rw [if_pos hm, hset]
    rfl
  · have hset : (fields st).directions.set d = { (fields st).directions with video := d } := if_neg hm
    rw [if_neg hm, hset]
    rfl

private theorem fields_addCodec (c : Codec) (st : Parser) :
    fields (addCodec c.payloadType c.encodingName c.clockRate st) = fields st := by
  rw [addCodec_eq]
  cases internalOf c <;> rfl

/-- What a handler can do to the state, seen in the fields. -/
theorem changes_of_result (h : b.Result line st st') : b.Changes line (fields st) (fields st') := by
  cases b with
  | rtcpMux | profile | video | audio | feedback =>
    cases h
    rfl
  | direction =>
    cases h
    simp only [Branch.Changes]
    cases directionOf line with
    | none => rfl
    | some d => exact fields_setDirection d st
  | fingerprint | crypto =>
    obtain ⟨_, rfl⟩ := h
    rfl
  | user | pass =>
    obtain ⟨_, _, rfl⟩ := h
    rfl
  | group | ssrcGroup | bandwidth =>
    obtain ⟨_, rfl⟩ := h
    exact ⟨_, rfl⟩
  | ssrc =>
    obtain ⟨_, _, rfl⟩ := h
    exact ⟨_, rfl⟩
  | candidate | mid =>
    obtain ⟨_, rfl, -⟩ := h
    exact ⟨_, rfl⟩
  | extMap =>
    obtain ⟨_, rfl, -⟩ := h
    rfl
  | rtpmap =>
    obtain ⟨pt, name, clock, rfl, -⟩ := h
    exact fields_addCodec ⟨strtoul pt, name, strtoul clock⟩ st
  | fmtp =>
    rcases h with rfl | ⟨pt, option, value, rfl⟩
    · rfl
    · rfl

end Run

/-- The fields that a handler leaves as they are. -/
structure Keeps (b : Branch) (v v' : Fields) : Prop where
  directions : b ∉ [.direction, .video, .audio] → v'.directions = v.directions
  hasVideo : b ≠ .video → v'.hasVideo = v.hasVideo
  hasAudio : b ≠ .audio → v'.hasAudio = v.hasAudio
  isRtcpMux : b ≠ .rtcpMux → v'.isRtcpMux = v.isRtcpMux
  bundleTags : b ∉ [.group, .mid] → v'.bundleTags = v.bundleTags
  ssrcs : b ∉ [.ssrc, .ssrcGroup] → v'.ssrcs = v.ssrcs
  candidates : b ≠ .candidate → v'.candidates = v.candidates
  bandwidth : b ≠ .bandwidth → v'.bandwidth = v.bandwidth

private theorem keeps_of_changes {b : Branch} {line : Str} {v v' : Fields} (h : b.Changes line v v') :
    Keeps b v v' := by
  cases b with
  | group | mid | ssrc | ssrcGroup | candidate | bandwidth =>
    obtain ⟨_, rfl⟩ := h
    constructor <;> intro hne <;> first | rfl | exact absurd (by decide) hne
  | rtcpMux | direction | video | audio | profile | fingerprint | crypto | user | pass | rtpmap | extMap | feedback
  | fmtp =>
    cases h
    constructor <;> intro hne <;> first | rfl | exact absurd (by decide) hne

section Lines
variable {line : Str} {τ : Type} {q : Fields → τ}

theorem effects_run (b : Branch) (line : Str) {f : τ → τ} (h : ∀ v v', b.Changes line v v' → q v' = f (q v)) :
    Effects (fun st => q (fields st)) (b.run line) (if b.found line then f else id) :=
  effects_of_result b line fun _ _ hr => h _ _ (changes_of_result hr)

theorem effects_run_keep (b : Branch) (line : Str) (h : b.found line → ∀ v v', Keeps b v v' → q v' = q v) :
    Effects (fun st => q (fields st)) (b.run line) id :=
  effects_of_result_keep b line fun hf _ _ hr => h hf _ _ (keeps_of_changes (changes_of_result hr))

theorem effects_keep {lines : List Str}
    (h : ∀ line ∈ lines, ∀ b : Branch, b.found line → ∀ v v', Keeps b v v' → q v' = q v) :
    Effects (fun st => q (fields st)) (fun st => lines.foldlM processLine st) id :=
  Effects.foldlM_keep fun line hl => Effects.foldlM_keep fun b _ => effects_run_keep b line (h line hl b)

/-- A flag that one handler sets is set by the lines in which its attribute is found. -/
theorem effects_flag {q : Fields → Bool} {k : Branch} (hk : k ∈ Branch.all)
    (hset : ∀ line v v', k.Changes line v v' → q v' = true)
    (hkeep : ∀ b, b ≠ k → ∀ v v', Keeps b v v' → q v' = q v) (lines : List Str) :
    Effects (fun st => q (fields st)) (fun st => lines.foldlM processLine st) (· || lines.any k.found) := by
  have hline : ∀ line, Effects (fun st => q (fields st)) (processLine · line) (· || k.found line) := by
    intro line
    have hone := effects_run (f := fun _ => true) k line (hset line)
    have hor : (if k.found line then fun _ => true else id) = (· || k.found line) := by
      cases k.found line <;> simp [funext_iff]
    rw [hor] at hone
    apply Effects.only hk (by decide) hone
    intro b _ hne
    exact effects_run_keep b line fun _ => hkeep b hne
  have hfold : (fun v => lines.foldl (fun v line => v || k.found line) v) = (· || lines.any k.found) := by
    funext v
    induction lines generalizing v with
    | nil => simp
    | cons line lines ih =>
      rw [List.foldl_cons, ih, List.any_cons, Bool.or_assoc]
  rw [← hfold]
  exact Effects.foldlM fun line _ => hline line

def Directions.change (line : Str) (r : Directions) : Branch → Directions
  | .direction => (directionOf line).elim r (set · r)
  | .video => if Marker.video <:+: line then { r with mtype := .videoType } else r
  | .audio => if Marker.audio <:+: line then { r with mtype := .audioType } else r
  | _ => r

theorem effects_directions_start {k : Branch} {marker : Str} {t : MediaType} (hk : k.searched = [marker]) (line : Str)
    (hc : ∀ v v', k.Changes line v v' → v'.directions = { v.directions with mtype := t }) :
    Effects (fun st => (fields st).directions) (k.run line)
      fun r => if marker <:+: line then { r with mtype := t } else r := by
  have hrun : Effects (fun st => (fields st).directions) (k.run line)
      (if k.found line then fun r => { r with mtype := t } else id) := effects_run k line hc
  intro st st' h
  rw [hrun st st' h, found_of_searched hk]
  simp only [decide_eq_true_eq]
  split_ifs <;> rfl

theorem effects_directions_run (b : Branch) (line : Str) :
    Effects (fun st => (fields st).directions) (b.run line) fun r => r.change line b := by
  cases b with
  | direction =>
    -- the handler tests for the three directions itself
    intro st st' hrun
    exact congrArg Fields.directions (changes_of_result (b := .direction) (result_direction hrun))
  | video => exact effects_directions_start rfl line fun _ _ h => congrArg Fields.directions h
  | audio => exact effects_directions_start rfl line fun _ _ h => congrArg Fields.directions h
  | rtcpMux | profile | fingerprint | crypto | user | pass | rtpmap | extMap | feedback | fmtp | group | mid | ssrc
  | ssrcGroup | candidate | bandwidth =>
    exact effects_run_keep _ line fun _ _ _ h => h.directions (by decide)

theorem Directions.mtype_set (d : StreamDirection) (r : Directions) : (set d r).mtype = r.mtype := by
  unfold set
  split_ifs <;> rfl

theorem Directions.foldl_change (r : Directions) (line : Str) : Branch.all.foldl (·.change line ·) r = r.read line := by
  have hm : ((directionOf line).elim r (set · r)).mtype = r.mtype := by
    cases directionOf line with
    | none => rfl
    | some d => exact mtype_set d r
  simp only [Branch.all, List.foldl_cons, List.foldl_nil, change, read, mediaAfter]
  generalize (directionOf line).elim r (set · r) = r' at hm ⊢
  rw [← hm]
  split_ifs <;> rfl

private theorem effects_directions (lines : List Str) :
    Effects directions (fun st => lines.foldlM processLine st) (lines.foldl Directions.read) := by
  apply Effects.foldlM
  intro line _
  have hline : Effects (fun st => (fields st).directions) (processLine · line)
      fun r => Branch.all.foldl (·.change line ·) r := Effects.foldlM fun b _ => effects_directions_run b line
  simp only [Directions.foldl_change] at hline
  exact hline

/-- A handler that runs is none whose attribute does not occur. -/
theorem ne_of_found {b k : Branch} {marker : Str} (hk : k.searched = [marker]) (hnot : ¬ marker <:+: line)
    (hf : b.found line) : b ≠ k := by
  rintro rfl
  rw [found_of_searched hk] at hf
  exact hnot (of_decide_eq_true hf)

theorem recognizes_of_ok {lines : List Str} {st st' : Parser} (h : lines.foldlM processLine st = .ok st') :
    Recognizes lines st st' := by
  have hfound : ∀ {b : Branch} {marker : Str}, b.searched = [marker] →
      b.found = fun line => decide (marker <:+: line) :=
    fun hb => funext (found_of_searched hb)
  constructor
  · have hflag := effects_flag (q := Fields.hasVideo) (k := .video) (by decide)
      (fun _ _ _ hc => congrArg Fields.hasVideo hc) (fun _ hne _ _ hk => hk.hasVideo hne) lines st st' h
    rwa [hfound rfl] at hflag
  · have hflag := effects_flag (q := Fields.hasAudio) (k := .audio) (by decide)
      (fun _ _ _ hc => congrArg Fields.hasAudio hc) (fun _ hne _ _ hk => hk.hasAudio hne) lines st st' h
    rwa [hfound rfl] at hflag
  · have hflag := effects_flag (q := Fields.isRtcpMux) (k := .rtcpMux) (by decide)
      (fun _ _ _ hc => congrArg Fields.isRtcpMux hc) (fun _ hne _ _ hk => hk.isRtcpMux hne) lines st st' h
    rwa [hfound rfl] at hflag
  · exact effects_directions lines st st' h
  · intro hnone
    apply effects_keep (q := Fields.bundleTags) _ st st' h
    intro line hl b hf v v' hk
    have hgroup := ne_of_found (k := .group) rfl (hnone line hl).1 hf
    have hmid := ne_of_found (k := .mid) rfl (hnone line hl).2 hf
    exact hk.bundleTags (by simp [hgroup, hmid])
  · intro hnone
    have hkeep : (fields st').ssrcs = (fields st).ssrcs := by
      apply effects_keep (q := Fields.ssrcs) _ st st' h
      intro line hl b hf v v' hk
      have hssrc := ne_of_found (k := .ssrc) rfl (hnone line hl) hf
      -- the attribute of a group starts like that of a source
      have hstart : Marker.ssrctag <:+: Marker.ssrcgrouptag := by decide
      have hgroup := ne_of_found (k := .ssrcGroup) rfl (fun hg => hnone line hl (hstart.trans hg)) hf
      exact hk.ssrcs (by simp [hssrc, hgroup])
    simpa [fields] using hkeep
  · intro hnone
    apply effects_keep (q := Fields.candidates) _ st st' h
    intro line hl b hf v v' hk
    exact hk.candidates (ne_of_found rfl (hnone line hl) hf)
  · intro hnone
    apply effects_keep (q := Fields.bandwidth) _ st st' h
    intro line hl b hf v v' hk
    exact hk.bandwidth (ne_of_found rfl (hnone line hl) hf)

end Lines

/-- The loop body runs the handlers whose attributes are found, in their order. -/
theorem processLine_eq_found (st : Parser) (line : Str) :
    processLine st line = (Branch.all.filter (·.found line)).foldlM (fun st b => b.run line st) st := by
  unfold processLine
  generalize Branch.all = bs
  induction bs generalizing st with
  | nil => rfl
  | cons b bs ih =>
    cases hf : b.found line with
    | false =>
      rw [List.filter_cons_of_neg (by simp [hf]), List.foldlM_cons, run_of_not_found hf]
      exact ih st
    | true =>
      rw [List.filter_cons_of_pos (by simp [hf]), List.foldlM_cons, List.foldlM_cons]
      exact congrArg _ (funext ih)

/-- Every line runs the handlers of the attributes that occur anywhere in it, each does what it is there for, and the
lines together set the fields. -/
theorem recognition (st : Parser) :
    (∀ line, processLine st line = (Branch.all.filter (·.found line)).foldlM (fun st b => b.run line st) st) ∧
    (∀ (b : Branch) line st', b.run line st = .ok st' → if b.found line then b.Result line st st' else st' = st) ∧
      ∀ lines st', lines.foldlM processLine st = .ok st' → Recognizes lines st st' := by
  refine ⟨processLine_eq_found st, ?_, fun _ _ h => recognizes_of_ok h⟩
  intro b line st' h
  cases hf : b.found line with
  | true => exact result_run hf h
  | false =>
    rw [run_of_not_found hf] at h
    exact (Except.ok.inj h).symm

/-- A session whose information is the start of a video section. -/
def exampleText : Str := "i=m=video".toList

/-- The state before the first line. -/
def exampleStart : Parser := ⟨SdpInfo.new .sendRecv .sendRecv, .other, -1, []⟩

/-- Such a text is read, and says that there is a video section. -/
theorem recognition_exampleText : ∃ st', [exampleText].foldlM processLine exampleStart = .ok st' ∧
    Recognizes [exampleText] exampleStart st' := by
  have hok : ([exampleText].foldlM processLine exampleStart).isOk := by decide +kernel
  cases h : [exampleText].foldlM processLine exampleStart with
  | error e =>
    rw [h] at hok
    cases hok
  | ok st' => exact ⟨st', rfl, (recognition exampleStart).2.2 _ _ h⟩

/-- The line begins with another type, and its handler for video runs. -/
theorem not_grammatical_exampleText : ¬ Marker.video <+: exampleText ∧
    exampleStart.info.hasVideo = false ∧
    (processLine exampleStart exampleText).toOption.map (fun st => (st.info.hasVideo, st.mtype)) =
      some (true, .videoType) := by
  decide +kernel

end Sfup.Sdp.Parser
