import Sfup.Media.VideoDecoder

/-! `InputProcessor::decodeAudio` of `media/MediaProcessor.cpp`, and when the loops of the two decoders end. -/
namespace Sfup.Media
open Drain

/-- A decoded frame: what `av_samples_get_buffer_size` makes of it, and the bytes of its first plane. -/
structure AudioFrame where
  dataSize : ℤ
  plane : List UInt8

/-- An answer of `avcodec_decode_audio4`; there is a frame if it sets `got_frame`. -/
structure AudioAnswer where
  len : ℤ
  frame : Option AudioFrame

/-- The variables of the loop. `outSize` is not assigned before it; `out` is what was copied to `outBuff`. -/
structure AudioLoop where
  outSize : Option ℤ
  decBuff : Mem
  decSize : ℤ
  out : List UInt8

/-- What `decodeAudio` returns and copies, and whether a test read a variable that was not assigned. -/
structure DecodedAudio where
  ret : ℤ
  out : List UInt8
  unassigned : Bool

namespace AudioDecoder

/-- The room for a frame in `decBuff`. -/
def decBuffSize : ℤ := 16000

/-- What is copied to `outBuff` at the end of a turn. -/
def put (s : AudioLoop) (outSize : ℤ) : AudioLoop :=
  if outSize ≤ 0 then { s with outSize := some outSize }
  else
    { s with
      outSize := some outSize
      decSize := s.decSize + outSize
      out := s.out ++ s.decBuff.bytes 0 outSize.toNat }

/-- The loop is left with a result if a frame is too large, with `AVERROR(EINVAL)`, or after an error. -/
def turn (s : AudioLoop) (a : AudioAnswer) : ℤ × List UInt8 ⊕ AudioLoop :=
  if a.len < 0 then .inl (-1, s.out)
  else match a.frame with
    | some frame =>
      if decBuffSize < frame.dataSize then .inl (-22, s.out)
      else .inr (put { s with decBuff := s.decBuff.copy 0 frame.plane } frame.dataSize)
    | none => .inr (put s 0)

/-- `old` is what happens to be in `outSize` before it is assigned. -/
def decodeAudio (ready : Bool) (fuel : ℕ) (answers : ℕ → AudioAnswer) (inBuffLen : ℤ) (decBuff : Mem) (old : ℤ) :
    Option DecodedAudio :=
  if !ready then some { ret := -1, out := [], unassigned := false }
  else
    match loop turn AudioAnswer.len fuel answers inBuffLen ⟨none, decBuff, 0, []⟩ with
    | none => none
    | some (.inl (ret, out)) => some { ret, out, unassigned := false }
    | some (.inr s) =>
      some { ret := if s.outSize.getD old ≤ 0 then -1 else s.decSize, out := s.out, unassigned := s.outSize.isNone }

def Stops (a : AudioAnswer) : Prop := a.len < 0 ∨ ∃ frame, a.frame = some frame ∧ decBuffSize < frame.dataSize

/-- The call with number `k` of the decoder is made. -/
abbrev Asked (answers : ℕ → AudioAnswer) (inBuffLen : ℤ) (k : ℕ) : Prop :=
  Drain.Asked Stops AudioAnswer.len answers inBuffLen k

theorem isLeft_turn (s : AudioLoop) (a : AudioAnswer) : (turn s a).isLeft = true ↔ Stops a := by
  unfold turn Stops
  by_cases hlen : a.len < 0
  · simp [hlen]
  · cases hf : a.frame with
    | none => simp [hlen]
    | some frame => by_cases hsize : decBuffSize < frame.dataSize <;> simp [hlen, hsize]

theorem len_nonneg_of_not_stops {a : AudioAnswer} (h : ¬ Stops a) : 0 ≤ a.len :=
  Int.not_lt.mp fun hlen => h (Or.inl hlen)

private theorem outSize_put (s : AudioLoop) (outSize : ℤ) : (put s outSize).outSize = some outSize := by
  unfold put
  split_ifs <;> rfl

private theorem outSize_turn {s s' : AudioLoop} {a : AudioAnswer} (h : turn s a = .inr s') :
    s'.outSize.isSome = true := by
  unfold turn at h
  split_ifs at h
  cases hf : a.frame with
  | none =>
    rw [hf] at h
    obtain rfl := Sum.inr.inj h
    rw [outSize_put]
    rfl
  | some frame =>
    rw [hf] at h
    simp only [] at h
    split_ifs at h
    obtain rfl := Sum.inr.inj h
    rw [outSize_put]
    rfl

variable {ready : Bool} {fuel : ℕ} {answers : ℕ → AudioAnswer} {inBuffLen old : ℤ} {decBuff : Mem}

theorem isSome_decodeAudio : (decodeAudio true fuel answers inBuffLen decBuff old).isSome =
    (loop turn AudioAnswer.len fuel answers inBuffLen ⟨none, decBuff, 0, []⟩).isSome := by
  unfold decodeAudio
  cases loop turn AudioAnswer.len fuel answers inBuffLen ⟨none, decBuff, 0, []⟩ with
  | none => rfl
  | some e => cases e <;> rfl

/-- Only an input with nothing in it leaves `outSize` unassigned. -/
theorem unassigned_decodeAudio {d : DecodedAudio}
    (h : decodeAudio true fuel answers inBuffLen decBuff old = some d) : d.unassigned = decide (inBuffLen ≤ 0) := by
  unfold decodeAudio at h
  by_cases hle : inBuffLen ≤ 0
  · rw [loop_of_le fuel hle] at h
    rw [decide_eq_true hle]
    cases h
    rfl
  · rw [decide_eq_false hle]
    cases hloop : loop turn AudioAnswer.len fuel answers inBuffLen ⟨none, decBuff, 0, []⟩ with
    | none =>
      rw [hloop] at h
      cases h
    | some e =>
      rw [hloop] at h
      cases e with
      | inl r =>
        cases h
        rfl
      | inr s =>
        rcases state_of_inr (P := fun s => s.outSize.isSome = true) (fun _ _ _ => outSize_turn) hloop with
          ⟨hle', -⟩ | hsome
        · exact absurd hle' hle
        · cases h
          rw [Option.isNone_eq_false_iff.mpr hsome]

/-- The call ends and tests an assigned variable exactly if there is an input and, whenever a call of the
decoder is made, it sooner or later uses something or has a frame that is too large. -/
theorem decodeAudio_ends_iff :
    (∃ fuel d, decodeAudio ready fuel answers inBuffLen decBuff old = some d ∧ d.unassigned = false) ↔
      (ready = true → 0 < inBuffLen ∧ ∀ k, Asked answers inBuffLen k → ∃ i ≥ k, (answers i).len ≠ 0 ∨
        ∃ frame, (answers i).frame = some frame ∧ decBuffSize < frame.dataSize) := by
  cases ready with
  | false => exact iff_of_true ⟨0, _, rfl, rfl⟩ nofun
  | true =>
    have hprogress (a : AudioAnswer) : Stops a ∨ 0 < a.len ↔
        a.len ≠ 0 ∨ ∃ frame, a.frame = some frame ∧ decBuffSize < frame.dataSize := by
      rw [ne_iff_lt_or_gt]
      exact or_right_comm
    have hends : (∃ fuel d, decodeAudio true fuel answers inBuffLen decBuff old = some d ∧ d.unassigned = false) ↔
        0 < inBuffLen ∧ ∀ k, Asked answers inBuffLen k → ∃ i ≥ k, Stops (answers i) ∨ 0 < (answers i).len :=
      exists_call_iff isLeft_turn (fun _ => len_nonneg_of_not_stops) (fun _ => isSome_decodeAudio) fun _ _ =>
        unassigned_decodeAudio
    simp only [hprogress] at hends
    rw [hends]
    exact ⟨fun h _ => h, fun h => h rfl⟩

end AudioDecoder

/-- Both decoders end with assigned variables exactly if they are not ready, or there is an input and
libavcodec does not go on for ever with answers that use nothing and, for video, have no picture, for audio,
have no frame that is too large. -/
theorem decodeLoops_iff (ready : Bool) (inBuffLen : ℤ) (videoAnswers : ℕ → VideoAnswer) (outBuffLen : ℕ)
    (oldPicture : Option Picture) (audioAnswers : ℕ → AudioAnswer) (decBuff : Mem) (oldSize : ℤ) :
    ((∃ fuel d, VideoDecoder.decodeVideo ready fuel videoAnswers inBuffLen outBuffLen oldPicture = some d ∧
        d.unassigned = false) ↔
      (ready = true → 0 < inBuffLen ∧ ∀ k, VideoDecoder.Asked videoAnswers inBuffLen k →
        ∃ i ≥ k, (videoAnswers i).len ≠ 0 ∨ (videoAnswers i).picture.isSome = true)) ∧
    ((∃ fuel d, AudioDecoder.decodeAudio ready fuel audioAnswers inBuffLen decBuff oldSize = some d ∧
        d.unassigned = false) ↔
      (ready = true → 0 < inBuffLen ∧ ∀ k, AudioDecoder.Asked audioAnswers inBuffLen k →
        ∃ i ≥ k, (audioAnswers i).len ≠ 0 ∨
          ∃ frame, (audioAnswers i).frame = some frame ∧ AudioDecoder.decBuffSize < frame.dataSize)) :=
  ⟨VideoDecoder.decodeVideo_ends_iff, AudioDecoder.decodeAudio_ends_iff⟩

/-- With an empty input both decoders test a variable that was not assigned; with one byte and a decoder that
uses nothing and has nothing they do not end. -/
theorem not_decodeLoops :
    (VideoDecoder.decodeVideo true 1 (fun _ => ⟨0, none⟩) 0 0 none).map DecodedVideo.unassigned = some true ∧
      (AudioDecoder.decodeAudio true 1 (fun _ => ⟨0, none⟩) 0 (fun _ => 0) 0).map DecodedAudio.unassigned = some true ∧
      (¬ ∃ fuel d, VideoDecoder.decodeVideo true fuel (fun _ => ⟨0, none⟩) 1 0 none = some d ∧ d.unassigned = false) ∧
      ¬ ∃ fuel d, AudioDecoder.decodeAudio true fuel (fun _ => ⟨0, none⟩) 1 (fun _ => 0) 0 = some d ∧
        d.unassigned = false := by
  refine ⟨by decide, by decide, fun h => ?_, fun h => ?_⟩
  · obtain ⟨-, hasked⟩ := VideoDecoder.decodeVideo_ends_iff.mp h rfl
    obtain ⟨i, -, hi⟩ := hasked 0 Int.one_pos
    simp at hi
  · obtain ⟨-, hasked⟩ := AudioDecoder.decodeAudio_ends_iff.mp h rfl
    obtain ⟨i, -, hi⟩ := hasked 0 Int.one_pos
    simp at hi

end Sfup.Media
