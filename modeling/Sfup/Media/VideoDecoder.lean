import Sfup.Lib.Drain
import Sfup.Lib.Stores

/-! `VideoDecoder::decodeVideo` of `media/codecs/VideoCodec.cpp`. What libavcodec answers to its calls is an
input. It takes no pictures so large that their sizes do not fit an `int`. -/
namespace Sfup.Media
open Drain

/-- A decoded picture: the size in the context of the decoder, and the bytes of each line of its planes. -/
structure Picture where
  width : ℕ
  height : ℕ
  line : Fin 3 → ℕ → Mem

/-- An answer of `avcodec_decode_video2`; there is a picture if it sets `got_picture`. -/
structure VideoAnswer where
  len : ℤ
  picture : Option Picture

/-- What `decodeVideo` returns and stores to `outBuff`, and whether a test read a variable that was not
assigned. -/
structure DecodedVideo where
  ret : ℤ
  gotFrame : Bool
  stores : List (ℕ × UInt8)
  unassigned : Bool

namespace VideoDecoder

/-- The loop is left with an error, for which there is no picture, or with a picture. Otherwise its state is
`got_picture`, once it is assigned. -/
def turn (_ : Option Bool) (a : VideoAnswer) : Option Picture ⊕ Option Bool :=
  if a.len < 0 then .inl none
  else match a.picture with
    | some picture => .inl (some picture)
    | none => .inr (some false)

def copyPlane (dst dst_linesize lines : ℕ) (src : ℕ → Mem) : List (ℕ × UInt8) :=
  Mem.block lines dst_linesize fun i j => some (dst + i * dst_linesize + j, src i j)

/-- What follows the label `decoding`. -/
def decoding (picture : Picture) (outBuffLen : ℕ) : ℤ × List (ℕ × UInt8) :=
  let outSize := picture.height * picture.width
  if outBuffLen < outSize * 3 / 2 then ((outSize * 3 / 2 : ℕ), [])
  else
    ((outSize * 3 / 2 : ℕ),
      copyPlane 0 picture.width picture.height (picture.line 0) ++
        copyPlane outSize (picture.width / 2) (picture.height / 2) (picture.line 1) ++
        copyPlane (outSize + outSize / 4) (picture.width / 2) (picture.height / 2) (picture.line 2))

/-- `old` is the picture of an earlier call if `got_picture` happens to be set before it is assigned. -/
def decodeVideo (ready : Bool) (fuel : ℕ) (answers : ℕ → VideoAnswer) (inBuffLen : ℤ) (outBuffLen : ℕ)
    (old : Option Picture) : Option DecodedVideo :=
  if !ready then some { ret := -1, gotFrame := false, stores := [], unassigned := false }
  else
    match loop turn VideoAnswer.len fuel answers inBuffLen none with
    | none => none
    | some (.inl none) => some { ret := -1, gotFrame := false, stores := [], unassigned := false }
    | some (.inl (some picture)) =>
      let (ret, stores) := decoding picture outBuffLen
      some { ret, gotFrame := true, stores, unassigned := false }
    | some (.inr got_picture) =>
      let unassigned := got_picture.isNone
      match if unassigned then old else none with
      | none => some { ret := -1, gotFrame := false, stores := [], unassigned }
      | some picture =>
        let (ret, stores) := decoding picture outBuffLen
        some { ret, gotFrame := false, stores, unassigned }

def Stops (a : VideoAnswer) : Prop := a.len < 0 ∨ a.picture.isSome = true

/-- The call with number `k` of the decoder is made. -/
abbrev Asked (answers : ℕ → VideoAnswer) (inBuffLen : ℤ) (k : ℕ) : Prop :=
  Drain.Asked Stops VideoAnswer.len answers inBuffLen k

theorem isLeft_turn (s : Option Bool) (a : VideoAnswer) : (turn s a).isLeft = true ↔ Stops a := by
  unfold turn Stops
  by_cases hlen : a.len < 0
  · simp [hlen]
  · cases hp : a.picture <;> simp [hlen]

theorem len_nonneg_of_not_stops {a : VideoAnswer} (h : ¬ Stops a) : 0 ≤ a.len :=
  Int.not_lt.mp fun hlen => h (Or.inl hlen)

variable {ready : Bool} {fuel : ℕ} {answers : ℕ → VideoAnswer} {inBuffLen : ℤ} {outBuffLen : ℕ}
  {old : Option Picture}

theorem isSome_decodeVideo : (decodeVideo true fuel answers inBuffLen outBuffLen old).isSome =
    (loop turn VideoAnswer.len fuel answers inBuffLen none).isSome := by
  unfold decodeVideo
  cases loop turn VideoAnswer.len fuel answers inBuffLen none with
  | none => rfl
  | some e =>
    cases e with
    | inl picture => cases picture <;> rfl
    | inr got_picture => cases got_picture <;> cases old <;> rfl

/-- Only an input with nothing in it leaves `got_picture` unassigned. -/
theorem unassigned_decodeVideo {d : DecodedVideo}
    (h : decodeVideo true fuel answers inBuffLen outBuffLen old = some d) :
    d.unassigned = decide (inBuffLen ≤ 0) := by
  unfold decodeVideo at h
  by_cases hle : inBuffLen ≤ 0
  · rw [loop_of_le fuel hle] at h
    rw [decide_eq_true hle]
    cases old <;> cases h <;> rfl
  · rw [decide_eq_false hle]
    cases hloop : loop turn VideoAnswer.len fuel answers inBuffLen none with
    | none =>
      rw [hloop] at h
      cases h
    | some e =>
      rw [hloop] at h
      cases e with
      | inl picture => cases picture <;> cases h <;> rfl
      | inr got_picture =>
        have hassigned : ∀ s a s', turn s a = .inr s' → s' = some false := by
          intro s a s' hturn
          unfold turn at hturn
          split_ifs at hturn
          cases hp : a.picture with
          | none =>
            rw [hp] at hturn
            exact (Sum.inr.inj hturn).symm
          | some picture =>
            rw [hp] at hturn
            cases hturn
        rcases state_of_inr hassigned hloop with ⟨hle', -⟩ | rfl
        · exact absurd hle' hle
        · cases h
          rfl

/-- The call ends and tests an assigned variable exactly if there is an input and, whenever a call of the
decoder is made, it sooner or later uses something, fails or has a picture. -/
theorem decodeVideo_ends_iff :
    (∃ fuel d, decodeVideo ready fuel answers inBuffLen outBuffLen old = some d ∧ d.unassigned = false) ↔
      (ready = true → 0 < inBuffLen ∧
        ∀ k, Asked answers inBuffLen k → ∃ i ≥ k, (answers i).len ≠ 0 ∨ (answers i).picture.isSome = true) := by
  cases ready with
  | false => exact iff_of_true ⟨0, _, rfl, rfl⟩ nofun
  | true =>
    have hprogress (a : VideoAnswer) : Stops a ∨ 0 < a.len ↔ a.len ≠ 0 ∨ a.picture.isSome = true := by
      rw [ne_iff_lt_or_gt]
      exact or_right_comm
    have hends : (∃ fuel d, decodeVideo true fuel answers inBuffLen outBuffLen old = some d ∧ d.unassigned = false) ↔
        0 < inBuffLen ∧ ∀ k, Asked answers inBuffLen k → ∃ i ≥ k, Stops (answers i) ∨ 0 < (answers i).len :=
      exists_call_iff isLeft_turn (fun _ => len_nonneg_of_not_stops) (fun _ => isSome_decodeVideo) fun _ _ =>
        unassigned_decodeVideo
    simp only [hprogress] at hends
    rw [hends]
    exact ⟨fun h _ => h, fun h => h rfl⟩

end VideoDecoder
end Sfup.Media
