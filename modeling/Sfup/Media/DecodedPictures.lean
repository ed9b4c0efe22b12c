import Sfup.Media.InputProcessor
import Sfup.Media.VideoDecoder
import Mathlib.Tactic.Ring

/-! What `deliverVideoData_` of `media/MediaProcessor.cpp` passes on of the pictures that the decoder makes.
The buffer has the configured size, and the decoder decides about the size of a picture. -/
namespace Sfup.Media
open Sfup.Rtp Sfup.Transition

/-- What decoding a frame depends on: whether there is a decoder, its answers, and the turns its loop may
take. -/
structure Decoding where
  ready : Bool
  answers : ℕ → VideoAnswer
  old : Option Picture
  fuel : ℕ

/-- The processor with the configured size of its pictures and the buffer for them. -/
structure VideoInput where
  proc : InputProcessor
  width : ℕ
  height : ℕ
  decodedBuffer : Mem

/-- The length of the data given to `receiveRawData`, if it is called, and what `decodeVideo` has stored to
the buffer. -/
structure Delivery where
  received : Option ℤ
  stores : List (ℕ × UInt8)

namespace VideoInput

/-- `width * height * 3 / 2`, the size of the buffer. -/
def decodedSize (v : VideoInput) : ℕ := v.width * v.height * 3 / 2

def init (unpackagedBuffer decodedBuffer : Mem) (width height : ℕ) : VideoInput :=
  { proc := .init unpackagedBuffer, width, height, decodedBuffer }

/-- `none` is a call that does not return. -/
def deliverVideoData (v : VideoInput) (decoding : Decoding) (packet : VideoPacket) : Option (Delivery × VideoInput) :=
  match v.proc.deliverVideoData packet with
  | (none, proc) => some (⟨none, []⟩, { v with proc })
  | (some frame, proc) => do
    let d ← VideoDecoder.decodeVideo decoding.ready decoding.fuel decoding.answers frame.length v.decodedSize
      decoding.old
    return (⟨if d.gotFrame && decide (0 < d.ret) then some d.ret else none, d.stores⟩,
      { v with proc, decodedBuffer := v.decodedBuffer.store d.stores })

def step (v : VideoInput) (call : Decoding × VideoPacket) : Option (Delivery × VideoInput) :=
  v.deliverVideoData call.1 call.2

/-- A state that some packets lead to. -/
def Reachable (v : VideoInput) : Prop :=
  ∃ unpackagedBuffer decodedBuffer width height calls deliveries,
    run? step (init unpackagedBuffer decodedBuffer width height) calls = some (deliveries, v)

/-- The bytes of the frame that a packet completes. -/
def frameLength (p : InputProcessor) (packet : VideoPacket) : Option ℕ :=
  if p.videoUnpackager = true ∧ p.videoDecoder = true ∧ RtpHeader.getPayloadType packet.buf 0 = 100 ∧
      RtpHeader.getMarker packet.buf 0 = true ∧ (InputProcessor.parsed packet).dataLength < 2 ^ 31 then
    some (p.upackagedSize + (InputProcessor.parsed packet).dataLength)
  else none

/-- Nothing is unpackaged. -/
structure Empty (p : InputProcessor) : Prop where
  size : p.upackagedSize = 0
  offset : p.unpackagedBufferPtr = 0
  frame : p.gotUnpackagedFrame = false

end VideoInput

/-- A picture that fits a buffer for the configured size and whose planes fill what they should. -/
def Picture.Fits (p : Picture) (size : ℕ) : Prop :=
  p.height * p.width = 0 ∨ p.height * p.width * 3 / 2 ≤ size ∧
    (2 ∣ p.width ∧ 2 ∣ p.height ∨ p.width = 1 ∧ p.height = 1)

namespace VideoInput

/-- The first answer of the decoder with a picture, if one is asked for, has a picture that fits. -/
def PictureFits (v : VideoInput) (decoding : Decoding) (packet : VideoPacket) : Prop :=
  ∀ n, frameLength v.proc packet = some n → decoding.ready = true →
    ∀ k picture, VideoDecoder.Asked decoding.answers n k → 0 ≤ (decoding.answers k).len →
      (decoding.answers k).picture = some picture → picture.Fits v.decodedSize

/-! ## The planes of a picture -/

/-- The planes of a picture fill less than they should, unless both sides are even. -/
theorem plane_gap {w h : ℕ} (hodd : ¬ (2 ∣ w ∧ 2 ∣ h)) (hbig : 2 ≤ h * w) :
    h * w + h * w / 4 + h / 2 * (w / 2) < h * w * 3 / 2 := by
  have hprod : h * w = 4 * (h / 2 * (w / 2)) + 2 * (h / 2 * (w % 2)) + 2 * (h % 2 * (w / 2)) + h % 2 * (w % 2) := by
    conv_lhs => rw [← Nat.div_add_mod h 2, ← Nat.div_add_mod w 2]
    ring
  have hx : w / 2 = 0 → h / 2 * (w / 2) = 0 := fun hzero => by rw [hzero, Nat.mul_zero]
  have hy : h / 2 = 0 → h / 2 * (w / 2) = 0 := fun hzero => by rw [hzero, Nat.zero_mul]
  generalize h / 2 * (w / 2) = q at hprod hx hy ⊢
  rcases Nat.mod_two_eq_zero_or_one w with hw | hw <;> rcases Nat.mod_two_eq_zero_or_one h with hh | hh <;>
    simp only [hw, hh, Nat.mul_zero, Nat.zero_mul, Nat.mul_one, Nat.one_mul, Nat.add_zero] at hprod
  · exact absurd ⟨Nat.dvd_of_mod_eq_zero hw, Nat.dvd_of_mod_eq_zero hh⟩ hodd
  · omega
  · omega
  · omega

theorem fst_decoding (picture : Picture) (size : ℕ) :
    (VideoDecoder.decoding picture size).1 = (picture.height * picture.width * 3 / 2 : ℕ) := by
  simp only [VideoDecoder.decoding]
  split_ifs <;> rfl

private theorem stored_copyPlane {dst dst_linesize lines a : ℕ} {src : ℕ → Mem} :
    Mem.Stored (VideoDecoder.copyPlane dst dst_linesize lines src) a ↔ dst ≤ a ∧ a < dst + lines * dst_linesize :=
  Mem.stored_block_dense

theorem stored_decoding {picture : Picture} {size a : ℕ} (hsize : picture.height * picture.width * 3 / 2 ≤ size) :
    Mem.Stored (VideoDecoder.decoding picture size).2 a ↔
      a < picture.height * picture.width ∨
      picture.height * picture.width ≤ a ∧
        a < picture.height * picture.width + picture.height / 2 * (picture.width / 2) ∨
      picture.height * picture.width + picture.height * picture.width / 4 ≤ a ∧
        a < picture.height * picture.width + picture.height * picture.width / 4 +
          picture.height / 2 * (picture.width / 2) := by
  rw [VideoDecoder.decoding, if_neg (not_lt.mpr hsize)]
  simp only [Mem.stored_append, stored_copyPlane, Nat.zero_le, true_and, Nat.zero_add, or_assoc]

/-- A picture is stored as a whole, and nothing else is, exactly if it fits. -/
theorem decoding_iff {picture : Picture} {size : ℕ} (hpos : 0 < picture.height * picture.width) :
    (picture.height * picture.width * 3 / 2 ≤ size ∧ ∀ a, Mem.Stored (VideoDecoder.decoding picture size).2 a ↔
      a < picture.height * picture.width * 3 / 2) ↔ picture.Fits size := by
  constructor
  · rintro ⟨hsize, hfilled⟩
    refine Or.inr ⟨hsize, ?_⟩
    by_contra hsides
    obtain ⟨hodd, hone⟩ := not_or.mp hsides
    have hbig : 2 ≤ picture.height * picture.width := by
      by_contra hsmall
      have hprod : picture.height * picture.width = 1 := by omega
      exact hone ⟨Nat.eq_one_of_mul_eq_one_left hprod, Nat.eq_one_of_mul_eq_one_right hprod⟩
    have hgap := plane_gap hodd hbig
    have hlast := (hfilled (picture.height * picture.width * 3 / 2 - 1)).mpr (by omega)
    rw [stored_decoding hsize] at hlast
    omega
  · rintro (hzero | ⟨hsize, hsides⟩)
    · omega
    · refine ⟨hsize, fun a => (stored_decoding hsize).trans ?_⟩
      rcases hsides with ⟨⟨x, hx⟩, y, hy⟩ | ⟨hx, hy⟩
      · have hprod : 2 * y * (2 * x) = 4 * (y * x) := by ring
        have hhalf : 2 * y / 2 * (2 * x / 2) = y * x := by congr 1 <;> omega
        rw [hx, hy, hprod, hhalf]
        omega
      · rw [hx, hy]
        omega

/-! ## One packet -/

section Packet
variable {v v' : VideoInput} {decoding : Decoding} {packet : VideoPacket} {out : Delivery}

/-- The offset of the next payload is the size of those before it. -/
structure Consistent (v : VideoInput) : Prop where
  offset : v.proc.unpackagedBufferPtr = v.proc.upackagedSize

/-- The bytes that are given to the decoder, by their number. -/
theorem frameLength_eq (p : InputProcessor) (packet : VideoPacket) :
    (p.deliverVideoData packet).1.map List.length = frameLength p packet := by
  unfold frameLength
  cases hu : p.videoUnpackager with
  | false => simp [InputProcessor.deliverVideoData, hu]
  | true =>
    cases hd : p.videoDecoder with
    | false => simp [InputProcessor.deliverVideoData, hd]
    | true =>
      simp only [InputProcessor.deliverVideoData, InputProcessor.unpackageVideo, hu, hd]
      by_cases ht : RtpHeader.getPayloadType packet.buf 0 = 100
      · by_cases hn : (InputProcessor.parsed packet).dataLength < 2 ^ 31
        · simp only [ht, hn]
          cases hm : RtpHeader.getMarker packet.buf 0 <;> simp
        · simp only [ht, hn]
          simp
      · simp [ht]

/-- One packet keeps the offset where it belongs, and one that completes a frame leaves nothing. -/
theorem consistent_deliverVideoData {p : InputProcessor} (packet : VideoPacket) (h : p.unpackagedBufferPtr = p.upackagedSize) :
    (p.deliverVideoData packet).2.unpackagedBufferPtr = (p.deliverVideoData packet).2.upackagedSize ∧
      ((p.deliverVideoData packet).1.isSome = true → Empty (p.deliverVideoData packet).2) := by
  cases hu : p.videoUnpackager with
  | false => simpa [InputProcessor.deliverVideoData, hu] using h
  | true =>
    cases hd : p.videoDecoder with
    | false => simpa [InputProcessor.deliverVideoData, hd] using h
    | true =>
      simp only [InputProcessor.deliverVideoData, InputProcessor.unpackageVideo, hu, hd]
      by_cases ht : RtpHeader.getPayloadType packet.buf 0 = 100
      · by_cases hn : (InputProcessor.parsed packet).dataLength < 2 ^ 31
        · simp only [ht, hn]
          cases hm : RtpHeader.getMarker packet.buf 0 with
          | false => simpa using h
          | true =>
            have hptr : p.unpackagedBufferPtr + (InputProcessor.parsed packet).dataLength -
                (p.upackagedSize + (InputProcessor.parsed packet).dataLength) = 0 := by omega
            simp [hptr]
            exact ⟨rfl, rfl, rfl⟩
        · simp only [ht, hn]
          simpa using h
      · simpa [ht] using h

theorem turn_eq_inl_iff {s : Option Bool} {a : VideoAnswer} {picture : Picture} :
    VideoDecoder.turn s a = .inl (some picture) ↔ 0 ≤ a.len ∧ a.picture = some picture := by
  unfold VideoDecoder.turn
  by_cases hlen : a.len < 0
  · rw [if_pos hlen]
    exact iff_of_false nofun fun h => absurd hlen (Int.not_lt.mpr h.1)
  · rw [if_neg hlen]
    cases hp : a.picture with
    | none => exact iff_of_false nofun nofun
    | some picture' => simp [Int.not_lt.mp hlen]

theorem passed_iff {picture : Picture} {size : ℕ} :
    (∀ c, (if true && decide (0 < (VideoDecoder.decoding picture size).1) then
      some (VideoDecoder.decoding picture size).1 else none) = some c →
        c ≤ size ∧ ∀ a : ℕ, Mem.Stored (VideoDecoder.decoding picture size).2 a ↔ (a : ℤ) < c) ↔
      picture.Fits size := by
  rw [fst_decoding]
  by_cases hpos : 0 < picture.height * picture.width
  · have hret : (0 : ℤ) < (picture.height * picture.width * 3 / 2 : ℕ) := by omega
    rw [← decoding_iff hpos, decide_eq_true hret]
    simp only [Bool.and_self, if_true, Option.some.injEq, forall_eq', Nat.cast_le, Nat.cast_lt]
  · have hzero : picture.height * picture.width = 0 := Nat.eq_zero_of_not_pos hpos
    rw [hzero]
    exact iff_of_true nofun (Or.inl hzero)

/-- What is passed on of a frame that is given to the decoder. -/
theorem passed_decodeVideo_iff {ready : Bool} {fuel n size : ℕ} {answers : ℕ → VideoAnswer} {old : Option Picture}
    {d : DecodedVideo} (h : VideoDecoder.decodeVideo ready fuel answers n size old = some d) :
    (∀ c, (if d.gotFrame && decide (0 < d.ret) then some d.ret else none) = some c →
        c ≤ size ∧ ∀ a : ℕ, Mem.Stored d.stores a ↔ (a : ℤ) < c) ↔
      (ready = true → ∀ k picture, VideoDecoder.Asked answers n k → 0 ≤ (answers k).len →
        (answers k).picture = some picture → picture.Fits size) := by
  cases ready with
  | false =>
    cases h
    exact iff_of_true nofun nofun
  | true =>
    unfold VideoDecoder.decodeVideo at h
    have hfirst {k picture x} (hk : VideoDecoder.Asked answers n k) (hlen : 0 ≤ (answers k).len)
        (hp : (answers k).picture = some picture)
        (hloop : Drain.loop VideoDecoder.turn VideoAnswer.len fuel answers n none = some x) :
        x = .inl (some picture) :=
      Drain.eq_inl_of_asked VideoDecoder.isLeft_turn hk (fun s => turn_eq_inl_iff.mpr ⟨hlen, hp⟩) hloop
    cases hloop : Drain.loop VideoDecoder.turn VideoAnswer.len fuel answers n none with
    | none =>
      rw [hloop] at h
      cases h
    | some e =>
      rw [hloop] at h
      cases e with
      | inl result =>
        cases result with
        | none =>
          cases h
          refine iff_of_true nofun fun _ k picture hk hlen hp => ?_
          cases hfirst hk hlen hp hloop
        | some picture =>
          cases h
          refine passed_iff.trans ⟨fun hfits _ k picture' hk hlen hp => ?_, fun hfits => ?_⟩
          · cases hfirst hk hlen hp hloop
            exact hfits
          · obtain ⟨k, s, hk, hturn⟩ := Drain.exists_asked_of_inl VideoDecoder.isLeft_turn hloop
            obtain ⟨hlen, hp⟩ := turn_eq_inl_iff.mp hturn
            exact hfits rfl k picture hk hlen hp
      | inr got_picture =>
        have hd : d.gotFrame = false := by
          simp only [Bool.not_true, Bool.false_eq_true, if_false] at h
          split at h <;> cases h <;> rfl
        rw [hd]
        refine iff_of_true nofun fun _ k picture hk hlen hp => ?_
        cases hfirst hk hlen hp hloop

private theorem consistent_step (h : Consistent v) (hs : step v (decoding, packet) = some (out, v')) :
    Consistent v' := by
  unfold step deliverVideoData at hs
  have hp := (consistent_deliverVideoData packet h.offset).1
  generalize v.proc.deliverVideoData packet = r at hp hs
  obtain ⟨frame, proc⟩ := r
  cases frame with
  | none =>
    cases hs
    exact ⟨hp⟩
  | some frame =>
    obtain ⟨d, -, hd⟩ := Option.bind_eq_some_iff.mp hs
    cases hd
    exact ⟨hp⟩

end Packet

/-! ## Runs -/

theorem consistent_of_reachable {v : VideoInput} (h : Reachable v) : Consistent v := by
  obtain ⟨unpackagedBuffer, decodedBuffer, width, height, calls, deliveries, hrun⟩ := h
  have hinit : Consistent (init unpackagedBuffer decodedBuffer width height) := ⟨rfl⟩
  have halways : Along step (fun _ _ => True) (init unpackagedBuffer decodedBuffer width height) calls :=
    along_of_forall (fun _ _ => trivial) _ calls
  exact run?_invariant (fun s call out s' hI _ hs => consistent_step hI hs) hinit halways hrun

/-- What is passed on has the length that was decoded, and nothing stays unpackaged behind a frame, exactly if
the picture fits. -/
theorem decodedPictures_iff {v v' : VideoInput} {decoding : Decoding} {packet : VideoPacket} {out : Delivery}
    (h : Reachable v) (hs : step v (decoding, packet) = some (out, v')) :
    ((∀ c, out.received = some c → c ≤ v.decodedSize ∧ ∀ a : ℕ, Mem.Stored out.stores a ↔ (a : ℤ) < c) ∧
      ((frameLength v.proc packet).isSome = true → Empty v'.proc)) ↔ PictureFits v decoding packet := by
  unfold PictureFits
  unfold step deliverVideoData at hs
  obtain ⟨-, hempty⟩ := consistent_deliverVideoData packet (consistent_of_reachable h).offset
  rw [← frameLength_eq]
  generalize v.proc.deliverVideoData packet = r at hempty hs
  obtain ⟨frame, proc⟩ := r
  cases frame with
  | none =>
    cases hs
    exact iff_of_true ⟨nofun, nofun⟩ nofun
  | some frame =>
    obtain ⟨d, hd, hd'⟩ := Option.bind_eq_some_iff.mp hs
    cases hd'
    have hreset : Empty proc := hempty rfl
    simp only [Option.map_some, Option.some.injEq, forall_eq', and_iff_left fun _ => hreset]
    exact passed_decodeVideo_iff hd

/-- The decoder answers with a black picture. -/
def black (side : ℕ) : Decoding := ⟨true, fun _ => ⟨1, some ⟨side, side, fun _ _ _ => 0⟩⟩, none, 1⟩

/-- A packet that is a frame of its own. -/
def keyFrame : VideoPacket := ⟨vp8Packet 1 true 0x10 0, 14, .zero⟩

/-- The processor for pictures of 2 × 2. -/
def tiny : VideoInput := init (fun _ => 0) (fun _ => 0) 2 2

theorem reachable_tiny : Reachable tiny := ⟨fun _ => 0, fun _ => 0, 2, 2, [], [], rfl⟩

/-- A picture of the configured size is passed on. -/
theorem decodedPictures_tiny : ∃ out v', step tiny (black 2, keyFrame) = some (out, v') ∧ out.received = some 6 ∧
    (∀ c, out.received = some c → c ≤ tiny.decodedSize ∧ ∀ a : ℕ, Mem.Stored out.stores a ↔ (a : ℤ) < c) ∧
      ((frameLength tiny.proc keyFrame).isSome = true → Empty v'.proc) := by
  have hfits : PictureFits tiny (black 2) keyFrame := by
    intro n _ _ k picture _ _ hp
    obtain rfl := Option.some.inj hp
    exact Or.inr ⟨by decide, Or.inl ⟨by decide, by decide⟩⟩
  have hstep : step tiny (black 2, keyFrame) = some (_, _) := rfl
  exact ⟨_, _, hstep, rfl, (decodedPictures_iff reachable_tiny hstep).mpr hfits⟩

/-- A picture of 4 × 4 for a buffer of 6 bytes: nothing is stored, and 24 bytes are passed on. -/
theorem not_decodedPictures : ¬ ∀ (v v' : VideoInput) (decoding : Decoding) (packet : VideoPacket) (out : Delivery),
    Reachable v → step v (decoding, packet) = some (out, v') →
      (∀ c, out.received = some c → c ≤ v.decodedSize ∧ ∀ a : ℕ, Mem.Stored out.stores a ↔ (a : ℤ) < c) ∧
      ((frameLength v.proc packet).isSome = true → Empty v'.proc) := by
  intro h
  have hpassed := (h tiny _ (black 4) keyFrame _ reachable_tiny rfl).1 24 rfl
  exact absurd hpassed.1 (by decide)

end VideoInput
end Sfup.Media
