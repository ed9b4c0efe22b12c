import Sfup.Media.VideoUtils

/-! Where `vPutImage` writes. The size check looks at the clipped rectangle alone, and the lines are addressed in the
whole picture. All arithmetic is that of 32 bits, so that clipping and the check can wrap too. -/
namespace Sfup.Media.VideoUtils
open Mem

/-- The call returns -1 without writing, or writes inside the output. -/
def StaysInside (outBuffLen : UInt32) (put : Put) : Prop :=
  put.ret = some (-1) ∧ put.stores = [] ∨ ∀ a, Stored put.stores a → a < outBuffLen.toNat

/-- The call gets past its checks. -/
structure Writes (p : Placement) (format : ImgFormat) (outBuffLen : UInt32) : Prop where
  fitsW : p.outW ≤ p.totalW
  fitsH : p.outH ≤ p.totalH
  room : (clippedW p * clippedH p * format.BPP).toNat * format.factor2 ≤ 2 * outBuffLen.toNat
  scaled : p.inW ≠ clippedW p ∨ p.inH ≠ clippedH p → clippedW p * clippedH p ≠ 0 ∧
    (clippedW p * clippedH p).toNat * format.factor2 / 2 < 2 ^ 31

def PlaneFits (dst : ℕ) (W H X Y totalW BPP outBuffLen : UInt32) : Prop :=
  W * BPP ≠ 0 → ∀ i < H.toNat,
    dst + ((Y.toNat + i) * totalW.toNat + X.toNat) * BPP.toNat % 2 ^ 32 + (W * BPP).toNat ≤ outBuffLen.toNat

def PlanesFit (p : Placement) (format : ImgFormat) (outBuffLen : UInt32) : Prop :=
  PlaneFits 0 (clippedW p) (clippedH p) p.posX p.posY p.totalW format.BPP outBuffLen ∧
    (format = .I420P →
      PlaneFits (p.totalW * p.totalH).toNat (clippedW p / 2) (clippedH p / 2) (p.posX / 2) (p.posY / 2) (p.totalW / 2)
        1 outBuffLen ∧
      PlaneFits (p.totalW * p.totalH * 5 / 4).toNat (clippedW p / 2) (clippedH p / 2) (p.posX / 2) (p.posY / 2)
        (p.totalW / 2) 1 outBuffLen)

/-! ## One plane -/

section Plane
variable {inBuff : Mem} {src dst : ℕ} {W H X Y totalW BPP outBuffLen : UInt32} {mask : Option Mem} {invert : Bool}

theorem toNat_position2 (i : ℕ) : (totalW * BPP * Y + X * BPP + totalW * BPP * UInt32.ofNat i).toNat =
    ((Y.toNat + i) * totalW.toNat + X.toNat) * BPP.toNat % 2 ^ 32 := by
  have hofNat : UInt32.ofNat (((Y.toNat + i) * totalW.toNat + X.toNat) * BPP.toNat) =
      totalW * BPP * Y + X * BPP + totalW * BPP * UInt32.ofNat i := by
    simp only [UInt32.ofNat_add, UInt32.ofNat_mul, UInt32.ofNat_toNat]
    grind
  rw [← hofNat, UInt32.toNat_ofNat']

/-- Without a mask the lines are written as a whole. -/
theorem vPutImageP_inside_iff : (∀ a, Stored (vPutImageP inBuff src dst W H X Y totalW BPP none invert) a →
    a < outBuffLen.toNat) ↔ PlaneFits dst W H X Y totalW BPP outBuffLen := by
  have hstored {a : ℕ} : Stored (vPutImageP inBuff src dst W H X Y totalW BPP none invert) a ↔
      ∃ i < H.toNat, ∃ j < (W * BPP).toNat,
        a = dst + ((Y.toNat + i) * totalW.toNat + X.toNat) * BPP.toNat % 2 ^ 32 + j := by
    simp only [Stored, vPutImageP, mem_block, toNat_position2, Option.some.injEq, Prod.mk.injEq]
    constructor
    · rintro ⟨v, i, hi, j, hj, rfl, -⟩
      exact ⟨i, hi, j, hj, rfl⟩
    · rintro ⟨i, hi, j, hj, rfl⟩
      exact ⟨_, i, hi, j, hj, rfl, rfl⟩
  simp only [hstored]
  constructor
  · intro h hline i hi
    have hpos : 0 < (W * BPP).toNat := Nat.pos_of_ne_zero fun hzero => hline (UInt32.toNat_inj.mp hzero)
    have hlast := h _ ⟨i, hi, (W * BPP).toNat - 1, by omega, rfl⟩
    omega
  · rintro h a ⟨i, hi, j, hj, rfl⟩
    have hline : W * BPP ≠ 0 := fun hzero => by
      rw [hzero] at hj
      exact absurd hj (Nat.not_lt_zero j)
    have hend := h hline i hi
    omega

theorem vPutImageP_inside (h : PlaneFits dst W H X Y totalW BPP outBuffLen) {a : ℕ}
    (hs : Stored (vPutImageP inBuff src dst W H X Y totalW BPP mask invert) a) : a < outBuffLen.toNat := by
  cases mask with
  | none => exact vPutImageP_inside_iff.mpr h a hs
  | some mask =>
    obtain ⟨v, hv⟩ := hs
    obtain ⟨i, hi, j, hj, he⟩ := mem_block.mp hv
    obtain ⟨-, he⟩ := Option.ite_none_right_eq_some.mp he
    have hline : W * BPP ≠ 0 := fun hzero => by
      rw [hzero] at hj
      exact absurd hj (Nat.not_lt_zero j)
    have hend := h hline i hi
    have hlen := outBuffLen.toNat_lt
    have hj32 : j < 2 ^ 32 := hj.trans (W * BPP).toNat_lt
    have ha : a = dst + (((Y.toNat + i) * totalW.toNat + X.toNat) * BPP.toNat % 2 ^ 32 + j) % 2 ^ 32 := by
      rw [UInt32.toNat_add, toNat_position2, UInt32.toNat_ofNat', Nat.mod_eq_of_lt hj32] at he
      exact (Prod.mk.inj (Option.some.inj he)).1.symm
    rw [ha, Nat.mod_eq_of_lt (by omega)]
    omega

end Plane

/-! ## One call -/

private theorem toInt_of_lt {n : UInt32} (h : n.toNat < 2 ^ 31) : n.toInt32.toInt = n.toNat :=
  BitVec.toInt_eq_toNat_of_lt (show 2 * n.toNat < 2 ^ 32 by omega)

/-- Scaling into a buffer of the computed length fails only for an image without pixels. -/
theorem vRescale_le_zero_iff {format : ImgFormat} {outW outH : UInt32}
    (hlen : (outW * outH).toNat * format.factor2 / 2 < 2 ^ 31) :
    vRescale format (UInt32.ofNat ((outW * outH).toNat * format.factor2 / 2)) outW outH ≤ 0 ↔ outW * outH = 0 := by
  have hneeded : (rescaledSize format outW outH).toNat = (outW * outH).toNat * format.factor2 / 2 := by
    cases format with
    | I420P =>
      rw [ImgFormat.factor2] at hlen ⊢
      have hsmall : (outW * outH).toNat * 3 < 2 ^ 32 := by omega
      rw [rescaledSize, UInt32.toNat_div, UInt32.toNat_mul _ 3]
      simp only [UInt32.reduceToNat, Nat.mod_eq_of_lt hsmall]
    | RGB24 | BGR24 =>
      rw [ImgFormat.factor2] at hlen ⊢
      rw [rescaledSize, UInt32.toNat_mul _ 3]
      simp only [UInt32.reduceToNat]
      omega
  have henough : ¬ UInt32.ofNat ((outW * outH).toNat * format.factor2 / 2) < rescaledSize format outW outH := by
    rw [← hneeded, UInt32.ofNat_toNat]
    exact UInt32.lt_irrefl _
  rw [vRescale, if_neg henough, toInt_of_lt (by rwa [hneeded]), hneeded, ← UInt32.toNat_inj, UInt32.toNat_zero]
  cases format <;> simp only [ImgFormat.factor2] <;> omega

section Call
variable {p : Placement} {format outBuffLen : UInt32} {inBuff scaled : Mem} {mask : Option Mem} {invert : Bool}
  {f : ImgFormat}

/-- Behind its checks a call stores the planes of one of the two images. -/
theorem stores_of_writes (hf : ImgFormat.ofNumber format = some f) (h : Writes p f outBuffLen) :
    ∃ image, (vPutImage p format outBuffLen inBuff scaled mask invert).stores =
      putPlanes p f image (clippedW p) (clippedH p) mask invert := by
  have hfits : ¬ (p.totalW < p.outW ∨ p.totalH < p.outH) :=
    not_or.mpr ⟨UInt32.not_lt.mpr h.fitsW, UInt32.not_lt.mpr h.fitsH⟩
  have hroom := Nat.not_lt.mpr h.room
  have hscaled := h.scaled
  simp only [vPutImage, if_neg hfits, hf, if_neg hroom]
  by_cases hs : p.inW ≠ clippedW p ∨ p.inH ≠ clippedH p
  · obtain ⟨hpixels, hlen⟩ := hscaled hs
    have hret : ¬ vRescale f _ _ _ ≤ 0 := fun hle => hpixels ((vRescale_le_zero_iff hlen).mp hle)
    rw [if_pos hs, if_neg (Nat.not_le.mpr hlen), if_neg hret]
    exact ⟨scaled, rfl⟩
  · rw [if_neg hs]
    exact ⟨inBuff, rfl⟩

/-- A call that its checks stop stores nothing. -/
theorem stores_of_not_writes (h : ∀ f, ImgFormat.ofNumber format = some f → ¬ Writes p f outBuffLen) :
    (vPutImage p format outBuffLen inBuff scaled mask invert).stores = [] := by
  rw [vPutImage]
  by_cases hfits : p.totalW < p.outW ∨ p.totalH < p.outH
  · rw [if_pos hfits]
  · rw [if_neg hfits]
    obtain ⟨hW, hH⟩ := not_or.mp hfits
    cases hf : ImgFormat.ofNumber format with
    | none => rfl
    | some f =>
      have hstopped := h f hf
      simp only []
      by_cases hroom : 2 * outBuffLen.toNat < (clippedW p * clippedH p * f.BPP).toNat * f.factor2
      · rw [if_pos hroom]
      · rw [if_neg hroom]
        have hchecked := hstopped ∘ Writes.mk (UInt32.not_lt.mp hW) (UInt32.not_lt.mp hH) (Nat.not_lt.mp hroom)
        by_cases hs : p.inW ≠ clippedW p ∨ p.inH ≠ clippedH p
        · rw [if_pos hs]
          by_cases hlen : (clippedW p * clippedH p).toNat * f.factor2 / 2 < 2 ^ 31
          · rw [if_neg (Nat.not_le.mpr hlen), if_pos]
            by_contra hret
            exact hchecked fun _ => ⟨fun hzero => hret ((vRescale_le_zero_iff hlen).mpr hzero), hlen⟩
          · rw [if_pos (Nat.not_lt.mp hlen)]
        · exact absurd (fun hs' => absurd hs' hs) hchecked

theorem stored_putPlanes {image : Mem} {W H : UInt32} {a : ℕ} :
    Stored (putPlanes p f image W H mask invert) a ↔
      Stored (vPutImageP image 0 0 W H p.posX p.posY p.totalW f.BPP mask invert) a ∨ f = .I420P ∧
        (Stored (vPutImageP image (W * H).toNat (p.totalW * p.totalH).toNat (W / 2) (H / 2) (p.posX / 2) (p.posY / 2)
          (p.totalW / 2) 1 mask invert) a ∨
        Stored (vPutImageP image (W * H * 5 / 4).toNat (p.totalW * p.totalH * 5 / 4).toNat (W / 2) (H / 2)
          (p.posX / 2) (p.posY / 2) (p.totalW / 2) 1 mask invert) a) := by
  cases f <;> simp [putPlanes, ImgFormat.BPP, stored_append]

theorem staysInside_of_fit (h : ∀ f, ImgFormat.ofNumber format = some f → Writes p f outBuffLen →
    PlanesFit p f outBuffLen) : StaysInside outBuffLen (vPutImage p format outBuffLen inBuff scaled mask invert) := by
  refine Or.inr fun a hs => ?_
  by_cases hw : ∃ f, ImgFormat.ofNumber format = some f ∧ Writes p f outBuffLen
  · obtain ⟨f, hf, hw⟩ := hw
    obtain ⟨hfit0, hfitUV⟩ := h f hf hw
    obtain ⟨image, hstores⟩ := stores_of_writes hf hw
    rw [hstores, stored_putPlanes] at hs
    rcases hs with hs | ⟨hf, hs | hs⟩
    · exact vPutImageP_inside hfit0 hs
    · exact vPutImageP_inside (hfitUV hf).1 hs
    · exact vPutImageP_inside (hfitUV hf).2 hs
  · rw [stores_of_not_writes fun f hf hw' => hw ⟨f, hf, hw'⟩] at hs
    exact absurd hs not_stored_nil

end Call

/-- A call stays inside the output, whatever the buffers and the mask, exactly if its checks stop it or the lines of
all its planes end inside. -/
theorem outputBounds_iff (p : Placement) (format outBuffLen : UInt32) :
    (∀ inBuff scaled mask invert, StaysInside outBuffLen (vPutImage p format outBuffLen inBuff scaled mask invert)) ↔
      ∀ f, ImgFormat.ofNumber format = some f → Writes p f outBuffLen → PlanesFit p f outBuffLen := by
  constructor
  · intro hall f hf hw
    have hstays := hall (fun _ => 0) (fun _ => 0) none false
    obtain ⟨image, hstores⟩ := stores_of_writes hf hw
    rw [StaysInside, hstores] at hstays
    have hinside {a : ℕ} (hs : Stored (putPlanes p f image (clippedW p) (clippedH p) none false) a) :
        a < outBuffLen.toNat := by
      rcases hstays with ⟨-, hnil⟩ | hin
      · rw [hnil] at hs
        exact absurd hs not_stored_nil
      · exact hin a hs
    refine ⟨vPutImageP_inside_iff.mp fun a hs => hinside (stored_putPlanes.mpr (Or.inl hs)), fun hf => ?_⟩
    exact ⟨vPutImageP_inside_iff.mp fun a hs => hinside (stored_putPlanes.mpr (Or.inr ⟨hf, Or.inl hs⟩)),
      vPutImageP_inside_iff.mp fun a hs => hinside (stored_putPlanes.mpr (Or.inr ⟨hf, Or.inr hs⟩))⟩
  · intro h inBuff scaled mask invert
    exact staysInside_of_fit h

theorem planeFits_of_le {dst : ℕ} {W H X Y totalW outBuffLen : UInt32} (totalH : ℕ)
    (hW : X.toNat + W.toNat ≤ totalW.toNat) (hH : Y.toNat + H.toNat ≤ totalH)
    (hend : dst + totalH * totalW.toNat ≤ outBuffLen.toNat) : PlaneFits dst W H X Y totalW 1 outBuffLen := by
  intro _ i hi
  have hline : (Y.toNat + i + 1) * totalW.toNat ≤ totalH * totalW.toNat := Nat.mul_le_mul_right _ (by omega)
  rw [Nat.add_mul, Nat.one_mul] at hline
  have hone : (1 : UInt32).toNat = 1 := rfl
  have hlen := outBuffLen.toNat_lt
  rw [UInt32.mul_one, hone, Nat.mul_one, Nat.mod_eq_of_lt (by omega)]
  omega

/-- An I420P picture stays inside a buffer that has room for all of it, if its rectangle needs no clipping and no
product overflows. -/
theorem staysInside_of_whole {p : Placement} {outBuffLen : UInt32} {inBuff scaled : Mem} {mask : Option Mem}
    {invert : Bool} (hW : p.posX.toNat + p.outW.toNat ≤ p.totalW.toNat)
    (hH : p.posY.toNat + p.outH.toNat ≤ p.totalH.toNat) (hproduct : 5 * (p.totalW.toNat * p.totalH.toNat) < 2 ^ 32)
    (hlen : p.totalW.toNat * p.totalH.toNat * 3 / 2 ≤ outBuffLen.toNat) :
    StaysInside outBuffLen (vPutImage p 0 outBuffLen inBuff scaled mask invert) := by
  refine staysInside_of_fit fun f hf _ => ?_
  obtain rfl : ImgFormat.I420P = f := Option.some.inj hf
  have hquarter : p.totalH.toNat / 2 * (p.totalW.toNat / 2) ≤ p.totalW.toNat * p.totalH.toNat / 4 := by
    rw [Nat.mul_comm p.totalW.toNat]
    exact Nat.div_mul_div_le _ _ _ _
  have htotal : (p.totalW * p.totalH).toNat = p.totalW.toNat * p.totalH.toNat := by
    rw [UInt32.toNat_mul, Nat.mod_eq_of_lt]
    omega
  have hfive : (p.totalW * p.totalH * 5 / 4).toNat = p.totalW.toNat * p.totalH.toNat * 5 / 4 := by
    rw [toNat_fiveQuarters, htotal, Nat.mod_eq_of_lt (by omega)]
  have hclipW : clippedW p = p.outW := clip_of_fits hW
  have hclipH : clippedH p = p.outH := clip_of_fits hH
  have hhalfW : (p.posX / 2).toNat + (p.outW / 2).toNat ≤ (p.totalW / 2).toNat := by
    simp only [toNat_half]
    omega
  have hhalfH : (p.posY / 2).toNat + (p.outH / 2).toNat ≤ p.totalH.toNat / 2 := by
    simp only [toNat_half]
    omega
  rw [PlanesFit, hclipW, hclipH, htotal, hfive]
  refine ⟨planeFits_of_le _ hW hH ?_, fun _ => ⟨planeFits_of_le _ hhalfW hhalfH ?_, planeFits_of_le _ hhalfW hhalfH ?_⟩⟩
  · rw [Nat.mul_comm p.totalH.toNat]
    omega
  · rw [toNat_half]
    omega
  · rw [toNat_half]
    omega

/-- A tile in the corner of a picture of 4 × 4, with room for the tile alone: the check passes, and the tile is written
behind the 6 bytes. -/
theorem not_outputBounds : ¬ ∀ (p : Placement) (format outBuffLen : UInt32) (inBuff scaled : Mem) (mask : Option Mem)
    (invert : Bool), StaysInside outBuffLen (vPutImage p format outBuffLen inBuff scaled mask invert) := by
  intro hall
  rcases hall ⟨2, 2, 2, 2, 2, 2, 4, 4⟩ 0 6 (fun _ => 0) (fun _ => 0) none false with ⟨hret, -⟩ | hin
  · exact absurd hret (by decide)
  · exact absurd (hin 10 ⟨0, by decide +kernel⟩) (by decide)

end Sfup.Media.VideoUtils
