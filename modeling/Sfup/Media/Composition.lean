import Sfup.Media.VideoUtils
import Mathlib.Tactic.Ring

/-! The composition of an I420P image into a picture of several participants by `vPutImage`. The offset of the V plane
is 5/4 of the luma size, and the product by 5 is formed in 32 bits. -/
namespace Sfup.Media.VideoUtils
open Mem

/-- The samples of a plane in lines of `w` from `dst` on. Those in the rectangle are the samples of the image where they
are selected, and the others are as before. -/
def Composed (image before after : Mem) (selected : ℕ → Bool) (src dst w h X Y W H : ℕ) : Prop :=
  ∀ y < h, ∀ x < w, after (dst + y * w + x) =
    if (X ≤ x ∧ x < X + W ∧ Y ≤ y ∧ y < Y + H) ∧ selected (dst + y * w + x) = true then
      image (src + (y - Y) * W + (x - X))
    else before (dst + y * w + x)

/-- The bytes of the luma plane. -/
def lumaSize (p : Placement) : ℕ := p.totalW.toNat * p.totalH.toNat

/-- The image fits its place as it is, and all sizes are even. -/
structure Placed (p : Placement) : Prop where
  sameW : p.inW = p.outW
  sameH : p.inH = p.outH
  evenW : 2 ∣ p.outW.toNat
  evenH : 2 ∣ p.outH.toNat
  evenX : 2 ∣ p.posX.toNat
  evenY : 2 ∣ p.posY.toNat
  evenTotalW : 2 ∣ p.totalW.toNat
  evenTotalH : 2 ∣ p.totalH.toNat
  fitsW : p.posX.toNat + p.outW.toNat ≤ p.totalW.toNat
  fitsH : p.posY.toNat + p.outH.toNat ≤ p.totalH.toNat
  product : lumaSize p < 2 ^ 31

/-- What a call should return and do to the three planes. -/
structure PutsImage (p : Placement) (image before : Mem) (mask : Option Mem) (invert : Bool) (put : Put) : Prop where
  ret : put.ret = some ((lumaSize p * 3 / 2 : ℕ) : ℤ)
  luma : Composed image before (before.store put.stores) (selected mask invert) 0 0 p.totalW.toNat p.totalH.toNat
    p.posX.toNat p.posY.toNat p.outW.toNat p.outH.toNat
  chromaU : Composed image before (before.store put.stores) (selected mask invert) (p.outW.toNat * p.outH.toNat)
    (lumaSize p) (p.totalW.toNat / 2) (p.totalH.toNat / 2) (p.posX.toNat / 2) (p.posY.toNat / 2) (p.outW.toNat / 2)
    (p.outH.toNat / 2)
  chromaV : Composed image before (before.store put.stores) (selected mask invert)
    (p.outW.toNat * p.outH.toNat * 5 / 4) (lumaSize p * 5 / 4) (p.totalW.toNat / 2) (p.totalH.toNat / 2)
    (p.posX.toNat / 2) (p.posY.toNat / 2) (p.outW.toNat / 2) (p.outH.toNat / 2)

/-! ## One plane -/

section Plane
variable {image before : Mem} {select : ℕ → Bool} {src dst w h X Y W H : ℕ}

theorem composed_store {stores earlier later : List (ℕ × UInt8)} (hX : X + W ≤ w)
    (hstores : stores = earlier ++ rectangle dst w X Y W H select (fun i j => image (src + i * W + j)) ++ later)
    (hother : ∀ a, dst ≤ a → a < dst + h * w → ¬ Stored earlier a ∧ ¬ Stored later a) :
    Composed image before (before.store stores) select src dst w h X Y W H := by
  intro y hy x hx
  have hline : (y + 1) * w ≤ h * w := Nat.mul_le_mul_right w hy
  rw [Nat.add_mul, Nat.one_mul] at hline
  obtain ⟨hearlier, hlater⟩ := hother (dst + y * w + x) (by omega) (by omega)
  rw [hstores, store_append, store_of_not_stored hlater, store_append, store_rectangle hX hx,
    store_of_not_stored hearlier]

theorem composed_empty (hempty : W = 0 ∨ H = 0) : Composed image before before select src dst w h X Y W H := by
  intro y hy x hx
  rw [if_neg]
  omega

theorem rectangle_eq_nil {pixel : ℕ → ℕ → UInt8} (hempty : W = 0 ∨ H = 0) :
    rectangle dst w X Y W H select pixel = [] := by
  refine List.eq_nil_iff_forall_not_mem.mpr fun ⟨a, v⟩ hs => ?_
  obtain ⟨-, i, hi, j, hj, -⟩ := mem_rectangle.mp hs
  omega

end Plane

/-! ## One call -/

section Call
variable {p : Placement} {outBuffLen : UInt32} {image before scaled : Mem} {mask : Option Mem} {invert : Bool}

theorem imageSize_le (h : Placed p) : p.outW.toNat * p.outH.toNat ≤ lumaSize p := by
  have hW := h.fitsW
  have hH := h.fitsH
  exact Nat.mul_le_mul (by omega) (by omega)

theorem chromaSize (h : Placed p) : 4 * (p.totalH.toNat / 2 * (p.totalW.toNat / 2)) = lumaSize p := by
  obtain ⟨w, hw⟩ := h.evenTotalW
  obtain ⟨k, hk⟩ := h.evenTotalH
  have hhalfW : 2 * w / 2 = w := by omega
  have hhalfH : 2 * k / 2 = k := by omega
  rw [lumaSize, hw, hk, hhalfW, hhalfH]
  ring

theorem toNat_lumaSize (h : Placed p) : (p.totalW * p.totalH).toNat = lumaSize p := by
  rw [UInt32.toNat_mul, Nat.mod_eq_of_lt]
  · rfl
  · exact h.product.trans (by decide)

theorem toNat_imageSize (h : Placed p) : (p.outW * p.outH).toNat = p.outW.toNat * p.outH.toNat := by
  rw [UInt32.toNat_mul, Nat.mod_eq_of_lt]
  exact ((imageSize_le h).trans_lt h.product).trans (by decide)

theorem vPutImage_of_placed (h : Placed p) (hlen : lumaSize p * 3 / 2 ≤ outBuffLen.toNat) :
    vPutImage p 0 outBuffLen image scaled mask invert =
      ⟨if lumaSize p * 3 / 2 < 2 ^ 31 then some ((lumaSize p * 3 / 2 : ℕ) : ℤ) else none,
        putPlanes p .I420P image p.outW p.outH mask invert⟩ := by
  have hW := h.fitsW
  have hH := h.fitsH
  have hsize := imageSize_le h
  have hchroma := chromaSize h
  have hroom : ¬ (p.totalW < p.outW ∨ p.totalH < p.outH) := by
    rw [UInt32.lt_iff_toNat_lt, UInt32.lt_iff_toNat_lt]
    omega
  have henough : ¬ 2 * outBuffLen.toNat < p.outW.toNat * p.outH.toNat * 3 := by omega
  have hsame : ¬ (p.inW ≠ p.outW ∨ p.inH ≠ p.outH) := by
    rw [h.sameW, h.sameH]
    exact not_or.mpr ⟨not_not.mpr rfl, not_not.mpr rfl⟩
  have hformat : ImgFormat.ofNumber 0 = some .I420P := rfl
  simp only [vPutImage, if_neg hroom, clippedW, clippedH, clip_of_fits hW, clip_of_fits hH, hformat, ImgFormat.BPP,
    ImgFormat.factor2, UInt32.mul_one, toNat_lumaSize h, toNat_imageSize h, if_neg henough, if_neg hsame]

/-- The three planes as rectangles. The offsets of the third have the product by 5 in 32 bits. -/
theorem putPlanes_of_placed (h : Placed p) :
    putPlanes p .I420P image p.outW p.outH mask invert =
      rectangle 0 p.totalW.toNat p.posX.toNat p.posY.toNat p.outW.toNat p.outH.toNat (selected mask invert)
        (fun i j => image (0 + i * p.outW.toNat + j)) ++
      rectangle (lumaSize p) (p.totalW.toNat / 2) (p.posX.toNat / 2) (p.posY.toNat / 2) (p.outW.toNat / 2)
        (p.outH.toNat / 2) (selected mask invert)
        (fun i j => image (p.outW.toNat * p.outH.toNat + i * (p.outW.toNat / 2) + j)) ++
      rectangle (lumaSize p * 5 % 2 ^ 32 / 4) (p.totalW.toNat / 2) (p.posX.toNat / 2) (p.posY.toNat / 2)
        (p.outW.toNat / 2) (p.outH.toNat / 2) (selected mask invert)
        (fun i j => image (p.outW.toNat * p.outH.toNat * 5 % 2 ^ 32 / 4 + i * (p.outW.toNat / 2) + j)) := by
  have hW := h.fitsW
  have hH := h.fitsH
  have hproduct := h.product
  have hluma : (p.posY.toNat + p.outH.toNat) * p.totalW.toNat < 2 ^ 32 := by
    have hle := Nat.mul_le_mul_right p.totalW.toNat hH
    rw [Nat.mul_comm p.totalH.toNat] at hle
    unfold lumaSize at hproduct
    omega
  have hchroma : (p.posY.toNat / 2 + p.outH.toNat / 2) * (p.totalW.toNat / 2) < 2 ^ 32 := by
    have hle : (p.posY.toNat / 2 + p.outH.toNat / 2) * (p.totalW.toNat / 2) ≤
        (p.posY.toNat + p.outH.toNat) * p.totalW.toNat := Nat.mul_le_mul (by omega) (by omega)
    omega
  have hhalfW : (p.posX / 2).toNat + (p.outW / 2).toNat ≤ (p.totalW / 2).toNat := by
    simp only [toNat_half]
    omega
  simp only [← toNat_half] at hchroma
  simp only [putPlanes, ImgFormat.BPP, UInt32.mul_one, toNat_fiveQuarters, toNat_lumaSize h, toNat_imageSize h]
  rw [vPutImageP_eq_rectangle hW hluma, vPutImageP_eq_rectangle hhalfW hchroma, vPutImageP_eq_rectangle hhalfW hchroma]
  simp only [toNat_half]

/-- Without an overflow the planes lie one behind the other. -/
theorem putsImage_of_lt (h : Placed p) (hlen : lumaSize p * 3 / 2 ≤ outBuffLen.toNat) (hfive : 5 * lumaSize p < 2 ^ 32) :
    PutsImage p image before mask invert (vPutImage p 0 outBuffLen image scaled mask invert) := by
  have hW := h.fitsW
  have hH := h.fitsH
  have hsize := imageSize_le h
  have hchroma := chromaSize h
  have hhalfW : p.posX.toNat / 2 + p.outW.toNat / 2 ≤ p.totalW.toNat / 2 := by omega
  have hhalfH : p.posY.toNat / 2 + p.outH.toNat / 2 ≤ p.totalH.toNat / 2 := by omega
  have hret : lumaSize p * 3 / 2 < 2 ^ 31 := by omega
  have hlines : p.totalH.toNat * p.totalW.toNat = lumaSize p := Nat.mul_comm _ _
  rw [vPutImage_of_placed h hlen, if_pos hret, putPlanes_of_placed h,
    Nat.mod_eq_of_lt (show lumaSize p * 5 < 2 ^ 32 by omega),
    Nat.mod_eq_of_lt (show p.outW.toNat * p.outH.toNat * 5 < 2 ^ 32 by omega)]
  refine ⟨rfl, composed_store hW (show _ = [] ++ _ ++ _ from List.append_assoc _ _ _) fun a hlo hhi =>
      ⟨not_stored_nil, fun hs => ?_⟩,
    composed_store hhalfW rfl fun a hlo hhi => ⟨fun hs => ?_, fun hs => ?_⟩,
    composed_store hhalfW (List.append_nil _).symm fun a hlo hhi => ⟨fun hs => ?_, not_stored_nil⟩⟩
  · rcases stored_append.mp hs with hU | hV
    · have hchromaU := range_of_rectangle hhalfW hhalfH hU
      omega
    · have hchromaV := range_of_rectangle hhalfW hhalfH hV
      omega
  · have hluma := range_of_rectangle hW hH hs
    omega
  · have hchromaV := range_of_rectangle hhalfW hhalfH hs
    omega
  · rcases stored_append.mp hs with hL | hU
    · have hluma := range_of_rectangle hW hH hL
      omega
    · have hchromaU := range_of_rectangle hhalfW hhalfH hU
      omega

theorem putsImage_of_empty (h : Placed p) (hlen : lumaSize p * 3 / 2 ≤ outBuffLen.toNat)
    (hempty : p.outW.toNat = 0 ∨ p.outH.toNat = 0) (hret : lumaSize p * 3 / 2 < 2 ^ 31) :
    PutsImage p image before mask invert (vPutImage p 0 outBuffLen image scaled mask invert) := by
  have hhalf : p.outW.toNat / 2 = 0 ∨ p.outH.toNat / 2 = 0 := by omega
  rw [vPutImage_of_placed h hlen, if_pos hret, putPlanes_of_placed h, rectangle_eq_nil hempty, rectangle_eq_nil hhalf,
    rectangle_eq_nil hhalf]
  exact ⟨rfl, composed_empty hempty, composed_empty hhalf, composed_empty hhalf⟩

/-- If the product by 5 overflows, the first sample of the V plane is not stored. -/
theorem not_putsImage_of_overflow (h : Placed p) (hlen : lumaSize p * 3 / 2 ≤ outBuffLen.toNat)
    (hW : p.outW.toNat ≠ 0) (hH : p.outH.toNat ≠ 0) (hfive : 2 ^ 32 ≤ 5 * lumaSize p) :
    ¬ PutsImage p (fun _ => 1) (fun _ => 0) none false
      (vPutImage p 0 outBuffLen (fun _ => 1) scaled none false) := by
  intro hputs
  have hfitsW := h.fitsW
  have hfitsH := h.fitsH
  have hevenW := h.evenW
  have hevenH := h.evenH
  have hproduct := h.product
  have hchroma := chromaSize h
  have hhalfW : p.posX.toNat / 2 + p.outW.toNat / 2 ≤ p.totalW.toNat / 2 := by omega
  have hhalfH : p.posY.toNat / 2 + p.outH.toNat / 2 ≤ p.totalH.toNat / 2 := by omega
  have hlines : p.totalH.toNat * p.totalW.toNat = lumaSize p := Nat.mul_comm _ _
  have hsample := hputs.chromaV (p.posY.toNat / 2) (by omega) (p.posX.toNat / 2) (by omega)
  rw [if_pos ⟨⟨by omega, by omega, by omega, by omega⟩, rfl⟩, store_of_not_stored] at hsample
  · exact absurd hsample (by decide)
  · rw [vPutImage_of_placed h hlen, putPlanes_of_placed h]
    have hwrapped : lumaSize p * 5 % 2 ^ 32 / 4 + 2 ^ 30 ≤ lumaSize p * 5 / 4 := by omega
    intro hs
    rcases stored_append.mp hs with hLU | hV
    · rcases stored_append.mp hLU with hL | hU
      · have hluma := range_of_rectangle hfitsW hfitsH hL
        omega
      · have hchromaU := range_of_rectangle hhalfW hhalfH hU
        omega
    · have hchromaV := range_of_rectangle hhalfW hhalfH hV
      omega

end Call

/-- The image is composed, whatever the buffers and the mask, exactly if the product by 5 fits 32 bits, or if there is
nothing to compose and the size fits an `int`. -/
theorem composition_iff {p : Placement} {outBuffLen : UInt32} (h : Placed p)
    (hlen : lumaSize p * 3 / 2 ≤ outBuffLen.toNat) :
    (∀ image scaled before mask invert,
      PutsImage p image before mask invert (vPutImage p 0 outBuffLen image scaled mask invert)) ↔
      5 * lumaSize p < 2 ^ 32 ∨ (p.outW.toNat = 0 ∨ p.outH.toNat = 0) ∧ lumaSize p * 3 / 2 < 2 ^ 31 := by
  constructor
  · intro hall
    by_cases hfive : 5 * lumaSize p < 2 ^ 32
    · exact Or.inl hfive
    · have hret : lumaSize p * 3 / 2 < 2 ^ 31 := by
        have hsome := (hall (fun _ => 0) (fun _ => 0) (fun _ => 0) none false).ret
        rw [vPutImage_of_placed h hlen] at hsome
        by_contra hlarge
        rw [if_neg hlarge] at hsome
        cases hsome
      refine Or.inr ⟨?_, hret⟩
      by_contra hpixels
      obtain ⟨hW, hH⟩ := not_or.mp hpixels
      exact not_putsImage_of_overflow h hlen hW hH (Nat.le_of_not_lt hfive)
        (hall (fun _ => 1) (fun _ => 0) (fun _ => 0) none false)
  · rintro (hfive | ⟨hempty, hret⟩) image scaled before mask invert
    · exact putsImage_of_lt h hlen hfive
    · exact putsImage_of_empty h hlen hempty hret

/-- A tile of 2 × 2 in the corner of a square. -/
def cornerTile (side : UInt32) : Placement := ⟨2, 2, 2, 2, side - 2, side - 2, side, side⟩

theorem placed_cornerTile {side : UInt32} (hlo : 2 ≤ side.toNat) (heven : 2 ∣ side.toNat)
    (hproduct : side.toNat * side.toNat < 2 ^ 31) : Placed (cornerTile side) := by
  have hpos : (side - 2).toNat = side.toNat - 2 := UInt32.toNat_sub_of_le side 2 hlo
  refine ⟨rfl, rfl, dvd_rfl, dvd_rfl, ?_, ?_, heven, heven, ?_, ?_, hproduct⟩ <;>
    simp only [cornerTile, hpos, UInt32.reduceToNat] <;> omega

/-- A tile over a picture of zeros, with a mask that selects every second byte. -/
theorem composition_cornerTile :
    PutsImage (cornerTile 640) UInt8.ofNat (fun _ => 0) (some fun i => UInt8.ofNat (i % 2)) false
      (vPutImage (cornerTile 640) 0 614400 UInt8.ofNat (fun _ => 0) (some fun i => UInt8.ofNat (i % 2)) false) :=
  (composition_iff (placed_cornerTile (by decide) (by decide) (by decide)) (by decide)).mpr (Or.inl (by decide)) ..

/-- The V plane of a tile in a picture of 32768 × 32768 is not where it should be. -/
theorem not_composition : ¬ ∀ (p : Placement) (outBuffLen : UInt32) (image scaled before : Mem) (mask : Option Mem)
    (invert : Bool), Placed p → lumaSize p * 3 / 2 ≤ outBuffLen.toNat →
      PutsImage p image before mask invert (vPutImage p 0 outBuffLen image scaled mask invert) := by
  intro hall
  have hplaced : Placed (cornerTile 32768) := placed_cornerTile (by decide) (by decide) (by decide)
  have hlen : lumaSize (cornerTile 32768) * 3 / 2 ≤ (1610612736 : UInt32).toNat := by decide
  exact not_putsImage_of_overflow hplaced hlen (by decide) (by decide) (by decide)
    (hall (cornerTile 32768) 1610612736 (fun _ => 1) (fun _ => 0) (fun _ => 0) none false hplaced hlen)

end Sfup.Media.VideoUtils
