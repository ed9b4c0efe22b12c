import Sfup.Lib.Stores
import Mathlib.Data.Int.Init

/-! `VideoUtils::vPutImage` of `media/mixers/VideoUtils.cpp`. An `unsigned int` is a `UInt32`, and the addresses of the
stores count from `outBuff` on. What `vRescale` puts into its own buffer is computed with floats and is an input. -/
namespace Sfup.Media

inductive ImgFormat where
  | I420P
  | RGB24
  | BGR24
  deriving DecidableEq

/-- The sizes and positions of a call. -/
structure Placement where
  inW : UInt32
  inH : UInt32
  outW : UInt32
  outH : UInt32
  posX : UInt32
  posY : UInt32
  totalW : UInt32
  totalH : UInt32

/-- What a call returns and stores to `outBuff`. Without a return value it aborts, or a size is converted to an `int`
that it does not fit. -/
structure Put where
  ret : Option ℤ
  stores : List (ℕ × UInt8)

namespace ImgFormat

def ofNumber (format : UInt32) : Option ImgFormat :=
  if format = 0 then some I420P
  else if format = 1 then some RGB24
  else if format = 2 then some BGR24
  else none

/-- `2 * factor` -/
def factor2 : ImgFormat → ℕ
  | I420P => 3
  | RGB24 | BGR24 => 6

def BPP : ImgFormat → UInt32
  | I420P => 1
  | RGB24 | BGR24 => 3

end ImgFormat

namespace VideoUtils

/-- `src` and `dst` are where the plane starts in `inBuff`, and in `outBuff` and the mask. -/
def vPutImageP (inBuff : Mem) (src dst : ℕ) (W H X Y totalW BPP : UInt32) (mask : Option Mem) (invert : Bool) :
    List (ℕ × UInt8) :=
  let lineSize1 := W * BPP
  let lineSize2 := totalW * BPP
  let initRectPos2 := lineSize2 * Y + X * BPP
  Mem.block H.toNat lineSize1.toNat fun i j =>
    let position1 := lineSize1 * UInt32.ofNat i
    let position2 := initRectPos2 + lineSize2 * UInt32.ofNat i
    match mask with
    | some mask =>
      let pixel1 := src + (position1 + UInt32.ofNat j).toNat
      let pixel2 := dst + (position2 + UInt32.ofNat j).toNat
      if (mask pixel2 != 0) ^^ invert then some (pixel2, inBuff pixel1) else none
    | none => some (dst + position2.toNat + j, inBuff (src + position1.toNat + j))

/-- The bytes that `vRescale` asks for. -/
def rescaledSize (format : ImgFormat) (outW outH : UInt32) : UInt32 :=
  match format with
  | .I420P => outW * outH * 3 / 2
  | .RGB24 | .BGR24 => outW * outH * 3

/-- The return value of `vRescale`. -/
def vRescale (format : ImgFormat) (outBuffLen outW outH : UInt32) : ℤ :=
  if outBuffLen < rescaledSize format outW outH then -1 else (rescaledSize format outW outH).toInt32.toInt

/-- The stores for the planes of an image of `outW × outH`. -/
def putPlanes (p : Placement) (format : ImgFormat) (image : Mem) (outW outH : UInt32) (mask : Option Mem)
    (invert : Bool) : List (ℕ × UInt8) :=
  let BPP := format.BPP
  let plane0 := vPutImageP image 0 0 outW outH p.posX p.posY p.totalW BPP mask invert
  match format with
  | .I420P =>
    plane0 ++
      vPutImageP image (outW * outH * BPP).toNat (p.totalW * p.totalH * BPP).toNat (outW / 2) (outH / 2)
        (p.posX / 2) (p.posY / 2) (p.totalW / 2) BPP mask invert ++
      vPutImageP image (outW * outH * BPP * 5 / 4).toNat (p.totalW * p.totalH * BPP * 5 / 4).toNat (outW / 2)
        (outH / 2) (p.posX / 2) (p.posY / 2) (p.totalW / 2) BPP mask invert
  | .RGB24 | .BGR24 => plane0

def clip (pos out total : UInt32) : UInt32 := if total < pos + out then total - pos else out

def clippedW (p : Placement) : UInt32 := clip p.posX p.outW p.totalW

def clippedH (p : Placement) : UInt32 := clip p.posY p.outH p.totalH

def vPutImage (p : Placement) (format outBuffLen : UInt32) (inBuff scaled : Mem) (mask : Option Mem)
    (invert : Bool) : Put :=
  if p.totalW < p.outW ∨ p.totalH < p.outH then ⟨some (-1), []⟩
  else
    let outW := clippedW p
    let outH := clippedH p
    match ImgFormat.ofNumber format with
    | none => ⟨none, []⟩
    | some format =>
      if 2 * outBuffLen.toNat < (outW * outH * format.BPP).toNat * format.factor2 then ⟨some (-1), []⟩
      else
        let len := (outW * outH).toNat * format.factor2 / 2
        let size := (p.totalW * p.totalH * format.BPP).toNat * format.factor2 / 2
        let ret : Option ℤ := if size < 2 ^ 31 then some size else none
        if p.inW ≠ outW ∨ p.inH ≠ outH then
          if 2 ^ 31 ≤ len then ⟨none, []⟩
          else if vRescale format (UInt32.ofNat len) outW outH ≤ 0 then ⟨some (-1), []⟩
          else ⟨ret, putPlanes p format scaled outW outH mask invert⟩
        else ⟨ret, putPlanes p format inBuff outW outH mask invert⟩

theorem toNat_half (n : UInt32) : (n / 2).toNat = n.toNat / 2 := UInt32.toNat_div n 2

theorem toNat_fiveQuarters (n : UInt32) : (n * 5 / 4).toNat = n.toNat * 5 % 2 ^ 32 / 4 := by
  rw [UInt32.toNat_div, UInt32.toNat_mul]
  rfl

theorem clip_of_fits {pos out total : UInt32} (h : pos.toNat + out.toNat ≤ total.toNat) : clip pos out total = out := by
  have hsum : (pos + out).toNat = pos.toNat + out.toNat := by
    rw [UInt32.toNat_add, Nat.mod_eq_of_lt]
    exact h.trans_lt total.toNat_lt
  rw [clip, if_neg]
  rw [UInt32.lt_iff_toNat_lt, hsum]
  omega

def selected (mask : Option Mem) (invert : Bool) (a : ℕ) : Bool :=
  match mask with
  | some mask => (mask a != 0) ^^ invert
  | none => true

/-- If no position exceeds 32 bits, a plane with one byte for each sample is stored as a rectangle. -/
theorem vPutImageP_eq_rectangle {W H X Y totalW : UInt32} (hX : X.toNat + W.toNat ≤ totalW.toNat)
    (hY : (Y.toNat + H.toNat) * totalW.toNat < 2 ^ 32) (inBuff : Mem) (src dst : ℕ) (mask : Option Mem)
    (invert : Bool) :
    vPutImageP inBuff src dst W H X Y totalW 1 mask invert =
      Mem.rectangle dst totalW.toNat X.toNat Y.toNat W.toNat H.toNat (selected mask invert) fun i j =>
        inBuff (src + i * W.toNat + j) := by
  rw [vPutImageP, UInt32.mul_one, UInt32.mul_one, UInt32.mul_one]
  refine Mem.block_congr fun i hi j hj => ?_
  have hline : (Y.toNat + i + 1) * totalW.toNat ≤ (Y.toNat + H.toNat) * totalW.toNat :=
    Nat.mul_le_mul_right _ (by omega)
  have hrest : i * W.toNat ≤ i * totalW.toNat := Nat.mul_le_mul_left i (by omega)
  rw [Nat.add_mul, Nat.one_mul, Nat.add_mul] at hline
  have hi32 : i < 2 ^ 32 := hi.trans H.toNat_lt
  have hj32 : j < 2 ^ 32 := hj.trans W.toNat_lt
  have hposition1 : (W * UInt32.ofNat i).toNat = i * W.toNat := by
    rw [UInt32.toNat_mul, UInt32.toNat_ofNat', Nat.mod_eq_of_lt hi32, Nat.mul_comm, Nat.mod_eq_of_lt]
    omega
  have hposition2 : (totalW * Y + X + totalW * UInt32.ofNat i).toNat = (Y.toNat + i) * totalW.toNat + X.toNat := by
    simp only [UInt32.toNat_add, UInt32.toNat_mul, UInt32.toNat_ofNat', Nat.mod_eq_of_lt hi32]
    rw [Nat.mul_comm totalW.toNat Y.toNat, Nat.mul_comm totalW.toNat i, Nat.add_mul]
    omega
  rw [Nat.add_mul] at hposition2
  cases mask with
  | none =>
    simp only [selected, if_true, hposition1, hposition2, Nat.add_mul]
    congr 2
    omega
  | some mask =>
    have hpixel1 : (W * UInt32.ofNat i + UInt32.ofNat j).toNat = i * W.toNat + j := by
      rw [UInt32.toNat_add, hposition1, UInt32.toNat_ofNat', Nat.mod_eq_of_lt hj32, Nat.mod_eq_of_lt]
      omega
    have hpixel2 : (totalW * Y + X + totalW * UInt32.ofNat i + UInt32.ofNat j).toNat =
        Y.toNat * totalW.toNat + i * totalW.toNat + (X.toNat + j) := by
      rw [UInt32.toNat_add, hposition2, UInt32.toNat_ofNat', Nat.mod_eq_of_lt hj32]
      omega
    simp only [selected, hpixel1, hpixel2, Nat.add_mul, Nat.add_assoc]

end VideoUtils
end Sfup.Media
