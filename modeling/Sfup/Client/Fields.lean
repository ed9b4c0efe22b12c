import Sfup.Lib.Varint
import Sfup.Client.ByteBufferSpec
import Mathlib.Tactic.Linarith

/-! The typed reads and writes of `cByteBuffer`. A read gives `none` for the value when it returns
false; the host is little-endian, so `htonl` and its siblings turn a word into big-endian bytes. -/
namespace Sfup.Client
open Sfup.Ring

/-- What the code takes from outside the repository. -/
structure Platform where
  /-- the bytes `new char[]` returns -/
  fresh : ℕ → UInt8
  /-- a shift by the width of the operand or more, which C++ leaves undefined -/
  wideShl32 : UInt32 → ℕ → UInt32
  wideShl64 : UInt64 → ℕ → UInt64
  /-- the secret that `srand(handle)` and `rand() % 255` give -/
  sharedSecret : List UInt8
  /-- the `n`-th call of `cCryptoKey::Encrypt`, `none` when it returns a negative number -/
  encrypt : ℕ → List UInt8 → List UInt8 → Option (Vector UInt8 128)
  /-- `aes_crypt_ecb` under a key -/
  aes : List UInt8 → List UInt8 → List UInt8

namespace Platform

variable (P : Platform)

def shl32 (v : UInt32) (shift : ℕ) : UInt32 :=
  if shift < 32 then v <<< UInt32.ofNat shift else P.wideShl32 v shift

def shl64 (v : UInt64) (shift : ℕ) : UInt64 :=
  if shift < 64 then v <<< UInt64.ofNat shift else P.wideShl64 v shift

/-- `Value | (static_cast<UInt32>(b & 0x7f) << Shift)`. -/
def addGroup32 (value : UInt32) (b : UInt8) (shift : ℕ) : UInt32 :=
  value ||| P.shl32 (b &&& 0x7f).toUInt32 shift

def addGroup64 (value : UInt64) (b : UInt8) (shift : ℕ) : UInt64 :=
  value ||| P.shl64 (b &&& 0x7f).toUInt64 shift

end Platform

namespace ByteBuffer

/-- `NEEDBYTES(n)` and then `ReadBuf`. -/
def needBytes (b : ByteBuffer) (n : ℕ) : Option (Option (List UInt8) × ByteBuffer) := do
  b.checkValid
  if !(← b.canReadBytes n) then return (none, b)
  b.readBuf n

/-- The `ReadBE…` functions for words of `n` bytes. -/
def readBE (b : ByteBuffer) (n : ℕ) : Option (Option ℕ × ByteBuffer) := do
  let (bytes, b) ← b.needBytes n
  return (bytes.map BigEndian.value, b)

def readBEInt16 (b : ByteBuffer) : Option (Option Int16 × ByteBuffer) := do
  let (val, b) ← b.readBE 2
  return (val.map fun v => (UInt16.ofNat v).toInt16, b)

def readBEInt32 (b : ByteBuffer) : Option (Option Int32 × ByteBuffer) := do
  let (val, b) ← b.readBE 4
  return (val.map fun v => (UInt32.ofNat v).toInt32, b)

def readBool (b : ByteBuffer) : Option (Option Bool × ByteBuffer) := do
  let (val, b) ← b.readBE 1
  return (val.map (· != 0), b)

/-- The loop of `ReadVarInt32` and `ReadVarInt64`. A failed `NEEDBYTES` leaves the bytes before it
consumed. -/
def varIntLoop {α : Type} (addGroup : α → UInt8 → ℕ → α) :
    ℕ → ByteBuffer → α → ℕ → Option (Option α × ByteBuffer)
  | 0, _, _, _ => none
  | fuel + 1, b, value, shift => do
    let (bytes, b) ← b.needBytes 1
    match bytes with
    | none => return (none, b)
    | some bytes =>
      let byte := bytes.headD 0
      let value := addGroup value byte shift
      if Varint.more byte then varIntLoop addGroup fuel b value (shift + 7) else return (some value, b)

def readVarInt32 (P : Platform) (b : ByteBuffer) : Option (Option UInt32 × ByteBuffer) := do
  b.checkValid
  varIntLoop P.addGroup32 b.bufferSize b 0 0

def readVarInt64 (P : Platform) (b : ByteBuffer) : Option (Option UInt64 × ByteBuffer) := do
  b.checkValid
  varIntLoop P.addGroup64 b.bufferSize b 0 0

/-- `ReadVarInt<UInt32>`: the 64-bit value, cast. -/
def readVarInt (P : Platform) (b : ByteBuffer) : Option (Option UInt32 × ByteBuffer) := do
  let (v, b) ← b.readVarInt64 P
  return (v.map UInt64.toUInt32, b)

def readVarUTF8String (P : Platform) (b : ByteBuffer) : Option (Option (List UInt8) × ByteBuffer) := do
  b.checkValid
  let (size, b) ← b.readVarInt P
  match size with
  | none => return (none, b)
  | some size => b.readString size.toNat

/-- The `WriteBE…` functions for words of `n` bytes. -/
def writeBE (b : ByteBuffer) (n val : ℕ) : Option (Bool × ByteBuffer) := do
  b.checkValid
  if !(← b.canWriteBytes n) then return (false, b)
  b.writeBuf (BigEndian.encode n val)

def writeBool (b : ByteBuffer) (aValue : Bool) : Option (Bool × ByteBuffer) := do
  b.checkValid
  b.write [if aValue then 1 else 0]

/-- The bytes `b[0 .. idx)` that the loop of `WriteVarInt32` and `WriteVarInt64` fills, at most
`n` of them. -/
def varIntBytes : ℕ → ℕ → List UInt8
  | 0, _ => []
  | n + 1, aValue =>
    UInt8.ofNat (aValue &&& 0x7f ||| if 0x7f < aValue then 0x80 else 0x00) ::
      if 0 < aValue >>> 7 then varIntBytes n (aValue >>> 7) else []

def writeVarInt32 (b : ByteBuffer) (aValue : UInt32) : Option (Bool × ByteBuffer) := do
  b.checkValid
  b.writeBuf (varIntBytes 5 aValue.toNat)

/-- The first `PUTBYTES` is a lower bound only; the length may still fail to fit. -/
def writeVarUTF8String (b : ByteBuffer) (aValue : List UInt8) : Option (Bool × ByteBuffer) := do
  b.checkValid
  if !(← b.canWriteBytes (sizeAdd aValue.length 1)) then return (false, b)
  let (res, b) ← b.writeVarInt32 (UInt32.ofNat aValue.length)
  if !res then return (false, b)
  b.writeBuf aValue

/-- The word that `WritePosition64` packs the coordinates into. -/
def position64 (aBlockX aBlockY aBlockZ : Int32) : UInt64 :=
  ((aBlockX.toUInt32 &&& 0x3FFFFFF).toUInt64 <<< 38) |||
    ((aBlockY.toUInt32 &&& 0xFFF).toUInt64 <<< 26) ||| (aBlockZ.toUInt32 &&& 0x3FFFFFF).toUInt64

def writePosition64 (b : ByteBuffer) (aBlockX aBlockY aBlockZ : Int32) : Option (Bool × ByteBuffer) := do
  b.checkValid
  b.writeBE 8 (position64 aBlockX aBlockY aBlockZ).toNat

private theorem varIntBytes_last {v : ℕ} (hv : v < 128) (n : ℕ) :
    varIntBytes (n + 1) v = Varint.encode v := by
  have ha : v &&& 127 = v := (Nat.and_two_pow_sub_one_eq_mod v 7).trans (Nat.mod_eq_of_lt hv)
  have hs : v >>> 7 = 0 := (Nat.shiftRight_eq_div_pow v 7).trans (Nat.div_eq_of_lt hv)
  rw [Varint.encode, if_pos hv]
  simp [varIntBytes, hs, ha, show ¬127 < v by omega]

theorem varIntBytes_eq_encode {n v : ℕ} (h : v < 128 ^ (n + 1)) :
    varIntBytes (n + 1) v = Varint.encode v := by
  induction n generalizing v with
  | zero => exact varIntBytes_last (by simpa using h) 0
  | succ n ih =>
    by_cases hv : v < 128
    · exact varIntBytes_last hv (n + 1)
    · have ha : v &&& 127 = v % 128 := Nat.and_two_pow_sub_one_eq_mod v 7
      have hs : v >>> 7 = v / 128 := Nat.shiftRight_eq_div_pow v 7
      have hor : v % 128 ||| 128 = v % 128 + 128 := by
        have h7 : 128 + v % 128 = 128 ||| v % 128 :=
          Nat.two_pow_add_eq_or_of_lt (i := 7) (Nat.mod_lt v (by decide)) 1
        rw [Nat.or_comm, ← h7, Nat.add_comm]
      have hd : v / 128 < 128 ^ (n + 1) := by
        apply Nat.div_lt_of_lt_mul
        rwa [pow_succ, Nat.mul_comm] at h
      rw [Varint.encode, if_neg hv, varIntBytes, ha, hs, if_pos (by omega), if_pos (by omega), ih hd, hor]

theorem varIntBytes_uint32 (v : UInt32) : varIntBytes 5 v.toNat = Varint.encode v.toNat := by
  have hv := v.toNat_lt
  exact varIntBytes_eq_encode (by omega)

namespace Rep

variable {b : ByteBuffer} {size : ℕ} {read unread : List UInt8}

theorem needBytes_of_le (h : Rep b size read unread) {n : ℕ} (hn : n ≤ unread.length) :
    b.needBytes n = some (some (unread.take n), b.advanced n) := by
  simp [ByteBuffer.needBytes, h.checkValid, h.canReadBytes, hn, h.readBuf_of_le hn]

theorem needBytes_of_gt (h : Rep b size read unread) {n : ℕ} (hn : unread.length < n) :
    b.needBytes n = some (none, b) := by
  simp [ByteBuffer.needBytes, h.checkValid, h.canReadBytes, Nat.not_le.mpr hn]

/-- The loop reads the bytes of one number, or all that is there if it does not end. -/
theorem varIntLoop {α : Type} (addGroup : α → UInt8 → ℕ → α) {fuel : ℕ}
    (h : Rep b size read unread) (hfuel : unread.length < fuel) (value : α) (shift : ℕ) :
    ByteBuffer.varIntLoop addGroup fuel b value shift = some (match Varint.split unread with
      | some (g, _) => (some (Varint.foldGroups addGroup g value shift), b.advanced g.length)
      | none => (none, b.advanced unread.length)) := by
  induction fuel generalizing b read unread value shift with
  | zero => omega
  | succ fuel ih =>
    cases unread with
    | nil =>
      simp [ByteBuffer.varIntLoop, h.needBytes_of_gt (n := 1) (by simp), Varint.split, h.advanced_zero]
    | cons x xs =>
      have hle : 1 ≤ (x :: xs).length := by simp
      have h' : Rep (b.advanced 1) size (read ++ [x]) xs := h.advance hle
      rw [ByteBuffer.varIntLoop, h.needBytes_of_le hle, Varint.split]
      simp only [List.take_succ_cons, List.take_zero, Option.bind_eq_bind, Option.bind_some, List.headD_cons]
      by_cases hm : Varint.more x
      · simp only [hm, if_true, ih h' (show xs.length < fuel by simpa using hfuel)]
        cases Varint.split xs with
        | none => simp [Nat.add_comm]
        | some p => simp [Varint.foldGroups, Nat.add_comm]
      · simp [hm, Varint.foldGroups]

/-- `ReadVarInt` on a buffer, by the bytes it holds. -/
theorem readVarInt (P : Platform) (h : Rep b size read unread) :
    b.readVarInt P = some (match Varint.split unread with
      | some (g, _) => (some (Varint.foldGroups P.addGroup64 g 0 0).toUInt32, b.advanced g.length)
      | none => (none, b.advanced unread.length)) := by
  have hf : unread.length < b.bufferSize := by
    have := h.fits
    rw [h.bufferSize]
    omega
  simp only [ByteBuffer.readVarInt, readVarInt64, h.checkValid, h.varIntLoop P.addGroup64 hf,
    Option.bind_eq_bind, Option.bind_some, Option.pure_def]
  cases Varint.split unread <;> rfl

end Rep

end ByteBuffer

namespace Platform

variable (P : Platform)

/-- The number at the front of a stream, as `ReadVarInt` gives it, and what follows. -/
def varInt (s : List UInt8) : Option (UInt32 × List UInt8) :=
  (Varint.split s).map fun p => ((Varint.foldGroups P.addGroup64 p.1 0 0).toUInt32, p.2)

private theorem toNat_addGroup64 (value : UInt64) (b : UInt8) (shift : ℕ) (hs : shift < 64)
    (hb : Varint.bits b <<< shift < 2 ^ 64) :
    (P.addGroup64 value b shift).toNat = value.toNat ||| Varint.bits b <<< shift := by
  have hshift : (UInt64.ofNat shift).toNat % 64 = shift := by
    rw [UInt64.toNat_ofNat']
    omega
  have hbits : (b &&& 0x7f).toUInt64.toNat = Varint.bits b := by simp [Varint.bits]
  rw [addGroup64, shl64, if_pos hs, UInt64.toNat_or, UInt64.toNat_shiftLeft, hshift, hbits,
    Nat.mod_eq_of_lt hb]

theorem toNat_foldGroups64 {g : List UInt8} (hg : g.length ≤ 10) (hv : Varint.value g < 2 ^ 64) :
    (Varint.foldGroups P.addGroup64 g 0 0).toNat = Varint.value g := by
  have h : (Varint.foldGroups P.addGroup64 g 0 0).toNat = (0 : UInt64).toNat + Varint.value g * 2 ^ 0 :=
    Varint.foldGroups_eq (w := 64) P.toNat_addGroup64 (by omega) (by simp) (by simpa using hv)
  simpa using h

private theorem toNat_addGroup32 (value : UInt32) (b : UInt8) (shift : ℕ) (hs : shift < 32)
    (hb : Varint.bits b <<< shift < 2 ^ 32) :
    (P.addGroup32 value b shift).toNat = value.toNat ||| Varint.bits b <<< shift := by
  have hshift : (UInt32.ofNat shift).toNat % 32 = shift := by
    rw [UInt32.toNat_ofNat']
    omega
  have hbits : (b &&& 0x7f).toUInt32.toNat = Varint.bits b := by simp [Varint.bits]
  rw [addGroup32, shl32, if_pos hs, UInt32.toNat_or, UInt32.toNat_shiftLeft, hshift, hbits,
    Nat.mod_eq_of_lt hb]

theorem toNat_foldGroups32 {g : List UInt8} (hg : g.length ≤ 5) (hv : Varint.value g < 2 ^ 32) :
    (Varint.foldGroups P.addGroup32 g 0 0).toNat = Varint.value g := by
  have h : (Varint.foldGroups P.addGroup32 g 0 0).toNat = (0 : UInt32).toNat + Varint.value g * 2 ^ 0 :=
    Varint.foldGroups_eq (w := 32) P.toNat_addGroup32 (by omega) (by simp) (by simpa using hv)
  simpa using h

theorem varInt_encode (v : UInt32) (t : List UInt8) :
    P.varInt (Varint.encode v.toNat ++ t) = some (v, t) := by
  have hv := v.toNat_lt
  have hl : (Varint.encode v.toNat).length ≤ 5 := Varint.length_encode_le (by omega)
  have hf := P.toNat_foldGroups64 (g := Varint.encode v.toNat) (by omega)
    (by rw [Varint.value_encode]; omega)
  rw [Varint.value_encode] at hf
  have hc : (Varint.foldGroups P.addGroup64 (Varint.encode v.toNat) 0 0).toUInt32 = v := by
    apply UInt32.toNat_inj.mp
    rw [UInt64.toNat_toUInt32, hf, Nat.mod_eq_of_lt hv]
  rw [varInt, Varint.split_encode, Option.map_some, hc]

theorem varInt_append {s r : List UInt8} {v : UInt32} (h : P.varInt s = some (v, r)) (t : List UInt8) :
    P.varInt (s ++ t) = some (v, r ++ t) := by
  obtain ⟨⟨g, r'⟩, hs, he⟩ := Option.map_eq_some_iff.mp h
  obtain ⟨rfl, rfl⟩ := Prod.mk.inj he
  rw [varInt, Varint.split_append hs t, Option.map_some]

theorem varInt_of_append {s r t : List UInt8} {v : UInt32} (h : P.varInt (s ++ t) = some (v, r ++ t)) :
    P.varInt s = some (v, r) := by
  obtain ⟨⟨g, r'⟩, hs, he⟩ := Option.map_eq_some_iff.mp h
  obtain ⟨rfl, rfl⟩ := Prod.mk.inj he
  have hg := Varint.split_eq_append hs
  rw [← List.append_assoc] at hg
  rw [List.append_cancel_right hg, varInt, Varint.split_change hs, Option.map_some]

theorem varInt_length_lt {s r : List UInt8} {v : UInt32} (h : P.varInt s = some (v, r)) :
    r.length < s.length := by
  obtain ⟨⟨g, r'⟩, hs, he⟩ := Option.map_eq_some_iff.mp h
  obtain ⟨-, rfl⟩ := Prod.mk.inj he
  have hn := List.length_pos_iff.mpr (Varint.split_ne_nil hs)
  rw [Varint.split_eq_append hs, List.length_append]
  exact Nat.lt_add_of_pos_left hn

end Platform

namespace ByteBuffer.Rep

variable {b : ByteBuffer} {size : ℕ} {read unread : List UInt8}

/-- `ReadVarInt` moves the read cursor over the bytes of the number. -/
theorem readVarInt_some {P : Platform} (h : Rep b size read unread) {v : UInt32} {rest : List UInt8}
    (hv : P.varInt unread = some (v, rest)) :
    b.readVarInt P = some (some v, b.advanced (unread.length - rest.length)) ∧
      ∃ g, unread = g ++ rest ∧ Rep (b.advanced (unread.length - rest.length)) size (read ++ g) rest := by
  obtain ⟨⟨g, r⟩, hs, he⟩ := Option.map_eq_some_iff.mp hv
  obtain ⟨rfl, rfl⟩ := Prod.mk.inj he
  have ha : unread = g ++ r := Varint.split_eq_append hs
  have hl : unread.length - r.length = g.length := by rw [ha, List.length_append, Nat.add_sub_cancel]
  rw [h.readVarInt P, hs, hl]
  refine ⟨rfl, g, ha, ?_⟩
  have hr := h.advance (n := g.length) (by rw [ha, List.length_append]; omega)
  rwa [ha, List.take_left, List.drop_left] at hr

/-- A number that does not end makes `ReadVarInt` consume everything. -/
theorem readVarInt_none {P : Platform} (h : Rep b size read unread) (hv : P.varInt unread = none) :
    b.readVarInt P = some (none, b.advanced unread.length) := by
  rw [h.readVarInt P, Option.map_eq_none_iff.mp hv]

end ByteBuffer.Rep

end Sfup.Client
