import Sfup.Common.Utf8
import Sfup.Client.ByteBufferSpec

/-! `ReadUTF16String` of `cByteBuffer`. -/
namespace Sfup.Client
open Sfup.Common

namespace ByteBuffer

/-- `ReadUTF16String`: twice as many bytes as characters, in a `size_t`. -/
def readUTF16String (b : ByteBuffer) (aNumChars : ℕ) : Option (Option (List UInt8) × ByteBuffer) := do
  b.checkValid
  let (rawData, b) ← b.readString (aNumChars * 2 % sizeT)
  match rawData with
  | none => return (none, b)
  | some rawData => return (some (← rawBEToUTF8 rawData aNumChars), b)

/-- The units of a text of the Basic Multilingual Plane. -/
def textUnits (text : List Char) : List UInt16 := text.map fun c => UInt16.ofNat c.toNat

/-- The text that is sent comes back. -/
def ReadsText (b : ByteBuffer) (text : List Char) : Prop :=
  ∃ b', b.readUTF16String text.length = some (some (text.flatMap String.utf8EncodeChar), b')

theorem not_isSurrogate_ofNat {c : Char} (h : c.toNat < 0x10000) : ¬ IsSurrogate (UInt16.ofNat c.toNat) := by
  have hvalid : c.toNat < 0xd800 ∨ 0xdfff < c.toNat ∧ c.toNat < 0x110000 := c.valid
  unfold IsSurrogate
  rw [UInt16.toNat_ofNat', Nat.mod_eq_of_lt (by omega)]
  omega

private theorem utf8_ofNat {c : Char} (h : c.toNat < 0x10000) :
    utf8 (UInt16.ofNat c.toNat) = String.utf8EncodeChar c := by
  rw [utf8, if_neg (not_isSurrogate_ofNat h), UInt16.toNat_ofNat', Nat.mod_eq_of_lt (by omega), Char.ofNat_toNat]

private theorem utf8_textUnits {text : List Char} (h : ∀ c ∈ text, c.toNat < 0x10000) :
    (textUnits text).flatMap utf8 = text.flatMap String.utf8EncodeChar := by
  rw [textUnits, List.flatMap_map]
  exact List.flatMap_congr fun c hc => utf8_ofNat (h c hc)

private theorem length_flatMap_beBytes (units : List UInt16) : (units.flatMap beBytes).length = units.length * 2 := by
  induction units with
  | nil => rfl
  | cons u units ih =>
    rw [List.flatMap_cons, List.length_append, ih, List.length_cons, Nat.succ_mul, Nat.add_comm]
    rfl

section
variable {b : ByteBuffer} {size : ℕ} {read rest : List UInt8} {text : List Char}

theorem Rep.readUTF16String (h : Rep b size read ((textUnits text).flatMap beBytes ++ rest)) :
    b.readUTF16String text.length =
      some (some ((textUnits text).flatMap appended), b.advanced (text.length * 2)) := by
  have hunits : (textUnits text).length = text.length := List.length_map ..
  have hlen := length_flatMap_beBytes (textUnits text)
  rw [hunits] at hlen
  have hfits := h.fits
  have hbound := h.bound
  rw [List.length_append] at hfits
  have htake : ((textUnits text).flatMap beBytes ++ rest).take (text.length * 2) =
      (textUnits text).flatMap beBytes := by
    rw [← hlen, List.take_left]
  have hraw := rawBEToUTF8_flatMap (textUnits text)
  rw [hunits] at hraw
  have hread := h.readString_of_le (n := text.length * 2) (by rw [List.length_append]; omega)
  rw [htake] at hread
  rw [ByteBuffer.readUTF16String, Nat.mod_eq_of_lt (by omega)]
  simp [h.checkValid, hread, hraw]

theorem Rep.readsText_iff (h : Rep b size read ((textUnits text).flatMap beBytes ++ rest))
    (hplane : ∀ c ∈ text, c.toNat < 0x10000) : ReadsText b text ↔ ∀ c ∈ text, c.toNat < 0x800 := by
  have htoNat (c : Char) (hc : c ∈ text) : (UInt16.ofNat c.toNat).toNat = c.toNat := by
    rw [UInt16.toNat_ofNat', Nat.mod_eq_of_lt (by have := hplane c hc; omega)]
  rw [ReadsText, h.readUTF16String, ← utf8_textUnits hplane]
  constructor
  · rintro ⟨b', he⟩ c hc
    have heq := Option.some.inj (Prod.mk.inj (Option.some.inj he)).1
    have hs : ∀ u ∈ textUnits text, ¬ IsSurrogate u := by
      intro u hu
      obtain ⟨c', hc', rfl⟩ := List.mem_map.mp hu
      exact not_isSurrogate_ofNat (hplane c' hc')
    have hlt := lt_of_flatMap_eq hs heq _ (List.mem_map_of_mem hc)
    rwa [htoNat c hc] at hlt
  · intro hlt
    have hunits : ∀ u ∈ textUnits text, u.toNat < 0x800 := by
      intro u hu
      obtain ⟨c, hc, rfl⟩ := List.mem_map.mp hu
      rw [htoNat c hc]
      exact hlt c hc
    rw [flatMap_appended_of_lt hunits]
    exact ⟨_, rfl⟩

end

/-- Units are converted exactly if they are below U+0800, and a text of the Basic Multilingual Plane comes back
exactly if its characters are. -/
theorem converts_iff (units : List UInt16) : (Converts units ↔ ∀ u ∈ units, u.toNat < 0x800) ∧
    ∀ (b : ByteBuffer) (size : ℕ) (read rest : List UInt8) (text : List Char),
      (∀ c ∈ text, c.toNat < 0x10000) → Rep b size read ((textUnits text).flatMap beBytes ++ rest) →
        (ReadsText b text ↔ ∀ c ∈ text, c.toNat < 0x800) :=
  ⟨converts_iff_lt units, fun _ _ _ _ _ hplane h => h.readsText_iff hplane⟩

theorem converts_twoBytes : Converts [0x41, 0xE9, 0x7FF] ∧
    ∃ b : ByteBuffer, Rep b 8 [] ([0, 0x41, 0, 0xE9] ++ [7, 7]) ∧ ReadsText b ['A', 'é'] := by
  obtain ⟨b, hb⟩ : ∃ b, Rep b 8 [] ([0, 0x41, 0, 0xE9] ++ [7, 7]) := exists_rep (by decide) (by decide)
  obtain ⟨hunits, htext⟩ := converts_iff [0x41, 0xE9, 0x7FF]
  have hplane : ∀ c ∈ ['A', 'é'], c.toNat < 0x10000 := by simp
  exact ⟨hunits.mpr (by simp), b, hb, (htext b 8 [] [7, 7] ['A', 'é'] hplane hb).mpr (by simp)⟩

/-- The euro sign is dropped. -/
theorem not_converts : ¬ ∀ units : List UInt16, Converts units := by
  intro hall
  have hdropped : rawBEToUTF8 [0x20, 0xAC] 1 = some [] := by decide
  have heuro : utf8 0x20AC = [0xE2, 0x82, 0xAC] := by decide
  have h : rawBEToUTF8 [0x20, 0xAC] 1 = some (utf8 0x20AC ++ []) := (hall [0x20AC]).1
  rw [hdropped, heuro] at h
  cases h

end ByteBuffer
end Sfup.Client
