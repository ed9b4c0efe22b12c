import Sfup.Client.TypedFields

/-! The limits of the variable-length fields of `cByteBuffer`: how far `ReadVarInt32` and `ReadVarInt64` shift, and what
`WriteVarUTF8String` leaves behind when it fails. -/
namespace Sfup.Client

namespace ByteBuffer

/-- The shifts of the loop of `ReadVarInt32` and `ReadVarInt64`, one for each byte that it reads. -/
def varIntShifts : ℕ → ByteBuffer → ℕ → Option (List ℕ)
  | 0, _, _ => none
  | fuel + 1, b, shift => do
    let (bytes, b) ← b.needBytes 1
    match bytes with
    | none => return []
    | some bytes =>
      if Varint.more (bytes.headD 0) then return shift :: (← varIntShifts fuel b (shift + 7)) else return [shift]

/-- A read of a number in a word of `w` bits: it shifts by less than `w` bits, it takes no encoding of more than `n`
bytes, and what it takes is the number that the bytes stand for. -/
structure ReadsVarInt {α : Type} (w n : ℕ) (toNat : α → ℕ) (unread : List UInt8) (shifts : Option (List ℕ))
    (result : Option (Option α × ByteBuffer)) : Prop where
  shifts : ∃ l, shifts = some l ∧ ∀ shift ∈ l, shift < w
  rejects : ∀ g rest, Varint.split unread = some (g, rest) → n < g.length → ∃ b', result = some (none, b')
  value : ∀ v b', result = some (some v, b') → ∃ g rest, Varint.split unread = some (g, rest) ∧ toNat v = Varint.value g

/-- The bytes of the first number are at most `n`, also if it does not end, and it fits `w` bits. -/
def FirstFits (w n : ℕ) (s : List UInt8) : Prop :=
  (Varint.groups s).length ≤ n ∧ ∀ g rest, Varint.split s = some (g, rest) → Varint.value g < 2 ^ w

namespace Rep

variable {b : ByteBuffer} {size : ℕ} {read unread : List UInt8}

/-- Every byte of the first number is read, with the shift of its place. -/
theorem varIntShifts {fuel : ℕ} (h : Rep b size read unread) (hfuel : unread.length < fuel) (shift : ℕ) :
    ByteBuffer.varIntShifts fuel b shift =
      some ((List.range (Varint.groups unread).length).map fun i => shift + 7 * i) := by
  induction fuel generalizing b read unread shift with
  | zero => omega
  | succ fuel ih =>
    cases unread with
    | nil => simp [ByteBuffer.varIntShifts, h.needBytes_of_gt (n := 1) (by simp), Varint.groups]
    | cons x xs =>
      have hle : 1 ≤ (x :: xs).length := by simp
      have h' : Rep (b.advanced 1) size (read ++ [x]) xs := h.advance hle
      rw [ByteBuffer.varIntShifts, h.needBytes_of_le hle, Varint.groups]
      simp only [List.take_succ_cons, List.take_zero, Option.bind_eq_bind, Option.bind_some, List.headD_cons]
      by_cases hm : Varint.more x
      · simp only [hm, if_true, ih h' (show xs.length < fuel by simpa using hfuel), List.length_cons,
          List.range_succ_eq_map]
        simp [Function.comp_def, Nat.mul_add, Nat.add_assoc, Nat.add_comm 7]
      · simp [hm]

/-- A read keeps to its word exactly if the first number does. -/
theorem readsVarInt_iff {α : Type} {w n : ℕ} {addGroup : α → UInt8 → ℕ → α} {toNat : α → ℕ} {zero : α}
    (h : Rep b size read unread) (hn : ∀ k, 7 * k < w ↔ k < n) (hlt : ∀ v, toNat v < 2 ^ w)
    (hfold : ∀ g : List UInt8, g.length ≤ n → Varint.value g < 2 ^ w →
      toNat (Varint.foldGroups addGroup g zero 0) = Varint.value g) :
    ReadsVarInt w n toNat unread (ByteBuffer.varIntShifts b.bufferSize b 0)
      (ByteBuffer.varIntLoop addGroup b.bufferSize b zero 0) ↔ FirstFits w n unread := by
  have hfuel : unread.length < b.bufferSize := by
    have hf := h.fits
    rw [h.bufferSize]
    omega
  rw [h.varIntShifts hfuel, h.varIntLoop addGroup hfuel]
  constructor
  · rintro ⟨⟨l, hl, hshifts⟩, -, hvalue⟩
    obtain rfl := Option.some.inj hl
    have hlen : (Varint.groups unread).length ≤ n := by
      by_contra hgt
      have hwide := hshifts (7 * n) (List.mem_map.mpr ⟨n, List.mem_range.mpr (by omega), by omega⟩)
      exact lt_irrefl n ((hn n).mp hwide)
    refine ⟨hlen, fun g rest hsplit => ?_⟩
    rw [hsplit] at hvalue
    obtain ⟨g', rest', hsplit', hv⟩ := hvalue _ _ rfl
    obtain ⟨rfl, -⟩ := Prod.mk.inj (Option.some.inj hsplit')
    rw [← hv]
    exact hlt _
  · rintro ⟨hlen, hfits⟩
    refine ⟨⟨_, rfl, fun shift hs => ?_⟩, fun g rest hsplit hlong => ?_, fun v b' hres => ?_⟩
    · obtain ⟨i, hi, rfl⟩ := List.mem_map.mp hs
      rw [Nat.zero_add]
      exact (hn i).mpr ((List.mem_range.mp hi).trans_le hlen)
    · rw [Varint.groups_of_split hsplit] at hlen
      omega
    · cases hsplit : Varint.split unread with
      | none =>
        rw [hsplit] at hres
        cases hres
      | some p =>
        obtain ⟨g, rest⟩ := p
        rw [hsplit] at hres
        obtain ⟨hv, -⟩ := Prod.mk.inj (Option.some.inj hres)
        rw [Varint.groups_of_split hsplit] at hlen
        exact ⟨g, rest, rfl, by rw [← Option.some.inj hv, hfold g hlen (hfits g rest hsplit)]⟩

/-- `ReadVarInt32` keeps to its 32 bits exactly if the first number has at most five bytes and fits them, and
`ReadVarInt64` to its 64 exactly if it has at most ten. -/
theorem readVarInts_iff (P : Platform) (h : Rep b size read unread) :
    (ReadsVarInt 32 5 UInt32.toNat unread (ByteBuffer.varIntShifts b.bufferSize b 0) (b.readVarInt32 P) ↔
      FirstFits 32 5 unread) ∧
    (ReadsVarInt 64 10 UInt64.toNat unread (ByteBuffer.varIntShifts b.bufferSize b 0) (b.readVarInt64 P) ↔
      FirstFits 64 10 unread) := by
  have h32 : b.readVarInt32 P = ByteBuffer.varIntLoop P.addGroup32 b.bufferSize b 0 0 := by
    simp [readVarInt32, h.checkValid]
  have h64 : b.readVarInt64 P = ByteBuffer.varIntLoop P.addGroup64 b.bufferSize b 0 0 := by
    simp [readVarInt64, h.checkValid]
  rw [h32, h64]
  exact ⟨h.readsVarInt_iff (by omega) UInt32.toNat_lt fun g => P.toNat_foldGroups32,
    h.readsVarInt_iff (by omega) UInt64.toNat_lt fun g => P.toNat_foldGroups64⟩

/-- The largest numbers of 32 and of 64 bits, in five and in ten bytes and with a byte behind them. -/
theorem readVarInts_largest : ∃ b b' : ByteBuffer,
    ReadsVarInt 32 5 UInt32.toNat [255, 255, 255, 255, 15, 7] (ByteBuffer.varIntShifts b.bufferSize b 0)
      (b.readVarInt32 Platform.zero) ∧
    ReadsVarInt 64 10 UInt64.toNat [255, 255, 255, 255, 255, 255, 255, 255, 255, 1, 7]
      (ByteBuffer.varIntShifts b'.bufferSize b' 0) (b'.readVarInt64 Platform.zero) := by
  obtain ⟨b, hb⟩ : ∃ b, Rep b 16 [] [255, 255, 255, 255, 15, 7] := exists_rep (by decide) (by decide)
  obtain ⟨b', hb'⟩ : ∃ b', Rep b' 16 [] [255, 255, 255, 255, 255, 255, 255, 255, 255, 1, 7] :=
    exists_rep (by decide) (by decide)
  have hfits : FirstFits 32 5 [255, 255, 255, 255, 15, 7] := by
    refine ⟨by decide, fun g rest hsplit => ?_⟩
    obtain ⟨rfl, -⟩ := Prod.mk.inj (Option.some.inj hsplit)
    decide
  have hfits' : FirstFits 64 10 [255, 255, 255, 255, 255, 255, 255, 255, 255, 1, 7] := by
    refine ⟨by decide, fun g rest hsplit => ?_⟩
    obtain ⟨rfl, -⟩ := Prod.mk.inj (Option.some.inj hsplit)
    decide
  exact ⟨b, b', (readVarInts_iff Platform.zero hb).1.mpr hfits, (readVarInts_iff Platform.zero hb').2.mpr hfits'⟩

/-- A zero in six bytes: the last group is shifted by 35. -/
theorem not_readVarInts : ¬ ∀ (P : Platform) (b : ByteBuffer) (size : ℕ) (read unread : List UInt8),
    Rep b size read unread → ReadsVarInt 32 5 UInt32.toNat unread (ByteBuffer.varIntShifts b.bufferSize b 0)
      (b.readVarInt32 P) := by
  intro hall
  obtain ⟨b, hb⟩ : ∃ b, Rep b 8 [] [128, 128, 128, 128, 128, 0] := exists_rep (by decide) (by decide)
  obtain ⟨l, hl, hshifts⟩ := (hall Platform.zero _ _ _ _ hb).shifts
  rw [hb.varIntShifts (by rw [hb.bufferSize]; decide)] at hl
  have hwide : (35 : ℕ) ∈ (List.range (Varint.groups [128, 128, 128, 128, 128, 0]).length).map fun i => 0 + 7 * i := by
    decide
  rw [Option.some.inj hl] at hwide
  exact absurd (hshifts 35 hwide) (by decide)

/-! ## Strings with their length -/

/-- A call that returns false leaves the buffer as it is, and one that returns true appends `bytes`. -/
def AllOrNothing (b : ByteBuffer) (size : ℕ) (read unread bytes : List UInt8) (o : Option (Bool × ByteBuffer)) : Prop :=
  ∃ res b', o = some (res, b') ∧ (res = false → b' = b) ∧
    (res = true → b'.Rep size read (unread ++ bytes) ∧ b'.dataStart = b.dataStart ∧ b'.readPos = b.readPos)

theorem stored_readPos (b : ByteBuffer) (src : List UInt8) : (b.stored src).readPos = b.readPos := by
  unfold stored
  split_ifs <;> rfl

variable {v : AString}

/-- The length of a string with its terminator is a `size_t`. -/
theorem writeLength_of_le (h : Rep b size read unread) (hv : v.length + 1 < sizeT)
    (hfits : read.length + unread.length + (Varint.encode v.length).length ≤ size) :
    b.writeVarInt32 (UInt32.ofNat v.length) = some (true, b.stored (Varint.encode v.length)) := by
  have hlen : (UInt32.ofNat v.length).toNat = v.length := UInt32.toNat_ofNat_of_lt' (Nat.lt_of_succ_lt hv)
  rw [ByteBuffer.writeVarInt32, h.checkValid, varIntBytes_uint32, hlen]
  exact h.writeBuf_of_le hfits

theorem writeVarUTF8String_of_full (h : Rep b size read unread) (hv : v.length + 1 < sizeT)
    (hfull : size < read.length + unread.length + (v.length + 1)) : b.writeVarUTF8String v = some (false, b) := by
  simp [ByteBuffer.writeVarUTF8String, h.checkValid, h.canWriteBytes, sizeAdd_of_lt hv, Nat.not_le.mpr hfull]

/-- A length that is written behind the check, but not the string, has more than one byte. -/
theorem length_fits_of_gap (hv : v.length + 1 < sizeT)
    (hroom : read.length + unread.length + (v.length + 1) ≤ size)
    (hgap : size < read.length + unread.length + (Varint.encode v.length ++ v).length) :
    read.length + unread.length + (Varint.encode v.length).length ≤ size := by
  rw [List.length_append] at hgap
  have hlong : 128 ≤ v.length := by
    by_contra hshort
    have hone : (Varint.encode v.length).length ≤ 0 + 1 := Varint.length_encode_le (by omega)
    omega
  have hfive : (Varint.encode v.length).length ≤ 4 + 1 := Varint.length_encode_le (by unfold sizeT at hv; omega)
  omega

/-- The check in front is met, but not with the whole length: the length stays in the buffer. -/
theorem writeVarUTF8String_of_gap (h : Rep b size read unread) (hv : v.length + 1 < sizeT)
    (hroom : read.length + unread.length + (v.length + 1) ≤ size)
    (hgap : size < read.length + unread.length + (Varint.encode v.length ++ v).length) :
    b.writeVarUTF8String v = some (false, b.stored (Varint.encode v.length)) := by
  have hput := length_fits_of_gap hv hroom hgap
  have hrest : size < read.length + (unread ++ Varint.encode v.length).length + v.length := by
    rw [List.length_append] at hgap ⊢
    omega
  simp [ByteBuffer.writeVarUTF8String, h.checkValid, h.canWriteBytes, sizeAdd_of_lt hv, hroom,
    h.writeLength_of_le hv hput, (h.store hput).writeBuf_of_gt hrest]

private theorem writeVarUTF8String_of_le (h : Rep b size read unread) (hv : v.length + 1 < sizeT)
    (hfits : read.length + unread.length + (Varint.encode v.length ++ v).length ≤ size) :
    b.writeVarUTF8String v = some (true, (b.stored (Varint.encode v.length)).stored v) ∧
      ((b.stored (Varint.encode v.length)).stored v).Rep size read (unread ++ (Varint.encode v.length ++ v)) := by
  rw [List.length_append] at hfits
  have hpos := List.length_pos_iff.mpr (Varint.encode_ne_nil v.length)
  have hput : read.length + unread.length + (Varint.encode v.length).length ≤ size := by omega
  have hrest : read.length + (unread ++ Varint.encode v.length).length + v.length ≤ size := by
    rw [List.length_append]
    omega
  have hroom : read.length + unread.length + (v.length + 1) ≤ size := by omega
  refine ⟨?_, by rw [← List.append_assoc]; exact (h.store hput).store hrest⟩
  simp [ByteBuffer.writeVarUTF8String, h.checkValid, h.canWriteBytes, sizeAdd_of_lt hv, hroom,
    h.writeLength_of_le hv hput, (h.store hput).writeBuf_of_le hrest]

theorem stored_ne (h : Rep b size read unread) {src : List UInt8} (hne : src ≠ [])
    (hs : read.length + unread.length + src.length ≤ size) : b.stored src ≠ b := by
  intro heq
  have hstored := h.store hs
  rw [heq] at hstored
  exact hne (List.append_right_eq_self.mp (h.unread_unique hstored).symm)

theorem not_allOrNothing_of_gap (h : Rep b size read unread) (hv : v.length + 1 < sizeT)
    (hroom : read.length + unread.length + (v.length + 1) ≤ size)
    (hgap : size < read.length + unread.length + (Varint.encode v.length ++ v).length) :
    ¬ AllOrNothing b size read unread (Varint.encode v.length ++ v) (b.writeVarUTF8String v) := by
  rintro ⟨res, b', hres, hfalse, -⟩
  rw [h.writeVarUTF8String_of_gap hv hroom hgap] at hres
  obtain ⟨rfl, rfl⟩ := Prod.mk.inj (Option.some.inj hres)
  exact h.stored_ne (Varint.encode_ne_nil _) (length_fits_of_gap hv hroom hgap) (hfalse rfl)

/-- A string is written whole or not at all exactly if there is room for all of it, or not even for the string and one
byte. -/
theorem writeVarUTF8String_iff (h : Rep b size read unread) (hv : v.length + 1 < sizeT) :
    AllOrNothing b size read unread (Varint.encode v.length ++ v) (b.writeVarUTF8String v) ↔
      (read.length + unread.length + (v.length + 1) ≤ size →
        read.length + unread.length + (Varint.encode v.length ++ v).length ≤ size) := by
  rcases Nat.lt_or_ge size (read.length + unread.length + (v.length + 1)) with hfull | hroom
  · rw [h.writeVarUTF8String_of_full hv hfull]
    exact iff_of_true ⟨false, b, rfl, fun _ => rfl, nofun⟩ fun hle => absurd hle (not_le.mpr hfull)
  rcases Nat.lt_or_ge size (read.length + unread.length + (Varint.encode v.length ++ v).length) with hgap | hfits
  · exact iff_of_false (h.not_allOrNothing_of_gap hv hroom hgap) fun hle => absurd (hle hroom) (not_le.mpr hgap)
  · obtain ⟨hwrite, hrep⟩ := h.writeVarUTF8String_of_le hv hfits
    rw [hwrite]
    refine iff_of_true ⟨true, _, rfl, nofun, fun _ => ⟨hrep, ?_, ?_⟩⟩ fun _ => hfits
    · rw [stored_dataStart, stored_dataStart]
    · rw [stored_readPos, stored_readPos]

private theorem encode_128 : Varint.encode 128 = [128, 1] := by
  rw [Varint.encode, if_neg (by decide), Varint.encode, if_pos (by decide)]
  rfl

/-- A string of 128 bytes behind two others: 130 bytes of room are enough for it and its length. -/
theorem writeVarUTF8String_twoByteLength : ∃ b : ByteBuffer, Rep b 132 [] [8, 9] ∧
    AllOrNothing b 132 [] [8, 9] ([128, 1] ++ List.replicate 128 97)
      (b.writeVarUTF8String (List.replicate 128 97)) := by
  obtain ⟨b, hb⟩ : ∃ b, Rep b 132 [] [8, 9] := exists_rep (by decide) (by decide)
  generalize hv : List.replicate 128 (97 : UInt8) = v
  have hlen : v.length = 128 := by rw [← hv, List.length_replicate]
  have hwritten := (writeVarUTF8String_iff (v := v) hb (by rw [hlen]; decide)).mpr
  rw [hlen, encode_128, List.length_append, hlen] at hwritten
  exact ⟨b, hb, hwritten fun _ => by decide⟩

/-- A string of 128 bytes with 129 bytes of room: its length takes two of them. -/
theorem not_writeVarUTF8String : ¬ ∀ (b : ByteBuffer) (size : ℕ) (read unread : List UInt8) (v : AString),
    Rep b size read unread →
      AllOrNothing b size read unread (Varint.encode v.length ++ v) (b.writeVarUTF8String v) := by
  intro hall
  obtain ⟨b, hb⟩ : ∃ b, Rep b 129 [] [] := exists_rep (by decide) (by decide)
  refine hb.not_allOrNothing_of_gap (v := List.replicate 128 0) ?_ ?_ ?_ (hall _ _ _ _ _ hb)
  · rw [List.length_replicate]
    decide
  · rw [List.length_replicate]
    decide
  · rw [List.length_append, List.length_replicate, encode_128]
    decide

end Rep

end ByteBuffer

end Sfup.Client
