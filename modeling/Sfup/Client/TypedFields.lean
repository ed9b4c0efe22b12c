import Sfup.Client.Packets

/-! The typed fields of `cByteBuffer`: each `Write…` function with the `Read…` function that undoes it,
over the byte swaps of `Endianness.h` on a little-endian host. -/
namespace Sfup.Client

def htons (v : UInt16) : UInt16 := UInt16.ofNat (LittleEndian.value (BigEndian.encode 2 v.toNat))

def htonl (v : UInt32) : UInt32 := UInt32.ofNat (LittleEndian.value (BigEndian.encode 4 v.toNat))

def ntohs (v : UInt16) : UInt16 := UInt16.ofNat (BigEndian.value (LittleEndian.encode 2 v.toNat))

def ntohl (v : UInt32) : UInt32 := UInt32.ofNat (BigEndian.value (LittleEndian.encode 4 v.toNat))

def ntohll (x : UInt64) : UInt64 := ((ntohl x.toUInt32).toUInt64 <<< 32) + (ntohl (x >>> 32).toUInt32).toUInt64

def hostToNetwork8 (aValue : UInt64) : UInt64 :=
  ((htonl aValue.toUInt32).toUInt64 <<< 32) + (htonl (aValue >>> 32).toUInt32).toUInt64

/-- `HostToNetwork4` calls `ntohl`. -/
def hostToNetwork4 (aValue : UInt32) : UInt32 := ntohl aValue

def networkToHostLong8 (aValue : UInt64) : Int64 := (ntohll aValue).toInt64

def networkToHostULong8 (aValue : UInt64) : UInt64 := ntohll aValue

theorem bigEndian_value_littleEndian (k n : ℕ) :
    BigEndian.value (LittleEndian.encode k n) = LittleEndian.value (BigEndian.encode k n) := by
  rw [BigEndian.encode_eq_reverse, ← BigEndian.value_reverse, List.reverse_reverse]

theorem ntohl_eq_htonl (v : UInt32) : ntohl v = htonl v := by
  rw [ntohl, htonl, bigEndian_value_littleEndian]

theorem ntohll_eq_hostToNetwork8 (v : UInt64) : ntohll v = hostToNetwork8 v := by
  rw [ntohll, hostToNetwork8, ntohl_eq_htonl, ntohl_eq_htonl]

theorem encode_value_swap (k n : ℕ) :
    LittleEndian.encode k (LittleEndian.value (BigEndian.encode k n)) = BigEndian.encode k n := by
  have h := LittleEndian.encode_value (BigEndian.encode k n)
  rwa [BigEndian.length_encode] at h

theorem encode_htons (v : UInt16) : LittleEndian.encode 2 (htons v).toNat = BigEndian.encode 2 v.toNat := by
  rw [htons, UInt16.toNat_ofNat']
  exact (LittleEndian.encode_mod 2 _).trans (encode_value_swap 2 _)

theorem encode_htonl (v : UInt32) : LittleEndian.encode 4 (htonl v).toNat = BigEndian.encode 4 v.toNat := by
  rw [htonl, UInt32.toNat_ofNat']
  exact (LittleEndian.encode_mod 4 _).trans (encode_value_swap 4 _)

private theorem toNat_hostToNetwork8 (v : UInt64) :
    (hostToNetwork8 v).toNat = (htonl (v >>> 32).toUInt32).toNat + 256 ^ 4 * (htonl v.toUInt32).toNat := by
  have hl := (htonl v.toUInt32).toNat_lt
  have hh := (htonl (v >>> 32).toUInt32).toNat_lt
  have hs : ((htonl v.toUInt32).toUInt64 <<< 32).toNat = (htonl v.toUInt32).toNat * 2 ^ 32 := by
    rw [UInt64.toNat_shiftLeft, UInt32.toNat_toUInt64]
    simp [Nat.shiftLeft_eq]
    omega
  rw [hostToNetwork8, UInt64.toNat_add, hs, UInt32.toNat_toUInt64]
  omega

/-- The two halves change places and each is swapped. -/
theorem encode_hostToNetwork8 (v : UInt64) :
    LittleEndian.encode 8 (hostToNetwork8 v).toNat = BigEndian.encode 8 v.toNat := by
  have hh := (htonl (v >>> 32).toUInt32).toNat_lt
  have hlow : v.toUInt32.toNat = v.toNat % 256 ^ 4 := UInt64.toNat_toUInt32 v
  have hhigh : (v >>> 32).toUInt32.toNat = v.toNat / 256 ^ 4 := by
    have hv := v.toNat_lt
    rw [UInt64.toNat_toUInt32, UInt64.toNat_shiftRight, Nat.shiftRight_eq_div_pow]
    simp
    omega
  have hdiv : ((htonl (v >>> 32).toUInt32).toNat + 256 ^ 4 * (htonl v.toUInt32).toNat) / 256 ^ 4 =
      (htonl v.toUInt32).toNat := by omega
  have hmod : ((htonl (v >>> 32).toUInt32).toNat + 256 ^ 4 * (htonl v.toUInt32).toNat) % 256 ^ 4 =
      (htonl (v >>> 32).toUInt32).toNat := by omega
  rw [toNat_hostToNetwork8, LittleEndian.encode_add 4 4, hdiv, ← LittleEndian.encode_mod 4, hmod,
    encode_htonl, encode_htonl, BigEndian.encode_eq_reverse, BigEndian.encode_eq_reverse,
    BigEndian.encode_eq_reverse, LittleEndian.encode_add 4 4, List.reverse_append, hlow, hhigh,
    LittleEndian.encode_mod]

namespace ByteBuffer

/-- `PUTBYTES(n)` and `WriteBuf` of a word of `n` bytes as it lies in memory. -/
def putWord (b : ByteBuffer) (n val : ℕ) : Option (Bool × ByteBuffer) := do
  b.checkValid
  if !(← b.canWriteBytes n) then return (false, b)
  b.writeBuf (LittleEndian.encode n val)

/-- `NEEDBYTES(n)` and `ReadBuf` into a word of `n` bytes. -/
def needWord (b : ByteBuffer) (n : ℕ) : Option (Option ℕ × ByteBuffer) := do
  let (bytes, b) ← b.needBytes n
  return (bytes.map LittleEndian.value, b)

def writeBEInt8 (b : ByteBuffer) (aValue : Int8) : Option (Bool × ByteBuffer) :=
  b.putWord 1 aValue.toUInt8.toNat

def writeBEUInt8 (b : ByteBuffer) (aValue : UInt8) : Option (Bool × ByteBuffer) :=
  b.putWord 1 aValue.toNat

def writeBEInt16 (b : ByteBuffer) (aValue : Int16) : Option (Bool × ByteBuffer) :=
  b.putWord 2 (htons aValue.toUInt16).toNat

def writeBEUInt16 (b : ByteBuffer) (aValue : UInt16) : Option (Bool × ByteBuffer) :=
  b.putWord 2 (htons aValue).toNat

def writeBEInt32 (b : ByteBuffer) (aValue : Int32) : Option (Bool × ByteBuffer) :=
  b.putWord 4 (hostToNetwork4 aValue.toUInt32).toNat

def writeBEUInt32 (b : ByteBuffer) (aValue : UInt32) : Option (Bool × ByteBuffer) :=
  b.putWord 4 (hostToNetwork4 aValue).toNat

def writeBEInt64 (b : ByteBuffer) (aValue : Int64) : Option (Bool × ByteBuffer) :=
  b.putWord 8 (hostToNetwork8 aValue.toUInt64).toNat

def writeBEUInt64 (b : ByteBuffer) (aValue : UInt64) : Option (Bool × ByteBuffer) :=
  b.putWord 8 (hostToNetwork8 aValue).toNat

/-- No `PUTBYTES`; `WriteBuf` checks the room. -/
def writeLEInt32 (b : ByteBuffer) (aValue : Int32) : Option (Bool × ByteBuffer) := do
  b.checkValid
  b.writeBuf (LittleEndian.encode 4 aValue.toUInt32.toNat)

/-- The loop of `WriteVarInt32` and `WriteVarInt64` over the local array `b`, of which `n` cells are
left. A store past its end gives `none`. -/
def varIntStores : ℕ → ℕ → Option (List UInt8)
  | 0, _ => none
  | n + 1, aValue =>
    let byte := UInt8.ofNat (aValue &&& 0x7f ||| if 0x7f < aValue then 0x80 else 0x00)
    if 0 < aValue >>> 7 then (varIntStores n (aValue >>> 7)).map (byte :: ·) else some [byte]

def writeVarInt64 (b : ByteBuffer) (aValue : UInt64) : Option (Bool × ByteBuffer) := do
  b.checkValid
  b.writeBuf (← varIntStores 10 aValue.toNat)

def readBEInt8 (b : ByteBuffer) : Option (Option Int8 × ByteBuffer) := do
  let (val, b) ← b.needWord 1
  return (val.map fun v => (UInt8.ofNat v).toInt8, b)

def readBEUInt8 (b : ByteBuffer) : Option (Option UInt8 × ByteBuffer) := do
  let (val, b) ← b.needWord 1
  return (val.map UInt8.ofNat, b)

def readBEUInt16 (b : ByteBuffer) : Option (Option UInt16 × ByteBuffer) := do
  let (val, b) ← b.needWord 2
  return (val.map fun v => ntohs (UInt16.ofNat v), b)

def readBEUInt32 (b : ByteBuffer) : Option (Option UInt32 × ByteBuffer) := do
  let (val, b) ← b.needWord 4
  return (val.map fun v => ntohl (UInt32.ofNat v), b)

def readBEInt64 (b : ByteBuffer) : Option (Option Int64 × ByteBuffer) := do
  let (val, b) ← b.needWord 8
  return (val.map fun v => networkToHostLong8 (UInt64.ofNat v), b)

def readBEUInt64 (b : ByteBuffer) : Option (Option UInt64 × ByteBuffer) := do
  let (val, b) ← b.needWord 8
  return (val.map fun v => networkToHostULong8 (UInt64.ofNat v), b)

def readLEInt (b : ByteBuffer) : Option (Option Int32 × ByteBuffer) := do
  let (val, b) ← b.needWord 4
  return (val.map fun v => (UInt32.ofNat v).toInt32, b)

/-- An array that holds the shortest encoding is not left. -/
theorem varIntStores_eq {n v : ℕ} (h : v < 128 ^ (n + 1)) :
    varIntStores (n + 1) v = some (varIntBytes (n + 1) v) := by
  induction n generalizing v with
  | zero =>
    have hs : v >>> 7 = 0 := (Nat.shiftRight_eq_div_pow v 7).trans (Nat.div_eq_of_lt (by simpa using h))
    simp [varIntStores, varIntBytes, hs]
  | succ n ih =>
    have hd : v >>> 7 < 128 ^ (n + 1) := by
      rw [Nat.shiftRight_eq_div_pow]
      apply Nat.div_lt_of_lt_mul
      rwa [pow_succ, Nat.mul_comm] at h
    rw [varIntStores, varIntBytes]
    by_cases hv : 0 < v >>> 7
    · simp only [hv, if_true, ih hd, Option.map_some]
    · simp only [hv, if_false]

theorem varIntStores_uint32 (v : UInt32) : varIntStores 5 v.toNat = some (varIntBytes 5 v.toNat) := by
  have hv := v.toNat_lt
  exact varIntStores_eq (by omega)

theorem varIntStores_uint64 (v : UInt64) : varIntStores 10 v.toNat = some (Varint.encode v.toNat) := by
  have hv := v.toNat_lt
  have h : v.toNat < 128 ^ (9 + 1) := by omega
  rw [varIntStores_eq h, varIntBytes_eq_encode h]

end ByteBuffer

/-- A field with its value. -/
inductive TypedField where
  | bool (aValue : Bool)
  | beInt8 (aValue : Int8)
  | beUInt8 (aValue : UInt8)
  | beInt16 (aValue : Int16)
  | beUInt16 (aValue : UInt16)
  | beInt32 (aValue : Int32)
  | beUInt32 (aValue : UInt32)
  | beInt64 (aValue : Int64)
  | beUInt64 (aValue : UInt64)
  | leInt32 (aValue : Int32)
  | varInt32 (aValue : UInt32)
  | varInt64 (aValue : UInt64)
  | varUTF8String (aValue : AString)
deriving DecidableEq

/-- What a reader has to know of a field to read it. -/
inductive FieldType where
  | bool | beInt8 | beUInt8 | beInt16 | beUInt16 | beInt32 | beUInt32 | beInt64 | beUInt64 | leInt32
  | varInt32 | varInt64 | varUTF8String
deriving DecidableEq

namespace TypedField

def type : TypedField → FieldType
  | bool _ => .bool
  | beInt8 _ => .beInt8
  | beUInt8 _ => .beUInt8
  | beInt16 _ => .beInt16
  | beUInt16 _ => .beUInt16
  | beInt32 _ => .beInt32
  | beUInt32 _ => .beUInt32
  | beInt64 _ => .beInt64
  | beUInt64 _ => .beUInt64
  | leInt32 _ => .leInt32
  | varInt32 _ => .varInt32
  | varInt64 _ => .varInt64
  | varUTF8String _ => .varUTF8String

/-- The matching `Write…` call. -/
def write (b : ByteBuffer) : TypedField → Option (Bool × ByteBuffer)
  | bool v => b.writeBool v
  | beInt8 v => b.writeBEInt8 v
  | beUInt8 v => b.writeBEUInt8 v
  | beInt16 v => b.writeBEInt16 v
  | beUInt16 v => b.writeBEUInt16 v
  | beInt32 v => b.writeBEInt32 v
  | beUInt32 v => b.writeBEUInt32 v
  | beInt64 v => b.writeBEInt64 v
  | beUInt64 v => b.writeBEUInt64 v
  | leInt32 v => b.writeLEInt32 v
  | varInt32 v => b.writeVarInt32 v
  | varInt64 v => b.writeVarInt64 v
  | varUTF8String v => b.writeVarUTF8String v

/-- The calls one after another, up to the first that returns false. -/
def writeAll : ByteBuffer → List TypedField → Option (Bool × ByteBuffer)
  | b, [] => some (true, b)
  | b, f :: fields => do
    let (res, b) ← f.write b
    if !res then return (false, b)
    writeAll b fields

/-- The bytes of a field. -/
def bytes : TypedField → List UInt8
  | bool v => [if v then 1 else 0]
  | beInt8 v => BigEndian.encode 1 v.toUInt8.toNat
  | beUInt8 v => BigEndian.encode 1 v.toNat
  | beInt16 v => BigEndian.encode 2 v.toUInt16.toNat
  | beUInt16 v => BigEndian.encode 2 v.toNat
  | beInt32 v => BigEndian.encode 4 v.toUInt32.toNat
  | beUInt32 v => BigEndian.encode 4 v.toNat
  | beInt64 v => BigEndian.encode 8 v.toUInt64.toNat
  | beUInt64 v => BigEndian.encode 8 v.toNat
  | leInt32 v => LittleEndian.encode 4 v.toUInt32.toNat
  | varInt32 v => Varint.encode v.toNat
  | varInt64 v => Varint.encode v.toNat
  | varUTF8String v => Varint.encode v.length ++ v

end TypedField

namespace FieldType

/-- The matching `Read…` call. -/
def read (P : Platform) (b : ByteBuffer) : FieldType → Option (Option TypedField × ByteBuffer)
  | bool => do let (v, b) ← b.readBool; return (v.map .bool, b)
  | beInt8 => do let (v, b) ← b.readBEInt8; return (v.map .beInt8, b)
  | beUInt8 => do let (v, b) ← b.readBEUInt8; return (v.map .beUInt8, b)
  | beInt16 => do let (v, b) ← b.readBEInt16; return (v.map .beInt16, b)
  | beUInt16 => do let (v, b) ← b.readBEUInt16; return (v.map .beUInt16, b)
  | beInt32 => do let (v, b) ← b.readBEInt32; return (v.map .beInt32, b)
  | beUInt32 => do let (v, b) ← b.readBEUInt32; return (v.map .beUInt32, b)
  | beInt64 => do let (v, b) ← b.readBEInt64; return (v.map .beInt64, b)
  | beUInt64 => do let (v, b) ← b.readBEUInt64; return (v.map .beUInt64, b)
  | leInt32 => do let (v, b) ← b.readLEInt; return (v.map .leInt32, b)
  | varInt32 => do let (v, b) ← b.readVarInt32 P; return (v.map .varInt32, b)
  | varInt64 => do let (v, b) ← b.readVarInt64 P; return (v.map .varInt64, b)
  | varUTF8String => do let (v, b) ← b.readVarUTF8String P; return (v.map .varUTF8String, b)

/-- The values of the calls one after another, `none` when one returns false. -/
def readAll (P : Platform) : ByteBuffer → List FieldType → Option (Option (List TypedField) × ByteBuffer)
  | b, [] => some (some [], b)
  | b, t :: types => do
    let (v, b) ← t.read P b
    match v with
    | none => return (none, b)
    | some v =>
      let (vs, b) ← readAll P b types
      return (vs.map (v :: ·), b)

end FieldType

namespace ByteBuffer.Rep

variable {b : ByteBuffer} {size n val : ℕ} {read unread bytes rest : List UInt8}

/-- A call that appends `bytes` if there is room for them, and returns false if not. -/
abbrev Tries (read unread bytes : List UInt8) (size : ℕ) (o : Option (Bool × ByteBuffer)) : Prop :=
  if read.length + unread.length + bytes.length ≤ size then Appends read unread bytes size o
  else ∃ b', o = some (false, b')

theorem rep_of_tries {b' : ByteBuffer} {o : Option (Bool × ByteBuffer)} (ht : Tries read unread bytes size o)
    (ho : o = some (true, b')) : Rep b' size read (unread ++ bytes) := by
  unfold Tries at ht
  rw [ho] at ht
  split_ifs at ht
  · obtain ⟨b₁, he, hr⟩ := ht
    obtain ⟨-, rfl⟩ := Prod.mk.inj (Option.some.inj he)
    exact hr
  · obtain ⟨b₁, he⟩ := ht
    cases he

theorem writeBuf_tries (h : Rep b size read unread) (bytes : List UInt8) :
    Tries read unread bytes size (b.writeBuf bytes) := by
  unfold Tries
  split_ifs with hn
  · exact ⟨_, h.writeBuf_of_le hn, h.store hn⟩
  · exact ⟨b, h.writeBuf_of_gt (by omega)⟩

theorem writeBE_tries (h : Rep b size read unread) (n val : ℕ) :
    Tries read unread (BigEndian.encode n val) size (b.writeBE n val) := by
  unfold Tries
  rw [BigEndian.length_encode]
  split_ifs with hn
  · exact h.writeBE val hn
  · exact ⟨b, by simp [ByteBuffer.writeBE, h.checkValid, h.canWriteBytes, hn]⟩

theorem putWord_tries (h : Rep b size read unread) {val word : ℕ}
    (hw : LittleEndian.encode n word = BigEndian.encode n val) :
    Tries read unread (BigEndian.encode n val) size (b.putWord n word) := by
  have he : b.putWord n word = b.writeBE n val := by rw [putWord, ByteBuffer.writeBE, hw]
  rw [he]
  exact h.writeBE_tries n val

theorem writeVarInt32_tries (h : Rep b size read unread) (v : UInt32) :
    Tries read unread (Varint.encode v.toNat) size (b.writeVarInt32 v) := by
  have he : b.writeVarInt32 v = b.writeBuf (Varint.encode v.toNat) := by
    simp [ByteBuffer.writeVarInt32, h.checkValid, varIntBytes_uint32]
  rw [he]
  exact h.writeBuf_tries _

theorem writeVarInt64_tries (h : Rep b size read unread) (v : UInt64) :
    Tries read unread (Varint.encode v.toNat) size (b.writeVarInt64 v) := by
  have he : b.writeVarInt64 v = b.writeBuf (Varint.encode v.toNat) := by
    simp [writeVarInt64, h.checkValid, varIntStores_uint64]
  rw [he]
  exact h.writeBuf_tries _

/-- A string that does not fit may still leave its length in the buffer. -/
theorem writeVarUTF8String_tries (h : Rep b size read unread) (v : AString) :
    Tries read unread (Varint.encode v.length ++ v) size (b.writeVarUTF8String v) := by
  have hT : size + 1 < 2 ^ 32 := h.bound
  unfold Tries
  split_ifs with hn
  · exact h.writeVarUTF8String hn
  · rw [ByteBuffer.writeVarUTF8String, h.checkValid, h.canWriteBytes]
    by_cases hput : read.length + unread.length + sizeAdd v.length 1 ≤ size
    · have hlen := h.writeVarInt32_tries (UInt32.ofNat v.length)
      unfold Tries at hlen
      split_ifs at hlen with hfit
      · obtain ⟨b₁, h₁, hr₁⟩ := hlen
        have hgt : size < read.length + (unread ++ Varint.encode (UInt32.ofNat v.length).toNat).length + v.length := by
          rw [List.length_append] at hn ⊢
          by_cases hv : v.length < 2 ^ 32
          · rw [UInt32.toNat_ofNat', Nat.mod_eq_of_lt hv]
            omega
          · omega
        exact ⟨b₁, by simp [hput, h₁, hr₁.writeBuf_of_gt hgt]⟩
      · obtain ⟨b₁, h₁⟩ := hlen
        exact ⟨b₁, by simp [hput, h₁]⟩
    · exact ⟨b, by simp [hput]⟩

theorem needBytes_append (h : Rep b size read (bytes ++ rest)) (hn : bytes.length = n) :
    b.needBytes n = some (some bytes, b.advanced n) := by
  subst hn
  rw [h.needBytes_of_le (by simp), List.take_left]

theorem readBE_append (h : Rep b size read (BigEndian.encode n val ++ rest)) (hv : val < 256 ^ n) :
    b.readBE n = some (some val, b.advanced n) := by
  simp [ByteBuffer.readBE, h.needBytes_append (BigEndian.length_encode n val),
    BigEndian.value_encode_of_lt hv]

theorem needWord_append (h : Rep b size read (bytes ++ rest)) (hn : bytes.length = n) :
    b.needWord n = some (some (LittleEndian.value bytes), b.advanced n) := by
  simp [needWord, h.needBytes_append hn]

theorem varIntLoop_append {α : Type} (addGroup : α → UInt8 → ℕ → α) (zero : α) {v : ℕ}
    (h : Rep b size read (Varint.encode v ++ rest)) :
    ByteBuffer.varIntLoop addGroup b.bufferSize b zero 0 =
      some (some (Varint.foldGroups addGroup (Varint.encode v) zero 0), b.advanced (Varint.encode v).length) := by
  have hf : (Varint.encode v ++ rest).length < b.bufferSize := by
    have := h.fits
    rw [h.bufferSize]
    omega
  rw [h.varIntLoop addGroup hf, Varint.split_encode]

theorem readVarInt32_append (P : Platform) {v : UInt32} (h : Rep b size read (Varint.encode v.toNat ++ rest)) :
    b.readVarInt32 P = some (some v, b.advanced (Varint.encode v.toNat).length) := by
  have hv := v.toNat_lt
  have hl : (Varint.encode v.toNat).length ≤ 5 := Varint.length_encode_le (by omega)
  have hf : Varint.foldGroups P.addGroup32 (Varint.encode v.toNat) 0 0 = v := by
    apply UInt32.toNat_inj.mp
    rw [P.toNat_foldGroups32 hl (by rwa [Varint.value_encode]), Varint.value_encode]
  simp [readVarInt32, h.checkValid, h.varIntLoop_append P.addGroup32 0, hf]

theorem readVarInt64_append (P : Platform) {v : UInt64} (h : Rep b size read (Varint.encode v.toNat ++ rest)) :
    b.readVarInt64 P = some (some v, b.advanced (Varint.encode v.toNat).length) := by
  have hv := v.toNat_lt
  have hl : (Varint.encode v.toNat).length ≤ 10 := Varint.length_encode_le (by omega)
  have hf : Varint.foldGroups P.addGroup64 (Varint.encode v.toNat) 0 0 = v := by
    apply UInt64.toNat_inj.mp
    rw [P.toNat_foldGroups64 hl (by rwa [Varint.value_encode]), Varint.value_encode]
  simp [readVarInt64, h.checkValid, h.varIntLoop_append P.addGroup64 0, hf]

theorem readVarUTF8String_append (P : Platform) {v : AString}
    (h : Rep b size read (Varint.encode v.length ++ v ++ rest)) :
    b.readVarUTF8String P = some (some v, b.advanced (Varint.encode v.length ++ v).length) := by
  have hlen : (UInt32.ofNat v.length).toNat = v.length := by
    have hb : size + 1 < 2 ^ 32 := h.bound
    have hfit := h.fits
    simp only [List.length_append] at hfit
    rw [UInt32.toNat_ofNat', Nat.mod_eq_of_lt (by omega)]
  have hvar := P.varInt_encode (UInt32.ofNat v.length) (v ++ rest)
  rw [hlen, ← List.append_assoc] at hvar
  obtain ⟨hread, g, hg, hr⟩ := h.readVarInt_some hvar
  have hpos : (Varint.encode v.length ++ v ++ rest).length - (v ++ rest).length = (Varint.encode v.length).length := by
    simp only [List.length_append]
    omega
  rw [hpos] at hread hr
  simp [ByteBuffer.readVarUTF8String, h.checkValid, hread, hlen, hr.readString_of_le (n := v.length) (by simp)]

end ByteBuffer.Rep

theorem ntohs_value (v : UInt16) : ntohs (UInt16.ofNat (LittleEndian.value (BigEndian.encode 2 v.toNat))) = v := by
  have hv : BigEndian.value (BigEndian.encode 2 v.toNat) = v.toNat := BigEndian.value_encode_of_lt v.toNat_lt
  have he := encode_htons v
  rw [htons] at he
  rw [ntohs, he, hv, UInt16.ofNat_toNat]

theorem ntohl_value (v : UInt32) : ntohl (UInt32.ofNat (LittleEndian.value (BigEndian.encode 4 v.toNat))) = v := by
  have hv : BigEndian.value (BigEndian.encode 4 v.toNat) = v.toNat := BigEndian.value_encode_of_lt v.toNat_lt
  have he := encode_htonl v
  rw [htonl] at he
  rw [ntohl, he, hv, UInt32.ofNat_toNat]

theorem ntohll_value (v : UInt64) : ntohll (UInt64.ofNat (LittleEndian.value (BigEndian.encode 8 v.toNat))) = v := by
  have hval (w : UInt64) : LittleEndian.value (LittleEndian.encode 8 w.toNat) = w.toNat :=
    LittleEndian.value_encode_of_lt w.toNat_lt
  have hv : LittleEndian.value (BigEndian.encode 8 v.toNat) = (hostToNetwork8 v).toNat := by
    rw [← encode_hostToNetwork8, hval]
  have he : LittleEndian.encode 8 (hostToNetwork8 (hostToNetwork8 v)).toNat = LittleEndian.encode 8 v.toNat := by
    rw [encode_hostToNetwork8, BigEndian.encode_eq_reverse, encode_hostToNetwork8,
      BigEndian.encode_eq_reverse, List.reverse_reverse]
  have hn := congrArg LittleEndian.value he
  rw [hval, hval] at hn
  rw [hv, UInt64.ofNat_toNat, ntohll_eq_hostToNetwork8, UInt64.toNat_inj.mp hn]

namespace TypedField

variable {P : Platform} {b b' : ByteBuffer} {size : ℕ} {read unread rest : List UInt8}

private theorem write_tries (f : TypedField) (h : b.Rep size read unread) :
    ByteBuffer.Rep.Tries read unread f.bytes size (f.write b) := by
  have h1 (n : ℕ) : LittleEndian.encode 1 n = BigEndian.encode 1 n := rfl
  have h4 (v : UInt32) : LittleEndian.encode 4 (hostToNetwork4 v).toNat = BigEndian.encode 4 v.toNat := by
    rw [hostToNetwork4, ntohl_eq_htonl, encode_htonl]
  cases f with
  | bool v =>
    unfold ByteBuffer.Rep.Tries
    split_ifs with hn
    · exact ⟨_, by simp [write, ByteBuffer.writeBool, h.checkValid]; exact h.write_of_le hn, h.store hn⟩
    · exact ⟨b, by simp [write, ByteBuffer.writeBool, h.checkValid]; exact h.write_of_gt (Nat.not_le.mp hn)⟩
  | beInt8 v => exact h.putWord_tries (h1 _)
  | beUInt8 v => exact h.putWord_tries (h1 _)
  | beInt16 v => exact h.putWord_tries (encode_htons _)
  | beUInt16 v => exact h.putWord_tries (encode_htons _)
  | beInt32 v => exact h.putWord_tries (h4 _)
  | beUInt32 v => exact h.putWord_tries (h4 _)
  | beInt64 v => exact h.putWord_tries (encode_hostToNetwork8 _)
  | beUInt64 v => exact h.putWord_tries (encode_hostToNetwork8 _)
  | leInt32 v =>
    have he : b.writeLEInt32 v = b.writeBuf (LittleEndian.encode 4 v.toUInt32.toNat) := by
      simp [ByteBuffer.writeLEInt32, h.checkValid]
    rw [write, he]
    exact h.writeBuf_tries _
  | varInt32 v => exact h.writeVarInt32_tries v
  | varInt64 v => exact h.writeVarInt64_tries v
  | varUTF8String v => exact h.writeVarUTF8String_tries v

/-- A `Write…` call that returns true has appended the bytes of its field. -/
theorem rep_of_write (f : TypedField) (h : b.Rep size read unread) (hw : f.write b = some (true, b')) :
    b'.Rep size read (unread ++ f.bytes) :=
  ByteBuffer.Rep.rep_of_tries (f.write_tries h) hw

/-- The matching `Read…` call takes the bytes of a field and gives its value back. -/
theorem read_bytes (f : TypedField) (h : b.Rep size read (f.bytes ++ rest)) :
    f.type.read P b = some (some f, b.advanced f.bytes.length) := by
  cases f with
  | bool v =>
    have h' : b.Rep size read (BigEndian.encode 1 v.toNat ++ rest) := by
      cases v <;> exact h
    have hr := h'.readBE_append (by cases v <;> decide)
    cases v <;> simp [type, FieldType.read, ByteBuffer.readBool, hr, bytes]
  | beInt8 v =>
    have hr := h.needWord_append (n := 1) (BigEndian.length_encode 1 _)
    simp [type, FieldType.read, ByteBuffer.readBEInt8, hr, bytes, BigEndian.encode, LittleEndian.value,
      -UInt8.toInt8_ofNat']
  | beUInt8 v =>
    have hr := h.needWord_append (n := 1) (BigEndian.length_encode 1 _)
    simp [type, FieldType.read, ByteBuffer.readBEUInt8, hr, bytes, BigEndian.encode, LittleEndian.value]
  | beInt16 v =>
    have hr := h.readBE_append v.toUInt16.toNat_lt
    simp [type, FieldType.read, ByteBuffer.readBEInt16, hr, bytes, -UInt16.toInt16_ofNat']
  | beUInt16 v =>
    have hr := h.needWord_append (n := 2) (BigEndian.length_encode 2 _)
    simp [type, FieldType.read, ByteBuffer.readBEUInt16, hr, bytes, ntohs_value]
  | beInt32 v =>
    have hr := h.readBE_append v.toUInt32.toNat_lt
    simp [type, FieldType.read, ByteBuffer.readBEInt32, hr, bytes, -UInt32.toInt32_ofNat']
  | beUInt32 v =>
    have hr := h.needWord_append (n := 4) (BigEndian.length_encode 4 _)
    simp [type, FieldType.read, ByteBuffer.readBEUInt32, hr, bytes, ntohl_value]
  | beInt64 v =>
    have hr := h.needWord_append (n := 8) (BigEndian.length_encode 8 _)
    simp [type, FieldType.read, ByteBuffer.readBEInt64, hr, bytes, networkToHostLong8, ntohll_value]
  | beUInt64 v =>
    have hr := h.needWord_append (n := 8) (BigEndian.length_encode 8 _)
    simp [type, FieldType.read, ByteBuffer.readBEUInt64, hr, bytes, networkToHostULong8, ntohll_value]
  | leInt32 v =>
    have hr := h.needWord_append (n := 4) (LittleEndian.length_encode 4 _)
    have hv : LittleEndian.value (LittleEndian.encode 4 v.toUInt32.toNat) = v.toUInt32.toNat :=
      LittleEndian.value_encode_of_lt v.toUInt32.toNat_lt
    simp [type, FieldType.read, ByteBuffer.readLEInt, hr, bytes, hv, -UInt32.toInt32_ofNat']
  | varInt32 v => simp [type, FieldType.read, h.readVarInt32_append P, bytes]
  | varInt64 v => simp [type, FieldType.read, h.readVarInt64_append P, bytes]
  | varUTF8String v => simp [type, FieldType.read, h.readVarUTF8String_append P, bytes]

/-- Calls that all return true append the bytes of the fields in order. -/
theorem rep_of_writeAll {fields : List TypedField} (h : b.Rep size read unread)
    (hw : writeAll b fields = some (true, b')) : b'.Rep size read (unread ++ fields.flatMap bytes) := by
  induction fields generalizing b unread with
  | nil =>
    obtain ⟨-, rfl⟩ := Prod.mk.inj (Option.some.inj hw)
    simpa using h
  | cons f fields ih =>
    rw [writeAll] at hw
    obtain ⟨⟨res, b₁⟩, h₁, h₂⟩ := Option.bind_eq_some_iff.mp hw
    cases res with
    | false => cases h₂
    | true =>
      rw [List.flatMap_cons, ← List.append_assoc]
      exact ih (f.rep_of_write h h₁) h₂

theorem readAll_bytes {fields : List TypedField} (h : b.Rep size read (fields.flatMap bytes ++ rest)) :
    ∃ b', FieldType.readAll P b (fields.map type) = some (some fields, b') ∧
      b'.Rep size (read ++ fields.flatMap bytes) rest := by
  induction fields generalizing b read with
  | nil => exact ⟨b, rfl, by simpa using h⟩
  | cons f fields ih =>
    rw [List.flatMap_cons, List.append_assoc] at h
    have hadv := h.advance (n := f.bytes.length) (by simp)
    rw [List.take_left, List.drop_left] at hadv
    obtain ⟨b', hb', hr'⟩ := ih hadv
    refine ⟨b', ?_, by rwa [List.flatMap_cons, ← List.append_assoc]⟩
    simp [FieldType.readAll, f.read_bytes (P := P) h, hb']

/-- Fields written one after another at any position of the ring, whatever is read or unread before
them, come back in the same order and the reads end where the writes did; the local arrays of
`WriteVarInt32` and `WriteVarInt64` are long enough for every value. -/
theorem readAll_writeAll (P : Platform) {fields : List TypedField} (h : b.Rep size read unread)
    (hw : writeAll b fields = some (true, b')) :
    (∃ bytes b₁ b₂, b'.Rep size read (unread ++ bytes) ∧ b'.readBuf unread.length = some (some unread, b₁) ∧
      FieldType.readAll P b₁ (fields.map type) = some (some fields, b₂) ∧
        b₂.Rep size (read ++ unread ++ bytes) []) ∧
    (∀ v : UInt32, ByteBuffer.varIntStores 5 v.toNat = some (ByteBuffer.varIntBytes 5 v.toNat)) ∧
      ∀ v : UInt64, (ByteBuffer.varIntStores 10 v.toNat).isSome := by
  refine ⟨?_, ByteBuffer.varIntStores_uint32, fun v => by rw [ByteBuffer.varIntStores_uint64]; rfl⟩
  have hr := rep_of_writeAll h hw
  have hadv := hr.advance (n := unread.length) (by simp)
  rw [List.take_left, List.drop_left, ← List.append_nil (fields.flatMap bytes)] at hadv
  obtain ⟨b₂, hb₂, hr₂⟩ := readAll_bytes (P := P) hadv
  refine ⟨fields.flatMap bytes, b'.advanced unread.length, b₂, hr, ?_, hb₂, hr₂⟩
  rw [hr.readBuf_of_le (by simp), List.take_left]

/-- A word that lies across the end of the block, behind a byte that is read and one that is not. -/
theorem readAll_writeAll_across : ∃ b b' b₁ b₂ : ByteBuffer,
    writeAll b [.beInt32 (-2), .bool true] = some (true, b') ∧ b'.writePos < b.writePos ∧
      b'.readBuf 1 = some (some [8], b₁) ∧
        FieldType.readAll Platform.zero b₁ [.beInt32, .bool] = some (some [.beInt32 (-2), .bool true], b₂) ∧
          b₂.getReadableSpace = some 0 := by
  let b : ByteBuffer := ⟨[0, 0, 0, 0, 9, 8, 0, 0], 8, 4, 6, 5⟩
  let b' : ByteBuffer := ⟨[255, 254, 1, 0, 9, 8, 255, 255], 8, 4, 3, 5⟩
  have hb : b.Rep 7 [9] [8] :=
    ⟨rfl, by decide, rfl, by decide, rfl, rfl, by decide, [0, 0, 0, 0, 0, 0], rfl⟩
  have hw : writeAll b [.beInt32 (-2), .bool true] = some (true, b') := by decide +kernel
  obtain ⟨⟨bytes, b₁, b₂, -, h₁, h₂, hr⟩, -⟩ := readAll_writeAll Platform.zero hb hw
  exact ⟨b, b', b₁, b₂, hw, by decide, h₁, h₂, hr.getReadableSpace⟩

end TypedField

end Sfup.Client
