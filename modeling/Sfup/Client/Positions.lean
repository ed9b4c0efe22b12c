import Sfup.Client.TypedFields

/-! `ReadPosition64` against `WritePosition64`: three coordinates in one word, each with its own sign bit. -/
namespace Sfup.Client

/-- A coordinate from its bits: what has the sign bit is counted down from `minus`. -/
def coordinate (sign minus raw : UInt32) : Int32 :=
  if raw &&& sign = 0 then raw.toInt32 else -(minus.toInt32 - raw.toInt32)

/-- The coordinates that `ReadPosition64` takes out of the word. -/
def coordinates (value : Int64) : Int32 × Int32 × Int32 :=
  let blockXRaw := ((value >>> 38) &&& 0x03ffffff).toUInt64.toUInt32
  let blockYRaw := ((value >>> 26) &&& 0x0fff).toUInt64.toUInt32
  let blockZRaw := (value &&& 0x03ffffff).toUInt64.toUInt32
  (coordinate 0x02000000 0x04000000 blockXRaw, coordinate 0x0800 0x0800 blockYRaw,
    coordinate 0x02000000 0x04000000 blockZRaw)

def ByteBuffer.readPosition64 (b : ByteBuffer) : Option (Option (Int32 × Int32 × Int32) × ByteBuffer) := do
  let (value, b) ← b.readBEInt64
  return (value.map coordinates, b)

/-- A position that is written, wherever that is in the ring, is read back once the bytes before it are read. -/
def ReadsBack (x y z : Int32) : Prop :=
  ∀ (b b' : ByteBuffer) (size : ℕ) (read unread : List UInt8), b.Rep size read unread →
    b.writePosition64 x y z = some (true, b') → ∃ b₁ b₂,
      b'.readBuf unread.length = some (some unread, b₁) ∧ b₁.readPosition64 = some (some (x, y, z), b₂)

/-! ## The word -/

/-- A field that is masked to `n` bits. -/
theorem toNat_masked (v : UInt32) {n : ℕ} (hn : n < 32) :
    (v &&& UInt32.ofNat (2 ^ n - 1)).toUInt64.toNat = v.toNat % 2 ^ n := by
  have hp : 2 ^ n < 2 ^ 32 := Nat.pow_lt_pow_right (by omega) hn
  rw [UInt32.toNat_toUInt64, UInt32.toNat_and, UInt32.toNat_ofNat', Nat.mod_eq_of_lt (by omega),
    Nat.and_two_pow_sub_one_eq_mod]

theorem fields_or {x y z : ℕ} (hx : x < 2 ^ 26) (hy : y < 2 ^ 12) (hz : z < 2 ^ 26) :
    ((x <<< 38 % 2 ^ 64) ||| (y <<< 26 % 2 ^ 64)) ||| z = x * 2 ^ 38 + (y * 2 ^ 26 + z) := by
  rw [Nat.shiftLeft_eq, Nat.shiftLeft_eq, Nat.mod_eq_of_lt (by omega), Nat.mod_eq_of_lt (by omega), Nat.or_assoc,
    ← Nat.shiftLeft_eq, ← Nat.shiftLeft_eq, ← Nat.shiftLeft_add_eq_or_of_lt hz,
    ← Nat.shiftLeft_add_eq_or_of_lt (by rw [Nat.shiftLeft_eq]; omega), Nat.shiftLeft_eq, Nat.shiftLeft_eq]

theorem toNat_position64 (x y z : Int32) : (ByteBuffer.position64 x y z).toNat =
    (x.toUInt32.toNat % 2 ^ 26) * 2 ^ 38 + ((y.toUInt32.toNat % 2 ^ 12) * 2 ^ 26 + z.toUInt32.toNat % 2 ^ 26) := by
  have hx : (x.toUInt32 &&& 0x3FFFFFF).toUInt64.toNat = x.toUInt32.toNat % 2 ^ 26 :=
    toNat_masked _ (n := 26) (by omega)
  have hy : (y.toUInt32 &&& 0xFFF).toUInt64.toNat = y.toUInt32.toNat % 2 ^ 12 :=
    toNat_masked _ (n := 12) (by omega)
  have hz : (z.toUInt32 &&& 0x3FFFFFF).toUInt64.toNat = z.toUInt32.toNat % 2 ^ 26 :=
    toNat_masked _ (n := 26) (by omega)
  have h38 : (38 : UInt64).toNat % 64 = 38 := rfl
  have h26 : (26 : UInt64).toNat % 64 = 26 := rfl
  rw [ByteBuffer.position64, UInt64.toNat_or, UInt64.toNat_or, UInt64.toNat_shiftLeft, UInt64.toNat_shiftLeft, hx, hy,
    hz, h38, h26]
  apply fields_or
  all_goals exact Nat.mod_lt _ (by decide)

/-- A field of `n` bits, `k` bits from the right: the sign of the word does not matter. -/
theorem toNat_field (word : UInt64) {k n : ℕ} (hk : k + n ≤ 64) (hn : n < 64) :
    ((word.toBitVec.sshiftRight k) &&& BitVec.ofNat 64 (2 ^ n - 1)).toNat = word.toNat / 2 ^ k % 2 ^ n := by
  apply Nat.eq_of_testBit_eq
  intro i
  have hp : 2 ^ n < 2 ^ 64 := Nat.pow_lt_pow_right (by omega) hn
  rw [BitVec.testBit_toNat, BitVec.getLsbD_and, BitVec.getLsbD_sshiftRight, BitVec.getLsbD_ofNat,
    Nat.testBit_two_pow_sub_one, Nat.testBit_mod_two_pow, Nat.testBit_div_two_pow]
  by_cases hi : i < n
  · have h64 : i < 64 := by omega
    have hki : k + i < 64 := by omega
    have hge : ¬ 64 ≤ i := by omega
    simp only [hi, h64, hki, hge, decide_true, decide_false, Bool.not_false, Bool.true_and, Bool.and_true, if_true]
    rw [Nat.add_comm, ← BitVec.testBit_toNat, UInt64.toNat_toBitVec]
  · simp [hi]

private theorem toUInt32_field (word : UInt64) {k n : ℕ} (hk : k + n ≤ 64) (hn : n < 64) (hlt : k < 64) :
    ((word.toInt64 >>> Int64.ofNat k) &&& Int64.ofNat (2 ^ n - 1)).toUInt64.toUInt32 =
      UInt32.ofNat (word.toNat / 2 ^ k % 2 ^ n) := by
  have hint : (BitVec.ofNat 64 k).toInt = k := by
    rw [BitVec.toInt_eq_toNat_of_lt] <;> rw [BitVec.toNat_ofNat, Nat.mod_eq_of_lt (by omega)]
    omega
  have hsmod : (BitVec.ofNat 64 k).smod 64 = BitVec.ofNat 64 k := by
    apply BitVec.eq_of_toInt_eq
    rw [BitVec.toInt_smod, hint]
    exact Int.fmod_eq_of_lt (Int.natCast_nonneg k) (Int.ofNat_lt.mpr hlt)
  have hs : (word.toInt64 >>> Int64.ofNat k).toBitVec = word.toBitVec.sshiftRight k := by
    rw [Int64.toBitVec_shiftRight, Int64.toBitVec_ofNat', hsmod, BitVec.sshiftRight_eq', BitVec.toNat_ofNat,
      Nat.mod_eq_of_lt (by omega), UInt64.toBitVec_toInt64]
  rw [← toNat_field word hk hn, ← hs]
  apply UInt32.toNat_inj.mp
  rw [UInt64.toNat_toUInt32, UInt32.toNat_ofNat']
  congr 1

/-- Each field comes out of the word as it was masked. -/
theorem coordinates_position64 (x y z : Int32) :
    coordinates (ByteBuffer.position64 x y z).toInt64 =
      (coordinate (UInt32.ofNat (2 ^ 25)) 0x04000000 (UInt32.ofNat (x.toUInt32.toNat % 2 ^ 26)),
        coordinate (UInt32.ofNat (2 ^ 11)) 0x0800 (UInt32.ofNat (y.toUInt32.toNat % 2 ^ 12)),
        coordinate (UInt32.ofNat (2 ^ 25)) 0x04000000 (UInt32.ofNat (z.toUInt32.toNat % 2 ^ 26))) := by
  have hword := toNat_position64 x y z
  have hxl : x.toUInt32.toNat % 2 ^ 26 < 2 ^ 26 := Nat.mod_lt _ (by decide)
  have hyl : y.toUInt32.toNat % 2 ^ 12 < 2 ^ 12 := Nat.mod_lt _ (by decide)
  have hzl : z.toUInt32.toNat % 2 ^ 26 < 2 ^ 26 := Nat.mod_lt _ (by decide)
  have hx := toUInt32_field (ByteBuffer.position64 x y z) (k := 38) (n := 26) (by omega) (by omega) (by omega)
  have hy := toUInt32_field (ByteBuffer.position64 x y z) (k := 26) (n := 12) (by omega) (by omega) (by omega)
  have hz := toUInt32_field (ByteBuffer.position64 x y z) (k := 0) (n := 26) (by omega) (by omega) (by omega)
  generalize (ByteBuffer.position64 x y z).toNat = word at hword hx hy hz
  rw [show word / 2 ^ 38 % 2 ^ 26 = x.toUInt32.toNat % 2 ^ 26 by omega] at hx
  rw [show word / 2 ^ 26 % 2 ^ 12 = y.toUInt32.toNat % 2 ^ 12 by omega] at hy
  rw [show word / 2 ^ 0 % 2 ^ 26 = z.toUInt32.toNat % 2 ^ 26 by omega] at hz
  have hzero (value : Int64) : value >>> Int64.ofNat 0 = value := by simp
  rw [hzero] at hz
  rw [← hx, ← hy, ← hz]
  rfl

/-! ## The signs -/

private theorem and_two_pow_eq_zero_iff {n : ℕ} (hn : n < 32) {raw : UInt32} (hraw : raw.toNat < 2 ^ (n + 1)) :
    raw &&& UInt32.ofNat (2 ^ n) = 0 ↔ raw.toNat < 2 ^ n := by
  have hp : 2 ^ n < 2 ^ 32 := Nat.pow_lt_pow_right (by omega) hn
  rw [← UInt32.toNat_inj, UInt32.toNat_and, UInt32.toNat_ofNat', Nat.mod_eq_of_lt (by omega), Nat.and_two_pow,
    UInt32.toNat_zero]
  by_cases h : raw.toNat < 2 ^ n
  · simp [h, Nat.testBit_lt_two_pow h]
  · have hdiv : raw.toNat / 2 ^ n = 1 := Nat.div_eq_of_lt_le (by omega) (by rw [pow_succ] at hraw; omega)
    simp [h, Nat.testBit_eq_decide_div_mod_eq, hdiv]

/-- A number with `n` bits and a sign bit before them. -/
theorem toInt_coordinate {n : ℕ} (hn : n ≤ 29) {raw minus : UInt32} (hraw : raw.toNat < 2 ^ (n + 1))
    (hminus : minus.toNat < 2 ^ 31) :
    (coordinate (UInt32.ofNat (2 ^ n)) minus raw).toInt =
      if raw.toNat < 2 ^ n then (raw.toNat : ℤ) else raw.toNat - minus.toNat := by
  have hp : 2 ^ (n + 1) ≤ 2 ^ 30 := Nat.pow_le_pow_right (by omega) (by omega)
  have htoInt (v : UInt32) (hv : v.toNat < 2 ^ 31) : v.toInt32.toInt = v.toNat :=
    BitVec.toInt_eq_toNat_of_lt (by rw [UInt32.toBitVec_toInt32, UInt32.toNat_toBitVec]; omega)
  unfold coordinate
  simp only [and_two_pow_eq_zero_iff (by omega : n < 32) hraw]
  split_ifs with h
  · exact htoInt raw (by omega)
  · have hdiff : ((minus.toNat : ℤ) - raw.toNat).bmod (2 ^ 32) = minus.toNat - raw.toNat :=
      Int.bmod_eq_of_le (by omega) (by omega)
    rw [Int32.toInt_neg, Int32.toInt_sub, htoInt raw (by omega), htoInt minus hminus, hdiff, neg_sub]
    exact Int.bmod_eq_of_le (by omega) (by omega)

/-- A number of the range goes through its bits, if what is counted down from is twice the sign bit. -/
theorem toInt_coordinate_masked {n : ℕ} (hn : n ≤ 29) {minus : UInt32} (hminus : minus.toNat < 2 ^ 31) {v : Int32}
    (hlo : -2 ^ n ≤ v.toInt) (hhi : v.toInt < 2 ^ n) :
    (coordinate (UInt32.ofNat (2 ^ n)) minus (UInt32.ofNat (v.toUInt32.toNat % 2 ^ (n + 1)))).toInt =
      if 0 ≤ v.toInt then v.toInt else v.toInt + 2 ^ (n + 1) - minus.toNat := by
  have hp : 2 ^ (n + 1) ≤ 2 ^ 30 := Nat.pow_le_pow_right (by omega) (by omega)
  have hmod : v.toUInt32.toNat % 2 ^ (n + 1) < 2 ^ (n + 1) := Nat.mod_lt _ (Nat.two_pow_pos _)
  have hraw : (UInt32.ofNat (v.toUInt32.toNat % 2 ^ (n + 1))).toNat = v.toUInt32.toNat % 2 ^ (n + 1) := by
    rw [UInt32.toNat_ofNat', Nat.mod_eq_of_lt (by omega)]
  have hbits : ((v.toUInt32.toNat % 2 ^ (n + 1) : ℕ) : ℤ) = v.toInt % 2 ^ (n + 1) := by
    have hbmod : v.toInt = (v.toUInt32.toNat : ℤ).bmod (2 ^ 32) := BitVec.toInt_eq_toNat_bmod _
    have hdvd : (2 : ℤ) ^ (n + 1) ∣ 2 ^ 32 := pow_dvd_pow 2 (by omega)
    have hemod : (v.toUInt32.toNat : ℤ).bmod (2 ^ 32) % 2 ^ 32 = v.toUInt32.toNat % 2 ^ 32 := Int.bmod_emod
    rw [hbmod, ← Int.emod_emod_of_dvd _ hdvd, hemod, Int.emod_emod_of_dvd _ hdvd,
      Int.natCast_mod, Int.natCast_pow, Nat.cast_ofNat]
  have hpow : (2 : ℤ) ^ (n + 1) = 2 * 2 ^ n := pow_succ' 2 n
  have hlt : v.toUInt32.toNat % 2 ^ (n + 1) < 2 ^ n ↔ 0 ≤ v.toInt := by
    rw [← Int.ofNat_lt, hbits]
    push_cast
    by_cases hv : 0 ≤ v.toInt
    · rw [Int.emod_eq_of_lt hv (by omega)]
      exact iff_of_true hhi hv
    · rw [← Int.add_emod_right, Int.emod_eq_of_lt (by omega) (by omega)]
      omega
  rw [toInt_coordinate hn (by rw [hraw]; exact hmod) hminus, hraw]
  simp only [hlt, hbits]
  split_ifs with hv
  · exact Int.emod_eq_of_lt hv (by omega)
  · rw [← Int.add_emod_right, Int.emod_eq_of_lt (by omega) (by omega)]

/-! ## The round trip -/

theorem readPosition64_of_write {b b' : ByteBuffer} {size : ℕ} {read unread : List UInt8} {x y z : Int32}
    (h : b.Rep size read unread) (hw : b.writePosition64 x y z = some (true, b')) : ∃ b₁ b₂,
      b'.readBuf unread.length = some (some unread, b₁) ∧
      b₁.readPosition64 = some (some (coordinates (ByteBuffer.position64 x y z).toInt64), b₂) := by
  have hb' : b'.Rep size read (unread ++ BigEndian.encode 8 (ByteBuffer.position64 x y z).toNat) := by
    apply ByteBuffer.Rep.rep_of_tries (h.writeBE_tries 8 (ByteBuffer.position64 x y z).toNat)
    rw [← hw]
    simp [ByteBuffer.writePosition64, h.checkValid]
  have hle : unread.length ≤ (unread ++ BigEndian.encode 8 (ByteBuffer.position64 x y z).toNat).length := by simp
  have hskip := hb'.readBuf_of_le hle
  have hb₁ := hb'.advance hle
  rw [List.take_left] at hskip
  rw [List.take_left, List.drop_left, ← List.append_nil (BigEndian.encode 8 _)] at hb₁
  have hword := hb₁.needWord_append (n := 8) (BigEndian.length_encode 8 _)
  refine ⟨_, (b'.advanced unread.length).advanced 8, hskip, ?_⟩
  simp [ByteBuffer.readPosition64, ByteBuffer.readBEInt64, hword, networkToHostLong8, ntohll_value]

theorem readsBack_iff_coordinates (x y z : Int32) :
    ReadsBack x y z ↔ coordinates (ByteBuffer.position64 x y z).toInt64 = (x, y, z) := by
  constructor
  · intro hall
    obtain ⟨b, hb⟩ : ∃ b : ByteBuffer, b.Rep 8 [] [] := ByteBuffer.exists_rep (by decide) (by decide)
    obtain ⟨b', hbe, -⟩ := hb.writeBE (n := 8) (ByteBuffer.position64 x y z).toNat (by decide)
    have hw : b.writePosition64 x y z = some (true, b') := by simp [ByteBuffer.writePosition64, hb.checkValid, hbe]
    obtain ⟨b₁, b₂, hskip, hread⟩ := readPosition64_of_write hb hw
    obtain ⟨b₃, b₄, hskip', hread'⟩ := hall b b' 8 [] [] hb hw
    obtain ⟨-, rfl⟩ := Prod.mk.inj (Option.some.inj (hskip.symm.trans hskip'))
    exact Option.some.inj (Prod.mk.inj (Option.some.inj (hread.symm.trans hread'))).1
  · intro hc b b' size read unread hb hw
    obtain ⟨b₁, b₂, hskip, hread⟩ := readPosition64_of_write hb hw
    rw [hc] at hread
    exact ⟨b₁, b₂, hskip, hread⟩

/-- In the ranges of the three fields a position is read back as it was written exactly if the height is not
negative. -/
theorem readsBack_iff {x y z : Int32} (hx : -2 ^ 25 ≤ x.toInt ∧ x.toInt < 2 ^ 25)
    (hy : -2 ^ 11 ≤ y.toInt ∧ y.toInt < 2 ^ 11) (hz : -2 ^ 25 ≤ z.toInt ∧ z.toInt < 2 ^ 25) :
    ReadsBack x y z ↔ 0 ≤ y.toInt := by
  have hminus : (0x04000000 : UInt32).toNat < 2 ^ 31 := by decide
  have hminus' : (0x0800 : UInt32).toNat < 2 ^ 31 := by decide
  have hcx := toInt_coordinate_masked (n := 25) (by omega) hminus hx.1 hx.2
  have hcy := toInt_coordinate_masked (n := 11) (by omega) hminus' hy.1 hy.2
  have hcz := toInt_coordinate_masked (n := 25) (by omega) hminus hz.1 hz.2
  rw [show (0x04000000 : UInt32).toNat = 2 ^ 26 from rfl] at hcx hcz
  rw [show (0x0800 : UInt32).toNat = 2 ^ 11 from rfl] at hcy
  rw [readsBack_iff_coordinates, coordinates_position64, Prod.mk.injEq, Prod.mk.injEq, ← Int32.toInt_inj,
    ← Int32.toInt_inj, ← Int32.toInt_inj, hcx, hcy, hcz]
  push_cast
  constructor
  · intro h
    by_contra hneg
    rw [if_neg hneg] at h
    omega
  · intro hy0
    refine ⟨?_, if_pos hy0, ?_⟩
    all_goals split_ifs <;> omega

theorem readsBack_ends : ReadsBack (-33554432) 2047 33554431 :=
  (readsBack_iff (by decide) (by decide) (by decide)).mpr (by decide)

/-- A height of -1 is read as 2047. -/
theorem not_readsBack : ¬ ∀ x y z : Int32, -2 ^ 25 ≤ x.toInt ∧ x.toInt < 2 ^ 25 → -2 ^ 11 ≤ y.toInt ∧ y.toInt < 2 ^ 11 →
    -2 ^ 25 ≤ z.toInt ∧ z.toInt < 2 ^ 25 → ReadsBack x y z := by
  intro hall
  have h := (readsBack_iff_coordinates 0 (-1) 0).mp (hall 0 (-1) 0 (by decide) (by decide) (by decide))
  exact absurd h (by decide)

end Sfup.Client
