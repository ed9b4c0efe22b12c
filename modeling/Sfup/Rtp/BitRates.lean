import Sfup.Rtp.Headers
import Sfup.Lib.Scaled

/-! The bit rate of a REMB packet: 18 bits of mantissa and 6 bits of exponent in three bytes. -/
namespace Sfup.Rtp.RtcpHeader

variable {m m' : Mem} {p i bitRate : ℕ}

/-- The rate that is announced, which 32 bits need not hold. -/
def advertised (m : Mem) (p : ℕ) : ℕ := getBrMantis m p * 2 ^ getBrExp m p

/-! ## The three bytes -/

theorem setTriple_high {v : ℕ} : setTriple m p v p = UInt8.ofNat (v / 65536) := by
  rw [setTriple, Function.update_of_ne (by omega), Function.update_of_ne (by omega), Function.update_self]

theorem setTriple_middle {v : ℕ} : setTriple m p v (p + 1) = UInt8.ofNat (v / 256) := by
  rw [setTriple, Function.update_of_ne (by omega), Function.update_self]

theorem setTriple_low {v : ℕ} : setTriple m p v (p + 2) = UInt8.ofNat v := by
  rw [setTriple, Function.update_self]

theorem setTriple_of_ne {v : ℕ} (h : i < p ∨ p + 3 ≤ i) : setTriple m p v i = m i := by
  rw [setTriple, Function.update_of_ne (by omega), Function.update_of_ne (by omega), Function.update_of_ne (by omega)]

theorem setREMBBitRate_congr (h : m i = m' i) : setREMBBitRate m p bitRate i = setREMBBitRate m' p bitRate i := by
  simp only [setREMBBitRate, setTriple, Function.update_apply, h]

theorem setREMBBitRate_of_ne (h : i < p + 17 ∨ p + 20 ≤ i) : setREMBBitRate m p bitRate i = m i :=
  setTriple_of_ne (by omega)

section Congr
variable (h : ∀ i, p + 17 ≤ i → i < p + 20 → m i = m' i)
include h

theorem getBrExp_congr : getBrExp m p = getBrExp m' p := by
  unfold getBrExp
  rw [h _ (by omega) (by omega)]

theorem getBrMantis_congr : getBrMantis m p = getBrMantis m' p := by
  unfold getBrMantis
  rw [h _ (by omega) (by omega), h _ (by omega) (by omega), h _ (by omega) (by omega)]

theorem bitrate_congr : bitrate m p = bitrate m' p := by
  unfold bitrate
  rw [getBrMantis_congr h, getBrExp_congr h]

end Congr

theorem getBrMantis_lt : getBrMantis m p < 2 ^ 18 := by
  have hm := (m (p + 18)).toNat_lt
  have hl := (m (p + 19)).toNat_lt
  unfold getBrMantis
  omega

/-- The product of 32 bits is the rate exactly if they hold it. -/
theorem bitrate_eq_advertised_iff : bitrate m p = advertised m p ↔ advertised m p < 2 ^ 32 := by
  unfold bitrate advertised
  generalize getBrMantis m p = mantissa
  generalize getBrExp m p = exp
  constructor
  · intro heq
    rw [← heq]
    exact Nat.mod_lt _ (by decide)
  · intro hlt
    rcases Nat.eq_zero_or_pos mantissa with rfl | hpos
    · simp
    · have hexp : exp < 32 := by
        by_contra hge
        have hpow : 2 ^ 32 ≤ 2 ^ exp := Nat.pow_le_pow_right (by decide) (by omega)
        have hmul := Nat.le_mul_of_pos_left (2 ^ exp) hpos
        omega
      rw [Nat.mod_eq_of_lt hexp, Nat.mod_eq_of_lt hlt]

theorem bitrate_lt : bitrate m p < 2 ^ 32 := Nat.mod_lt _ (by decide)

theorem getBrExp_setREMBBitRate :
    getBrExp (setREMBBitRate m p bitRate) p = rembExp bitRate 64 0x3FFFF % 64 := by
  simp only [getBrExp, setREMBBitRate]
  generalize rembExp bitRate 64 0x3FFFF = exp
  rw [setTriple_high, UInt8.toNat_ofNat']
  omega

theorem getBrMantis_setREMBBitRate :
    getBrMantis (setREMBBitRate m p bitRate) p = bitRate / 2 ^ rembExp bitRate 64 0x3FFFF % 2 ^ 18 := by
  simp only [getBrMantis, setREMBBitRate]
  generalize rembExp bitRate 64 0x3FFFF = exp
  generalize bitRate / 2 ^ exp = mantissa
  rw [setTriple_high, setTriple_middle, setTriple_low, UInt8.toNat_ofNat', UInt8.toNat_ofNat', UInt8.toNat_ofNat']
  omega

/-! ## The exponent -/

/-- From any of the exponents below the least one the loop reaches it, as long as the limit does not leave 64 bits. -/
theorem rembExp_eq {e k : ℕ} (h : IsLeast {e | bitRate < 0x3FFFF * 2 ^ e} e) (hk : k ≤ e) (he : e ≤ 46) :
    rembExp bitRate (64 - k) (0x3FFFF * 2 ^ k) = e := by
  induction hd : e - k generalizing k with
  | zero =>
    obtain rfl : k = e := by omega
    obtain ⟨t, ht⟩ : ∃ t, 64 - k = t + 1 := ⟨63 - k, by omega⟩
    rw [ht, rembExp, if_neg (Nat.not_le.mpr h.1)]
    omega
  | succ d ih =>
    obtain ⟨t, ht⟩ : ∃ t, 64 - k = t + 1 := ⟨63 - k, by omega⟩
    have hnot : ¬ bitRate < 0x3FFFF * 2 ^ k := fun hlt => absurd (h.2 hlt) (by omega)
    have hpow : 2 ^ k ≤ 2 ^ 45 := Nat.pow_le_pow_right (by decide) (by omega)
    have hmax : 0x3FFFF * 2 ^ k * 2 % 2 ^ 64 = 0x3FFFF * 2 ^ (k + 1) := by
      rw [Nat.pow_succ]
      omega
    have hturns : t = 64 - (k + 1) := by omega
    rw [ht, rembExp, if_pos (Nat.not_lt.mp hnot), hmax, hturns]
    exact ih (by omega) (by omega)

theorem scaled_setREMBBitRate (h : bitRate < 2 ^ 32) :
    Scaled (2 ^ 18 - 1) bitRate (getBrMantis (setREMBBitRate m p bitRate) p)
      (getBrExp (setREMBBitRate m p bitRate) p) := by
  obtain ⟨e, he⟩ := Scaled.exists_least (show 0 < 2 ^ 18 - 1 by decide) bitRate
  have h15 : e ≤ 15 := he.2 (show bitRate < (2 ^ 18 - 1) * 2 ^ 15 by omega)
  have hexp : rembExp bitRate 64 0x3FFFF = e := rembExp_eq he (Nat.zero_le e) (by omega)
  have hs := Scaled.of_least he
  have hm := hs.mantissa_lt
  rw [getBrExp_setREMBBitRate, getBrMantis_setREMBBitRate, hexp, Nat.mod_eq_of_lt (by omega),
    Nat.mod_eq_of_lt (by omega)]
  exact hs

/-- The rate that is written is the greatest that can be with the least exponent, and the number of sources in the
byte before it is kept. -/
theorem setREMBBitRate_best (m : Mem) (p : ℕ) {bitRate : ℕ} (h : bitRate < 2 ^ 32) :
    getBrMantis (setREMBBitRate m p bitRate) p < 2 ^ 18 ∧
      IsLeast {e | bitRate < (2 ^ 18 - 1) * 2 ^ e} (getBrExp (setREMBBitRate m p bitRate) p) ∧
      getBrMantis (setREMBBitRate m p bitRate) p * 2 ^ getBrExp (setREMBBitRate m p bitRate) p ≤ bitRate ∧
      bitRate < (getBrMantis (setREMBBitRate m p bitRate) p + 1) * 2 ^ getBrExp (setREMBBitRate m p bitRate) p ∧
      setREMBBitRate m p bitRate (p + 16) = m (p + 16) := by
  have hs := scaled_setREMBBitRate (m := m) (p := p) h
  exact ⟨getBrMantis_lt, hs.least, hs.le, hs.lt, setREMBBitRate_of_ne (by omega)⟩

/-- A rate of ten million bits is written as 156250 times 64. -/
theorem setREMBBitRate_best_ten_million :
    10000000 < 2 ^ 32 ∧ getBrMantis (setREMBBitRate (fun _ => 1) 0 10000000) 0 < 2 ^ 18 ∧
      getBrMantis (setREMBBitRate (fun _ => 1) 0 10000000) 0 *
        2 ^ getBrExp (setREMBBitRate (fun _ => 1) 0 10000000) 0 ≤ 10000000 :=
  ⟨by decide, (setREMBBitRate_best _ 0 (by decide)).1, (setREMBBitRate_best _ 0 (by decide)).2.2.1⟩

end Sfup.Rtp.RtcpHeader
