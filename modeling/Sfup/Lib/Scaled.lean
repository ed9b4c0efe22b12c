import Mathlib.Algebra.Order.Group.Nat
import Mathlib.Algebra.Order.Ring.Nat
import Mathlib.Order.Bounds.Basic
import Mathlib.Data.Nat.Find
import Mathlib.Tactic.Ring

/-! Numbers as a mantissa and a power of two: the exponent is the least that brings the number below a limit, and the
mantissa is what is left of the number there. -/
namespace Sfup

/-- A mantissa and an exponent for a number, of which only the lowest bits are lost. -/
structure Scaled (limit n m e : ℕ) : Prop where
  least : IsLeast {e | n < limit * 2 ^ e} e
  le : m * 2 ^ e ≤ n
  lt : n < (m + 1) * 2 ^ e

namespace Scaled
variable {limit n m e m' e' : ℕ}

theorem exists_least (hl : 0 < limit) (n : ℕ) : ∃ e, IsLeast {e | n < limit * 2 ^ e} e := by
  have hex : ∃ e, n < limit * 2 ^ e := ⟨n, n.lt_two_pow_self.trans_le (Nat.le_mul_of_pos_left _ hl)⟩
  exact ⟨Nat.find hex, Nat.find_spec hex, fun e he => Nat.find_min' hex he⟩

theorem of_least (h : IsLeast {e | n < limit * 2 ^ e} e) : Scaled limit n (n / 2 ^ e) e :=
  ⟨h, Nat.div_mul_le_self n (2 ^ e), Nat.lt_mul_of_div_lt (Nat.lt_succ_self _) (Nat.two_pow_pos e)⟩

theorem mantissa_lt (h : Scaled limit n m e) : m < limit := by
  have hlt : m * 2 ^ e < limit * 2 ^ e := h.le.trans_lt h.least.1
  exact lt_of_mul_lt_mul_right hlt (Nat.zero_le _)

theorem mantissa_eq (h : Scaled limit n m e) : m = n / 2 ^ e :=
  (Nat.div_eq_of_lt_le h.le h.lt).symm

theorem unique (h : Scaled limit n m e) (h' : Scaled limit n m' e') : m = m' ∧ e = e' := by
  obtain rfl : e = e' := h.least.unique h'.least
  exact ⟨h.mantissa_eq.trans h'.mantissa_eq.symm, rfl⟩

theorem eq_of_lt {a k : ℕ} (h : Scaled limit (a * 2 ^ k) m e) (ha : a < limit) : m * 2 ^ e = a * 2 ^ k := by
  have hle : e ≤ k := h.least.2 (Nat.mul_lt_mul_of_pos_right ha (Nat.two_pow_pos k))
  have hdvd : 2 ^ e ∣ a * 2 ^ k := (pow_dvd_pow 2 hle).mul_left a
  rw [h.mantissa_eq, Nat.div_mul_cancel hdvd]

theorem ne_of_odd {k : ℕ} (h : Scaled limit (limit * 2 ^ k) m e) (hodd : limit % 2 = 1) :
    m * 2 ^ e ≠ limit * 2 ^ k := by
  intro heq
  have hlt : k < e := by
    by_contra hle
    have hpow : 2 ^ e ≤ 2 ^ k := Nat.pow_le_pow_right (by decide) (by omega)
    have hmul := Nat.mul_le_mul_left limit hpow
    exact absurd h.least.1 (Nat.not_lt.mpr hmul)
  obtain ⟨d, rfl⟩ := Nat.exists_eq_add_of_lt hlt
  have hd : m * 2 ^ d * 2 * 2 ^ k = limit * 2 ^ k := by
    rw [← heq]
    ring
  have hlim := Nat.eq_of_mul_eq_mul_right (Nat.two_pow_pos k) hd
  omega

end Scaled
end Sfup
