import Mathlib.Data.Int.ModEq
import Mathlib.Tactic.Linarith
import Mathlib.Tactic.Ring

/-! Serial numbers: counters of which only the remainder modulo `2 * h` is known, compared by the
shorter way round. Within a window shorter than `h` the comparison is that of the counters. -/
namespace Sfup.Serial

/-- `x` comes before `y`, by the shorter way round the circle of `2 * h` numbers. -/
def less (h x y : ℤ) : Bool :=
  let diff := y - x
  if diff > 0 then diff < h else if diff < 0 then diff < -h else false

variable {h a b : ℤ}

/-- Two remainders differ as the counters do, up to one turn. -/
private theorem sub_emod_cases (hab : |a - b| < h) :
    b % (2 * h) - a % (2 * h) = b - a ∨ b % (2 * h) - a % (2 * h) = b - a - 2 * h ∨
      b % (2 * h) - a % (2 * h) = b - a + 2 * h := by
  obtain ⟨h1, h2⟩ := abs_lt.mp hab
  have hpos : 0 < 2 * h := by linarith
  have ha0 := Int.emod_nonneg a hpos.ne'
  have ha1 := Int.emod_lt_of_pos a hpos
  have hb0 := Int.emod_nonneg b hpos.ne'
  have hb1 := Int.emod_lt_of_pos b hpos
  have ha := Int.emod_add_mul_ediv a (2 * h)
  have hb := Int.emod_add_mul_ediv b (2 * h)
  set k := b / (2 * h) - a / (2 * h) with hk
  have hdiff : b % (2 * h) - a % (2 * h) = b - a - 2 * h * k := by rw [hk]; linarith
  have hlo : -2 < k := by
    by_contra hle
    have : 2 * h * k ≤ 2 * h * (-2) := mul_le_mul_of_nonneg_left (by linarith) hpos.le
    linarith
  have hhi : k < 2 := by
    by_contra hle
    have : 2 * h * 2 ≤ 2 * h * k := mul_le_mul_of_nonneg_left (by linarith) hpos.le
    linarith
  obtain hk | hk | hk : k = -1 ∨ k = 0 ∨ k = 1 := by omega
  · exact .inr (.inr (by rw [hdiff, hk]; ring))
  · exact .inl (by rw [hdiff, hk]; ring)
  · exact .inr (.inl (by rw [hdiff, hk]; ring))

/-- Inside a window the comparison of the remainders is the comparison of the counters. -/
theorem less_emod_iff (hab : |a - b| < h) : less h (a % (2 * h)) (b % (2 * h)) = true ↔ a < b := by
  obtain ⟨h1, h2⟩ := abs_lt.mp hab
  have hpos : 0 < 2 * h := by linarith
  have ha0 := Int.emod_nonneg a hpos.ne'
  have ha1 := Int.emod_lt_of_pos a hpos
  have hb0 := Int.emod_nonneg b hpos.ne'
  have hb1 := Int.emod_lt_of_pos b hpos
  have hd := sub_emod_cases hab
  simp only [less]
  split_ifs with h3 h4
  · rw [decide_eq_true_eq]; omega
  · rw [decide_eq_true_eq]; omega
  · simp only [false_iff]; omega

theorem eq_of_emod_eq (hab : |a - b| < h) (he : a % (2 * h) = b % (2 * h)) : a = b := by
  obtain ⟨h1, h2⟩ := abs_lt.mp hab
  rcases sub_emod_cases hab with hd | hd | hd <;> omega

end Sfup.Serial
