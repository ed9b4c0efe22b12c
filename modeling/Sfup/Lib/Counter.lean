import Mathlib.Algebra.Group.Nat.Defs
import Mathlib.Data.List.Range

/-! Loops that count the positions of a vector with a counter of fixed width. The counter wraps, so that it never
reaches a size that it cannot hold. -/
namespace Sfup.Counter

variable {σ : Type*} {w : ℕ} {body : σ → ℕ → σ} {n fuel : ℕ} {i : BitVec w} {s r : σ}

/-- What `for (; i < n; i++) body(i)` leaves, if it ends within `fuel` tests of its condition. -/
def loop (body : σ → ℕ → σ) (n : ℕ) : ℕ → BitVec w → σ → Option σ
  | 0, _, _ => none
  | fuel + 1, i, s => if i.toNat < n then loop body n fuel (i + 1) (body s i.toNat) else some s

theorem toNat_add_one (hn : n < 2 ^ w) (hi : i.toNat < n) : (i + 1).toNat = i.toNat + 1 := by
  have hw : 0 < w := by
    by_contra h
    obtain rfl : w = 0 := by omega
    omega
  rw [BitVec.toNat_add, BitVec.ofNat_eq_ofNat, BitVec.toNat_one hw]
  exact Nat.mod_eq_of_lt (by omega)

/-- A counter that can hold the size goes through the positions that are left. -/
theorem loop_of_lt (hn : n < 2 ^ w) : loop body n fuel i s =
    if n - i.toNat < fuel then some ((List.range' i.toNat (n - i.toNat)).foldl body s) else none := by
  induction fuel generalizing i s with
  | zero => rfl
  | succ fuel ih =>
    rw [loop]
    split_ifs with hi hfuel hfuel
    · have hleft : n - i.toNat = n - (i.toNat + 1) + 1 := by omega
      rw [ih, toNat_add_one hn hi, if_pos (by omega), hleft, List.range'_succ, List.foldl_cons]
    · rw [ih, toNat_add_one hn hi, if_neg (by omega)]
    · rw [Nat.sub_eq_zero_of_le (Nat.le_of_not_lt hi)]
      rfl
    · omega

/-- A counter that cannot hold the size stays below it. -/
theorem loop_of_le (hn : 2 ^ w ≤ n) : loop body n fuel i s = none := by
  induction fuel generalizing i s with
  | zero => rfl
  | succ fuel ih =>
    rw [loop, if_pos (i.isLt.trans_le hn)]
    exact ih

/-- The loop ends exactly if the counter can hold the size, and then it went through all positions. -/
theorem exists_loop_eq_some : (∃ fuel, loop body n fuel (0 : BitVec w) s = some r) ↔
    n < 2 ^ w ∧ (List.range n).foldl body s = r := by
  by_cases hn : n < 2 ^ w
  · have hloop : ∀ fuel, loop body n fuel (0 : BitVec w) s =
        if n < fuel then some ((List.range n).foldl body s) else none := by
      intro fuel
      rw [loop_of_lt hn, List.range_eq_range']
      rfl
    constructor
    · rintro ⟨fuel, h⟩
      rw [hloop] at h
      split_ifs at h
      exact ⟨hn, Option.some.inj h⟩
    · rintro ⟨-, rfl⟩
      exact ⟨n + 1, (hloop _).trans (if_pos (Nat.lt_succ_self n))⟩
  · refine iff_of_false ?_ fun h => hn h.1
    rintro ⟨fuel, h⟩
    rw [loop_of_le (Nat.le_of_not_lt hn)] at h
    cases h

theorem forall_loop_eq_none : (∀ fuel, loop body n fuel (0 : BitVec w) s = none) ↔ 2 ^ w ≤ n := by
  refine ⟨fun h => ?_, fun hn fuel => loop_of_le hn⟩
  by_contra hlt
  obtain ⟨fuel, hend⟩ := exists_loop_eq_some.mpr ⟨Nat.lt_of_not_le hlt, rfl⟩
  rw [h fuel] at hend
  cases hend

end Sfup.Counter
