import Mathlib.Data.List.OfFn

/-! Sequences cut into blocks of one size. -/
namespace Sfup

/-- An array of size `n`. -/
abbrev Block (α : Type*) (n : ℕ) := { l : List α // l.length = n }

namespace Blocks

variable {α : Type*} {n : ℕ} {l a b : List α}

theorem block_le (i : Fin (l.length / n)) : i * n + n ≤ l.length := by
  have h := Nat.mul_le_mul_right n (Nat.succ_le_of_lt i.isLt)
  rw [Nat.succ_mul] at h
  exact h.trans (Nat.div_mul_le_self _ _)

/-- The block of size `n` at `i`. -/
def slice (n : ℕ) (l : List α) (i : ℕ) (h : i + n ≤ l.length) : Block α n :=
  ⟨(l.drop i).take n, by rw [List.length_take, List.length_drop]; omega⟩

/-- The full blocks. -/
def blocks (n : ℕ) (l : List α) : List (Block α n) :=
  List.ofFn fun i : Fin (l.length / n) => slice n l (i * n) (block_le i)

/-- What is behind the last full block. -/
def rest (n : ℕ) (l : List α) : List α := l.drop (l.length / n * n)

@[simp] theorem length_rest : (rest n l).length = l.length % n := by
  have h := Nat.div_add_mod' l.length n
  rw [rest, List.length_drop]
  omega

theorem blocks_of_lt (h : l.length < n) : blocks n l = [] := by
  rw [blocks, List.ofFn_eq_nil_iff]
  exact Nat.div_eq_of_lt h

theorem rest_of_lt (h : l.length < n) : rest n l = l := by
  rw [rest, Nat.div_eq_of_lt h, Nat.zero_mul, List.drop_zero]

@[simp] theorem length_blocks : (blocks n l).length = l.length / n := List.length_ofFn

theorem getElem_blocks {i : ℕ} (h : i < (blocks n l).length) : (blocks n l)[i].1 = (l.drop (i * n)).take n := by
  simp only [blocks, List.getElem_ofFn]
  rfl

/-- A list of whole blocks is cut off in front. -/
theorem blocks_append (hn : 0 < n) (ha : n ∣ a.length) : blocks n (a ++ b) = blocks n a ++ blocks n b := by
  obtain ⟨k, hk⟩ := ha
  have hlen : a.length / n = k := by rw [hk, Nat.mul_div_cancel_left _ hn]
  have hsum : (a ++ b).length / n = k + b.length / n := by rw [List.length_append, hk, Nat.mul_add_div hn]
  refine List.ext_getElem ?_ fun i hi hi' => Subtype.ext ?_
  · rw [List.length_append, length_blocks, length_blocks, length_blocks, hsum, hlen]
  · rw [getElem_blocks, List.getElem_append]
    split_ifs with h
    · rw [getElem_blocks]
      rw [length_blocks, hlen] at h
      have hin : i * n + n ≤ a.length := by
        rw [hk, ← Nat.succ_mul, Nat.mul_comm n]
        exact Nat.mul_le_mul_right n h
      rw [List.drop_append_of_le_length (by omega), List.take_append_of_le_length (by rw [List.length_drop]; omega)]
    · rw [getElem_blocks]
      rw [length_blocks, hlen] at h
      obtain ⟨j, rfl⟩ := Nat.exists_eq_add_of_le (Nat.le_of_not_lt h)
      rw [length_blocks, hlen, Nat.add_sub_cancel_left, Nat.add_mul, Nat.mul_comm k n, ← hk,
        List.drop_length_add_append]

theorem rest_append (hn : 0 < n) (ha : n ∣ a.length) : rest n (a ++ b) = rest n b := by
  obtain ⟨k, hk⟩ := ha
  have hlen : (a ++ b).length / n * n = a.length + b.length / n * n := by
    rw [List.length_append, hk, Nat.mul_add_div hn, Nat.add_mul, Nat.mul_comm k n]
  rw [rest, hlen, List.drop_length_add_append, rest]

theorem blocks_of_length (hn : 0 < n) (h : l.length = n) : blocks n l = [⟨l, h⟩] := by
  have hone : (blocks n l).length = 1 := by rw [length_blocks, h, Nat.div_self hn]
  obtain ⟨x, hx⟩ := List.length_eq_one_iff.mp hone
  have hfirst : (blocks n l)[0].1 = l := by
    rw [getElem_blocks, Nat.zero_mul, List.drop_zero, ← h, List.take_length]
  simp only [hx, List.getElem_cons_zero] at hfirst ⊢
  rw [show x = ⟨l, h⟩ from Subtype.ext hfirst]

theorem blocks_of_le (hn : 0 < n) (h : 0 + n ≤ l.length) : blocks n l = slice n l 0 h :: blocks n (l.drop n) := by
  have hlen : (l.take n).length = n := by rw [List.length_take]; omega
  have hdvd : n ∣ (l.take n).length := ⟨1, by rw [hlen, Nat.mul_one]⟩
  nth_rewrite 1 [← List.take_append_drop n l]
  rw [blocks_append hn hdvd, blocks_of_length hn hlen]
  rfl

theorem rest_length_lt (hn : 0 < n) : (rest n l).length < n := by
  rw [length_rest]
  exact Nat.mod_lt _ hn

theorem exists_append_rest (hn : 0 < n) (l : List α) : ∃ f, l = f ++ rest n l ∧ n ∣ f.length ∧ blocks n l = blocks n f := by
  have hl : l = l.take (l.length / n * n) ++ rest n l := (List.take_append_drop _ _).symm
  have hd : n ∣ (l.take (l.length / n * n)).length := by
    rw [List.length_take, Nat.min_eq_left (Nat.div_mul_le_self _ _)]
    exact Nat.dvd_mul_left _ _
  refine ⟨l.take (l.length / n * n), hl, hd, ?_⟩
  nth_rewrite 1 [hl]
  rw [blocks_append hn hd, blocks_of_lt (rest_length_lt hn), List.append_nil]

/-- What is added does not fill a block. -/
theorem append_of_lt (hn : 0 < n) (h : (rest n l).length + b.length < n) :
    blocks n (l ++ b) = blocks n l ∧ rest n (l ++ b) = rest n l ++ b := by
  obtain ⟨f, hf, hd, hblocks⟩ := exists_append_rest hn l
  have hlt : (rest n l ++ b).length < n := by rwa [List.length_append]
  have hsplit : l ++ b = f ++ (rest n l ++ b) := by rw [← List.append_assoc, ← hf]
  rw [hsplit, blocks_append hn hd, rest_append hn hd, blocks_of_lt hlt, rest_of_lt hlt, List.append_nil, hblocks]
  exact ⟨rfl, rfl⟩

theorem append_of_eq (hn : 0 < n) (h : (rest n l ++ a).length = n) :
    blocks n (l ++ (a ++ b)) = blocks n l ++ ⟨rest n l ++ a, h⟩ :: blocks n b ∧ rest n (l ++ (a ++ b)) = rest n b := by
  obtain ⟨f, hf, hd, hblocks⟩ := exists_append_rest hn l
  have hdvd : n ∣ (rest n l ++ a).length := ⟨1, by rw [h, Nat.mul_one]⟩
  have hsplit : l ++ (a ++ b) = f ++ ((rest n l ++ a) ++ b) := by
    rw [← List.append_assoc, ← List.append_assoc, ← List.append_assoc, ← hf]
  rw [hsplit, blocks_append hn hd, blocks_append hn hdvd, rest_append hn hd, rest_append hn hdvd,
    blocks_of_length hn h, hblocks]
  exact ⟨rfl, rfl⟩

end Blocks
end Sfup
