import Mathlib.Data.List.Rotate

/-! Blocks of memory read and written across their end. A ring of cells is a list together with
a start index, and its contents in ring order are the list rotated by that index. -/
namespace Sfup.Ring

variable {α : Type*}

/-- Copy `n` cells out of a block; `none` if the range leaves the block. -/
def load? (mem : List α) (pos n : ℕ) : Option (List α) :=
  if pos + n ≤ mem.length then some ((mem.drop pos).take n) else none

/-- Copy `src` into a block; `none` if the range leaves the block. -/
def store? (mem : List α) (pos : ℕ) (src : List α) : Option (List α) :=
  if pos + src.length ≤ mem.length then
    some (mem.take pos ++ src ++ mem.drop (pos + src.length))
  else none

theorem load?_eq_some {mem : List α} {pos n : ℕ} (h : pos + n ≤ mem.length) :
    load? mem pos n = some ((mem.drop pos).take n) := if_pos h

theorem store?_eq_some {mem src : List α} {pos : ℕ} (h : pos + src.length ≤ mem.length) :
    store? mem pos src = some (mem.take pos ++ src ++ mem.drop (pos + src.length)) := if_pos h

/-- One conditional subtraction is the remainder as long as the sum wraps at most once. -/
theorem add_mod_eq_ite {n d k : ℕ} (hd : d < n) (hk : k < n) :
    (d + k) % n = if d + k < n then d + k else d + k - n := by
  split_ifs with h
  · exact Nat.mod_eq_of_lt h
  · rw [Nat.mod_eq_sub_mod (by omega), Nat.mod_eq_of_lt (by omega)]

/-- Moving a cursor that a block end splits lands on the sum modulo the block size. -/
theorem cursor_add {n d k : ℕ} (hd : d < n) (hk : k < n) :
    (if n - d ≤ k then k - (n - d) else d + k) = (d + k) % n := by
  rw [add_mod_eq_ite hd hk]
  split_ifs <;> omega

theorem take_rotate_of_lt {mem : List α} {pos k : ℕ} (hp : pos ≤ mem.length)
    (hk : k ≤ mem.length - pos) : (mem.rotate pos).take k = (mem.drop pos).take k := by
  rw [List.rotate_eq_drop_append_take hp, List.take_append_of_le_length (by simpa using hk)]

theorem take_rotate_of_ge {mem : List α} {pos k : ℕ} (hp : pos ≤ mem.length)
    (hk : mem.length - pos ≤ k) (hk' : k ≤ mem.length) :
    (mem.rotate pos).take k = mem.drop pos ++ mem.take (k - (mem.length - pos)) := by
  rw [List.rotate_eq_drop_append_take hp, List.take_append, List.length_drop,
    List.take_of_length_le (by simpa using hk), List.take_take, min_eq_left (by omega)]

/-- A store that stays below the block end replaces the first cells in ring order. -/
theorem rotate_store {mem src : List α} {pos : ℕ} (h : pos + src.length ≤ mem.length) :
    (mem.take pos ++ src ++ mem.drop (pos + src.length)).rotate pos =
      src ++ (mem.rotate pos).drop src.length := by
  have hp : pos ≤ mem.length := by omega
  have hl : (mem.take pos).length = pos := by simp [hp]
  have hr := List.rotate_append_length_eq (mem.take pos) (src ++ mem.drop (pos + src.length))
  rw [hl, ← List.append_assoc] at hr
  rw [hr, List.rotate_eq_drop_append_take hp,
    List.drop_append_of_le_length (by simp; omega), List.drop_drop, List.append_assoc]

/-- A store split at the block end replaces the first cells in ring order as well. -/
theorem rotate_store_wrap {mem src : List α} {pos : ℕ} (hp : pos ≤ mem.length)
    (hs : mem.length - pos ≤ src.length) (hl : src.length ≤ mem.length) :
    (src.drop (mem.length - pos) ++
        (mem.take pos ++ src.take (mem.length - pos)).drop (src.length - (mem.length - pos))).rotate pos =
      src ++ (mem.rotate pos).drop src.length := by
  set k := mem.length - pos with hk
  have hd : (mem.take pos).length = pos := by simp [hp]
  have hsplit : (mem.take pos ++ src.take k).drop (src.length - k) =
      (mem.take pos).drop (src.length - k) ++ src.take k :=
    List.drop_append_of_le_length (by rw [hd]; omega)
  have hlen : (src.drop k ++ (mem.take pos).drop (src.length - k)).length = pos := by
    simp [hd]; omega
  have hr := List.rotate_append_length_eq
    (src.drop k ++ (mem.take pos).drop (src.length - k)) (src.take k)
  rw [hlen] at hr
  have hrest : (mem.rotate pos).drop src.length = (mem.take pos).drop (src.length - k) := by
    rw [List.rotate_eq_drop_append_take hp, List.drop_append, List.length_drop, ← hk,
      List.drop_of_length_le (by rw [List.length_drop]; omega), List.nil_append]
  rw [hsplit, ← List.append_assoc, hr, hrest, ← List.append_assoc, List.take_append_drop]

end Sfup.Ring
