import Mathlib.Data.List.Basic
import Mathlib.Logic.Function.Basic

/-! A bounded first-in first-out queue whose reads can be committed or taken back. -/
namespace Sfup

/-- Elements taken out since the last commit, and elements still waiting. -/
structure Fifo (α : Type*) where
  read : List α
  unread : List α
deriving DecidableEq, Repr

namespace Fifo

variable {α : Type*}

def empty : Fifo α := ⟨[], []⟩

def used (q : Fifo α) : ℕ := q.read.length + q.unread.length

def put (cap : ℕ) (q : Fifo α) (xs : List α) : Bool × Fifo α :=
  if q.used + xs.length ≤ cap then (true, { q with unread := q.unread ++ xs }) else (false, q)

def get (q : Fifo α) (n : ℕ) : Option (List α) × Fifo α :=
  if n ≤ q.unread.length then (some (q.unread.take n), ⟨q.read ++ q.unread.take n, q.unread.drop n⟩)
  else (none, q)

def commit (q : Fifo α) : Fifo α := ⟨[], q.unread⟩

def reset (q : Fifo α) : Fifo α := ⟨[], q.read ++ q.unread⟩

theorem used_get (q : Fifo α) (n : ℕ) : (q.get n).2.used = q.used := by
  unfold get used
  split_ifs with h
  · simp; omega
  · rfl

theorem get_of_le {q : Fifo α} {n : ℕ} (h : n ≤ q.unread.length) :
    q.get n = (some (q.unread.take n), ⟨q.read ++ q.unread.take n, q.unread.drop n⟩) := if_pos h

section
variable {ι : Type*} [DecidableEq ι]

/-- Move `n` elements from queue `i` to the end of queue `d`, which may be the same queue. -/
def transfer (q : ι → Fifo α) (i d : ι) (n : ℕ) : ι → Fifo α :=
  let taken := Function.update q i ((q i).get n).2
  Function.update taken d ⟨(taken d).read, (taken d).unread ++ (q i).unread.take n⟩

theorem used_transfer {q : ι → Fifo α} {i d : ι} {n : ℕ} (h : n ≤ (q i).unread.length) :
    (transfer q i d n d).used = (q d).used + n := by
  by_cases hd : d = i
  · subst hd
    simp [transfer, get_of_le h, used]; omega
  · simp [transfer, hd, used, h]; omega

theorem unread_transfer {q : ι → Fifo α} {i d : ι} {n : ℕ} (h : n ≤ (q i).unread.length) :
    (q i).unread.length - n ≤ (transfer q i d n i).unread.length := by
  by_cases hd : d = i
  · subst hd
    simp [transfer, get_of_le h]
  · simp [transfer, Ne.symm hd, get_of_le h]

@[simp] theorem transfer_zero (q : ι → Fifo α) (i d : ι) : transfer q i d 0 = q := by
  have h : (q i).get 0 = (some [], q i) := by simp [get_of_le (Nat.zero_le _)]
  simp [transfer, h]

private theorem transfer_self {q : ι → Fifo α} {i : ι} {n : ℕ} (h : n ≤ (q i).unread.length) :
    transfer q i i n = Function.update q i
      ⟨(q i).read ++ (q i).unread.take n, (q i).unread.drop n ++ (q i).unread.take n⟩ := by
  simp [transfer, get_of_le h]

private theorem transfer_of_ne {q : ι → Fifo α} {i d : ι} {n : ℕ} (hd : d ≠ i)
    (h : n ≤ (q i).unread.length) :
    transfer q i d n = Function.update
      (Function.update q i ⟨(q i).read ++ (q i).unread.take n, (q i).unread.drop n⟩) d
      ⟨(q d).read, (q d).unread ++ (q i).unread.take n⟩ := by
  simp [transfer, get_of_le h, hd]

/-- Moving in two portions is moving at once. -/
theorem transfer_transfer {q : ι → Fifo α} {i d : ι} {k n : ℕ}
    (hn : k + n ≤ (q i).unread.length) :
    transfer (transfer q i d k) i d n = transfer q i d (k + n) := by
  have hk : k ≤ (q i).unread.length := by omega
  have hl : n ≤ ((q i).unread.drop k).length := by rw [List.length_drop]; omega
  have htake : (q i).unread.take k ++ ((q i).unread.drop k).take n = (q i).unread.take (k + n) :=
    List.take_add.symm
  have hrest := unread_transfer (d := d) hk
  by_cases hd : d = i
  · subst hd
    rw [transfer_self (by omega), transfer_self hk, transfer_self hn]
    simp only [Function.update_self, Function.update_idem]
    rw [List.take_append_of_le_length hl, List.drop_append_of_le_length hl, List.drop_drop,
      List.append_assoc, List.append_assoc, htake]
  · rw [transfer_of_ne hd (by omega), transfer_of_ne hd hk, transfer_of_ne hd hn]
    simp only [Function.update_self, Function.update_of_ne (Ne.symm hd)]
    rw [Function.update_comm (Ne.symm hd), Function.update_idem, Function.update_comm hd,
      Function.update_idem, List.drop_drop, List.append_assoc, List.append_assoc, htake]

end

end Fifo

end Sfup
