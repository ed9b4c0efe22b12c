import Mathlib.Data.Nat.Bitwise
import Mathlib.Data.List.Basic
import Mathlib.Tactic.Ring

/-! Numbers as bytes: little-endian groups of seven bits with a continuation bit, and words
in both byte orders. -/
namespace Sfup.Varint

def more (x : UInt8) : Bool := x &&& 0x80 != 0

def bits (x : UInt8) : ℕ := (x &&& 0x7f).toNat

/-- Split the bytes of the first number off a stream, `none` if they do not end. -/
def split : List UInt8 → Option (List UInt8 × List UInt8)
  | [] => none
  | x :: xs => if more x then (split xs).map fun p => (x :: p.1, p.2) else some ([x], xs)

/-- The bytes of the first number, all of them if it does not end. -/
def groups : List UInt8 → List UInt8
  | [] => []
  | x :: xs => x :: if more x then groups xs else []

def value : List UInt8 → ℕ
  | [] => 0
  | x :: xs => bits x + 128 * value xs

/-- The shortest encoding of a number. -/
def encode (n : ℕ) : List UInt8 :=
  if n < 128 then [UInt8.ofNat n] else UInt8.ofNat (n % 128 + 128) :: encode (n / 128)

def foldGroups {α : Type*} (add : α → UInt8 → ℕ → α) : List UInt8 → α → ℕ → α
  | [], acc, _ => acc
  | x :: xs, acc, shift => foldGroups add xs (add acc x shift) (shift + 7)

theorem bits_lt (x : UInt8) : bits x < 128 := by
  have h : (x.toNat &&& 127) ≤ 127 := Nat.and_le_right
  simp only [bits, UInt8.toNat_and]
  exact Nat.lt_succ_of_le h

theorem split_eq_append {s g r : List UInt8} (h : split s = some (g, r)) : s = g ++ r := by
  induction s generalizing g r with
  | nil => cases h
  | cons x xs ih =>
    unfold split at h
    split_ifs at h with hm
    · obtain ⟨⟨g', r'⟩, hs, he⟩ := Option.map_eq_some_iff.mp h
      obtain ⟨rfl, rfl⟩ := Prod.mk.inj he
      rw [ih hs, List.cons_append]
    · obtain ⟨rfl, rfl⟩ := Prod.mk.inj (Option.some.inj h)
      rfl

theorem groups_of_split {s g r : List UInt8} (h : split s = some (g, r)) : groups s = g := by
  induction s generalizing g r with
  | nil => cases h
  | cons x xs ih =>
    unfold split at h
    split_ifs at h with hm
    · obtain ⟨⟨g', r'⟩, hs, he⟩ := Option.map_eq_some_iff.mp h
      obtain ⟨rfl, rfl⟩ := Prod.mk.inj he
      rw [groups, if_pos hm, ih hs]
    · obtain ⟨rfl, rfl⟩ := Prod.mk.inj (Option.some.inj h)
      rw [groups, if_neg hm]

theorem split_ne_nil {s g r : List UInt8} (h : split s = some (g, r)) : g ≠ [] := by
  cases s with
  | nil => cases h
  | cons x xs =>
    unfold split at h
    split_ifs at h with hm
    · obtain ⟨⟨g', r'⟩, -, he⟩ := Option.map_eq_some_iff.mp h
      obtain ⟨rfl, -⟩ := Prod.mk.inj he
      exact List.cons_ne_nil _ _
    · obtain ⟨rfl, -⟩ := Prod.mk.inj (Option.some.inj h)
      exact List.cons_ne_nil _ _

/-- Bytes that follow do not change a number that is already complete. -/
theorem split_append {s g r : List UInt8} (h : split s = some (g, r)) (t : List UInt8) :
    split (s ++ t) = some (g, r ++ t) := by
  induction s generalizing g r with
  | nil => cases h
  | cons x xs ih =>
    unfold split at h
    split_ifs at h with hm
    · obtain ⟨⟨g', r'⟩, hs, he⟩ := Option.map_eq_some_iff.mp h
      obtain ⟨rfl, rfl⟩ := Prod.mk.inj he
      simp [split, hm, ih hs]
    · obtain ⟨rfl, rfl⟩ := Prod.mk.inj (Option.some.inj h)
      simp [split, hm]

theorem split_change {s g r : List UInt8} (h : split s = some (g, r)) (t : List UInt8) :
    split (g ++ t) = some (g, t) := by
  induction s generalizing g r with
  | nil => cases h
  | cons x xs ih =>
    unfold split at h
    split_ifs at h with hm
    · obtain ⟨⟨g', r'⟩, hs, he⟩ := Option.map_eq_some_iff.mp h
      obtain ⟨rfl, rfl⟩ := Prod.mk.inj he
      simp [split, hm, ih hs]
    · obtain ⟨rfl, rfl⟩ := Prod.mk.inj (Option.some.inj h)
      simp [split, hm]

theorem group_ofNat : ∀ n : Fin 128,
    (more (UInt8.ofNat n) = false ∧ bits (UInt8.ofNat n) = n) ∧
      more (UInt8.ofNat (n + 128)) = true ∧ bits (UInt8.ofNat (n + 128)) = n := by
  decide

theorem split_encode (n : ℕ) (t : List UInt8) : split (encode n ++ t) = some (encode n, t) := by
  induction n using Nat.strong_induction_on with
  | _ n ih =>
    rw [encode]
    split_ifs with h
    · simp [split, (group_ofNat ⟨n, h⟩).1.1]
    · have hm := (group_ofNat ⟨n % 128, Nat.mod_lt n (by decide)⟩).2.1
      rw [List.cons_append, split, if_pos hm, ih (n / 128) (by omega), Option.map_some]

theorem value_encode (n : ℕ) : value (encode n) = n := by
  induction n using Nat.strong_induction_on with
  | _ n ih =>
    rw [encode]
    split_ifs with h
    · simp [value, (group_ofNat ⟨n, h⟩).1.2]
    · have hb := (group_ofNat ⟨n % 128, Nat.mod_lt n (by decide)⟩).2.2
      rw [value, hb, ih (n / 128) (by omega)]
      exact Nat.mod_add_div n 128

theorem encode_ne_nil (n : ℕ) : encode n ≠ [] := by
  rw [encode]
  split_ifs <;> simp

/-- `k + 1` groups carry every number below `2 ^ (7 * (k + 1))`. -/
theorem length_encode_le {n k : ℕ} (h : n < 128 ^ (k + 1)) : (encode n).length ≤ k + 1 := by
  induction k generalizing n with
  | zero =>
    rw [encode, if_pos (by simpa using h)]
    simp
  | succ k ih =>
    rw [encode]
    split_ifs with hn
    · simp
    · have hd : n / 128 < 128 ^ (k + 1) := by
        apply Nat.div_lt_of_lt_mul
        rwa [pow_succ, Nat.mul_comm] at h
      simpa using ih hd

/-- Joining the groups with shifts below the word size adds them up, as long as the sum fits. -/
theorem foldGroups_eq {α : Type*} {add : α → UInt8 → ℕ → α} {toNat : α → ℕ} {w : ℕ}
    (hadd : ∀ acc x shift, shift < w → bits x <<< shift < 2 ^ w →
      toNat (add acc x shift) = toNat acc ||| bits x <<< shift)
    {g : List UInt8} {acc : α} {shift : ℕ} (hl : shift + 7 * g.length < w + 7)
    (ha : toNat acc < 2 ^ shift) (hg : toNat acc + value g * 2 ^ shift < 2 ^ w) :
    toNat (foldGroups add g acc shift) = toNat acc + value g * 2 ^ shift := by
  induction g generalizing acc shift with
  | nil => simp [foldGroups, value]
  | cons x xs ih =>
    have hb := bits_lt x
    have hsplit : value (x :: xs) * 2 ^ shift = bits x * 2 ^ shift + value xs * 2 ^ (shift + 7) := by
      rw [value, pow_add]; ring
    have hbits : bits x <<< shift = bits x * 2 ^ shift := Nat.shiftLeft_eq _ _
    rw [List.length_cons] at hl
    have hstep : toNat (add acc x shift) = toNat acc + bits x * 2 ^ shift := by
      rw [hadd acc x shift (by omega) (by rw [hbits]; omega), Nat.or_comm,
        ← Nat.shiftLeft_add_eq_or_of_lt ha, hbits, Nat.add_comm]
    have ha' : toNat (add acc x shift) < 2 ^ (shift + 7) := by
      have h1 : bits x * 2 ^ shift ≤ 127 * 2 ^ shift := Nat.mul_le_mul_right _ (by omega)
      have h2 : 2 ^ (shift + 7) = 128 * 2 ^ shift := by rw [pow_add]; ring
      rw [hstep]
      omega
    rw [foldGroups, ih (by omega) ha' (by rw [hstep]; omega), hstep, hsplit, Nat.add_assoc]

end Sfup.Varint

namespace Sfup.LittleEndian

/-- The `k` low bytes of a number, the lowest first. -/
def encode : ℕ → ℕ → List UInt8
  | 0, _ => []
  | k + 1, n => UInt8.ofNat n :: encode k (n / 256)

def value : List UInt8 → ℕ
  | [] => 0
  | x :: xs => x.toNat + 256 * value xs

@[simp] theorem length_encode (k n : ℕ) : (encode k n).length = k := by
  induction k generalizing n with
  | zero => rfl
  | succ k ih => simp [encode, ih]

theorem value_encode (k n : ℕ) : value (encode k n) = n % 256 ^ k := by
  induction k generalizing n with
  | zero => rw [encode, value, pow_zero, Nat.mod_one]
  | succ k ih =>
    have hm : n % (256 * 256 ^ k) = n % 256 + 256 * (n / 256 % 256 ^ k) := Nat.mod_mul
    rw [pow_succ', hm, encode, value, ih, UInt8.toNat_ofNat']

theorem value_encode_of_lt {k n : ℕ} (h : n < 256 ^ k) : value (encode k n) = n := by
  rw [value_encode, Nat.mod_eq_of_lt h]

theorem encode_value (bs : List UInt8) : encode bs.length (value bs) = bs := by
  induction bs with
  | nil => rfl
  | cons x xs ih =>
    have hx : x.toNat < 256 := x.toNat_lt
    have hd : (x.toNat + 256 * value xs) / 256 = value xs := by omega
    have hm : UInt8.ofNat (x.toNat + 256 * value xs) = x := by
      apply UInt8.toNat_inj.mp
      rw [UInt8.toNat_ofNat']
      omega
    rw [List.length_cons, value, encode, hd, hm, ih]

theorem encode_add (j k n : ℕ) : encode (j + k) n = encode j n ++ encode k (n / 256 ^ j) := by
  induction j generalizing n with
  | zero => simp [encode]
  | succ j ih =>
    rw [Nat.add_right_comm, encode, encode, ih, Nat.div_div_eq_div_mul, ← pow_succ', List.cons_append]

theorem encode_mod (k n : ℕ) : encode k (n % 256 ^ k) = encode k n := by
  have h := encode_value (encode k n)
  rwa [length_encode, value_encode] at h

end Sfup.LittleEndian

namespace Sfup.BigEndian

/-- The `k` low bytes of a number, the highest first. -/
def encode : ℕ → ℕ → List UInt8
  | 0, _ => []
  | k + 1, n => encode k (n / 256) ++ [UInt8.ofNat n]

def value (bs : List UInt8) : ℕ := bs.foldl (fun acc x => acc * 256 + x.toNat) 0

@[simp] theorem length_encode (k n : ℕ) : (encode k n).length = k := by
  induction k generalizing n with
  | zero => rfl
  | succ k ih => simp [encode, ih]

theorem encode_eq_reverse (k n : ℕ) : encode k n = (LittleEndian.encode k n).reverse := by
  induction k generalizing n with
  | zero => rfl
  | succ k ih => rw [encode, ih, LittleEndian.encode, List.reverse_cons]

theorem value_reverse (bs : List UInt8) : value bs.reverse = LittleEndian.value bs := by
  induction bs with
  | nil => rfl
  | cons x xs ih =>
    unfold value at ih ⊢
    rw [List.reverse_cons, List.foldl_append, ih, LittleEndian.value, List.foldl_cons, List.foldl_nil]
    ring

theorem encode_value (bs : List UInt8) : encode bs.length (value bs) = bs := by
  have h := LittleEndian.encode_value bs.reverse
  rw [← value_reverse, List.reverse_reverse, List.length_reverse] at h
  rw [encode_eq_reverse, h, List.reverse_reverse]

theorem encode_mod (k n : ℕ) : encode k (n % 256 ^ k) = encode k n := by
  rw [encode_eq_reverse, encode_eq_reverse, LittleEndian.encode_mod]

theorem value_encode (k n : ℕ) : value (encode k n) = n % 256 ^ k := by
  rw [encode_eq_reverse, value_reverse, LittleEndian.value_encode]

theorem value_encode_of_lt {k n : ℕ} (h : n < 256 ^ k) : value (encode k n) = n := by
  rw [value_encode, Nat.mod_eq_of_lt h]

theorem value_lt (bs : List UInt8) : value bs < 256 ^ bs.length := by
  have h := value_encode bs.length (value bs)
  rw [encode_value] at h
  rw [h]
  exact Nat.mod_lt _ (pow_pos (by decide) _)

end Sfup.BigEndian
