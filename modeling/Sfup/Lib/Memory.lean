import Mathlib.Logic.Function.Basic
import Mathlib.Tactic.NormNum

/-! Byte memory, and 16-bit words in network order. -/
namespace Sfup

/-- The bytes from an address on. -/
abbrev Mem := ℕ → UInt8

namespace Mem

variable {m m' : Mem} {p i : ℕ} {v : UInt16}

/-- The word at `p`, most significant byte first. -/
def word (m : Mem) (p : ℕ) : UInt16 := UInt16.ofNat (256 * (m p).toNat + (m (p + 1)).toNat)

def setWord (m : Mem) (p : ℕ) (v : UInt16) : Mem :=
  Function.update (Function.update m p (UInt8.ofNat (v.toNat / 256))) (p + 1) (UInt8.ofNat v.toNat)

theorem toNat_word : (m.word p).toNat = 256 * (m p).toNat + (m (p + 1)).toNat := by
  have hh := (m p).toNat_lt
  have hl := (m (p + 1)).toNat_lt
  rw [word, UInt16.toNat_ofNat', Nat.mod_eq_of_lt]
  omega

theorem setWord_high : m.setWord p v p = UInt8.ofNat (v.toNat / 256) := by
  rw [setWord, Function.update_of_ne (by omega), Function.update_self]

theorem setWord_low : m.setWord p v (p + 1) = UInt8.ofNat v.toNat := by
  rw [setWord, Function.update_self]

theorem setWord_of_ne (h : i ≠ p) (h' : i ≠ p + 1) : m.setWord p v i = m i := by
  rw [setWord, Function.update_of_ne h', Function.update_of_ne h]

@[simp] theorem word_setWord : (m.setWord p v).word p = v := by
  apply UInt16.toNat_inj.mp
  have hv := v.toNat_lt
  rw [toNat_word, setWord_high, setWord_low, UInt8.toNat_ofNat', UInt8.toNat_ofNat']
  omega

theorem word_congr (h : m p = m' p) (h' : m (p + 1) = m' (p + 1)) : m.word p = m'.word p := by
  rw [word, word, h, h']

theorem word_setWord_of_disjoint {q : ℕ} (h : q + 2 ≤ p ∨ p + 2 ≤ q) :
    (m.setWord p v).word q = m.word q :=
  word_congr (setWord_of_ne (by omega) (by omega)) (setWord_of_ne (by omega) (by omega))

/-- The value of the four bytes at `p`. -/
def long (m : Mem) (p : ℕ) : ℕ := (m.word p).toNat * 65536 + (m.word (p + 2)).toNat

def setLong (m : Mem) (p : ℕ) (v : UInt32) : Mem :=
  (m.setWord p (UInt16.ofNat (v.toNat / 65536))).setWord (p + 2) (UInt16.ofNat v.toNat)

theorem setLong_of_lt {v : UInt32} (h : i < p) : m.setLong p v i = m i := by
  rw [setLong, setWord_of_ne (by omega) (by omega), setWord_of_ne (by omega) (by omega)]

theorem setLong_of_ge {v : UInt32} (h : p + 4 ≤ i) : m.setLong p v i = m i := by
  rw [setLong, setWord_of_ne (by omega) (by omega), setWord_of_ne (by omega) (by omega)]

theorem setWord_congr (h : m i = m' i) : m.setWord p v i = m'.setWord p v i := by
  simp only [setWord, Function.update_apply, h]

theorem setLong_congr {v : UInt32} (h : m i = m' i) : m.setLong p v i = m'.setLong p v i :=
  setWord_congr (setWord_congr h)

theorem long_lt : m.long p < 2 ^ 32 := by
  have hh := (m.word p).toNat_lt
  have hl := (m.word (p + 2)).toNat_lt
  unfold long
  omega

@[simp] theorem long_setLong {v : UInt32} : (m.setLong p v).long p = v.toNat := by
  have hv := v.toNat_lt
  rw [long, setLong, word_setWord_of_disjoint (by omega), word_setWord, word_setWord, UInt16.toNat_ofNat',
    UInt16.toNat_ofNat']
  omega

theorem long_congr (h : ∀ i, p ≤ i → i < p + 4 → m i = m' i) : m.long p = m'.long p := by
  unfold long
  rw [word_congr (h p (by omega) (by omega)) (h (p + 1) (by omega) (by omega)),
    word_congr (h (p + 2) (by omega) (by omega)) (h (p + 3) (by omega) (by omega))]

theorem long_setWord_of_disjoint {q : ℕ} (h : q + 4 ≤ p ∨ p + 2 ≤ q) :
    (m.setWord p v).long q = m.long q := by
  rw [long, long, word_setWord_of_disjoint (by omega), word_setWord_of_disjoint (by omega)]

/-- Two memories agree on a range of addresses. -/
def Agree (m m' : Mem) (lo hi : ℕ) : Prop := ∀ i, lo ≤ i → i < hi → m i = m' i

variable {lo hi : ℕ}

theorem Agree.symm (h : Agree m m' lo hi) : Agree m' m lo hi := fun i hl hh => (h i hl hh).symm

theorem Agree.mono {lo' hi' : ℕ} (h : Agree m m' lo hi) (hl : lo ≤ lo') (hh : hi' ≤ hi) :
    Agree m m' lo' hi' := fun i h₁ h₂ => h i (hl.trans h₁) (h₂.trans_le hh)

theorem Agree.word (h : Agree m m' lo hi) (hl : lo ≤ p) (hh : p + 2 ≤ hi) : m.word p = m'.word p :=
  word_congr (h p hl (by omega)) (h (p + 1) (by omega) (by omega))

theorem Agree.long (h : Agree m m' lo hi) (hl : lo ≤ p) (hh : p + 4 ≤ hi) : m.long p = m'.long p := by
  rw [Mem.long, Mem.long, h.word hl (by omega), h.word (p := p + 2) (by omega) (by omega)]

theorem agree_setWord_of_le (h : hi ≤ p) : Agree (m.setWord p v) m lo hi :=
  fun _ _ hi => setWord_of_ne (by omega) (by omega)

theorem agree_setWord_of_ge (h : p + 2 ≤ lo) : Agree (m.setWord p v) m lo hi :=
  fun _ hl _ => setWord_of_ne (by omega) (by omega)

/-- The `n` bytes from `p` on. -/
def bytes (m : Mem) (p n : ℕ) : List UInt8 := (List.range n).map fun i => m (p + i)

/-- `memcpy` of bytes to `p`. -/
def copy (m : Mem) (p : ℕ) (src : List UInt8) : Mem :=
  fun i => if p ≤ i then (src[i - p]?).getD (m i) else m i

@[simp] theorem length_bytes (n : ℕ) : (m.bytes p n).length = n := by simp [bytes]

theorem bytes_congr {n : ℕ} (h : ∀ i < n, m (p + i) = m' (p + i)) : m.bytes p n = m'.bytes p n := by
  apply List.map_congr_left
  intro i hi
  exact h i (List.mem_range.mp hi)

theorem copy_of_lt {src : List UInt8} (h : i < p) : m.copy p src i = m i := if_neg (by omega)

theorem copy_get {src : List UInt8} (h : i < src.length) : m.copy p src (p + i) = src[i] := by
  rw [copy, if_pos (by omega), Nat.add_sub_cancel_left, List.getElem?_eq_getElem h, Option.getD_some]

theorem copy_bytes {n : ℕ} (h : i < n) : m.copy p (m'.bytes 0 n) (p + i) = m' i := by
  have hi : i < (m'.bytes 0 n).length := by simpa using h
  rw [copy_get hi]
  simp [bytes]

/-- The memory from `p` on. -/
def drop (m : Mem) (p : ℕ) : Mem := fun i => m (p + i)

theorem copy_bytes_of_lt {n : ℕ} (h : i < n) : m.copy 0 (m'.bytes 0 n) i = m' i := by
  have hi : i < (m'.bytes 0 n).length := by simpa using h
  have hc := copy_get (m := m) (p := 0) hi
  rw [Nat.zero_add] at hc
  rw [hc]
  simp [bytes]

theorem bytes_add (n k : ℕ) : m.bytes p (n + k) = m.bytes p n ++ m.bytes (p + n) k := by
  simp only [bytes, List.range_add, List.map_append, List.map_map]
  congr 1
  apply List.map_congr_left
  intro i _
  simp [Nat.add_assoc]

theorem bytes_copy (src : List UInt8) : (m.copy p src).bytes p src.length = src := by
  apply List.ext_getElem
  · simp
  · intro i h₁ h₂
    simp [bytes, copy, h₂]

theorem bytes_copy_append (n : ℕ) (src : List UInt8) :
    (m.copy (p + n) src).bytes p (n + src.length) = m.bytes p n ++ src := by
  rw [bytes_add, bytes_copy]
  congr 1
  exact bytes_congr fun i hi => copy_of_lt (by omega)

/-- The bytes are there from `p` on. -/
def Holds (m : Mem) (p : ℕ) (bs : List UInt8) : Prop := m.bytes p bs.length = bs

instance (m : Mem) (p : ℕ) (bs : List UInt8) : Decidable (m.Holds p bs) :=
  inferInstanceAs (Decidable (m.bytes p bs.length = bs))

theorem Holds.of_append {bs cs : List UInt8} (h : m.Holds p (bs ++ cs)) :
    m.Holds p bs ∧ m.Holds (p + bs.length) cs := by
  unfold Holds at h
  rw [List.length_append, bytes_add] at h
  exact List.append_inj h (length_bytes _)

theorem Holds.head {b : UInt8} {bs : List UInt8} (h : m.Holds p (b :: bs)) : m p = b := by
  have hbytes : m.bytes p (1 + bs.length) = b :: bs := by
    rw [Nat.add_comm]
    exact h
  rw [bytes_add] at hbytes
  exact (List.cons.inj hbytes).1

theorem Holds.congr {bs : List UInt8} (h : m.Holds p bs) (hm : ∀ i, p ≤ i → m' i = m i) : m'.Holds p bs :=
  (bytes_congr fun i _ => hm (p + i) (by omega)).trans h

end Mem
end Sfup
