import Mathlib.Data.List.Basic
import Mathlib.Tactic.NormNum

/-! `URLDecode` of `Common/StringUtils.cpp`, with the positions that it reads. Sizes are numbers of 32 bits. -/
namespace Sfup.Common

/-- `a - b` for a `size_t`. -/
def sizeSub (a b : ℕ) : ℕ := if b ≤ a then a - b else a + 2 ^ 32 - b

/-- One of the two range tests, with the letter that is subtracted for an upper-case digit. -/
def hexValue (upper : ℕ) (c : UInt8) : Option ℕ :=
  if 48 ≤ c.toNat ∧ c.toNat ≤ 57 then some (c.toNat - 48)
  else if 97 ≤ c.toNat ∧ c.toNat ≤ 102 then some (c.toNat - 97 + 10)
  else if 65 ≤ c.toNat ∧ c.toNat ≤ 70 then some (c.toNat + 10 - upper)
  else none

/-- The first digit: `hi - 'F' + 10`. -/
def hexHi (hi : UInt8) : Option ℕ := hexValue 70 hi

/-- The second digit: `lo - 'A' + 10`. -/
def hexLo (lo : UInt8) : Option ℕ := hexValue 65 lo

section
variable (beyond : ℕ → UInt8) (s : List UInt8)

def charAt (i : ℕ) : UInt8 := s.getD i (beyond i)

/-- The loop from `i` on: what it appends to the result, and the positions that it reads. -/
def urlDecodeLoop : ℕ → ℕ → List UInt8 × List ℕ
  | 0, _ => ([], [])
  | fuel + 1, i =>
    if i < s.length then
      let ch := charAt beyond s i
      if ch ≠ 37 ∨ sizeSub s.length 3 < i then
        let (res, reads) := urlDecodeLoop fuel (i + 1)
        (ch :: res, i :: reads)
      else
        match hexHi (charAt beyond s (i + 1)), hexLo (charAt beyond s (i + 2)) with
        | some hi, some lo =>
          let (res, reads) := urlDecodeLoop fuel (i + 3)
          (UInt8.ofNat (hi <<< 4 ||| lo) :: res, i :: (i + 1) :: (i + 2) :: reads)
        | _, _ =>
          let (res, reads) := urlDecodeLoop fuel (i + 1)
          (ch :: res, i :: (i + 1) :: (i + 2) :: reads)
    else ([], [])

def urlDecode : List UInt8 × List ℕ := urlDecodeLoop beyond s s.length 0

end

/-! ## Percent-encoding -/

/-- A hex digit in either case. -/
structure HexDigit where
  value : Fin 16
  upper : Bool
deriving DecidableEq, Repr

def HexDigit.char (d : HexDigit) : UInt8 :=
  UInt8.ofNat (if d.value.1 < 10 then 48 + d.value.1 else if d.upper then 55 + d.value.1 else 87 + d.value.1)

/-- A byte as it is written: as it is, unless it is a `%`, or as a `%` and two digits. -/
inductive Written
  | plain (b : UInt8) (h : b ≠ 37)
  | escape (hi lo : HexDigit)
deriving DecidableEq, Repr

namespace Written

def byte : Written → UInt8
  | plain b _ => b
  | escape hi lo => UInt8.ofNat (16 * hi.value.1 + lo.value.1)

def chars : Written → List UInt8
  | plain b _ => [b]
  | escape hi lo => [37, hi.char, lo.char]

/-- The first digit is one of `A` to `F`. -/
def UpperFirst : Written → Prop
  | plain _ _ => False
  | escape hi _ => 10 ≤ hi.value.1 ∧ hi.upper

end Written

/-- Decoding gives back the bytes that are written. -/
def Decodes (beyond : ℕ → UInt8) (ws : List Written) : Prop :=
  (urlDecode beyond (ws.flatMap Written.chars)).1 = ws.map Written.byte

/-- Every position that is read lies in the string. -/
def ReadsInside (beyond : ℕ → UInt8) (s : List UInt8) : Prop := ∀ i ∈ (urlDecode beyond s).2, i < s.length

theorem HexDigit.forall_iff {p : HexDigit → Prop} : (∀ d, p d) ↔ ∀ v : Fin 16, ∀ u : Bool, p ⟨v, u⟩ :=
  ⟨fun h v u => h ⟨v, u⟩, fun h d => h d.value d.upper⟩

theorem hexLo_char : ∀ d : HexDigit, hexLo d.char = some d.value.1 := by
  rw [HexDigit.forall_iff]
  decide

private theorem hexHi_char : ∀ d : HexDigit,
    hexHi d.char = some (if 10 ≤ d.value.1 ∧ d.upper then d.value.1 - 5 else d.value.1) := by
  rw [HexDigit.forall_iff]
  decide

def Written.decoded : Written → UInt8
  | plain b _ => b
  | escape hi lo =>
    UInt8.ofNat (16 * (if 10 ≤ hi.value.1 ∧ hi.upper then hi.value.1 - 5 else hi.value.1) + lo.value.1)

theorem Written.decoded_eq_byte_iff (w : Written) : w.decoded = w.byte ↔ ¬ w.UpperFirst := by
  cases w with
  | plain b h => simp [decoded, byte, UpperFirst]
  | escape hi lo =>
    have hhi := hi.value.2
    have hlo := lo.value.2
    simp only [decoded, byte, UpperFirst, ← UInt8.toNat_inj, UInt8.toNat_ofNat']
    split_ifs with h
    · have hten : 10 ≤ hi.value.1 := h.1
      exact iff_of_false (by omega) fun hnot => hnot h
    · exact iff_of_true rfl h

section
variable {beyond : ℕ → UInt8} {pre rest s : List UInt8} {fuel i : ℕ}

theorem charAt_append (k : ℕ) :
    charAt beyond (pre ++ rest) (pre.length + k) = rest.getD k (beyond (pre.length + k)) := by
  rw [charAt, List.getD_eq_getElem?_getD, List.getElem?_append_right (by omega), Nat.add_sub_cancel_left,
    List.getD_eq_getElem?_getD]

theorem urlDecodeLoop_plain {b : UInt8} (hb : b ≠ 37) :
    (urlDecodeLoop beyond (pre ++ b :: rest) (fuel + 1) pre.length).1 =
      b :: (urlDecodeLoop beyond ((pre ++ [b]) ++ rest) fuel (pre ++ [b]).length).1 := by
  have hch : charAt beyond (pre ++ b :: rest) pre.length = b := charAt_append 0
  have hlt : pre.length < (pre ++ b :: rest).length := by simp
  rw [urlDecodeLoop, if_pos hlt, hch, if_pos (Or.inl hb), ← List.append_cons]
  simp

private theorem urlDecodeLoop_escape (hi lo : HexDigit) :
    (urlDecodeLoop beyond (pre ++ 37 :: hi.char :: lo.char :: rest) (fuel + 1) pre.length).1 =
      (Written.escape hi lo).decoded :: (urlDecodeLoop beyond ((pre ++ [37, hi.char, lo.char]) ++ rest) fuel
        (pre ++ [37, hi.char, lo.char]).length).1 := by
  have hlt : pre.length < (pre ++ 37 :: hi.char :: lo.char :: rest).length := by simp
  have hch : charAt beyond (pre ++ 37 :: hi.char :: lo.char :: rest) pre.length = 37 := charAt_append 0
  have hhi : charAt beyond (pre ++ 37 :: hi.char :: lo.char :: rest) (pre.length + 1) = hi.char := charAt_append 1
  have hlo : charAt beyond (pre ++ 37 :: hi.char :: lo.char :: rest) (pre.length + 2) = lo.char := charAt_append 2
  have hguard : ¬ ((37 : UInt8) ≠ 37 ∨ sizeSub (pre ++ 37 :: hi.char :: lo.char :: rest).length 3 < pre.length) := by
    rw [sizeSub, List.length_append, List.length_cons, List.length_cons, List.length_cons, if_pos (by omega)]
    simp
    omega
  have hbyte (v : ℕ) : v <<< 4 ||| lo.value.1 = 16 * v + lo.value.1 := by
    rw [← Nat.shiftLeft_add_eq_or_of_lt lo.value.2, Nat.shiftLeft_eq, Nat.mul_comm]
  rw [urlDecodeLoop, if_pos hlt, hch, if_neg hguard, hhi, hlo, hexHi_char, hexLo_char]
  simp [Written.decoded, hbyte]

private theorem urlDecodeLoop_chars {ws : List Written} (hfuel : (ws.flatMap Written.chars).length ≤ fuel) :
    (urlDecodeLoop beyond (pre ++ ws.flatMap Written.chars) fuel pre.length).1 = ws.map Written.decoded := by
  induction ws generalizing pre fuel with
  | nil => cases fuel <;> simp [urlDecodeLoop]
  | cons w ws ih =>
    cases w with
    | plain b h =>
      simp only [List.flatMap_cons, Written.chars, List.singleton_append, List.length_cons] at hfuel ⊢
      obtain ⟨fuel, rfl⟩ := Nat.exists_eq_add_of_le' (show 1 ≤ fuel by omega)
      rw [urlDecodeLoop_plain h, ih (by omega)]
      rfl
    | escape hi lo =>
      simp only [List.flatMap_cons, Written.chars, List.cons_append, List.nil_append, List.length_cons] at hfuel ⊢
      obtain ⟨fuel, rfl⟩ := Nat.exists_eq_add_of_le' (show 1 ≤ fuel by omega)
      rw [urlDecodeLoop_escape, ih (by omega)]
      rfl

theorem decodes_iff (beyond : ℕ → UInt8) (ws : List Written) : Decodes beyond ws ↔ ∀ w ∈ ws, ¬ w.UpperFirst := by
  have hloop : (urlDecode beyond (ws.flatMap Written.chars)).1 = ws.map Written.decoded :=
    @urlDecodeLoop_chars beyond [] _ ws le_rfl
  rw [Decodes, hloop, List.map_inj_left]
  exact forall₂_congr fun w _ => w.decoded_eq_byte_iff

theorem reads_of_guard (hi : i < s.length) (hguard : charAt beyond s i ≠ 37 ∨ sizeSub s.length 3 < i) :
    (urlDecodeLoop beyond s (fuel + 1) i).2 = i :: (urlDecodeLoop beyond s fuel (i + 1)).2 := by
  rw [urlDecodeLoop, if_pos hi, if_pos hguard]

theorem reads_of_escape (hi : i < s.length) (hguard : ¬ (charAt beyond s i ≠ 37 ∨ sizeSub s.length 3 < i)) :
    ∃ j, (urlDecodeLoop beyond s (fuel + 1) i).2 = i :: (i + 1) :: (i + 2) :: (urlDecodeLoop beyond s fuel j).2 := by
  rw [urlDecodeLoop, if_pos hi, if_neg hguard]
  cases hexHi (charAt beyond s (i + 1)) with
  | none => exact ⟨i + 1, rfl⟩
  | some hi =>
    cases hexLo (charAt beyond s (i + 2)) with
    | none => exact ⟨i + 1, rfl⟩
    | some lo => exact ⟨i + 3, rfl⟩

private theorem reads_of_ge (hi : s.length ≤ i) : (urlDecodeLoop beyond s fuel i).2 = [] := by
  cases fuel with
  | zero => rfl
  | succ fuel => rw [urlDecodeLoop, if_neg (Nat.not_lt.mpr hi)]

/-- With three characters or more the guard keeps the loop inside, and without a `%` nothing is looked ahead at. -/
theorem reads_lt (hs : 3 ≤ s.length ∨ 37 ∉ s) : ∀ j ∈ (urlDecodeLoop beyond s fuel i).2, j < s.length := by
  induction fuel generalizing i with
  | zero => simp [urlDecodeLoop]
  | succ fuel ih =>
    rcases Nat.lt_or_ge i s.length with hi | hi
    · by_cases hguard : charAt beyond s i ≠ 37 ∨ sizeSub s.length 3 < i
      · rw [reads_of_guard hi hguard]
        exact List.forall_mem_cons.mpr ⟨hi, ih⟩
      · obtain ⟨hch, hsub⟩ := not_or.mp hguard
        have hmem : 37 ∈ s := by
          rw [← not_not.mp hch, charAt, List.getD_eq_getElem?_getD, List.getElem?_eq_getElem hi, Option.getD_some]
          exact List.getElem_mem hi
        have hlen : 3 ≤ s.length := hs.resolve_right fun hnot => hnot hmem
        rw [sizeSub, if_pos hlen] at hsub
        obtain ⟨j, hj⟩ := reads_of_escape hi hguard
        rw [hj]
        exact List.forall_mem_cons.mpr
          ⟨hi, List.forall_mem_cons.mpr ⟨by omega, List.forall_mem_cons.mpr ⟨by omega, ih⟩⟩⟩
    · simp [reads_of_ge hi]

/-- In a shorter string the guard wraps, and a `%` makes the loop look ahead. -/
theorem mem_reads_of_lt (hs : s.length < 3) (hi : i < s.length) (hch : charAt beyond s i = 37) :
    i + 2 ∈ (urlDecodeLoop beyond s (fuel + 1) i).2 := by
  have hsub : ¬ sizeSub s.length 3 < i := by
    rw [sizeSub, if_neg (by omega)]
    omega
  obtain ⟨j, hj⟩ : ∃ j, (urlDecodeLoop beyond s (fuel + 1) i).2 = i :: (i + 1) :: (i + 2) :: _ :=
    reads_of_escape hi (not_or.mpr ⟨not_not.mpr hch, hsub⟩)
  simp [hj]

private theorem exists_read_of_mem (hs : s.length < 3) (hmem : 37 ∈ s) :
    ∃ j ∈ (urlDecode beyond s).2, s.length ≤ j := by
  match s, hmem with
  | [x], hmem =>
    have hx : x = 37 := (List.mem_singleton.mp hmem).symm
    exact ⟨0 + 2, mem_reads_of_lt hs Nat.zero_lt_one hx, by simp⟩
  | [x, y], hmem =>
    by_cases hx : x = 37
    · exact ⟨0 + 2, mem_reads_of_lt hs Nat.zero_lt_two hx, by simp⟩
    · have hy : y = 37 := by simpa [Ne.symm hx, eq_comm] using hmem
      have hguard : charAt beyond [x, y] 0 ≠ 37 ∨ sizeSub [x, y].length 3 < 0 := Or.inl hx
      refine ⟨1 + 2, ?_, by simp⟩
      rw [urlDecode, List.length_cons, reads_of_guard (Nat.zero_lt_succ _) hguard]
      exact List.mem_cons_of_mem _ (mem_reads_of_lt hs Nat.one_lt_two hy)

private theorem readsInside_iff (beyond : ℕ → UInt8) (s : List UInt8) :
    ReadsInside beyond s ↔ 3 ≤ s.length ∨ 37 ∉ s := by
  constructor
  · intro hall
    by_contra hnot
    obtain ⟨hlen, hmem⟩ := not_or.mp hnot
    obtain ⟨j, hj, hge⟩ : ∃ j ∈ (urlDecode beyond s).2, s.length ≤ j :=
      exists_read_of_mem (Nat.not_le.mp hlen) (not_not.mp hmem)
    exact absurd (hall j hj) (Nat.not_lt.mpr hge)
  · exact fun hs => reads_lt hs

/-- Decoding undoes an encoding exactly if no escape starts with an upper-case letter, and it stays in the string
exactly if that has three characters or no `%`. -/
theorem urlDecode_iff (beyond : ℕ → UInt8) (ws : List Written) (s : List UInt8) :
    (Decodes beyond ws ↔ ∀ w ∈ ws, ¬ w.UpperFirst) ∧ (ReadsInside beyond s ↔ 3 ≤ s.length ∨ 37 ∉ s) :=
  ⟨decodes_iff beyond ws, readsInside_iff beyond s⟩

end

/-- The byte 0xAF as `%AF` is decoded as 0x5F, and a `%` alone makes the loop read behind the string. -/
theorem not_urlDecode : ¬ ∀ (beyond : ℕ → UInt8) (ws : List Written) (s : List UInt8),
    Decodes beyond ws ∧ ReadsInside beyond s := by
  intro hall
  have h : (urlDecode (fun _ => 0) [37, 65, 70]).1 = [0xAF] :=
    (hall (fun _ => 0) [.escape ⟨10, true⟩ ⟨15, true⟩] [37]).1
  exact absurd h (by decide)

end Sfup.Common
