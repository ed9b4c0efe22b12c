import Mathlib.Data.List.Basic
import Mathlib.Tactic.NormNum

/-! `Base64Encode` and `Base64Decode` of `Common/StringUtils.cpp`. Sizes are numbers of 32 bits. -/
namespace Sfup.Common

/-- The table `BASE64`. -/
def base64 : List UInt8 :=
  "ABCDEFGHIJKLMNOPQRSTUVWXYZabcdefghijklmnopqrstuvwxyz0123456789+/".toList.map fun c => UInt8.ofNat c.toNat

/-- A `char` from 128 on is negative, and in none of the ranges either way. -/
def unBase64 (c : UInt8) : ℤ :=
  if 65 ≤ c.toNat ∧ c.toNat ≤ 90 then c.toNat - 65
  else if 97 ≤ c.toNat ∧ c.toNat ≤ 122 then c.toNat - 97 + 26
  else if 48 ≤ c.toNat ∧ c.toNat ≤ 57 then c.toNat - 48 + 52
  else if c.toNat = 43 then 62
  else if c.toNat = 47 then 63
  else if c.toNat = 61 then -1
  else -2

/-- `resize(n)`. -/
def resize (s : List UInt8) (n : ℕ) : List UInt8 := s.take n ++ List.replicate (n - s.length) 0

/-- `res[i] |= v`. `none` is a write outside of the buffer. -/
def orAt (res : List UInt8) (i v : ℕ) : Option (List UInt8) :=
  if i < res.length then some (res.modify i (· ||| UInt8.ofNat v)) else none

/-- The bits of `c` at the bit cursor `o`. -/
def orBits (res : List UInt8) (o c : ℕ) : Option (List UInt8) :=
  match o % 8 with
  | 0 => orAt res (o / 8) (c <<< 2)
  | 6 => do orAt (← orAt res (o / 8) (c >>> 4)) (o / 8 + 1) (c <<< 4)
  | 4 => do orAt (← orAt res (o / 8) (c >>> 2)) (o / 8 + 1) (c <<< 6)
  | 2 => orAt res (o / 8) c
  | _ => some res

/-- The loop of `Base64Decode` over the characters from `i` on. -/
def decodeLoop : List UInt8 → List UInt8 → ℕ → Option (List UInt8)
  | [], res, o => some (resize res (o / 8))
  | ch :: chars, res, o =>
    let c := unBase64 ch
    if 0 ≤ c then do
      let res ← orBits res o c.toNat
      decodeLoop chars res ((o + 6) % 2 ^ 32)
    else if c = -1 then some (resize res (o / 8))
    else decodeLoop chars res o

def base64Decode (aBase64String : List UInt8) : Option (List UInt8) :=
  decodeLoop aBase64String (List.replicate (aBase64String.length * 4 % 2 ^ 32 / 3 + 5) 0) 0

/-- What `Base64Encode` writes to, with the positions that it has written. -/
structure Encoding where
  output : List UInt8
  outputIndex : ℕ
  written : List ℕ
deriving DecidableEq, Repr

/-- `output[output_index++] = ch`. `none` is a write outside of the buffer. -/
def Encoding.put (e : Encoding) (ch : UInt8) : Option Encoding :=
  if e.outputIndex < e.output.length then
    some ⟨e.output.set e.outputIndex ch, (e.outputIndex + 1) % 2 ^ 32, e.written ++ [e.outputIndex]⟩
  else none

/-- `output[output_index++] = BASE64[index]`. `none` is also a read outside of the table. -/
def Encoding.putAt (e : Encoding) (index : ℕ) : Option Encoding := do
  e.put (← base64[index]?)

/-- The groups of three bytes, and the one or two bytes behind them. -/
def encodeLoop : List UInt8 → Encoding → Option Encoding
  | a :: b :: c :: rest, e => do
    let e ← e.putAt (a.toNat >>> 2)
    let e ← e.putAt ((a.toNat <<< 4 ||| b.toNat >>> 4) &&& 63)
    let e ← e.putAt ((b.toNat <<< 2 ||| c.toNat >>> 6) &&& 63)
    let e ← e.putAt (c.toNat &&& 63)
    encodeLoop rest e
  | [a, b], e => do
    let e ← e.putAt (a.toNat >>> 2)
    let e ← e.putAt ((a.toNat <<< 4 ||| b.toNat >>> 4) &&& 63)
    let e ← e.putAt ((b.toNat <<< 2) &&& 63)
    e.put 61
  | [a], e => do
    let e ← e.putAt (a.toNat >>> 2)
    let e ← e.putAt ((a.toNat <<< 4) &&& 63)
    let e ← e.put 61
    e.put 61
  | [], e => some e

/-- `Base64Encode`, with the `ASSERT` at its end. -/
def base64Encode (aInput : List UInt8) : Option Encoding := do
  let e ← encodeLoop aInput ⟨List.replicate ((aInput.length + 2) % 2 ^ 32 / 3 * 4 % 2 ^ 32) 0, 0, []⟩
  if e.outputIndex = e.output.length then some e else none

/-! ## What is claimed of them -/

def RoundTrips (s : List UInt8) : Prop := ∃ e, base64Encode s = some e ∧ base64Decode e.output = some s

/-- Each position that is allocated is written once, and no other. -/
def EncodesExactly (s : List UInt8) : Prop :=
  ∃ e, base64Encode s = some e ∧ e.output.length = (s.length + 2) / 3 * 4 ∧ e.written = List.range e.output.length

def DecodesInBounds (s : List UInt8) : Prop := ∃ res, base64Decode s = some res

/-- The indices that the encoder looks up in its table. -/
def base64Indices : List UInt8 → List ℕ
  | a :: b :: c :: rest => a.toNat >>> 2 :: ((a.toNat <<< 4 ||| b.toNat >>> 4) &&& 63) ::
      ((b.toNat <<< 2 ||| c.toNat >>> 6) &&& 63) :: (c.toNat &&& 63) :: base64Indices rest
  | [a, b] => [a.toNat >>> 2, (a.toNat <<< 4 ||| b.toNat >>> 4) &&& 63, (b.toNat <<< 2) &&& 63]
  | [a] => [a.toNat >>> 2, (a.toNat <<< 4) &&& 63]
  | [] => []

/-- The values of the characters in front of the first `=`. -/
def symbols (s : List UInt8) : List ℕ :=
  (s.takeWhile fun ch => unBase64 ch ≠ -1).filterMap fun ch =>
    if 0 ≤ unBase64 ch then some (unBase64 ch).toNat else none

/-- `=` fills up the last group. -/
def base64Chars (s : List UInt8) : List UInt8 :=
  (base64Indices s).map (base64.getD · 0) ++ List.replicate ((3 - s.length % 3) % 3) 61

theorem base64_lookup : ∀ i < 64, base64[i]? = some (base64.getD i 0) ∧ unBase64 (base64.getD i 0) = i := by decide

theorem base64Indices_lt (s : List UInt8) : ∀ i ∈ base64Indices s, i < 64 := by
  have hmask (x : ℕ) : x &&& 63 < 64 := Nat.and_lt_two_pow x (n := 6) (by decide)
  have hhigh (a : UInt8) : a.toNat >>> 2 < 64 := by
    have ha := a.toNat_lt
    rw [Nat.shiftRight_eq_div_pow]
    omega
  induction s using base64Indices.induct with
  | case1 a b c rest ih => simpa [base64Indices, hmask, hhigh] using ih
  | case2 a b => simp [base64Indices, hmask, hhigh]
  | case3 a => simp [base64Indices, hmask, hhigh]
  | case4 => simp [base64Indices]

theorem length_base64Chars (s : List UInt8) : (base64Chars s).length = (s.length + 2) / 3 * 4 := by
  rw [base64Chars, List.length_append, List.length_map, List.length_replicate]
  induction s using base64Indices.induct with
  | case1 a b c rest ih =>
    simp only [base64Indices, List.length_cons, Nat.add_assoc, Nat.reduceAdd] at ih ⊢
    rw [Nat.add_mod_right, show (rest.length + 5) / 3 = (rest.length + 2) / 3 + 1 by omega]
    omega
  | case2 a b => simp [base64Indices]
  | case3 a => simp [base64Indices]
  | case4 => simp [base64Indices]

/-! ## The encoder -/

namespace Encoding

private theorem putAt_of_lt (e : Encoding) {i : ℕ} (hi : i < 64) : e.putAt i = e.put (base64.getD i 0) := by
  rw [putAt, (base64_lookup i hi).1]
  rfl

/-- Characters that fit are put one behind the other. -/
theorem foldlM_put {e : Encoding} {chars : List UInt8} (hsize : e.output.length < 2 ^ 32)
    (hfit : e.outputIndex + chars.length ≤ e.output.length) :
    chars.foldlM put e = some ⟨e.output.take e.outputIndex ++ chars ++ e.output.drop (e.outputIndex + chars.length),
      e.outputIndex + chars.length, e.written ++ List.range' e.outputIndex chars.length⟩ := by
  induction chars generalizing e with
  | nil => simp
  | cons ch chars ih =>
    rw [List.length_cons] at hfit
    rw [List.foldlM_cons, put, if_pos (by omega), Option.bind_eq_bind, Option.bind_some, Nat.mod_eq_of_lt (by omega),
      ih (by simpa using hsize) (by simp; omega)]
    have htake : (e.output.set e.outputIndex ch).take (e.outputIndex + 1) = e.output.take e.outputIndex ++ [ch] := by
      rw [List.take_add_one, List.take_set_of_le (by omega), List.getElem?_set_self (by omega)]
      rfl
    have hdrop : (e.output.set e.outputIndex ch).drop (e.outputIndex + (chars.length + 1)) =
        e.output.drop (e.outputIndex + (chars.length + 1)) := List.drop_set_of_lt (by omega)
    simp only [htake, hdrop, List.append_assoc, List.cons_append, List.nil_append, List.length_cons,
      List.range'_succ, Nat.add_assoc, Nat.add_comm 1]

theorem foldlM_put_of_gt {e : Encoding} {chars : List UInt8} (hsize : e.output.length < 2 ^ 32)
    (hindex : e.outputIndex ≤ e.output.length) (hfit : e.output.length < e.outputIndex + chars.length) :
    chars.foldlM put e = none := by
  induction chars generalizing e with
  | nil => simp at hfit; omega
  | cons ch chars ih =>
    rw [List.length_cons] at hfit
    rw [List.foldlM_cons, put]
    split_ifs with hlt
    · rw [Option.bind_eq_bind, Option.bind_some, Nat.mod_eq_of_lt (by omega)]
      exact ih (by simpa using hsize) (by simp; omega) (by simp; omega)
    · rfl

end Encoding

theorem encodeLoop_eq (s : List UInt8) (e : Encoding) : encodeLoop s e = (base64Chars s).foldlM Encoding.put e := by
  have hlt := base64Indices_lt s
  unfold base64Chars
  induction s using base64Indices.induct generalizing e with
  | case1 a b c rest ih =>
    simp only [base64Indices, List.mem_cons, forall_eq_or_imp] at hlt
    obtain ⟨h0, h1, h2, h3, hrest⟩ := hlt
    have hpad : (3 - (a :: b :: c :: rest).length % 3) % 3 = (3 - rest.length % 3) % 3 := by
      simp only [List.length_cons]
      omega
    simp only [encodeLoop, base64Indices, hpad, List.map_cons, List.cons_append, List.foldlM_cons,
      Encoding.putAt_of_lt _ h0, Encoding.putAt_of_lt _ h1, Encoding.putAt_of_lt _ h2, Encoding.putAt_of_lt _ h3,
      ih _ hrest]
  | case2 a b =>
    simp only [base64Indices, List.mem_cons, List.not_mem_nil, or_false, forall_eq_or_imp, forall_eq] at hlt
    obtain ⟨h0, h1, h2⟩ := hlt
    simp [encodeLoop, base64Indices, Encoding.putAt_of_lt _ h0, Encoding.putAt_of_lt _ h1, Encoding.putAt_of_lt _ h2]
  | case3 a =>
    simp only [base64Indices, List.mem_cons, List.not_mem_nil, or_false, forall_eq_or_imp, forall_eq] at hlt
    obtain ⟨h0, h1⟩ := hlt
    simp [encodeLoop, base64Indices, Encoding.putAt_of_lt _ h0, Encoding.putAt_of_lt _ h1, List.replicate]
  | case4 => simp [encodeLoop, base64Indices]

theorem base64Encode_of_le {s : List UInt8} (h : s.length ≤ 3 * 2 ^ 30 - 3) :
    base64Encode s = some ⟨base64Chars s, (base64Chars s).length, List.range (base64Chars s).length⟩ := by
  have hsize : (s.length + 2) % 2 ^ 32 / 3 * 4 % 2 ^ 32 = (base64Chars s).length := by
    rw [length_base64Chars]
    omega
  have hlt : (base64Chars s).length < 2 ^ 32 := by
    rw [length_base64Chars]
    omega
  rw [base64Encode, hsize, encodeLoop_eq, Encoding.foldlM_put (by simpa using hlt) (by simp)]
  simp [List.range_eq_range']

private theorem base64Encode_of_gt {s : List UInt8} (h : 3 * 2 ^ 30 - 3 < s.length) : base64Encode s = none := by
  have hlen := length_base64Chars s
  rw [base64Encode, encodeLoop_eq, Encoding.foldlM_put_of_gt]
  · rfl
  · simp
    omega
  · simp
  · simp
    omega

theorem encodesExactly_iff (s : List UInt8) : EncodesExactly s ↔ s.length ≤ 3 * 2 ^ 30 - 3 := by
  constructor
  · rintro ⟨e, he, -⟩
    by_contra hgt
    rw [base64Encode_of_gt (by omega)] at he
    cases he
  · intro hle
    exact ⟨_, base64Encode_of_le hle, length_base64Chars s, rfl⟩

/-! ## The bounds of the decoder -/

theorem orAt_of_lt {res : List UInt8} {i : ℕ} (v : ℕ) (h : i < res.length) :
    orAt res i v = some (res.modify i (· ||| UInt8.ofNat v)) := if_pos h

private theorem orAt_of_ge {res : List UInt8} {i : ℕ} (v : ℕ) (h : res.length ≤ i) : orAt res i v = none :=
  if_neg (Nat.not_lt.mpr h)

/-- The six bits reach into the next byte from the second half of a byte on. -/
theorem orBits_of_lt {res : List UInt8} {o : ℕ} (c : ℕ) (ho : 2 ∣ o) (h : (o + 4) / 8 < res.length) :
    ∃ res', orBits res o c = some res' ∧ res'.length = res.length := by
  have hi : o / 8 < res.length := by omega
  have hnext (v : ℕ) (hm : 4 ≤ o % 8) : o / 8 + 1 < (res.modify (o / 8) (· ||| UInt8.ofNat v)).length := by
    rw [List.length_modify]
    omega
  have hmod : o % 8 = 0 ∨ o % 8 = 2 ∨ o % 8 = 4 ∨ o % 8 = 6 := by omega
  rcases hmod with hm | hm | hm | hm
  · simp [orBits, hm, orAt_of_lt _ hi]
  · simp [orBits, hm, orAt_of_lt _ hi]
  · simp [orBits, hm, orAt_of_lt _ hi, orAt_of_lt _ (hnext _ hm.ge)]
  · simp [orBits, hm, orAt_of_lt _ hi, orAt_of_lt _ (hnext _ (by omega))]

private theorem orBits_of_ge {res : List UInt8} {o : ℕ} (c : ℕ) (ho : 2 ∣ o) (h : res.length ≤ (o + 4) / 8) :
    orBits res o c = none := by
  have hmod : o % 8 = 0 ∨ o % 8 = 2 ∨ o % 8 = 4 ∨ o % 8 = 6 := by omega
  rcases Nat.lt_or_ge (o / 8) res.length with hi | hi
  · have hnext (v : ℕ) : (res.modify (o / 8) (· ||| UInt8.ofNat v)).length ≤ o / 8 + 1 := by
      rw [List.length_modify]
      omega
    rcases hmod with hm | hm | hm | hm
    · omega
    · omega
    · simp [orBits, hm, orAt_of_lt _ hi, orAt_of_ge _ (hnext _)]
    · simp [orBits, hm, orAt_of_lt _ hi, orAt_of_ge _ (hnext _)]
  · rcases hmod with hm | hm | hm | hm <;> simp [orBits, hm, orAt_of_ge _ hi]

theorem symbols_cons_of_nonneg {ch : UInt8} (hc : 0 ≤ unBase64 ch) (chars : List UInt8) :
    symbols (ch :: chars) = (unBase64 ch).toNat :: symbols chars := by
  have hpad : unBase64 ch ≠ -1 := by omega
  simp [symbols, hpad, hc]

private theorem decodeLoop_isSome (chars : List UInt8) (res : List UInt8) {o : ℕ} (ho : 2 ∣ o) (hlt : o < 2 ^ 32) :
    (decodeLoop chars res o).isSome ↔ ∀ k < (symbols chars).length, ((o + 6 * k) % 2 ^ 32 + 4) / 8 < res.length := by
  induction chars generalizing res o with
  | nil => simp [decodeLoop, symbols]
  | cons ch chars ih =>
    rw [decodeLoop]
    split_ifs with hc hpad
    · have hshift (k : ℕ) : ((o + 6) % 2 ^ 32 + 6 * k) % 2 ^ 32 = (o + 6 * (k + 1)) % 2 ^ 32 := by omega
      have hfirst : (o + 6 * 0) % 2 ^ 32 = o := Nat.mod_eq_of_lt hlt
      rw [symbols_cons_of_nonneg hc, List.length_cons, Nat.forall_lt_succ_left, hfirst]
      rcases Nat.lt_or_ge ((o + 4) / 8) res.length with hin | hout
      · obtain ⟨res', hres, hl⟩ := orBits_of_lt (unBase64 ch).toNat ho hin
        rw [hres, Option.bind_eq_bind, Option.bind_some, ih _ (by omega) (Nat.mod_lt _ (by decide)), hl]
        simp only [hshift, hin, true_and]
      · rw [orBits_of_ge _ ho hout]
        exact iff_of_false (by simp) fun h => absurd h.1 (Nat.not_lt.mpr hout)
    · have hsymbols : symbols (ch :: chars) = [] := by simp [symbols, hpad]
      simp [hsymbols]
    · have hsymbols : symbols (ch :: chars) = symbols chars := by simp [symbols, hpad, hc]
      rw [hsymbols]
      exact ih _ ho hlt

/-- The last byte that `m` characters reach. The cursor wraps behind 715827883 of them. -/
def lastByte (m : ℕ) : ℕ := (3 * min m 715827883 - 1) / 4

private theorem lastByte_lt_iff {m size : ℕ} (hsize : 0 < size) :
    (∀ k < m, ((0 + 6 * k) % 2 ^ 32 + 4) / 8 < size) ↔ lastByte m < size := by
  unfold lastByte
  constructor
  · intro h
    rcases Nat.eq_zero_or_pos m with rfl | hpos
    · simpa using hsize
    · have hlast := h (min m 715827883 - 1) (by omega)
      rw [Nat.zero_add, Nat.mod_eq_of_lt (by omega)] at hlast
      omega
  · intro h k hk
    omega

theorem decodesInBounds_iff (s : List UInt8) :
    DecodesInBounds s ↔ lastByte (symbols s).length < s.length * 4 % 2 ^ 32 / 3 + 5 := by
  rw [DecodesInBounds, ← Option.isSome_iff_exists, base64Decode, decodeLoop_isSome _ _ (by decide) (by decide),
    List.length_replicate]
  exact lastByte_lt_iff (by omega)

/-! ## The round trip -/

theorem or_ofNat {high low k : ℕ} (hlow : low < 2 ^ k) (hhigh : 2 ^ k ∣ high) :
    UInt8.ofNat high ||| UInt8.ofNat low = UInt8.ofNat (high + low) := by
  obtain ⟨q, rfl⟩ := hhigh
  rw [Nat.mul_comm, ← Nat.shiftLeft_eq, Nat.shiftLeft_add_eq_or_of_lt hlow, UInt8.ofNat_or]

theorem orAt_append (done zs : List UInt8) (x : UInt8) (v : ℕ) :
    orAt (done ++ x :: zs) done.length v = some (done ++ (x ||| UInt8.ofNat v) :: zs) := by
  rw [orAt_of_lt v (by simp)]
  exact congrArg some (List.modifyTailIdx_add _ 0 done (x :: zs))

theorem orAt_append_succ (done zs : List UInt8) (x y : UInt8) (v : ℕ) :
    orAt (done ++ x :: y :: zs) (done.length + 1) v = some (done ++ x :: (y ||| UInt8.ofNat v) :: zs) := by
  simpa using orAt_append (done ++ [x]) zs y v

theorem resize_append (done zs : List UInt8) {n : ℕ} (hn : n = done.length) : resize (done ++ zs) n = done := by
  subst hn
  simp [resize]

section Characters
variable {done zs chars : List UInt8} {x : UInt8} {i : ℕ}

theorem decodeLoop_of_lt {res res' : List UInt8} {o : ℕ} (hi : i < 64) (ho : o + 6 < 2 ^ 32)
    (hres : orBits res o i = some res') :
    decodeLoop (base64.getD i 0 :: chars) res o = decodeLoop chars res' (o + 6) := by
  rw [decodeLoop, (base64_lookup i hi).2, if_pos (Int.natCast_nonneg i), Nat.mod_eq_of_lt ho, Int.toNat_natCast, hres]
  rfl

theorem decodeLoop_pad (res : List UInt8) (o : ℕ) : decodeLoop (61 :: chars) res o = some (resize res (o / 8)) := rfl

theorem decodeLoop_zero (hi : i < 64) (hlt : 8 * done.length + 6 < 2 ^ 32) :
    decodeLoop (base64.getD i 0 :: chars) (done ++ 0 :: zs) (8 * done.length) =
      decodeLoop chars (done ++ UInt8.ofNat (4 * i) :: zs) (8 * done.length + 6) := by
  have hdiv : 8 * done.length / 8 = done.length := by omega
  have hmod : 8 * done.length % 8 = 0 := by omega
  apply decodeLoop_of_lt hi hlt
  simp only [orBits, hdiv, hmod, orAt_append, Nat.shiftLeft_eq, Nat.mul_comm i, UInt8.zero_or, Nat.reducePow]

theorem decodeLoop_six {high : ℕ} (hi : i < 64) (hhigh : 4 ∣ high) (hlt : 8 * done.length + 12 < 2 ^ 32) :
    decodeLoop (base64.getD i 0 :: chars) (done ++ UInt8.ofNat high :: 0 :: zs) (8 * done.length + 6) =
      decodeLoop chars (done ++ UInt8.ofNat (high + i / 16) :: UInt8.ofNat (16 * i) :: zs) (8 * done.length + 12) := by
  have hdiv : (8 * done.length + 6) / 8 = done.length := by omega
  have hmod : (8 * done.length + 6) % 8 = 6 := by omega
  have hlow : UInt8.ofNat high ||| UInt8.ofNat (i / 16) = UInt8.ofNat (high + i / 16) :=
    or_ofNat (k := 2) (by omega) hhigh
  apply decodeLoop_of_lt hi hlt
  simp only [orBits, hdiv, hmod, orAt_append, orAt_append_succ, Option.bind_eq_bind, Option.bind_some, Nat.shiftLeft_eq,
    Nat.shiftRight_eq_div_pow, Nat.mul_comm i, UInt8.zero_or, Nat.reducePow, hlow]

private theorem decodeLoop_four {high : ℕ} (hi : i < 64) (hhigh : 16 ∣ high) (hlt : 8 * done.length + 10 < 2 ^ 32) :
    decodeLoop (base64.getD i 0 :: chars) (done ++ UInt8.ofNat high :: 0 :: zs) (8 * done.length + 4) =
      decodeLoop chars (done ++ UInt8.ofNat (high + i / 4) :: UInt8.ofNat (64 * i) :: zs) (8 * done.length + 10) := by
  have hdiv : (8 * done.length + 4) / 8 = done.length := by omega
  have hmod : (8 * done.length + 4) % 8 = 4 := by omega
  have hlow : UInt8.ofNat high ||| UInt8.ofNat (i / 4) = UInt8.ofNat (high + i / 4) :=
    or_ofNat (k := 4) (by omega) hhigh
  apply decodeLoop_of_lt hi hlt
  simp only [orBits, hdiv, hmod, orAt_append, orAt_append_succ, Option.bind_eq_bind, Option.bind_some, Nat.shiftLeft_eq,
    Nat.shiftRight_eq_div_pow, Nat.mul_comm i, UInt8.zero_or, Nat.reducePow, hlow]

private theorem decodeLoop_two {high : ℕ} (hi : i < 64) (hhigh : 64 ∣ high) (hlt : 8 * done.length + 8 < 2 ^ 32) :
    decodeLoop (base64.getD i 0 :: chars) (done ++ UInt8.ofNat high :: zs) (8 * done.length + 2) =
      decodeLoop chars (done ++ UInt8.ofNat (high + i) :: zs) (8 * done.length + 8) := by
  have hdiv : (8 * done.length + 2) / 8 = done.length := by omega
  have hmod : (8 * done.length + 2) % 8 = 2 := by omega
  apply decodeLoop_of_lt hi hlt
  simp only [orBits, hdiv, hmod, orAt_append, or_ofNat (k := 6) hi hhigh]

/-- The character that ends a byte, with the bits of the next one. -/
theorem decodeLoop_first (a : UInt8) {low : ℕ} (hlow : low < 16) (hlt : 8 * done.length + 12 < 2 ^ 32) :
    decodeLoop (base64.getD (a.toNat / 4) 0 :: base64.getD (a.toNat % 4 * 16 + low) 0 :: chars) (done ++ 0 :: 0 :: zs)
      (8 * done.length) =
    decodeLoop chars ((done ++ [a]) ++ UInt8.ofNat (16 * low) :: zs) (8 * (done ++ [a]).length + 4) := by
  have ha := a.toNat_lt
  have hbyte : UInt8.ofNat (4 * (a.toNat / 4) + (a.toNat % 4 * 16 + low) / 16) = a := by
    rw [show 4 * (a.toNat / 4) + (a.toNat % 4 * 16 + low) / 16 = a.toNat by omega, UInt8.ofNat_toNat]
  have hnext : UInt8.ofNat (16 * (a.toNat % 4 * 16 + low)) = UInt8.ofNat (16 * low) := by
    apply UInt8.toNat_inj.mp
    rw [UInt8.toNat_ofNat', UInt8.toNat_ofNat']
    omega
  rw [decodeLoop_zero (by omega) (by omega), decodeLoop_six (by omega) (by omega) (by omega), hbyte, hnext,
    List.append_cons, List.length_append, List.length_singleton, Nat.mul_add]

theorem decodeLoop_second (b : UInt8) {low : ℕ} (hlow : low < 4) (hlt : 8 * done.length + 12 < 2 ^ 32) :
    decodeLoop (base64.getD (b.toNat % 16 * 4 + low) 0 :: chars)
      (done ++ UInt8.ofNat (16 * (b.toNat / 16)) :: 0 :: zs) (8 * done.length + 4) =
    decodeLoop chars ((done ++ [b]) ++ UInt8.ofNat (64 * low) :: zs) (8 * (done ++ [b]).length + 2) := by
  have hb := b.toNat_lt
  have hbyte : UInt8.ofNat (16 * (b.toNat / 16) + (b.toNat % 16 * 4 + low) / 4) = b := by
    rw [show 16 * (b.toNat / 16) + (b.toNat % 16 * 4 + low) / 4 = b.toNat by omega, UInt8.ofNat_toNat]
  have hnext : UInt8.ofNat (64 * (b.toNat % 16 * 4 + low)) = UInt8.ofNat (64 * low) := by
    apply UInt8.toNat_inj.mp
    rw [UInt8.toNat_ofNat', UInt8.toNat_ofNat']
    omega
  rw [decodeLoop_four (by omega) (by omega) (by omega), hbyte, hnext, List.append_cons, List.length_append,
    List.length_singleton, Nat.mul_add]

theorem decodeLoop_third (c : UInt8) (hlt : 8 * done.length + 12 < 2 ^ 32) :
    decodeLoop (base64.getD (c.toNat % 64) 0 :: chars) (done ++ UInt8.ofNat (64 * (c.toNat / 64)) :: zs)
      (8 * done.length + 2) = decodeLoop chars ((done ++ [c]) ++ zs) (8 * (done ++ [c]).length) := by
  have hbyte : UInt8.ofNat (64 * (c.toNat / 64) + c.toNat % 64) = c := by
    rw [Nat.div_add_mod, UInt8.ofNat_toNat]
  rw [decodeLoop_two (by omega) (by omega) (by omega), hbyte, List.append_cons, List.length_append,
    List.length_singleton, Nat.mul_add]

end Characters

theorem and_63 (x : ℕ) : x &&& 63 = x % 64 := Nat.and_two_pow_sub_one_eq_mod x 6

theorem shifted_four (a b : UInt8) :
    (a.toNat <<< 4 ||| b.toNat >>> 4) &&& 63 = a.toNat % 4 * 16 + b.toNat / 16 := by
  have hb := b.toNat_lt
  rw [Nat.shiftRight_eq_div_pow, ← Nat.shiftLeft_add_eq_or_of_lt (by omega), and_63, Nat.shiftLeft_eq]
  omega

theorem shifted_two (b c : UInt8) :
    (b.toNat <<< 2 ||| c.toNat >>> 6) &&& 63 = b.toNat % 16 * 4 + c.toNat / 64 := by
  have hc := c.toNat_lt
  rw [Nat.shiftRight_eq_div_pow, ← Nat.shiftLeft_add_eq_or_of_lt (by omega), and_63, Nat.shiftLeft_eq]
  omega

private theorem base64Chars_cons (a b c : UInt8) (rest : List UInt8) : base64Chars (a :: b :: c :: rest) =
    base64.getD (a.toNat / 4) 0 :: base64.getD (a.toNat % 4 * 16 + b.toNat / 16) 0 ::
      base64.getD (b.toNat % 16 * 4 + c.toNat / 64) 0 :: base64.getD (c.toNat % 64) 0 :: base64Chars rest := by
  have hpad : (3 - (a :: b :: c :: rest).length % 3) % 3 = (3 - rest.length % 3) % 3 := by
    simp only [List.length_cons]
    omega
  simp only [base64Chars, base64Indices, hpad, shifted_four, shifted_two, List.map_cons, List.cons_append]
  simp only [and_63, Nat.shiftRight_eq_div_pow, Nat.reducePow]

private theorem base64Chars_pair (a b : UInt8) : base64Chars [a, b] = [base64.getD (a.toNat / 4) 0,
    base64.getD (a.toNat % 4 * 16 + b.toNat / 16) 0, base64.getD (b.toNat % 16 * 4 + 0) 0, 61] := by
  have htwo : b.toNat <<< 2 &&& 63 = b.toNat % 16 * 4 + 0 := by simpa using shifted_two b 0
  simp only [base64Chars, base64Indices, shifted_four, htwo]
  simp only [Nat.shiftRight_eq_div_pow, Nat.reducePow]
  rfl

private theorem base64Chars_single (a : UInt8) :
    base64Chars [a] = [base64.getD (a.toNat / 4) 0, base64.getD (a.toNat % 4 * 16 + 0) 0, 61, 61] := by
  have hfour : a.toNat <<< 4 &&& 63 = a.toNat % 4 * 16 + 0 := by simpa using shifted_four a 0
  simp only [base64Chars, base64Indices, hfour, Nat.shiftRight_eq_div_pow, Nat.reducePow]
  rfl

/-- The bits of four characters are the three bytes. -/
theorem decodeLoop_chars {s done : List UInt8} {n : ℕ} (hroom : s.length < n)
    (hlt : 8 * (done.length + s.length) < 2 ^ 32) :
    decodeLoop (base64Chars s) (done ++ List.replicate n 0) (8 * done.length) = some (done ++ s) := by
  induction s using base64Indices.induct generalizing done n with
  | case1 a b c rest ih =>
    obtain ⟨k, rfl⟩ : ∃ k, n = k + 3 := ⟨n - 3, by simp at hroom; omega⟩
    simp only [List.length_cons] at hroom hlt
    have hb := b.toNat_lt
    have hc := c.toNat_lt
    rw [base64Chars_cons, List.replicate_succ, List.replicate_succ, List.replicate_succ,
      decodeLoop_first a (by omega) (by omega), decodeLoop_second b (by omega) (by simp; omega),
      decodeLoop_third c (by simp; omega), ih (by omega) (by simp; omega)]
    simp
  | case2 a b =>
    obtain ⟨k, rfl⟩ : ∃ k, n = k + 3 := ⟨n - 3, by simp at hroom; omega⟩
    simp only [List.length_cons] at hroom hlt
    have hb := b.toNat_lt
    rw [base64Chars_pair, List.replicate_succ, List.replicate_succ, List.replicate_succ,
      decodeLoop_first a (by omega) (by omega), decodeLoop_second b (by omega) (by simp; omega), decodeLoop_pad,
      resize_append _ _ (by omega)]
    simp
  | case3 a =>
    obtain ⟨k, rfl⟩ : ∃ k, n = k + 2 := ⟨n - 2, by simp at hroom; omega⟩
    simp only [List.length_cons] at hroom hlt
    rw [base64Chars_single, List.replicate_succ, List.replicate_succ, decodeLoop_first a (by omega) (by omega),
      decodeLoop_pad, resize_append _ _ (by omega)]
  | case4 =>
    have hchars : base64Chars [] = [] := by simp [base64Chars, base64Indices]
    rw [hchars, decodeLoop, resize_append _ _ (by omega), List.append_nil]

private theorem length_resize (res : List UInt8) (n : ℕ) : (resize res n).length = n := by
  simp only [resize, List.length_append, List.length_take, List.length_replicate]
  omega

/-- What is decoded is shorter than `2 ^ 29` bytes, as the cursor counts bits. -/
theorem length_decodeLoop {chars res res' : List UInt8} {o : ℕ} (hlt : o < 2 ^ 32)
    (h : decodeLoop chars res o = some res') : res'.length < 2 ^ 29 := by
  have hresize : (resize res (o / 8)).length < 2 ^ 29 := by
    rw [length_resize]
    omega
  induction chars generalizing res o with
  | nil =>
    rw [decodeLoop, Option.some.injEq] at h
    rwa [← h]
  | cons ch chars ih =>
    rw [decodeLoop] at h
    split_ifs at h with hc hpad
    · obtain ⟨r, -, hr⟩ := Option.bind_eq_some_iff.mp h
      have hlt' : (o + 6) % 2 ^ 32 < 2 ^ 32 := Nat.mod_lt _ (by decide)
      exact ih hlt' hr (by rw [length_resize]; omega)
    · rwa [← Option.some.inj h]
    · exact ih hlt h hresize

private theorem roundTrips_iff (s : List UInt8) : RoundTrips s ↔ s.length < 2 ^ 29 := by
  constructor
  · rintro ⟨e, -, hd⟩
    exact length_decodeLoop (by decide) hd
  · intro hlt
    have hlen := length_base64Chars s
    have hroom : s.length < (base64Chars s).length * 4 % 2 ^ 32 / 3 + 5 := by omega
    have hdecode : base64Decode (base64Chars s) = some s := @decodeLoop_chars s [] _ hroom (by simp; omega)
    exact ⟨_, base64Encode_of_le (by omega), hdecode⟩

/-- A string goes through the encoder and the decoder exactly if it is shorter than `2 ^ 29` bytes. The encoder
fills its buffer exactly up to the length at which the size of the buffer needs 33 bits, and the decoder stays in
its buffer exactly if the last byte that it reaches is there. -/
theorem base64_iff (s : List UInt8) :
    (RoundTrips s ↔ s.length < 2 ^ 29) ∧ (EncodesExactly s ↔ s.length ≤ 3 * 2 ^ 30 - 3) ∧
      (∀ i ∈ base64Indices s, i < 64) ∧
      (DecodesInBounds s ↔ lastByte (symbols s).length < s.length * 4 % 2 ^ 32 / 3 + 5) :=
  ⟨roundTrips_iff s, encodesExactly_iff s, base64Indices_lt s, decodesInBounds_iff s⟩

private theorem symbols_replicate (n : ℕ) : symbols (List.replicate n 65) = List.replicate n 0 := by
  induction n with
  | zero => rfl
  | succ n ih =>
    have hnonneg : 0 ≤ unBase64 65 := by decide
    rw [List.replicate_succ, symbols_cons_of_nonneg hnonneg, ih]
    rfl

/-- For `2 ^ 30` letters the decoder allocates five bytes. -/
theorem not_base64 : ¬ ∀ s : List UInt8, s.length < 2 ^ 32 →
    RoundTrips s ∧ EncodesExactly s ∧ (∀ i ∈ base64Indices s, i < 64) ∧ DecodesInBounds s := by
  intro hall
  have hlen : (List.replicate (2 ^ 30) (65 : UInt8)).length = 2 ^ 30 := List.length_replicate
  have hbounds := (hall (List.replicate (2 ^ 30) 65) (by rw [hlen]; decide)).2.2.2
  rw [decodesInBounds_iff, symbols_replicate, hlen, List.length_replicate] at hbounds
  exact absurd hbounds (by decide)

end Sfup.Common
