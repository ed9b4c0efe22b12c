import Sfup.Client.Md5

/-! The digest of a message does not depend on how it is cut into calls of `update`. -/
namespace Sfup.Client.MD5
open Sfup.Blocks

def le64 (n : ℕ) : List UInt8 := (List.range 8).map fun k => UInt8.ofNat (n / 256 ^ k)

/-- The message with a one bit, zeros up to 56 bytes modulo 64, and its number of bits. -/
def pad (msg : List UInt8) : List UInt8 :=
  msg ++ 0x80 :: List.replicate ((119 - msg.length % 64) % 64) 0 ++ le64 (8 * msg.length)

/-- The state before the first block. -/
def initial : MD5State := ⟨0x67452301, 0xefcdab89, 0x98badcfe, 0x10325476⟩

/-- The words of a state. -/
def words (s : MD5State) : List UInt32 := [s.a, s.b, s.c, s.d]

/-- The number of bits of `n` bytes modulo 2^64, low-order word first. -/
def bitCount (n : ℕ) : UInt32 × UInt32 := (UInt32.ofNat (8 * n), UInt32.ofNat (8 * n / 2 ^ 32))

/-- The object has taken in the message: the full blocks are in the state, and the buffer starts with the rest. -/
structure Absorbed (m : MD5) (msg : List UInt8) : Prop where
  state : m.state = (blocks 64 msg).foldl transform initial
  count : m.count = bitCount msg.length
  buffer : m.buffer.1.take (msg.length % 64) = rest 64 msg

section Counting
variable {n k : ℕ}

theorem addCount_bitCount (hk : k < 2 ^ 32) : addCount (bitCount n) (UInt32.ofNat k) = bitCount (n + k) := by
  have hlow : (UInt32.ofNat k <<< 3).toNat = 8 * k % 2 ^ 32 := by
    rw [UInt32.toNat_shiftLeft, UInt32.toNat_ofNat_of_lt' hk]
    simp [Nat.shiftLeft_eq, Nat.mul_comm]
  have hhigh : (UInt32.ofNat k >>> 29).toNat = k / 2 ^ 29 := by
    rw [UInt32.toNat_shiftRight, UInt32.toNat_ofNat_of_lt' hk]
    simp [Nat.shiftRight_eq_div_pow]
  have hsum : (UInt32.ofNat (8 * n) + UInt32.ofNat k <<< 3).toNat = (8 * n + 8 * k) % 2 ^ 32 := by
    rw [UInt32.toNat_add, UInt32.toNat_ofNat', hlow]
    omega
  unfold addCount bitCount
  refine Prod.ext (UInt32.toNat_inj.mp ?_) (UInt32.toNat_inj.mp ?_)
  · rw [hsum, UInt32.toNat_ofNat']
    omega
  · simp only [UInt32.lt_iff_toNat_lt, hsum, hlow]
    split_ifs with h
    · simp only [UInt32.toNat_add, UInt32.toNat_ofNat', hhigh, UInt32.toNat_one]
      omega
    · simp only [UInt32.toNat_add, UInt32.toNat_ofNat', hhigh]
      omega

private theorem toNat_index (n : ℕ) : ((UInt32.ofNat (8 * n) >>> 3) &&& 0x3f).toNat = n % 64 := by
  have hmask : (0x3f : UInt32).toNat = 2 ^ 6 - 1 := rfl
  rw [UInt32.toNat_and, UInt32.toNat_shiftRight, UInt32.toNat_ofNat', hmask, Nat.and_two_pow_sub_one_eq_mod]
  simp only [Nat.shiftRight_eq_div_pow, UInt32.reduceToNat, Nat.reduceMod, Nat.reducePow]
  omega

private theorem toUInt8_and (w : UInt32) : (w &&& 0xff).toUInt8 = UInt8.ofNat w.toNat := by
  have hmask : (0xff : UInt32).toNat = 2 ^ 8 - 1 := rfl
  rw [← UInt8.toNat_inj, UInt32.toNat_toUInt8, UInt32.toNat_and, hmask, Nat.and_two_pow_sub_one_eq_mod,
    UInt8.toNat_ofNat', Nat.mod_mod]

private theorem encodeWord_ofNat (n : ℕ) : encodeWord (UInt32.ofNat n) =
    (List.range 4).map fun k => UInt8.ofNat (n / 256 ^ k) := by
  simp only [encodeWord, toUInt8_and, List.range, List.range.loop, List.map_cons, List.map_nil, List.cons.injEq,
    and_true, ← UInt8.toNat_inj, UInt32.toNat_shiftRight, UInt32.toNat_ofNat', UInt8.toNat_ofNat',
    Nat.shiftRight_eq_div_pow, UInt32.reduceToNat, Nat.reduceMod, Nat.reducePow]
  omega

theorem encode_bitCount (n : ℕ) : encode [(bitCount n).1, (bitCount n).2] = le64 (8 * n) := by
  simp only [encode, bitCount, List.flatMap_cons, List.flatMap_nil, encodeWord_ofNat, List.append_nil, le64, List.range,
    List.range.loop, List.map_cons, List.map_nil, List.cons_append, List.nil_append, Nat.div_div_eq_div_mul,
    Nat.reducePow, Nat.reduceMul]

end Counting

section Absorbing
variable {m : MD5} {msg input : List UInt8}

theorem absorbed_reset (m : MD5) : Absorbed m.reset [] := ⟨rfl, rfl, rfl⟩

theorem Absorbed.index_eq (h : Absorbed m msg) : m.index = msg.length % 64 := by
  rw [index, h.count]
  exact toNat_index msg.length

/-- The loop takes all full blocks from `i` on, as the sum `i + 63` does not wrap. -/
theorem transformLoop_eq {fuel i : ℕ} (state : MD5State) (hlen : input.length < 2 ^ 32 - 64) (hi : i ≤ input.length)
    (hfuel : input.length < i + fuel) : transformLoop input fuel i state =
      some (i + (input.length - i) / 64 * 64, (blocks 64 (input.drop i)).foldl transform state) := by
  induction fuel generalizing i state with
  | zero => omega
  | succ fuel ih =>
    rw [transformLoop, Nat.mod_eq_of_lt (show i + 63 < 2 ^ 32 by omega)]
    split_ifs with h₁ h₂
    · have hdrop : 0 + 64 ≤ (input.drop i).length := by rw [List.length_drop]; omega
      rw [ih _ h₂ (by omega), blocks_of_le (by decide) hdrop, List.foldl_cons, List.drop_drop]
      refine congrArg some (Prod.ext (by omega) ?_)
      rfl
    · omega
    · have hshort : (input.drop i).length < 64 := by rw [List.length_drop]; omega
      rw [blocks_of_lt hshort, List.foldl_nil]
      exact congrArg some (Prod.ext (by omega) rfl)

theorem copyTo_eq {n index : ℕ} (dst : Block UInt8 n) (input : List UInt8) (h : index + input.length ≤ n) :
    ∃ dst', copyTo dst index input = some dst' ∧
      dst'.1 = dst.1.take index ++ input ++ dst.1.drop (index + input.length) := by
  rw [copyTo, dif_pos h]
  exact ⟨_, rfl, rfl⟩

theorem take_rest {buffer tail : List UInt8} (h : buffer = rest 64 msg ++ tail) :
    buffer.take (msg.length % 64) = rest 64 msg := by
  rw [h, ← length_rest, List.take_left]

/-- The input that fills the buffer. -/
theorem Absorbed.update_of_le (h : Absorbed m msg) (hlen : input.length < 2 ^ 32 - 64)
    (hfill : 64 - m.index ≤ input.length) : ∃ m', m.update input = some m' ∧ m'.finished = false ∧ Absorbed m' (msg ++ input) := by
  have hindex := h.index_eq
  have hlt : m.index < 64 := hindex ▸ Nat.mod_lt _ (by decide)
  have htake : (input.take (64 - m.index)).length = 64 - m.index := by rw [List.length_take]; omega
  obtain ⟨full, hfull, hbytes⟩ := copyTo_eq m.buffer (input.take (64 - m.index)) (show m.index + _ ≤ 64 by omega)
  have hbytes : full.1 = rest 64 msg ++ input.take (64 - m.index) := by
    rw [hbytes, List.drop_of_length_le (by rw [m.buffer.2]; omega), List.append_nil, hindex, h.buffer]
  have hblock : (rest 64 msg ++ input.take (64 - m.index)).length = 64 := hbytes ▸ full.2
  obtain ⟨hblocks, hrest⟩ := append_of_eq (b := input.drop (64 - m.index)) (by decide) hblock
  rw [List.take_append_drop] at hblocks hrest
  have hloop := transformLoop_eq (transform m.state full) hlen hfill
    (show input.length < 64 - m.index + (input.length + 1) by omega)
  have hleft : input.drop (64 - m.index + (input.length - (64 - m.index)) / 64 * 64) = rest 64 (msg ++ input) := by
    rw [hrest, rest, List.length_drop, List.drop_drop]
  obtain ⟨buffer, hbuffer, hcopy⟩ := copyTo_eq full (rest 64 (msg ++ input))
    (show 0 + _ ≤ 64 by rw [Nat.zero_add]; exact (rest_length_lt (by decide)).le)
  simp only [MD5.update, if_pos hfill, hfull, Option.bind_eq_bind, Option.bind_some, hloop, hleft, hbuffer]
  refine ⟨_, rfl, rfl, ?_, ?_, take_rest (by simpa using hcopy)⟩
  · rw [hblocks, List.foldl_append, List.foldl_cons, ← h.state]
    exact congrArg (fun b => List.foldl transform (transform m.state b) _) (Subtype.ext hbytes)
  · rw [h.count, addCount_bitCount (by omega), List.length_append]

theorem Absorbed.update_of_lt (h : Absorbed m msg) (hlen : input.length < 2 ^ 32 - 64)
    (hroom : input.length < 64 - m.index) : ∃ m', m.update input = some m' ∧ m'.finished = false ∧ Absorbed m' (msg ++ input) := by
  have hindex := h.index_eq
  obtain ⟨buffer, hbuffer, hcopy⟩ := copyTo_eq m.buffer input (show m.index + _ ≤ 64 by omega)
  obtain ⟨hblocks, hrest⟩ := append_of_lt (l := msg) (b := input) (show 0 < 64 by decide)
    (by rw [length_rest]; omega)
  simp only [MD5.update, if_neg (Nat.not_le_of_lt hroom), hbuffer, Option.bind_eq_bind, Option.bind_some]
  refine ⟨_, rfl, rfl, ?_, ?_, take_rest (?_ : buffer.1 = _ ++ m.buffer.1.drop (m.index + input.length))⟩
  · rw [hblocks]
    exact h.state
  · rw [h.count, addCount_bitCount (by omega), List.length_append]
  · rw [hrest, hcopy, hindex, h.buffer]

/-- One call adds its input to the message. -/
theorem Absorbed.update (h : Absorbed m msg) (hlen : input.length < 2 ^ 32 - 64) :
    ∃ m', m.update input = some m' ∧ m'.finished = false ∧ Absorbed m' (msg ++ input) := by
  rcases Nat.lt_or_ge input.length (64 - m.index) with hroom | hfill
  · exact h.update_of_lt hlen hroom
  · exact h.update_of_le hlen hfill

theorem Absorbed.updates {chunks : List (List UInt8)} (h : Absorbed m msg) (hf : m.finished = false)
    (hc : ∀ c ∈ chunks, c.length < 2 ^ 32 - 64) :
    ∃ m', chunks.foldlM MD5.update m = some m' ∧ m'.finished = false ∧ Absorbed m' (msg ++ chunks.flatten) := by
  induction chunks generalizing m msg with
  | nil => exact ⟨m, rfl, hf, by simpa using h⟩
  | cons c chunks ih =>
    obtain ⟨m₁, h₁, hf₁, habs₁⟩ := h.update (hc c List.mem_cons_self)
    obtain ⟨m₂, h₂, hf₂, habs₂⟩ := ih habs₁ hf₁ fun c hc' => hc c (List.mem_cons_of_mem _ hc')
    refine ⟨m₂, ?_, hf₂, ?_⟩
    · rw [List.foldlM_cons, h₁]
      exact h₂
    · rwa [List.flatten_cons, ← List.append_assoc]

/-- The padding that `final` adds. -/
theorem take_padding {n : ℕ} (h : n < 64) :
    padding.take (if n < 56 then 56 - n else 120 - n) = 0x80 :: List.replicate ((119 - n) % 64) 0 := by
  have hlen : (if n < 56 then 56 - n else 120 - n) = (119 - n) % 64 + 1 := by
    split_ifs <;> omega
  rw [hlen, padding, List.take_succ_cons, List.take_replicate]
  congr 2
  omega

theorem Absorbed.final (h : Absorbed m msg) : ∃ m', m.final = some m' ∧
    m'.messageDigest.1 = encode (words ((blocks 64 (pad msg)).foldl transform initial)) := by
  have hindex := h.index_eq
  have hlt : m.index < 64 := hindex ▸ Nat.mod_lt _ (by decide)
  have hbits : encode [m.count.1, m.count.2] = le64 (8 * msg.length) := by rw [h.count, encode_bitCount]
  have hzeros : (0x80 :: List.replicate ((119 - m.index) % 64) 0 : List UInt8).length < 2 ^ 32 - 64 := by
    rw [List.length_cons, List.length_replicate]
    omega
  obtain ⟨m₁, h₁, -, habs₁⟩ := h.update hzeros
  obtain ⟨m₂, h₂, -, habs₂⟩ := habs₁.update (show (le64 (8 * msg.length)).length < 2 ^ 32 - 64 by simp [le64])
  simp only [MD5.final, take_padding hlt, hbits, h₁, h₂, Option.bind_eq_bind, Option.bind_some]
  refine ⟨_, rfl, ?_⟩
  rw [pad, ← hindex, ← habs₂.state]
  rfl

theorem dvd_length_pad (msg : List UInt8) : 64 ∣ (pad msg).length := by
  simp only [pad, le64, List.length_append, List.length_cons, List.length_replicate, List.length_map, List.length_range]
  omega

/-- However a message is cut into calls of `update` after a `reset`, the first digest is that of the padded
message, block by block. -/
theorem digest_updates (m : MD5) (chunks : List (List UInt8)) (hc : ∀ c ∈ chunks, c.length < 2 ^ 32 - 64) :
    64 ∣ (pad chunks.flatten).length ∧ (chunks.foldlM MD5.update m.reset >>= MD5.digest).map (fun r => r.1.1) =
      some (encode (words ((blocks 64 (pad chunks.flatten)).foldl transform initial))) := by
  obtain ⟨m₁, h₁, hf, habs⟩ := (absorbed_reset m).updates rfl hc
  have hdone : Absorbed { m₁ with finished := true } chunks.flatten := ⟨habs.state, habs.count, habs.buffer⟩
  obtain ⟨m₂, h₂, hdigest⟩ := hdone.final
  refine ⟨dvd_length_pad _, ?_⟩
  simp only [h₁, Option.bind_eq_bind, Option.bind_some, MD5.digest, hf, Bool.false_eq_true, if_false, h₂]
  exact congrArg some hdigest

/-- An object whose memory is zero before the constructor resets it. -/
def zeroed : MD5 := ⟨⟨0, 0, 0, 0⟩, (0, 0), ⟨List.replicate 64 0, rfl⟩, ⟨List.replicate 16 0, rfl⟩, false⟩

/-- The message `abc`, in two calls. -/
theorem digest_updates_abc : (∀ c ∈ [[0x61], [0x62, 0x63]], (c : List UInt8).length < 2 ^ 32 - 64) ∧
    ([[0x61], [0x62, 0x63]].foldlM MD5.update zeroed.reset >>= MD5.digest).map (fun r => r.1.1) =
      some [0x90, 0x01, 0x50, 0x98, 0x3c, 0xd2, 0x4f, 0xb0, 0xd6, 0x96, 0x3f, 0x7d, 0x28, 0xe1, 0x7f, 0x72] := by
  have hc : ∀ c ∈ [[0x61], [0x62, 0x63]], (c : List UInt8).length < 2 ^ 32 - 64 := by decide
  refine ⟨hc, (digest_updates zeroed _ hc).2.trans ?_⟩
  decide +kernel

end Absorbing
end Sfup.Client.MD5
