import Sfup.Client.Md5Spec
import Sfup.Lib.Transition

/-! Digests between calls of `update`: `final` puts the state and the count back and leaves its own bytes in the
buffer, and the calls of `update` in it clear `_finished`, so every `digest` computes again. -/
namespace Sfup.Client.MD5
open Sfup.Blocks Sfup.Transition

/-- A call on the object. -/
inductive Call
  | update (input : List UInt8)
  | digest
deriving DecidableEq, Repr

def Call.exec (m : MD5) : Call → Option (Option (List UInt8) × MD5)
  | .update input => (m.update input).map fun m' => (none, m')
  | .digest => m.digest.map fun r => (some r.1.1, r.2)

def Call.isUpdate : Call → Bool
  | .update _ => true
  | .digest => false

/-- After the calls two digests give the same bytes, and these are also the digest without the earlier digests. -/
def IsObservation (m : MD5) (calls : List Call) : Prop :=
  ∃ outs outs' m₁ m₂ m₃ m₄ m₅ d, run? Call.exec m.reset calls = some (outs, m₁) ∧
    m₁.digest = some (d, m₂) ∧ m₂.digest = some (d, m₃) ∧
    run? Call.exec m.reset (calls.filter Call.isUpdate) = some (outs', m₄) ∧ m₄.digest = some (d, m₅)

/-- What `final` leaves at the front of the buffer, where the rest of the message was. -/
def leftBehind (msg : List UInt8) : List UInt8 :=
  if msg.length % 64 < 56 then rest 64 msg
  else (List.replicate 56 0 ++ le64 (8 * msg.length)).take (msg.length % 64)

/-- Each digest is taken where the rest of the message stays in the buffer, and no input is so long that the sum
in the loop of `update` wraps. -/
def Keeps : List UInt8 → List Call → Prop
  | _, [] => True
  | msg, .update input :: calls => input.length < 2 ^ 32 - 64 ∧ Keeps (msg ++ input) calls
  | msg, .digest :: calls => leftBehind msg = rest 64 msg ∧ Keeps msg calls

instance Keeps.instDecidable : ∀ (msg : List UInt8) (calls : List Call), Decidable (Keeps msg calls)
  | _, [] => isTrue trivial
  | msg, .update input :: calls =>
    have := Keeps.instDecidable (msg ++ input) calls
    inferInstanceAs (Decidable (_ ∧ _))
  | msg, .digest :: calls =>
    have := Keeps.instDecidable msg calls
    inferInstanceAs (Decidable (_ ∧ _))

section Buffers
variable {m m' : MD5} {msg input : List UInt8}

private theorem buffer_update_of_lt (h : m.update input = some m') (hroom : input.length < 64 - m.index) :
    m'.buffer.1 = m.buffer.1.take m.index ++ input ++ m.buffer.1.drop (m.index + input.length) := by
  obtain ⟨buffer, hbuffer, hcopy⟩ := copyTo_eq m.buffer input (show m.index + _ ≤ 64 by omega)
  simp only [MD5.update, if_neg (Nat.not_le_of_lt hroom), hbuffer, Option.bind_eq_bind, Option.bind_some,
    Option.pure_def, Option.some.injEq] at h
  rw [← h]
  exact hcopy

theorem buffer_update_of_le (h : m.update input = some m') (hfill : 64 - m.index ≤ input.length)
    (hi : m.index < 64) (hlt : input.length < 128 - m.index) :
    m'.buffer.1 = input.drop (64 - m.index) ++
      (m.buffer.1.take m.index ++ input.take (64 - m.index)).drop (input.length - (64 - m.index)) := by
  have htake : (input.take (64 - m.index)).length = 64 - m.index := by rw [List.length_take]; omega
  have hleft : (input.drop (64 - m.index)).length = input.length - (64 - m.index) := List.length_drop
  obtain ⟨full, hfull, hbytes⟩ := copyTo_eq m.buffer (input.take (64 - m.index)) (show m.index + _ ≤ 64 by omega)
  rw [List.drop_of_length_le (by rw [m.buffer.2]; omega), List.append_nil] at hbytes
  have hloop := transformLoop_eq (transform m.state full) (show input.length < 2 ^ 32 - 64 by omega) hfill
    (show input.length < 64 - m.index + (input.length + 1) by omega)
  rw [show 64 - m.index + (input.length - (64 - m.index)) / 64 * 64 = 64 - m.index by omega] at hloop
  obtain ⟨buffer, hbuffer, hcopy⟩ := copyTo_eq full (input.drop (64 - m.index)) (show 0 + _ ≤ 64 by omega)
  simp only [MD5.update, if_pos hfill, hfull, Option.bind_eq_bind, Option.bind_some, hloop, hbuffer,
    Option.pure_def, Option.some.injEq] at h
  rw [← h]
  simpa [hbytes, hleft] using hcopy

private theorem length_le64 (n : ℕ) : (le64 n).length = 8 := by simp [le64]

/-- The first 56 bytes of the buffer when the number of bits follows in `final`. -/
theorem Absorbed.buffer_padded (h : Absorbed m msg)
    (hu : m.update (0x80 :: List.replicate ((119 - m.index) % 64) 0) = some m') :
    (m'.buffer.1.take 56).take (msg.length % 64) = if msg.length % 64 < 56 then rest 64 msg
      else (List.replicate 56 0).take (msg.length % 64) := by
  have hindex := h.index_eq
  have hlt : msg.length % 64 < 64 := Nat.mod_lt _ (by decide)
  have hlen : (0x80 :: List.replicate ((119 - m.index) % 64) 0 : List UInt8).length = (119 - m.index) % 64 + 1 := by
    rw [List.length_cons, List.length_replicate]
  have hrest : (rest 64 msg).length = msg.length % 64 := length_rest
  split_ifs with hroom
  · rw [buffer_update_of_lt hu (by omega), hindex, h.buffer, List.append_assoc, List.take_take,
      Nat.min_eq_left hroom.le, ← hrest, List.take_left]
  · have hzeros : (0x80 :: List.replicate ((119 - m.index) % 64) 0 : List UInt8).drop (64 - m.index) =
        List.replicate 56 0 := by
      obtain ⟨k, hk⟩ : ∃ k, 64 - m.index = k + 1 := ⟨63 - m.index, by omega⟩
      rw [hk, List.drop_succ_cons, List.drop_replicate, show (119 - m.index) % 64 - k = 56 by omega]
    rw [buffer_update_of_le hu (by omega) (by omega) (by omega), hzeros]
    exact congrArg (List.take _) (List.take_left' List.length_replicate)

/-- What `final` does to the object, apart from the digest. -/
theorem Absorbed.frame_final (h : Absorbed m msg) (hf : m.final = some m') :
    m'.state = m.state ∧ m'.count = m.count ∧ m'.finished = false ∧
      m'.buffer.1.take (msg.length % 64) = leftBehind msg := by
  have hindex := h.index_eq
  have hlt : m.index < 64 := hindex ▸ Nat.mod_lt _ (by decide)
  have hbits : encode [m.count.1, m.count.2] = le64 (8 * msg.length) := by rw [h.count, encode_bitCount]
  have hzeros : (0x80 :: List.replicate ((119 - m.index) % 64) 0 : List UInt8).length < 2 ^ 32 - 64 := by
    rw [List.length_cons, List.length_replicate]
    omega
  obtain ⟨m₁, h₁, -, habs₁⟩ := h.update hzeros
  obtain ⟨m₂, h₂, hf₂, -⟩ := habs₁.update (show (le64 (8 * msg.length)).length < 2 ^ 32 - 64 by simp [le64])
  have hindex₁ : m₁.index = 56 := by
    rw [habs₁.index_eq, List.length_append, List.length_cons, List.length_replicate]
    omega
  have hbuffer₂ : m₂.buffer.1 = m₁.buffer.1.take 56 ++ le64 (8 * msg.length) := by
    rw [buffer_update_of_le h₂ (by rw [hindex₁, length_le64]) (by omega) (by rw [hindex₁, length_le64]; omega), hindex₁,
      length_le64, List.drop_of_length_le (length_le64 _).le, List.take_of_length_le (length_le64 _).le]
    rfl
  simp only [MD5.final, take_padding hlt, hbits, h₁, h₂, Option.bind_eq_bind, Option.bind_some, Option.pure_def,
    Option.some.injEq] at hf
  rw [← hf]
  refine ⟨rfl, rfl, hf₂, ?_⟩
  have hpadded := h.buffer_padded h₁
  have hl : (m₁.buffer.1.take 56).length = 56 := by rw [List.length_take, m₁.buffer.2]; rfl
  rw [hbuffer₂, leftBehind]
  split_ifs at hpadded ⊢ with hroom
  · rwa [List.take_append_of_le_length (by omega)]
  · have hall : (m₁.buffer.1.take 56).take (msg.length % 64) = m₁.buffer.1.take 56 :=
      List.take_of_length_le (by omega)
    have hzeros : (List.replicate 56 (0 : UInt8)).take (msg.length % 64) = List.replicate 56 0 :=
      List.take_of_length_le (by rw [List.length_replicate]; omega)
    rw [hall, hzeros] at hpadded
    rw [hpadded]

/-- A digest is that of the message, and the object still stands for the message exactly if the rest of it is what
`final` leaves behind. -/
theorem Absorbed.digest (h : Absorbed m msg) (hf : m.finished = false) : ∃ d m', m.digest = some (d, m') ∧
    d.1 = encode (words ((blocks 64 (pad msg)).foldl transform initial)) ∧ m'.finished = false ∧
    (Absorbed m' msg ↔ leftBehind msg = rest 64 msg) := by
  have hdone : Absorbed { m with finished := true } msg := ⟨h.state, h.count, h.buffer⟩
  obtain ⟨m', hfinal, hd⟩ := hdone.final
  obtain ⟨hstate, hcount, hf', hbuffer⟩ := hdone.frame_final hfinal
  refine ⟨m'.messageDigest, m', ?_, hd, hf', ?_⟩
  · simp [MD5.digest, hf, hfinal]
  · constructor
    · intro habs
      rw [← hbuffer, habs.buffer]
    · intro hkept
      exact ⟨hstate.trans h.state, hcount.trans h.count, hbuffer.trans hkept⟩

end Buffers

/-- The bytes of the calls of `update`. -/
def message (calls : List Call) : List UInt8 :=
  calls.flatMap fun
    | .update input => input
    | .digest => []

section Runs
variable {m : MD5} {msg : List UInt8} {calls : List Call}

/-- The object stands for the message along a run that keeps what it needs. -/
theorem Absorbed.run (h : Absorbed m msg) (hf : m.finished = false) (hk : Keeps msg calls) :
    ∃ outs m', run? Call.exec m calls = some (outs, m') ∧ m'.finished = false ∧ Absorbed m' (msg ++ message calls) := by
  induction calls generalizing m msg with
  | nil => exact ⟨[], m, rfl, hf, by simpa [message] using h⟩
  | cons c calls ih =>
    cases c with
    | update input =>
      obtain ⟨m₁, h₁, hf₁, habs₁⟩ := h.update hk.1
      obtain ⟨outs, m₂, h₂, hf₂, habs₂⟩ := ih habs₁ hf₁ hk.2
      have hexec : Call.exec m (.update input) = some (none, m₁) := by simp [Call.exec, h₁]
      rw [List.append_assoc] at habs₂
      exact ⟨_, m₂, run?_cons_eq_some.mpr ⟨none, m₁, outs, hexec, h₂, rfl⟩, hf₂, habs₂⟩
    | digest =>
      obtain ⟨d, m₁, h₁, -, hf₁, habs₁⟩ := h.digest hf
      obtain ⟨outs, m₂, h₂, hf₂, habs₂⟩ := ih (habs₁.mpr hk.1) hf₁ hk.2
      have hexec : Call.exec m .digest = some (some d.1, m₁) := by simp [Call.exec, h₁]
      exact ⟨_, m₂, run?_cons_eq_some.mpr ⟨some d.1, m₁, outs, hexec, h₂, rfl⟩, hf₂, habs₂⟩

private theorem keeps_append {later : List Call} :
    Keeps msg (calls ++ later) ↔ Keeps msg calls ∧ Keeps (msg ++ message calls) later := by
  induction calls generalizing msg with
  | nil => simp [Keeps, message]
  | cons c calls ih => cases c <;> simp [Keeps, message, ih, and_assoc]

private theorem keeps_filter_isUpdate (hk : Keeps msg calls) : Keeps msg (calls.filter Call.isUpdate) := by
  induction calls generalizing msg with
  | nil => exact trivial
  | cons c calls ih =>
    cases c with
    | update input => exact ⟨hk.1, ih hk.2⟩
    | digest => exact ih hk.2

private theorem message_filter_isUpdate (calls : List Call) : message (calls.filter Call.isUpdate) = message calls := by
  induction calls with
  | nil => rfl
  | cons c calls ih =>
    cases c with
    | update input => exact congrArg (input ++ ·) ih
    | digest => exact ih

/-- In every run of calls in which each digest finds a rest that it leaves in the buffer, a digest is an
observation. -/
theorem isObservation_of_keeps (m : MD5) {calls : List Call} (hk : Keeps [] (calls ++ [.digest])) :
    IsObservation m calls := by
  obtain ⟨hcalls, hlast⟩ := keeps_append.mp hk
  obtain ⟨outs, m₁, hrun, hf₁, habs₁⟩ := (absorbed_reset m).run rfl hcalls
  obtain ⟨outs', m₄, hrun', hf₄, habs₄⟩ := (absorbed_reset m).run rfl (keeps_filter_isUpdate hcalls)
  rw [message_filter_isUpdate] at habs₄
  obtain ⟨d, m₂, h₂, hd, hf₂, hkept⟩ := habs₁.digest hf₁
  obtain ⟨d₂, m₃, h₃, hd₂, -⟩ := (hkept.mpr hlast.1).digest hf₂
  obtain ⟨d₃, m₅, h₅, hd₃, -⟩ := habs₄.digest hf₄
  obtain rfl : d₂ = d := Subtype.ext (hd₂.trans hd.symm)
  obtain rfl : d₃ = d₂ := Subtype.ext (hd₃.trans hd.symm)
  exact ⟨outs, outs', m₁, m₂, m₃, m₄, m₅, d₃, hrun, h₂, h₃, hrun', h₅⟩

end Runs

/-- Two digests of the message `abc`, and its last letter after a digest. -/
theorem isObservation_of_keeps_abc : IsObservation zeroed [.update [0x61, 0x62], .digest, .update [0x63], .digest] :=
  isObservation_of_keeps zeroed (by decide)

/-- Two digests of 56 bytes: the first one leaves zeros where they were. -/
theorem not_isObservation : ¬ ∀ (m : MD5) (calls : List Call), IsObservation m calls := by
  intro hall
  obtain ⟨outs, outs', m₁, m₂, m₃, m₄, m₅, d, hrun, h₂, h₃, -⟩ := hall zeroed [.update (List.replicate 56 0x61)]
  obtain ⟨r, s, rs, hexec, hnil, -⟩ := run?_cons_eq_some.mp hrun
  obtain ⟨-, rfl⟩ := Prod.mk.inj (Option.some.inj hnil)
  rw [Call.exec] at hexec
  obtain ⟨m, hm, he⟩ := Option.map_eq_some_iff.mp hexec
  obtain ⟨-, rfl⟩ := Prod.mk.inj he
  have hsame : ((zeroed.reset.update (List.replicate 56 0x61)).bind fun m => m.digest.bind fun r =>
      r.2.digest.map fun r' => decide (r.1 = r'.1)) = some false := by decide +kernel
  rw [hm, Option.bind_some, h₂, Option.bind_some, h₃, Option.map_some] at hsame
  exact of_decide_eq_false (Option.some.inj hsame) rfl

end Sfup.Client.MD5
