import Sfup.Sdp.Collecting
import Sfup.Sdp.Sections
import Mathlib.Data.List.TakeWhile

/-! What the lines that `getSdp` writes do to the codecs when they are read. -/
namespace Sfup.Sdp.Parser
open SdpInfo

section Numbers
variable {n : ℕ} {c : Char} {s : Str}

theorem digits_dec : ∀ c ∈ dec n, c.isDigit := fun _ hc => Nat.isDigit_of_mem_toDigits (by decide) (by decide) hc

private theorem not_space_of_isDigit (h : c.isDigit) : isSpace c = false ∧ c ≠ '-' ∧ c ≠ '+' := by
  have hc : 48 ≤ c.toNat ∧ c.toNat ≤ 57 := by simpa [Char.isDigit, UInt32.le_iff_toNat_le] using h
  have hne : ∀ d : Char, ¬ (48 ≤ d.toNat ∧ d.toNat ≤ 57) → c ≠ d := fun d hd he => hd (he ▸ hc)
  refine ⟨?_, hne '-' (by decide), hne '+' (by decide)⟩
  unfold isSpace
  simp only [Bool.or_eq_false_iff, beq_eq_false_iff_ne, Bool.and_eq_false_iff, decide_eq_false_iff_not]
  exact ⟨hne ' ' (by decide), by omega⟩

def digitsValue (s : Str) : ℕ := (s.takeWhile Char.isDigit).foldl (fun n c => 10 * n + (c.toNat - 48)) 0

theorem digitsValue_dec : digitsValue (dec n) = n := by
  unfold digitsValue
  rw [List.takeWhile_eq_self_iff.mpr digits_dec]
  exact Nat.ofDigitChars_ten_toDigits

private theorem strtoul_of_digit (h : c.isDigit) : strtoul (c :: s) =
    if 2 ^ 32 ≤ digitsValue (c :: s) then 0xffffffff else UInt32.ofNat (digitsValue (c :: s)) := by
  obtain ⟨hs, hm, hp⟩ := not_space_of_isDigit h
  unfold strtoul
  rw [List.dropWhile_cons_of_neg (by simp [hs])]
  split
  rename_i negative rest heq
  split at heq
  · simp_all
  · simp_all
  · cases heq
    rfl

private theorem strtoul_minus : strtoul ('-' :: s) =
    if 2 ^ 32 ≤ digitsValue s then 0xffffffff else 0 - UInt32.ofNat (digitsValue s) := rfl

theorem strtoul_dec (h : n < 2 ^ 32) : strtoul (dec n) = UInt32.ofNat n := by
  obtain ⟨c, cs, hd⟩ := List.exists_cons_of_ne_nil (dec_ne_nil (n := n))
  have hc : c.isDigit := digits_dec c (hd ▸ List.mem_cons_self)
  rw [hd, strtoul_of_digit hc, ← hd, digitsValue_dec, if_neg (by omega)]

theorem toInt_eq (n : UInt32) : toInt n = if n.toNat < 2 ^ 31 then (n.toNat : ℤ) else (n.toNat : ℤ) - 2 ^ 32 := by
  have hn : n.toBitVec.toNat = n.toNat := rfl
  show n.toBitVec.toInt = _
  rw [BitVec.toInt_eq_toNat_cond, hn]
  split_ifs <;> omega

/-- A payload type is written as an `int`, and `strtoul` takes the minus sign. -/
theorem strtoul_decInt (pt : UInt32) : strtoul (decInt (toInt pt)) = pt := by
  have hlt := pt.toNat_lt
  unfold decInt
  rw [toInt_eq]
  by_cases hsmall : pt.toNat < 2 ^ 31
  · rw [if_pos hsmall, if_neg (by omega), Int.natAbs_natCast, strtoul_dec hlt, UInt32.ofNat_toNat]
  · have habs : ((pt.toNat : ℤ) - 2 ^ 32).natAbs = 2 ^ 32 - pt.toNat := by omega
    have hval : 0 - UInt32.ofNat (2 ^ 32 - pt.toNat) = pt := by
      apply UInt32.toNat_inj.mp
      rw [UInt32.toNat_sub, UInt32.toNat_ofNat', UInt32.toNat_zero]
      omega
    rw [if_neg hsmall, if_pos (by omega), habs, strtoul_minus, digitsValue_dec, if_neg (by omega), hval]

end Numbers

/-- What a line can change of the codecs, with the feedback lines kept for the end. -/
structure Codecs where
  mtype : MediaType
  payloads : List RtpMap
  feedbackLines : List Str

def codecs (st : Parser) : Codecs := ⟨st.mtype, st.info.payloadVector, st.tmpFeedbackVector⟩

section Kept
variable {line : Str} {b : Branch} {f : Codecs → Codecs}

def codecBranches : List Branch := [.video, .audio, .rtpmap, .feedback, .fmtp]

end Kept
namespace Codecs

def setMedia (t : MediaType) (v : Codecs) : Codecs := { v with mtype := t }

def add (rtp : RtpMap) (v : Codecs) : Codecs := { v with payloads := v.payloads ++ [rtp] }

def addLine (line : Str) (v : Codecs) : Codecs := { v with feedbackLines := v.feedbackLines ++ [line] }

def readFormat (x : Str × Str) : Option (Str × Str) :=
  if x.2 ≠ [] then some (if x.1 = "none".toList then "none".toList else cStr x.1, cStr x.2)
  else if x.1 = "none".toList then none
  else some ("none".toList, cStr x.1)

def addFormat (pt : UInt32) (x : Str × Str) (v : Codecs) : Codecs :=
  match readFormat x with
  | none => v
  | some (option, value) => { v with payloads := v.payloads.map (Parser.addFormat pt option value) }

end Codecs

section CodecLines
variable {rtp : RtpMap} {w : Str} {x : Str × Str}

def Internal (rtp : RtpMap) : Prop :=
  ∃ r ∈ internalPayloadVector, rtp.encodingName = r.encodingName ∧ rtp.clockRate = r.clockRate ∧
    rtp.mediaType = r.mediaType ∧ rtp.channels = r.channels

def bare (rtp : RtpMap) : RtpMap := { rtp with feedbackTypes := [], formatParameters := .empty }

theorem Internal.found (h : Internal rtp) (pt : UInt32) :
    ∃ r, internalOf ⟨pt, rtp.encodingName, rtp.clockRate⟩ = some r ∧ r.channels = rtp.channels := by
  have hall : ∀ r ∈ internalPayloadVector, (internalPayloadVector.find? fun r' =>
      r'.encodingName = r.encodingName ∧ r'.clockRate = r.clockRate).map (·.channels) = some r.channels := by
    decide +kernel
  obtain ⟨r, hr, hname, hclock, -, hchannels⟩ := h
  rw [hname, hclock, hchannels]
  exact Option.map_eq_some_iff.mp (hall r hr)

theorem Internal.free (h : Internal rtp) : Free [' ', ':', '/', '\n'] rtp.encodingName := by
  have hall : ∀ r ∈ internalPayloadVector, Free [' ', ':', '/', '\n'] r.encodingName := by decide +kernel
  obtain ⟨r, hr, hname, -⟩ := h
  rw [hname]
  exact hall r hr

end CodecLines
end Sfup.Sdp.Parser
