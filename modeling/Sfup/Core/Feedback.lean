import Sfup.Core.WebRtcConnection

/-! The sequence numbers of compound feedback packets are shifted back by the offset of the sent ones. -/
namespace Sfup.Core
open Sfup.Rtp

namespace Feedback

variable (m : Mem) (p : ℕ)

/-- The bytes of one RTCP packet. -/
def size : ℕ := (RtcpHeader.getLength m p + 1) * 4

def padding : ℕ := if (m p).toNat / 32 % 2 = 1 then (m (p + size m p - 1)).toNat else 0

def reports : ℕ := if RtcpHeader.packettype m p = 201 then RtcpHeader.blockcount m p else 0

def nacks : ℕ :=
  if RtcpHeader.packettype m p = 205 ∧ RtcpHeader.blockcount m p = 1 then
    (size m p - 12 - padding m p) / 4
  else 0

/-- Reports and feedback packets hold what their headers announce. -/
structure WellFormed : Prop where
  report : RtcpHeader.packettype m p = 201 → 8 + 24 * RtcpHeader.blockcount m p + padding m p ≤ size m p
  feedback : RtcpHeader.packettype m p = 205 → 12 + padding m p ≤ size m p
  nack : RtcpHeader.packettype m p = 205 → RtcpHeader.blockcount m p = 1 → 16 + padding m p ≤ size m p

/-- The packets of a compound start at the given addresses and fill it up to its end. -/
inductive Compound (len : ℕ) : ℕ → List ℕ → Prop
  | done : Compound len len []
  | packet {p : ℕ} {ps : List ℕ} (hw : WellFormed m p) (h : Compound len (p + size m p) ps) :
    Compound len p (p :: ps)

variable {m p}

/-- Every number of the packet names the original packet again, and nothing else of it is changed. -/
structure Shifted (offset : UInt16) (m m' : Mem) (p : ℕ) : Prop where
  reports : ∀ k < reports m p,
    m'.long (p + 16 + 24 * k) = (m.long (p + 16 + 24 * k) + offset.toNat) % 2 ^ 32
  nacks : ∀ k < nacks m p, m'.word (p + 12 + 4 * k) = m.word (p + 12 + 4 * k) + offset
  others : ∀ i, p ≤ i → i < p + size m p →
    (∀ k < Feedback.reports m p, i < p + 16 + 24 * k ∨ p + 20 + 24 * k ≤ i) →
    (∀ k < Feedback.nacks m p, i < p + 12 + 4 * k ∨ p + 14 + 4 * k ≤ i) → m' i = m i

/-- A receiver report has one block whose low half does not overflow, or none and nothing behind it;
a transport feedback packet is a NACK of one entry, or of another format and empty at the end. -/
structure Shiftable (offset : UInt16) (m : Mem) (len p : ℕ) : Prop where
  report : RtcpHeader.packettype m p = 201 →
    RtcpHeader.blockcount m p = 1 ∧ (RtcpHeader.getHighestSeqnum m p).toNat + offset.toNat < 65536 ∨
    RtcpHeader.blockcount m p = 0 ∧ len ≤ p + 16
  feedback : RtcpHeader.packettype m p = 205 →
    RtcpHeader.blockcount m p = 1 ∧ nacks m p = 1 ∨ RtcpHeader.blockcount m p ≠ 1 ∧ len ≤ p + 12

variable {offset : UInt16} {m' : Mem} {len i : ℕ} {ps : List ℕ}

theorem size_pos : 4 ≤ size m p := by
  unfold size
  omega

/-! ## What one packet's step writes -/

open WebRtcConnection

/-- The test for a carry compares sums that cannot wrap, so `cycles` is never changed. -/
theorem shiftFeedback_report (h : RtcpHeader.packettype m p = 201) :
    shiftFeedback offset m p = m.setWord (p + 18) (m.word (p + 18) + offset) := by
  have hc : ¬(RtcpHeader.getHighestSeqnum m p).toNat + offset.toNat < (RtcpHeader.getHighestSeqnum m p).toNat := by
    omega
  simp only [shiftFeedback, h, if_true, if_neg hc]
  rfl

theorem shiftFeedback_nack (h : RtcpHeader.packettype m p = 205) :
    shiftFeedback offset m p = m.setWord (p + 12) (m.word (p + 12) + offset) := by
  simp only [shiftFeedback, h, if_true]
  rfl

theorem shiftFeedback_other (h : RtcpHeader.packettype m p ≠ 201) (h' : RtcpHeader.packettype m p ≠ 205) :
    shiftFeedback offset m p = m := by
  simp only [shiftFeedback, h, h', if_false]

theorem shiftFeedback_below : Mem.Agree (shiftFeedback offset m p) m 0 (p + 12) := by
  by_cases h : RtcpHeader.packettype m p = 201
  · rw [shiftFeedback_report h]
    exact Mem.agree_setWord_of_le (by omega)
  · by_cases h' : RtcpHeader.packettype m p = 205
    · rw [shiftFeedback_nack h']
      exact Mem.agree_setWord_of_le le_rfl
    · rw [shiftFeedback_other h h']
      exact fun _ _ _ => rfl

theorem feedbackLoop_below (offset : UInt16) (len fuel : ℕ) (m : Mem) (p : ℕ) :
    Mem.Agree (feedbackLoop offset len fuel m p) m 0 (p + 12) := by
  induction fuel generalizing m p with
  | zero => exact fun _ _ _ => rfl
  | succ fuel ih =>
    intro i hl hi
    simp only [feedbackLoop]
    split_ifs
    · exact (ih _ _ i hl (by omega)).trans (shiftFeedback_below i hl hi)
    · exact shiftFeedback_below i hl hi

theorem add_ne_self (h : 0 < offset) (v : UInt16) : v + offset ≠ v := by
  intro hv
  have hz : offset = 0 := by grind
  rw [hz] at h
  exact absurd h (by decide)

/-! ## One packet of a compound

`f` is the memory after the whole loop. It agrees with the memory after this packet's step up to the
twelfth byte of the next packet. -/

section Packet

variable {f : Mem}

/-- A word the step writes cannot come out unchanged. -/
theorem not_agree_written {q : ℕ} (h0 : 0 < offset) (hf : f.word q = m.word q + offset)
    (hq : f q = m q) (hq' : f (q + 1) = m (q + 1)) : False := by
  apply add_ne_self h0 (m.word q)
  rw [← hf]
  exact Mem.word_congr hq hq'

theorem shiftable_report (h0 : 0 < offset) (hw : WellFormed m p) (hd : 4 ∣ len - p)
    (h : RtcpHeader.packettype m p = 201)
    (hf : Mem.Agree f (shiftFeedback offset m p) 0 (p + size m p + 12)) (hs : Shifted offset m f p)
    (hl : ∀ i, p + size m p ≤ i → i < p + size m p + 12 → i < len → f i = m i) :
    RtcpHeader.blockcount m p = 1 ∧ (RtcpHeader.getHighestSeqnum m p).toNat + offset.toNat < 65536 ∨
      RtcpHeader.blockcount m p = 0 ∧ len ≤ p + 16 := by
  rw [shiftFeedback_report h] at hf
  have hsize := hw.report h
  have hr : reports m p = RtcpHeader.blockcount m p := by simp [reports, h]
  have hn : nacks m p = 0 := by simp [nacks, h]
  have hlow : f.word (p + 18) = m.word (p + 18) + offset := by
    rw [hf.word (Nat.zero_le _) (by omega), Mem.word_setWord]
  have hoff := offset.toNat_lt
  have hpos : 0 < offset.toNat := h0
  rcases Nat.lt_trichotomy (RtcpHeader.blockcount m p) 1 with hb | hb | hb
  · right
    have hb0 : RtcpHeader.blockcount m p = 0 := by omega
    refine ⟨hb0, ?_⟩
    by_contra hlen
    -- the number of a missing block is written into whatever stands there
    have hbyte : ∀ i, p ≤ i → i < p + 20 → f i = m i := by
      intro i hi hi'
      by_cases hin : i < p + size m p
      · apply hs.others i hi hin
        · intro k hk
          omega
        · intro k hk
          omega
      · exact hl i (by omega) (by omega) (by omega)
    exact not_agree_written h0 hlow (hbyte _ (by omega) (by omega)) (hbyte _ (by omega) (by omega))
  · left
    refine ⟨hb, ?_⟩
    have hlong := hs.reports 0 (by omega)
    have hcycles : f.word (p + 16) = m.word (p + 16) := by
      rw [hf.word (Nat.zero_le _) (by omega)]
      exact Mem.word_setWord_of_disjoint (by omega)
    simp only [Mem.long, Nat.mul_zero, Nat.add_zero, Nat.add_assoc, Nat.reduceAdd, hcycles, hlow,
      UInt16.toNat_add] at hlong
    have h16 := (m.word (p + 16)).toNat_lt
    have h18 := (m.word (p + 18)).toNat_lt
    unfold RtcpHeader.getHighestSeqnum
    omega
  · exfalso
    have hlong := hs.reports 1 (by omega)
    have hsame : f.long (p + 16 + 24 * 1) = m.long (p + 16 + 24 * 1) := by
      rw [hf.long (Nat.zero_le _) (by omega)]
      exact Mem.long_setWord_of_disjoint (by omega)
    rw [hsame] at hlong
    unfold Mem.long at hlong
    have h40 := (m.word (p + 16 + 24 * 1)).toNat_lt
    have h42 := (m.word (p + 16 + 24 * 1 + 2)).toNat_lt
    omega

private theorem shiftable_feedback (h0 : 0 < offset) (hw : WellFormed m p)
    (h : RtcpHeader.packettype m p = 205) (hd : 4 ∣ len - p)
    (hf : Mem.Agree f (shiftFeedback offset m p) 0 (p + size m p + 12)) (hs : Shifted offset m f p)
    (hl : ∀ i, p + size m p ≤ i → i < p + size m p + 12 → i < len → f i = m i) :
    RtcpHeader.blockcount m p = 1 ∧ nacks m p = 1 ∨ RtcpHeader.blockcount m p ≠ 1 ∧ len ≤ p + 12 := by
  rw [shiftFeedback_nack h] at hf
  have hsize := hw.feedback h
  have hr : reports m p = 0 := by simp [reports, h]
  have hpid : f.word (p + 12) = m.word (p + 12) + offset := by
    rw [hf.word (Nat.zero_le _) (by omega), Mem.word_setWord]
  by_cases hb : RtcpHeader.blockcount m p = 1
  · left
    refine ⟨hb, ?_⟩
    have hn : nacks m p = (size m p - 12 - padding m p) / 4 := by simp [nacks, h, hb]
    have hone := hw.nack h hb
    by_contra hne
    have hk := hs.nacks 1 (by omega)
    rw [hf.word (Nat.zero_le _) (by omega), Mem.word_setWord_of_disjoint (by omega)] at hk
    exact add_ne_self h0 _ hk.symm
  · right
    refine ⟨hb, ?_⟩
    have hn : nacks m p = 0 := by simp [nacks, hb]
    by_contra hlen
    have hbyte : ∀ i, p ≤ i → i < p + 14 → f i = m i := by
      intro i hi hi'
      by_cases hin : i < p + size m p
      · apply hs.others i hi hin
        · intro k hk
          omega
        · intro k hk
          omega
      · exact hl i (by omega) (by omega) (by omega)
    exact not_agree_written h0 hpid (hbyte _ (by omega) (by omega)) (hbyte _ (by omega) (by omega))

theorem shiftable_of_shifted (h0 : 0 < offset) (hw : WellFormed m p) (hd : 4 ∣ len - p)
    (hf : Mem.Agree f (shiftFeedback offset m p) 0 (p + size m p + 12)) (hs : Shifted offset m f p)
    (hl : ∀ i, p + size m p ≤ i → i < p + size m p + 12 → i < len → f i = m i) :
    Shiftable offset m len p :=
  ⟨fun h => shiftable_report h0 hw hd h hf hs hl, fun h => shiftable_feedback h0 hw h hd hf hs hl⟩

/-- Under the condition nothing behind the packet is written. -/
theorem Shiftable.agree (hc : Shiftable offset m len p) (hw : WellFormed m p) :
    Mem.Agree (shiftFeedback offset m p) m (p + size m p) len := by
  by_cases h : RtcpHeader.packettype m p = 201
  · have hsize := hw.report h
    rw [shiftFeedback_report h]
    rcases hc.report h with ⟨hb, -⟩ | ⟨-, hlen⟩
    · exact Mem.agree_setWord_of_ge (by omega)
    · exact Mem.agree_setWord_of_le (by omega)
  · by_cases h' : RtcpHeader.packettype m p = 205
    · rw [shiftFeedback_nack h']
      rcases hc.feedback h' with ⟨hb, -⟩ | ⟨-, hlen⟩
      · have hone := hw.nack h' hb
        exact Mem.agree_setWord_of_ge (by omega)
      · exact Mem.agree_setWord_of_le hlen
    · rw [shiftFeedback_other h h']
      exact fun _ _ _ => rfl

theorem Shiftable.shifted_report (hc : Shiftable offset m len p) (hw : WellFormed m p)
    (hlen : p + size m p ≤ len) (h : RtcpHeader.packettype m p = 201)
    (hf : Mem.Agree f (shiftFeedback offset m p) 0 (p + size m p + 12)) : Shifted offset m f p := by
  have hsize := hw.report h
  have hr : reports m p = RtcpHeader.blockcount m p := by simp [reports, h]
  have hn : nacks m p = 0 := by simp [nacks, h]
  rw [shiftFeedback_report h] at hf
  rcases hc.report h with ⟨hb, hlow⟩ | ⟨hb, hend⟩
  · constructor
    · intro k hk
      obtain rfl : k = 0 := by omega
      have hcycles : f.word (p + 16) = m.word (p + 16) := by
        rw [hf.word (Nat.zero_le _) (by omega)]
        exact Mem.word_setWord_of_disjoint (by omega)
      have hword : f.word (p + 18) = m.word (p + 18) + offset := by
        rw [hf.word (Nat.zero_le _) (by omega), Mem.word_setWord]
      simp only [Mem.long, Nat.mul_zero, Nat.add_zero, Nat.add_assoc, Nat.reduceAdd, hcycles, hword,
        UInt16.toNat_add]
      unfold RtcpHeader.getHighestSeqnum at hlow
      have h16 := (m.word (p + 16)).toNat_lt
      omega
    · intro k hk
      omega
    · intro i hi hi' hout _
      have hout := hout 0 (by omega)
      rw [hf i (Nat.zero_le _) (by omega)]
      exact Mem.setWord_of_ne (by omega) (by omega)
  · constructor
    · intro k hk
      omega
    · intro k hk
      omega
    · intro i hi hi' _ _
      rw [hf i (Nat.zero_le _) (by omega)]
      exact Mem.setWord_of_ne (by omega) (by omega)

theorem Shiftable.shifted_feedback (hc : Shiftable offset m len p) (hw : WellFormed m p)
    (hlen : p + size m p ≤ len) (h : RtcpHeader.packettype m p = 205)
    (hf : Mem.Agree f (shiftFeedback offset m p) 0 (p + size m p + 12)) : Shifted offset m f p := by
  have hr : reports m p = 0 := by simp [reports, h]
  rw [shiftFeedback_nack h] at hf
  rcases hc.feedback h with ⟨hb, hone⟩ | ⟨hb, hend⟩
  · have hsize := hw.nack h hb
    constructor
    · intro k hk
      omega
    · intro k hk
      obtain rfl : k = 0 := by omega
      rw [Nat.mul_zero, Nat.add_zero, hf.word (Nat.zero_le _) (by omega), Mem.word_setWord]
    · intro i hi hi' _ hout
      have hout := hout 0 (by omega)
      rw [hf i (Nat.zero_le _) (by omega)]
      exact Mem.setWord_of_ne (by omega) (by omega)
  · have hn : nacks m p = 0 := by simp [nacks, hb]
    constructor
    · intro k hk
      omega
    · intro k hk
      omega
    · intro i hi hi' _ _
      rw [hf i (Nat.zero_le _) (by omega)]
      exact Mem.setWord_of_ne (by omega) (by omega)

theorem Shiftable.shifted (hc : Shiftable offset m len p) (hw : WellFormed m p)
    (hlen : p + size m p ≤ len)
    (hf : Mem.Agree f (shiftFeedback offset m p) 0 (p + size m p + 12)) : Shifted offset m f p := by
  by_cases h : RtcpHeader.packettype m p = 201
  · exact hc.shifted_report hw hlen h hf
  · by_cases h' : RtcpHeader.packettype m p = 205
    · exact hc.shifted_feedback hw hlen h' hf
    · have hr : reports m p = 0 := by simp [reports, h]
      have hn : nacks m p = 0 := by simp [nacks, h']
      rw [shiftFeedback_other h h'] at hf
      constructor
      · intro k hk
        omega
      · intro k hk
        omega
      · intro i _ hi _ _
        exact hf i (Nat.zero_le _) (by omega)

end Packet

/-! ## What is read of a packet -/

section Congr

variable (h : Mem.Agree m m' p (p + size m p))
include h

theorem header_congr : RtcpHeader.packettype m p = RtcpHeader.packettype m' p ∧
    RtcpHeader.blockcount m p = RtcpHeader.blockcount m' p ∧ size m p = size m' p := by
  have hs := size_pos (m := m) (p := p)
  unfold RtcpHeader.packettype RtcpHeader.blockcount size RtcpHeader.getLength
  rw [h p le_rfl (by omega), h (p + 1) (by omega) (by omega), h.word (by omega) (by omega)]
  exact ⟨rfl, rfl, rfl⟩

theorem padding_congr : padding m p = padding m' p := by
  have hs := size_pos (m := m) (p := p)
  unfold padding
  rw [← (header_congr h).2.2, h p le_rfl (by omega), h (p + size m p - 1) (by omega) (by omega)]

private theorem reports_congr : reports m p = reports m' p := by
  obtain ⟨ht, hb, -⟩ := header_congr h
  simp only [reports, ht, hb]

theorem nacks_congr : nacks m p = nacks m' p := by
  obtain ⟨ht, hb, hs⟩ := header_congr h
  simp only [nacks, ht, hb, hs, padding_congr h]

theorem WellFormed.congr (hw : WellFormed m p) : WellFormed m' p := by
  obtain ⟨ht, hb, hs⟩ := header_congr h
  have hp := padding_congr h
  obtain ⟨hr, hf, hn⟩ := hw
  rw [ht, hb, hs, hp] at hr
  rw [ht, hs, hp] at hf
  rw [ht, hb, hs, hp] at hn
  exact ⟨hr, hf, hn⟩

/-- The report blocks and NACK entries are inside the packet. -/
theorem Shifted.congr {f : Mem} (hw : WellFormed m p) (hs : Shifted offset m f p) :
    Shifted offset m' f p := by
  have hr := reports_congr h
  have hn := nacks_congr h
  constructor
  · intro k hk
    rw [← hr] at hk
    have hin : p + 16 + 24 * k + 4 ≤ p + size m p := by
      unfold Feedback.reports at hk
      split_ifs at hk with ht
      · have := hw.report ht
        omega
      · omega
    rw [hs.reports k hk, h.long (by omega) hin]
  · intro k hk
    rw [← hn] at hk
    have hin : p + 12 + 4 * k + 2 ≤ p + size m p := by
      unfold Feedback.nacks at hk
      split_ifs at hk
      · omega
      · omega
    rw [hs.nacks k hk, h.word (by omega) hin]
  · intro i hi hi' hreport hnack
    rw [← (header_congr h).2.2] at hi'
    rw [← hr] at hreport
    rw [← hn] at hnack
    rw [hs.others i hi hi' hreport hnack, h i hi hi']

theorem Shiftable.congr (hw : WellFormed m p) (hs : Shiftable offset m len p) :
    Shiftable offset m' len p := by
  obtain ⟨ht, hb, -⟩ := header_congr h
  have hn := nacks_congr h
  constructor
  · intro h201
    rw [← ht] at h201
    have hsize := hw.report h201
    rcases hs.report h201 with ⟨hone, hlow⟩ | ⟨hzero, hend⟩
    · left
      refine ⟨hb ▸ hone, ?_⟩
      unfold RtcpHeader.getHighestSeqnum at hlow ⊢
      rwa [← h.word (by omega) (by omega)]
    · exact .inr ⟨hb ▸ hzero, hend⟩
  · intro h205
    rw [← ht] at h205
    rw [← hb, ← hn]
    exact hs.feedback h205

end Congr

/-! ## Compound packets -/

namespace Compound

theorem le (h : Compound m len p ps) : p ≤ len := by
  induction h with
  | done => exact le_rfl
  | packet _ _ ih => omega

theorem dvd (h : Compound m len p ps) : 4 ∣ len - p := by
  induction h with
  | done => simp
  | @packet q _ _ h ih =>
    have hle := h.le
    unfold size at *
    omega

theorem bounds {q : ℕ} (h : Compound m len p ps) (hq : q ∈ ps) :
    WellFormed m q ∧ p ≤ q ∧ q + size m q ≤ len := by
  induction h with
  | done => cases hq
  | @packet p' _ hw h ih =>
    rcases List.mem_cons.mp hq with rfl | hq
    · exact ⟨hw, le_rfl, h.le⟩
    · obtain ⟨hwq, hl, hr⟩ := ih hq
      exact ⟨hwq, by omega, hr⟩

theorem cover (h : Compound m len p ps) (hl : p ≤ i) (hr : i < len) :
    ∃ q ∈ ps, p ≤ q ∧ q ≤ i ∧ i < q + size m q := by
  induction h with
  | done => omega
  | @packet p' _ _ _ ih =>
    by_cases hi : i < p' + size m p'
    · exact ⟨p', List.mem_cons_self, le_rfl, hl, hi⟩
    · obtain ⟨q, hq, h₁, h₂, h₃⟩ := ih (by omega)
      exact ⟨q, List.mem_cons_of_mem _ hq, by omega, h₂, h₃⟩

theorem congr (h : Compound m len p ps) (hm : Mem.Agree m m' p len) : Compound m' len p ps := by
  induction h with
  | done => exact .done
  | @packet p' ps hw h ih =>
    have hp : Mem.Agree m m' p' (p' + size m p') := hm.mono le_rfl h.le
    refine .packet (hw.congr hp) ?_
    rw [← (header_congr hp).2.2]
    exact ih (hm.mono (by omega) le_rfl)

end Compound

/-- Memories that agree on the packets of a compound are shifted alike, under the same condition. -/
theorem forall_congr_of_agree (offset : UInt16) (f : Mem) (h : Compound m len p ps) (hm : Mem.Agree m m' p len) :
    ((∀ q ∈ ps, Shifted offset m f q) ↔ ∀ q ∈ ps, Shifted offset m' f q) ∧
      ((∀ q ∈ ps, Shiftable offset m len q) ↔ ∀ q ∈ ps, Shiftable offset m' len q) := by
  have hq : ∀ q ∈ ps, WellFormed m q ∧ Mem.Agree m m' q (q + size m q) := by
    intro q hq
    obtain ⟨hw, hl, hr⟩ := h.bounds hq
    exact ⟨hw, hm.mono hl hr⟩
  have hq' : ∀ q ∈ ps, WellFormed m' q ∧ Mem.Agree m' m q (q + size m' q) := by
    intro q hqs
    obtain ⟨hw, ha⟩ := hq q hqs
    refine ⟨hw.congr ha, ?_⟩
    rw [← (header_congr ha).2.2]
    exact ha.symm
  constructor
  · constructor
    · exact fun hs q hqs => (hs q hqs).congr (hq q hqs).2 (hq q hqs).1
    · exact fun hs q hqs => (hs q hqs).congr (hq' q hqs).2 (hq' q hqs).1
  · constructor
    · exact fun hs q hqs => (hs q hqs).congr (hq q hqs).2 (hq q hqs).1
    · exact fun hs q hqs => (hs q hqs).congr (hq' q hqs).2 (hq' q hqs).1

/-- The loop shifts every number of a compound exactly when each of its packets can be shifted. -/
theorem feedbackLoop_shifted_iff {fuel : ℕ} (h0 : 0 < offset) (h : Compound m len p ps) (hps : ps ≠ [])
    (hfuel : len < p + fuel) :
    (∀ q ∈ ps, Shifted offset m (feedbackLoop offset len fuel m p) q) ↔
      ∀ q ∈ ps, Shiftable offset m len q := by
  induction fuel generalizing m p ps with
  | zero =>
    have := h.le
    omega
  | succ fuel ih =>
    cases h with
    | done => exact absurd rfl hps
    | @packet _ qs hw hqs =>
      have hpos := size_pos (m := m) (p := p)
      have hle := hqs.le
      have hd : 4 ∣ len - p := (Compound.packet hw hqs).dvd
      have hloop : feedbackLoop offset len (fuel + 1) m p = if p + size m p < len then
          feedbackLoop offset len fuel (shiftFeedback offset m p) (p + size m p)
        else shiftFeedback offset m p := rfl
      rw [hloop, List.forall_mem_cons, List.forall_mem_cons]
      cases qs with
      | nil =>
        have hend : len = p + size m p := by cases hqs; rfl
        rw [if_neg (by omega)]
        have hf : Mem.Agree (shiftFeedback offset m p) (shiftFeedback offset m p) 0 (p + size m p + 12) :=
          fun _ _ _ => rfl
        constructor
        · rintro ⟨hs, -⟩
          exact ⟨shiftable_of_shifted h0 hw hd hf hs (fun i _ _ _ => by omega), by simp⟩
        · rintro ⟨hc, -⟩
          exact ⟨hc.shifted hw hle hf, by simp⟩
      | cons q qs =>
        have hlt : p + size m p < len := by
          cases hqs with
          | packet hw' hqs' =>
            have := hqs'.le
            have := size_pos (m := m) (p := p + size m p)
            omega
        rw [if_pos hlt]
        have hf := feedbackLoop_below offset len fuel (shiftFeedback offset m p) (p + size m p)
        -- once this packet can be shifted, the rest of the compound is as it was
        have hrest : Shiftable offset m len p →
            ((∀ r ∈ q :: qs, Shifted offset m
              (feedbackLoop offset len fuel (shiftFeedback offset m p) (p + size m p)) r) ↔
            ∀ r ∈ q :: qs, Shiftable offset m len r) := by
          intro hc
          have ha := (hc.agree hw).symm
          obtain ⟨hs, hsh⟩ := forall_congr_of_agree offset
            (feedbackLoop offset len fuel (shiftFeedback offset m p) (p + size m p)) hqs ha
          rw [hs, hsh]
          exact ih (hqs.congr ha) (by simp) (by omega)
        constructor
        · rintro ⟨hs, hr⟩
          have hc : Shiftable offset m len p := by
            refine shiftable_of_shifted h0 hw hd hf hs ?_
            intro i hi hi' hlen
            obtain ⟨r, hmem, hr₁, hr₂, hr₃⟩ := hqs.cover hi hlen
            apply (hr r hmem).others i hr₂ hr₃
            · intro k _
              omega
            · intro k _
              omega
          exact ⟨hc, (hrest hc).mp hr⟩
        · rintro ⟨hc, hr⟩
          exact ⟨hc.shifted hw hle hf, (hrest hc).mpr hr⟩

end Feedback

namespace WebRtcConnection
open Feedback

variable {c : WebRtcConnection} {fresh : Fresh} {m : Mem} {len : ℕ} {mediaType : PacketType}

theorem onTransportData_feedback (hsink : c.fbSink = true) (hsend : c.shouldSendFeedback = true)
    (h0 : 0 < c.seqNoOffset) (hfb : RtcpHeader.isFeedback m 0 = true) :
    c.onTransportData fresh m len mediaType =
      some (some (.feedback (feedbackLoop c.seqNoOffset len (len + 1) m 0) len), c) := by
  simp [onTransportData, deliverFeedback, hsink, hsend, h0, hfb]

/-- The sink is given the compound with every number shifted back, and nothing else changed, exactly
when each packet of it can be shifted. -/
theorem onTransportData_shifts_iff {ps : List ℕ} (hsink : c.fbSink = true)
    (hsend : c.shouldSendFeedback = true) (h0 : 0 < c.seqNoOffset)
    (hfb : RtcpHeader.isFeedback m 0 = true) (h : Compound m len 0 ps) (hps : ps ≠ []) :
    (∃ m', c.onTransportData fresh m len mediaType = some (some (.feedback m' len), c) ∧
      ∀ p ∈ ps, Shifted c.seqNoOffset m m' p) ↔ ∀ p ∈ ps, Shiftable c.seqNoOffset m len p := by
  rw [← feedbackLoop_shifted_iff h0 h hps (show len < 0 + (len + 1) by omega),
    onTransportData_feedback hsink hsend h0 hfb]
  constructor
  · rintro ⟨m', hm', hs⟩
    cases hm'
    exact hs
  · exact fun hs => ⟨_, rfl, hs⟩

/-- A receiver report with one block. -/
def receiverReport (cycles highest : UInt16) : Mem :=
  Mem.setWord (Mem.setWord (fun i => if i = 0 then 0x81 else if i = 1 then 201 else if i = 3 then 7 else 0)
    16 cycles) 18 highest

def genericNack (pid : UInt16) : Mem :=
  Mem.setWord (fun i => if i = 0 then 0x81 else if i = 1 then 205 else if i = 3 then 3 else 0) 12 pid

/-- A report followed by a NACK. -/
def reportAndNack (cycles highest pid : UInt16) : Mem :=
  fun i => if i < 32 then receiverReport cycles highest i else genericNack pid (i - 32)

/-- The constructor's object with a feedback sink, after slide show mode has left an offset. -/
def shifting (seqNoOffset : UInt16) : WebRtcConnection :=
  { new false true ⟨fun _ => none, fun _ => none, []⟩ with fbSink := true, seqNoOffset }

theorem onTransportData_shifts_compound :
    ∃ m', (shifting 5).onTransportData .zero (reportAndNack 1 100 65533) 48 .video =
      some (some (.feedback m' 48), shifting 5) ∧ ∀ p ∈ [0, 32], Shifted 5 (reportAndNack 1 100 65533) m' p := by
  refine (onTransportData_shifts_iff rfl rfl (by decide) (by decide) (.packet ?_ (.packet ?_ .done))
    (by simp)).mpr ?_
  · exact ⟨by decide, by decide, by decide⟩
  · exact ⟨by decide, by decide, by decide⟩
  · intro p hp
    simp only [List.mem_cons, List.not_mem_nil, or_false] at hp
    rcases hp with rfl | rfl
    · exact ⟨by decide, by decide⟩
    · exact ⟨by decide, by decide⟩

/-- The low half goes from 65535 to 0 and the carry is lost. -/
theorem not_shifts_carry :
    ¬ ∃ m', (shifting 1).onTransportData .zero (receiverReport 0 65535) 32 .video =
      some (some (.feedback m' 32), shifting 1) ∧ ∀ p ∈ [0], Shifted 1 (receiverReport 0 65535) m' p := by
  rintro ⟨m', hm', hs⟩
  rw [onTransportData_feedback rfl rfl (by decide) (by decide)] at hm'
  cases hm'
  have hlong := (hs 0 (by simp)).reports 0 (by decide)
  exact absurd hlong (by decide)

end WebRtcConnection
end Sfup.Core
