import Sfup.Rtp.Compounds
import Sfup.Rtp.Reports
import Sfup.Rtp.ReceiverReports

/-! The loss and the delay that a report carries. The quotient of two whole numbers is scaled to a byte, which is then
always 0, and the milliseconds are scaled in 32 bits. -/
namespace Sfup.Rtp

/-- The whole milliseconds from one reading of the clock to another. -/
def Timeval.elapsed (now last : Timeval) : ℤ := ((now.sec - last.sec) * 1000000 + (now.usec - last.usec)) / 1000

namespace RtcpAggregator
open Sfup.Transition

/-- The loss and the delay of the report that is sent for a source at a time. -/
structure RightReport (now : Timeval) (d : RtcpData) (s : Delivery) : Prop where
  fraction : ((RtcpHeader.getFractionLost s.packet 0).toNat : ℤ) = min 255
    (256 * ((d.totalPacketsLost.toNat : ℤ) - d.prevTotalPacketsLost.toNat) /
      ((d.extendedSeqNo.toNat : ℤ) - d.prevExtendedSeqNo.toNat))
  delay : ((RtcpHeader.getDelaySinceLastSr s.packet 0).toNat : ℤ) =
    (d.delaySinceLastSr.toNat + now.elapsed d.lastSrUpdated * 65536 / 1000) % 2 ^ 32

/-- Less than one packet of 256 is lost, no microseconds are borrowed from the seconds, and the milliseconds have 16
bits until the field itself wraps around. -/
structure Precise (now : Timeval) (d : RtcpData) : Prop where
  losses : 256 * ((d.totalPacketsLost.toNat : ℤ) - d.prevTotalPacketsLost.toNat) <
    (d.extendedSeqNo.toNat : ℤ) - d.prevExtendedSeqNo.toNat
  borrow : d.lastSrUpdated.usec ≤ now.usec ∨ 1000 ∣ now.usec - d.lastSrUpdated.usec
  short : now.elapsed d.lastSrUpdated % 65536000 < 65536

/-- The reports of a check on sources that have received packets since their last report. -/
def Reporting (a : RtcpAggregator) : Event → Prop
  | .checkRtcpFb c => ∀ e ∈ a.rtcpData.entries, e.2.prevExtendedSeqNo < e.2.extendedSeqNo → ∀ s pli d',
    checkSource c.ends a.defaultVideoBw (c.now e.1) (c.next e.1) e.1 e.2 = some ((some s, pli), d') →
      RightReport (c.now e.1) e.2 s
  | _ => True

/-- The same sources are precise, if they are due. -/
def AllPrecise (a : RtcpAggregator) : Event → Prop
  | .checkRtcpFb c => ∀ e ∈ a.rtcpData.entries, e.2.prevExtendedSeqNo < e.2.extendedSeqNo →
    due e.2 (c.now e.1) = true → Precise (c.now e.1) e.2
  | _ => True

/-! ## The fields of a report -/

section Fields
variable {e : Endpoints} {bw ssrc : ℕ} {now : Timeval} {next ratio : UInt32} {d : RtcpData}

theorem report_packet (i : ℕ) (hi : i < 32) : (report e bw now next ssrc ratio d).1.packet i =
    receiverReport e (decide (ssrc = e.audioSourceSSRC)) now d ratio i := by
  obtain ⟨hholds, -⟩ := compound_spec (reportHeaders e now ssrc ratio d)
  rw [report_eq_compound]
  have hcopy := hholds.1 i (by rwa [rtcpLength_receiverReport])
  rwa [Nat.zero_add] at hcopy

/-- Whatever was lost, the byte is 0. -/
theorem getFractionLost_report :
    RtcpHeader.getFractionLost (report e bw now next ssrc ratio d).1.packet 0 = 0 := by
  rw [RtcpHeader.getFractionLost, report_packet _ (by omega)]
  simp only [receiverReport, RtcpHeader.setDelaySinceLastSr, RtcpHeader.setLastSr, RtcpHeader.setJitter,
    RtcpHeader.setLostPackets, RtcpHeader.setSeqnumCycles, RtcpHeader.setHighestSeqnum, RtcpHeader.setFractionLost]
  rw [Mem.setLong_of_lt (by omega), Mem.setLong_of_lt (by omega), Mem.setLong_of_lt (by omega),
    RtcpHeader.setTriple_of_ne (by omega), Mem.setWord_of_ne (by omega) (by omega), Mem.setWord_of_ne (by omega) (by omega),
    Function.update_self]
  apply UInt8.toNat_inj.mp
  rw [UInt8.toNat_ofNat', UInt8.toNat_zero]
  exact Nat.mul_mod_left _ 256

theorem getDelaySinceLastSr_report :
    RtcpHeader.getDelaySinceLastSr (report e bw now next ssrc ratio d).1.packet 0 =
      d.delaySinceLastSr + now.since d.lastSrUpdated * 65536 / 1000 := by
  have hlong : (report e bw now next ssrc ratio d).1.packet.long 28 =
      (receiverReport e (decide (ssrc = e.audioSourceSSRC)) now d ratio).long 28 :=
    Mem.long_congr fun i _ hi => report_packet i hi
  rw [RtcpHeader.getDelaySinceLastSr, hlong]
  simp only [receiverReport, RtcpHeader.setDelaySinceLastSr, Nat.zero_add]
  rw [Mem.long_setLong, UInt32.ofNat_toNat]

/-- The milliseconds as they are computed, without the bits above 32. -/
theorem toNat_since (now last : Timeval) : ((now.since last).toNat : ℤ) =
    ((now.sec - last.sec) * 1000 + (now.usec - last.usec).tdiv 1000) % 2 ^ 32 := by
  unfold Timeval.since
  generalize (now.sec - last.sec) * 1000 + (now.usec - last.usec).tdiv 1000 = ms
  have hofInt : UInt32.ofInt ms = UInt32.ofNat (ms % 2 ^ 32).toNat := rfl
  rw [hofInt, UInt32.toNat_ofNat']
  omega

/-- The product leaves 16 bits of the milliseconds, and the quotient tells them apart. -/
theorem scaled_eq_iff (delay ms elapsed : ℤ) :
    (delay + ms % 2 ^ 32 * 65536 % 2 ^ 32 / 1000) % 2 ^ 32 = (delay + elapsed * 65536 / 1000) % 2 ^ 32 ↔
      ms % 65536 = elapsed % 65536000 := by
  have hms : ms % 2 ^ 32 * 65536 % 2 ^ 32 = ms % 65536 * 65536 := by omega
  have helapsed : elapsed * 65536 / 1000 = elapsed % 65536000 * 65536 / 1000 + elapsed / 65536000 * 2 ^ 32 := by
    have hsplit : elapsed * 65536 = elapsed % 65536000 * 65536 + 1000 * (elapsed / 65536000 * 2 ^ 32) := by omega
    rw [hsplit, Int.add_mul_ediv_left _ _ (by decide)]
  rw [hms, helapsed, ← Int.add_assoc, Int.add_mul_emod_self_right]
  have hs : 0 ≤ ms % 65536 ∧ ms % 65536 < 65536 := by omega
  have hr : 0 ≤ elapsed % 65536000 ∧ elapsed % 65536000 < 65536000 := by omega
  generalize ms % 65536 = s at hs ⊢
  generalize elapsed % 65536000 = r at hr ⊢
  have hx : 0 ≤ s * 65536 / 1000 ∧ s * 65536 / 1000 < 2 ^ 32 := by omega
  have hy : 0 ≤ r * 65536 / 1000 ∧ r * 65536 / 1000 < 2 ^ 32 := by omega
  constructor
  · intro heq
    have hxy : s * 65536 / 1000 = r * 65536 / 1000 := by
      generalize s * 65536 / 1000 = x at heq hx
      generalize r * 65536 / 1000 = y at heq hy ⊢
      omega
    omega
  · rintro rfl
    rfl

/-- The difference of the microseconds is rounded to 0, and the milliseconds down. -/
theorem precise_iff (now last : Timeval) :
    ((now.sec - last.sec) * 1000 + (now.usec - last.usec).tdiv 1000) % 65536 = now.elapsed last % 65536000 ↔
      (last.usec ≤ now.usec ∨ 1000 ∣ now.usec - last.usec) ∧ now.elapsed last % 65536000 < 65536 := by
  unfold Timeval.elapsed
  generalize now.sec - last.sec = sec
  generalize hu : now.usec - last.usec = usec
  have htdiv : usec.tdiv 1000 = if 0 ≤ usec ∨ 1000 ∣ usec then usec / 1000 else usec / 1000 + 1 := by
    rw [Int.tdiv_eq_ediv]
    split_ifs
    · exact Int.add_zero _
    · rfl
  rw [htdiv]
  split_ifs with hb
  · constructor
    · intro heq
      omega
    · rintro ⟨-, hlt⟩
      omega
  · constructor
    · intro heq
      omega
    · rintro ⟨hno, -⟩
      omega

/-- A report is right exactly if its source is precise, as long as the losses do not go down. -/
theorem rightReport_iff (hloss : d.prevTotalPacketsLost ≤ d.totalPacketsLost)
    (hlt : d.prevExtendedSeqNo < d.extendedSeqNo) :
    RightReport now d (report e bw now next ssrc ratio d).1 ↔ Precise now d := by
  rw [UInt32.le_iff_toNat_le] at hloss
  rw [UInt32.lt_iff_toNat_lt] at hlt
  have hfraction : ((RtcpHeader.getFractionLost (report e bw now next ssrc ratio d).1.packet 0).toNat : ℤ) = min 255
      (256 * ((d.totalPacketsLost.toNat : ℤ) - d.prevTotalPacketsLost.toNat) /
        ((d.extendedSeqNo.toNat : ℤ) - d.prevExtendedSeqNo.toNat)) ↔
      256 * ((d.totalPacketsLost.toNat : ℤ) - d.prevTotalPacketsLost.toNat) <
        (d.extendedSeqNo.toNat : ℤ) - d.prevExtendedSeqNo.toNat := by
    have hpos : (0 : ℤ) < d.extendedSeqNo.toNat - d.prevExtendedSeqNo.toNat := by omega
    have hnonneg : (0 : ℤ) ≤ 256 * ((d.totalPacketsLost.toNat : ℤ) - d.prevTotalPacketsLost.toNat) := by omega
    rw [getFractionLost_report]
    generalize 256 * ((d.totalPacketsLost.toNat : ℤ) - d.prevTotalPacketsLost.toNat) = lost at hnonneg ⊢
    generalize (d.extendedSeqNo.toNat : ℤ) - d.prevExtendedSeqNo.toNat = received at hpos ⊢
    have hquot := Int.ediv_nonneg hnonneg hpos.le
    have hzero : lost / received = 0 ↔ lost < received := by
      have hone := Int.le_ediv_iff_mul_le (a := 1) (b := lost) hpos
      omega
    rw [← hzero, UInt8.toNat_zero]
    omega
  have hdelay : ((RtcpHeader.getDelaySinceLastSr (report e bw now next ssrc ratio d).1.packet 0).toNat : ℤ) =
      (d.delaySinceLastSr.toNat + now.elapsed d.lastSrUpdated * 65536 / 1000) % 2 ^ 32 ↔
      (d.lastSrUpdated.usec ≤ now.usec ∨ 1000 ∣ now.usec - d.lastSrUpdated.usec) ∧
        now.elapsed d.lastSrUpdated % 65536000 < 65536 := by
    rw [getDelaySinceLastSr_report, ← precise_iff, ← scaled_eq_iff d.delaySinceLastSr.toNat, ← toNat_since]
    simp only [UInt32.toNat_add, UInt32.toNat_div, UInt32.toNat_mul, UInt32.reduceToNat]
    push_cast
    rfl
  constructor
  · intro hr
    exact ⟨hfraction.mp hr.fraction, (hdelay.mp hr.delay).1, (hdelay.mp hr.delay).2⟩
  · intro hp
    exact ⟨hfraction.mpr hp.losses, hdelay.mpr ⟨hp.borrow, hp.short⟩⟩

end Fields

/-! ## Runs -/

section Runs
variable {a a' : RtcpAggregator}

def LossCounted (d : RtcpData) : Prop := d.prevTotalPacketsLost ≤ d.totalPacketsLost

private theorem lossCounted_analyzeReceiver {now : Timeval} {s : Analysis} {m : Mem} {p : ℕ}
    (h : LossCounted s.theData) :
    LossCounted (analyzeReceiver now m p s).theData := by
  have hprev : (analyzeReceiver now m p s).theData.prevTotalPacketsLost = s.theData.prevTotalPacketsLost := by
    simp only [analyzeReceiver, recordDelay, recordSeqNo]
    split_ifs <;> rfl
  have htotal : (analyzeReceiver now m p s).theData.totalPacketsLost.toNat =
      max s.theData.totalPacketsLost.toNat (Measure.reported m p .totalPacketsLost) :=
    kept_analyzeReceiver .totalPacketsLost
  unfold LossCounted at *
  rw [UInt32.le_iff_toNat_le] at *
  rw [hprev, htotal]
  exact h.trans (le_max_left _ _)

private theorem lossCounted_analyzePart {bw : ℕ} {now : Timeval} {s : Analysis} {m : Mem} {p : ℕ}
    (h : LossCounted s.theData) :
    LossCounted (analyzePart bw now s m p).theData := by
  rcases analyzePart_cases bw now s m p with ⟨-, heq⟩ | ⟨-, heq⟩ | ⟨-, -, pli, heq⟩ | ⟨-, -, -, _, _, -, heq⟩
  · rw [heq]
    exact lossCounted_analyzeReceiver h
  · obtain ⟨seqNum, blp, send, request, hkeep⟩ := analyzeNack_keeps m p s
    rw [heq, hkeep]
    exact h
  · rw [heq]
    exact h
  · rw [heq]
    exact h

private theorem lossCounted_checkSource {e : Endpoints} {bw ssrc : ℕ} {now : Timeval} {next : UInt32} {d d' : RtcpData}
    {r : Option Delivery × Bool} (hd : LossCounted d) (h : checkSource e bw now next ssrc d = some (r, d')) :
    LossCounted d' := by
  rcases checkSource_cases h with ⟨-, rfl⟩ | ⟨ratio, -, rfl⟩
  · exact hd
  · obtain ⟨hprev, htotal⟩ := report_losses e bw now next ssrc ratio d
    unfold LossCounted
    simp only []
    rw [hprev, htotal]
    exact UInt32.le_refl _

theorem lossCounted_step {ev : Event} {o : Output} (h : All LossCounted a.rtcpData) (hs : step a ev = some (o, a')) :
    All LossCounted a'.rtcpData := by
  apply h.step _ _ _ _ hs
  · intro lastSrUpdated mediaType
    exact UInt32.le_refl _
  · intro d senderReports hd
    exact hd
  · intro bw now s m p hs
    exact lossCounted_analyzePart hs
  · intro e bw now next ssrc d r d' hd hc
    exact lossCounted_checkSource hd hc

/-- A source that is due and has received packets sends a report. -/
theorem checkSource_of_due (e : Endpoints) (bw ssrc : ℕ) (next : UInt32) {now : Timeval} {d : RtcpData}
    (hdue : due d now = true) (hlt : d.prevExtendedSeqNo < d.extendedSeqNo) :
    ∃ ratio pli d', checkSource e bw now next ssrc d = some ((some (report e bw now next ssrc ratio d).1, pli), d') := by
  have hsome : (checkSource e bw now next ssrc d).isSome := by
    rw [checkSource_isSome_iff]
    intro _ heq
    rw [heq] at hlt
    exact absurd hlt (UInt32.lt_irrefl _)
  unfold checkSource sendReport at hsome ⊢
  rw [if_pos hdue] at hsome ⊢
  simp only [] at hsome ⊢
  split_ifs at hsome ⊢ with hzero
  · cases hsome
  · exact ⟨_, _, _, rfl⟩

theorem reporting_iff (h : All LossCounted a.rtcpData) (ev : Event) : Reporting a ev ↔ AllPrecise a ev := by
  cases ev with
  | checkRtcpFb c =>
    constructor
    · intro hr e he hlt hdue
      obtain ⟨ratio, pli, d', hc⟩ := checkSource_of_due c.ends a.defaultVideoBw e.1 (c.next e.1) hdue hlt
      exact (rightReport_iff (h e he) hlt).mp (hr e he hlt _ pli d' hc)
    · intro hp e he hlt s pli d' hc
      have hdue : due e.2 (c.now e.1) = true := by
        by_contra hnot
        rw [checkSource, if_neg hnot] at hc
        cases hc
      rcases checkSource_cases hc with ⟨hnone, -⟩ | ⟨ratio, hsome, -⟩
      · cases hnone
      · cases hsome
        exact (rightReport_iff (h e he) hlt).mpr (hp e he hlt hdue)
  | _ => exact Iff.rfl

/-- In a run all reports of sources that have received packets since the last one are right exactly if each of these
sources is precise when it is due. -/
theorem along_reporting_iff (uninitialized maxVideoBw : ℕ) (evs : List Event) :
    Along step Reporting (new uninitialized maxVideoBw) evs ↔
      Along step AllPrecise (new uninitialized maxVideoBw) evs := by
  have hnew : All LossCounted (new uninitialized maxVideoBw).rtcpData := .empty
  apply along_iff (I := fun a => All LossCounted a.rtcpData)
  · intro a ev h
    exact reporting_iff h ev
  · intro a ev o a' h _ hs
    exact lossCounted_step h hs
  · exact hnew

/-- A receiver report of one block: 3 of 5 packets are lost, and the last sender report was 1. -/
def lossyReport : Mem := fun i =>
  if i = 0 then 0x81 else if i = 1 then 201 else if i = 3 then 7 else if i = 11 then 2 else if i = 15 then 3
  else if i = 19 then 5 else if i = 27 then 1 else 0

/-- The report that follows has a loss of 0. -/
theorem not_along_reporting_lossy : ¬ Along step Reporting (new 0 300000)
    [.analyzeFeedback ⟨exampleEnds, ⟨100, 0⟩, ⟨0, 0⟩, 0⟩ lossyReport 32,
      .checkRtcpFb ⟨exampleEnds, fun _ => ⟨101, 0⟩, fun _ => 800⟩] := by
  intro h
  have hcheck := (h.2 _ _ (step_analyzeFeedback _ _ _ _)).1
  have hinv : All LossCounted ((new 0 300000).analyzeFeedback ⟨exampleEnds, ⟨100, 0⟩, ⟨0, 0⟩, 0⟩ lossyReport 32).2.rtcpData :=
    lossCounted_step .empty (step_analyzeFeedback (new 0 300000) _ _ _)
  have hlossy : ∃ e ∈ ((new 0 300000).analyzeFeedback ⟨exampleEnds, ⟨100, 0⟩, ⟨0, 0⟩, 0⟩ lossyReport 32).2.rtcpData.entries,
      e.2.prevExtendedSeqNo < e.2.extendedSeqNo ∧ due e.2 ⟨101, 0⟩ = true ∧
        ¬ 256 * ((e.2.totalPacketsLost.toNat : ℤ) - e.2.prevTotalPacketsLost.toNat) <
          (e.2.extendedSeqNo.toNat : ℤ) - e.2.prevExtendedSeqNo.toNat := by
    decide +kernel
  obtain ⟨e, he, hlt, hdue, hlosses⟩ := hlossy
  exact hlosses ((reporting_iff hinv _).mp hcheck e he hlt hdue).losses

end Runs
end RtcpAggregator
end Sfup.Rtp
