import Sfup.Rtp.Records
import Mathlib.Data.UInt

/-! The divisor of a report is the number of packets since the last one: it is 0 if a source is due again and
no greater sequence number was received. -/
namespace Sfup.Rtp.RtcpAggregator
open Sfup.Transition

section Parts
variable {d : RtcpData} {s : Analysis} {m : Mem} {chead : ℕ} {now : Timeval} {next : UInt32}

def Counted (d : RtcpData) : Prop := d.prevExtendedSeqNo ≤ d.extendedSeqNo

private theorem counted_recordSeqNo (cycles highest : UInt16) (h : Counted d) :
    Counted (recordSeqNo cycles highest d) := by
  unfold recordSeqNo
  simp only []
  split_ifs with hlt
  · exact UInt32.le_trans h (UInt32.le_of_lt hlt)
  · exact h

private theorem counted_recordDelay (lastSr dlsr delay : UInt32) (h : Counted d) :
    Counted (recordDelay now lastSr dlsr delay d) := by
  unfold recordDelay
  split_ifs <;> exact h

private theorem counted_analyzeReceiver (h : Counted s.theData) : Counted (analyzeReceiver now m chead s).theData :=
  counted_recordDelay _ _ _ (counted_recordSeqNo _ _ h)

theorem counted_analyzePart (defaultVideoBw : ℕ) (h : Counted s.theData) :
    Counted (analyzePart defaultVideoBw now s m chead).theData := by
  rcases analyzePart_cases defaultVideoBw now s m chead with
    ⟨-, heq⟩ | ⟨-, heq⟩ | ⟨-, -, pli, heq⟩ | ⟨-, -, -, _, _, -, heq⟩
  · rw [heq]
    exact counted_analyzeReceiver h
  · obtain ⟨seqNum, blp, send, request, hkeep⟩ := analyzeNack_keeps m chead s
    rw [heq, hkeep]
    exact h
  · rw [heq]
    exact h
  · rw [heq]
    exact h

private theorem sendReport_isSome_iff {e : Endpoints} {defaultVideoBw sourceSsrc : ℕ} :
    (sendReport e defaultVideoBw now next sourceSsrc d).isSome ↔ d.extendedSeqNo ≠ d.prevExtendedSeqNo := by
  simp [sendReport, sub_eq_zero]

theorem checkSource_isSome_iff {e : Endpoints} {defaultVideoBw sourceSsrc : ℕ} :
    (checkSource e defaultVideoBw now next sourceSsrc d).isSome ↔
      (due d now = true → d.extendedSeqNo ≠ d.prevExtendedSeqNo) := by
  unfold checkSource
  split_ifs with h
  · rw [Option.isSome_map, sendReport_isSome_iff]
    simp [h]
  · simp [h]

theorem counted_checkSource {e : Endpoints} {defaultVideoBw sourceSsrc : ℕ} {r : Option Delivery × Bool}
    {d' : RtcpData} (hd : Counted d) (h : checkSource e defaultVideoBw now next sourceSsrc d = some (r, d')) :
    Counted d' := by
  rcases checkSource_cases h with ⟨-, rfl⟩ | ⟨ratio, -, rfl⟩
  · exact hd
  · obtain ⟨hprev, hext, -⟩ := report_keeps e defaultVideoBw now next sourceSsrc ratio d
    unfold Counted
    simp only []
    rw [hprev, hext]
    exact UInt32.le_refl _

end Parts

section Runs
variable {a a' : RtcpAggregator}

def AllCounted (a : RtcpAggregator) : Prop := ∀ e ∈ a.rtcpData.entries, Counted e.2

private theorem allCounted_step {ev : Event} {o : Output} (h : AllCounted a) (hs : step a ev = some (o, a')) :
    AllCounted a' := by
  have hall : All Counted a.rtcpData := h
  apply hall.step _ _ _ _ hs
  · intro lastSrUpdated mediaType
    exact UInt32.le_refl _
  · intro d senderReports hd
    exact hd
  · intro bw now s m p hs
    exact counted_analyzePart bw hs
  · intro e bw now next ssrc d r d' hd hc
    exact counted_checkSource hd hc

/-- Every source that is due has received a greater sequence number than at its last report. -/
def Advanced (a : RtcpAggregator) : Event → Prop
  | .checkRtcpFb c => ∀ e ∈ a.rtcpData.entries, due e.2 (c.now e.1) = true → e.2.prevExtendedSeqNo < e.2.extendedSeqNo
  | _ => True

private theorem step_isSome_iff {ev : Event} (h : AllCounted a) : (step a ev).isSome ↔ Advanced a ev := by
  cases ev with
  | checkRtcpFb c =>
    simp only [step, checkRtcpFb, Option.isSome_map, OrdMap.mapM_isSome_iff, Advanced, checkSource_isSome_iff]
    apply forall₂_congr
    intro e he
    apply imp_congr_right
    intro _
    have hle : e.2.prevExtendedSeqNo ≤ e.2.extendedSeqNo := h e he
    grind
  | _ => simp [step, Advanced]

/-- No call divides by zero exactly if, at each check of a run, every source that is due has received a
greater sequence number than at its last report. -/
theorem run_isSome_iff (uninitialized maxVideoBw : ℕ) (evs : List Event) :
    (run? step (new uninitialized maxVideoBw) evs).isSome ↔
      Along step Advanced (new uninitialized maxVideoBw) evs := by
  have hnew : AllCounted (new uninitialized maxVideoBw) := fun _ he => absurd he List.not_mem_nil
  apply run?_isSome_iff (I := AllCounted)
  · intro a ev h
    exact step_isSome_iff h
  · intro a ev o a' h hs
    exact allCounted_step h hs
  · exact hnew

end Runs

section Failure

/-- A receiver report of one block: the highest number is 5, and the last sender report was 1. -/
def receiverReportFive : Mem := fun i =>
  if i = 0 then 0x81 else if i = 1 then 201 else if i = 3 then 7 else if i = 11 then 2 else if i = 19 then 5
  else if i = 27 then 1 else 0

def exampleEnds : Endpoints := ⟨1, 2, 3, 4⟩

/-- The second report of a source divides by zero if no receiver report came in between. -/
theorem not_isSome_two_reports : (run? step (new 0 300000)
    [.analyzeFeedback ⟨exampleEnds, ⟨100, 0⟩, ⟨0, 0⟩, 0⟩ receiverReportFive 32,
      .checkRtcpFb ⟨exampleEnds, fun _ => ⟨101, 0⟩, fun _ => 800⟩,
      .checkRtcpFb ⟨exampleEnds, fun _ => ⟨102, 0⟩, fun _ => 800⟩]).isSome = false := by
  decide +kernel

end Failure
end Sfup.Rtp.RtcpAggregator
