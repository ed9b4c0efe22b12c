import Sfup.Rtp.Records
import Mathlib.Data.Finset.Lattice.Fold
import Mathlib.Order.Lattice.Nat

/-! Receiver reports in the aggregator: the record of a source holds the maxima of what the reports about it say, as
long as no report of a compound is about another source than the first packet of the compound. -/
namespace Sfup.Rtp
open RtcpProcessor (Sources rtcpLength)

def RtcpHeader.IsAbout (m : Mem) (p ssrc : ℕ) : Prop :=
  isFeedback m p = true ∧ ¬ (packettype m p = 201 ∧ getBlockCount m p = 0) ∧ getSourceSSRC m p = ssrc

instance {m : Mem} {p ssrc : ℕ} : Decidable (RtcpHeader.IsAbout m p ssrc) :=
  inferInstanceAs (Decidable (_ ∧ _ ∧ _))

/-- The values of a receiver report of which the record of its source keeps the greatest. -/
inductive Measure where
  | totalPacketsLost
  | jitter
  | extendedSeqNo
deriving DecidableEq

namespace Measure

def kept (d : RtcpData) : Measure → ℕ
  | totalPacketsLost => d.totalPacketsLost.toNat
  | jitter => d.jitter.toNat
  | extendedSeqNo => d.extendedSeqNo.toNat

def reported (m : Mem) (p : ℕ) : Measure → ℕ
  | totalPacketsLost => (RtcpHeader.getLostPackets m p).toNat
  | jitter => (RtcpHeader.getJitter m p).toNat
  | extendedSeqNo => (RtcpHeader.getSeqnumCycles m p).toNat * 65536 + (RtcpHeader.getHighestSeqnum m p).toNat

end Measure

namespace RtcpAggregator

/-- The packets of a compound. -/
def parts (buf : Mem) (len : ℕ) : List ℕ := Walk.blocks rtcpLength buf len (len + 1) 0

def reports (buf : Mem) (len : ℕ) : Finset ℕ := (parts buf len).toFinset.filter (RtcpHeader.packettype buf · = 201)

/-- What is kept for a source; 0 is the value of a new record. -/
def measured (a : RtcpAggregator) (ssrc : ℕ) (x : Measure) : ℕ := (a.rtcpData.find? ssrc).elim 0 fun d => x.kept d

def greatest (a : RtcpAggregator) (buf : Mem) (len ssrc : ℕ) (x : Measure) : ℕ :=
  max (a.measured ssrc x) (((reports buf len).filter (RtcpHeader.IsAbout buf · ssrc)).sup fun p => x.reported buf p)

def Halves (d : RtcpData) : Prop :=
  d.highestSeqNumReceived.toNat = d.extendedSeqNo.toNat % 65536 ∧ d.seqNumCycles.toNat = d.extendedSeqNo.toNat / 65536

/-- What a compound does to the records of the sources. -/
structure Attributes (a : RtcpAggregator) (buf : Mem) (len : ℕ) (a' : RtcpAggregator) : Prop where
  frame : ∀ ssrc, (∀ p ∈ parts buf len, ¬ RtcpHeader.IsAbout buf p ssrc) →
    a'.rtcpData.find? ssrc = a.rtcpData.find? ssrc
  maxima : ∀ ssrc x, a'.measured ssrc x = a.greatest buf len ssrc x
  halves : All Halves a'.rtcpData

/-- A packet of the compound is about the source of the first one, and no report that is not about that source says
more than is known of it and of its own source. -/
def Attributable (a : RtcpAggregator) (buf : Mem) (len : ℕ) : Prop :=
  RtcpProcessor.analyzes buf len = true →
    (∃ p ∈ parts buf len, RtcpHeader.IsAbout buf p (RtcpHeader.getSourceSSRC buf 0)) ∧
    ∀ p ∈ reports buf len, ¬ RtcpHeader.IsAbout buf p (RtcpHeader.getSourceSSRC buf 0) → ∀ x : Measure,
      x.reported buf p ≤ a.greatest buf len (RtcpHeader.getSourceSSRC buf 0) x ∧
      ∀ ssrc, RtcpHeader.IsAbout buf p ssrc → x.reported buf p ≤ a.measured ssrc x

/-! ## One packet of a compound -/

section Part
variable {bw : ℕ} {now : Timeval} {s : Analysis} {m : Mem} {p : ℕ}

theorem toNat_extendedSeqNo (cycles highest : UInt16) :
    ((cycles.toUInt32 <<< 16) + highest.toUInt32).toNat = cycles.toNat * 65536 + highest.toNat := by
  have hc := cycles.toNat_lt
  have hh := highest.toNat_lt
  simp only [UInt32.toNat_add, UInt32.toNat_shiftLeft, UInt16.toNat_toUInt32, Nat.shiftLeft_eq, UInt32.reduceToNat,
    Nat.reduceMod, Nat.reducePow]
  omega

def SameReports (d d' : RtcpData) : Prop :=
  d'.totalPacketsLost = d.totalPacketsLost ∧ d'.jitter = d.jitter ∧ d'.extendedSeqNo = d.extendedSeqNo ∧
    d'.highestSeqNumReceived = d.highestSeqNumReceived ∧ d'.seqNumCycles = d.seqNumCycles ∧
    d'.rrsReceivedInPeriod = d.rrsReceivedInPeriod

section Same
variable {d d' : RtcpData}

theorem SameReports.refl (d : RtcpData) : SameReports d d := ⟨rfl, rfl, rfl, rfl, rfl, rfl⟩

theorem SameReports.kept (h : SameReports d d') (x : Measure) : x.kept d' = x.kept d := by
  obtain ⟨hlost, hjitter, hext, -⟩ := h
  cases x <;> simp only [Measure.kept, hlost, hjitter, hext]

theorem SameReports.halves (h : SameReports d d') : Halves d' ↔ Halves d := by
  obtain ⟨-, -, hext, hhigh, hcycles, -⟩ := h
  rw [Halves, Halves, hext, hhigh, hcycles]

end Same

theorem sameReports_recordDelay (lastSr dlsr delay : UInt32) (d : RtcpData) :
    SameReports d (recordDelay now lastSr dlsr delay d) := by
  unfold recordDelay
  split_ifs
  · exact .refl d
  · exact .refl d

theorem kept_recordSeqNo (cycles highest : UInt16) (d : RtcpData) (x : Measure) :
    x.kept (recordSeqNo cycles highest d) =
      if x = .extendedSeqNo then max (x.kept d) (cycles.toNat * 65536 + highest.toNat) else x.kept d := by
  have hext := toNat_extendedSeqNo cycles highest
  cases x with
  | extendedSeqNo =>
    rw [if_pos rfl]
    simp only [recordSeqNo, Measure.kept]
    split_ifs with hlt
    · rw [gt_iff_lt, UInt32.lt_iff_toNat_lt] at hlt
      simp only []
      omega
    · rw [gt_iff_lt, UInt32.lt_iff_toNat_lt] at hlt
      omega
  | _ =>
    rw [if_neg (by decide)]
    simp only [recordSeqNo, Measure.kept]
    split_ifs <;> rfl

private theorem halves_recordSeqNo (cycles highest : UInt16) {d : RtcpData} (h : Halves d) :
    Halves (recordSeqNo cycles highest d) := by
  have hext := toNat_extendedSeqNo cycles highest
  have hh := highest.toNat_lt
  simp only [recordSeqNo]
  split_ifs
  · unfold Halves
    simp only []
    omega
  · exact h

private theorem rrsReceivedInPeriod_recordSeqNo (cycles highest : UInt16) (d : RtcpData) :
    (recordSeqNo cycles highest d).rrsReceivedInPeriod = d.rrsReceivedInPeriod := by
  simp only [recordSeqNo]
  split_ifs <;> rfl

private theorem toNat_ite_gt (v w : UInt32) : (if v > w then v else w).toNat = max v.toNat w.toNat := by
  split_ifs with h
  · rw [gt_iff_lt, UInt32.lt_iff_toNat_lt] at h
    omega
  · rw [gt_iff_lt, UInt32.lt_iff_toNat_lt] at h
    omega

/-- A receiver report raises what is kept, whatever source it is about. -/
theorem kept_analyzeReceiver (x : Measure) :
    x.kept (analyzeReceiver now m p s).theData = max (x.kept s.theData) (x.reported m p) := by
  simp only [analyzeReceiver]
  rw [(sameReports_recordDelay _ _ _ _).kept, kept_recordSeqNo]
  cases x with
  | totalPacketsLost =>
    rw [if_neg (by decide)]
    exact toNat_ite_gt _ _
  | jitter =>
    rw [if_neg (by decide)]
    exact toNat_ite_gt _ _
  | extendedSeqNo =>
    rw [if_pos rfl]
    rfl

private theorem halves_analyzeReceiver (h : Halves s.theData) : Halves (analyzeReceiver now m p s).theData := by
  simp only [analyzeReceiver]
  rw [(sameReports_recordDelay _ _ _ _).halves]
  exact halves_recordSeqNo _ _ h

private theorem rrsReceivedInPeriod_analyzeReceiver :
    (analyzeReceiver now m p s).theData.rrsReceivedInPeriod = s.theData.rrsReceivedInPeriod + 1 := by
  simp only [analyzeReceiver]
  rw [(sameReports_recordDelay _ _ _ _).2.2.2.2.2, rrsReceivedInPeriod_recordSeqNo]

theorem sameReports_analyzePart (h : RtcpHeader.packettype m p ≠ 201) :
    SameReports s.theData (analyzePart bw now s m p).theData := by
  rcases analyzePart_cases bw now s m p with ⟨ht, -⟩ | ⟨-, heq⟩ | ⟨-, -, pli, heq⟩ | ⟨-, -, -, _, _, -, heq⟩
  · exact absurd ht h
  · obtain ⟨seqNum, blp, send, request, hkeep⟩ := analyzeNack_keeps m p s
    rw [heq, hkeep]
    exact .refl s.theData
  · rw [heq]
    exact .refl s.theData
  · rw [heq]
    exact .refl s.theData

theorem analyzePart_of_report (h : RtcpHeader.packettype m p = 201) :
    analyzePart bw now s m p = analyzeReceiver now m p s := if_pos h

theorem halves_analyzePart (h : Halves s.theData) : Halves (analyzePart bw now s m p).theData := by
  by_cases ht : RtcpHeader.packettype m p = 201
  · rw [analyzePart_of_report ht]
    exact halves_analyzeReceiver h
  · exact (sameReports_analyzePart ht).halves.mpr h

private theorem kept_analyzePart (x : Measure) : x.kept (analyzePart bw now s m p).theData =
    if RtcpHeader.packettype m p = 201 then max (x.kept s.theData) (x.reported m p) else x.kept s.theData := by
  split_ifs with ht
  · rw [analyzePart_of_report ht, kept_analyzeReceiver]
  · exact (sameReports_analyzePart ht).kept x

private theorem rrsReceivedInPeriod_analyzePart : (analyzePart bw now s m p).theData.rrsReceivedInPeriod =
    s.theData.rrsReceivedInPeriod + if RtcpHeader.packettype m p = 201 then 1 else 0 := by
  split_ifs with ht
  · rw [analyzePart_of_report ht, rrsReceivedInPeriod_analyzeReceiver]
  · rw [(sameReports_analyzePart ht).2.2.2.2.2, UInt16.add_zero]

end Part

/-! ## A compound -/

section Compound
variable {bw len : ℕ} {now : Timeval} {s : Analysis} {buf : Mem}

theorem analyzeLoop_eq (bw : ℕ) (now : Timeval) (len : ℕ) (s : Analysis) (buf : Mem) :
    analyzeLoop bw now len s buf = (parts buf len).foldl (fun s p => analyzePart bw now s buf p) s :=
  Walk.loop_eq_foldl (analyzePart bw now) s

theorem kept_analyzeLoop (x : Measure) : x.kept (analyzeLoop bw now len s buf).theData =
    max (x.kept s.theData) ((reports buf len).sup fun p => x.reported buf p) := by
  rw [analyzeLoop_eq, reports]
  generalize parts buf len = ps
  induction ps generalizing s with
  | nil => simp
  | cons p ps ih =>
    rw [List.foldl_cons, ih, kept_analyzePart, List.toFinset_cons, Finset.filter_insert]
    split_ifs
    · rw [Finset.sup_insert, max_assoc]
    · rfl

theorem rrsReceivedInPeriod_analyzeLoop : (analyzeLoop bw now len s buf).theData.rrsReceivedInPeriod =
    s.theData.rrsReceivedInPeriod + UInt16.ofNat ((parts buf len).countP (RtcpHeader.packettype buf · = 201)) := by
  rw [analyzeLoop_eq]
  generalize parts buf len = ps
  induction ps generalizing s with
  | nil => simp
  | cons p ps ih =>
    rw [List.foldl_cons, ih, rrsReceivedInPeriod_analyzePart, List.countP_cons]
    by_cases ht : RtcpHeader.packettype buf p = 201
    · simp [ht, UInt16.add_assoc, UInt16.add_comm 1]
    · simp [ht]

theorem zero_mem_parts (buf : Mem) (len : ℕ) : 0 ∈ parts buf len := by
  rw [parts, Walk.blocks]
  exact List.mem_cons_self

/-- A datagram has no room for so many packets that the counter of the reports comes around. -/
theorem length_parts_lt (hlen : len < 2 ^ 16) : (parts buf len).length < 2 ^ 16 := by
  have hle : 4 * (parts buf len).length ≤ len - 0 + 4 := by
    apply Walk.length_blocks_le
    intro p
    unfold rtcpLength
    omega
  omega

variable {a : RtcpAggregator} {c : Call} {ssrc : ℕ}

theorem find?_analyzeFeedback_of_ne (h : ssrc ≠ RtcpHeader.getSourceSSRC buf 0) :
    (a.analyzeFeedback c buf len).2.rtcpData.find? ssrc = a.rtcpData.find? ssrc := by
  unfold analyzeFeedback
  split_ifs
  · simp only []
    rw [OrdMap.find?_set, if_neg h.symm]
    unfold RtcpProcessor.addSourceSsrc
    split
    · rfl
    · rw [OrdMap.find?_set, if_neg h.symm]
  · rfl

theorem find?_analyzeFeedback (h : RtcpProcessor.analyzes buf len = true) :
    (a.analyzeFeedback c buf len).2.rtcpData.find? (RtcpHeader.getSourceSSRC buf 0) =
      some (analyzeLoop a.defaultVideoBw c.now len (a.analysis c buf) buf).theData := by
  rw [analyzeFeedback_of_analyzes h, OrdMap.find?_set, if_pos rfl]

/-- The loop starts from what is kept for the source of the first packet. -/
theorem kept_analysis (a : RtcpAggregator) (c : Call) (buf : Mem) (x : Measure) :
    x.kept (a.analysis c buf).theData = a.measured (RtcpHeader.getSourceSSRC buf 0) x := by
  simp only [analysis, measured]
  cases hd : a.rtcpData.find? (RtcpHeader.getSourceSSRC buf 0) with
  | some d =>
    rw [data_of_find? (RtcpProcessor.find?_addSourceSsrc c _ _ hd)]
    rfl
  | none =>
    rw [RtcpProcessor.addSourceSsrc, hd, RtcpProcessor.data]
    simp only [OrdMap.find?_set, if_true, Option.getD_some]
    cases x <;> rfl

theorem measured_analyzeFeedback (h : RtcpProcessor.analyzes buf len = true) (ssrc : ℕ) (x : Measure) :
    (a.analyzeFeedback c buf len).2.measured ssrc x = if ssrc = RtcpHeader.getSourceSSRC buf 0 then
      max (a.measured ssrc x) ((reports buf len).sup fun p => x.reported buf p) else a.measured ssrc x := by
  split_ifs with hs
  · subst hs
    rw [measured, find?_analyzeFeedback h, Option.elim_some, kept_analyzeLoop, kept_analysis]
  · rw [measured, find?_analyzeFeedback_of_ne hs]
    rfl

/-- A report without a source changes the record that its bytes happen to name. -/
theorem find?_analyzeFeedback_ne (hlen : len < 2 ^ 16) (h : RtcpProcessor.analyzes buf len = true)
    (ht : RtcpHeader.packettype buf 0 = 201) :
    (a.analyzeFeedback c buf len).2.rtcpData.find? (RtcpHeader.getSourceSSRC buf 0) ≠
      a.rtcpData.find? (RtcpHeader.getSourceSSRC buf 0) := by
  rw [find?_analyzeFeedback h]
  intro heq
  have hdata : (a.analysis c buf).theData = (analyzeLoop a.defaultVideoBw c.now len (a.analysis c buf) buf).theData :=
    data_of_find? (RtcpProcessor.find?_addSourceSsrc c _ _ heq.symm)
  have hrrs : (analyzeLoop a.defaultVideoBw c.now len (a.analysis c buf) buf).theData.rrsReceivedInPeriod = _ :=
    rrsReceivedInPeriod_analyzeLoop
  rw [← hdata] at hrrs
  have hcount : 0 < (parts buf len).countP (RtcpHeader.packettype buf · = 201) :=
    List.countP_pos_iff.mpr ⟨0, zero_mem_parts buf len, by simpa using ht⟩
  have hle : (parts buf len).countP (RtcpHeader.packettype buf · = 201) ≤ (parts buf len).length :=
    List.countP_le_length
  have hlt : (parts buf len).length < 2 ^ 16 := length_parts_lt hlen
  have hnat := congrArg UInt16.toNat hrrs
  have hd := (a.analysis c buf).theData.rrsReceivedInPeriod.toNat_lt
  rw [UInt16.toNat_add, UInt16.toNat_ofNat'] at hnat
  omega

end Compound

/-! ## Reachable states -/

section Runs
open Sfup.Transition
variable {a a' : RtcpAggregator} {c : Call} {buf : Mem} {len : ℕ}

private theorem halves_checkSource {e : Endpoints} {bw ssrc : ℕ} {now : Timeval} {next : UInt32} {d d' : RtcpData}
    {r : Option Delivery × Bool} (hd : Halves d) (h : checkSource e bw now next ssrc d = some (r, d')) : Halves d' := by
  rcases checkSource_cases h with ⟨-, rfl⟩ | ⟨ratio, -, rfl⟩
  · exact hd
  · obtain ⟨-, hext, hhigh, hcycles, -⟩ := report_keeps e bw now next ssrc ratio d
    unfold Halves at hd ⊢
    simp only []
    rw [hext, hhigh, hcycles]
    exact hd

theorem halves_step {ev : Event} {o : Output} (h : All Halves a.rtcpData) (hs : step a ev = some (o, a')) :
    All Halves a'.rtcpData := by
  apply h.step _ _ _ _ hs
  · intro lastSrUpdated mediaType
    exact ⟨rfl, by simp⟩
  · intro d senderReports hd
    exact hd
  · intro bw now s m p hs
    exact halves_analyzePart hs
  · intro e bw now next ssrc d r d' hd hc
    exact halves_checkSource hd hc

theorem halves_run {uninitialized maxVideoBw : ℕ} {evs : List Event} {os : List Output}
    (hrun : run? step (new uninitialized maxVideoBw) evs = some (os, a)) : All Halves a.rtcpData := by
  have halong : Along step (fun _ _ => True) (new uninitialized maxVideoBw) evs :=
    along_of_forall (fun _ _ => trivial) _ _
  apply run?_invariant (I := fun a => All Halves a.rtcpData) _ All.empty halong hrun
  intro a ev o a' h _ hs
  exact halves_step h hs

/-- The maxima are right if and only if no report that is not about the first source says anything new. -/
theorem maxima_iff (h : RtcpProcessor.analyzes buf len = true) :
    (∀ ssrc x, (a.analyzeFeedback c buf len).2.measured ssrc x = a.greatest buf len ssrc x) ↔
      ∀ p ∈ reports buf len, ¬ RtcpHeader.IsAbout buf p (RtcpHeader.getSourceSSRC buf 0) → ∀ x : Measure,
        x.reported buf p ≤ a.greatest buf len (RtcpHeader.getSourceSSRC buf 0) x ∧
        ∀ ssrc, RtcpHeader.IsAbout buf p ssrc → x.reported buf p ≤ a.measured ssrc x := by
  simp only [measured_analyzeFeedback h]
  constructor
  · intro hmax p hp hnot x
    constructor
    · rw [← hmax, if_pos rfl]
      exact (Finset.le_sup (f := fun p => x.reported buf p) hp).trans (le_max_right _ _)
    · intro ssrc habout
      have hne : ssrc ≠ RtcpHeader.getSourceSSRC buf 0 := fun heq => hnot (heq ▸ habout)
      have hssrc := hmax ssrc x
      rw [if_neg hne] at hssrc
      rw [hssrc]
      apply le_max_of_le_right
      exact Finset.le_sup (f := fun p => x.reported buf p) (Finset.mem_filter.mpr ⟨hp, habout⟩)
  · intro hall ssrc x
    split_ifs with hs
    · subst hs
      apply le_antisymm
      · apply max_le (le_max_left _ _)
        apply Finset.sup_le
        intro p hp
        by_cases habout : RtcpHeader.IsAbout buf p (RtcpHeader.getSourceSSRC buf 0)
        · apply le_max_of_le_right
          exact Finset.le_sup (f := fun p => x.reported buf p) (Finset.mem_filter.mpr ⟨hp, habout⟩)
        · exact (hall p hp habout x).1
      · exact max_le_max_left _ (Finset.sup_mono (Finset.filter_subset _ _))
    · symm
      apply max_eq_left
      apply Finset.sup_le
      intro p hp
      obtain ⟨hp, habout⟩ := Finset.mem_filter.mp hp
      have hnot : ¬ RtcpHeader.IsAbout buf p (RtcpHeader.getSourceSSRC buf 0) :=
        fun h0 => hs (habout.2.2.symm.trans h0.2.2)
      exact (hall p hp hnot x).2 ssrc habout

theorem ignored_reports (hfb : RtcpHeader.isFeedback buf 0 = true) (h : ¬ RtcpProcessor.analyzes buf len = true)
    (ssrc : ℕ) : (reports buf len).filter (RtcpHeader.IsAbout buf · ssrc) = ∅ := by
  have hempty : RtcpHeader.getBlockCount buf 0 = 0 ∧ rtcpLength buf 0 = len := by
    simpa [RtcpProcessor.analyzes, hfb, RtcpProcessor.isEmptyRr] using h
  have hparts : parts buf len = [0] := by
    rw [parts, Walk.blocks, if_neg (by omega)]
  rw [Finset.filter_eq_empty_iff]
  intro p hp habout
  obtain ⟨hp, ht⟩ := Finset.mem_filter.mp hp
  rw [hparts, List.mem_toFinset, List.mem_singleton] at hp
  subst hp
  exact habout.2.1 ⟨ht, hempty.1⟩

/-- The frame holds if and only if some packet is about the source that the first one names. -/
theorem frame_iff (hlen : len < 2 ^ 16) (h : RtcpProcessor.analyzes buf len = true) :
    (∀ ssrc, (∀ p ∈ parts buf len, ¬ RtcpHeader.IsAbout buf p ssrc) →
      (a.analyzeFeedback c buf len).2.rtcpData.find? ssrc = a.rtcpData.find? ssrc) ↔
      ∃ p ∈ parts buf len, RtcpHeader.IsAbout buf p (RtcpHeader.getSourceSSRC buf 0) := by
  constructor
  · intro hframe
    by_contra hnone
    push Not at hnone
    have hempty := hnone 0 (zero_mem_parts buf len)
    have hfb : RtcpHeader.isFeedback buf 0 = true := (Bool.and_eq_true_iff.mp h).1
    have ht : RtcpHeader.packettype buf 0 = 201 := by
      by_contra hne
      exact hempty ⟨hfb, fun h => hne h.1, rfl⟩
    exact find?_analyzeFeedback_ne hlen h ht (hframe _ hnone)
  · rintro ⟨p, hp, habout⟩ ssrc hnone
    apply find?_analyzeFeedback_of_ne
    rintro rfl
    exact hnone p hp habout

/-- In every reachable state, a compound of feedback in a datagram raises the maxima of the sources that its reports are
about, and changes no other record, if and only if none of its reports belongs to another record than that of the
first packet. -/
theorem attributes_iff {uninitialized maxVideoBw : ℕ} {evs : List Event} {os : List Output}
    (hrun : run? step (new uninitialized maxVideoBw) evs = some (os, a)) (hfb : RtcpHeader.isFeedback buf 0 = true)
    (hlen : len < 2 ^ 16) :
    Attributes a buf len (a.analyzeFeedback c buf len).2 ↔ Attributable a buf len := by
  have hhalves := halves_run hrun
  by_cases h : RtcpProcessor.analyzes buf len = true
  · have hafter : All Halves (a.analyzeFeedback c buf len).2.rtcpData :=
      halves_step hhalves (step_analyzeFeedback a c buf len)
    constructor
    · intro hattr _
      exact ⟨(frame_iff hlen h).mp hattr.frame, (maxima_iff h).mp hattr.maxima⟩
    · intro hcond
      obtain ⟨hframe, hmax⟩ := hcond h
      exact ⟨(frame_iff hlen h).mpr hframe, (maxima_iff h).mpr hmax, hafter⟩
  · have hsame : (a.analyzeFeedback c buf len).2 = a := by rw [analyzeFeedback, if_neg h]
    have hreports : ∀ ssrc, (reports buf len).filter (RtcpHeader.IsAbout buf · ssrc) = ∅ := ignored_reports hfb h
    rw [hsame]
    constructor
    · intro _ h'
      exact absurd h' h
    · intro _
      refine ⟨fun _ _ => rfl, ?_, hhalves⟩
      intro ssrc x
      rw [greatest, hreports, Finset.sup_empty]
      exact (max_eq_left (Nat.zero_le _)).symm

/-- Two receiver reports of 32 bytes: the highest number of the source 1 is 5, and that of the source 2 is 7. -/
def bundledReports : Mem := fun i =>
  if i % 32 = 0 then 0x81 else if i % 32 = 1 then 201 else if i % 32 = 3 then 7 else if i = 11 then 1
  else if i = 19 then 5 else if i = 43 then 2 else if i = 51 then 7 else 0

/-- Two receiver reports of 32 bytes, both about the source 1: the highest numbers are 9 and 12, and the second has the
jitter 40. -/
def pairedReports : Mem := fun i =>
  if i % 32 = 0 then 0x81 else if i % 32 = 1 then 201 else if i % 32 = 3 then 7 else if i % 32 = 11 then 1
  else if i = 19 then 9 else if i = 51 then 12 else if i = 55 then 40 else 0

/-- Behind a report with the highest number 5, two reports in one packet count for their source. -/
theorem attributes_paired : ∃ os a,
    run? step (new 0 0) [.analyzeFeedback ⟨⟨1, 2, 3, 4⟩, ⟨0, 0⟩, ⟨0, 0⟩, 0⟩ bundledReports 32] = some (os, a) ∧
    (a.rtcpData.find? 1).map (·.extendedSeqNo) = some 5 ∧
    Attributes a pairedReports 64 (a.analyzeFeedback ⟨⟨1, 2, 3, 4⟩, ⟨0, 0⟩, ⟨0, 0⟩, 0⟩ pairedReports 64).2 := by
  have hrun : run? step (new 0 0) [.analyzeFeedback ⟨⟨1, 2, 3, 4⟩, ⟨0, 0⟩, ⟨0, 0⟩, 0⟩ bundledReports 32] =
      some (_, ((new 0 0).analyzeFeedback ⟨⟨1, 2, 3, 4⟩, ⟨0, 0⟩, ⟨0, 0⟩, 0⟩ bundledReports 32).2) := rfl
  refine ⟨_, _, hrun, by decide +kernel, (attributes_iff hrun (by decide +kernel) (by omega)).mpr fun _ => ?_⟩
  have hparts : parts pairedReports 64 = [0, 32] := by decide +kernel
  have habout : ∀ p ∈ [0, 32], RtcpHeader.IsAbout pairedReports p (RtcpHeader.getSourceSSRC pairedReports 0) := by
    decide +kernel
  constructor
  · rw [hparts]
    exact ⟨0, List.mem_cons_self, habout 0 List.mem_cons_self⟩
  · intro p hp hnot
    rw [reports, hparts, Finset.mem_filter, List.mem_toFinset] at hp
    exact absurd (habout p hp.1) hnot

/-- Both reports in one packet count for the source of the first. -/
theorem not_attributes_bundled :
    run? step (new 0 0) [] = some ([], new 0 0) ∧ RtcpHeader.isFeedback bundledReports 0 = true ∧
      ¬ Attributes (new 0 0) bundledReports 64
        ((new 0 0).analyzeFeedback ⟨⟨1, 2, 3, 4⟩, ⟨0, 0⟩, ⟨0, 0⟩, 0⟩ bundledReports 64).2 := by
  refine ⟨rfl, by decide +kernel, ?_⟩
  intro h
  exact absurd (h.maxima 2 .extendedSeqNo) (by decide +kernel)

end Runs
end RtcpAggregator
end Sfup.Rtp
