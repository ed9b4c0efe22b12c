import Sfup.Rtp.RtcpAggregator
import Sfup.Lib.Transition

/-! What the calls of the aggregator do to the records of its sources, and how a fact about one record becomes a
fact about all of them. -/
namespace Sfup.Rtp.RtcpAggregator
open RtcpProcessor (Sources rtcpLength)

theorem data_of_find? {ssrc : ℕ} {c : Call} {rtcpData : Sources} {d : RtcpData} (h : rtcpData.find? ssrc = some d) :
    RtcpProcessor.data c ssrc rtcpData = d := by
  rw [RtcpProcessor.data, h, Option.getD_some]

section Feedback
variable {a : RtcpAggregator} {c : Call} {buf : Mem} {len : ℕ}

def analysis (a : RtcpAggregator) (c : Call) (buf : Mem) : Analysis :=
  ⟨RtcpProcessor.data c (RtcpHeader.getSourceSSRC buf 0)
    (RtcpProcessor.addSourceSsrc c (RtcpHeader.getSourceSSRC buf 0) a.rtcpData), c.delay, []⟩

def met (a : RtcpAggregator) (c : Call) (buf : Mem) (len : ℕ) : List (Analysis × Mem × ℕ) :=
  Walk.visits rtcpLength (fun s m p => (analyzePart a.defaultVideoBw c.now s m p, m)) len (len + 1)
    (a.analysis c buf) buf 0

theorem step_analyzeFeedback (a : RtcpAggregator) (c : Call) (buf : Mem) (len : ℕ) :
    step a (.analyzeFeedback c buf len) =
      some ({ unacked := (a.analyzeFeedback c buf len).1 }, (a.analyzeFeedback c buf len).2) := rfl

theorem analyzeFeedback_of_analyzes (h : RtcpProcessor.analyzes buf len = true) :
    a.analyzeFeedback c buf len =
      ((analyzeLoop a.defaultVideoBw c.now len (a.analysis c buf) buf).unacked, { a with
        rtcpData := (RtcpProcessor.addSourceSsrc c (RtcpHeader.getSourceSSRC buf 0) a.rtcpData).set
          (RtcpHeader.getSourceSSRC buf 0) (analyzeLoop a.defaultVideoBw c.now len (a.analysis c buf) buf).theData }) :=
  if_pos h

end Feedback

section Part
variable {bw : ℕ} {now : Timeval} {s : Analysis} {m : Mem} {p : ℕ}

/-- What one packet of a compound does, by its type. -/
theorem analyzePart_cases (bw : ℕ) (now : Timeval) (s : Analysis) (m : Mem) (p : ℕ) :
    (RtcpHeader.packettype m p = 201 ∧ analyzePart bw now s m p = analyzeReceiver now m p s) ∨
      (RtcpHeader.packettype m p = 205 ∧ analyzePart bw now s m p = analyzeNack m p s) ∨
      (RtcpHeader.packettype m p ≠ 201 ∧ RtcpHeader.packettype m p ≠ 205 ∧ ∃ pli, analyzePart bw now s m p =
        { s with theData := { s.theData with shouldSendPli := pli } }) ∨
      (RtcpHeader.packettype m p = 206 ∧ RtcpHeader.getBlockCount m p = 15 ∧ RtcpHeader.isREMB m p = true ∧
        ∃ bandwidth send, bandwidth = min (RtcpHeader.bitrate m p) bw ∧ analyzePart bw now s m p =
          { s with theData := { s.theData with reportedBandwidth := bandwidth, shouldSendREMB := send } }) := by
  by_cases hrr : RtcpHeader.packettype m p = 201
  · exact Or.inl ⟨hrr, if_pos hrr⟩
  · by_cases hnack : RtcpHeader.packettype m p = 205
    · exact Or.inr (Or.inl ⟨hnack, by rw [analyzePart, if_neg hrr, if_pos hnack]⟩)
    · right; right
      unfold analyzePart
      rw [if_neg hrr, if_neg hnack]
      split_ifs with hps hpli hafb
      · exact Or.inl ⟨hrr, hnack, true, rfl⟩
      · unfold analyzeAfb
        split_ifs with hremb
        · right
          refine ⟨hps, hafb, hremb, ?_⟩
          simp only []
          split_ifs with hlt
          · rw [min_eq_left hlt.le]
            exact ⟨_, true, rfl, rfl⟩
          · rw [min_eq_right (not_lt.mp hlt)]
            exact ⟨_, s.theData.shouldSendREMB, rfl, rfl⟩
        · exact Or.inl ⟨hrr, hnack, s.theData.shouldSendPli, rfl⟩
      · exact Or.inl ⟨hrr, hnack, s.theData.shouldSendPli, rfl⟩
      · exact Or.inl ⟨hrr, hnack, s.theData.shouldSendPli, rfl⟩

theorem analyzePart_of_nack (h : RtcpHeader.packettype m p = 205) : analyzePart bw now s m p = analyzeNack m p s := by
  rw [analyzePart, if_neg (by omega), if_pos h]

theorem analyzeReceiver_keeps (now : Timeval) (m : Mem) (p : ℕ) (s : Analysis) :
    (analyzeReceiver now m p s).unacked = s.unacked ∧
      (analyzeReceiver now m p s).theData.shouldSendNACK = s.theData.shouldSendNACK ∧
      (analyzeReceiver now m p s).theData.nackSeqnum = s.theData.nackSeqnum ∧
      (analyzeReceiver now m p s).theData.nackBlp = s.theData.nackBlp ∧
      (analyzeReceiver now m p s).theData.nackedPackets = s.theData.nackedPackets ∧
      (analyzeReceiver now m p s).theData.reportedBandwidth = s.theData.reportedBandwidth := by
  refine ⟨rfl, ?_⟩
  simp only [analyzeReceiver, recordDelay, recordSeqNo]
  split_ifs <;> exact ⟨rfl, rfl, rfl, rfl, rfl⟩

def SameNacks (s s' : Analysis) : Prop :=
  s'.unacked = s.unacked ∧ s'.theData.shouldSendNACK = s.theData.shouldSendNACK ∧
    s'.theData.nackSeqnum = s.theData.nackSeqnum ∧ s'.theData.nackBlp = s.theData.nackBlp ∧
    s'.theData.nackedPackets = s.theData.nackedPackets

theorem sameNacks_analyzePart (bw : ℕ) (now : Timeval) (s : Analysis) (h : RtcpHeader.packettype m p ≠ 205) :
    SameNacks s (analyzePart bw now s m p) := by
  rcases analyzePart_cases bw now s m p with ⟨-, heq⟩ | ⟨ht, -⟩ | ⟨-, -, pli, heq⟩ | ⟨-, -, -, _, _, -, heq⟩
  · obtain ⟨hunacked, hsend, hseq, hblp, hset, -⟩ := analyzeReceiver_keeps now m p s
    rw [heq]
    exact ⟨hunacked, hsend, hseq, hblp, hset⟩
  · exact absurd ht h
  · rw [heq]
    exact ⟨rfl, rfl, rfl, rfl, rfl⟩
  · rw [heq]
    exact ⟨rfl, rfl, rfl, rfl, rfl⟩

theorem analyzeNack_keeps (m : Mem) (p : ℕ) (s : Analysis) : ∃ seqNum blp send request,
    (analyzeNack m p s).theData = { s.theData with
      nackedPackets :=
        (insertNacks (RtcpHeader.getNackPid m p) (RtcpHeader.getNackBlp m p) s.theData.nackedPackets).1
      nackSeqnum := seqNum
      nackBlp := blp
      shouldSendNACK := send
      requestRr := request } := by
  unfold analyzeNack
  simp only []
  split_ifs
  · exact ⟨_, _, _, _, rfl⟩
  · exact ⟨s.theData.nackSeqnum, s.theData.nackBlp, _, s.theData.requestRr, rfl⟩

end Part

section Check
variable {e : Endpoints} {bw ssrc : ℕ} {now : Timeval} {next : UInt32} {d d' : RtcpData} {r : Option Delivery × Bool}

/-- A source that is checked sends a report, or only asks for a key frame. -/
theorem checkSource_cases (h : checkSource e bw now next ssrc d = some (r, d')) :
    (r.1 = none ∧ d' = { d with shouldSendPli := false }) ∨
      ∃ ratio, r.1 = some (report e bw now next ssrc ratio d).1 ∧
        d' = { (report e bw now next ssrc ratio d).2 with shouldSendPli := false } := by
  unfold checkSource at h
  split_ifs at h
  · obtain ⟨p, hp, hr⟩ := Option.map_eq_some_iff.mp h
    cases hr
    unfold sendReport at hp
    simp only [] at hp
    split_ifs at hp
    cases hp
    exact Or.inr ⟨_, rfl, rfl⟩
  · cases h
    exact Or.inl ⟨rfl, rfl⟩

private theorem flushNack_keeps (sourceSsrc sinkSsrc : ℕ) (packet : Mem × ℕ) (d : RtcpData) :
    ∃ seqNum blp send, (flushNack sourceSsrc sinkSsrc d packet).1 =
      { d with nackSeqnum := seqNum, nackBlp := blp, shouldSendNACK := send } := by
  unfold flushNack
  split_ifs
  · exact ⟨_, _, _, rfl⟩
  · exact ⟨d.nackSeqnum, d.nackBlp, d.shouldSendNACK, rfl⟩

private theorem flushRemb_keeps (e : Endpoints) (now : Timeval) (packet : Mem × ℕ) (d : RtcpData) :
    ∃ send sent, (flushRemb e now d packet).1 = { d with shouldSendREMB := send, lastREMBSent := sent } := by
  unfold flushRemb
  split_ifs
  · exact ⟨_, _, rfl⟩
  · exact ⟨d.shouldSendREMB, d.lastREMBSent, rfl⟩

/-- A report brings the counters of the last one up to date, and then only what waits to be sent changes before the next
one is scheduled. -/
theorem report_snd (e : Endpoints) (bw : ℕ) (now : Timeval) (next : UInt32) (ssrc : ℕ) (ratio : UInt32) (d : RtcpData) :
    ∃ seqNum blp send remb sent, (report e bw now next ssrc ratio d).2 = schedule bw now next { d with
      requestRr := false
      prevTotalPacketsLost := d.totalPacketsLost
      prevExtendedSeqNo := d.extendedSeqNo
      nackSeqnum := seqNum
      nackBlp := blp
      shouldSendNACK := send
      shouldSendREMB := remb
      lastREMBSent := sent } := by
  simp only [report]
  obtain ⟨seqNum, blp, send, hnack⟩ := flushNack_keeps ssrc
    (if decide (ssrc = e.audioSourceSSRC) = true then e.audioSinkSSRC else e.videoSinkSSRC)
    (append (receiverReport e (decide (ssrc = e.audioSourceSSRC)) now d ratio) (fun _ => 0) 0)
    { d with requestRr := false, prevTotalPacketsLost := d.totalPacketsLost, prevExtendedSeqNo := d.extendedSeqNo }
  generalize flushNack ssrc _ _ _ = q at hnack ⊢
  obtain ⟨remb, sent, hremb⟩ := flushRemb_keeps e now q.2 q.1
  generalize flushRemb e now q.1 q.2 = q' at hremb ⊢
  rw [hremb, hnack]
  exact ⟨seqNum, blp, send, remb, sent, rfl⟩

/-- The numbers that were received are left alone, and the bandwidth is not raised. -/
theorem report_keeps (e : Endpoints) (bw : ℕ) (now : Timeval) (next : UInt32) (ssrc : ℕ) (ratio : UInt32) (d : RtcpData) :
    (report e bw now next ssrc ratio d).2.prevExtendedSeqNo = d.extendedSeqNo ∧
      (report e bw now next ssrc ratio d).2.extendedSeqNo = d.extendedSeqNo ∧
      (report e bw now next ssrc ratio d).2.highestSeqNumReceived = d.highestSeqNumReceived ∧
      (report e bw now next ssrc ratio d).2.seqNumCycles = d.seqNumCycles ∧
      (report e bw now next ssrc ratio d).2.nackedPackets = d.nackedPackets ∧
      (report e bw now next ssrc ratio d).2.reportedBandwidth ≤ d.reportedBandwidth := by
  obtain ⟨seqNum, blp, send, remb, sent, heq⟩ := report_snd e bw now next ssrc ratio d
  rw [heq]
  simp only [schedule, resetData]
  split_ifs with hreset hlt
  · exact ⟨rfl, rfl, rfl, rfl, rfl, hlt.le⟩
  · exact ⟨rfl, rfl, rfl, rfl, rfl, le_rfl⟩
  · exact ⟨rfl, rfl, rfl, rfl, rfl, le_rfl⟩

theorem report_losses (e : Endpoints) (bw : ℕ) (now : Timeval) (next : UInt32) (ssrc : ℕ) (ratio : UInt32)
    (d : RtcpData) : (report e bw now next ssrc ratio d).2.prevTotalPacketsLost = d.totalPacketsLost ∧
      (report e bw now next ssrc ratio d).2.totalPacketsLost = d.totalPacketsLost := by
  obtain ⟨seqNum, blp, send, remb, sent, heq⟩ := report_snd e bw now next ssrc ratio d
  rw [heq]
  simp only [schedule, resetData]
  split_ifs
  · exact ⟨rfl, rfl⟩
  · exact ⟨rfl, rfl⟩
  · exact ⟨rfl, rfl⟩

end Check

/-! ## A fact about every record -/

def All (P : RtcpData → Prop) (rtcpData : Sources) : Prop := ∀ e ∈ rtcpData.entries, P e.2

section All
variable {P : RtcpData → Prop} {rtcpData : Sources} {d : RtcpData} {ssrc : ℕ}

theorem All.empty : All P .empty := fun _ he => absurd he List.not_mem_nil

theorem All.find? (h : All P rtcpData) (hd : rtcpData.find? ssrc = some d) : P d :=
  h (ssrc, d) (OrdMap.find?_eq_some_iff.mp hd)

theorem All.set (h : All P rtcpData) (hd : P d) (ssrc : ℕ) : All P (rtcpData.set ssrc d) := by
  intro e he
  rcases OrdMap.mem_insertEntry he with rfl | he
  · exact hd
  · exact h e he

section New
variable (hnew : ∀ lastSrUpdated mediaType, P { lastSrUpdated, mediaType })
include hnew

theorem All.data (h : All P rtcpData) (c : Call) (ssrc : ℕ) : P (RtcpProcessor.data c ssrc rtcpData) := by
  unfold RtcpProcessor.data
  cases hd : rtcpData.find? ssrc with
  | none => exact hnew _ _
  | some d => exact h.find? hd

theorem All.addSourceSsrc (h : All P rtcpData) (c : Call) (ssrc : ℕ) :
    All P (RtcpProcessor.addSourceSsrc c ssrc rtcpData) := by
  unfold RtcpProcessor.addSourceSsrc
  split
  · exact h
  · exact h.set (hnew _ _) ssrc

theorem All.analyzeSr (hreports : ∀ d senderReports, P d → P { d with senderReports }) (h : All P rtcpData) (c : Call)
    (m : Mem) (chead : ℕ) : All P (RtcpProcessor.analyzeSr c m chead rtcpData) := by
  have hadd := h.addSourceSsrc hnew c (RtcpHeader.getSSRC m chead)
  exact hadd.set (hreports _ _ (hadd.data hnew c _)) _

/-- The record of a compound is changed packet by packet. -/
theorem All.analyzeFeedback {a : RtcpAggregator} {c : Call} {buf : Mem} {len : ℕ} (h : All P a.rtcpData)
    (hpart : RtcpProcessor.analyzes buf len = true → ∀ v ∈ a.met c buf len, P v.1.theData →
      P (analyzePart a.defaultVideoBw c.now v.1 v.2.1 v.2.2).theData) :
    All P (a.analyzeFeedback c buf len).2.rtcpData := by
  by_cases hfb : RtcpProcessor.analyzes buf len = true
  · rw [analyzeFeedback_of_analyzes hfb]
    have hadd := h.addSourceSsrc hnew c (RtcpHeader.getSourceSSRC buf 0)
    apply hadd.set
    apply Walk.loop_invariant_of_visits (I := fun (s : Analysis) => P s.theData)
      (C := fun s m p => P s.theData → P (analyzePart a.defaultVideoBw c.now s m p).theData)
    · exact fun s m p hs hc => hc hs
    · exact hadd.data hnew c _
    · exact hpart hfb
  · rw [RtcpAggregator.analyzeFeedback, if_neg hfb]
    exact h

end New

theorem All.checkRtcpFb {a a' : RtcpAggregator} {c : Checks} {r : List (Option Delivery × Bool)} {Q : RtcpData → Prop}
    (hcheck : ∀ ssrc d r d', P d →
      checkSource c.ends a.defaultVideoBw (c.now ssrc) (c.next ssrc) ssrc d = some (r, d') → Q d')
    (h : All P a.rtcpData) (hs : a.checkRtcpFb c = some (r, a')) : All Q a'.rtcpData := by
  obtain ⟨p, hp, hr⟩ := Option.map_eq_some_iff.mp hs
  cases hr
  have hes := OrdMap.mapM_eq_some hp
  unfold All at h ⊢
  simp only [] at hes ⊢
  generalize a.rtcpData.entries = es at h hes
  generalize p.2.entries = es' at hes ⊢
  generalize p.1 = rs at hes
  induction es generalizing rs es' with
  | nil =>
    cases hes
    simp
  | cons e es ih =>
    obtain ⟨r, d, rs', es₁, hf, hrest, hp⟩ := OrdMap.mapEntriesM_cons_eq_some.mp hes
    cases hp
    rw [List.forall_mem_cons] at h ⊢
    exact ⟨hcheck e.1 e.2 r d h.1 hf, ih h.2 es₁ rs' hrest⟩

/-- What holds of a new record and is kept by every change to one holds of all records along a run. -/
theorem All.step {a a' : RtcpAggregator} {ev : Event} {o : Output}
    (hnew : ∀ lastSrUpdated mediaType, P { lastSrUpdated, mediaType })
    (hreports : ∀ d senderReports, P d → P { d with senderReports })
    (hpart : ∀ bw now (s : Analysis) m p, P s.theData → P (analyzePart bw now s m p).theData)
    (hcheck : ∀ e bw now next ssrc d r d', P d → checkSource e bw now next ssrc d = some (r, d') → P d')
    (h : All P a.rtcpData) (hs : RtcpAggregator.step a ev = some (o, a')) : All P a'.rtcpData := by
  cases ev with
  | addSourceSsrc c ssrc =>
    cases hs
    exact h.addSourceSsrc hnew c ssrc
  | analyzeSr c m =>
    cases hs
    exact h.analyzeSr hnew hreports c m 0
  | analyzeFeedback c buf len =>
    cases hs
    exact h.analyzeFeedback hnew fun _ v _ => hpart _ _ _ _ _
  | setMaxVideoBW bandwidth =>
    cases hs
    exact h
  | setPublisherBW bandwidth =>
    cases hs
    exact h
  | checkRtcpFb c =>
    obtain ⟨p, hp, hr⟩ := Option.map_eq_some_iff.mp hs
    cases hr
    exact h.checkRtcpFb (fun ssrc d r d' hd => hcheck _ _ _ _ _ _ _ _ hd) hp

end All
end Sfup.Rtp.RtcpAggregator
