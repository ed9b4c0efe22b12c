import Sfup.Rtp.NackNumbers

/-! Retransmission requests in the aggregator: a number that a NACK adds to the set of its source is requested
from the publisher or waits to be, as long as no NACK takes the place of a waiting one that asks for more. -/
namespace Sfup.Rtp
open RtcpProcessor (Sources rtcpLength)

def Covers (pid sent : UInt16) (n : ℕ) : Prop := n = pid.toNat ∨ n ∈ RtcpAggregator.named pid sent

instance {pid sent : UInt16} {n : ℕ} : Decidable (Covers pid sent n) :=
  inferInstanceAs (Decidable (_ ∨ _))

namespace RtcpHeader
open RtcpAggregator
variable {m : Mem} {p : ℕ}

def sentMask (blp : UInt16) : UInt16 := UInt16.ofNat (256 * (blp.toNat % 256) + blp.toNat / 256)

theorem sentBlp_eq (m : Mem) (p : ℕ) : sentBlp m p = sentMask (getNackBlp m p) := by
  have hlow := (m (p + 14)).toNat_lt
  have hhigh := (m (p + 15)).toNat_lt
  have hread : (getNackBlp m p).toNat = (m (p + 14)).toNat + 256 * (m (p + 15)).toNat := by
    rw [getNackBlp, UInt16.toNat_ofNat', Nat.mod_eq_of_lt (by omega)]
  rw [sentBlp, Mem.word, sentMask, hread, Nat.add_assoc p 14 1]
  congr 1
  omega

end RtcpHeader

namespace RtcpAggregator

/-- A packet of the compound is a generic NACK that asks the source for the number. -/
def Delivery.Requests (s : Delivery) (ssrc n : ℕ) : Prop :=
  ∃ p ∈ Walk.blocks rtcpLength s.packet s.length (s.length + 1) 0, RtcpHeader.packettype s.packet p = 205 ∧
    RtcpHeader.getBlockCount s.packet p = 1 ∧ RtcpHeader.getSourceSSRC s.packet p = ssrc ∧
    Covers (RtcpHeader.getNackPid s.packet p) (RtcpHeader.sentBlp s.packet p) n

/-- The number waits in the NACK of the source, which will be sent with this mask. -/
def Waits (d : RtcpData) (n : ℕ) : Prop :=
  d.shouldSendNACK = true ∧ Covers d.nackSeqnum (RtcpHeader.sentMask d.nackBlp) n

def Pending (a : RtcpAggregator) (ssrc n : ℕ) : Prop := ∃ d, a.rtcpData.find? ssrc = some d ∧ Waits d n

/-! ## The packets that are sent -/

section Packets
variable {p : ℕ}

/-- What is read of a packet that was copied is what its header holds. -/
theorem requests_of_nackHeader {s : Delivery} {seqNum blp : UInt16} {ssrc sinkSsrc n : ℕ} (hs : ssrc < 2 ^ 32)
    (hp : p ∈ Walk.blocks rtcpLength s.packet s.length (s.length + 1) 0)
    (hcopy : ∀ i < 16, s.packet (p + i) = nackHeader seqNum blp ssrc sinkSsrc i)
    (hn : Covers seqNum (RtcpHeader.sentMask blp) n) :
    s.Requests ssrc n := by
  have hword : ∀ q, q + 2 ≤ 16 → s.packet.word (p + q) = (nackHeader seqNum blp ssrc sinkSsrc).word q :=
    fun q hq => Mem.word_congr (m := s.packet.drop p) (hcopy q (by omega)) (hcopy (q + 1) (by omega))
  refine ⟨p, hp, ?_, ?_, ?_, ?_⟩
  · unfold RtcpHeader.packettype
    rw [hcopy 1 (by omega), nackHeader_of_lt (by omega), header_type]
    rfl
  · have hfirst : s.packet p = header 205 1 3 sinkSsrc ssrc 0 :=
      (hcopy 0 (by omega)).trans (nackHeader_of_lt (by omega))
    have hcount := header_count 205 3 sinkSsrc ssrc (show 1 < 32 by decide)
    unfold RtcpHeader.getBlockCount RtcpHeader.blockcount at hcount ⊢
    rw [hfirst, hcount]
  · have hlong : s.packet.long (p + 8) = (header 205 1 3 sinkSsrc ssrc).long 8 := by
      apply Mem.long_congr (m := s.packet.drop p)
      intro i hi hi'
      exact (hcopy i (by omega)).trans (nackHeader_of_lt (by omega))
    exact hlong.trans (header_source 205 1 3 sinkSsrc hs)
  · have hblp : RtcpHeader.sentBlp s.packet p = RtcpHeader.sentBlp (nackHeader seqNum blp ssrc sinkSsrc) 0 :=
      hword 14 (by omega)
    have hpid : RtcpHeader.getNackPid s.packet p = RtcpHeader.getNackPid (nackHeader seqNum blp ssrc sinkSsrc) 0 :=
      hword 12 (by omega)
    rw [hpid, hblp, RtcpHeader.sentBlp_eq, getNackPid_nackHeader, getNackBlp_nackHeader]
    exact hn

/-- Whatever else stands in the packet, the publisher is asked for the numbers of the pending NACK. -/
theorem report_requests {d : RtcpData} {e : Endpoints} {defaultVideoBw ssrc n : ℕ} {now : Timeval}
    {next ratio : UInt32} (hs : ssrc < 2 ^ 32) (hn : Waits d n) :
    (report e defaultVideoBw now next ssrc ratio d).1.Requests ssrc n := by
  rw [report_eq_compound]
  have hmem : nackHeader d.nackSeqnum d.nackBlp ssrc
      (if decide (ssrc = e.audioSourceSSRC) then e.audioSinkSSRC else e.videoSinkSSRC) ∈
      reportHeaders e now ssrc ratio d := by
    apply List.mem_cons_of_mem
    apply List.mem_append_left
    rw [nackHeaders, if_pos hn.1]
    exact List.mem_singleton_self _
  obtain ⟨q, hq, hcopy⟩ := exists_start_of_mem (compound_spec (reportHeaders e now ssrc ratio d)).1 hmem
  rw [rtcpLength_nackHeader] at hcopy
  apply requests_of_nackHeader hs _ hcopy hn.2
  exact (blocks_compound _).symm ▸ hq

end Packets

/-! ## The packets that are received -/

section Analysis
variable {s : Analysis} {m : Mem} {chead n : ℕ} {now : Timeval}

private theorem mem_foldl_insertNack {ns : List ℕ} {t : Finset ℕ × List ℕ}
    (h : n ∈ (ns.foldl (fun t n => insertNack n t) t).2) :
    n ∈ ns ∧ n ∉ t.1 ∨ n ∈ t.2 := by
  induction ns generalizing t with
  | nil => exact Or.inr h
  | cons k ns ih =>
    by_cases hk : k ∈ t.1
    · rw [List.foldl_cons, insertNack, if_pos hk] at h
      rcases ih h with ⟨hn, hnew⟩ | hn
      · exact Or.inl ⟨List.mem_cons_of_mem k hn, hnew⟩
      · exact Or.inr hn
    · rw [List.foldl_cons, insertNack, if_neg hk] at h
      rcases ih h with ⟨hn, hnew⟩ | hn
      · exact Or.inl ⟨List.mem_cons_of_mem k hn, fun hmem => hnew (Finset.mem_insert_of_mem hmem)⟩
      · rcases List.mem_append.mp hn with hn | hn
        · exact Or.inr hn
        · obtain rfl := List.mem_singleton.mp hn
          exact Or.inl ⟨List.mem_cons_self, hk⟩

/-- What a NACK adds is its first number, or one that is read of its mask and is not in the set. -/
theorem mem_insertNacks {pid blp : UInt16} {packets : Finset ℕ} (h : n ∈ (insertNacks pid blp packets).2) :
    n = pid.toNat ∨ n ∈ blpNumbers pid blp ∧ n ∉ admitted pid packets := by
  rw [admitted_eq]
  unfold insertNacks at h
  rcases mem_foldl_insertNack h with ⟨hn, hnew⟩ | hn
  · split_ifs at hnew ⊢ with hp
    · exact Or.inr ⟨hn, hnew⟩
    · rw [insertNack, if_neg hp] at hnew
      exact Or.inr ⟨hn, hnew⟩
  · split_ifs at hn with hp
    · cases hn
    · rw [insertNack, if_neg hp] at hn
      exact Or.inl (List.mem_singleton.mp hn)

/-- The numbers that the packet at `chead` would add to the set. -/
def addedNacks (s : Analysis) (m : Mem) (chead : ℕ) : List ℕ :=
  (insertNacks (RtcpHeader.getNackPid m chead) (RtcpHeader.getNackBlp m chead) s.theData.nackedPackets).2

/-- A NACK asks for the numbers that are read of its mask and are not in the set. If it arrives while another waits,
it has a number that is not in the set, and asks for all that the other asks for. -/
structure Extends (s : Analysis) (m : Mem) (chead : ℕ) : Prop where
  reads : ∀ n ∈ blpNumbers (RtcpHeader.getNackPid m chead) (RtcpHeader.getNackBlp m chead),
    n ∉ admitted (RtcpHeader.getNackPid m chead) s.theData.nackedPackets →
      n ∈ named (RtcpHeader.getNackPid m chead) (RtcpHeader.sentBlp m chead)
  adds : s.theData.shouldSendNACK = true → (RtcpHeader.getNackPid m chead).toNat ∉ s.theData.nackedPackets ∨
    ∃ n ∈ blpNumbers (RtcpHeader.getNackPid m chead) (RtcpHeader.getNackBlp m chead),
      n ∉ admitted (RtcpHeader.getNackPid m chead) s.theData.nackedPackets
  covers : s.theData.shouldSendNACK = true →
    ∀ n, Covers s.theData.nackSeqnum (RtcpHeader.sentMask s.theData.nackBlp) n →
      Covers (RtcpHeader.getNackPid m chead) (RtcpHeader.sentBlp m chead) n

theorem Extends.covers_added (h : Extends s m chead) (hn : n ∈ addedNacks s m chead) :
    Covers (RtcpHeader.getNackPid m chead) (RtcpHeader.sentBlp m chead) n := by
  rcases mem_insertNacks hn with hn | ⟨hn, hnew⟩
  · exact Or.inl hn
  · exact Or.inr (h.reads n hn hnew)

theorem analyzePart_of_ne (defaultVideoBw : ℕ) (now : Timeval) (h : RtcpHeader.packettype m chead ≠ 205) :
    (analyzePart defaultVideoBw now s m chead).unacked = s.unacked ∧
      (Waits (analyzePart defaultVideoBw now s m chead).theData n ↔ Waits s.theData n) := by
  obtain ⟨hunacked, hsend, hseq, hblp, -⟩ := sameNacks_analyzePart defaultVideoBw now s h
  refine ⟨hunacked, ?_⟩
  rw [Waits, Waits, hsend, hseq, hblp]

private theorem analyzePart_nack (defaultVideoBw : ℕ) (now : Timeval) (h : RtcpHeader.packettype m chead = 205) :
    (analyzePart defaultVideoBw now s m chead).unacked = s.unacked ++ addedNacks s m chead ∧
      (Waits (analyzePart defaultVideoBw now s m chead).theData n ↔ addedNacks s m chead ≠ [] ∧
        Covers (RtcpHeader.getNackPid m chead) (RtcpHeader.sentBlp m chead) n) := by
  rw [analyzePart_of_nack h, RtcpHeader.sentBlp_eq]
  unfold analyzeNack
  simp only []
  refine ⟨rfl, ?_⟩
  unfold addedNacks
  cases (insertNacks (RtcpHeader.getNackPid m chead) (RtcpHeader.getNackBlp m chead) s.theData.nackedPackets).2 with
  | nil => simp [Waits]
  | cons k ks => simp [Waits]

/-- The numbers that waited before the packet and those that it added wait behind it. -/
theorem waits_analyzePart (defaultVideoBw : ℕ) {before : ℕ → Prop}
    (hs : ∀ n, before n ∨ n ∈ s.unacked → Waits s.theData n)
    (hc : RtcpHeader.packettype m chead = 205 → Extends s m chead) :
    ∀ n, before n ∨ n ∈ (analyzePart defaultVideoBw now s m chead).unacked →
      Waits (analyzePart defaultVideoBw now s m chead).theData n := by
  intro n hn
  by_cases h : RtcpHeader.packettype m chead = 205
  · obtain ⟨hunacked, hwaits⟩ := analyzePart_nack (n := n) (s := s) defaultVideoBw now h
    rw [hunacked, List.mem_append, ← or_assoc] at hn
    rw [hwaits]
    rcases hn with hn | hn
    · obtain ⟨hsend, hcov⟩ := hs n hn
      exact ⟨(snd_insertNacks _ _ _).mpr ((hc h).adds hsend), (hc h).covers hsend n hcov⟩
    · exact ⟨List.ne_nil_of_mem hn, (hc h).covers_added hn⟩
  · obtain ⟨hunacked, hwaits⟩ := analyzePart_of_ne (n := n) (s := s) defaultVideoBw now h
    rw [hunacked] at hn
    exact hwaits.mpr (hs n hn)

end Analysis

/-! ## Runs -/

section Runs
open Sfup.Transition
variable {a a' : RtcpAggregator} {ssrc n : ℕ}

/-- Every NACK of a compound extends what waits as the loop finds it. -/
def Extending (a : RtcpAggregator) : Event → Prop
  | .analyzeFeedback c buf len => RtcpProcessor.analyzes buf len = true →
    ∀ v ∈ Walk.visits rtcpLength (fun s m p => (analyzePart a.defaultVideoBw c.now s m p, m)) len (len + 1)
      (a.analysis c buf) buf 0, RtcpHeader.packettype v.2.1 v.2.2 = 205 → Extends v.1 v.2.1 v.2.2
  | _ => True

theorem pending_set_of_ne {rtcpData : Sources} {k : ℕ} {d d' : RtcpData} (h : rtcpData.find? ssrc = some d)
    (hk : k ≠ ssrc) : (rtcpData.set k d').find? ssrc = some d := by
  rw [OrdMap.find?_set, if_neg hk, h]

section Feedback
variable {c : Call} {buf : Mem} {len : ℕ}

/-- What waited before the call and what it adds wait all along the loop. -/
theorem waits_analyzeLoop (hc : Extending a (.analyzeFeedback c buf len)) (h : RtcpProcessor.analyzes buf len = true)
    (hn : Waits (a.analysis c buf).theData n ∨
      n ∈ (analyzeLoop a.defaultVideoBw c.now len (a.analysis c buf) buf).unacked) :
    Waits (analyzeLoop a.defaultVideoBw c.now len (a.analysis c buf) buf).theData n := by
  revert n
  apply Walk.loop_invariant_of_visits (I := fun (s : Analysis) =>
    ∀ {n}, Waits (a.analysis c buf).theData n ∨ n ∈ s.unacked → Waits s.theData n)
    (C := fun s m p => RtcpHeader.packettype m p = 205 → Extends s m p)
  · intro s m p hs he n hn
    exact waits_analyzePart _ (fun n hn => hs hn) he n hn
  · rintro n (hn | hn)
    · exact hn
    · cases hn
  · exact hc h

theorem pending_unacked (hc : Extending a (.analyzeFeedback c buf len)) (hn : n ∈ (a.analyzeFeedback c buf len).1) :
    Pending (a.analyzeFeedback c buf len).2 (RtcpHeader.getSourceSSRC buf 0) n := by
  by_cases hfb : RtcpProcessor.analyzes buf len = true
  · rw [analyzeFeedback_of_analyzes hfb] at hn ⊢
    exact ⟨_, by simp, waits_analyzeLoop hc hfb (Or.inr hn)⟩
  · rw [analyzeFeedback, if_neg hfb] at hn
    cases hn

theorem pending_analyzeFeedback (hc : Extending a (.analyzeFeedback c buf len)) (h : Pending a ssrc n) :
    Pending (a.analyzeFeedback c buf len).2 ssrc n := by
  by_cases hfb : RtcpProcessor.analyzes buf len = true
  · obtain ⟨d, hd, hw⟩ := h
    have hadd := RtcpProcessor.find?_addSourceSsrc c (RtcpHeader.getSourceSSRC buf 0) a.rtcpData hd
    rw [analyzeFeedback_of_analyzes hfb]
    by_cases hk : RtcpHeader.getSourceSSRC buf 0 = ssrc
    · have hdata : (a.analysis c buf).theData = d := by
        subst hk
        exact data_of_find? hadd
      exact ⟨_, by simp [hk], waits_analyzeLoop hc hfb (Or.inl (hdata ▸ hw))⟩
    · exact ⟨d, pending_set_of_ne hadd hk, hw⟩
  · rw [analyzeFeedback, if_neg hfb]
    exact h

end Feedback

private theorem pending_analyzeSr {c : Call} {m : Mem} (h : Pending a ssrc n) : Pending (a.analyzeSr c m 0) ssrc n := by
  obtain ⟨d, hd, hw⟩ := h
  have hadd := RtcpProcessor.find?_addSourceSsrc c (RtcpHeader.getSSRC m 0) a.rtcpData hd
  by_cases hk : RtcpHeader.getSSRC m 0 = ssrc
  · subst hk
    have hfind : ∃ d', (a.analyzeSr c m 0).rtcpData.find? (RtcpHeader.getSSRC m 0) = some d' ∧
        (Waits d' n ↔ Waits (RtcpProcessor.data c (RtcpHeader.getSSRC m 0)
          (RtcpProcessor.addSourceSsrc c (RtcpHeader.getSSRC m 0) a.rtcpData)) n) := by
      simp only [analyzeSr, RtcpProcessor.analyzeSr, OrdMap.find?_set, if_true]
      exact ⟨_, rfl, Iff.rfl⟩
    obtain ⟨d', hd', hiff⟩ := hfind
    refine ⟨d', hd', hiff.mpr ?_⟩
    rw [data_of_find? hadd]
    exact hw
  · exact ⟨d, pending_set_of_ne hadd hk, hw⟩

/-- A check sends the waiting NACK or lets it wait. -/
theorem pending_checkRtcpFb {c : Checks} {r : List (Option Delivery × Bool)} (h : Pending a ssrc n) (hs : ssrc < 2 ^ 32)
    (hc : a.checkRtcpFb c = some (r, a')) :
    (∃ s ∈ r.filterMap (·.1), s.Requests ssrc n) ∨ Pending a' ssrc n := by
  obtain ⟨d, hd, hw⟩ := h
  obtain ⟨p, hp, hr⟩ := Option.map_eq_some_iff.mp hc
  cases hr
  obtain ⟨o, d', ho, hmem, hd'⟩ := OrdMap.find?_mapM hp hd
  unfold checkSource at ho
  split_ifs at ho
  · obtain ⟨q, hq, heq⟩ := Option.map_eq_some_iff.mp ho
    cases heq
    left
    refine ⟨q.1, List.mem_filterMap.mpr ⟨_, hmem, rfl⟩, ?_⟩
    unfold sendReport at hq
    simp only [] at hq
    split_ifs at hq
    cases hq
    exact report_requests hs hw
  · cases ho
    exact Or.inr ⟨_, hd', hw⟩

private theorem pending_step {ev : Event} {o : Output} (h : Pending a ssrc n) (hs : ssrc < 2 ^ 32) (hc : Extending a ev)
    (hstep : step a ev = some (o, a')) : (∃ s ∈ o.sent, s.Requests ssrc n) ∨ Pending a' ssrc n := by
  cases ev with
  | addSourceSsrc c k =>
    cases hstep
    obtain ⟨d, hd, hw⟩ := h
    exact Or.inr ⟨d, RtcpProcessor.find?_addSourceSsrc c k a.rtcpData hd, hw⟩
  | analyzeSr c m =>
    cases hstep
    exact Or.inr (pending_analyzeSr h)
  | analyzeFeedback c buf len =>
    cases hstep
    exact Or.inr (pending_analyzeFeedback hc h)
  | setMaxVideoBW bandwidth =>
    cases hstep
    exact Or.inr h
  | setPublisherBW bandwidth =>
    cases hstep
    exact Or.inr h
  | checkRtcpFb c =>
    obtain ⟨p, hp, heq⟩ := Option.map_eq_some_iff.mp hstep
    cases heq
    exact pending_checkRtcpFb h hs hp

theorem pending_run {evs : List Event} {os : List Output} (h : Pending a ssrc n) (hs : ssrc < 2 ^ 32)
    (hc : Along step Extending a evs) (hrun : run? step a evs = some (os, a')) :
    (∃ o ∈ os, ∃ s ∈ o.sent, s.Requests ssrc n) ∨ Pending a' ssrc n := by
  induction evs generalizing a os with
  | nil =>
    obtain ⟨rfl, rfl⟩ := Prod.mk.inj (Option.some.inj hrun)
    exact Or.inr h
  | cons ev evs ih =>
    obtain ⟨o, a₁, os₁, h₁, h₂, rfl⟩ := run?_cons_eq_some.mp hrun
    rcases pending_step h hs hc.1 h₁ with hsent | hpend
    · exact Or.inl ⟨o, List.mem_cons_self, hsent⟩
    · rcases ih hpend (hc.2 o a₁ h₁) h₂ with ⟨o', ho', hreq⟩ | hpend
      · exact Or.inl ⟨o', List.mem_cons_of_mem o ho', hreq⟩
      · exact Or.inr hpend

/-- In any state and whatever follows, a number that a NACK adds to the set of its source is requested from that
source after it, or waits to be, if every NACK asks for what is read of it and no NACK takes the place of a waiting one
that asks for more. -/
theorem requested_or_pending {a₁ : RtcpAggregator} {evs : List Event} {os : List Output} {o : Output} {c : Call}
    {buf : Mem} {len : ℕ} (hstep : step a (.analyzeFeedback c buf len) = some (o, a₁))
    (hrun : run? step a₁ evs = some (os, a')) (hc : Along step Extending a (.analyzeFeedback c buf len :: evs))
    (hn : n ∈ o.unacked) :
    (∃ o' ∈ os, ∃ s ∈ o'.sent, s.Requests (RtcpHeader.getSourceSSRC buf 0) n) ∨
      Pending a' (RtcpHeader.getSourceSSRC buf 0) n := by
  have hrest := hc.2 o a₁ hstep
  cases hstep
  exact pending_run (pending_unacked hc.1 hn) Mem.long_lt hrest hrun

instance : Decidable (Pending a ssrc n) :=
  decidable_of_iff ((a.rtcpData.find? ssrc).any fun d =>
    d.shouldSendNACK && decide (Covers d.nackSeqnum (RtcpHeader.sentMask d.nackBlp) n)) (by
      cases h : a.rtcpData.find? ssrc <;> simp [Pending, Waits, h])

/-- A report on the first packet of a source and a NACK for 10, together 48 bytes. -/
def reportAndNack : Mem :=
  (addNACK (receiverReport exampleCall.ends false ⟨0, 0⟩
    { lastSrUpdated := ⟨0, 0⟩, mediaType := .videoType, highestSeqNumReceived := 1, lastSr := 1 } 0) 32 10 0 2 4).1

def exampleChecks : Checks := ⟨exampleCall.ends, fun _ => ⟨0, 0⟩, fun _ => 0⟩

/-- A NACK for 10 waits, and a NACK for 10, 11 and 19 takes its place: the next check asks for 10. -/
theorem requested_or_pending_extended : ∃ o a₁ os a',
    step (new 0 0) (.analyzeFeedback exampleCall reportAndNack 48) = some (o, a₁) ∧
      run? step a₁ [.analyzeFeedback exampleCall (nackHeader 10 0x101 2 4) 16, .checkRtcpFb exampleChecks] =
        some (os, a') ∧ 10 ∈ o.unacked ∧
      ∃ o' ∈ os, ∃ s ∈ o'.sent, s.Requests (RtcpHeader.getSourceSSRC reportAndNack 0) 10 := by
  let a₁ := ((new 0 0).analyzeFeedback exampleCall reportAndNack 48).2
  let a₂ := (a₁.analyzeFeedback exampleCall (nackHeader 10 0x101 2 4) 16).2
  have hfirst : Extending (new 0 0) (.analyzeFeedback exampleCall reportAndNack 48) := by
    intro _ v hv ht
    have hreport : rtcpLength reportAndNack 0 = 32 := by decide +kernel
    have hnack : rtcpLength reportAndNack 32 = 16 := by decide +kernel
    simp only [Walk.visits, hreport, hnack, Nat.zero_add, Nat.reduceAdd, Nat.reduceLT, if_true, if_false, List.mem_cons,
      List.not_mem_nil, or_false] at hv
    rcases hv with rfl | rfl
    · exact absurd ht (by decide +kernel)
    · have hsend : ∀ h : (analyzePart (new 0 0).defaultVideoBw exampleCall.now
          ((new 0 0).analysis exampleCall reportAndNack) reportAndNack 0).theData.shouldSendNACK = true, False := by
        decide +kernel
      exact ⟨by decide +kernel, fun h => (hsend h).elim, fun h => (hsend h).elim⟩
  have hsecond : Extending a₁ (.analyzeFeedback exampleCall (nackHeader 10 0x101 2 4) 16) := by
    intro _ v hv _
    simp only [Walk.visits, rtcpLength_nackHeader, Nat.zero_add, Nat.lt_irrefl, if_false, List.mem_singleton] at hv
    subst hv
    refine ⟨by decide +kernel, fun _ => by decide +kernel, fun _ n hn => ?_⟩
    have hseq : (a₁.analysis exampleCall (nackHeader 10 0x101 2 4)).theData.nackSeqnum = 10 := by decide +kernel
    have hblp : (a₁.analysis exampleCall (nackHeader 10 0x101 2 4)).theData.nackBlp = 0 := by decide +kernel
    have hnone : named 10 (RtcpHeader.sentMask 0) = ∅ := by decide +kernel
    rw [hseq, hblp] at hn
    rw [getNackPid_nackHeader]
    rcases hn with rfl | hn
    · exact Or.inl rfl
    · exact absurd hn (hnone ▸ Finset.notMem_empty n)
  have hmem : 10 ∈ ((new 0 0).analyzeFeedback exampleCall reportAndNack 48).1 := by decide +kernel
  have hsome : (a₂.checkRtcpFb exampleChecks).isSome := by decide +kernel
  have hdone : (a₂.checkRtcpFb exampleChecks).all fun p => !decide (Pending p.2 2 10) := by decide +kernel
  obtain ⟨⟨r, a₃⟩, hcheck⟩ := Option.isSome_iff_exists.mp hsome
  rw [hcheck] at hdone
  have hstep := step_analyzeFeedback (new 0 0) exampleCall reportAndNack 48
  have hnext := step_analyzeFeedback a₁ exampleCall (nackHeader 10 0x101 2 4) 16
  have hlast : step a₂ (.checkRtcpFb exampleChecks) = some ({ sent := r.filterMap (·.1) }, a₃) := by
    simp only [step, hcheck, Option.map_some]
  have hrun := (run?_cons [.checkRtcpFb exampleChecks] hnext).trans (by rw [run?_cons [] hlast])
  refine ⟨_, _, _, _, hstep, hrun, hmem, ?_⟩
  rcases requested_or_pending hstep hrun (Along.cons hfirst hstep (Along.cons hsecond hnext (Along.cons trivial hlast
    trivial))) hmem with hrequested | hpending
  · exact hrequested
  · have hsource : RtcpHeader.getSourceSSRC reportAndNack 0 = 2 := by decide +kernel
    rw [hsource] at hpending
    simp [hpending] at hdone

/-- A NACK for 20 takes the place of the NACK for 10, which no packet asks for. -/
theorem not_requested_or_pending_replaced :
    ∃ o a₁ os a', step (new 0 0) (.analyzeFeedback exampleCall (nackHeader 10 0 2 4) 16) = some (o, a₁) ∧
      run? step a₁ [.analyzeFeedback exampleCall (nackHeader 20 0 2 4) 16] = some (os, a') ∧ 10 ∈ o.unacked ∧
      ¬ ((∃ o' ∈ os, ∃ s ∈ o'.sent, s.Requests (RtcpHeader.getSourceSSRC (nackHeader 10 0 2 4) 0) 10) ∨
        Pending a' (RtcpHeader.getSourceSSRC (nackHeader 10 0 2 4) 0) 10) := by
  refine ⟨_, _, _, _, rfl, rfl, by decide +kernel, ?_⟩
  rintro (⟨o', ho', s, hs, -⟩ | h)
  · obtain rfl := List.mem_singleton.mp ho'
    cases hs
  · exact absurd h (by decide +kernel)

end Runs
end RtcpAggregator
end Sfup.Rtp
