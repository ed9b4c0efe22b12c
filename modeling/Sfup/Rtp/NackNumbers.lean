import Sfup.Rtp.NackFilter

/-! The numbers that a NACK stands for. The bits of its mask count in network order and the numbers wrap around at 2^16;
the aggregator reads the two bytes of the mask the other way round and does not wrap. -/
namespace Sfup.Rtp
open RtcpProcessor (rtcpLength)

/-- The mask of a NACK as it was sent. -/
def RtcpHeader.sentBlp (m : Mem) (p : ℕ) : UInt16 := m.word (p + 14)

namespace RtcpAggregator
open Sfup.Transition

/-- The numbers behind `pid` that the bits stand for. -/
def named (pid blp : UInt16) : Finset ℕ :=
  ((Finset.range 16).filter fun i => blp.toNat.testBit i).image fun i => (pid.toNat + 1 + i) % 2 ^ 16

/-- The numbers that are dropped to make room, if the set has the first number already. -/
def evicted (pid : UInt16) (packets : Finset ℕ) : Finset ℕ :=
  if pid.toNat ∈ packets then packets \ trim packets.card packets else ∅

def admitted (pid : UInt16) (packets : Finset ℕ) : Finset ℕ := insert pid.toNat packets \ evicted pid packets

/-- The set gains the numbers of the NACK at `p`, and it is sent on if one of them is new. -/
structure Expands (m : Mem) (p : ℕ) (before after : RtcpData) : Prop where
  gained : after.nackedPackets = admitted (RtcpHeader.getNackPid m p) before.nackedPackets ∪
    named (RtcpHeader.getNackPid m p) (RtcpHeader.sentBlp m p)
  send : after.shouldSendNACK = true ↔ (RtcpHeader.getNackPid m p).toNat ∉ before.nackedPackets ∨
    ∃ n ∈ named (RtcpHeader.getNackPid m p) (RtcpHeader.sentBlp m p),
      n ∉ before.nackedPackets ∨ n ∈ evicted (RtcpHeader.getNackPid m p) before.nackedPackets

/-- A number that only one of the two readings of the mask names is in the set already. -/
def Readable (m : Mem) (p : ℕ) (packets : Finset ℕ) : Prop :=
  ∀ n, n ∉ admitted (RtcpHeader.getNackPid m p) packets →
    (n ∈ blpNumbers (RtcpHeader.getNackPid m p) (RtcpHeader.getNackBlp m p) ↔
      n ∈ named (RtcpHeader.getNackPid m p) (RtcpHeader.sentBlp m p))

/-- Every NACK of a compound expands from the record as it finds it, and the record of the source is left as the last of
them made it. -/
def Expanding (a : RtcpAggregator) : Event → Prop
  | .analyzeFeedback c buf len => RtcpProcessor.analyzes buf len = true →
    (∀ v ∈ a.met c buf len, RtcpHeader.packettype v.2.1 v.2.2 = 205 →
      Expands v.2.1 v.2.2 v.1.theData (analyzePart a.defaultVideoBw c.now v.1 v.2.1 v.2.2).theData) ∧
    ∀ v, ((a.met c buf len).filter fun v => RtcpHeader.packettype v.2.1 v.2.2 = 205).getLast? = some v →
      ∃ d, (a.analyzeFeedback c buf len).2.rtcpData.find? (RtcpHeader.getSourceSSRC buf 0) = some d ∧
        d.nackedPackets = (analyzePart a.defaultVideoBw c.now v.1 v.2.1 v.2.2).theData.nackedPackets ∧
        d.shouldSendNACK = (analyzePart a.defaultVideoBw c.now v.1 v.2.1 v.2.2).theData.shouldSendNACK
  | _ => True

/-- Every NACK of a compound is readable for the set as it finds it. -/
def ReadableNacks (a : RtcpAggregator) : Event → Prop
  | .analyzeFeedback c buf len => RtcpProcessor.analyzes buf len = true → ∀ v ∈ a.met c buf len,
    RtcpHeader.packettype v.2.1 v.2.2 = 205 → Readable v.2.1 v.2.2 v.1.theData.nackedPackets
  | _ => True

/-! ## One NACK -/

section Nack
variable {m : Mem} {p : ℕ} {packets : Finset ℕ} {pid blp : UInt16} {s : Analysis} {now : Timeval} {bw : ℕ}

theorem admitted_eq (pid : UInt16) (packets : Finset ℕ) : admitted pid packets =
    if pid.toNat ∈ packets then trim packets.card packets else insert pid.toNat packets := by
  unfold admitted evicted
  split_ifs with h
  · rw [Finset.insert_eq_of_mem h, Finset.sdiff_sdiff_eq_self (trim_subset _ _)]
  · exact Finset.sdiff_empty

theorem snd_foldl_insertNack (ns : List ℕ) (packets : Finset ℕ) (l : List ℕ) :
    (ns.foldl (fun s n => insertNack n s) (packets, l)).2 = [] ↔ l = [] ∧ ∀ n ∈ ns, n ∈ packets := by
  induction ns generalizing packets l with
  | nil => simp
  | cons n ns ih =>
    rw [List.foldl_cons, List.forall_mem_cons]
    by_cases hn : n ∈ packets
    · rw [insertNack, if_pos hn, ih]
      simp only [hn, true_and]
    · rw [insertNack, if_neg hn, ih]
      simp [hn]

theorem snd_insertNacks (pid blp : UInt16) (packets : Finset ℕ) : (insertNacks pid blp packets).2 ≠ [] ↔
    pid.toNat ∉ packets ∨ ∃ n ∈ blpNumbers pid blp, n ∉ admitted pid packets := by
  rw [admitted_eq]
  unfold insertNacks
  by_cases hp : pid.toNat ∈ packets
  · have hnone := snd_foldl_insertNack (blpNumbers pid blp) (trim packets.card packets) []
    simp only [if_pos hp]
    rw [ne_eq, hnone]
    simp [hp]
  · have hnone := snd_foldl_insertNack (blpNumbers pid blp) (insert pid.toNat packets) [pid.toNat]
    simp only [if_neg hp]
    rw [insertNack, if_neg hp, List.nil_append, ne_eq, hnone]
    simp [hp]

private theorem shouldSendNACK_analyzeNack : (analyzeNack m p s).theData.shouldSendNACK = true ↔
    (insertNacks (RtcpHeader.getNackPid m p) (RtcpHeader.getNackBlp m p) s.theData.nackedPackets).2 ≠ [] := by
  simp only [analyzeNack]
  split_ifs
  · simp
  · simp

private theorem nackedPackets_analyzeNack : (analyzeNack m p s).theData.nackedPackets =
    admitted (RtcpHeader.getNackPid m p) s.theData.nackedPackets ∪
      (blpNumbers (RtcpHeader.getNackPid m p) (RtcpHeader.getNackBlp m p)).toFinset := by
  obtain ⟨seqNum, blp, send, request, hkeep⟩ := analyzeNack_keeps m p s
  rw [hkeep, admitted_eq]
  exact fst_insertNacks _ _ _

theorem notMem_admitted_iff {n : ℕ} (hp : pid.toNat ∈ packets) :
    n ∉ admitted pid packets ↔ n ∉ packets ∨ n ∈ evicted pid packets := by
  rw [admitted, Finset.insert_eq_of_mem hp, Finset.mem_sdiff, not_and_or, not_not]

theorem expands_analyzeNack_iff :
    Expands m p s.theData (analyzeNack m p s).theData ↔ Readable m p s.theData.nackedPackets := by
  constructor
  · intro h n hn
    have hmem := Finset.ext_iff.mp (nackedPackets_analyzeNack.symm.trans h.gained) n
    simpa [hn] using hmem
  · intro h
    constructor
    · rw [nackedPackets_analyzeNack]
      ext n
      by_cases hn : n ∈ admitted (RtcpHeader.getNackPid m p) s.theData.nackedPackets
      · simp [hn]
      · simp [hn, h n hn]
    · rw [shouldSendNACK_analyzeNack, snd_insertNacks]
      by_cases hp : (RtcpHeader.getNackPid m p).toNat ∈ s.theData.nackedPackets
      · simp only [hp, not_true_eq_false, false_or, ← notMem_admitted_iff hp]
        constructor
        · rintro ⟨n, hn, hnew⟩
          exact ⟨n, (h n hnew).mp hn, hnew⟩
        · rintro ⟨n, hn, hnew⟩
          exact ⟨n, (h n hnew).mpr hn, hnew⟩
      · exact iff_of_true (Or.inl hp) (Or.inl hp)

end Nack

/-! ## Runs -/

section Runs
variable {a : RtcpAggregator} {c : Call} {buf : Mem} {len : ℕ}

/-- The record of the source holds the set and the flag as the last NACK of the compound left them. -/
theorem stored_of_last (ha : RtcpProcessor.analyzes buf len = true) {v : Analysis × Mem × ℕ}
    (hv : ((a.met c buf len).filter fun v => RtcpHeader.packettype v.2.1 v.2.2 = 205).getLast? = some v) :
    ∃ d, (a.analyzeFeedback c buf len).2.rtcpData.find? (RtcpHeader.getSourceSSRC buf 0) = some d ∧
      d.nackedPackets = (analyzePart a.defaultVideoBw c.now v.1 v.2.1 v.2.2).theData.nackedPackets ∧
      d.shouldSendNACK = (analyzePart a.defaultVideoBw c.now v.1 v.2.1 v.2.2).theData.shouldSendNACK := by
  have hkeep : ∀ (s : Analysis) (m : Mem) (p : ℕ), decide (RtcpHeader.packettype m p = 205) = false →
      ((analyzePart a.defaultVideoBw c.now s m p).theData.nackedPackets,
        (analyzePart a.defaultVideoBw c.now s m p).theData.shouldSendNACK) =
          (s.theData.nackedPackets, s.theData.shouldSendNACK) := by
    intro s m p h
    obtain ⟨-, hflag, -, -, hset⟩ := sameNacks_analyzePart a.defaultVideoBw c.now s (of_decide_eq_false h)
    exact Prod.ext hset hflag
  have hlast : ((analyzeLoop a.defaultVideoBw c.now len (a.analysis c buf) buf).theData.nackedPackets,
      (analyzeLoop a.defaultVideoBw c.now len (a.analysis c buf) buf).theData.shouldSendNACK) =
      (((a.met c buf len).filter fun v => RtcpHeader.packettype v.2.1 v.2.2 = 205).getLast?).elim
        ((a.analysis c buf).theData.nackedPackets, (a.analysis c buf).theData.shouldSendNACK)
        fun v => ((analyzePart a.defaultVideoBw c.now v.1 v.2.1 v.2.2).theData.nackedPackets,
          (analyzePart a.defaultVideoBw c.now v.1 v.2.1 v.2.2).theData.shouldSendNACK) := by
    unfold analyzeLoop met
    exact Walk.loop_last (C := fun m p => decide (RtcpHeader.packettype m p = 205))
      (fun s : Analysis => (s.theData.nackedPackets, s.theData.shouldSendNACK)) hkeep _ buf 0
  rw [hv, Option.elim_some] at hlast
  obtain ⟨hset, hflag⟩ := Prod.mk.inj hlast
  refine ⟨(analyzeLoop a.defaultVideoBw c.now len (a.analysis c buf) buf).theData, ?_, hset, hflag⟩
  rw [analyzeFeedback_of_analyzes ha, OrdMap.find?_set, if_pos rfl]

theorem expanding_iff (a : RtcpAggregator) (ev : Event) : Expanding a ev ↔ ReadableNacks a ev := by
  cases ev with
  | analyzeFeedback c buf len =>
    have hpart : ∀ v : Analysis × Mem × ℕ, RtcpHeader.packettype v.2.1 v.2.2 = 205 →
        (Expands v.2.1 v.2.2 v.1.theData (analyzePart a.defaultVideoBw c.now v.1 v.2.1 v.2.2).theData ↔
          Readable v.2.1 v.2.2 v.1.theData.nackedPackets) := by
      intro v ht
      rw [analyzePart_of_nack ht]
      exact expands_analyzeNack_iff
    constructor
    · intro h ha v hv ht
      exact (hpart v ht).mp ((h ha).1 v hv ht)
    · intro h ha
      exact ⟨fun v hv ht => (hpart v ht).mpr (h ha v hv ht), fun v hv => stored_of_last ha hv⟩
  | _ => exact Iff.rfl

/-- In a run all NACKs expand as they were sent exactly if, for each of them, the set has the numbers that only one of
the two readings of its mask names. -/
theorem along_expanding_iff (uninitialized maxVideoBw : ℕ) (evs : List Event) :
    Along step Expanding (new uninitialized maxVideoBw) evs ↔
      Along step ReadableNacks (new uninitialized maxVideoBw) evs :=
  along_iff (I := fun _ => True) (fun a ev _ => expanding_iff a ev) (fun _ _ _ _ _ _ _ => trivial) trivial evs

/-- A NACK for 10 and 11, whose mask has the bytes 0 and 1: 19 is stored in the place of 11. -/
theorem not_along_expanding_eleven :
    RtcpHeader.sentBlp (nackHeader 10 0x100 2 4) 0 = 1 ∧
      ¬ Along step Expanding (new 0 0) [.analyzeFeedback exampleCall (nackHeader 10 0x100 2 4) 16] := by
  refine ⟨by decide +kernel, ?_⟩
  intro h
  have hmet : ((new 0 0).analysis exampleCall (nackHeader 10 0x100 2 4), nackHeader 10 0x100 2 4, 0) ∈
      (new 0 0).met exampleCall (nackHeader 10 0x100 2 4) 16 := List.mem_cons_self
  have hread := (expanding_iff _ _).mp h.1 (by decide +kernel) _ hmet (by decide +kernel) 11
  revert hread
  decide +kernel

end Runs
end RtcpAggregator
end Sfup.Rtp
