import Sfup.Rtp.Compounds

/-! The set of numbers that a source was already asked for: it is trimmed when a NACK starts with a number of the set,
and grows with every other NACK. -/
namespace Sfup.Rtp.RtcpAggregator
open Sfup.Transition

def Bounded (packets : Finset ℕ) : Prop := packets.card ≤ 50 + 17 ∧ ∀ n ∈ packets, n < 2 ^ 16

instance (packets : Finset ℕ) : Decidable (Bounded packets) := inferInstanceAs (Decidable (_ ∧ _))

/-- The bits of the NACK stand for numbers of 16 bits, and there is room in the set if it is not trimmed. -/
def Fits (packets : Finset ℕ) (pid blp : UInt16) : Prop :=
  (∀ n ∈ blpNumbers pid blp, n < 2 ^ 16) ∧
    (pid.toNat ∉ packets → (insert pid.toNat packets ∪ (blpNumbers pid blp).toFinset).card ≤ 50 + 17)

instance (packets : Finset ℕ) (pid blp : UInt16) : Decidable (Fits packets pid blp) :=
  inferInstanceAs (Decidable (_ ∧ _))

/-! ## One NACK -/

section Nack
variable {packets : Finset ℕ} {pid blp : UInt16}

theorem trim_subset (turns : ℕ) (packets : Finset ℕ) : trim turns packets ⊆ packets := by
  induction turns generalizing packets with
  | zero => exact Finset.Subset.refl packets
  | succ turns ih =>
    unfold trim
    split_ifs
    · exact (ih _).trans (Finset.erase_subset _ _)
    · exact Finset.Subset.refl packets

/-- A turn for every number is enough to get below 50. -/
theorem card_trim_lt {turns : ℕ} (h : packets.card ≤ turns) : (trim turns packets).card < 50 := by
  induction turns generalizing packets with
  | zero =>
    rw [trim]
    omega
  | succ turns ih =>
    unfold trim
    split_ifs with hcard
    · apply ih
      rw [Finset.card_erase_of_mem (Finset.min'_mem _ _)]
      omega
    · omega

theorem fst_insertNack (n : ℕ) (s : Finset ℕ × List ℕ) : (insertNack n s).1 = insert n s.1 := by
  unfold insertNack
  split_ifs with h
  · exact (Finset.insert_eq_of_mem h).symm
  · rfl

private theorem fst_foldl_insertNack (ns : List ℕ) (s : Finset ℕ × List ℕ) :
    (ns.foldl (fun s n => insertNack n s) s).1 = s.1 ∪ ns.toFinset := by
  induction ns generalizing s with
  | nil => simp
  | cons n ns ih =>
    rw [List.foldl_cons, ih, fst_insertNack, List.toFinset_cons, Finset.insert_union, Finset.union_insert]

theorem fst_insertNacks (pid blp : UInt16) (packets : Finset ℕ) : (insertNacks pid blp packets).1 =
    (if pid.toNat ∈ packets then trim packets.card packets else insert pid.toNat packets) ∪
      (blpNumbers pid blp).toFinset := by
  unfold insertNacks
  simp only []
  rw [fst_foldl_insertNack]
  split_ifs
  · rfl
  · rw [fst_insertNack]

private theorem card_blpNumbers_le (pid blp : UInt16) : (blpNumbers pid blp).toFinset.card ≤ 16 := by
  refine (List.toFinset_card_le _).trans ?_
  rw [blpNumbers, List.length_map]
  exact List.length_filter_le _ _

/-- A NACK keeps the set bounded exactly if it fits. -/
theorem bounded_insertNacks_iff (h : Bounded packets) : Bounded (insertNacks pid blp packets).1 ↔ Fits packets pid blp := by
  have hsmall : ∀ n ∈ if pid.toNat ∈ packets then trim packets.card packets else insert pid.toNat packets,
      n < 2 ^ 16 := by
    intro n hn
    split_ifs at hn
    · exact h.2 n (trim_subset _ _ hn)
    · rcases Finset.mem_insert.mp hn with rfl | hn
      · exact pid.toNat_lt
      · exact h.2 n hn
  have helems : (∀ n ∈ (insertNacks pid blp packets).1, n < 2 ^ 16) ↔ ∀ n ∈ blpNumbers pid blp, n < 2 ^ 16 := by
    rw [fst_insertNacks]
    constructor
    · intro hall n hn
      exact hall n (Finset.mem_union_right _ (List.mem_toFinset.mpr hn))
    · intro hall n hn
      rcases Finset.mem_union.mp hn with hn | hn
      · exact hsmall n hn
      · exact hall n (List.mem_toFinset.mp hn)
  rw [Bounded, helems, Fits, and_comm, fst_insertNacks]
  apply and_congr_right
  intro _
  split_ifs with hp
  · have hcard : (trim packets.card packets ∪ (blpNumbers pid blp).toFinset).card ≤ 50 + 17 := by
      have htrim := card_trim_lt (le_refl packets.card)
      have hblp := card_blpNumbers_le pid blp
      have hunion := Finset.card_union_le (trim packets.card packets) (blpNumbers pid blp).toFinset
      omega
    exact ⟨fun _ hnot => absurd hp hnot, fun _ => hcard⟩
  · exact ⟨fun hcard _ => hcard, fun hall => hall hp⟩

end Nack

/-! ## Runs -/

section Runs
variable {a a' : RtcpAggregator}

/-- The sets of all sources are bounded. -/
def BoundedSets (a : RtcpAggregator) : Prop := All (fun d => Bounded d.nackedPackets) a.rtcpData

instance : DecidablePred BoundedSets := fun a =>
  inferInstanceAs (Decidable (∀ e ∈ a.rtcpData.entries, Bounded e.2.nackedPackets))

/-- Every NACK of a compound fits into the set as it finds it. -/
def Fitting (a : RtcpAggregator) : Event → Prop
  | .analyzeFeedback c buf len => RtcpProcessor.analyzes buf len = true → ∀ v ∈ a.met c buf len,
    RtcpHeader.packettype v.2.1 v.2.2 = 205 →
      Fits v.1.theData.nackedPackets (RtcpHeader.getNackPid v.2.1 v.2.2) (RtcpHeader.getNackBlp v.2.1 v.2.2)
  | _ => True

theorem nackedPackets_analyzePart (bw : ℕ) (now : Timeval) (s : Analysis) (m : Mem) (p : ℕ) :
    (analyzePart bw now s m p).theData.nackedPackets = if RtcpHeader.packettype m p = 205 then
      (insertNacks (RtcpHeader.getNackPid m p) (RtcpHeader.getNackBlp m p) s.theData.nackedPackets).1
      else s.theData.nackedPackets := by
  split_ifs with ht
  · obtain ⟨seqNum, blp, send, request, hkeep⟩ := analyzeNack_keeps m p s
    rw [analyzePart_of_nack ht, hkeep]
  · obtain ⟨-, -, -, -, hset⟩ := sameNacks_analyzePart bw now s ht
    exact hset

private theorem nackedPackets_checkSource {e : Endpoints} {bw ssrc : ℕ} {now : Timeval} {next : UInt32}
    {d d' : RtcpData}
    {r : Option Delivery × Bool} (h : checkSource e bw now next ssrc d = some (r, d')) :
    d'.nackedPackets = d.nackedPackets := by
  rcases checkSource_cases h with ⟨-, rfl⟩ | ⟨ratio, -, rfl⟩
  · rfl
  · obtain ⟨-, -, -, -, hkeep, -⟩ := report_keeps e bw now next ssrc ratio d
    exact hkeep

private theorem bounded_empty : Bounded ∅ := ⟨Nat.zero_le _, fun _ hn => absurd hn (Finset.notMem_empty _)⟩

private theorem bounded_step {ev : Event} {o : Output} (h : a.BoundedSets) (hc : Fitting a ev)
    (hs : step a ev = some (o, a')) :
    a'.BoundedSets := by
  cases ev with
  | analyzeFeedback c buf len =>
    cases hs
    refine All.analyzeFeedback (fun _ _ => bounded_empty) h ?_
    intro hfb v hv hd
    rw [nackedPackets_analyzePart]
    split_ifs with ht
    · exact (bounded_insertNacks_iff hd).mpr (hc hfb v hv ht)
    · exact hd
  | addSourceSsrc c ssrc =>
    cases hs
    exact All.addSourceSsrc (fun _ _ => bounded_empty) h c ssrc
  | analyzeSr c m =>
    cases hs
    exact All.analyzeSr (fun _ _ => bounded_empty) (fun _ _ hd => hd) h c m 0
  | setMaxVideoBW bandwidth =>
    cases hs
    exact h
  | setPublisherBW bandwidth =>
    cases hs
    exact h
  | checkRtcpFb c =>
    obtain ⟨p, hp, hr⟩ := Option.map_eq_some_iff.mp hs
    cases hr
    refine All.checkRtcpFb ?_ h hp
    intro ssrc d r d' hd hcheck
    rw [nackedPackets_checkSource hcheck]
    exact hd

/-- In every run whose NACKs fit, the sets of all sources are bounded all along. -/
theorem always_bounded_of_fitting {uninitialized maxVideoBw : ℕ} {evs : List Event}
    (hc : Along step Fitting (new uninitialized maxVideoBw) evs) :
    Always step BoundedSets (new uninitialized maxVideoBw) evs := by
  refine always_of_along ?_ All.empty hc
  intro a ev o a' h hfit hs
  exact bounded_step h hfit hs

/-- The source 2 of the sink 4, at the start of time. -/
def exampleCall : Call := ⟨⟨1, 2, 3, 4⟩, ⟨0, 0⟩, ⟨0, 0⟩, 0⟩

private theorem fitting_nackHeader {c : Call} {pid blp : UInt16} {sourceSsrc sinkSsrc : ℕ}
    (h : Fits (a.analysis c (nackHeader pid blp sourceSsrc sinkSsrc)).theData.nackedPackets pid blp) :
    Fitting a (.analyzeFeedback c (nackHeader pid blp sourceSsrc sinkSsrc) 16) := by
  intro _ v hv _
  simp only [met, Walk.visits, rtcpLength_nackHeader, Nat.zero_add, Nat.lt_irrefl, if_false,
    List.mem_singleton] at hv
  subst hv
  rw [getNackPid_nackHeader, getNackBlp_nackHeader]
  exact h

/-- NACKs for 17 numbers each fill the set up to 67, and one that starts with a number of the set trims it. -/
theorem always_bounded_full : ∃ os a,
    run? step (new 0 0) ([(0, 0xFFFF), (17, 0xFFFF), (34, 0xFFFF), (51, 0x7FFF)].map fun x =>
      .analyzeFeedback exampleCall (nackHeader x.1 x.2 2 4) 16) = some (os, a) ∧
    (a.rtcpData.find? 2).any (fun d => d.nackedPackets.card = 67) = true ∧
    Always step BoundedSets (new 0 0) ([(0, 0xFFFF), (17, 0xFFFF), (34, 0xFFFF), (51, 0x7FFF), (0, 0xFFFF)].map fun x =>
      .analyzeFeedback exampleCall (nackHeader x.1 x.2 2 4) 16) := by
  let next (a : RtcpAggregator) (pid blp : UInt16) : RtcpAggregator :=
    (a.analyzeFeedback exampleCall (nackHeader pid blp 2 4) 16).2
  let a₁ := next (new 0 0) 0 0xFFFF
  let a₂ := next a₁ 17 0xFFFF
  let a₃ := next a₂ 34 0xFFFF
  let a₄ := next a₃ 51 0x7FFF
  have h₀ : Fits ((new 0 0).analysis exampleCall (nackHeader 0 0xFFFF 2 4)).theData.nackedPackets 0 0xFFFF := by
    decide +kernel
  have h₁ : Fits (a₁.analysis exampleCall (nackHeader 17 0xFFFF 2 4)).theData.nackedPackets 17 0xFFFF := by
    decide +kernel
  have h₂ : Fits (a₂.analysis exampleCall (nackHeader 34 0xFFFF 2 4)).theData.nackedPackets 34 0xFFFF := by
    decide +kernel
  have h₃ : Fits (a₃.analysis exampleCall (nackHeader 51 0x7FFF 2 4)).theData.nackedPackets 51 0x7FFF := by
    decide +kernel
  have h₄ : Fits (a₄.analysis exampleCall (nackHeader 0 0xFFFF 2 4)).theData.nackedPackets 0 0xFFFF := by
    decide +kernel
  have hfull : (a₄.rtcpData.find? 2).any (fun d => d.nackedPackets.card = 67) = true := by decide +kernel
  have hrun : run? step (new 0 0) ([(0, 0xFFFF), (17, 0xFFFF), (34, 0xFFFF), (51, 0x7FFF)].map fun x =>
      .analyzeFeedback exampleCall (nackHeader x.1 x.2 2 4) 16) = some (_, a₄) := rfl
  refine ⟨_, a₄, hrun, hfull, always_bounded_of_fitting ?_⟩
  exact Along.cons (fitting_nackHeader h₀) (step_analyzeFeedback _ _ _ _) <|
    Along.cons (fitting_nackHeader h₁) (step_analyzeFeedback _ _ _ _) <|
    Along.cons (fitting_nackHeader h₂) (step_analyzeFeedback _ _ _ _) <|
    Along.cons (fitting_nackHeader h₃) (step_analyzeFeedback _ _ _ _) <|
    Along.cons (fitting_nackHeader h₄) (step_analyzeFeedback _ _ _ _) trivial

/-- The NACKs for 68 numbers that are not asked for twice. -/
def freshNacks : List Event :=
  (List.range 68).map fun n => .analyzeFeedback exampleCall (nackHeader (UInt16.ofNat n) 0 2 4) 16

/-- No number of 68 NACKs is dropped, and the number behind 65535 is 65536. -/
theorem not_always_bounded_fresh :
    ¬ Always step BoundedSets (new 0 0) freshNacks ∧
      ¬ Always step BoundedSets (new 0 0)
        [.analyzeFeedback exampleCall (nackHeader 65535 1 2 4) 16] := by
  constructor
  · apply not_always_of_any
    decide +kernel
  · apply not_always_of_any
    decide +kernel

end Runs
end Sfup.Rtp.RtcpAggregator
