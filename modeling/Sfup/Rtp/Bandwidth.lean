import Sfup.Rtp.Compounds

/-! The cap on the bandwidth: it is compared with the bandwidth of the publisher when that is set, and what the records
hold at that time is announced as it is. -/
namespace Sfup.Rtp.RtcpAggregator
open Sfup.Transition
open RtcpProcessor (rtcpLength)

/-- A packet of the compound announces the bit rate. -/
def Delivery.Announces (s : Delivery) (rate : ℕ) : Prop :=
  ∃ p ∈ Walk.blocks rtcpLength s.packet s.length (s.length + 1) 0, RtcpHeader.packettype s.packet p = 206 ∧
    RtcpHeader.getBlockCount s.packet p = 15 ∧ RtcpHeader.isREMB s.packet p = true ∧
    rate = RtcpHeader.getBrMantis s.packet p * 2 ^ RtcpHeader.getBrExp s.packet p

/-- The cap is not set below a bandwidth that is stored for a source, and a bandwidth is not stored if it and the
default are above the cap. -/
def Honoured (a : RtcpAggregator) : Event → Prop
  | .setMaxVideoBW bandwidth => All (fun d => d.reportedBandwidth ≤ bandwidth) a.rtcpData
  | .analyzeFeedback c buf len => RtcpProcessor.analyzes buf len = true → ∀ v ∈ a.met c buf len,
    RtcpHeader.packettype v.2.1 v.2.2 = 206 → RtcpHeader.getBlockCount v.2.1 v.2.2 = 15 →
      RtcpHeader.isREMB v.2.1 v.2.2 = true →
      a.defaultVideoBw ≤ a.maxVideoBw ∨ RtcpHeader.bitrate v.2.1 v.2.2 ≤ a.maxVideoBw
  | _ => True

/-! ## What is announced -/

section Announced
variable {e : Endpoints} {bw ssrc rate : ℕ} {now : Timeval} {next ratio : UInt32} {d d' : RtcpData}
  {r : Option Delivery × Bool}

private theorem packettype_header {m : Mem} {q pt blockcount length sinkSsrc sourceSsrc : ℕ} (hpt : pt < 256)
    (h : m (q + 1) = header pt blockcount length sinkSsrc sourceSsrc 1) : RtcpHeader.packettype m q = pt := by
  rw [RtcpHeader.packettype, h, header_type, UInt8.toNat_ofNat', Nat.mod_eq_of_lt hpt]

/-- A report announces at most the bandwidth of its source. -/
theorem report_announces (h : (report e bw now next ssrc ratio d).1.Announces rate) : rate ≤ d.reportedBandwidth := by
  obtain ⟨q, hq, ht, -, -, rfl⟩ := h
  rw [report_eq_compound] at hq ht ⊢
  obtain ⟨hholds, -⟩ := compound_spec (reportHeaders e now ssrc ratio d)
  have hstart : q ∈ starts 0 (reportHeaders e now ssrc ratio d) := (blocks_compound _) ▸ hq
  obtain ⟨k, hk, hcopy⟩ := exists_of_mem_starts hholds hstart
  simp only [] at ht ⊢
  generalize (compound (reportHeaders e now ssrc ratio d)).1 = m at ht hcopy ⊢
  rcases List.mem_cons.mp hk with rfl | hk
  · rw [rtcpLength_receiverReport] at hcopy
    have hrr := packettype_header (by omega) ((hcopy 1 (by omega)).trans (receiverReport_of_lt (by omega)))
    omega
  · rcases List.mem_append.mp hk with hk | hk
    · obtain rfl := eq_of_mem_nackHeaders hk
      rw [rtcpLength_nackHeader] at hcopy
      have hnack := packettype_header (by omega) ((hcopy 1 (by omega)).trans (nackHeader_of_lt (by omega)))
      omega
    · obtain rfl := eq_of_mem_rembHeaders hk
      rw [rtcpLength_rembHeader] at hcopy
      have hread : RtcpHeader.getBrMantis m q * 2 ^ RtcpHeader.getBrExp m q =
          RtcpHeader.getBrMantis (rembHeader e d.reportedBandwidth) 0 *
            2 ^ RtcpHeader.getBrExp (rembHeader e d.reportedBandwidth) 0 := by
        simp only [RtcpHeader.getBrMantis, RtcpHeader.getBrExp, hcopy 17 (by omega), hcopy 18 (by omega),
          hcopy 19 (by omega), Nat.zero_add]
      rw [hread]
      exact announced_rembHeader_le e d.reportedBandwidth

/-- A check announces at most the bandwidth of the source, and does not raise it. -/
theorem checkSource_announces (h : checkSource e bw now next ssrc d = some (r, d')) :
    (∀ s, r.1 = some s → ∀ rate, s.Announces rate → rate ≤ d.reportedBandwidth) ∧
      d'.reportedBandwidth ≤ d.reportedBandwidth := by
  rcases checkSource_cases h with ⟨hr, rfl⟩ | ⟨ratio, hr, rfl⟩
  · rw [hr]
    exact ⟨nofun, le_rfl⟩
  · obtain ⟨-, -, -, -, -, hle⟩ := report_keeps e bw now next ssrc ratio d
    refine ⟨?_, hle⟩
    rw [hr]
    rintro s ⟨⟩ rate hs
    exact report_announces hs

end Announced

/-! ## Runs -/

section Runs
variable {a a' : RtcpAggregator} {b : ℕ}

def Capped (b : ℕ) (a : RtcpAggregator) : Prop :=
  a.maxVideoBw = b ∧ All (fun d => d.reportedBandwidth ≤ b) a.rtcpData

/-- Only a bandwidth changes what is stored. -/
theorem reportedBandwidth_analyzePart {bw : ℕ} {now : Timeval} {s : Analysis} {m : Mem} {p : ℕ}
    (hb : s.theData.reportedBandwidth ≤ b)
    (hc : RtcpHeader.packettype m p = 206 → RtcpHeader.getBlockCount m p = 15 → RtcpHeader.isREMB m p = true →
      bw ≤ b ∨ RtcpHeader.bitrate m p ≤ b) :
    (analyzePart bw now s m p).theData.reportedBandwidth ≤ b := by
  rcases analyzePart_cases bw now s m p with
    ⟨-, heq⟩ | ⟨-, heq⟩ | ⟨-, -, pli, heq⟩ | ⟨hps, hafb, hremb, bandwidth, send, hmin, heq⟩
  · obtain ⟨-, -, -, -, -, hkeep⟩ := analyzeReceiver_keeps now m p s
    rw [heq, hkeep]
    exact hb
  · obtain ⟨seqNum, blp, send, request, hkeep⟩ := analyzeNack_keeps m p s
    rw [heq, hkeep]
    exact hb
  · rw [heq]
    exact hb
  · have hcap := hc hps hafb hremb
    have hle : bandwidth ≤ b := by omega
    rw [heq]
    exact hle

private theorem maxVideoBw_analyzeFeedback (a : RtcpAggregator) (c : Call) (buf : Mem) (len : ℕ) :
    (a.analyzeFeedback c buf len).2.maxVideoBw = a.maxVideoBw := by
  unfold analyzeFeedback
  split_ifs <;> rfl

theorem capped_step {ev : Event} {o : Output} (h : Capped b a) (hc : Honoured a ev)
    (hset : ∀ bandwidth, ev ≠ .setMaxVideoBW bandwidth) (hs : step a ev = some (o, a')) :
    (∀ s ∈ o.sent, ∀ rate, s.Announces rate → rate ≤ b) ∧ Capped b a' := by
  have hnew : ∀ (lastSrUpdated : Timeval) (mediaType : Sdp.MediaType),
      ({ lastSrUpdated, mediaType } : RtcpData).reportedBandwidth ≤ b := fun _ _ => Nat.zero_le b
  obtain ⟨hmax, hall⟩ := h
  cases ev with
  | addSourceSsrc c ssrc =>
    cases hs
    exact ⟨nofun, hmax, hall.addSourceSsrc hnew c ssrc⟩
  | analyzeSr c m =>
    cases hs
    exact ⟨nofun, hmax, hall.analyzeSr hnew (fun _ _ hd => hd) c m 0⟩
  | analyzeFeedback c buf len =>
    rw [step_analyzeFeedback] at hs
    cases hs
    refine ⟨nofun, ?_, hall.analyzeFeedback hnew ?_⟩
    · rw [maxVideoBw_analyzeFeedback, hmax]
    · intro hfb v hv hd
      apply reportedBandwidth_analyzePart hd
      rw [← hmax]
      exact hc hfb v hv
  | setMaxVideoBW bandwidth => exact absurd rfl (hset bandwidth)
  | setPublisherBW bandwidth =>
    cases hs
    exact ⟨nofun, hmax, hall⟩
  | checkRtcpFb c =>
    obtain ⟨p, hp, hr⟩ := Option.map_eq_some_iff.mp hs
    cases hr
    obtain ⟨q, hq, hqp⟩ := Option.map_eq_some_iff.mp hp
    have hcheck : All (fun d => d.reportedBandwidth ≤ b) p.2.rtcpData := by
      refine All.checkRtcpFb ?_ hall hp
      intro ssrc d r d' hd h
      exact (checkSource_announces h).2.trans hd
    cases hqp
    refine ⟨?_, hmax, hcheck⟩
    intro s hs rate hrate
    obtain ⟨r, hr, hrs⟩ := List.mem_filterMap.mp hs
    obtain ⟨e, he, d', hf⟩ := OrdMap.mem_outputs_mapM hq hr
    exact ((checkSource_announces hf).1 s hrs rate hrate).trans (hall e he)

theorem capped_run {evs : List Event} {os : List Output} (h : Capped b a) (hc : Along step Honoured a evs)
    (hset : ∀ bandwidth, .setMaxVideoBW bandwidth ∉ evs) (hrun : run? step a evs = some (os, a')) :
    ∀ o ∈ os, ∀ s ∈ o.sent, ∀ rate, s.Announces rate → rate ≤ b := by
  induction evs generalizing a os with
  | nil =>
    obtain ⟨rfl, -⟩ := Prod.mk.inj (Option.some.inj hrun)
    exact nofun
  | cons ev evs ih =>
    obtain ⟨o, a₁, os₁, h₁, h₂, rfl⟩ := run?_cons_eq_some.mp hrun
    obtain ⟨hsent, hcapped⟩ :=
      capped_step h hc.1 (fun bandwidth heq => hset bandwidth (heq ▸ List.mem_cons_self)) h₁
    rw [List.forall_mem_cons]
    exact ⟨hsent, ih hcapped (hc.2 o a₁ h₁) (fun bandwidth hmem => hset bandwidth (List.mem_cons_of_mem ev hmem)) h₂⟩

/-- In any state, no more than the cap is announced after it was set and until it is set again, if it is not set below
what is stored and no bandwidth above it is stored later. -/
theorem announces_le_of_honoured {evs : List Event} {o : Output} {os : List Output} {a₁ : RtcpAggregator}
    (hstep : step a (.setMaxVideoBW b) = some (o, a₁)) (hrun : run? step a₁ evs = some (os, a'))
    (hset : ∀ bandwidth, .setMaxVideoBW bandwidth ∉ evs)
    (hc : Along step Honoured a (.setMaxVideoBW b :: evs)) :
    ∀ o' ∈ os, ∀ s ∈ o'.sent, ∀ rate, s.Announces rate → rate ≤ b := by
  have hrest := hc.2 o a₁ hstep
  have hcapped : Capped b (a.setMaxVideoBW b) := ⟨rfl, hc.1⟩
  cases hstep
  exact capped_run hcapped hrest hset hrun

/-- A receiver report of the source 2 that answers the sender report 1, and behind it the bandwidth 200000. -/
def reportedRemb : Mem :=
  (compound [fun i => if i = 0 then 0x81 else if i = 1 then 201 else if i = 3 then 7 else if i = 11 then 2
    else if i = 19 then 5 else if i = 27 then 1 else 0, rembHeader ⟨1, 2, 3, 4⟩ 200000]).1

def exampleFeedback : Event := .analyzeFeedback ⟨⟨1, 2, 3, 4⟩, ⟨100, 0⟩, ⟨0, 0⟩, 0⟩ reportedRemb 56

def exampleCheck : Event := .checkRtcpFb ⟨⟨1, 2, 3, 4⟩, fun _ => ⟨101, 0⟩, fun _ => 800⟩

/-- The default of 50000 is below the cap, and is what is announced. -/
theorem announces_le_default :
    ∃ o a₁ os a', step (new 0 100000) (.setMaxVideoBW 100000) = some (o, a₁) ∧
      run? step a₁ [exampleFeedback, exampleCheck] = some (os, a') ∧
      ∀ o' ∈ os, ∀ s ∈ o'.sent, ∀ rate, s.Announces rate → rate ≤ 100000 := by
  have hstep : step (new 0 100000) (.setMaxVideoBW 100000) = some ({}, (new 0 100000).setMaxVideoBW 100000) := rfl
  have hsome : (run? step ((new 0 100000).setMaxVideoBW 100000) [exampleFeedback, exampleCheck]).isSome := by
    decide +kernel
  obtain ⟨p, hrun⟩ := Option.isSome_iff_exists.mp hsome
  have hset : ∀ bandwidth, .setMaxVideoBW bandwidth ∉ [exampleFeedback, exampleCheck] := by
    simp [exampleFeedback, exampleCheck]
  have hfeedback : Honoured ((new 0 100000).setMaxVideoBW 100000) exampleFeedback := by
    intro _ v _ _ _ _
    exact Or.inl (by decide)
  have halong : Along step Honoured (new 0 100000) (.setMaxVideoBW 100000 :: [exampleFeedback, exampleCheck]) :=
    Along.cons (fun _ he => absurd he List.not_mem_nil) hstep ⟨hfeedback, fun _ _ _ => ⟨trivial, fun _ _ _ => trivial⟩⟩
  exact ⟨_, _, p.1, p.2, hstep, hrun, announces_le_of_honoured hstep hrun hset halong⟩

instance {s : Delivery} {rate : ℕ} : Decidable (s.Announces rate) :=
  inferInstanceAs (Decidable (∃ p ∈ _, _ ∧ _ ∧ _ ∧ _))

/-- The bandwidth of 200000 that was stored before the cap was set is announced afterwards. -/
theorem not_announces_le_lowered :
    ∃ os₀ a o a₁ os a', run? step (new 0 600000) [exampleFeedback] = some (os₀, a) ∧
      step a (.setMaxVideoBW 100000) = some (o, a₁) ∧ run? step a₁ [exampleCheck] = some (os, a') ∧
      ¬ ∀ o' ∈ os, ∀ s ∈ o'.sent, ∀ rate, s.Announces rate → rate ≤ 100000 := by
  have hsome : (run? step (new 0 600000) [exampleFeedback]).any (fun p =>
      (run? step (p.2.setMaxVideoBW 100000) [exampleCheck]).any fun q =>
        q.1.any fun o => o.sent.any fun s => decide (s.Announces 200000)) = true := by
    decide +kernel
  obtain ⟨p, hp, hsome⟩ := (Option.any_eq_true _ _).mp hsome
  obtain ⟨q, hq, hsent⟩ := (Option.any_eq_true _ _).mp hsome
  refine ⟨p.1, p.2, _, _, q.1, q.2, hp, rfl, hq, ?_⟩
  intro hle
  obtain ⟨o, ho, hsent⟩ := List.any_eq_true.mp hsent
  obtain ⟨s, hs, hrate⟩ := List.any_eq_true.mp hsent
  have hbad := hle o ho s hs 200000 (of_decide_eq_true hrate)
  omega

end Runs
end Sfup.Rtp.RtcpAggregator
