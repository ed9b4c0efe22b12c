import Sfup.Core.WebRtcConnection
import Sfup.Core.Stats
import Sfup.Rtp.RtcpAggregator
import Sfup.Rtp.RtcpForwarder
import Sfup.Rtp.BitRates

/-! The four loops over compound RTCP packets. They test the length of the buffer only behind each packet, so that
they keep inside it exactly if its packets fill it, the fields of their types end inside it, and no rewritten packet
leaves another length or type in the place of one that follows. -/
namespace Sfup.Core
open Sfup.Rtp RtcpProcessor

/-- The fields of `RtcpHeader` that the loops read or write. -/
inductive Field where
  | header
  | ssrc
  | sourceSsrc
  | fractionLost
  | lost
  | highestSeqnum
  | seqnumCycles
  | jitter
  | lastSr
  | delaySinceLast
  | packetsSent
  | octetsSent
  | nackPid
  | nackBlp
  | uniqueId
  | brLength

def Field.fin : Field → ℕ
  | header => 4
  | ssrc => 8
  | sourceSsrc => 12
  | fractionLost => 13
  | lost => 16
  | seqnumCycles => 18
  | highestSeqnum => 20
  | jitter => 24
  | lastSr => 28
  | delaySinceLast => 32
  | packetsSent => 24
  | octetsSent => 28
  | nackPid => 14
  | nackBlp => 16
  | uniqueId => 16
  | brLength => 20

/-- The fields of the packet at `p` are inside the first `len` bytes. -/
def Inside (len : ℕ) (fields : List Field) (p : ℕ) : Prop := ∀ f ∈ fields, p + f.fin ≤ len

/-- A loop over a compound: the test before it, what it does with a packet and the fields it touches there, as the
packet decides it. -/
structure Walker where
  State : Type
  start : State
  enters : Mem → ℕ → Bool
  body : State → Mem → ℕ → State × Mem
  fields : Mem → ℕ → List Field

namespace Walker
variable (w : Walker) (m : Mem) (len : ℕ)

def visits : List (Mem × ℕ) :=
  if w.enters m len then (Walk.visits rtcpLength w.body len (len + 1) w.start m 0).map (·.2) else []

def offsets : List ℕ := (w.visits m len).map (·.2)

def Good (m : Mem) (p : ℕ) : Prop := p + rtcpLength m p ≤ len ∧ Inside len (w.fields m p) p

/-- Each packet of the received buffer, with the buffer as the loop leaves it behind the packets in front. -/
def found : List (Mem × ℕ) :=
  (Walk.along w.body w.start m (Walk.blocks rtcpLength m len (len + 1) 0)).map (·.2)

end Walker

section Congr
variable {m m' : Mem} {p : ℕ} (h : ∀ i, p ≤ i → m i = m' i)
include h

theorem rtcpLength_congr : rtcpLength m p = rtcpLength m' p := by
  unfold rtcpLength RtcpHeader.getLength
  rw [Mem.word_congr (h _ (by omega)) (h _ (by omega))]

theorem packettype_congr : RtcpHeader.packettype m p = RtcpHeader.packettype m' p := by
  unfold RtcpHeader.packettype
  rw [h _ (by omega)]

theorem getBlockCount_congr : RtcpHeader.getBlockCount m p = RtcpHeader.getBlockCount m' p := by
  unfold RtcpHeader.getBlockCount RtcpHeader.blockcount
  rw [h _ le_rfl]

theorem isREMB_congr : RtcpHeader.isREMB m p = RtcpHeader.isREMB m' p := by
  unfold RtcpHeader.isREMB
  rw [h _ (by omega), h _ (by omega), h _ (by omega), h _ (by omega)]

end Congr

/-! ## The walkers -/

/-- The fields of an application packet: `strncmp` ends at the first letter that differs, in the same word. -/
def afbFields (m : Mem) (p : ℕ) : List Field :=
  if RtcpHeader.packettype m p = 206 ∧ RtcpHeader.getBlockCount m p = 15 then
    .uniqueId :: if RtcpHeader.isREMB m p then [.brLength] else []
  else []

/-- `RtcpAggregator::analyzeFeedback`. The source of the first packet is read before the loop. -/
def aggregator (defaultVideoBw : ℕ) (now : Timeval) (start : RtcpAggregator.Analysis) : Walker where
  State := RtcpAggregator.Analysis
  start := start
  enters := analyzes
  body s m p := (RtcpAggregator.analyzePart defaultVideoBw now s m p, m)
  fields m p := .header :: (if p = 0 then [.sourceSsrc] else []) ++
    (if RtcpHeader.packettype m p = 201 then
      [.sourceSsrc, .fractionLost, .lost, .seqnumCycles, .highestSeqnum, .jitter, .lastSr, .delaySinceLast]
    else if RtcpHeader.packettype m p = 205 then [.nackPid, .nackBlp] else []) ++ afbFields m p

/-- `RtcpForwarder::analyzeFeedback`. -/
def forwarder (e : Endpoints) (maxVideoBw : ℕ) : Walker where
  State := Unit
  start := ()
  enters := analyzes
  body _ m p := ((), RtcpForwarder.forwardPart e maxVideoBw m p)
  fields m p := .header :: (if p = 0 then [.sourceSsrc] else []) ++
    (if RtcpHeader.packettype m p = 201 then [.sourceSsrc, .ssrc] else []) ++ afbFields m p

/-- `Stats::processRtcpPacket`. -/
def stats (start : Stats) : Walker where
  State := Stats
  start := start
  enters _ _ := true
  body s m p := (Stats.processPart s m p, m)
  fields m p := [.header, .ssrc] ++
    (if RtcpHeader.packettype m p = 201 then [.fractionLost, .lost, .jitter, .sourceSsrc]
    else if RtcpHeader.packettype m p = 200 then [.packetsSent, .octetsSent] else []) ++ afbFields m p

/-- The loop of `WebRtcConnection::onTransportData`. -/
def renumbering (seqNoOffset : UInt16) : Walker where
  State := Unit
  start := ()
  enters _ _ := true
  body _ m p := ((), WebRtcConnection.shiftFeedback seqNoOffset m p)
  fields m p := .header :: if RtcpHeader.packettype m p = 201 then [.seqnumCycles, .highestSeqnum]
    else if RtcpHeader.packettype m p = 205 then [.nackPid] else []

/-- The loop of `onTransportData` is the one of the walker `renumbering`. -/
theorem feedbackLoop_eq_loop (seqNoOffset : UInt16) (len fuel : ℕ) (m : Mem) (p : ℕ) :
    WebRtcConnection.feedbackLoop seqNoOffset len fuel m p =
      (Walk.loop rtcpLength (fun _ m p => ((), WebRtcConnection.shiftFeedback seqNoOffset m p)) len fuel () m p).2 := by
  induction fuel generalizing m p with
  | zero => rfl
  | succ fuel ih =>
    rw [Walk.loop_succ, WebRtcConnection.feedbackLoop]
    by_cases hlt : p + rtcpLength m p < len
    · rw [if_pos hlt]
      exact (if_pos hlt).trans (ih _ _)
    · rw [if_neg hlt]
      exact if_neg hlt

/-! ## Inside the buffer -/

namespace Walker
variable {w : Walker} {m : Mem} {len : ℕ}

/-- A walker visits the packets of the received buffer and keeps inside it exactly if it finds each of them with its
received length and with all that it touches inside the buffer. -/
theorem visits_iff_found (he : w.enters m len = true)
    (hends : ∀ p ∈ Walk.blocks rtcpLength m len (len + 1) 0, p + rtcpLength m p ≤ len) :
    (w.offsets m len = Walk.blocks rtcpLength m len (len + 1) 0 ∧ ∀ v ∈ w.visits m len, w.Good len v.1 v.2) ↔
      ∀ v ∈ w.found m len, rtcpLength v.1 v.2 = rtcpLength m v.2 ∧ Inside len (w.fields v.1 v.2) v.2 := by
  unfold offsets visits found
  rw [if_pos he, List.map_map, List.forall_mem_map, List.forall_mem_map]
  exact @Walk.visits_iff_along _ rtcpLength w.body len (len + 1) w.start m 0 m
    (fun m p => Inside len (w.fields m p) p) rtcpLength_pos (by omega) hends

theorem mem_of_mem_found {v : Mem × ℕ} (h : v ∈ w.found m len) : v.2 ∈ Walk.blocks rtcpLength m len (len + 1) 0 := by
  obtain ⟨x, hx, rfl⟩ := List.mem_map.mp h
  exact Walk.mem_of_mem_along hx

section Read
variable (hread : ∀ s m p, (w.body s m p).2 = m)
include hread

/-- A walker that does not write finds the packets as they were received. -/
theorem found_of_read :
    w.found m len = (Walk.blocks rtcpLength m len (len + 1) 0).map fun p => (m, p) :=
  Walk.along_of_read hread w.start _

theorem visits_of_read (he : w.enters m len = true) :
    w.visits m len = (Walk.blocks rtcpLength m len (len + 1) 0).map fun p => (m, p) := by
  rw [visits, if_pos he]
  exact Walk.visits_of_read hread w.start

end Read

end Walker

/-- The bytes that the two reading walkers read of a packet of this type are inside the buffer. The aggregator reads all
of a report block, and the source of the first packet. -/
structure Holds (m : Mem) (len p : ℕ) : Prop where
  ssrc : p + 8 ≤ len
  first : p = 0 → analyzes m len = true → p + 12 ≤ len
  sender : RtcpHeader.packettype m p = 200 → p + 28 ≤ len
  receiver : RtcpHeader.packettype m p = 201 → p + (if analyzes m len then 32 else 24) ≤ len
  nack : RtcpHeader.packettype m p = 205 → analyzes m len = true → p + 16 ≤ len
  afb : RtcpHeader.packettype m p = 206 → RtcpHeader.getBlockCount m p = 15 →
    p + (if RtcpHeader.isREMB m p then 20 else 16) ≤ len

/-- The forwarder finds the packet with its received length, and what it touches of the type that it finds is inside
the buffer. -/
structure Forwardable (first m : Mem) (len p : ℕ) : Prop where
  length : rtcpLength m p = rtcpLength first p
  receiver : RtcpHeader.packettype m p = 201 → p + 12 ≤ len
  afb : RtcpHeader.packettype m p = 206 → RtcpHeader.getBlockCount m p = 15 →
    p + (if RtcpHeader.isREMB m p then 20 else 16) ≤ len

/-- The same for the loop that renumbers. -/
structure Renumberable (first m : Mem) (len p : ℕ) : Prop where
  length : rtcpLength m p = rtcpLength first p
  receiver : RtcpHeader.packettype m p = 201 → p + 20 ≤ len
  nack : RtcpHeader.packettype m p = 205 → p + 14 ≤ len

/-- By the length fields of the received buffer its packets end inside it, what is read of them is inside it, and each is
found by the two loops that write with its length and with what they touch inside the buffer. -/
structure Fits (e : Endpoints) (maxVideoBw : ℕ) (seqNoOffset : UInt16) (m : Mem) (len : ℕ) : Prop where
  ends : ∀ p ∈ Walk.blocks rtcpLength m len (len + 1) 0, p + rtcpLength m p ≤ len
  holds : ∀ p ∈ Walk.blocks rtcpLength m len (len + 1) 0, Holds m len p
  forwardable : analyzes m len = true → ∀ v ∈ (forwarder e maxVideoBw).found m len, Forwardable m v.1 len v.2
  renumberable : ∀ v ∈ (renumbering seqNoOffset).found m len, Renumberable m v.1 len v.2

/-- The walkers that go through the buffer visit the same offsets, and each packet with all that is read or
written of it is inside the buffer. -/
structure StayInside (ws : List Walker) (m : Mem) (len : ℕ) : Prop where
  same : ∀ w ∈ ws, ∀ w' ∈ ws, w.enters m len = true → w'.enters m len = true → w.offsets m len = w'.offsets m len
  inside : ∀ w ∈ ws, ∀ v ∈ w.visits m len, w.Good len v.1 v.2

/-- The four walkers with any state and any settings. -/
def walkers (defaultVideoBw maxVideoBw : ℕ) (now : Timeval) (e : Endpoints) (data : RtcpAggregator.Analysis) (s : Stats)
    (seqNoOffset : UInt16) : List Walker :=
  [aggregator defaultVideoBw now data, forwarder e maxVideoBw, stats s, renumbering seqNoOffset]

section Fits
variable {m first : Mem} {len p : ℕ}

theorem inside_cons {f : Field} {fields : List Field} : Inside len (f :: fields) p ↔ p + f.fin ≤ len ∧ Inside len fields p :=
  List.forall_mem_cons

theorem inside_append {fields fields' : List Field} :
    Inside len (fields ++ fields') p ↔ Inside len fields p ∧ Inside len fields' p := List.forall_mem_append

theorem inside_nil : Inside len [] p := List.forall_mem_nil _

theorem inside_ite {c : Prop} [Decidable c] {fields fields' : List Field} :
    Inside len (if c then fields else fields') p ↔ (c → Inside len fields p) ∧ (¬ c → Inside len fields' p) := by
  split_ifs with h <;> simp [h]

theorem inside_of_fin_le {fields : List Field} {f : Field} (hf : f ∈ fields) (hmax : ∀ g ∈ fields, g.fin ≤ f.fin) :
    Inside len fields p ↔ p + f.fin ≤ len :=
  ⟨fun h => h f hf, fun h g hg => (Nat.add_le_add_left (hmax g hg) p).trans h⟩

theorem inside_afbFields : Inside len (afbFields m p) p ↔ (RtcpHeader.packettype m p = 206 →
    RtcpHeader.getBlockCount m p = 15 → p + (if RtcpHeader.isREMB m p then 20 else 16) ≤ len) := by
  unfold Inside afbFields
  by_cases h206 : RtcpHeader.packettype m p = 206
  · by_cases h15 : RtcpHeader.getBlockCount m p = 15
    · cases RtcpHeader.isREMB m p
      · simp [h206, h15, Field.fin]
      · simp [h206, h15, Field.fin]
        omega
    · simp [h15]
  · simp [h206]

section Walkers
variable {defaultVideoBw maxVideoBw : ℕ} {now : Timeval} {e : Endpoints} {data : RtcpAggregator.Analysis} {s : Stats}
  {seqNoOffset : UInt16}

theorem inside_stats : Inside len ((stats s).fields m p) p ↔ p + 8 ≤ len ∧
    (RtcpHeader.packettype m p = 201 → p + 24 ≤ len) ∧ (RtcpHeader.packettype m p = 200 → p + 28 ≤ len) ∧
    (RtcpHeader.packettype m p = 206 → RtcpHeader.getBlockCount m p = 15 →
      p + (if RtcpHeader.isREMB m p then 20 else 16) ≤ len) := by
  have hhead : Inside len [.header, .ssrc] p ↔ p + 8 ≤ len := inside_of_fin_le (f := .ssrc) (by simp) (by simp [Field.fin])
  have hreceiver : Inside len [.fractionLost, .lost, .jitter, .sourceSsrc] p ↔ p + 24 ≤ len :=
    inside_of_fin_le (f := .jitter) (by simp) (by simp [Field.fin])
  have hsender : Inside len [.packetsSent, .octetsSent] p ↔ p + 28 ≤ len :=
    inside_of_fin_le (f := .octetsSent) (by simp) (by simp [Field.fin])
  simp only [stats, inside_append, inside_ite, inside_afbFields, hhead, hreceiver, hsender, inside_nil]
  constructor
  · rintro ⟨⟨h8, h201, hrest⟩, hafb⟩
    exact ⟨h8, h201, fun h200 => (hrest (by omega)).1 h200, hafb⟩
  · rintro ⟨h8, h201, h200, hafb⟩
    exact ⟨⟨h8, h201, fun _ => ⟨h200, fun _ => trivial⟩⟩, hafb⟩

theorem inside_aggregator : Inside len ((aggregator defaultVideoBw now data).fields m p) p ↔ p + 4 ≤ len ∧
    (p = 0 → p + 12 ≤ len) ∧ (RtcpHeader.packettype m p = 201 → p + 32 ≤ len) ∧
    (RtcpHeader.packettype m p = 205 → p + 16 ≤ len) ∧
    (RtcpHeader.packettype m p = 206 → RtcpHeader.getBlockCount m p = 15 →
      p + (if RtcpHeader.isREMB m p then 20 else 16) ≤ len) := by
  have hreceiver : Inside len [.sourceSsrc, .fractionLost, .lost, .seqnumCycles, .highestSeqnum, .jitter, .lastSr,
      .delaySinceLast] p ↔ p + 32 ≤ len := inside_of_fin_le (f := .delaySinceLast) (by simp) (by simp [Field.fin])
  have hnack : Inside len [.nackPid, .nackBlp] p ↔ p + 16 ≤ len :=
    inside_of_fin_le (f := .nackBlp) (by simp) (by simp [Field.fin])
  simp only [aggregator, List.cons_append, inside_cons, inside_append, inside_ite, inside_afbFields, hreceiver, hnack,
    inside_nil, Field.fin]
  constructor
  · rintro ⟨h4, ⟨hfirst, h201, hrest⟩, hafb⟩
    exact ⟨h4, fun h0 => (hfirst.1 h0).1, h201, fun h205 => (hrest (by omega)).1 h205, hafb⟩
  · rintro ⟨h4, hfirst, h201, h205, hafb⟩
    exact ⟨h4, ⟨⟨fun h0 => ⟨hfirst h0, trivial⟩, fun _ => trivial⟩, h201, fun _ => ⟨h205, fun _ => trivial⟩⟩, hafb⟩

theorem inside_forwarder : Inside len ((forwarder e maxVideoBw).fields m p) p ↔ p + 4 ≤ len ∧
    (p = 0 → p + 12 ≤ len) ∧ (RtcpHeader.packettype m p = 201 → p + 12 ≤ len) ∧
    (RtcpHeader.packettype m p = 206 → RtcpHeader.getBlockCount m p = 15 →
      p + (if RtcpHeader.isREMB m p then 20 else 16) ≤ len) := by
  have hreceiver : Inside len [.sourceSsrc, .ssrc] p ↔ p + 12 ≤ len :=
    inside_of_fin_le (f := .sourceSsrc) (by simp) (by simp [Field.fin])
  simp only [forwarder, List.cons_append, inside_cons, inside_append, inside_ite, inside_afbFields, hreceiver, inside_nil,
    Field.fin]
  constructor
  · rintro ⟨h4, ⟨hfirst, h201⟩, hafb⟩
    exact ⟨h4, fun h0 => (hfirst.1 h0).1, h201.1, hafb⟩
  · rintro ⟨h4, hfirst, h201, hafb⟩
    exact ⟨h4, ⟨⟨fun h0 => ⟨hfirst h0, trivial⟩, fun _ => trivial⟩, h201, fun _ => trivial⟩, hafb⟩

private theorem inside_renumbering : Inside len ((renumbering seqNoOffset).fields m p) p ↔ p + 4 ≤ len ∧
    (RtcpHeader.packettype m p = 201 → p + 20 ≤ len) ∧ (RtcpHeader.packettype m p = 205 → p + 14 ≤ len) := by
  have hreceiver : Inside len [.seqnumCycles, .highestSeqnum] p ↔ p + 20 ≤ len :=
    inside_of_fin_le (f := .highestSeqnum) (by simp) (by simp [Field.fin])
  simp only [renumbering, inside_cons, inside_ite, hreceiver, inside_nil, Field.fin]
  constructor
  · rintro ⟨h4, h201, hrest⟩
    exact ⟨h4, h201, fun h205 => ((hrest (by omega)).1 h205).1⟩
  · rintro ⟨h4, h201, h205⟩
    exact ⟨h4, h201, fun _ => ⟨fun h => ⟨h205 h, trivial⟩, fun _ => trivial⟩⟩

/-- What the two reading walkers touch of a packet. -/
theorem holds_iff : Holds m len p ↔ Inside len ((stats s).fields m p) p ∧
    (analyzes m len = true → Inside len ((aggregator defaultVideoBw now data).fields m p) p) := by
  rw [inside_stats, inside_aggregator]
  constructor
  · intro h
    have hssrc := h.ssrc
    have hreceiver := h.receiver
    refine ⟨⟨h.ssrc, fun h201 => ?_, h.sender, h.afb⟩, fun ha => ⟨by omega, fun h0 => h.first h0 ha, fun h201 => ?_,
      fun h205 => h.nack h205 ha, h.afb⟩⟩
    · have hle := hreceiver h201
      split_ifs at hle <;> omega
    · simpa only [ha, if_true] using hreceiver h201
  · rintro ⟨⟨hssrc, h24, hsender, hafb⟩, hanalyzed⟩
    refine ⟨hssrc, fun h0 ha => (hanalyzed ha).2.1 h0, hsender, fun h201 => ?_, fun h205 ha => (hanalyzed ha).2.2.2.1 h205,
      hafb⟩
    split_ifs with ha
    · exact (hanalyzed ha).2.2.1 h201
    · exact h24 h201

private theorem forwardable_iff (h : Holds first len p) (ha : analyzes first len = true) : Forwardable first m len p ↔
    rtcpLength m p = rtcpLength first p ∧ Inside len ((forwarder e maxVideoBw).fields m p) p := by
  have hssrc := h.ssrc
  rw [inside_forwarder]
  exact ⟨fun hf => ⟨hf.length, by omega, fun h0 => h.first h0 ha, hf.receiver, hf.afb⟩,
    fun ⟨hlength, _, _, hreceiver, hafb⟩ => ⟨hlength, hreceiver, hafb⟩⟩

private theorem renumberable_iff (h : Holds first len p) : Renumberable first m len p ↔
    rtcpLength m p = rtcpLength first p ∧ Inside len ((renumbering seqNoOffset).fields m p) p := by
  have hssrc := h.ssrc
  rw [inside_renumbering]
  exact ⟨fun hr => ⟨hr.length, by omega, hr.receiver, hr.nack⟩,
    fun ⟨hlength, _, hreceiver, hnack⟩ => ⟨hlength, hreceiver, hnack⟩⟩

/-- All four walkers go through the packets of the received buffer, each with what it touches inside the buffer. -/
theorem forall_found_iff (hends : ∀ p ∈ Walk.blocks rtcpLength m len (len + 1) 0, p + rtcpLength m p ≤ len) :
    (∀ w ∈ walkers defaultVideoBw maxVideoBw now e data s seqNoOffset, w.enters m len = true → ∀ v ∈ w.found m len,
      rtcpLength v.1 v.2 = rtcpLength m v.2 ∧ Inside len (w.fields v.1 v.2) v.2) ↔
    Fits e maxVideoBw seqNoOffset m len := by
  have hstats : (stats s).found m len = (Walk.blocks rtcpLength m len (len + 1) 0).map fun p => (m, p) :=
    Walker.found_of_read fun _ _ _ => rfl
  have haggregator : (aggregator defaultVideoBw now data).found m len =
      (Walk.blocks rtcpLength m len (len + 1) 0).map fun p => (m, p) :=
    Walker.found_of_read fun _ _ _ => rfl
  simp only [walkers, List.forall_mem_cons, hstats, haggregator, List.forall_mem_map, true_and]
  constructor
  · rintro ⟨hanalyzed, hforwarded, hcounted, hshifted, -⟩
    have hholds : ∀ p ∈ Walk.blocks rtcpLength m len (len + 1) 0, Holds m len p := by
      intro p hp
      exact holds_iff.mpr ⟨hcounted rfl p hp, fun ha => hanalyzed ha p hp⟩
    constructor
    · exact hends
    · exact hholds
    · intro ha v hv
      exact (forwardable_iff (hholds v.2 (Walker.mem_of_mem_found hv)) ha).mpr (hforwarded ha v hv)
    · intro v hv
      exact (renumberable_iff (hholds v.2 (Walker.mem_of_mem_found hv))).mpr (hshifted rfl v hv)
  · intro h
    have hreads : ∀ p ∈ Walk.blocks rtcpLength m len (len + 1) 0, Inside len ((stats s).fields m p) p ∧
        (analyzes m len = true → Inside len ((aggregator defaultVideoBw now data).fields m p) p) := by
      intro p hp
      exact holds_iff.mp (h.holds p hp)
    refine ⟨?_, ?_, ?_, ?_, List.forall_mem_nil _⟩
    · intro ha p hp
      exact (hreads p hp).2 ha
    · intro ha v hv
      exact (forwardable_iff (h.holds v.2 (Walker.mem_of_mem_found hv)) ha).mp (h.forwardable ha v hv)
    · intro _ p hp
      exact (hreads p hp).1
    · intro _ v hv
      exact (renumberable_iff (h.holds v.2 (Walker.mem_of_mem_found hv))).mp (h.renumberable v hv)

/-- The four walkers visit the same packets, all inside the buffer, exactly if by their length fields the packets
end inside the buffer, what is touched of them is inside it, and no rewritten packet changes that for one that follows. -/
theorem stayInside_iff (defaultVideoBw maxVideoBw : ℕ) (now : Timeval) (e : Endpoints) (data : RtcpAggregator.Analysis)
    (s : Stats) (seqNoOffset : UInt16) (m : Mem) (len : ℕ) :
    StayInside (walkers defaultVideoBw maxVideoBw now e data s seqNoOffset) m len ↔
      Fits e maxVideoBw seqNoOffset m len := by
  have hstats : stats s ∈ walkers defaultVideoBw maxVideoBw now e data s seqNoOffset := by simp [walkers]
  have hread : (stats s).visits m len = (Walk.blocks rtcpLength m len (len + 1) 0).map fun p => (m, p) :=
    Walker.visits_of_read (fun _ _ _ => rfl) rfl
  constructor
  · intro h
    have hends : ∀ p ∈ Walk.blocks rtcpLength m len (len + 1) 0, p + rtcpLength m p ≤ len := by
      intro p hp
      refine (h.inside (stats s) hstats (m, p) ?_).1
      rw [hread]
      exact List.mem_map_of_mem hp
    have hoffsets : (stats s).offsets m len = Walk.blocks rtcpLength m len (len + 1) 0 := by
      rw [Walker.offsets, hread, List.map_map]
      exact List.map_id' _
    apply (forall_found_iff hends).mp
    intro w hw hent
    exact (Walker.visits_iff_found hent hends).mp
      ⟨(h.same w hw (stats s) hstats hent rfl).trans hoffsets, h.inside w hw⟩
  · intro h
    have hvisits : ∀ w ∈ walkers defaultVideoBw maxVideoBw now e data s seqNoOffset, w.enters m len = true →
        w.offsets m len = Walk.blocks rtcpLength m len (len + 1) 0 ∧ ∀ v ∈ w.visits m len, w.Good len v.1 v.2 := by
      intro w hw hent
      exact (Walker.visits_iff_found hent h.ends).mpr ((forall_found_iff h.ends).mpr h w hw hent)
    constructor
    · intro w hw w' hw' hent hent'
      exact (hvisits w hw hent).1.trans (hvisits w' hw' hent').1.symm
    · intro w hw
      by_cases hent : w.enters m len = true
      · exact (hvisits w hw hent).2
      · simp [Walker.visits, hent]

end Walkers
end Fits

/-- A receiver report that announces 32 bytes in a buffer of 8: the statistics read a packet that is not there. -/
def truncatedReport : Mem := fun i => if i = 0 then 0x81 else if i = 1 then 201 else if i = 3 then 7 else 0

theorem not_stayInside_truncated : ¬ StayInside (walkers 300000 300000 ⟨0, 0⟩ ⟨1, 2, 3, 4⟩
    ⟨{ lastSrUpdated := ⟨0, 0⟩, mediaType := .videoType }, 0, []⟩ ⟨fun _ _ => none⟩ 0) truncatedReport 8 := by
  intro h
  have hvisited : (truncatedReport, 0) ∈ (stats ⟨fun _ _ => none⟩).visits truncatedReport 8 :=
    List.mem_singleton.mpr rfl
  have hend : 0 + rtcpLength truncatedReport 0 ≤ 8 := (h.inside (stats ⟨fun _ _ => none⟩) (by simp [walkers]) _ hvisited).1
  exact absurd hend (by decide)

end Sfup.Core
