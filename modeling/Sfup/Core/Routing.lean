import Sfup.Core.WebRtcConnection

/-! Where incoming media goes: each packet is given to one sink, by its transport or, in a bundle, by its source. The
source of a bundle is not read from every kind of packet, and its sink is not checked. -/
namespace Sfup.Core
open Sfup.Rtp

namespace WebRtcConnection

def ssrcAt (buf : Mem) (p : ℕ) : UInt32 := UInt32.ofNat (buf.long p)

/-- The source that a packet carries: RTCP, of one of the types from 200 to 206, has it behind its first word, and RTP
behind the timestamp. -/
def carriedSSRC (buf : Mem) : UInt32 :=
  if 200 ≤ RtcpHeader.packettype buf 0 ∧ RtcpHeader.packettype buf 0 ≤ 206 then ssrcAt buf 4 else ssrcAt buf 8

/-- The sink that a packet is given to is there, and the source or the transport of the packet stands for it. -/
def RightSink (c : WebRtcConnection) (buf : Mem) (mediaType : PacketType) : Option Delivery → Prop
  | none => True
  | some (.video _ _) => c.videoSink = true ∧
    if c.bundle then carriedSSRC buf = c.videoSourceSSRC else mediaType = .video
  | some (.audio _ _) => c.audioSink = true ∧
    if c.bundle then carriedSSRC buf = c.audioSourceSSRC else mediaType = .audio
  | some (.feedback _ _) => False

/-- The call returns, and gives the packet to at most one sink and to the right one. -/
def Routes (c : WebRtcConnection) (buf : Mem) (mediaType : PacketType)
    (r : Option (Option Delivery × WebRtcConnection)) : Prop := ∃ d c', r = some (d, c') ∧ c.RightSink buf mediaType d

/-- A packet with the source `carried` that is taken for one with the source `ssrc` meets its sink. -/
def Accepts (c : WebRtcConnection) (ssrc carried : UInt32) : Prop :=
  (ssrc = c.videoSourceSSRC → c.videoSink = true ∧ carried = c.videoSourceSSRC) ∧
    (ssrc ≠ c.videoSourceSSRC → ssrc = c.audioSourceSSRC → c.audioSink = true ∧ carried = c.audioSourceSSRC)

/-- By the kind of the packet: RTP and sender reports are taken for what they are, an application packet is taken for
what the stack holds, and a description or a goodbye for an RTP packet. -/
structure Routable (c : WebRtcConnection) (fresh : Fresh) (buf : Mem) : Prop where
  media : RtcpHeader.packettype buf 0 ∉ [202, 203, 204] → c.Accepts (carriedSSRC buf) (carriedSSRC buf)
  app : RtcpHeader.packettype buf 0 = 204 → c.Accepts fresh.recvSSRC (carriedSSRC buf)
  other : RtcpHeader.packettype buf 0 ∈ [202, 203] → c.Accepts (ssrcAt buf 8) (carriedSSRC buf)

variable {c : WebRtcConnection} {fresh : Fresh} {buf : Mem}

/-- The source that the code goes by, for a packet that is not feedback. -/
theorem recvSSRC_eq (fresh : Fresh) (h : RtcpHeader.isFeedback buf 0 = false) :
    recvSSRC fresh buf = if RtcpHeader.packettype buf 0 = 204 then fresh.recvSSRC
      else if RtcpHeader.packettype buf 0 ∈ [202, 203] then ssrcAt buf 8 else carriedSSRC buf := by
  simp only [RtcpHeader.isFeedback, Bool.or_eq_false_iff, decide_eq_false_iff_not] at h
  unfold recvSSRC carriedSSRC ssrcAt RtcpHeader.isRtcp RtcpHeader.isFeedback
  generalize RtcpHeader.packettype buf 0 = pt at h ⊢
  by_cases h200 : pt = 200
  · simp [h200, Mem.long]
  · by_cases h204 : pt = 204
    · simp [h204]
    · have hrange : pt ∈ [202, 203] ∨ ¬ (200 ≤ pt ∧ pt ≤ 206) := by
        simp only [List.mem_cons, List.not_mem_nil, or_false]
        omega
      simp only [h200, h204, h.1.1, h.1.2, h.2, decide_false, Bool.or_self, Bool.false_eq_true, if_false]
      rcases hrange with hother | hrtp
      · rw [if_pos hother]
        rfl
      · rw [if_neg hrtp]
        split_ifs
        · rfl
        · rfl

theorem routes_some_iff {c' : WebRtcConnection} {mediaType : PacketType} {d : Option Delivery} :
    c.Routes buf mediaType (some (d, c')) ↔ c.RightSink buf mediaType d := by
  constructor
  · rintro ⟨d', c₁, heq, hright⟩
    obtain ⟨rfl, -⟩ := Prod.mk.inj (Option.some.inj heq)
    exact hright
  · intro hright
    exact ⟨d, c', rfl, hright⟩

theorem not_routes_none {mediaType : PacketType} : ¬ c.Routes buf mediaType none := by
  rintro ⟨d, c', heq, -⟩
  cases heq

/-- A packet of a bundle is routed well exactly if the source it is taken for meets its sink. -/
theorem routes_bundle_iff (hb : c.bundle = true) (ssrc : UInt32) (len : ℕ) (mediaType : PacketType) :
    c.Routes buf mediaType ((c.deliverBundle ssrc buf len).map fun d => (d, c)) ↔ c.Accepts ssrc (carriedSSRC buf) := by
  unfold deliverBundle Accepts
  by_cases hv : ssrc = c.videoSourceSSRC
  · rw [if_pos hv]
    simp only [hv, ne_eq, not_true_eq_false, false_imp_iff, and_true, true_imp_iff]
    by_cases hsink : c.videoSink = true
    · rw [if_pos hsink, Option.map_some, routes_some_iff, RightSink, if_pos hb]
    · rw [if_neg hsink]
      exact iff_of_false not_routes_none fun h => hsink h.1
  · rw [if_neg hv]
    simp only [hv, ne_eq, not_false_eq_true, false_imp_iff, true_and, true_imp_iff]
    by_cases ha : ssrc = c.audioSourceSSRC
    · rw [if_pos ha]
      simp only [ha, true_imp_iff]
      by_cases hsink : c.audioSink = true
      · rw [if_pos hsink, Option.map_some, routes_some_iff, RightSink, if_pos hb]
      · rw [if_neg hsink]
        exact iff_of_false not_routes_none fun h => hsink h.1
    · rw [if_neg ha]
      exact iff_of_true (routes_some_iff.mpr trivial) fun h => absurd h ha

/-- Without a bundle the transport decides, and the sink is checked. -/
theorem routes_media (hb : c.bundle = false) (ssrc : UInt32) (len : ℕ) (mediaType : PacketType) :
    c.Routes buf mediaType (some (c.deliverMedia ssrc buf len mediaType)) := by
  have hnb : ¬ c.bundle = true := by simp [hb]
  unfold deliverMedia
  cases mediaType with
  | audio =>
    by_cases hsink : c.audioSink = true
    · simp only [if_pos hsink]
      exact routes_some_iff.mpr ⟨hsink, by rw [if_neg hnb]⟩
    · simp only [if_neg hsink]
      exact routes_some_iff.mpr trivial
  | video =>
    by_cases hsink : c.videoSink = true
    · simp only [if_pos hsink]
      exact routes_some_iff.mpr ⟨hsink, by rw [if_neg hnb]⟩
    · simp only [if_neg hsink]
      exact routes_some_iff.mpr trivial
  | other => exact routes_some_iff.mpr trivial

private theorem accepts_iff_routable (h : RtcpHeader.isFeedback buf 0 = false) :
    c.Accepts (recvSSRC fresh buf) (carriedSSRC buf) ↔ c.Routable fresh buf := by
  rw [recvSSRC_eq fresh h]
  by_cases happ : RtcpHeader.packettype buf 0 = 204
  · rw [if_pos happ]
    exact ⟨fun ha => ⟨by simp [happ], fun _ => ha, by simp [happ]⟩, fun hr => hr.app happ⟩
  · rw [if_neg happ]
    by_cases hother : RtcpHeader.packettype buf 0 ∈ [202, 203]
    · rw [if_pos hother]
      refine ⟨fun ha => ⟨fun hnot => absurd ?_ hnot, fun h204 => absurd h204 happ, fun _ => ha⟩, fun hr => hr.other hother⟩
      simp only [List.mem_cons, List.not_mem_nil, or_false] at hother ⊢
      omega
    · rw [if_neg hother]
      refine ⟨fun ha => ⟨fun _ => ha, fun h204 => absurd h204 happ, fun hm => absurd hm hother⟩, fun hr => hr.media ?_⟩
      simp only [List.mem_cons, List.not_mem_nil, or_false] at hother ⊢
      omega

/-- A packet that is not feedback is routed well exactly if there is no sink at all, or the connection is no bundle, or
what the packet is taken for meets its sink. -/
theorem routes_iff (c : WebRtcConnection) (fresh : Fresh) {buf : Mem} (len : ℕ) (mediaType : PacketType)
    (h : RtcpHeader.isFeedback buf 0 = false) :
    c.Routes buf mediaType (c.onTransportData fresh buf len mediaType) ↔
      ((c.audioSink || c.videoSink || c.fbSink) = true → c.bundle = true → c.Routable fresh buf) := by
  unfold onTransportData
  by_cases hsinks : (c.audioSink || c.videoSink || c.fbSink) = true
  · have hsome : ¬ (!c.audioSink && !c.videoSink && !c.fbSink) = true := by
      revert hsinks
      cases c.audioSink <;> cases c.videoSink <;> cases c.fbSink <;> decide
    rw [if_neg hsome, if_neg (by simp [h])]
    simp only [hsinks, true_imp_iff]
    cases hb : c.bundle with
    | true => simp only [if_true, true_imp_iff, routes_bundle_iff hb, accepts_iff_routable h]
    | false =>
      simp only [Bool.false_eq_true, if_false, false_imp_iff, iff_true]
      exact routes_media hb _ len mediaType
  · have hnone : (!c.audioSink && !c.videoSink && !c.fbSink) = true := by
      revert hsinks
      cases c.audioSink <;> cases c.videoSink <;> cases c.fbSink <;> decide
    rw [if_pos hnone]
    exact iff_of_true (routes_some_iff.mpr trivial) fun hs => absurd hs hsinks

def videoBundle : WebRtcConnection :=
  { new true true ⟨fun _ => none, fun _ => none, []⟩ with
    bundle := true, videoSink := true, audioSourceSSRC := 1, videoSourceSSRC := 2 }

/-- An RTP packet of a source. -/
def rtpOf (ssrc : UInt8) : Mem := fun i => if i = 0 then 0x80 else if i = 1 then 100 else if i = 11 then ssrc else 0

theorem routes_video : RtcpHeader.isFeedback (rtpOf 2) 0 = false ∧
    videoBundle.Routes (rtpOf 2) .video (videoBundle.onTransportData .zero (rtpOf 2) 12 .video) := by
  have h : RtcpHeader.isFeedback (rtpOf 2) 0 = false := by decide
  refine ⟨h, (routes_iff videoBundle .zero 12 .video h).mpr fun _ _ => ⟨fun _ => ?_, ?_, ?_⟩⟩
  · unfold Accepts
    decide
  · intro h204
    exact absurd h204 (by decide)
  · intro hother
    exact absurd hother (by decide)

/-- A packet of the audio source is given to the audio sink, which is not there. -/
theorem not_routes_audio : RtcpHeader.isFeedback (rtpOf 1) 0 = false ∧
    ¬ videoBundle.Routes (rtpOf 1) .video (videoBundle.onTransportData .zero (rtpOf 1) 12 .video) := by
  have hnull : videoBundle.onTransportData .zero (rtpOf 1) 12 .video = none := by rfl
  refine ⟨by decide, ?_⟩
  rw [hnull]
  exact not_routes_none

end WebRtcConnection
end Sfup.Core
