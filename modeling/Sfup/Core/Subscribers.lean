import Sfup.Core.OneToManyProcessor
import Sfup.Core.SlideShow

/-! Subscribers of one publisher: what a connection puts on its queue is decided by the packet and its own state, as
long as it does not take the type of a frame from a structure that the parser left as it was. -/
namespace Sfup.Core
open Sfup.Rtp

/-- What is sent of a packet: its bytes up to its length. -/
def DataPacket.sent (p : DataPacket) : ℤ × List UInt8 × PacketType := (p.comp, p.data.bytes 0 p.length, p.type)

namespace WebRtcConnection

/-- The parser sets the type of the frame: the number of the partition is at most 8, and the packet goes on behind the
descriptor. -/
def FrameTypeSet (buf : Mem) (len : ℕ) : Prop :=
  (buf (RtpHeader.getHeaderLength buf 0)).toNat % 16 ≤ 8 ∧
    RtpHeader.getHeaderLength buf 0 + RtpVP8Parser.descriptorLength buf (RtpHeader.getHeaderLength buf 0) < len

def Guesses (c : WebRtcConnection) (buf : Mem) (len : ℕ) : Prop :=
  c.videoTransport = true ∧ c.videoEnabled = true ∧ c.slideShowMode = true ∧ c.grace = 0 ∧ c.hasRoom = true ∧
    RtcpHeader.isRtcp buf 0 = false ∧ RtpHeader.getPayloadType buf 0 ≠ 116 ∧ ¬ FrameTypeSet buf len

/-- Otherwise whether the packet starts a key frame depends on what the structure held before it was parsed. -/
theorem frameTypeSet_iff {buf : Mem} {len : ℕ} :
    FrameTypeSet buf len ↔ ∀ fresh fresh', keyframe fresh buf len = keyframe fresh' buf len := by
  constructor
  · rintro ⟨hpart, hlen⟩ fresh fresh'
    have hset : (buf (RtpHeader.getHeaderLength buf 0)).toNat % 16 ≤ 8 ∧
        (RtpVP8Parser.descriptorLength buf (RtpHeader.getHeaderLength buf 0) : ℤ) <
          len - RtpHeader.getHeaderLength buf 0 := ⟨hpart, by omega⟩
    simp only [keyframe, RtpVP8Parser.frameType_parseVP8, if_pos hset]
  · intro h
    by_contra hnot
    have hunset : ¬ ((buf (RtpHeader.getHeaderLength buf 0)).toNat % 16 ≤ 8 ∧
        (RtpVP8Parser.descriptorLength buf (RtpHeader.getHeaderLength buf 0) : ℤ) <
          len - RtpHeader.getHeaderLength buf 0) := fun hset => hnot ⟨hset.1, by omega⟩
    have hkey := h Fresh.zero { Fresh.zero with vp8 := { RTPPayloadVP8.zero with frameType := .kPFrame } }
    simp only [keyframe, RtpVP8Parser.frameType_parseVP8, if_neg hunset] at hkey
    exact absurd hkey (by decide)

/-! ## The packet that is queued -/

section Packet
variable {data data' : Mem} {i : ℕ}

/-- A byte of the changed packet depends on the same byte of the packet. -/
theorem changePayloadType_congr (replace : ℕ → ℕ) (h : data i = data' i) :
    changePayloadType replace data i = changePayloadType replace data' i := by
  by_cases hi : i = 1
  · subst hi
    have hrtcp : RtcpHeader.isRtcp data 0 = RtcpHeader.isRtcp data' 0 := by
      simp only [RtcpHeader.isRtcp, RtcpHeader.isFeedback, RtcpHeader.packettype, Nat.zero_add, h]
    have hpt : RtpHeader.getPayloadType data 0 = RtpHeader.getPayloadType data' 0 := by
      simp only [RtpHeader.getPayloadType, Nat.zero_add, h]
    unfold changePayloadType
    simp only [hrtcp, hpt]
    split_ifs
    · exact h
    · simp only [RtpHeader.setPayloadType, Nat.zero_add, Function.update_self, h]
    · exact h
  · rw [changePayloadType_of_ne hi, changePayloadType_of_ne hi, h]

theorem sent_dataPacket (c : WebRtcConnection) (fresh fresh' : Fresh) (buf : Mem) (len : ℕ) (type : PacketType)
    (seqNum : UInt16) : (c.dataPacket fresh 0 buf len type seqNum).sent = (c.dataPacket fresh' 0 buf len type seqNum).sent := by
  simp only [DataPacket.sent, dataPacket, Prod.mk.injEq, true_and, and_true]
  apply Mem.bytes_congr
  intro i hi
  have hcopy : (fun i => if i < len then buf i else fresh.packet.data i) (0 + i) =
      (fun i => if i < len then buf i else fresh'.packet.data i) (0 + i) := by
    simp [hi]
  split_ifs
  · exact Mem.setWord_congr (changePayloadType_congr _ hcopy)
  · exact changePayloadType_congr _ hcopy

end Packet

/-! ## What a connection decides -/

section Plan
variable {c c' : WebRtcConnection} {fresh fresh' : Fresh} {buf : Mem} {len : ℕ}

/-- What a connection does with a video packet before it looks at its queue. -/
inductive Plan where
  | idle
  | red
  | queue (seqNum : UInt16)
deriving DecidableEq

/-- The decision, for a packet that starts a key frame or not, and the state in which the packet is queued. -/
def plan (c : WebRtcConnection) (key : Bool) (buf : Mem) : Plan × WebRtcConnection :=
  if !(c.videoTransport && c.videoEnabled) then (.idle, c)
  else if RtcpHeader.isRtcp buf 0 then (.queue 0, c)
  else
    let c := { c with sendSeqNo := RtpHeader.getSeqNumber buf 0 }
    let isRed := decide (RtpHeader.getPayloadType buf 0 = 116)
    let supported := if isRed then c.remoteSdp.supportPayloadType 116 else (true, c.remoteSdp)
    let c := { c with remoteSdp := supported.2 }
    if isRed && (!supported.1 || c.slideShowMode) then (.red, c)
    else if c.slideShowMode then
      if key || decide (c.grace ≠ 0) then
        (.queue c.seqNo, { c with
          grace := if RtpHeader.getMarker buf 0 then 0 else if key then 1 else c.grace
          seqNo := c.seqNo + 1 })
      else (.idle, c)
    else (.queue (if 0 < c.seqNoOffset then c.sendSeqNo - c.seqNoOffset else 0), c)

def carryOut (fresh : Fresh) (buf : Mem) (len : ℕ) (p : Plan × WebRtcConnection) : Option (Option Output × WebRtcConnection) :=
  match p.1 with
  | .idle => some (none, p.2)
  | .red => some (some (.red (RtpHeader.getHeaderLength buf 0) (RtpHeader.getSeqNumber buf 0) buf len), p.2)
  | .queue seqNum => (p.2.queueData fresh 0 buf len .video seqNum).map fun q => (some q.1, q.2)

/-- The queue does not look at the counters of the slide show. -/
theorem queueData_slideShow (c : WebRtcConnection) (grace n : UInt16) (type : PacketType) (seqNum : UInt16) :
    queueData { c with grace, seqNo := n } fresh 0 buf len type seqNum =
      (c.queueData fresh 0 buf len type seqNum).map fun p => (p.1, { p.2 with grace, seqNo := n }) := by
  unfold queueData
  simp only []
  split_ifs <;> rfl

/-- In slide show mode the packet is queued from a key frame to its marker. -/
theorem deliverSlideShow_eq (c : WebRtcConnection) (fresh : Fresh) (buf : Mem) (len : ℕ) :
    c.deliverSlideShow fresh buf len = carryOut fresh buf len
      (if keyframe fresh buf len || decide (c.grace ≠ 0) then
        (.queue c.seqNo, { c with
          grace := if RtpHeader.getMarker buf 0 then 0 else if keyframe fresh buf len then 1 else c.grace
          seqNo := c.seqNo + 1 })
      else (.idle, c)) := by
  unfold deliverSlideShow
  simp only []
  generalize hg : (if keyframe fresh buf len then 1 else c.grace) = grace
  have hiff : (keyframe fresh buf len || decide (c.grace ≠ 0)) = decide (grace ≠ 0) := by
    rw [← hg]
    cases keyframe fresh buf len <;> simp
  rw [hiff]
  by_cases hz : grace = 0
  · have hidle : ({ c with grace } : WebRtcConnection) = c := by
      have hc : c.grace = grace := by
        rw [← hg] at hz ⊢
        cases hk : keyframe fresh buf len with
        | true =>
          rw [hk, if_pos rfl] at hz
          exact absurd hz (by decide)
        | false => simp
      rw [← hc]
    rw [if_neg (not_not.mpr hz), if_neg (by simp [hz]), hidle]
    rfl
  · rw [if_pos hz, if_pos (by simpa using hz)]
    simp only [carryOut]
    rw [queueData_slideShow c grace, queueData_slideShow c (if RtpHeader.getMarker buf 0 = true then 0 else grace),
      Option.map_map, Option.map_map]
    congr 1
    funext q
    simp only [Function.comp]
    split_ifs <;> rfl

theorem deliverVideoData_eq (c : WebRtcConnection) (fresh : Fresh) (buf : Mem) (len : ℕ) :
    c.deliverVideoData fresh buf len = carryOut fresh buf len (c.plan (keyframe fresh buf len) buf) := by
  unfold deliverVideoData plan
  simp only [deliverSlideShow_eq]
  split_ifs <;> rfl

def Alike (c c' : WebRtcConnection) : Prop :=
  ∃ sendQueue grace, c' = { c with sendQueue, grace } ∧ (grace = 0 ↔ c.grace = 0) ∧
    sendQueue.map DataPacket.sent = c.sendQueue.map DataPacket.sent

theorem Alike.refl (c : WebRtcConnection) : Alike c c := ⟨c.sendQueue, c.grace, rfl, Iff.rfl, rfl⟩

theorem Alike.hasRoom (h : Alike c c') : c'.hasRoom = c.hasRoom := by
  obtain ⟨sendQueue, grace, rfl, -, hqueue⟩ := h
  have hlen : sendQueue.length = c.sendQueue.length := by simpa using congrArg List.length hqueue
  simp only [WebRtcConnection.hasRoom, hlen]

/-- The part of the decision that is made in slide show mode. -/
theorem slideShow_alike {key key' : Bool} {sendQueue : List DataPacket} {grace : UInt16} (hgrace : grace = 0 ↔ c.grace = 0)
    (hqueue : sendQueue.map DataPacket.sent = c.sendQueue.map DataPacket.sent) (hkey : key = key' ∨ c.grace ≠ 0) :
    let next (c : WebRtcConnection) (key : Bool) : Plan × WebRtcConnection :=
      if key || decide (c.grace ≠ 0) then
        (.queue c.seqNo, { c with
          grace := if RtpHeader.getMarker buf 0 then 0 else if key then 1 else c.grace
          seqNo := c.seqNo + 1 })
      else (.idle, c)
    (next c key).1 = (next { c with sendQueue, grace } key').1 ∧
      Alike (next c key).2 (next { c with sendQueue, grace } key').2 := by
  intro next
  simp only [next]
  by_cases hg : c.grace = 0
  · obtain rfl : key = key' := hkey.resolve_right (not_not.mpr hg)
    have hg' := hgrace.mpr hg
    cases key with
    | true =>
      simp only [Bool.true_or, if_true]
      exact ⟨trivial, sendQueue, _, rfl, Iff.rfl, hqueue⟩
    | false =>
      simp only [hg, hg', ne_eq, not_true_eq_false, decide_false, Bool.or_false, Bool.false_eq_true, if_false]
      exact ⟨trivial, sendQueue, 0, rfl, by simp [hg], hqueue⟩
  · have hg' : ¬ grace = 0 := fun h => hg (hgrace.mp h)
    simp only [hg, hg', ne_eq, not_false_eq_true, decide_true, Bool.or_true, if_true]
    refine ⟨trivial, sendQueue, _, rfl, ?_, hqueue⟩
    split_ifs <;> simp_all

/-- The decision does not depend on the packets that wait, nor on the key frame if it is not looked for. -/
theorem plan_alike {key key' : Bool} (h : Alike c c')
    (hkey : c.videoTransport = true → c.videoEnabled = true → c.slideShowMode = true →
      RtcpHeader.isRtcp buf 0 = false → RtpHeader.getPayloadType buf 0 ≠ 116 → key = key' ∨ c.grace ≠ 0) :
    (c.plan key buf).1 = (c'.plan key' buf).1 ∧ Alike (c.plan key buf).2 (c'.plan key' buf).2 := by
  obtain ⟨sendQueue, grace, rfl, hgrace, hqueue⟩ := h
  unfold plan
  simp only []
  generalize (if decide (RtpHeader.getPayloadType buf 0 = 116) = true then c.remoteSdp.supportPayloadType 116
    else (true, c.remoteSdp)) = supported
  by_cases hidle : (!(c.videoTransport && c.videoEnabled)) = true
  · rw [if_pos hidle, if_pos hidle]
    exact ⟨rfl, sendQueue, grace, rfl, hgrace, hqueue⟩
  rw [if_neg hidle, if_neg hidle]
  by_cases hrtcp : RtcpHeader.isRtcp buf 0 = true
  · rw [if_pos hrtcp, if_pos hrtcp]
    exact ⟨rfl, sendQueue, grace, rfl, hgrace, hqueue⟩
  rw [if_neg hrtcp, if_neg hrtcp]
  by_cases hred : (decide (RtpHeader.getPayloadType buf 0 = 116) && (!supported.1 || c.slideShowMode)) = true
  · rw [if_pos hred, if_pos hred]
    exact ⟨rfl, sendQueue, grace, rfl, hgrace, hqueue⟩
  rw [if_neg hred, if_neg hred]
  by_cases hshow : c.slideShowMode = true
  · rw [if_pos hshow, if_pos hshow]
    have hready : c.videoTransport = true ∧ c.videoEnabled = true := by simpa using hidle
    have hpt : RtpHeader.getPayloadType buf 0 ≠ 116 := by
      intro hpt
      simp [hpt, hshow] at hred
    exact slideShow_alike (c := { c with sendSeqNo := RtpHeader.getSeqNumber buf 0, remoteSdp := supported.2 }) hgrace
      hqueue (hkey hready.1 hready.2 hshow (by simpa using hrtcp) hpt)
  · rw [if_neg hshow, if_neg hshow]
    exact ⟨rfl, sendQueue, grace, rfl, hgrace, hqueue⟩

theorem plan_queue (c : WebRtcConnection) (key : Bool) (buf : Mem) :
    (c.plan key buf).2.sendQueue = c.sendQueue ∧ (c.plan key buf).2.sending = c.sending := by
  unfold plan
  simp only []
  generalize (if decide (RtpHeader.getPayloadType buf 0 = 116) = true then c.remoteSdp.supportPayloadType 116
    else (true, c.remoteSdp)) = supported
  split
  · exact ⟨rfl, rfl⟩
  split
  · exact ⟨rfl, rfl⟩
  split
  · exact ⟨rfl, rfl⟩
  split
  · split <;> exact ⟨rfl, rfl⟩
  · exact ⟨rfl, rfl⟩

private theorem hasRoom_plan (c : WebRtcConnection) (key : Bool) (buf : Mem) :
    (c.plan key buf).2.hasRoom = c.hasRoom := by
  obtain ⟨hqueue, hsending⟩ := plan_queue c key buf
  rw [hasRoom, hasRoom, hqueue, hsending]

end Plan

/-! ## One call -/

section Call
variable {c c' c₁ c₁' : WebRtcConnection} {fresh fresh₁ : Fresh} {buf : Mem} {len : ℕ} {o o₁ : Option Output}

private theorem queueData_none (h : c.hasRoom = true) (hlen : 1500 < len) (type : PacketType) (seqNum : UInt16) :
    c.queueData fresh 0 buf len type seqNum = none := by
  obtain ⟨hs, hq⟩ := Bool.and_eq_true_iff.mp h
  simp [queueData, hs, of_decide_eq_true hq, hlen]

/-- A packet is put behind the others if there is room for it. -/
theorem queueData_appends {type : PacketType} {seqNum : UInt16} {out : Output}
    (h : c.queueData fresh 0 buf len type seqNum = some (out, c')) :
    c' = { c with sendQueue := c.sendQueue ++
      if c.hasRoom then [c.dataPacket fresh 0 buf len type seqNum] else [] } := by
  cases hroom : c.hasRoom with
  | false =>
    rw [queueData_full hroom] at h
    cases h
    simp
  | true =>
    by_cases hlen : len ≤ 1500
    · rw [queueData_room hroom hlen] at h
      cases h
      rfl
    · rw [queueData_none hroom (by omega)] at h
      cases h

/-- What a call does to the queue. -/
theorem deliverVideoData_appends (h : c.deliverVideoData fresh buf len = some (o, c')) :
    c' = { (c.plan (keyframe fresh buf len) buf).2 with sendQueue := c.sendQueue ++
      match (c.plan (keyframe fresh buf len) buf).1 with
      | .queue seqNum =>
        if c.hasRoom then [(c.plan (keyframe fresh buf len) buf).2.dataPacket fresh 0 buf len .video seqNum] else []
      | _ => [] } := by
  obtain ⟨hqueue, -⟩ := plan_queue c (keyframe fresh buf len) buf
  have hroom := hasRoom_plan c (keyframe fresh buf len) buf
  rw [deliverVideoData_eq] at h
  generalize c.plan (keyframe fresh buf len) buf = p at h hqueue hroom ⊢
  obtain ⟨plan, c₁⟩ := p
  simp only [] at hqueue hroom ⊢
  rw [← hqueue, ← hroom]
  cases plan with
  | idle =>
    cases h
    simp
  | red =>
    cases h
    simp
  | queue seqNum =>
    obtain ⟨⟨out, c₂⟩, hq, heq⟩ := Option.map_eq_some_iff.mp h
    cases heq
    exact queueData_appends hq

theorem appended_append (c₁ : WebRtcConnection) (packets : List DataPacket) :
    appended c { c₁ with sendQueue := c.sendQueue ++ packets } = packets := List.drop_left

theorem queue_deliverVideoData (h : c.deliverVideoData fresh buf len = some (o, c')) :
    c'.sendQueue = c.sendQueue ++ c.appended c' ∧ (c.appended c').length ≤ 1 ∧
      (c.hasRoom = false → c.appended c' = []) ∧ c'.sending = c.sending := by
  have hc' := deliverVideoData_appends h
  obtain ⟨-, hsending⟩ := plan_queue c (keyframe fresh buf len) buf
  generalize c.plan (keyframe fresh buf len) buf = p at hc' hsending
  rw [hc', appended_append]
  refine ⟨rfl, ?_, ?_, hsending⟩
  · split
    · split_ifs <;> simp
    · simp
  · intro hroom
    rw [hroom]
    split <;> rfl

private theorem deliverVideoData_full (hroom : c.hasRoom = false)
    (h : c.deliverVideoData fresh buf len = some (o, c')) :
    c.appended c' = [] ∧ c'.hasRoom = false := by
  obtain ⟨hqueue, -, hfull, hsending⟩ := queue_deliverVideoData h
  rw [hfull hroom, List.append_nil] at hqueue
  refine ⟨hfull hroom, ?_⟩
  rw [← hroom, WebRtcConnection.hasRoom, WebRtcConnection.hasRoom, hqueue, hsending]

/-- Two states that are alike send alike, whatever the memory holds, if the type of a frame is not guessed. -/
theorem deliverVideoData_alike (halike : Alike c c₁) (hroom : c.hasRoom = true) (hg : ¬ c.Guesses buf len)
    (h : c.deliverVideoData fresh buf len = some (o, c')) (h₁ : c₁.deliverVideoData fresh₁ buf len = some (o₁, c₁')) :
    (c.appended c').map DataPacket.sent = (c₁.appended c₁').map DataPacket.sent ∧ Alike c' c₁' := by
  have hkey : c.videoTransport = true → c.videoEnabled = true → c.slideShowMode = true →
      RtcpHeader.isRtcp buf 0 = false → RtpHeader.getPayloadType buf 0 ≠ 116 →
      keyframe fresh buf len = keyframe fresh₁ buf len ∨ c.grace ≠ 0 := by
    intro ht he hs hr hpt
    by_contra hnot
    rw [not_or, not_not] at hnot
    exact hg ⟨ht, he, hs, hnot.2, hroom, hr, hpt, fun hset => hnot.1 (frameTypeSet_iff.mp hset fresh fresh₁)⟩
  obtain ⟨hplan, hnext⟩ := plan_alike halike hkey
  have hc' := deliverVideoData_appends h
  have hc₁' := deliverVideoData_appends h₁
  rw [halike.hasRoom, hroom, ← hplan] at hc₁'
  rw [hroom] at hc'
  obtain ⟨sendQueue, grace, rfl, -, hqueue⟩ := halike
  obtain ⟨sendQueue₁, grace₁, hstate, hgrace₁, -⟩ := hnext
  rw [hstate] at hc₁'
  generalize c.plan (keyframe fresh buf len) buf = p at hc' hc₁' hgrace₁
  rw [hc', hc₁', appended_append, appended_append]
  cases p.1 with
  | queue seqNum =>
    have hsent := sent_dataPacket p.2 fresh fresh₁ buf len .video seqNum
    simp only [if_true, List.map_cons, List.map_nil]
    refine ⟨congrArg (fun x => [x]) hsent, _, _, rfl, hgrace₁, ?_⟩
    rw [List.map_append, List.map_append, hqueue]
    exact congrArg (fun x => _ ++ [x]) hsent.symm
  | _ => exact ⟨rfl, _, _, rfl, hgrace₁, by simpa using hqueue⟩

def Twins (c c₁ : WebRtcConnection) : Prop := Alike c c₁ ∨ (c.hasRoom = false ∧ c₁.hasRoom = false)

theorem deliverVideoData_twins (h : Twins c c₁) (hg : ¬ c.Guesses buf len)
    (hc : c.deliverVideoData fresh buf len = some (o, c')) (hc₁ : c₁.deliverVideoData fresh₁ buf len = some (o₁, c₁')) :
    (c.appended c').map DataPacket.sent = (c₁.appended c₁').map DataPacket.sent ∧ Twins c' c₁' := by
  have hfull : c.hasRoom = false → c₁.hasRoom = false →
      (c.appended c').map DataPacket.sent = (c₁.appended c₁').map DataPacket.sent ∧ Twins c' c₁' := by
    intro hroom hroom₁
    obtain ⟨hnone, hroom'⟩ := deliverVideoData_full hroom hc
    obtain ⟨hnone₁, hroom₁'⟩ := deliverVideoData_full hroom₁ hc₁
    rw [hnone, hnone₁]
    exact ⟨rfl, Or.inr ⟨hroom', hroom₁'⟩⟩
  rcases h with halike | ⟨hroom, hroom₁⟩
  · cases hroom : c.hasRoom with
    | false => exact hfull hroom (halike.hasRoom.trans hroom)
    | true =>
      obtain ⟨hsent, hnext⟩ := deliverVideoData_alike halike hroom hg hc hc₁
      exact ⟨hsent, Or.inl hnext⟩
  · exact hfull hroom hroom₁

/-- A packet that fits and is not redundant is handled in every state. -/
theorem deliverVideoData_isSome (c : WebRtcConnection) (fresh : Fresh) (hlen : len ≤ 1500) :
    ∃ o c', c.deliverVideoData fresh buf len = some (o, c') := by
  rw [deliverVideoData_eq]
  generalize c.plan (keyframe fresh buf len) buf = p
  obtain ⟨plan, c₁⟩ := p
  cases plan with
  | idle => exact ⟨_, _, rfl⟩
  | red => exact ⟨_, _, rfl⟩
  | queue seqNum =>
    simp only [carryOut]
    cases hroom : c₁.hasRoom with
    | false =>
      rw [queueData_full hroom]
      exact ⟨_, _, rfl⟩
    | true =>
      rw [queueData_room hroom hlen]
      exact ⟨_, _, rfl⟩

theorem appended_of_guesses (hg : c.Guesses buf len) (h : c.deliverVideoData fresh buf len = some (o, c')) :
    (c.appended c').length = if keyframe fresh buf len then 1 else 0 := by
  obtain ⟨ht, he, hs, hgrace, hroom, hr, hpt, -⟩ := hg
  have hplan : (c.plan (keyframe fresh buf len) buf).1 =
      if keyframe fresh buf len then .queue c.seqNo else .idle := by
    unfold plan
    simp only [ht, he, hs, hr, hpt, hgrace, Bool.and_self, Bool.not_true, Bool.false_eq_true, if_false, decide_false,
      Bool.false_and, if_true, ne_eq, not_true_eq_false, Bool.or_false]
    split_ifs <;> rfl
  rw [deliverVideoData_appends h, hplan, hroom, appended_append]
  cases keyframe fresh buf len <;> rfl

end Call

/-! ## The packets that are recovered -/

section Recovered
variable {c c' c₁ c₁' : WebRtcConnection} {memory memory₁ : ℕ → Fresh} {packets : List (Mem × ℕ)}
  {outs outs₁ : List (List DataPacket)}

/-- No packet of a list is guessed at, whatever the memory holds when the packets before it come in. -/
def Decides (c : WebRtcConnection) : List (Mem × ℕ) → Prop
  | [] => True
  | (buf, len) :: packets => ¬ c.Guesses buf len ∧
    ∀ fresh o c', c.deliverVideoData fresh buf len = some (o, c') → c'.Decides packets

def extend (fresh : Fresh) (memory : ℕ → Fresh) : ℕ → Fresh
  | 0 => fresh
  | i + 1 => memory i

/-- The packet fits, and does not go to the receiver of redundant packets. -/
def Plain (packet : Mem × ℕ) : Prop :=
  packet.2 ≤ 1500 ∧ (RtcpHeader.isRtcp packet.1 0 = true ∨ RtpHeader.getPayloadType packet.1 0 ≠ 116)

theorem onRecoveredPackets_cons_eq_some {buf : Mem} {len : ℕ} {r : List (List DataPacket) × WebRtcConnection} :
    c.onRecoveredPackets memory ((buf, len) :: packets) = some r ↔
      ∃ o c₁ outs c', c.deliverVideoData (memory 0) buf len = some (o, c₁) ∧ isRed o = false ∧
        c₁.onRecoveredPackets (fun i => memory (i + 1)) packets = some (outs, c') ∧ r = (c.appended c₁ :: outs, c') := by
  rw [onRecoveredPackets, Option.bind_eq_some_iff]
  constructor
  · rintro ⟨⟨o, c₁⟩, hd, h⟩
    simp only [] at h
    split_ifs at h with hred
    obtain ⟨⟨outs, c'⟩, hrest, rfl⟩ := Option.map_eq_some_iff.mp h
    exact ⟨o, c₁, outs, c', hd, by simpa using hred, hrest, rfl⟩
  · rintro ⟨o, c₁, outs, c', hd, hred, hrest, rfl⟩
    refine ⟨(o, c₁), hd, ?_⟩
    simp only []
    rw [hred, if_neg Bool.false_ne_true]
    exact Option.map_eq_some_iff.mpr ⟨_, hrest, rfl⟩

theorem onRecoveredPackets_twins (h : Twins c c₁) (hd : c.Decides packets)
    (hc : c.onRecoveredPackets memory packets = some (outs, c'))
    (hc₁ : c₁.onRecoveredPackets memory₁ packets = some (outs₁, c₁')) :
    outs.map (·.map DataPacket.sent) = outs₁.map (·.map DataPacket.sent) := by
  induction packets generalizing c c₁ memory memory₁ outs outs₁ with
  | nil =>
    cases hc
    cases hc₁
    rfl
  | cons packet packets ih =>
    obtain ⟨o, c₂, outs, _, hd₂, -, hrest, hr⟩ := onRecoveredPackets_cons_eq_some.mp hc
    obtain ⟨o₁, c₃, outs₁, _, hd₃, -, hrest₁, hr₁⟩ := onRecoveredPackets_cons_eq_some.mp hc₁
    cases hr
    cases hr₁
    obtain ⟨hsent, hnext⟩ := deliverVideoData_twins h hd.1 hd₂ hd₃
    rw [List.map_cons, List.map_cons, hsent, ih hnext (hd.2 _ _ _ hd₂) hrest hrest₁]

theorem isRed_of_plain {packet : Mem × ℕ} (hp : Plain packet) {fresh : Fresh} {o : Option Output}
    (h : c.deliverVideoData fresh packet.1 packet.2 = some (o, c')) : isRed o = false := by
  have hplan : (c.plan (keyframe fresh packet.1 packet.2) packet.1).1 ≠ .red := by
    unfold plan
    simp only []
    generalize (if decide (RtpHeader.getPayloadType packet.1 0 = 116) = true then c.remoteSdp.supportPayloadType 116
      else (true, c.remoteSdp)) = supported
    split
    · exact nofun
    split
    · exact nofun
    split
    · rename_i hrtcp hred
      have hpt : RtpHeader.getPayloadType packet.1 0 ≠ 116 := hp.2.resolve_left hrtcp
      simp [hpt] at hred
    split
    · split <;> exact nofun
    · exact nofun
  rw [deliverVideoData_eq] at h
  generalize c.plan (keyframe fresh packet.1 packet.2) packet.1 = p at h hplan
  obtain ⟨plan, c₁⟩ := p
  cases plan with
  | idle =>
    cases h
    rfl
  | red => exact absurd rfl hplan
  | queue seqNum =>
    obtain ⟨⟨out, c₂⟩, hq, heq⟩ := Option.map_eq_some_iff.mp h
    cases heq
    unfold queueData at hq
    simp only [] at hq
    split_ifs at hq <;> cases hq <;> rfl

private theorem onRecoveredPackets_isSome (hp : ∀ packet ∈ packets, Plain packet) (memory : ℕ → Fresh)
    (c : WebRtcConnection) :
    ∃ outs c', c.onRecoveredPackets memory packets = some (outs, c') := by
  induction packets generalizing c memory with
  | nil => exact ⟨_, _, rfl⟩
  | cons packet packets ih =>
    obtain ⟨hhead, htail⟩ := List.forall_mem_cons.mp hp
    obtain ⟨o, c₁, hd⟩ := deliverVideoData_isSome c (memory 0) hhead.1
    obtain ⟨outs, c', hrest⟩ := ih htail (fun i => memory (i + 1)) c₁
    exact ⟨_, _, onRecoveredPackets_cons_eq_some.mpr ⟨o, c₁, outs, c', hd, isRed_of_plain hhead hd, hrest, rfl⟩⟩

/-- If what is sent does not depend on the memory, then nothing is guessed. -/
theorem decides_of_same (hp : ∀ packet ∈ packets, Plain packet)
    (hsame : ∀ memory memory₁ outs outs₁ c' c₁', c.onRecoveredPackets memory packets = some (outs, c') →
      c.onRecoveredPackets memory₁ packets = some (outs₁, c₁') →
      outs.map (·.map DataPacket.sent) = outs₁.map (·.map DataPacket.sent)) : c.Decides packets := by
  induction packets generalizing c with
  | nil => trivial
  | cons packet packets ih =>
    obtain ⟨hhead, htail⟩ := List.forall_mem_cons.mp hp
    constructor
    · intro hg
      apply hg.2.2.2.2.2.2.2
      rw [frameTypeSet_iff]
      intro fresh fresh₁
      obtain ⟨outs, c', h⟩ := onRecoveredPackets_isSome hp (fun _ => fresh) c
      obtain ⟨outs₁, c₁', h₁⟩ := onRecoveredPackets_isSome hp (fun _ => fresh₁) c
      have houts := hsame _ _ _ _ _ _ h h₁
      obtain ⟨o, c₂, outs, _, hd, -, -, hr⟩ := onRecoveredPackets_cons_eq_some.mp h
      obtain ⟨o₁, c₃, outs₁, _, hd₁, -, -, hr₁⟩ := onRecoveredPackets_cons_eq_some.mp h₁
      cases hr
      cases hr₁
      have hlen := congrArg List.length (List.cons.inj houts).1
      rw [List.length_map, List.length_map, appended_of_guesses hg hd, appended_of_guesses hg hd₁] at hlen
      revert hlen
      cases keyframe fresh packet.1 packet.2 <;> cases keyframe fresh₁ packet.1 packet.2 <;> simp
    · intro fresh o c' hd
      apply ih htail
      intro memory memory₁ outs outs₁ c₂ c₃ h h₁
      have hred := isRed_of_plain hhead hd
      have houts := hsame (extend fresh memory) (extend fresh memory₁) _ _ _ _
        (onRecoveredPackets_cons_eq_some.mpr ⟨o, c', outs, c₂, hd, hred, h, rfl⟩)
        (onRecoveredPackets_cons_eq_some.mpr ⟨o, c', outs₁, c₃, hd, hred, h₁, rfl⟩)
      exact (List.cons.inj houts).2

end Recovered

/-! ## The packets that are redundant -/

section Red
variable {c c' c₁ : WebRtcConnection} {fresh fresh₁ : Fresh} {buf : Mem} {len : ℕ} {o o₁ : Option Output}

/-- What is redundant is decided before a key frame is looked for. -/
theorem plan_red {key : Bool} (h : (c.plan key buf).1 = .red) (key' : Bool) : c.plan key' buf = c.plan key buf := by
  unfold plan at h ⊢
  simp only [] at h ⊢
  generalize (if decide (RtpHeader.getPayloadType buf 0 = 116) = true then c.remoteSdp.supportPayloadType 116
    else (true, c.remoteSdp)) = supported at h ⊢
  by_cases hidle : (!(c.videoTransport && c.videoEnabled)) = true
  · rw [if_pos hidle, if_pos hidle]
  rw [if_neg hidle] at h ⊢
  rw [if_neg hidle]
  by_cases hrtcp : RtcpHeader.isRtcp buf 0 = true
  · rw [if_pos hrtcp, if_pos hrtcp]
  rw [if_neg hrtcp] at h ⊢
  rw [if_neg hrtcp]
  by_cases hred : (decide (RtpHeader.getPayloadType buf 0 = 116) && (!supported.1 || c.slideShowMode)) = true
  · rw [if_pos hred, if_pos hred]
  · rw [if_neg hred] at h
    split at h
    · split at h <;> cases h
    · cases h

theorem red_of_isRed (h : c.deliverVideoData fresh buf len = some (o, c')) (hred : isRed o = true) :
    o = some (.red (RtpHeader.getHeaderLength buf 0) (RtpHeader.getSeqNumber buf 0) buf len) ∧
      (c.plan (keyframe fresh buf len) buf) = (.red, c') := by
  rw [deliverVideoData_eq] at h
  generalize c.plan (keyframe fresh buf len) buf = p at h
  obtain ⟨plan, c₁⟩ := p
  cases plan with
  | idle =>
    cases h
    cases hred
  | red =>
    cases h
    exact ⟨rfl, rfl⟩
  | queue seqNum =>
    obtain ⟨⟨out, c₂⟩, hq, heq⟩ := Option.map_eq_some_iff.mp h
    cases heq
    unfold queueData at hq
    simp only [] at hq
    split_ifs at hq <;> cases hq <;> cases hred

/-- What goes to the receiver of redundant packets does not depend on the memory. -/
theorem isRed_same (h : c.deliverVideoData fresh buf len = some (o, c')) (hred : isRed o = true) (fresh₁ : Fresh) :
    c.deliverVideoData fresh₁ buf len = some (o, c') := by
  obtain ⟨ho, hplan⟩ := red_of_isRed h hred
  have hred₁ : (c.plan (keyframe fresh buf len) buf).1 = .red := by rw [hplan]
  rw [deliverVideoData_eq, plan_red hred₁, hplan, ho]
  rfl

end Red
end WebRtcConnection

/-! ## One subscriber -/

namespace Subscriber
open WebRtcConnection
variable {φ : Type} {fec : FecReceiver φ} {s s' s₁ s₁' : Subscriber φ} {memory memory₁ : ℕ → Fresh} {buf : Mem} {len : ℕ}
  {outs outs₁ : List (List DataPacket)}

/-- The subscriber does not guess at the packet, nor at those that are recovered from it. -/
def Decides (fec : FecReceiver φ) (s : Subscriber φ) (buf : Mem) (len : ℕ) : Prop :=
  ¬ s.conn.Guesses buf len ∧ ∀ fresh headerLength sequenceNumber m n conn,
    s.conn.deliverVideoData fresh buf len = some (some (.red headerLength sequenceNumber m n), conn) →
      conn.Decides (fec s.fec headerLength sequenceNumber m n).1

/-- The packet and those that are recovered from it fit, and no recovered packet is redundant again. -/
def Takes (fec : FecReceiver φ) (s : Subscriber φ) (buf : Mem) (len : ℕ) : Prop :=
  len ≤ 1500 ∧ ∀ fresh headerLength sequenceNumber m n conn,
    s.conn.deliverVideoData fresh buf len = some (some (.red headerLength sequenceNumber m n), conn) →
      ∀ packet ∈ (fec s.fec headerLength sequenceNumber m n).1, Plain packet

theorem deliverVideoData_of_not_red {o : Option Output} {conn : WebRtcConnection}
    (h : s.conn.deliverVideoData (memory 0) buf len = some (o, conn)) (hred : isRed o = false) :
    s.deliverVideoData fec memory buf len = some ([s.conn.appended conn], { s with conn }) := by
  rw [Subscriber.deliverVideoData, h]
  rcases o with - | (p | - | ⟨headerLength, sequenceNumber, m, n⟩)
  · rfl
  · rfl
  · rfl
  · cases hred

theorem deliverVideoData_of_red {headerLength n : ℕ} {sequenceNumber : UInt16} {m : Mem} {conn : WebRtcConnection}
    (h : s.conn.deliverVideoData (memory 0) buf len = some (some (.red headerLength sequenceNumber m n), conn)) :
    s.deliverVideoData fec memory buf len =
      (conn.onRecoveredPackets (fun i => memory (i + 1)) (fec s.fec headerLength sequenceNumber m n).1).map fun p =>
        (p.1, { conn := p.2, fec := (fec s.fec headerLength sequenceNumber m n).2 }) := by
  rw [Subscriber.deliverVideoData, h]

/-- A subscriber that does not guess sends the same whatever the memory holds. -/
theorem deliverVideoData_same (hd : s.Decides fec buf len) (h : s.deliverVideoData fec memory buf len = some (outs, s'))
    (h₁ : s.deliverVideoData fec memory₁ buf len = some (outs₁, s₁')) :
    outs.map (·.map DataPacket.sent) = outs₁.map (·.map DataPacket.sent) := by
  cases hc : s.conn.deliverVideoData (memory 0) buf len with
  | none =>
    rw [Subscriber.deliverVideoData, hc] at h
    cases h
  | some p =>
    obtain ⟨o, conn⟩ := p
    cases hred : isRed o with
    | true =>
      have hc₁ := isRed_same hc hred (memory₁ 0)
      obtain ⟨rfl, -⟩ := red_of_isRed hc hred
      rw [deliverVideoData_of_red hc] at h
      rw [deliverVideoData_of_red hc₁] at h₁
      obtain ⟨p, hp, heq⟩ := Option.map_eq_some_iff.mp h
      obtain ⟨p₁, hp₁, heq₁⟩ := Option.map_eq_some_iff.mp h₁
      cases heq
      cases heq₁
      exact onRecoveredPackets_twins (Or.inl (Alike.refl conn)) (hd.2 _ _ _ _ _ _ hc) hp hp₁
    | false =>
      cases hc₁ : s.conn.deliverVideoData (memory₁ 0) buf len with
      | none =>
        rw [Subscriber.deliverVideoData, hc₁] at h₁
        cases h₁
      | some p₁ =>
        obtain ⟨o₁, conn₁⟩ := p₁
        have hred₁ : isRed o₁ = false := by
          by_contra hne
          have hsame := isRed_same hc₁ (by simpa using hne) (memory 0)
          rw [hc] at hsame
          cases hsame
          exact hne hred
        rw [deliverVideoData_of_not_red hc hred] at h
        rw [deliverVideoData_of_not_red hc₁ hred₁] at h₁
        cases h
        cases h₁
        obtain ⟨hsent, -⟩ := deliverVideoData_twins (Or.inl (Alike.refl s.conn)) hd.1 hc hc₁
        exact congrArg (fun x => [x]) hsent

/-- A subscriber that sends the same whatever the memory holds does not guess. -/
theorem decides_of_same (ht : s.Takes fec buf len)
    (hsame : ∀ memory memory₁ outs outs₁ s' s₁', s.deliverVideoData fec memory buf len = some (outs, s') →
      s.deliverVideoData fec memory₁ buf len = some (outs₁, s₁') →
      outs.map (·.map DataPacket.sent) = outs₁.map (·.map DataPacket.sent)) : s.Decides fec buf len := by
  constructor
  · intro hg
    apply hg.2.2.2.2.2.2.2
    rw [frameTypeSet_iff]
    intro fresh fresh₁
    obtain ⟨o, conn, hc⟩ := WebRtcConnection.deliverVideoData_isSome s.conn fresh ht.1
    obtain ⟨o₁, conn₁, hc₁⟩ := WebRtcConnection.deliverVideoData_isSome s.conn fresh₁ ht.1
    have hplain : Plain (buf, len) := ⟨ht.1, Or.inr hg.2.2.2.2.2.2.1⟩
    have hs : s.deliverVideoData fec (fun _ => fresh) buf len = some ([s.conn.appended conn], { s with conn }) :=
      deliverVideoData_of_not_red hc (isRed_of_plain hplain hc)
    have hs₁ : s.deliverVideoData fec (fun _ => fresh₁) buf len =
        some ([s.conn.appended conn₁], { s with conn := conn₁ }) :=
      deliverVideoData_of_not_red hc₁ (isRed_of_plain hplain hc₁)
    have houts := hsame _ _ _ _ _ _ hs hs₁
    have hlen := congrArg List.length (List.cons.inj houts).1
    rw [List.length_map, List.length_map, appended_of_guesses hg hc, appended_of_guesses hg hc₁] at hlen
    revert hlen
    cases keyframe fresh buf len <;> cases keyframe fresh₁ buf len <;> simp
  · intro fresh headerLength sequenceNumber m n conn hc
    apply WebRtcConnection.decides_of_same (ht.2 _ _ _ _ _ _ hc)
    intro memory memory₁ outs outs₁ c' c₁' h h₁
    have hfirst : ∀ memory : ℕ → Fresh, s.conn.deliverVideoData (extend fresh memory 0) buf len =
        some (some (.red headerLength sequenceNumber m n), conn) := fun _ => hc
    refine hsame (extend fresh memory) (extend fresh memory₁) outs outs₁
      ⟨c', (fec s.fec headerLength sequenceNumber m n).2⟩ ⟨c₁', (fec s.fec headerLength sequenceNumber m n).2⟩ ?_ ?_
    · rw [deliverVideoData_of_red (hfirst memory)]
      exact Option.map_eq_some_iff.mpr ⟨_, h, rfl⟩
    · rw [deliverVideoData_of_red (hfirst memory₁)]
      exact Option.map_eq_some_iff.mpr ⟨_, h₁, rfl⟩

end Subscriber
end Sfup.Core
