import Sfup.Core.WebRtcConnection
import Sfup.Lib.Transition
import Mathlib.Data.List.Chain

/-! Renumbering in slide show mode: over runs of mode switches, packets and turns of the send loop, the
numbers put on the send queue go up by one. -/
namespace Sfup.Core
open Sfup.Rtp Sfup.Transition

/-- Each number is the one before it plus 1, modulo 2^16. -/
def Consecutive (l : List UInt16) : Prop := l.IsChain fun a b => b = a + 1

def DataPacket.number (p : DataPacket) : UInt16 := RtpHeader.getSeqNumber p.data 0

namespace WebRtcConnection

inductive Event where
  | setSlideShowMode (state : Bool)
  | deliverVideoData (fresh : Fresh) (buf : Mem) (len : ℕ)
  | deliverAudioData (fresh : Fresh) (buf : Mem) (len : ℕ)
  | sendLoop

/-- The output is that of a video packet. -/
def step (c : WebRtcConnection) : Event → Option (Option Output × WebRtcConnection)
  | .setSlideShowMode state => some (none, c.setSlideShowMode state)
  | .deliverVideoData fresh buf len => c.deliverVideoData fresh buf len
  | .deliverAudioData fresh buf len => (c.deliverAudioData fresh buf len).map fun c' => (none, c')
  | .sendLoop => some (none, c.sendLoop)

/-- Video packets are RTP and not RED, and every packet fits `dataPacket::data`. -/
def Event.Valid : Event → Prop
  | .deliverVideoData _ buf len =>
    RtcpHeader.isRtcp buf 0 = false ∧ RtpHeader.getPayloadType buf 0 ≠ 116 ∧ 12 ≤ len ∧ len ≤ 1500
  | .deliverAudioData _ _ len => len ≤ 1500
  | _ => True

/-- The number of an incoming video packet. -/
def Event.number? : Event → Option UInt16
  | .deliverVideoData _ buf _ => some (RtpHeader.getSeqNumber buf 0)
  | _ => none

/-- The numbers put on the send queue. -/
def queuedNumbers (outs : List (Option Output)) : List UInt16 :=
  outs.filterMap fun
    | some (.queued p) => some p.number
    | _ => none

/-- The last number put on the queue, and whether a packet was discarded after it. -/
structure History where
  last : Option UInt16
  gap : Bool

def History.note (h : History) : Option Output → History
  | some (.queued p) => ⟨some p.number, false⟩
  | some .discarded => { h with gap := true }
  | _ => h

def hasRoom (c : WebRtcConnection) : Bool := c.sending && decide (c.sendQueue.length < 1000)

/-- The number a packet is to be sent under is not 0, which `queueData` takes for no number, unless it
is also the number the packet came with. -/
def Renumbers (c : WebRtcConnection) (fresh : Fresh) (buf : Mem) (len : ℕ) : Prop :=
  if c.slideShowMode then
    c.grace ≠ 0 ∨ keyframe fresh buf len = true → c.seqNo = 0 → RtpHeader.getSeqNumber buf 0 = 0
  else 0 < c.seqNoOffset → RtpHeader.getSeqNumber buf 0 ≠ c.seqNoOffset

/-- The mode is not switched on after a packet was queued, no packet is queued after one was discarded,
and no packet is to be sent under the number 0. -/
def Meets (s : WebRtcConnection × History) : Event → Prop
  | .setSlideShowMode state => state = true → s.1.slideShowMode = false → s.2.last = none
  | .deliverVideoData fresh buf len =>
    (s.2.last ≠ none → s.2.gap = true → s.1.hasRoom = false) ∧ s.1.Renumbers fresh buf len
  | _ => True

variable {c : WebRtcConnection} {fresh : Fresh} {buf : Mem} {len : ℕ}

theorem getSeqNumber_changePayloadType (replace : ℕ → ℕ) (data : Mem) :
    RtpHeader.getSeqNumber (changePayloadType replace data) 0 = RtpHeader.getSeqNumber data 0 := by
  simp only [changePayloadType]
  split_ifs
  · rfl
  · exact RtpHeader.getSeqNumber_setPayloadType _
  · rfl

theorem changePayloadType_of_ne {i : ℕ} (hi : i ≠ 1) (replace : ℕ → ℕ) (data : Mem) :
    changePayloadType replace data i = data i := by
  simp only [changePayloadType]
  split_ifs
  · rfl
  · exact Function.update_of_ne (by omega) _ _
  · rfl

theorem getMarker_changePayloadType (replace : ℕ → ℕ) (data : Mem) :
    RtpHeader.getMarker (changePayloadType replace data) 0 = RtpHeader.getMarker data 0 := by
  have hbyte := (data 1).toNat_lt
  simp only [changePayloadType]
  split_ifs
  · rfl
  · simp only [RtpHeader.getMarker, RtpHeader.setPayloadType, Nat.zero_add, Function.update_self, decide_eq_decide]
    rw [UInt8.toNat_ofNat']
    omega
  · rfl

theorem queueData_full (h : c.hasRoom = false) (type : PacketType) (seqNum : UInt16) :
    c.queueData fresh 0 buf len type seqNum = some (.discarded, c) := by
  unfold hasRoom at h
  unfold queueData
  cases hs : c.sending with
  | false => simp
  | true =>
    rw [hs] at h
    simp only [Bool.true_and, decide_eq_false_iff_not] at h
    simp [h]

theorem queueData_room (h : c.hasRoom = true) (hlen : len ≤ 1500) (type : PacketType) (seqNum : UInt16) :
    c.queueData fresh 0 buf len type seqNum =
      some (.queued (c.dataPacket fresh 0 buf len type seqNum),
        { c with sendQueue := c.sendQueue ++ [c.dataPacket fresh 0 buf len type seqNum] }) := by
  obtain ⟨hs, hq⟩ := Bool.and_eq_true_iff.mp h
  simp [queueData, hs, of_decide_eq_true hq, Nat.not_lt.mpr hlen]

theorem number_dataPacket (c : WebRtcConnection) (fresh : Fresh) {buf : Mem} {len : ℕ} (hlen : 12 ≤ len) (type : PacketType) (seqNum : UInt16) :
    (c.dataPacket fresh 0 buf len type seqNum).number =
      if seqNum ≠ 0 then seqNum else RtpHeader.getSeqNumber buf 0 := by
  simp only [DataPacket.number, dataPacket]
  split_ifs
  · exact RtpHeader.getSeqNumber_setSeqNumber _
  · rw [changeDeliverPayloadType, getSeqNumber_changePayloadType]
    apply Mem.word_congr
    · exact if_pos (by omega)
    · exact if_pos (by omega)

/-- The packet is put on the queue under the wanted number when there is room, and discarded when not. -/
theorem queueData_cases (c : WebRtcConnection) (fresh : Fresh) {n seqNum : UInt16} (hlen : 12 ≤ len) (hlen' : len ≤ 1500)
    (hn : (if seqNum ≠ 0 then seqNum else RtpHeader.getSeqNumber buf 0) = n) :
    ∃ r q, c.queueData fresh 0 buf len .video seqNum = some (r, { c with sendQueue := q }) ∧
      ((∃ p, r = .queued p ∧ p.number = n ∧ c.hasRoom = true) ∨ r = .discarded) := by
  cases h : c.hasRoom with
  | true =>
    exact ⟨_, _, queueData_room h hlen' .video seqNum,
      .inl ⟨_, rfl, (number_dataPacket c fresh hlen .video seqNum).trans hn, rfl⟩⟩
  | false => exact ⟨_, c.sendQueue, queueData_full h .video seqNum, .inr rfl⟩

def lastNumber (c : WebRtcConnection) : UInt16 :=
  if c.slideShowMode then c.seqNo - 1 else c.sendSeqNo - c.seqNoOffset

/-- `prev` is the number of the last packet that came in. -/
structure Inv (c : WebRtcConnection) (h : History) (prev : Option UInt16) : Prop where
  transport : c.videoTransport = true
  enabled : c.videoEnabled = true
  sendSeqNo : ∀ n, prev = some n → c.sendSeqNo = n
  arrived : h.last ≠ none → prev ≠ none
  last : ∀ l, h.last = some l → h.gap = false → l = c.lastNumber

def Continues (h : History) (r : Option Output) (c' : WebRtcConnection) (prev : Option UInt16) : Prop :=
  Inv c' (h.note r) prev ∧ ∀ p, r = some (.queued p) → ∀ l, h.last = some l → p.number = l + 1

variable {h : History} {prev : Option UInt16}

/-- A packet given to `queueData` under the number after the last one continues the run. -/
theorem continues_of_queueData {c' : WebRtcConnection} {t n : UInt16} {r : Output}
    (ht : c'.videoTransport = true) (he : c'.videoEnabled = true) (hn : c'.sendSeqNo = n)
    (hl : c'.lastNumber = t) (hstep : ∀ l, h.last = some l → h.gap = false → t = l + 1)
    (hgap : h.last ≠ none → h.gap = true → c.hasRoom = false)
    (hr : (∃ p, r = .queued p ∧ p.number = t ∧ c.hasRoom = true) ∨ r = .discarded) :
    Continues h (some r) c' (some n) := by
  have hsend : ∀ m, some n = some m → c'.sendSeqNo = m := fun m hm => hn.trans (Option.some.inj hm)
  rcases hr with ⟨p, rfl, hp, hroom⟩ | rfl
  · constructor
    · refine ⟨ht, he, hsend, fun _ => Option.some_ne_none n, ?_⟩
      intro l hlast _
      rw [hl, ← hp]
      exact (Option.some.inj hlast).symm
    · intro p' hp' l hlast
      obtain rfl : p = p' := by simpa using hp'
      rw [hp]
      apply hstep l hlast
      cases hg : h.gap with
      | false => rfl
      | true => exact absurd (hgap (by simp [hlast]) hg) (by simp [hroom])
  · constructor
    · refine ⟨ht, he, hsend, fun _ => Option.some_ne_none n, ?_⟩
      intro l _ hg
      cases hg
    · intro p hp
      cases hp

/-- Outside slide show mode the number of a packet is its own less the offset. -/
theorem deliverVideoData_off (hi : Inv c h prev) (hv : (Event.deliverVideoData fresh buf len).Valid)
    (hprev : ∀ m, prev = some m → RtpHeader.getSeqNumber buf 0 = m + 1)
    (hm : Meets (c, h) (.deliverVideoData fresh buf len)) (hs : c.slideShowMode = false) :
    ∃ r c', c.deliverVideoData fresh buf len = some (r, c') ∧
      Continues h r c' (some (RtpHeader.getSeqNumber buf 0)) := by
  obtain ⟨hrtcp, hred, hlen, hlen'⟩ := hv
  obtain ⟨hgap, hz⟩ := hm
  simp only [Renumbers, hs, Bool.false_eq_true, if_false] at hz
  generalize hn : RtpHeader.getSeqNumber buf 0 = n at hprev hz
  generalize hseq : (if 0 < c.seqNoOffset then n - c.seqNoOffset else 0) = seqNum
  have hwant : (if seqNum ≠ 0 then seqNum else RtpHeader.getSeqNumber buf 0) = n - c.seqNoOffset := by
    rw [← hseq, hn]
    grind
  have hd : c.deliverVideoData fresh buf len =
      (queueData { c with sendSeqNo := n } fresh 0 buf len .video seqNum).map fun p => (some p.1, p.2) := by
    simp [deliverVideoData, hi.transport, hi.enabled, hrtcp, hred, hs, hn, hseq]
  obtain ⟨r, q, hq, hr⟩ :=
    queueData_cases { c with sendSeqNo := n } fresh hlen hlen' hwant
  rw [hq] at hd
  refine ⟨_, _, hd, continues_of_queueData (c := c) hi.transport hi.enabled rfl
    (by simp [lastNumber, hs]) ?_ hgap hr⟩
  intro l hl hg
  obtain ⟨m, hm⟩ := Option.ne_none_iff_exists'.mp (hi.arrived (by simp [hl]))
  have hlast : l = c.sendSeqNo - c.seqNoOffset := by simpa [lastNumber, hs] using hi.last l hl hg
  rw [hlast, hi.sendSeqNo m hm, hprev m hm]
  grind

/-- In slide show mode the packets that are sent take the next numbers. -/
theorem deliverVideoData_on (hi : Inv c h prev) (hv : (Event.deliverVideoData fresh buf len).Valid)
    (hm : Meets (c, h) (.deliverVideoData fresh buf len)) (hs : c.slideShowMode = true) :
    ∃ r c', c.deliverVideoData fresh buf len = some (r, c') ∧
      Continues h r c' (some (RtpHeader.getSeqNumber buf 0)) := by
  obtain ⟨hrtcp, hred, hlen, hlen'⟩ := hv
  obtain ⟨hgap, hz⟩ := hm
  simp only [Renumbers, hs, if_true] at hz
  generalize hn : RtpHeader.getSeqNumber buf 0 = n at hz
  generalize hk : (if keyframe fresh buf len then 1 else c.grace) = grace
  have hd : c.deliverVideoData fresh buf len = if grace ≠ 0 then
      (queueData { c with sendSeqNo := n, grace := grace, seqNo := c.seqNo + 1 } fresh 0 buf len .video
        c.seqNo).map fun p => (some p.1, if RtpHeader.getMarker buf 0 then { p.2 with grace := 0 } else p.2)
      else some (none, { c with sendSeqNo := n, grace := grace }) := by
    rw [← hk]
    simp only [deliverVideoData, hi.transport, hi.enabled, hrtcp, hred, hs, hn]
    rfl
  by_cases hg : grace = 0
  · rw [if_neg (by simpa using hg)] at hd
    refine ⟨_, _, hd, ⟨hi.transport, hi.enabled, by simp, by simp, ?_⟩, by simp⟩
    intro l hl hgap'
    simpa [lastNumber, hs] using hi.last l hl hgap'
  · have hsends : c.grace ≠ 0 ∨ keyframe fresh buf len = true := by
      by_contra hno
      obtain ⟨h₁, h₂⟩ : c.grace = 0 ∧ keyframe fresh buf len = false := by simpa using hno
      simp [← hk, h₁, h₂] at hg
    have hwant : (if c.seqNo ≠ 0 then c.seqNo else RtpHeader.getSeqNumber buf 0) = c.seqNo := by
      rw [hn]
      grind
    obtain ⟨r, q, hq, hr⟩ := queueData_cases
      { c with sendSeqNo := n, grace := grace, seqNo := c.seqNo + 1 } fresh hlen hlen' hwant
    rw [if_pos hg, hq] at hd
    have hstep : ∀ l, h.last = some l → h.gap = false → c.seqNo = l + 1 := by
      intro l hl hg'
      have hlast : l = c.seqNo - 1 := by simpa [lastNumber, hs] using hi.last l hl hg'
      rw [hlast]
      grind
    refine ⟨_, _, hd, continues_of_queueData (c := c) ?_ ?_ ?_ ?_ hstep hgap hr⟩
    · split_ifs
      · exact hi.transport
      · exact hi.transport
    · split_ifs
      · exact hi.enabled
      · exact hi.enabled
    · split_ifs <;> rfl
    · split_ifs <;> simp [lastNumber, hs]

theorem Inv.congr {c' : WebRtcConnection} (hi : Inv c h prev) (ht : c'.videoTransport = c.videoTransport)
    (he : c'.videoEnabled = c.videoEnabled) (hs : c'.sendSeqNo = c.sendSeqNo)
    (hl : c'.lastNumber = c.lastNumber) : Continues h none c' prev := by
  constructor
  · exact ⟨ht.trans hi.transport, he.trans hi.enabled, fun n hn => hs.trans (hi.sendSeqNo n hn), hi.arrived,
      fun l hlast hg => (hi.last l hlast hg).trans hl.symm⟩
  · intro p hp
    cases hp

theorem deliverAudioData_continues (fresh : Fresh) (buf : Mem) (hi : Inv c h prev) (hlen : len ≤ 1500) :
    ∃ c', c.deliverAudioData fresh buf len = some c' ∧ Continues h none c' prev := by
  unfold deliverAudioData
  generalize (if c.bundle then c.videoTransport else c.audioTransport) = transport
  cases transport && c.audioEnabled with
  | false => exact ⟨_, rfl, hi.congr rfl rfl rfl rfl⟩
  | true =>
    cases hroom : c.hasRoom with
    | true =>
      rw [queueData_room hroom hlen]
      exact ⟨_, rfl, hi.congr rfl rfl rfl rfl⟩
    | false =>
      rw [queueData_full hroom]
      exact ⟨_, rfl, hi.congr rfl rfl rfl rfl⟩

/-- Switching off keeps the last number; switching on loses it, which is harmless before the first packet. -/
theorem setSlideShowMode_continues {state : Bool} (hi : Inv c h prev)
    (hm : Meets (c, h) (.setSlideShowMode state)) : Continues h none (c.setSlideShowMode state) prev := by
  unfold setSlideShowMode
  split_ifs with hsame hstate
  · exact hi.congr rfl rfl rfl rfl
  · have hnone : h.last = none := hm hstate (by simpa [hstate] using hsame)
    constructor
    · refine ⟨hi.transport, hi.enabled, hi.sendSeqNo, hi.arrived, ?_⟩
      intro l hl
      exact absurd (hl.symm.trans hnone) (by simp)
    · intro p hp
      cases hp
  · have hon : c.slideShowMode = true := by simpa [hstate] using hsame
    refine hi.congr (by rfl) (by rfl) (by rfl) ?_
    simp only [lastNumber, hon, Bool.false_eq_true, if_false, if_true]
    grind

private theorem sendLoop_continues (hi : Inv c h prev) : Continues h none c.sendLoop prev := by
  unfold sendLoop
  split_ifs
  · exact hi.congr rfl rfl rfl rfl
  · split
    · exact hi.congr rfl rfl rfl rfl
    · split_ifs
      · exact hi.congr rfl rfl rfl rfl
      · exact hi.congr rfl rfl rfl rfl

private theorem step_continues {e : Event} (hi : Inv c h prev) (hv : e.Valid)
    (hprev : ∀ n, e.number? = some n → ∀ m, prev = some m → n = m + 1) (hm : Meets (c, h) e) :
    ∃ r c', step c e = some (r, c') ∧ Continues h r c' (e.number?.or prev) := by
  cases e with
  | setSlideShowMode state => exact ⟨_, _, rfl, setSlideShowMode_continues hi hm⟩
  | deliverVideoData fresh buf len =>
    cases hs : c.slideShowMode with
    | false => exact deliverVideoData_off hi hv (hprev _ rfl) hm hs
    | true => exact deliverVideoData_on hi hv hm hs
  | deliverAudioData fresh buf len =>
    obtain ⟨c', hc, hi'⟩ := deliverAudioData_continues fresh buf hi hv
    exact ⟨none, c', by simp [step, hc], hi'⟩
  | sendLoop => exact ⟨_, _, rfl, sendLoop_continues hi⟩

theorem consecutive_cons {r : Option Output} {c' : WebRtcConnection} {outs : List (Option Output)}
    (hc : Continues h r c' prev)
    (ho : Consecutive ((h.note r).last.toList ++ queuedNumbers outs)) :
    Consecutive (h.last.toList ++ queuedNumbers (r :: outs)) := by
  rcases r with _ | ⟨p⟩ | _ | _
  · exact ho
  · cases hl : h.last with
    | none => exact ho
    | some l => exact List.isChain_cons_cons.mpr ⟨hc.2 p rfl l hl, ho⟩
  · exact ho
  · exact ho

theorem run_consecutive {events : List Event} (hi : Inv c h prev) (hv : ∀ e ∈ events, e.Valid)
    (hin : Consecutive (prev.toList ++ events.filterMap Event.number?))
    (hm : Along (record History.note step) Meets (c, h) events) :
    ∃ outs c', run? step c events = some (outs, c') ∧
      Consecutive (h.last.toList ++ queuedNumbers outs) := by
  induction events generalizing c h prev with
  | nil =>
    refine ⟨[], c, rfl, ?_⟩
    cases h.last <;> simp [queuedNumbers, Consecutive]
  | cons e es ih =>
    have hprev : ∀ n, e.number? = some n → ∀ m, prev = some m → n = m + 1 := by
      intro n hn m hp
      rw [hp, List.filterMap_cons_some hn] at hin
      exact (List.isChain_cons_cons.mp hin).1
    obtain ⟨r, c', hs, hc⟩ := step_continues hi (hv e List.mem_cons_self) hprev hm.1
    have hin' : Consecutive ((e.number?.or prev).toList ++ es.filterMap Event.number?) := by
      cases hn : e.number? with
      | none => rwa [List.filterMap_cons_none hn] at hin
      | some n =>
        rw [List.filterMap_cons_some hn] at hin
        exact hin.right_of_append
    have hm' := hm.2 r (c', h.note r) (by simp [record, hs])
    obtain ⟨outs, c'', hr, ho⟩ := ih hc.1 (fun e' he' => hv e' (List.mem_cons_of_mem _ he')) hin' hm'
    refine ⟨r :: outs, c'', ?_, consecutive_cons hc ho⟩
    rw [run?_cons es hs, hr]
    rfl

/-- In every run whose steps meet the conditions, packets that come in with consecutive numbers are put
on the send queue with consecutive numbers. -/
theorem queued_consecutive {events : List Event} (ht : c.videoTransport = true)
    (he : c.videoEnabled = true) (hv : ∀ e ∈ events, e.Valid)
    (hin : Consecutive (events.filterMap Event.number?))
    (hm : Along (record History.note step) Meets (c, ⟨none, false⟩) events) :
    ∃ outs c', run? step c events = some (outs, c') ∧ Consecutive (queuedNumbers outs) := by
  have hi : Inv c ⟨none, false⟩ none := ⟨ht, he, by simp, by simp, by simp⟩
  exact run_consecutive hi hv hin hm

/-- The constructor's object, with a video transport. -/
def videoOnly : WebRtcConnection :=
  { new false true ⟨fun _ => none, fun _ => none, []⟩ with videoTransport := true }

/-- The mode is on for the first frame, a packet is left out, and the mode is off for the next one. -/
theorem queued_consecutive_switched :
    ∃ outs c', run? step videoOnly
      [.setSlideShowMode true, .deliverVideoData .zero (vp8Packet 0 false 0x10 0) 14,
        .deliverVideoData .zero (vp8Packet 1 true 0x00 0) 14,
        .deliverVideoData .zero (vp8Packet 2 true 0x10 1) 14, .setSlideShowMode false,
        .deliverVideoData .zero (vp8Packet 3 true 0x10 1) 14] = some (outs, c') ∧
      Consecutive (queuedNumbers outs) := by
  apply queued_consecutive rfl rfl
  · simp only [List.forall_mem_cons, List.not_mem_nil, false_imp_iff, implies_true, and_true, Event.Valid]
    decide
  · exact List.isChain_cons_cons.mpr ⟨rfl, List.isChain_cons_cons.mpr ⟨rfl, List.isChain_cons_cons.mpr
      ⟨rfl, .singleton _⟩⟩⟩
  · refine .cons (fun _ _ => rfl) rfl (.cons ⟨?_, ?_⟩ rfl (.cons ⟨?_, ?_⟩ rfl (.cons ⟨?_, ?_⟩ rfl
      (.cons ?_ rfl (.cons ⟨?_, ?_⟩ rfl trivial)))))
    · exact fun _ hg => absurd hg (by decide)
    · exact fun _ _ => rfl
    · exact fun _ hg => absurd hg (by decide)
    · exact fun _ hz => absurd hz (by decide)
    · exact fun _ hg => absurd hg (by decide)
    · exact fun _ hz => absurd hz (by decide)
    · exact fun hs => absurd hs (by decide)
    · exact fun _ hg => absurd hg (by decide)
    · exact fun _ => by decide

/-- Packet 5 is sent as it is and packet 6, after the switch, under the number 5 again. -/
theorem not_consecutive_switched_on :
    ¬ ∀ events : List Event, (∀ e ∈ events, e.Valid) → Consecutive (events.filterMap Event.number?) →
      ∀ outs c', run? step videoOnly events = some (outs, c') → Consecutive (queuedNumbers outs) := by
  intro h
  have hr : (run? step videoOnly
      [.deliverVideoData .zero (vp8Packet 5 true 0x10 0) 14, .setSlideShowMode true,
        .deliverVideoData .zero (vp8Packet 6 true 0x10 0) 14]).map (fun p => queuedNumbers p.1) =
      some [5, 5] := by decide
  obtain ⟨⟨outs, c'⟩, hrun, ho⟩ := Option.map_eq_some_iff.mp hr
  have hc : Consecutive (queuedNumbers outs) := by
    refine h _ ?_ ?_ outs c' hrun
    · simp only [List.forall_mem_cons, List.not_mem_nil, false_imp_iff, implies_true, and_true, Event.Valid]
      decide
    · exact List.isChain_cons_cons.mpr ⟨rfl, .singleton _⟩
  rw [ho] at hc
  exact absurd (List.isChain_cons_cons.mp hc).1 (by decide)

/-! ## The offset outside of slide show mode -/

/-- The packet on the queue is the one that came, but for the number, which is shifted, and the payload type. -/
structure Shifted (offset : UInt16) (buf : Mem) (len : ℕ) (p : DataPacket) : Prop where
  number : p.number = RtpHeader.getSeqNumber buf 0 - offset
  length : p.length = len
  marker : RtpHeader.getMarker p.data 0 = RtpHeader.getMarker buf 0
  rest : ∀ i < len, i ≠ 1 → i ≠ 2 → i ≠ 3 → p.data i = buf i

section Shift
variable {c' : WebRtcConnection} {p : DataPacket} {type : PacketType} {seqNum : UInt16}

theorem rest_dataPacket (c : WebRtcConnection) (fresh : Fresh) (comp : ℤ) (buf : Mem) {i : ℕ} (hi : i < len) (h1 : i ≠ 1)
    (h2 : i ≠ 2) (h3 : i ≠ 3) : (c.dataPacket fresh comp buf len type seqNum).data i = buf i := by
  simp only [dataPacket, changeDeliverPayloadType]
  by_cases hzero : seqNum ≠ 0
  · rw [if_pos hzero, RtpHeader.setSeqNumber, Mem.setWord_of_ne (by omega) (by omega), changePayloadType_of_ne h1, if_pos hi]
  · rw [if_neg hzero, changePayloadType_of_ne h1, if_pos hi]

theorem marker_dataPacket (c : WebRtcConnection) (fresh : Fresh) (comp : ℤ) (buf : Mem) (hlen : 12 ≤ len) :
    RtpHeader.getMarker (c.dataPacket fresh comp buf len type seqNum).data 0 = RtpHeader.getMarker buf 0 := by
  have hcopy : RtpHeader.getMarker (fun i => if i < len then buf i else fresh.packet.data i) 0 =
      RtpHeader.getMarker buf 0 := by
    simp only [RtpHeader.getMarker, if_pos (show 0 + 1 < len by omega)]
  simp only [dataPacket, changeDeliverPayloadType]
  by_cases hzero : seqNum ≠ 0
  · rw [if_pos hzero, RtpHeader.getMarker, RtpHeader.setSeqNumber, Mem.setWord_of_ne (by omega) (by omega)]
    exact (getMarker_changePayloadType _ _).trans hcopy
  · rw [if_neg hzero, getMarker_changePayloadType, hcopy]

private theorem eq_dataPacket_of_queued (h : c.queueData fresh 0 buf len type seqNum = some (.queued p, c')) :
    p = c.dataPacket fresh 0 buf len type seqNum ∧ c'.sendQueue = c.sendQueue ++ [p] := by
  cases hroom : c.hasRoom with
  | false =>
    rw [queueData_full hroom] at h
    cases h
  | true =>
    by_cases hlen : len ≤ 1500
    · rw [queueData_room hroom hlen] at h
      cases h
      exact ⟨rfl, rfl⟩
    · obtain ⟨hs, hq⟩ := Bool.and_eq_true_iff.mp hroom
      simp [queueData, hs, of_decide_eq_true hq, Nat.not_le.mp hlen] at h

/-- What is appended for an RTP packet outside of slide show mode. -/
theorem eq_dataPacket_of_normal (hmode : c.slideShowMode = false) (hrtp : RtcpHeader.isRtcp buf 0 = false)
    (hoff : 0 < c.seqNoOffset) (h : c.deliverVideoData fresh buf len = some (some (.queued p), c')) :
    (∃ c₁ : WebRtcConnection, p = c₁.dataPacket fresh 0 buf len .video (RtpHeader.getSeqNumber buf 0 - c.seqNoOffset)) ∧
      c'.sendQueue = c.sendQueue ++ [p] := by
  unfold deliverVideoData at h
  simp only [hrtp, hmode, Bool.or_false, if_pos hoff, Bool.false_eq_true, if_false] at h
  generalize (if decide (RtpHeader.getPayloadType buf 0 = 116) = true then c.remoteSdp.supportPayloadType 116
    else (true, c.remoteSdp)) = red at h
  split_ifs at h
  · cases h
  · cases h
  · obtain ⟨q, hq, heq⟩ := Option.map_eq_some_iff.mp h
    obtain ⟨hout, rfl⟩ := Prod.mk.inj heq
    obtain ⟨hp, hqueue⟩ := eq_dataPacket_of_queued (hq.trans (congrArg some (Prod.ext (Option.some.inj hout) rfl)))
    exact ⟨⟨_, hp⟩, hqueue⟩

/-- Outside of slide show mode the offset is taken from the number of every packet but the one whose new number is 0,
which `queueData` takes for no number. -/
theorem shifted_iff (hoff : 0 < c.seqNoOffset) (hmode : c.slideShowMode = false) (hrtp : RtcpHeader.isRtcp buf 0 = false)
    (hlen : 12 ≤ len) (h : c.deliverVideoData fresh buf len = some (some (.queued p), c')) :
    c'.sendQueue = c.sendQueue ++ [p] ∧
      (Shifted c.seqNoOffset buf len p ↔ RtpHeader.getSeqNumber buf 0 ≠ c.seqNoOffset) := by
  obtain ⟨⟨c₁, rfl⟩, hqueue⟩ := eq_dataPacket_of_normal hmode hrtp hoff h
  refine ⟨hqueue, ?_⟩
  have hnumber : (c₁.dataPacket fresh 0 buf len .video (RtpHeader.getSeqNumber buf 0 - c.seqNoOffset)).number = _ :=
    number_dataPacket c₁ fresh hlen .video _
  have hzero : RtpHeader.getSeqNumber buf 0 - c.seqNoOffset = 0 ↔ RtpHeader.getSeqNumber buf 0 = c.seqNoOffset := by
    constructor
    · intro h0
      rw [← UInt16.sub_add_cancel (RtpHeader.getSeqNumber buf 0) c.seqNoOffset, h0, UInt16.zero_add]
    · intro heq
      rw [heq, UInt16.sub_self]
  constructor
  · intro hs heq
    rw [hs.number, if_neg (not_not.mpr (hzero.mpr heq)), heq, UInt16.sub_self] at hnumber
    rw [← hnumber] at hoff
    exact absurd hoff (by decide)
  · intro hne
    rw [if_pos (mt hzero.mp hne)] at hnumber
    exact ⟨hnumber, rfl, marker_dataPacket c₁ fresh 0 buf hlen, fun i hi => rest_dataPacket c₁ fresh 0 buf hi⟩

end Shift

/-- Packet 5 is sent under the number 2 if the offset is 3. -/
theorem shifted_five : ∃ p c', { videoOnly with seqNoOffset := 3 }.deliverVideoData .zero (vp8Packet 5 true 0x10 0) 14 =
    some (some (.queued p), c') ∧ c'.sendQueue = [p] ∧ Shifted 3 (vp8Packet 5 true 0x10 0) 14 p := by
  have hrun : { videoOnly with seqNoOffset := 3 }.deliverVideoData .zero (vp8Packet 5 true 0x10 0) 14 =
      some (some (.queued _), _) := rfl
  obtain ⟨hqueue, hiff⟩ := shifted_iff (by decide) rfl (by decide) (by decide) hrun
  exact ⟨_, _, hrun, hqueue, hiff.mpr (by decide)⟩

/-- Packet 5 keeps its number if the offset is 5. -/
theorem not_shifted_five : ∃ p c', { videoOnly with seqNoOffset := 5 }.deliverVideoData .zero (vp8Packet 5 true 0x10 0) 14 =
    some (some (.queued p), c') ∧ ¬ Shifted 5 (vp8Packet 5 true 0x10 0) 14 p := by
  have hrun : { videoOnly with seqNoOffset := 5 }.deliverVideoData .zero (vp8Packet 5 true 0x10 0) 14 =
      some (some (.queued _), _) := rfl
  refine ⟨_, _, hrun, ?_⟩
  intro hs
  exact absurd hs.number (by decide)

end WebRtcConnection
end Sfup.Core
