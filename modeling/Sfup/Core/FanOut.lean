import Sfup.Core.Subscribers

/-! The fan-out as a whole: what one subscriber puts on its queue does not depend on the others, the buffer of the
publisher is left as it is, and over runs every queue is first in, first out and keeps its bound. -/
namespace Sfup.Core
open Sfup.Rtp Sfup.Transition

/-! ## Queues -/

/-- What is put on a queue and what is taken from it. -/
structure Turn where
  put : List DataPacket := []
  taken : List DataPacket := []

def Turn.append (t t' : Turn) : Turn := ⟨t.put ++ t'.put, t.taken ++ t'.taken⟩

namespace WebRtcConnection
variable {c c' c'' : WebRtcConnection} {t t' : Turn}

def Moves (c : WebRtcConnection) (t : Turn) (c' : WebRtcConnection) : Prop :=
  t.taken ++ c'.sendQueue = c.sendQueue ++ t.put ∧ (c.sendQueue.length ≤ 1000 → c'.sendQueue.length ≤ 1000)

theorem Moves.trans (h : Moves c t c') (h' : Moves c' t' c'') : Moves c (t.append t') c'' := by
  refine ⟨?_, h'.2 ∘ h.2⟩
  calc t.taken ++ t'.taken ++ c''.sendQueue
      = t.taken ++ (c'.sendQueue ++ t'.put) := by rw [List.append_assoc, h'.1]
    _ = c.sendQueue ++ (t.put ++ t'.put) := by rw [← List.append_assoc, h.1, List.append_assoc]

theorem moves_of_queue_eq (h : c'.sendQueue = c.sendQueue) : Moves c {} c' := by
  refine ⟨?_, ?_⟩
  · rw [h, List.nil_append, List.append_nil]
  · rw [h]
    exact id

/-- A call that puts at most one packet on the queue, and none if there is no room. -/
theorem moves_of_appends {packets : List DataPacket} (h : c'.sendQueue = c.sendQueue ++ packets)
    (hone : packets.length ≤ 1) (hfull : c.hasRoom = false → packets = []) : Moves c { put := packets } c' := by
  refine ⟨by rw [h, List.nil_append], fun hlen => ?_⟩
  rw [h, List.length_append]
  cases hroom : c.hasRoom with
  | false =>
    rw [hfull hroom, List.length_nil]
    omega
  | true =>
    obtain ⟨-, hlt⟩ := Bool.and_eq_true_iff.mp hroom
    have hlt := of_decide_eq_true hlt
    omega

theorem moves_deliverVideoData {fresh : Fresh} {buf : Mem} {len : ℕ} {o : Option Output}
    (h : c.deliverVideoData fresh buf len = some (o, c')) : Moves c { put := c.appended c' } c' := by
  obtain ⟨hqueue, hone, hfull, -⟩ := queue_deliverVideoData h
  exact moves_of_appends hqueue hone hfull

theorem moves_queueData {fresh : Fresh} {buf : Mem} {len : ℕ} {type : PacketType} {seqNum : UInt16} {out : Output}
    (h : c.queueData fresh 0 buf len type seqNum = some (out, c')) : Moves c { put := c.appended c' } c' := by
  have hc' := queueData_appends h
  rw [hc', appended_append]
  refine moves_of_appends rfl ?_ ?_
  · split_ifs <;> simp
  · intro hroom
    rw [hroom, if_neg Bool.false_ne_true]

theorem deliverAudioData_appends {fresh : Fresh} {buf : Mem} {len : ℕ} (h : c.deliverAudioData fresh buf len = some c') :
    c' = { c with sendQueue := c.sendQueue ++
      if ((if c.bundle then c.videoTransport else c.audioTransport) && c.audioEnabled) && c.hasRoom then
        [c.dataPacket fresh 0 buf len .audio 0]
      else [] } := by
  unfold deliverAudioData at h
  generalize ((if c.bundle then c.videoTransport else c.audioTransport) && c.audioEnabled) = ready at h ⊢
  cases ready with
  | false =>
    cases h
    simp
  | true =>
    rw [if_pos rfl] at h
    obtain ⟨⟨out, c₁⟩, hq, rfl⟩ := Option.map_eq_some_iff.mp h
    rw [Bool.true_and]
    exact queueData_appends hq

theorem moves_deliverAudioData {fresh : Fresh} {buf : Mem} {len : ℕ} (h : c.deliverAudioData fresh buf len = some c') :
    Moves c { put := c.appended c' } c' := by
  rw [deliverAudioData_appends h, appended_append]
  refine moves_of_appends rfl ?_ ?_
  · split_ifs <;> simp
  · intro hroom
    rw [hroom, Bool.and_false, if_neg Bool.false_ne_true]

private theorem moves_onRecoveredPackets {memory : ℕ → Fresh} {packets : List (Mem × ℕ)} {outs : List (List DataPacket)}
    (h : c.onRecoveredPackets memory packets = some (outs, c')) : Moves c { put := outs.flatten } c' := by
  induction packets generalizing c memory outs with
  | nil =>
    cases h
    exact moves_of_queue_eq rfl
  | cons packet packets ih =>
    obtain ⟨o, c₁, outs, _, hd, -, hrest, hr⟩ := onRecoveredPackets_cons_eq_some.mp h
    cases hr
    exact (moves_deliverVideoData hd).trans (ih hrest)

/-- What one turn of the loop takes from the queue. -/
def taken (c : WebRtcConnection) : List DataPacket := if c.sending then c.sendQueue.take 1 else []

theorem moves_sendLoop (c : WebRtcConnection) : Moves c { taken := c.taken } c.sendLoop := by
  unfold sendLoop taken
  cases hs : c.sending with
  | false => exact moves_of_queue_eq rfl
  | true =>
    cases hq : c.sendQueue with
    | nil => exact moves_of_queue_eq rfl
    | cons packet rest =>
      have hmoves : ∀ c' : WebRtcConnection, c'.sendQueue = rest → Moves c { taken := [packet] } c' := by
        intro c' hc'
        refine ⟨by rw [hc', hq, List.append_nil]; rfl, fun hlen => ?_⟩
        rw [hq, List.length_cons] at hlen
        rw [hc']
        omega
      simp only [Bool.not_true, Bool.false_eq_true, if_false, if_true]
      split_ifs
      · exact hmoves _ rfl
      · exact hmoves _ rfl

end WebRtcConnection

namespace Subscriber
open WebRtcConnection
variable {φ : Type} {fec : FecReceiver φ} {s s' s₁ s₁' : Subscriber φ} {memory memory₁ : ℕ → Fresh} {buf : Mem} {len : ℕ}
  {outs outs₁ : List (List DataPacket)}

theorem moves_deliverVideoData (h : s.deliverVideoData fec memory buf len = some (outs, s')) :
    Moves s.conn { put := outs.flatten } s'.conn := by
  cases hc : s.conn.deliverVideoData (memory 0) buf len with
  | none =>
    rw [Subscriber.deliverVideoData, hc] at h
    cases h
  | some p =>
    obtain ⟨o, conn⟩ := p
    cases hred : isRed o with
    | true =>
      obtain ⟨rfl, hplan⟩ := red_of_isRed hc hred
      have hqueue : conn.sendQueue = s.conn.sendQueue := by
        rw [← (plan_queue s.conn (keyframe (memory 0) buf len) buf).1, hplan]
      rw [deliverVideoData_of_red hc] at h
      obtain ⟨p, hp, heq⟩ := Option.map_eq_some_iff.mp h
      cases heq
      exact (moves_of_queue_eq hqueue).trans (moves_onRecoveredPackets hp)
    | false =>
      rw [deliverVideoData_of_not_red hc hred] at h
      cases h
      rw [List.flatten_singleton]
      exact WebRtcConnection.moves_deliverVideoData hc

theorem moves_deliverAudioData (h : s.deliverAudioData memory buf len = some (outs, s')) :
    Moves s.conn { put := outs.flatten } s'.conn := by
  obtain ⟨conn, hc, heq⟩ := Option.map_eq_some_iff.mp h
  cases heq
  rw [List.flatten_singleton]
  exact WebRtcConnection.moves_deliverAudioData hc

/-- An audio packet is sent the same whatever the memory holds. -/
theorem deliverAudioData_same (h : s.deliverAudioData memory buf len = some (outs, s'))
    (h₁ : s.deliverAudioData memory₁ buf len = some (outs₁, s₁')) :
    outs.map (·.map DataPacket.sent) = outs₁.map (·.map DataPacket.sent) := by
  obtain ⟨conn, hc, heq⟩ := Option.map_eq_some_iff.mp h
  obtain ⟨conn₁, hc₁, heq₁⟩ := Option.map_eq_some_iff.mp h₁
  cases heq
  cases heq₁
  simp only [List.map_cons, List.map_nil]
  rw [deliverAudioData_appends hc, deliverAudioData_appends hc₁, appended_append, appended_append]
  have hsent := sent_dataPacket s.conn (memory 0) (memory₁ 0) buf len .audio 0
  generalize (((if s.conn.bundle then s.conn.videoTransport else s.conn.audioTransport) && s.conn.audioEnabled) &&
    s.conn.hasRoom) = ready
  cases ready with
  | false => rfl
  | true => exact congrArg (fun x => [[x]]) hsent

end Subscriber

/-! ## Visits -/

namespace OneToManyProcessor
variable {φ : Type} {fec : FecReceiver φ} {memory : Memory} {buf buf' : Mem} {len : ℕ} {p p' : OneToManyProcessor φ}
  {o : Outcome} {peerId : String} {sink : Sink φ}

/-- Each subscriber is given the buffer of the publisher if none of them changes it. -/
theorem visitAll_spec {visit : String → Visit φ} {es es' : List (String × Sink φ)}
    {outs : List (String × List (List DataPacket))}
    (hv : ∀ peerId buf sink out buf' sink', visit peerId buf sink = some (out, buf', sink') → buf' = buf)
    (h : visitAll visit buf es = some (outs, buf', es')) :
    buf' = buf ∧ ∀ peerId sink, OrdMap.findEntry peerId es = some sink → ∃ out sink',
      visit peerId buf sink = some (out, buf, sink') ∧ OrdMap.findEntry peerId outs = some out ∧
        OrdMap.findEntry peerId es' = some sink' := by
  induction es generalizing buf outs es' with
  | nil =>
    cases h
    refine ⟨rfl, fun peerId sink hs => ?_⟩
    simp [OrdMap.findEntry] at hs
  | cons e es ih =>
    obtain ⟨out, buf₁, sink₁, outs, buf₂, es₁, hvisit, hes, hr⟩ := visitAll_cons_eq_some.mp h
    cases hr
    obtain rfl := hv _ _ _ _ _ _ hvisit
    obtain ⟨rfl, hfind⟩ := ih hes
    refine ⟨rfl, fun peerId sink hs => ?_⟩
    rw [OrdMap.findEntry_cons] at hs
    simp only [OrdMap.findEntry_cons]
    by_cases hk : e.1 = peerId
    · subst hk
      rw [if_pos rfl] at hs ⊢
      cases hs
      exact ⟨out, sink₁, hvisit, rfl, if_pos rfl⟩
    · rw [if_neg hk] at hs ⊢
      rw [if_neg hk]
      exact hfind peerId sink hs

private theorem buf_visit {deliver : Mem → Subscriber φ → Option (List (List DataPacket) × Subscriber φ)}
    {out : List (List DataPacket)} {sink' : Sink φ} (h : Sink.visit deliver buf sink = some (out, buf', sink')) :
    buf' = buf := by
  cases sink with
  | connection s =>
    obtain ⟨q, -, heq⟩ := Option.map_eq_some_iff.mp h
    cases heq
    rfl
  | other =>
    cases h
    rfl

/-- A subscriber puts on its queue what it would put on it alone, and the buffer is left as it is. -/
theorem deliverTo_spec {deliver : String → Mem → Subscriber φ → Option (List (List DataPacket) × Subscriber φ)}
    (h : p.deliverTo (fun peerId => Sink.visit (deliver peerId)) buf = some (o, p')) :
    o.buf = buf ∧ ∀ peerId s, p.subscribers.find? peerId = some (.connection s) →
      ∃ s', deliver peerId buf s = some (o.queuedFor peerId, s') ∧
        p'.subscribers.find? peerId = some (.connection s') := by
  unfold deliverTo at h
  split at h
  · cases h
  · rename_i queued buf' es hvisit
    cases h
    obtain ⟨rfl, hfind⟩ := visitAll_spec (fun _ _ _ _ _ _ hv => buf_visit hv) hvisit
    refine ⟨rfl, fun peerId s hs => ?_⟩
    obtain ⟨out, sink', hv, hout, hes⟩ := hfind peerId _ hs
    obtain ⟨q, hq, heq⟩ := Option.map_eq_some_iff.mp hv
    cases heq
    refine ⟨q.2, ?_, hes⟩
    rw [Outcome.queuedFor, hout, hq]
    rfl

theorem deliverAudioData_spec (h : p.deliverAudioData memory buf len = some (o, p')) :
    o.buf = buf ∧ ∀ peerId s, p.subscribers.find? peerId = some (.connection s) →
      ∃ s', (if len = 0 then some ([], s) else s.deliverAudioData (memory peerId) buf len) =
          some (o.queuedFor peerId, s') ∧ p'.subscribers.find? peerId = some (.connection s') := by
  unfold deliverAudioData at h
  split_ifs at h with hlen
  · cases h
    exact ⟨rfl, fun peerId s hs => ⟨s, by rw [if_pos hlen]; rfl, hs⟩⟩
  · simp only [if_neg hlen]
    exact deliverTo_spec h

theorem deliverVideoData_spec (h : p.deliverVideoData fec memory buf len = some (o, p')) :
    (RtcpHeader.isFeedback buf 0 = false → o.buf = buf) ∧
      ∀ peerId s, p.subscribers.find? peerId = some (.connection s) →
        ∃ s', (if len = 0 ∨ RtcpHeader.isFeedback buf 0 = true then some ([], s)
            else s.deliverVideoData fec (memory peerId) buf len) = some (o.queuedFor peerId, s') ∧
          p'.subscribers.find? peerId = some (.connection s') := by
  unfold deliverVideoData at h
  split_ifs at h with hlen hfb hsink
  · cases h
    exact ⟨fun _ => rfl, fun peerId s hs => ⟨s, by rw [if_pos (Or.inl hlen)]; rfl, hs⟩⟩
  · cases h
    refine ⟨fun hnot => ?_, fun peerId s hs => ⟨s, by rw [if_pos (Or.inr hfb)]; rfl, hs⟩⟩
    rw [hfb] at hnot
    cases hnot
  · cases h
    exact ⟨fun _ => rfl, fun peerId s hs => ⟨s, by rw [if_pos (Or.inr hfb)]; rfl, hs⟩⟩
  · obtain ⟨hbuf, hfind⟩ := deliverTo_spec h
    have hnot : ¬ (len = 0 ∨ RtcpHeader.isFeedback buf 0 = true) := not_or.mpr ⟨hlen, hfb⟩
    simp only [if_neg hnot]
    exact ⟨fun _ => hbuf, hfind⟩

/-! ## Isolation -/

/-- The packet, as it is sent, that is put on the queue of a subscriber is the same in any two processors that have it,
whatever the memory holds, and the buffer of the publisher is left as it is. -/
structure Isolated (fec : FecReceiver φ) (s : Subscriber φ) (buf : Mem) (len : ℕ) : Prop where
  audio : ∀ {p p₁ p' p₁' : OneToManyProcessor φ} {o o₁ : Outcome} {memory memory₁ : Memory} {peerId peerId₁ : String},
    p.subscribers.find? peerId = some (.connection s) → p₁.subscribers.find? peerId₁ = some (.connection s) →
    p.deliverAudioData memory buf len = some (o, p') → p₁.deliverAudioData memory₁ buf len = some (o₁, p₁') →
    (o.queuedFor peerId).map (·.map DataPacket.sent) = (o₁.queuedFor peerId₁).map (·.map DataPacket.sent)
  video : ∀ {p p₁ p' p₁' : OneToManyProcessor φ} {o o₁ : Outcome} {memory memory₁ : Memory} {peerId peerId₁ : String},
    p.subscribers.find? peerId = some (.connection s) → p₁.subscribers.find? peerId₁ = some (.connection s) →
    p.deliverVideoData fec memory buf len = some (o, p') → p₁.deliverVideoData fec memory₁ buf len = some (o₁, p₁') →
    (o.queuedFor peerId).map (·.map DataPacket.sent) = (o₁.queuedFor peerId₁).map (·.map DataPacket.sent)
  audioBuf : ∀ {p p' : OneToManyProcessor φ} {o : Outcome} {memory : Memory},
    p.deliverAudioData memory buf len = some (o, p') → o.buf = buf
  videoBuf : ∀ {p p' : OneToManyProcessor φ} {o : Outcome} {memory : Memory}, RtcpHeader.isFeedback buf 0 = false →
    p.deliverVideoData fec memory buf len = some (o, p') → o.buf = buf

variable {s : Subscriber φ}

theorem isolated_of_decides (hd : len ≠ 0 → RtcpHeader.isFeedback buf 0 = false → s.Decides fec buf len) :
    Isolated fec s buf len where
  audio hs hs₁ h h₁ := by
    obtain ⟨s', hq, -⟩ := (deliverAudioData_spec h).2 _ _ hs
    obtain ⟨s₁', hq₁, -⟩ := (deliverAudioData_spec h₁).2 _ _ hs₁
    split_ifs at hq hq₁ with hlen
    · rw [← (Prod.mk.inj (Option.some.inj hq)).1, ← (Prod.mk.inj (Option.some.inj hq₁)).1]
    · exact Subscriber.deliverAudioData_same hq hq₁
  video hs hs₁ h h₁ := by
    obtain ⟨s', hq, -⟩ := (deliverVideoData_spec h).2 _ _ hs
    obtain ⟨s₁', hq₁, -⟩ := (deliverVideoData_spec h₁).2 _ _ hs₁
    split_ifs at hq hq₁ with hnot
    · rw [← (Prod.mk.inj (Option.some.inj hq)).1, ← (Prod.mk.inj (Option.some.inj hq₁)).1]
    · rw [not_or] at hnot
      exact Subscriber.deliverVideoData_same (hd hnot.1 (by simpa using hnot.2)) hq hq₁
  audioBuf h := (deliverAudioData_spec h).1
  videoBuf hfb h := (deliverVideoData_spec h).1 hfb

/-- The processor of one subscriber. -/
def only (peerId : String) (s : Subscriber φ) : OneToManyProcessor φ :=
  ⟨⟨[(peerId, .connection s)], List.pairwise_singleton _ _⟩, false, 0⟩

theorem find?_only (peerId : String) (s : Subscriber φ) :
    (only peerId s).subscribers.find? peerId = some (.connection s) := by
  rw [only, OrdMap.find?, OrdMap.findEntry_cons, if_pos rfl]

private theorem deliverVideoData_only (peerId : String) (memory : Memory) {outs : List (List DataPacket)}
    {s' : Subscriber φ}
    (hlen : len ≠ 0) (hfb : RtcpHeader.isFeedback buf 0 = false)
    (h : s.deliverVideoData fec (memory peerId) buf len = some (outs, s')) :
    ∃ o p', (only peerId s).deliverVideoData fec memory buf len = some (o, p') ∧ o.queuedFor peerId = outs := by
  have hall : visitAll (visitVideo fec memory len) buf (only peerId s).subscribers.entries =
      some ([(peerId, outs)], buf, [(peerId, .connection s')]) := by
    refine visitAll_cons_eq_some.mpr ⟨outs, buf, .connection s', [], buf, [], ?_, rfl, rfl⟩
    exact Option.map_eq_some_iff.mpr ⟨_, h, rfl⟩
  have hto : ((only peerId s).deliverTo (visitVideo fec memory len) buf).isSome := by
    unfold deliverTo
    split
    · rename_i hnone
      rw [hall] at hnone
      cases hnone
    · rfl
  obtain ⟨⟨o, p'⟩, ho⟩ := Option.isSome_iff_exists.mp hto
  have hdeliver : (only peerId s).deliverVideoData fec memory buf len = some (o, p') := by
    rw [deliverVideoData, if_neg hlen, if_neg (by rw [hfb]; exact Bool.false_ne_true), ho]
  refine ⟨o, p', hdeliver, ?_⟩
  obtain ⟨s₁, hq, -⟩ := (deliverVideoData_spec hdeliver).2 _ _ (find?_only peerId s)
  rw [if_neg (by simp [hlen, hfb]), h] at hq
  exact (Prod.mk.inj (Option.some.inj hq)).1.symm

theorem decides_of_isolated (ht : s.Takes fec buf len) (h : Isolated fec s buf len) (hlen : len ≠ 0)
    (hfb : RtcpHeader.isFeedback buf 0 = false) : s.Decides fec buf len := by
  apply Subscriber.decides_of_same ht
  intro memory memory₁ outs outs₁ s' s₁' hs hs₁
  obtain ⟨o, p', hp, rfl⟩ := deliverVideoData_only "" (fun _ => memory) hlen hfb hs
  obtain ⟨o₁, p₁', hp₁, rfl⟩ := deliverVideoData_only "" (fun _ => memory₁) hlen hfb hs₁
  exact h.video (find?_only "" s) (find?_only "" s) hp hp₁

/-! ## Runs -/

/-- Packets of the publisher, what a connection does with its own queue, and changes of the subscribers. -/
inductive Event (φ : Type) where
  | deliverAudioData (memory : Memory) (buf : Mem) (len : ℕ)
  | deliverVideoData (memory : Memory) (buf : Mem) (len : ℕ)
  /-- Feedback and requests of the connection itself. -/
  | queueData (peerId : String) (fresh : Fresh) (buf : Mem) (len : ℕ) (type : PacketType)
  | setSlideShowMode (peerId : String) (state : Bool)
  | sendLoop (peerId : String)
  | addSubscriber (peerId : String) (sink : Sink φ)
  | removeSubscriber (peerId : String)

def onConnection (peerId : String) (call : WebRtcConnection → Option (Turn × WebRtcConnection)) (p : OneToManyProcessor φ) :
    Option ((String → Turn) × OneToManyProcessor φ) :=
  match p.subscribers.find? peerId with
  | some (.connection s) => (call s.conn).map fun q =>
      (fun id => if id = peerId then q.1 else {},
        { p with subscribers := p.subscribers.set peerId (.connection { s with conn := q.2 }) })
  | _ => some (fun _ => {}, p)

/-- The output is what happens to the queue of each subscriber. -/
def step (fec : FecReceiver φ) (p : OneToManyProcessor φ) : Event φ → Option ((String → Turn) × OneToManyProcessor φ)
  | .deliverAudioData memory buf len =>
    (p.deliverAudioData memory buf len).map fun q => (fun id => { put := (q.1.queuedFor id).flatten }, q.2)
  | .deliverVideoData memory buf len =>
    (p.deliverVideoData fec memory buf len).map fun q => (fun id => { put := (q.1.queuedFor id).flatten }, q.2)
  | .queueData peerId fresh buf len type =>
    p.onConnection peerId fun c => (c.queueData fresh 0 buf len type 0).map fun q => ({ put := c.appended q.2 }, q.2)
  | .setSlideShowMode peerId state => p.onConnection peerId fun c => some ({}, c.setSlideShowMode state)
  | .sendLoop peerId => p.onConnection peerId fun c => some ({ taken := c.taken }, c.sendLoop)
  | .addSubscriber peerId sink => some (fun _ => {}, { p with subscribers := (p.subscribers.erase peerId).set peerId sink })
  | .removeSubscriber peerId => some (fun _ => {}, { p with subscribers := p.subscribers.erase peerId })

/-- The subscriber of that name stays the same one. -/
def Event.Keeps (peerId : String) : Event φ → Prop
  | .addSubscriber peerId' _ => peerId' ≠ peerId
  | .removeSubscriber peerId' => peerId' ≠ peerId
  | _ => True

/-- The subscriber of that name is a connection with that queue, and its queue moved so. -/
def MovesTo (c : WebRtcConnection) (t : Turn) (p' : OneToManyProcessor φ) (peerId : String) : Prop :=
  ∃ s', p'.subscribers.find? peerId = some (.connection s') ∧ c.Moves t s'.conn

private theorem onConnection_moves {call : WebRtcConnection → Option (Turn × WebRtcConnection)} {peerId' : String}
    {t : String → Turn} (hcall : ∀ c q, call c = some q → c.Moves q.1 q.2)
    (hs : p.subscribers.find? peerId = some (.connection s)) (h : p.onConnection peerId' call = some (t, p')) :
    MovesTo s.conn (t peerId) p' peerId := by
  unfold onConnection at h
  by_cases hid : peerId = peerId'
  · subst hid
    simp only [hs] at h
    obtain ⟨q, hq, heq⟩ := Option.map_eq_some_iff.mp h
    cases heq
    refine ⟨_, by rw [OrdMap.find?_set, if_pos rfl], ?_⟩
    simp only [if_true]
    exact hcall _ _ hq
  · split at h
    · obtain ⟨q, hq, heq⟩ := Option.map_eq_some_iff.mp h
      cases heq
      refine ⟨s, by rw [OrdMap.find?_set, if_neg (Ne.symm hid), hs], ?_⟩
      simp only [if_neg hid]
      exact WebRtcConnection.moves_of_queue_eq rfl
    · cases h
      exact ⟨s, hs, WebRtcConnection.moves_of_queue_eq rfl⟩

private theorem queue_setSlideShowMode (c : WebRtcConnection) (state : Bool) :
    (c.setSlideShowMode state).sendQueue = c.sendQueue := by
  unfold WebRtcConnection.setSlideShowMode
  split_ifs <;> rfl

theorem step_moves {e : Event φ} {t : String → Turn} (he : e.Keeps peerId)
    (hs : p.subscribers.find? peerId = some (.connection s)) (h : p.step fec e = some (t, p')) :
    MovesTo s.conn (t peerId) p' peerId := by
  cases e with
  | deliverAudioData memory buf len =>
    obtain ⟨q, hq, heq⟩ := Option.map_eq_some_iff.mp h
    cases heq
    obtain ⟨s', hd, hs'⟩ := (deliverAudioData_spec hq).2 _ _ hs
    refine ⟨s', hs', ?_⟩
    split_ifs at hd with hlen
    · obtain ⟨hout, rfl⟩ := Prod.mk.inj (Option.some.inj hd)
      simp only [← hout]
      exact WebRtcConnection.moves_of_queue_eq rfl
    · exact Subscriber.moves_deliverAudioData hd
  | deliverVideoData memory buf len =>
    obtain ⟨q, hq, heq⟩ := Option.map_eq_some_iff.mp h
    cases heq
    obtain ⟨s', hd, hs'⟩ := (deliverVideoData_spec hq).2 _ _ hs
    refine ⟨s', hs', ?_⟩
    split_ifs at hd with hnot
    · obtain ⟨hout, rfl⟩ := Prod.mk.inj (Option.some.inj hd)
      simp only [← hout]
      exact WebRtcConnection.moves_of_queue_eq rfl
    · exact Subscriber.moves_deliverVideoData hd
  | queueData peerId' fresh buf len type =>
    rw [step] at h
    refine onConnection_moves (fun c q hq => ?_) hs h
    obtain ⟨⟨out, c'⟩, hcall, rfl⟩ := Option.map_eq_some_iff.mp hq
    exact WebRtcConnection.moves_queueData hcall
  | setSlideShowMode peerId' state =>
    rw [step] at h
    refine onConnection_moves (fun c q hq => ?_) hs h
    cases hq
    exact WebRtcConnection.moves_of_queue_eq (queue_setSlideShowMode c state)
  | sendLoop peerId' =>
    rw [step] at h
    refine onConnection_moves (fun c q hq => ?_) hs h
    cases hq
    exact WebRtcConnection.moves_sendLoop c
  | addSubscriber peerId' sink =>
    cases h
    refine ⟨s, ?_, WebRtcConnection.moves_of_queue_eq rfl⟩
    rw [OrdMap.find?_set, if_neg he, OrdMap.find?_erase, if_neg he, hs]
  | removeSubscriber peerId' =>
    cases h
    refine ⟨s, ?_, WebRtcConnection.moves_of_queue_eq rfl⟩
    rw [OrdMap.find?_erase, if_neg he, hs]

/-- All that happens to the queue of a subscriber in a run. -/
def total (peerId : String) (ts : List (String → Turn)) : Turn :=
  ⟨ts.flatMap fun t => (t peerId).put, ts.flatMap fun t => (t peerId).taken⟩

theorem run_moves {es : List (Event φ)} {ts : List (String → Turn)} (hes : ∀ e ∈ es, e.Keeps peerId)
    (hs : p.subscribers.find? peerId = some (.connection s)) (h : run? (step fec) p es = some (ts, p')) :
    MovesTo s.conn (total peerId ts) p' peerId := by
  induction es generalizing p s ts with
  | nil =>
    cases h
    exact ⟨s, hs, WebRtcConnection.moves_of_queue_eq rfl⟩
  | cons e es ih =>
    obtain ⟨he, hes⟩ := List.forall_mem_cons.mp hes
    obtain ⟨t, p₁, ts₁, h₁, h₂, rfl⟩ := run?_cons_eq_some.mp h
    obtain ⟨s₁, hs₁, hmoves⟩ := step_moves he hs h₁
    obtain ⟨s', hs', hrest⟩ := ih hes hs₁ h₂
    exact ⟨s', hs', hmoves.trans hrest⟩

/-- The packet that a subscriber queues depends only on the packet and its own state exactly if it does not take the type
of a frame from memory that the parser left as it was; if it does not, the buffer is also left as it is. The queues are
first in, first out, and keep their bound, in every run. -/
theorem isolated_iff (fec : FecReceiver φ) (s : Subscriber φ) (buf : Mem) (len : ℕ) :
    ((len ≠ 0 → RtcpHeader.isFeedback buf 0 = false → s.Decides fec buf len) → Isolated fec s buf len) ∧
    (s.Takes fec buf len → (Isolated fec s buf len ↔
      (len ≠ 0 → RtcpHeader.isFeedback buf 0 = false → s.Decides fec buf len))) ∧
    ∀ (p p' : OneToManyProcessor φ) (peerId : String) (es : List (Event φ)) (ts : List (String → Turn)),
      p.subscribers.find? peerId = some (.connection s) → (∀ e ∈ es, e.Keeps peerId) →
      run? (step fec) p es = some (ts, p') → MovesTo s.conn (total peerId ts) p' peerId :=
  ⟨isolated_of_decides, fun ht => ⟨decides_of_isolated ht, isolated_of_decides⟩,
    fun _ _ _ _ _ hs hes h => run_moves hes hs h⟩

/-- A connection that takes every packet as it is, with a receiver that recovers nothing. -/
def plainSubscriber : Subscriber Unit :=
  ⟨{ WebRtcConnection.new true true ⟨fun _ => none, fun _ => none, []⟩ with videoTransport := true }, ()⟩

theorem isolated_plainSubscriber :
    Isolated (fun _ _ _ _ _ => ([], ())) plainSubscriber (vp8Packet 7 true 0x10 0x00) 14 ∧
      ∃ ts p', run? (step fun _ _ _ _ _ => ([], ())) (only "a" plainSubscriber)
          [.deliverVideoData (fun _ _ => Fresh.zero) (vp8Packet 7 true 0x10 0x00) 14, .sendLoop "a"] = some (ts, p') ∧
        MovesTo plainSubscriber.conn (total "a" ts) p' "a" := by
  have hall := isolated_iff (fun _ _ _ _ _ => ([], ())) plainSubscriber (vp8Packet 7 true 0x10 0x00) 14
  constructor
  · refine hall.1 fun _ _ => ⟨?_, fun _ _ _ _ _ _ _ => trivial⟩
    rintro ⟨-, -, hshow, -⟩
    exact absurd hshow (by decide)
  · have hrun : (run? (step fun _ _ _ _ _ => ([], ())) (only "a" plainSubscriber)
        [.deliverVideoData (fun _ _ => Fresh.zero) (vp8Packet 7 true 0x10 0x00) 14, .sendLoop "a"]).isSome := by
      decide +kernel
    obtain ⟨⟨ts, p'⟩, h⟩ := Option.isSome_iff_exists.mp hrun
    exact ⟨ts, p', h, hall.2.2 _ _ _ _ _ (find?_only "a" plainSubscriber) (by simp [Event.Keeps]) h⟩

def waitingSubscriber : Subscriber Unit :=
  { plainSubscriber with conn := plainSubscriber.conn.setSlideShowMode true }

def leftover : Fresh := { Fresh.zero with vp8 := { RTPPayloadVP8.zero with frameType := .kPFrame } }

/-- A descriptor with the partition number 9 is queued or not, as the memory happens to be when others are there too. -/
theorem not_isolated :
    ¬ ∀ (s : Subscriber Unit) (buf : Mem) (len : ℕ), Isolated (fun _ _ _ _ _ => ([], ())) s buf len := by
  intro h
  have halone : ((only "b" waitingSubscriber).deliverVideoData (fun _ _ _ _ _ => ([], ())) (fun _ _ => Fresh.zero)
      (vp8Packet 7 true 0x19 0x00) 14).map (fun r => (r.1.queuedFor "b").map List.length) = some [1] := by decide +kernel
  have hboth : ((⟨(only "b" waitingSubscriber).subscribers.set "a" (.connection waitingSubscriber), false, 0⟩ :
      OneToManyProcessor Unit).deliverVideoData (fun _ _ _ _ _ => ([], ())) (fun _ _ => leftover)
      (vp8Packet 7 true 0x19 0x00) 14).map (fun r => (r.1.queuedFor "b").map List.length) = some [0] := by decide +kernel
  obtain ⟨⟨o, p'⟩, ho, hone⟩ := Option.map_eq_some_iff.mp halone
  obtain ⟨⟨o₁, p₁'⟩, ho₁, hzero⟩ := Option.map_eq_some_iff.mp hboth
  have hfind : ((only "b" waitingSubscriber).subscribers.set "a" (.connection waitingSubscriber)).find? "b" =
      some (.connection waitingSubscriber) := by
    rw [OrdMap.find?_set, if_neg (by decide), find?_only]
  have hsame := congrArg (List.map List.length)
    ((h waitingSubscriber (vp8Packet 7 true 0x19 0x00) 14).video (find?_only "b" waitingSubscriber) hfind ho ho₁)
  simp only [List.map_map, Function.comp_def, List.length_map] at hsame
  rw [hone, hzero] at hsame
  exact absurd hsame (by decide)

end OneToManyProcessor
end Sfup.Core
