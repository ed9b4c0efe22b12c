import Sfup.Core.WebRtcConnection
import Sfup.Lib.OrdMap
import Mathlib.Data.String.Basic

/-! The fan-out of `OneToManyProcessor.cpp`: the buffer of the publisher goes from one subscriber to the next. The
receiver of redundant packets is a parameter; `none` is a call with undefined behaviour. -/
namespace Sfup.Core
open Sfup.Rtp

/-- `AddReceivedRedPacket` and `ProcessReceivedFec` of one receiver, which only read the packet: the packets that go
to `OnRecoveredPacket`, in their order, and the receiver afterwards. -/
abbrev FecReceiver (φ : Type) := φ → ℕ → UInt16 → Mem → ℕ → List (Mem × ℕ) × φ

/-- A connection that subscribes, with its own receiver. -/
structure Subscriber (φ : Type) where
  conn : WebRtcConnection
  fec : φ

namespace WebRtcConnection

def appended (c c' : WebRtcConnection) : List DataPacket := c'.sendQueue.drop c.sendQueue.length

def isRed : Option Output → Bool
  | some (.red ..) => true
  | _ => false

/-- The recovered packets come in one after the other. One that would enter the receiver while it runs is not
followed. The list has what each of them put on the queue. -/
def onRecoveredPackets (fresh : ℕ → Fresh) (c : WebRtcConnection) : List (Mem × ℕ) →
    Option (List (List DataPacket) × WebRtcConnection)
  | [] => some ([], c)
  | (buf, len) :: packets =>
    (c.deliverVideoData (fresh 0) buf len).bind fun (o, c') =>
      if isRed o then none
      else (c'.onRecoveredPackets (fun i => fresh (i + 1)) packets).map fun (outs, c'') =>
        (c.appended c' :: outs, c'')

end WebRtcConnection

section Sinks
variable {φ : Type}

def Subscriber.deliverAudioData (fresh : ℕ → Fresh) (buf : Mem) (len : ℕ) (s : Subscriber φ) :
    Option (List (List DataPacket) × Subscriber φ) :=
  (s.conn.deliverAudioData (fresh 0) buf len).map fun conn => ([s.conn.appended conn], { s with conn })

/-- What each packet that comes in, or is recovered from it, puts on the queue. -/
def Subscriber.deliverVideoData (fec : FecReceiver φ) (fresh : ℕ → Fresh) (buf : Mem) (len : ℕ) (s : Subscriber φ) :
    Option (List (List DataPacket) × Subscriber φ) :=
  match s.conn.deliverVideoData (fresh 0) buf len with
  | none => none
  | some (some (.red headerLength sequenceNumber buf len), conn) =>
    let (packets, fec) := fec s.fec headerLength sequenceNumber buf len
    (conn.onRecoveredPackets (fun i => fresh (i + 1)) packets).map fun p => (p.1, { conn := p.2, fec })
  | some (_, conn) => some ([s.conn.appended conn], { s with conn })

/-- Recorders, transcoders and RTP sinks only read the buffer. -/
inductive Sink (φ : Type) where
  | connection (s : Subscriber φ)
  | other

/-- What a subscriber does with the buffer it is given: what it puts on its queue, the buffer as it leaves it, and its
state. The connections copy the packet before they change it. -/
abbrev Visit (φ : Type) := Mem → Sink φ → Option (List (List DataPacket) × Mem × Sink φ)

def Sink.visit (deliver : Mem → Subscriber φ → Option (List (List DataPacket) × Subscriber φ)) : Visit φ
  | buf, .connection s => (deliver buf s).map fun p => (p.1, buf, .connection p.2)
  | buf, .other => some ([], buf, .other)

end Sinks

structure OneToManyProcessor (φ : Type) where
  subscribers : OrdMap String (Sink φ)
  feedbackSink : Bool
  /-- That of the publisher. -/
  videoSourceSSRC : ℕ

namespace OneToManyProcessor

variable {φ : Type}

/-- One subscriber after the other, each with the buffer as the one before left it. -/
def visitAll (visit : String → Visit φ) : Mem → List (String × Sink φ) →
    Option (List (String × List (List DataPacket)) × Mem × List (String × Sink φ))
  | buf, [] => some ([], buf, [])
  | buf, e :: es =>
    (visit e.1 buf e.2).bind fun (out, buf, sink) =>
      (visitAll visit buf es).map fun (outs, buf, es) => ((e.1, out) :: outs, buf, (e.1, sink) :: es)

theorem visitAll_cons_eq_some {visit : String → Visit φ} {buf : Mem} {e : String × Sink φ} {es : List (String × Sink φ)}
    {r : List (String × List (List DataPacket)) × Mem × List (String × Sink φ)} :
    visitAll visit buf (e :: es) = some r ↔ ∃ out buf₁ sink outs buf₂ es', visit e.1 buf e.2 = some (out, buf₁, sink) ∧
      visitAll visit buf₁ es = some (outs, buf₂, es') ∧ r = ((e.1, out) :: outs, buf₂, (e.1, sink) :: es') := by
  rw [visitAll, Option.bind_eq_some_iff]
  constructor
  · rintro ⟨⟨out, buf₁, sink⟩, hv, h⟩
    obtain ⟨⟨outs, buf₂, es'⟩, hes, rfl⟩ := Option.map_eq_some_iff.mp h
    exact ⟨out, buf₁, sink, outs, buf₂, es', hv, hes, rfl⟩
  · rintro ⟨out, buf₁, sink, outs, buf₂, es', hv, hes, rfl⟩
    exact ⟨(out, buf₁, sink), hv, Option.map_eq_some_iff.mpr ⟨_, hes, rfl⟩⟩

private theorem keys_visitAll {visit : String → Visit φ} {buf buf' : Mem} {es es' : List (String × Sink φ)}
    {outs : List (String × List (List DataPacket))} (h : visitAll visit buf es = some (outs, buf', es')) :
    es'.map (·.1) = es.map (·.1) := by
  induction es generalizing buf outs es' with
  | nil =>
    cases h
    rfl
  | cons e es ih =>
    obtain ⟨out, buf₁, sink, outs, buf₂, es₁, -, hes, hr⟩ := visitAll_cons_eq_some.mp h
    cases hr
    rw [List.map_cons, List.map_cons, ih hes]

private theorem sorted_visitAll {visit : String → Visit φ} {buf buf' : Mem} {es es' : List (String × Sink φ)}
    {outs : List (String × List (List DataPacket))} (hs : es.Pairwise fun a b => a.1 < b.1)
    (h : visitAll visit buf es = some (outs, buf', es')) : es'.Pairwise fun a b => a.1 < b.1 := by
  rw [← List.pairwise_map (R := (· < ·))] at hs ⊢
  rwa [keys_visitAll h]

/-- What a call puts on the queues, what it gives to the sink of feedback, and the buffer as it leaves it. -/
structure Outcome where
  queued : List (String × List (List DataPacket)) := []
  feedback : Option (Mem × ℕ) := none
  buf : Mem

def Outcome.queuedFor (o : Outcome) (peerId : String) : List (List DataPacket) :=
  (OrdMap.findEntry peerId o.queued).getD []

def deliverTo (visit : String → Visit φ) (buf : Mem) (p : OneToManyProcessor φ) :
    Option (Outcome × OneToManyProcessor φ) :=
  match h : visitAll visit buf p.subscribers.entries with
  | none => none
  | some (queued, buf, es) => some ({ queued, buf }, { p with subscribers := ⟨es, sorted_visitAll p.subscribers.sorted h⟩ })

abbrev Memory := String → ℕ → Fresh

def visitAudio (memory : Memory) (len : ℕ) (peerId : String) : Visit φ :=
  Sink.visit fun buf => Subscriber.deliverAudioData (memory peerId) buf len

def visitVideo (fec : FecReceiver φ) (memory : Memory) (len : ℕ) (peerId : String) : Visit φ :=
  Sink.visit fun buf => Subscriber.deliverVideoData fec (memory peerId) buf len

def deliverAudioData (memory : Memory) (buf : Mem) (len : ℕ) (p : OneToManyProcessor φ) :
    Option (Outcome × OneToManyProcessor φ) :=
  if len = 0 then some ({ buf }, p) else p.deliverTo (visitAudio memory len) buf

/-- Feedback is given to the publisher with its own number in the place of the sender's. -/
def deliverVideoData (fec : FecReceiver φ) (memory : Memory) (buf : Mem) (len : ℕ) (p : OneToManyProcessor φ) :
    Option (Outcome × OneToManyProcessor φ) :=
  if len = 0 then some ({ buf }, p)
  else if RtcpHeader.isFeedback buf 0 then
    if p.feedbackSink then
      let buf := RtcpHeader.setSSRC buf 0 p.videoSourceSSRC
      some ({ feedback := some (buf, len), buf }, p)
    else some ({ buf }, p)
  else p.deliverTo (visitVideo fec memory len) buf

end OneToManyProcessor
end Sfup.Core
