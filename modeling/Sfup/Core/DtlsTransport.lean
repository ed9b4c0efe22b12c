import Sfup.Core.ConnectionState
import Sfup.Core.IceStates
import Sfup.Rtp.Headers

/-! `DtlsTransport.cpp` with the part of `SrtpChannel.cpp` that sends. Handshakes and writes have a lock each, so that
other threads run between their steps; a step is what touches the shared fields once. libsrtp is a parameter. `none`
is a step that is not due, or the use of a null session. -/
namespace Sfup.Core
open Sfup.Sdp Sfup.Rtp

inductive TransmissionType where
  | sending
  | receiving
deriving DecidableEq, Repr

/-- A packet in a buffer. -/
structure Buffer where
  data : Mem
  length : ℕ

/-- What is used of libsrtp: the session of a key, if it can be made, and for a session and a packet the status, the
packet and the session afterwards. -/
structure Libsrtp (Session : Type) where
  create : TransmissionType → Str → Option Session
  protect : Session → Buffer → ℕ × Buffer × Session
  protectRtcp : Session → Buffer → ℕ × Buffer × Session

/-- Every key has a session, and a protected packet has a tag of ten bytes. -/
def Libsrtp.tagging : Libsrtp Unit where
  create _ _ := some ()
  protect _ buffer := (0, { buffer with length := buffer.length + 10 }, ())
  protectRtcp _ buffer := (0, { buffer with length := buffer.length + 10 }, ())

structure SrtpChannel (Session : Type) where
  active : Bool := false
  sendSession : Option Session := none
  receiveSession : Option Session := none

namespace SrtpChannel
variable {Session : Type} (lib : Libsrtp Session)

def setRtpParams (sendingKey receivingKey : Str) (channel : SrtpChannel Session) : Bool × SrtpChannel Session :=
  match lib.create .sending sendingKey with
  | none => (false, { channel with sendSession := none })
  | some send =>
    match lib.create .receiving receivingKey with
    | none => (false, { channel with sendSession := some send, receiveSession := none })
    | some receive => (true, { active := true, sendSession := some send, receiveSession := some receive })

def finish (channel : SrtpChannel Session) (r : ℕ × Buffer × Session) : Bool × Buffer × SrtpChannel Session :=
  (r.1 = 0, r.2.1, { channel with sendSession := some r.2.2 })

def protectRtp (channel : SrtpChannel Session) (buffer : Buffer) : Option (Bool × Buffer × SrtpChannel Session) :=
  if channel.active then channel.sendSession.map fun session => channel.finish (lib.protect session buffer)
  else some (true, buffer, channel)

def protectRtcp (channel : SrtpChannel Session) (buffer : Buffer) : Option (Bool × Buffer × SrtpChannel Session) :=
  channel.sendSession.map fun session => channel.finish (lib.protectRtcp session buffer)

end SrtpChannel

/-- The two DTLS contexts, with a channel each. -/
inductive Context where
  | rtp
  | rtcp
deriving DecidableEq, Repr

/-- A channel that protected a packet, as it was then, and the packet that was given to it. -/
structure Protection (Session : Type) where
  context : Context
  channel : SrtpChannel Session
  packet : Buffer

/-- How far a `write` is: it has read `srtp_` and knows whether it was null; it has seen the state to be ready, has the
packet in its buffer and has chosen a component and a channel; the packet went through the channel, if there was one. -/
inductive Writing (Session : Type) where
  | idle
  | entered (packet : Buffer) (srtp : Bool)
  | checked (comp : ℕ) (channel : Option Context) (length : ℕ)
  | passed (comp : ℕ) (protection : Option (Protection Session)) (length : ℕ)

/-- How far an `onHandshakeCompleted` is. -/
inductive Handshaking where
  | idle
  | created (ctx : Context) (sendingKey receivingKey : Str)
  | configured

/-- `dtlsRtcp` is whether there is a context of its own for RTCP. -/
structure DtlsTransport (Session : Type) where
  state : TransportState := .initial
  rtcpMux : Bool
  isServer : Bool
  dtlsRtcp : Bool
  listener : Bool
  srtp : Option (SrtpChannel Session) := none
  srtcp : Option (SrtpChannel Session) := none
  readyRtp : Bool := false
  readyRtcp : Bool := false
  running : Bool := true
  rtpStarted : Bool := false
  rtcpStarted : Bool := false
  rtpResends : ℕ := 5
  rtcpResends : ℕ := 5
  nice : NiceConnection
  protectBuf : Mem
  writing : Writing Session := .idle
  handshaking : Handshaking := .idle

namespace DtlsTransport
variable {Session : Type}

/-- What a step gives to others: a state to the listener, a packet to the ICE connection, a DTLS packet or the start of
handshakes to a context. A `write` that ends without a packet is quiet. -/
inductive Output (Session : Type) where
  | quiet
  | reported (state : TransportState)
  | sent (comp : ℕ) (buffer : Buffer) (protection : Option (Protection Session))
  | dtls (comp : ℕ)
  | started (rtp rtcp : Bool)
  | threw

/-- The constructor. Without rtcp-mux there are two contexts and two components. -/
def new (rtcpMux isServer listener : Bool) (protectBuf : Mem) : DtlsTransport Session :=
  { rtcpMux, isServer, dtlsRtcp := !rtcpMux, listener, protectBuf
    nice := NiceConnection.new (if rtcpMux then 1 else 2) true }

def hasContext (t : DtlsTransport Session) (ctx : Context) : Bool := ctx = .rtp || t.dtlsRtcp

def channel (t : DtlsTransport Session) : Context → Option (SrtpChannel Session)
  | .rtp => t.srtp
  | .rtcp => t.srtcp

def setChannel (ctx : Context) (channel : SrtpChannel Session) (t : DtlsTransport Session) : DtlsTransport Session :=
  match ctx with
  | .rtp => { t with srtp := some channel }
  | .rtcp => { t with srtcp := some channel }

/-- `Transport::updateTransportState`. -/
def updateTransportState (state : TransportState) (t : DtlsTransport Session) :
    Output Session × DtlsTransport Session :=
  if state = t.state then (.quiet, t)
  else (if t.listener then .reported state else .quiet, { t with state })

/-! ## The handshake -/

/-- `onHandshakeCompleted` takes its lock and makes the channel. -/
def createChannel (ctx : Context) (clientKey serverKey : Str) (t : DtlsTransport Session) :
    Option (Output Session × DtlsTransport Session) :=
  match t.handshaking with
  | .idle =>
    if !t.hasContext ctx then none
    else
      let keys := if t.isServer then (serverKey, clientKey) else (clientKey, serverKey)
      some (.quiet, { t.setChannel ctx {} with handshaking := .created ctx keys.1 keys.2 })
  | _ => none

def setReady (ctx : Context) (t : DtlsTransport Session) : DtlsTransport Session :=
  match ctx with
  | .rtp => { t with readyRtp := true }
  | .rtcp => { t with readyRtcp := true }

def setMuxReady (ctx : Context) (t : DtlsTransport Session) : DtlsTransport Session :=
  if ctx = .rtp && !t.dtlsRtcp then { t with readyRtcp := true } else t

/-- It sets the keys, and the flag of the context if that succeeds. The other flag is set either way. -/
def configureChannel (lib : Libsrtp Session) (t : DtlsTransport Session) :
    Option (Output Session × DtlsTransport Session) :=
  match t.handshaking with
  | .created ctx sendingKey receivingKey =>
    (t.channel ctx).map fun channel =>
      let set := channel.setRtpParams lib sendingKey receivingKey
      let t := { t.setChannel ctx set.2 with handshaking := .configured }
      let r := if set.1 then (.quiet, t.setReady ctx) else t.updateTransportState .failed
      (r.1, r.2.setMuxReady ctx)
  | _ => none

/-- It reports the transport ready if both flags are set. -/
def completeHandshake (t : DtlsTransport Session) : Option (Output Session × DtlsTransport Session) :=
  match t.handshaking with
  | .configured =>
    let t := { t with handshaking := .idle }
    some (if t.readyRtp && t.readyRtcp then t.updateTransportState .ready else (.quiet, t))
  | _ => none

def onHandshakeFailed (t : DtlsTransport Session) : Output Session × DtlsTransport Session :=
  { t with running := false }.updateTransportState .failed

/-- The counter of a resender, which is a 32-bit one. -/
def resends (t : DtlsTransport Session) : Context → ℕ
  | .rtp => t.rtpResends
  | .rtcp => t.rtcpResends

def setResends (ctx : Context) (resends : ℕ) (t : DtlsTransport Session) : DtlsTransport Session :=
  match ctx with
  | .rtp => { t with rtpResends := resends }
  | .rtcp => { t with rtcpResends := resends }

/-- `Resender::Resend`, after a timer was cancelled or ran out. -/
def resend (ctx : Context) (cancelled : Bool) (t : DtlsTransport Session) : Output Session × DtlsTransport Session :=
  if cancelled then (.quiet, t)
  else if 0 < t.resends ctx then
    (.dtls (if ctx = .rtcp then 2 else 1), t.setResends ctx (t.resends ctx - 1))
  else (t.setResends ctx (2 ^ 32 - 1)).onHandshakeFailed

def updateIceState (state : IceState) (t : DtlsTransport Session) : Output Session × DtlsTransport Session :=
  if state = .initial ∧ t.state ≠ .started then t.updateTransportState .started
  else if state = .candidatesReceived ∧ t.state ≠ .gathered then t.updateTransportState .gathered
  else if state = .failed then { t with running := false }.updateTransportState .failed
  else if state = .ready then
    let rtp := !t.isServer && !t.rtpStarted
    let rtcp := !t.isServer && t.dtlsRtcp && !t.rtcpStarted
    (.started rtp rtcp, { t with rtpStarted := t.rtpStarted || rtp, rtcpStarted := t.rtcpStarted || rtcp })
  else (.quiet, t)

/-- The exception of the ICE connection leaves the state as it is. -/
def close (t : DtlsTransport Session) : Output Session × DtlsTransport Session :=
  let (o, nice) := { t.nice with listener := false }.close
  let t := { t with running := false, nice }
  if o = .threw then (.threw, t) else (.quiet, { t with state := .finished })

/-! ## Writing -/

/-- `write` takes its lock and reads `srtp_`. -/
def enterWrite (packet : Buffer) (t : DtlsTransport Session) : Option (Output Session × DtlsTransport Session) :=
  match t.writing with
  | .idle => some (.quiet, { t with writing := .entered packet t.srtp.isSome })
  | _ => none

/-- The buffer of 5000 bytes with a packet copied into it. -/
def copied (t : DtlsTransport Session) (packet : Buffer) : Mem :=
  fun i => if i < packet.length then packet.data i else t.protectBuf i

/-- The component of a packet. -/
def comp (t : DtlsTransport Session) (rtcp : Bool) : ℕ := if rtcp && !t.rtcpMux then 2 else 1

/-- The channel of a packet. For RTCP it is read again where there are two. -/
def chosen (t : DtlsTransport Session) (rtcp srtp : Bool) : Option Context :=
  if rtcp && t.dtlsRtcp then (if t.srtcp.isSome then some .rtcp else none) else if srtp then some .rtp else none

/-- It goes on if the transport is ready. -/
def checkWrite (t : DtlsTransport Session) : Option (Output Session × DtlsTransport Session) :=
  match t.writing with
  | .entered packet srtp =>
    if t.state = .ready then
      if 5000 < packet.length then none
      else
        let protectBuf := t.copied packet
        let rtcp := RtcpHeader.isRtcp protectBuf 0
        some (.quiet, { t with protectBuf, writing := .checked (t.comp rtcp) (t.chosen rtcp srtp) packet.length })
    else some (.quiet, { t with writing := .idle })
  | _ => none

/-- `protectRtcp` or `protectRtp`, as the buffer says. -/
def protect (lib : Libsrtp Session) (channel : SrtpChannel Session) (packet : Buffer) :
    Option (Bool × Buffer × SrtpChannel Session) :=
  if RtcpHeader.isRtcp packet.data 0 then channel.protectRtcp lib packet else channel.protectRtp lib packet

/-- It goes through the channel, if there is one and ICE is ready, and ends if that fails or the packet is short. -/
def protectWrite (lib : Libsrtp Session) (t : DtlsTransport Session) :
    Option (Output Session × DtlsTransport Session) :=
  match t.writing with
  | .checked comp channel length =>
    match if t.nice.iceState = .ready then channel else none with
    | some ctx => do
      let packet := ⟨t.protectBuf, length⟩
      let channel ← t.channel ctx
      let (ok, buffer, channel') ← protect lib channel packet
      let writing := if ok && 10 < buffer.length then .passed comp (some ⟨ctx, channel, packet⟩) buffer.length else .idle
      return (.quiet, { t.setChannel ctx channel' with protectBuf := buffer.data, writing })
    | none => some (.quiet, { t with writing := if 10 < length then .passed comp none length else .idle })
  | _ => none

/-- It gives the packet to the ICE connection if that is ready. -/
def sendWrite (t : DtlsTransport Session) : Option (Output Session × DtlsTransport Session) :=
  match t.writing with
  | .passed comp protection length =>
    let t' := { t with writing := .idle }
    some (if t.nice.iceState = .ready then .sent comp ⟨t.protectBuf, length⟩ protection else .quiet, t')
  | _ => none

/-! ## Steps -/

inductive Event where
  | nice (ev : NiceConnection.Event)
  | updateIceState (state : IceState)
  | createChannel (ctx : Context) (clientKey serverKey : Str)
  | configureChannel
  | completeHandshake
  | onHandshakeFailed
  | resend (ctx : Context) (cancelled : Bool)
  | close
  | enterWrite (packet : Buffer)
  | checkWrite
  | protectWrite
  | sendWrite

def step (lib : Libsrtp Session) (t : DtlsTransport Session) : Event → Option (Output Session × DtlsTransport Session)
  | .nice ev => (t.nice.step ev).map fun p => (.quiet, { t with nice := p.2 })
  | .updateIceState state => some (t.updateIceState state)
  | .createChannel ctx clientKey serverKey => t.createChannel ctx clientKey serverKey
  | .configureChannel => t.configureChannel lib
  | .completeHandshake => t.completeHandshake
  | .onHandshakeFailed => some t.onHandshakeFailed
  | .resend ctx cancelled => if t.hasContext ctx then some (t.resend ctx cancelled) else none
  | .close => some t.close
  | .enterWrite packet => t.enterWrite packet
  | .checkWrite => t.checkWrite
  | .protectWrite => t.protectWrite lib
  | .sendWrite => t.sendWrite

/-! ## What a step does -/

section Steps
variable {lib : Libsrtp Session} {t : DtlsTransport Session} {r : Output Session × DtlsTransport Session}
  {state : TransportState} {ctx : Context}

theorem createChannel_cases {clientKey serverKey : Str} (h : t.createChannel ctx clientKey serverKey = some r) :
    t.handshaking = .idle ∧ t.hasContext ctx = true ∧ ∃ sendingKey receivingKey,
      r = (.quiet, { t.setChannel ctx {} with handshaking := .created ctx sendingKey receivingKey }) := by
  unfold createChannel at h
  split at h
  next hidle =>
    split_ifs at h with hctx
    all_goals
      rw [Bool.not_eq_true, Bool.not_eq_false'] at hctx
      exact ⟨hidle, hctx, _, _, (Option.some.inj h).symm⟩
  next => cases h

theorem configureChannel_cases (h : t.configureChannel lib = some r) :
    ∃ ctx sendingKey receivingKey channel, t.handshaking = .created ctx sendingKey receivingKey ∧
      t.channel ctx = some channel ∧
      let set := channel.setRtpParams lib sendingKey receivingKey
      let t₁ := { t.setChannel ctx set.2 with handshaking := .configured }
      (set.1 = true ∧ r = (.quiet, (t₁.setReady ctx).setMuxReady ctx) ∨
        set.1 = false ∧ r = ((t₁.updateTransportState .failed).1, (t₁.updateTransportState .failed).2.setMuxReady ctx)) := by
  unfold configureChannel at h
  split at h
  next ctx sendingKey receivingKey hcreated =>
    obtain ⟨channel, hchannel, rfl⟩ := Option.map_eq_some_iff.mp h
    refine ⟨ctx, sendingKey, receivingKey, channel, hcreated, hchannel, ?_⟩
    cases hset : (channel.setRtpParams lib sendingKey receivingKey).1 with
    | true => exact Or.inl ⟨hset, by simp only [hset, if_true]⟩
    | false => exact Or.inr ⟨hset, by simp only [hset, Bool.false_eq_true, if_false]⟩
  next => cases h

theorem completeHandshake_cases (h : t.completeHandshake = some r) : t.handshaking = .configured ∧
    r = if t.readyRtp && t.readyRtcp then { t with handshaking := .idle }.updateTransportState .ready
      else (.quiet, { t with handshaking := .idle }) := by
  unfold completeHandshake at h
  split at h
  next hconfigured => exact ⟨hconfigured, (Option.some.inj h).symm⟩
  next => cases h

theorem enterWrite_cases {packet : Buffer} (h : t.enterWrite packet = some r) :
    r = (.quiet, { t with writing := .entered packet t.srtp.isSome }) := by
  unfold enterWrite at h
  split at h
  · exact (Option.some.inj h).symm
  · cases h

/-- The packet is copied and gets its component and its channel, if the transport is ready. -/
theorem checkWrite_cases (h : t.checkWrite = some r) : ∃ packet srtp, t.writing = .entered packet srtp ∧
    (t.state ≠ .ready ∧ r = (.quiet, { t with writing := .idle }) ∨
      t.state = .ready ∧
      let rtcp := RtcpHeader.isRtcp (t.copied packet) 0
      r = (.quiet, { t with protectBuf := t.copied packet,
                            writing := .checked (t.comp rtcp) (t.chosen rtcp srtp) packet.length })) := by
  unfold checkWrite at h
  split at h
  next packet srtp hentered =>
    refine ⟨packet, srtp, hentered, ?_⟩
    split_ifs at h with hready hlong
    · exact Or.inr ⟨hready, (Option.some.inj h).symm⟩
    · exact Or.inl ⟨hready, (Option.some.inj h).symm⟩
  next => cases h

/-- The packet goes through the channel, or there is none or ICE is not ready. -/
theorem protectWrite_cases (h : t.protectWrite lib = some r) : ∃ comp channel length,
    t.writing = .checked comp channel length ∧
      ((channel = none ∨ t.nice.iceState ≠ .ready) ∧
          r = (.quiet, { t with writing := if 10 < length then .passed comp none length else .idle }) ∨
        ∃ ctx before ok buffer after, channel = some ctx ∧ t.nice.iceState = .ready ∧ t.channel ctx = some before ∧
          protect lib before ⟨t.protectBuf, length⟩ = some (ok, buffer, after) ∧
          r = (.quiet, { t.setChannel ctx after with
            protectBuf := buffer.data,
            writing := if ok && 10 < buffer.length then .passed comp (some ⟨ctx, before, ⟨t.protectBuf, length⟩⟩) buffer.length
              else .idle })) := by
  unfold protectWrite at h
  split at h
  next comp channel length hchecked =>
    refine ⟨comp, channel, length, hchecked, ?_⟩
    split at h
    next ctx hctx =>
      obtain ⟨before, hbefore, h⟩ := Option.bind_eq_some_iff.mp h
      obtain ⟨⟨ok, buffer, after⟩, hprotect, h⟩ := Option.bind_eq_some_iff.mp h
      split_ifs at hctx with hice
      exact Or.inr ⟨ctx, before, ok, buffer, after, hctx, hice, hbefore, hprotect, (Option.some.inj h).symm⟩
    next hctx =>
      refine Or.inl ⟨?_, (Option.some.inj h).symm⟩
      split_ifs at hctx with hice
      · exact Or.inl hctx
      · exact Or.inr hice
  next => cases h

theorem sendWrite_cases (h : t.sendWrite = some r) : ∃ comp protection length,
    t.writing = .passed comp protection length ∧
      r = (if t.nice.iceState = .ready then .sent comp ⟨t.protectBuf, length⟩ protection else .quiet,
        { t with writing := .idle }) := by
  unfold sendWrite at h
  split at h
  next comp protection length hpassed => exact ⟨comp, protection, length, hpassed, (Option.some.inj h).symm⟩
  next => cases h

end Steps
end DtlsTransport
end Sfup.Core
