import Sfup.Lib.OrdMap
import Sfup.Lib.Transition
import Sfup.Client.Receiving

/-! The table of peer connections in `Client/conductor.cpp`. A connection is named by the number of the call
of the factory that made it, and `none` is a null pointer. -/
namespace Sfup.Client

/-- What `rtc::Get…FromJsonObject` finds in a message; a type that is not there reads as empty. -/
structure JMessage where
  type : AString
  clientID : Option Int32
  sdp : Option AString
  sdpMid : Option AString
  sdpMLineIndex : Option Int32
  candidate : Option AString

/-- What the conductor takes from outside the repository. -/
structure Webrtc where
  /-- `_DEBUG` is defined -/
  debug : Bool
  /-- `Json::Reader::parse` -/
  parse : AString → Option JMessage
  /-- whether the `n`-th call of `CreatePeerConnection` returns a connection -/
  factory : ℕ → Bool
  /-- `CreateSessionDescription`, and whether the description is an offer -/
  sessionDescription : AString → AString → Option Bool
  iceCandidate : AString → Int32 → AString → Bool

/-- What `OnMessageFromChannel` compares the type of a message with. -/
inductive MessageType where
  | online | publisher | leaving | description | candidate
deriving DecidableEq

open ConnectionClient (text)

def MessageType.ofText (type : AString) : MessageType :=
  if type = text "online" then online
  else if type = text "publisher" then publisher
  else if type = text "offline" ∨ type = text "unpublisher" then leaving
  else if type = text "offer" ∨ type = text "answer" then description
  else candidate

/-- `Conductor`, with the identity of its client. An observer is there or is a null pointer. -/
structure Conductor where
  clientID : UInt32
  peerConnections : OrdMap ℕ (Option ℕ)
  pcObservers : OrdMap ℕ Bool
  activeStream : Bool
  calls : ℕ

/-- What ends the program: an `ASSERT` of a debug build, or a null pointer that is followed. -/
inductive Fault where
  | assertion | nullPointer
deriving DecidableEq

namespace Conductor

/-- A conductor whose client has not signed in. -/
def new : Conductor := ⟨0, .empty, .empty, false, 0⟩

/-- `SetLocalRender` and `SetRemoteRender`: `pcObservers_[id]` makes an entry. -/
def setRender (s : Conductor) (id : ℕ) : Conductor := { s with pcObservers := s.pcObservers.touch id false }

def follow : Option ℕ → Except Fault Unit
  | none => .error .nullPointer
  | some _ => .ok ()

/-- The `ASSERT` makes an entry in both builds. `AddStreams` finds the observer that has just been stored,
and `AddStream` is called without a test of the new connection. -/
def createPeerConnection (W : Webrtc) (s : Conductor) (id : UInt32) : Except Fault (Bool × Conductor) :=
  let table := s.peerConnections.touch id.toNat none
  if W.debug = true ∧ table.find? id.toNat ≠ some none then .error .assertion
  else
    let connection := if W.factory s.calls then some s.calls else none
    let s := { s with
      peerConnections := table.set id.toNat connection
      pcObservers := s.pcObservers.set id.toNat true
      calls := s.calls + 1 }
    if id = s.clientID then do
      follow connection
      return (true, { s with activeStream := true })
    else .ok (connection.isSome, s)

/-- One turn of the loop that closes all connections; the window resets the renderer. -/
def closeTurn (s : Conductor) (entry : ℕ × Option ℕ) : Except Fault Conductor := do
  follow entry.2
  return s.setRender entry.1

def deletePeerConnection (s : Conductor) (id : UInt32) : Except Fault Conductor :=
  if id = s.clientID then do
    let s ← s.peerConnections.entries.foldlM closeTurn { s with activeStream := false }
    return { s with peerConnections := .empty, pcObservers := .empty }
  else do
    if let some connection := s.peerConnections.find? id.toNat then follow connection
    return { s with
      peerConnections := s.peerConnections.erase id.toNat
      pcObservers := s.pcObservers.erase id.toNat }

def onJoinedChannel (W : Webrtc) (s : Conductor) : Except Fault Conductor := do
  let (ok, s) ← s.createPeerConnection W s.clientID
  return if ok then s.setRender s.clientID.toNat else s

/-- `SignOut` sets the identity of the client to zero. -/
def signOut (s : Conductor) : Conductor := { s with clientID := 0 }

def onLeaveChannel (s : Conductor) : Except Fault Conductor := do
  let s ← s.deletePeerConnection s.clientID
  return s.signOut

def onDescription (W : Webrtc) (s : Conductor) (aFromID : UInt32) (m : JMessage) : Except Fault Conductor :=
  match m.sdp.bind (W.sessionDescription m.type), s.peerConnections.find? aFromID.toNat with
  | some isOffer, some connection => do
    follow connection
    return if isOffer then s.setRender aFromID.toNat else s
  | _, _ => .ok s

def onCandidate (W : Webrtc) (s : Conductor) (aFromID : UInt32) (m : JMessage) : Except Fault Conductor :=
  match m.sdpMid, m.sdpMLineIndex, m.candidate, s.peerConnections.find? aFromID.toNat with
  | some mid, some index, some sdp, some connection =>
    if W.iceCandidate mid index sdp then do
      follow connection
      return s
    else .ok s
  | _, _, _, _ => .ok s

/-- A connection is made under the sender and removed under the identity in the message. -/
def onObject (W : Webrtc) (s : Conductor) (aFromID : UInt32) (m : JMessage) : Except Fault Conductor :=
  match MessageType.ofText m.type with
  | .online => .ok s
  | .publisher =>
    match m.clientID with
    | none => .ok s
    | some _clientID => do
      let (ok, s) ← s.createPeerConnection W aFromID
      return if ok then s.setRender aFromID.toNat else s
  | .leaving =>
    let s := s.setRender aFromID.toNat
    match m.clientID with
    | none => .ok s
    | some clientID => s.deletePeerConnection clientID.toUInt32
  | .description => s.onDescription W aFromID m
  | .candidate => s.onCandidate W aFromID m

/-- The `ASSERT` ends a debug build on an empty message. -/
def onMessageFromChannel (W : Webrtc) (s : Conductor) (aFromID : UInt32) (aMsg : AString) : Except Fault Conductor :=
  if W.debug = true ∧ aMsg = [] then .error .assertion
  else if aMsg = text "BYE" then .ok s
  else match W.parse aMsg with
    | none => .ok s
    | some m => s.onObject W aFromID m

/-- What the client calls; it has its identity from the login. -/
inductive Event where
  | onSignedIn (clientID : UInt32)
  | onLoginError
  | onJoinedChannel
  | onLeaveChannel
  | onMessageFromChannel (aFromID : UInt32) (aMsg : AString)

def exec (W : Webrtc) (s : Conductor) : Event → Except Fault Conductor
  | .onSignedIn clientID => .ok { s with clientID }
  | .onLoginError => .ok s.signOut
  | .onJoinedChannel => s.onJoinedChannel W
  | .onLeaveChannel => s.onLeaveChannel
  | .onMessageFromChannel aFromID aMsg => s.onMessageFromChannel W aFromID aMsg

end Conductor

end Sfup.Client
