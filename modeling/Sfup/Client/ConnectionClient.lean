import Sfup.Client.Packetizer

/-! The signalling connection of `Client/ConnectionClient.cpp`: the packet handlers and the loop that
cuts the received bytes into packets. The observer is `Conductor`, whose `OnLoginError` and
`OnLeaveChannel` sign the client out. -/
namespace Sfup.Client

/-- Both buffers of a connection are built with `16 KiB`. -/
def bufferSize16K : UInt32 := 16384

/-- `ConnectionClient`. What only needs the `Session` part cannot touch the received data. -/
structure ConnectionClient extends Session where
  receivedData : ByteBuffer
deriving DecidableEq, Repr

/-- The macro `HANDLE_READ`: a read that fails leaves the handler. -/
def handleRead {σ α : Type} (read : Option (Option α × ByteBuffer)) (s : σ)
    (next : α → ByteBuffer → Option (σ × ByteBuffer)) : Option (σ × ByteBuffer) := do
  match ← read with
  | (none, bb) => return (s, bb)
  | (some var, bb) => next var bb

namespace Session

variable (P : Platform)

def handlePacketStatusRequest (s : Session) (bb : ByteBuffer) : Option (Session × ByteBuffer) :=
  handleRead bb.readBEInt32 s fun state bb =>
  handleRead bb.readBool s fun _zip bb =>
  handleRead bb.readBool s fun _encrypt bb =>
  handleRead (bb.readVarUTF8String P) s fun _strIP bb => do
    if state > 3 || state < 1 then return (s, bb)
    let s ← sendPacket P { s with state := state.toUInt32 } 0x00 []
    return (s, bb)

def hostBytes (v : UInt32) : List UInt8 := (BigEndian.encode 4 v.toNat).reverse

/-- The cryptors are in place before the nonce is encrypted. -/
def sendEncryptionKeyResponse (s : Session) (aPublicKey : AString) (aNonce : UInt32) :
    Option Session := do
  let encryptedSecret := P.encrypt s.encryptCalls aPublicKey P.sharedSecret
  let s := { s with encryptCalls := s.encryptCalls + 1 }
  let some encryptedSecret := encryptedSecret | return s
  let cryptor : AesCfb128 := { key := P.sharedSecret, iv := P.sharedSecret }
  let encryptedNonce := P.encrypt s.encryptCalls aPublicKey (hostBytes aNonce)
  let s := { s with encryptor := some cryptor, decryptor := some cryptor,
                    encryptCalls := s.encryptCalls + 1 }
  let some encryptedNonce := encryptedNonce | return s
  let s ← sendPacket P s 0x01 [.beUInt16 128, .buf encryptedSecret.toList, .beUInt16 128,
    .buf encryptedNonce.toList]
  return { s with isEncrypted := true }

/-- A negative `keyLen` makes `new char[keyLen]` throw. The result of `ReadBuf` is not looked at, so
a key that is not there reads as zeros. -/
def handlePacketLoginEncryptionKeyRequest (s : Session) (bb : ByteBuffer) :
    Option (Session × ByteBuffer) :=
  handleRead (bb.readVarUTF8String P) s fun _serverID bb =>
  handleRead bb.readBEInt16 s fun keyLen bb => do
    assert (0 ≤ keyLen)
    let (buffer, bb) ← bb.readBuf keyLen.toUInt16.toNat
    let buffer := buffer.getD (List.replicate keyLen.toUInt16.toNat 0)
    handleRead bb.readBEInt16 s fun nonceLen bb =>
      handleRead bb.readBEInt32 s fun nonce bb => do
        if nonceLen ≠ 4 then return (s, bb)
        let s ← sendEncryptionKeyResponse P s buffer nonce.toUInt32
        return (s, bb)

def handlePacketLoginAllow (s : Session) (bb : ByteBuffer) : Option (Session × ByteBuffer) := do
  let s ← sendPacket P s 0x02 [.string s.rUserName]
  return (s, bb)

def handlePacketLoginSuccess (s : Session) (bb : ByteBuffer) : Option (Session × ByteBuffer) :=
  handleRead (bb.readVarInt32 P) s fun clientID bb => do
    let s := { s with clientID, state := 3 }.emit .onSignedIn
    let s ← sendPacket P s 0x01 [.string s.rChannel]
    return (s, bb)

def handlePacketKeepAlive (s : Session) (bb : ByteBuffer) : Option (Session × ByteBuffer) :=
  handleRead (bb.readVarInt32 P) s fun keepAliveID bb => do
    let s ← sendPacket P s 0x00 [.varInt32 keepAliveID]
    return (s, bb)

def handlePacketRoomJoin (s : Session) (bb : ByteBuffer) : Option (Session × ByteBuffer) :=
  handleRead (bb.readVarUTF8String P) s fun channel bb =>
  handleRead (bb.readVarInt32 P) s fun ret bb =>
    some (if ret ≠ 0 then s.emit (.onJoinedChannel channel) else s, bb)

def handlePacketChannelMsg (s : Session) (bb : ByteBuffer) : Option (Session × ByteBuffer) :=
  handleRead (bb.readVarInt32 P) s fun fromID bb =>
  handleRead (bb.readVarUTF8String P) s fun channel bb =>
  handleRead (bb.readVarUTF8String P) s fun msg bb =>
    some (s.emit (.onMessageFromChannel channel fromID msg), bb)

/-- What `SignOut` does to everything but the received data. -/
def signOut (s : Session) : Session :=
  { s with
    clientID := 0
    rChannel := []
    outPacketBuffer := s.outPacketBuffer.clearAll
    encryptor := none
    decryptor := none
    state := 1
    isEncrypted := false
    bConnect := false }.emit .signOut

end Session

namespace ConnectionClient

variable (P : Platform)

/-- The constructor and `Init`. -/
def new (aUserName : AString) : ConnectionClient where
  outPacketBuffer := .new bufferSize16K P.fresh
  state := 1
  isEncrypted := false
  bConnect := false
  clientID := 0
  decryptor := none
  encryptor := none
  rUserName := aUserName
  rChannel := []
  encryptCalls := 0
  events := []
  receivedData := .new bufferSize16K P.fresh

def signOut (c : ConnectionClient) : ConnectionClient :=
  { c with toSession := c.toSession.signOut, receivedData := c.receivedData.clearAll }

/-- `HandleErrorCode`; the texts it shows are left out. -/
def handleErrorCode (c : ConnectionClient) : ConnectionClient :=
  signOut { c with toSession := c.emit .onLoginError }

/-- `HandlePacketLoginDisconnect` and `HandlePacketErrorCode`. -/
def handlePacketErrorCode (c : ConnectionClient) (bb : ByteBuffer) :
    Option (ConnectionClient × ByteBuffer) :=
  handleRead bb.readBEInt32 c fun _reason bb => some (c.handleErrorCode, bb)

def handlePacketRoomLeft (c : ConnectionClient) (bb : ByteBuffer) :
    Option (ConnectionClient × ByteBuffer) :=
  handleRead (bb.readVarUTF8String P) c fun channel bb =>
  handleRead (bb.readVarInt32 P) c fun ret bb =>
    let c := if ret ≠ 0 then signOut { c with toSession := c.emit (.onLeaveChannel channel) } else c
    some ({ c with rChannel := [] }, bb)

def onSession (c : ConnectionClient) (r : Option (Session × ByteBuffer)) :
    Option (ConnectionClient × ByteBuffer) := do
  let (s, bb) ← r
  return ({ c with toSession := s }, bb)

/-- The handler for a packet type in a protocol state, if there is one. -/
def handler (c : ConnectionClient) (bb : ByteBuffer) (aPacketType : UInt32) :
    Option (Option (ConnectionClient × ByteBuffer)) :=
  match c.state.toNat, aPacketType.toNat with
  | 1, 0x00 => some (c.onSession (c.handlePacketStatusRequest P bb))
  | 2, 0x00 => some (c.handlePacketErrorCode bb)
  | 2, 0x01 => some (c.onSession (c.handlePacketLoginEncryptionKeyRequest P bb))
  | 2, 0x02 => some (c.onSession (c.handlePacketLoginAllow P bb))
  | 2, 0x03 => some (c.onSession (c.handlePacketLoginSuccess P bb))
  | 3, 0x00 => some (c.onSession (c.handlePacketKeepAlive P bb))
  | 3, 0x01 => some (c.onSession (c.handlePacketRoomJoin P bb))
  | 3, 0x02 => some (c.onSession (c.handlePacketChannelMsg P bb))
  | 3, 0x09 => some (c.handlePacketRoomLeft P bb)
  | 3, 0x40 => some (c.handlePacketErrorCode bb)
  | _, _ => none

/-- In state 255, and from then on in any state that is not known, packets are ignored. -/
def handlePacket (c : ConnectionClient) (bb : ByteBuffer) (aPacketType : UInt32) :
    Option (Bool × ConnectionClient × ByteBuffer) :=
  match c.handler P bb aPacketType with
  | some r => do
    let (c, bb) ← r
    return (true, c, bb)
  | none =>
    if c.state = 1 ∨ c.state = 2 ∨ c.state = 3 then
      some (false, { c with toSession := c.emit (.packetUnknown aPacketType) }, bb)
    else some (false, { c with state := 255 }, bb)

/-- The part of the receive loop from the packet type on; false when it leaves the loop. Reading
too little or too much is reported and the loop goes on. -/
def handleBody (c : ConnectionClient) (bb : ByteBuffer) : Option (Bool × ConnectionClient) := do
  let (packetType, bb) ← bb.readVarInt P
  let some packetType := packetType | return (false, c)
  let (body, _) ← bb.readAll
  let (_, bb) ← bb.write [0]
  let c := { c with toSession := c.emit (.handlePacket packetType (body.getD [])) }
  let (handled, c, bb) ← c.handlePacket P bb packetType
  if !handled then return (false, c)
  if (← bb.getReadableSpace) ≠ 1 then
    return (true, { c with toSession := c.emit (.packetError packetType) })
  return (true, c)

/-- The loop of `AddReceivedData`. -/
def receiveLoop : ℕ → ConnectionClient → Option ConnectionClient
  | 0, _ => none
  | fuel + 1, c => do
    let (packetLen, b) ← c.receivedData.readVarInt P
    match packetLen with
    | none => return { c with receivedData := ← b.resetRead }
    | some packetLen =>
      if !(← b.canReadBytes packetLen.toNat) then return { c with receivedData := ← b.resetRead }
      let (ok, b, bb) ← b.readToByteBuffer (.new (packetLen + 1) P.fresh) packetLen.toNat
      assert ok
      let b ← b.commitRead
      let (again, c) ← handleBody P { c with receivedData := b } bb
      if again then receiveLoop fuel c else return c

def addReceivedData (c : ConnectionClient) (aData : List UInt8) : Option ConnectionClient := do
  let (ok, b) ← c.receivedData.write aData
  if !ok then return { c with toSession := c.emit .packetBufferFull }
  receiveLoop P b.bufferSize { c with receivedData := b }

/-- One call of `AddReceivedData` after another. -/
def addAll (c : ConnectionClient) (chunks : List (List UInt8)) : Option ConnectionClient :=
  chunks.foldlM (addReceivedData P) c

end ConnectionClient

end Sfup.Client
