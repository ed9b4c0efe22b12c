import Sfup.Client.Fields

/-! Outgoing packets: `cPacketizer` composes one in `m_OutPacketBuffer` and its destructor hands
the length and the packet to `SendData`. -/
namespace Sfup.Client

abbrev AString := List UInt8

/-- `cAesCfb128Encryptor` and `cAesCfb128Decryptor` after `Init`. -/
structure AesCfb128 where
  key : List UInt8
  iv : List UInt8
deriving DecidableEq, Repr

namespace AesCfb128

variable (P : Platform)

/-- One turn of `cAesCfb128Encryptor::ProcessData`. -/
def encryptByte (c : AesCfb128) (plain : UInt8) : UInt8 × AesCfb128 :=
  let out := plain ^^^ (P.aes c.key c.iv).headD 0
  (out, { c with iv := c.iv.tail ++ [out] })

def encrypt (c : AesCfb128) : List UInt8 → List UInt8 × AesCfb128
  | [] => ([], c)
  | x :: xs =>
    let (y, c) := encryptByte P c x
    let (ys, c) := encrypt c xs
    (y :: ys, c)

end AesCfb128

/-- What a connection does to the outside: calls of `SendData` and of `::send`, packets given to
`HandlePacket`, and calls of its observer. -/
inductive Event where
  | sendData (aData : List UInt8)
  | send (data : List UInt8)
  | handlePacket (aPacketType : UInt32) (body : List UInt8)
  | packetBufferFull
  | packetUnknown (aPacketType : UInt32)
  | packetError (aPacketType : UInt32)
  | onSignedIn
  | onLoginError
  | onJoinedChannel (room : AString)
  | onLeaveChannel (room : AString)
  | onMessageFromChannel (room : AString) (aFromID : UInt32) (aMsg : AString)
  | signOut
deriving DecidableEq, Repr

/-- The fields of `ConnectionClient` other than `m_ReceivedData`, and what it has done so far.
`encryptCalls` counts the calls of `cCryptoKey::Encrypt`. -/
structure Session where
  outPacketBuffer : ByteBuffer
  state : UInt32
  isEncrypted : Bool
  bConnect : Bool
  clientID : UInt32
  decryptor : Option AesCfb128
  encryptor : Option AesCfb128
  rUserName : AString
  rChannel : AString
  encryptCalls : ℕ
  events : List Event
deriving DecidableEq, Repr

namespace Session

variable (P : Platform)

def emit (s : Session) (e : Event) : Session := { s with events := s.events ++ [e] }

/-- The loop of `SendData` on an encrypted connection, which sends at most `sizeof(Encrypted)` bytes
a turn. Without an encryptor it would follow a null pointer. -/
def encryptLoop : ℕ → Session → List UInt8 → Option Session
  | _, s, [] => some s
  | 0, _, _ :: _ => none
  | fuel + 1, s, data => do
    let encryptor ← s.encryptor
    let (encrypted, encryptor) := encryptor.encrypt P (data.take 8192)
    encryptLoop fuel ({ s with encryptor := some encryptor }.emit (.send encrypted)) (data.drop 8192)

def sendData (s : Session) (aData : List UInt8) : Option Session :=
  let s := s.emit (.sendData aData)
  if s.isEncrypted then encryptLoop P aData.length s aData else some (s.emit (.send aData))

end Session

/-- The value of a hex digit; any other character is logged and counts as zero. -/
def hexDigitValue (aCharacter : UInt8) : UInt8 :=
  if 48 ≤ aCharacter ∧ aCharacter ≤ 57 then aCharacter - 48
  else if 97 ≤ aCharacter ∧ aCharacter ≤ 102 then aCharacter - 87
  else if 65 ≤ aCharacter ∧ aCharacter ≤ 70 then aCharacter - 55
  else 0

/-- A `Write…` call on a `cPacketizer`. Floating-point values are given by their bits, the angle and
the fixed-point value after their conversion to an integer. -/
inductive Field where
  | bool (aValue : Bool)
  | beUInt8 (aValue : UInt8)
  | beInt8 (aValue : Int8)
  | beInt16 (aValue : Int16)
  | beUInt16 (aValue : Int16)
  | beInt32 (aValue : Int32)
  | beUInt32 (aValue : UInt32)
  | beInt64 (aValue : Int64)
  | beUInt64 (aValue : UInt64)
  | beFloat (bits : UInt32)
  | beDouble (bits : UInt64)
  | varInt32 (aValue : UInt32)
  | string (aValue : AString)
  | buf (aData : List UInt8)
  | position64 (aBlockX aBlockY aBlockZ : Int32)
  | byteAngle (angle : Int8)
  | fpInt (value : Int32)
  | uuid (aUUID : AString)

namespace Field

def uuidBytes : AString → List UInt8
  | hi :: lo :: rest => (hexDigitValue hi <<< 4 ||| hexDigitValue lo) :: uuidBytes rest
  | _ => []

/-- `WriteUUID`: sixteen single bytes, or nothing when the length is not 32. -/
def writeUUID (b : ByteBuffer) (aUUID : AString) : Option (Bool × ByteBuffer) :=
  if aUUID.length ≠ 32 then some (true, b)
  else (uuidBytes aUUID).foldlM (fun (ok, b) val => do
    let (res, b) ← b.writeBE 1 val.toNat
    return (ok && res, b)) (true, b)

/-- The write a field stands for, and whether it succeeds. -/
def write (b : ByteBuffer) : Field → Option (Bool × ByteBuffer)
  | bool v => b.writeBool v
  | beUInt8 v => b.writeBE 1 v.toNat
  | beInt8 v | byteAngle v => b.writeBE 1 v.toUInt8.toNat
  | beInt16 v | beUInt16 v => b.writeBE 2 v.toUInt16.toNat
  | beInt32 v | fpInt v => b.writeBE 4 v.toUInt32.toNat
  | beUInt32 v | beFloat v => b.writeBE 4 v.toNat
  | beInt64 v => b.writeBE 8 v.toUInt64.toNat
  | beUInt64 v | beDouble v => b.writeBE 8 v.toNat
  | varInt32 v => b.writeVarInt32 v
  | string v => b.writeVarUTF8String v
  | buf v => b.write v
  | position64 x y z => b.writePosition64 x y z
  | uuid v => writeUUID b v

end Field

namespace Packetizer

variable (P : Platform)

/-- The constructor, which does not look at the result of its write. -/
def new (s : Session) (aPacketType : UInt32) : Option Session := do
  let (_, out) ← s.outPacketBuffer.writeVarInt32 aPacketType
  return { s with outPacketBuffer := out }

/-- A `Write…` call; a write that does not fit ends the program. -/
def write (s : Session) (f : Field) : Option Session := do
  let (ok, out) ← f.write s.outPacketBuffer
  assert ok
  return { s with outPacketBuffer := out }

/-- The destructor. The length is the used space of the buffer, not the readable one. -/
def destroy (s : Session) : Option Session := do
  let packetLen := UInt32.ofNat (← s.outPacketBuffer.getUsedSpace)
  let (_, lenBuffer) ← (ByteBuffer.new 20 P.fresh).writeVarInt32 packetLen
  let (dataToSend, lenBuffer) ← lenBuffer.readAll
  let s ← s.sendData P (dataToSend.getD [])
  let _ ← lenBuffer.commitRead
  let (data, out) ← s.outPacketBuffer.readAll
  let s ← s.sendData P (data.getD (dataToSend.getD []))
  let out ← out.commitRead
  return { s with outPacketBuffer := out }

end Packetizer

def Session.sendPacket (P : Platform) (s : Session) (aPacketType : UInt32) (fields : List Field) :
    Option Session := do
  let s ← Packetizer.new s aPacketType
  let s ← fields.foldlM Packetizer.write s
  Packetizer.destroy P s

end Sfup.Client
