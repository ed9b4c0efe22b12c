import Sfup.Lib.Memory

/-! The accessors of `rtp/RtpHeaders.h` that the media code uses. A header is read at an address; the
bit fields are laid out from the least significant bit. -/
namespace Sfup.Rtp

namespace RtpHeader

variable (m : Mem) (p : ℕ)

def cc : ℕ := (m p).toNat % 16

def hasextension : ℕ := (m p).toNat / 16 % 2

/-- The header after its constructor. -/
def new : Mem := fun i => if i = 0 then 0x80 else 0

def getMarker : Bool := decide (128 ≤ (m (p + 1)).toNat)

def setMarker (aMarker : Bool) : Mem :=
  Function.update m (p + 1)
    (UInt8.ofNat ((m (p + 1)).toNat % 128 + if aMarker then 128 else 0))

def getPayloadType : ℕ := (m (p + 1)).toNat % 128

def setPayloadType (aType : ℕ) : Mem :=
  Function.update m (p + 1) (UInt8.ofNat ((m (p + 1)).toNat / 128 * 128 + aType % 128))

def getSeqNumber : UInt16 := m.word (p + 2)

def setSeqNumber (aSeqNumber : UInt16) : Mem := m.setWord (p + 2) aSeqNumber

def setTimestamp (aTimestamp : UInt32) : Mem := m.setLong (p + 4) aTimestamp

def setSSRC (aSSRC : UInt32) : Mem := m.setLong (p + 8) aSSRC

def getExtId : ℕ := (m.word (p + 12)).toNat

def getExtLength : ℕ := (m.word (p + 14)).toNat

def getHeaderLength : ℕ := 12 + cc m p * 4 + hasextension m p * (4 + getExtLength m p * 4)

/-- The length of the header by RFC 3550: its contributing sources and, behind them, its extension. -/
def rfcHeaderLength : ℕ :=
  let extension := 12 + 4 * cc m p
  if hasextension m p = 1 then extension + 4 + 4 * (m.word (p + extension + 2)).toNat else extension

/-- The word the code takes for the length of the extension is that length. -/
def ExtensionInPlace : Prop :=
  hasextension m p = 0 ∨ cc m p = 0 ∨ m.word (p + 14) = m.word (p + 12 + 4 * cc m p + 2)

instance : Decidable (ExtensionInPlace m p) := inferInstanceAs (Decidable (_ ∨ _))

variable {m p}

private theorem hasextension_cases (m : Mem) (p : ℕ) : hasextension m p = 0 ∨ hasextension m p = 1 :=
  Nat.mod_two_eq_zero_or_one _

theorem getHeaderLength_eq_rfcHeaderLength_iff :
    getHeaderLength m p = rfcHeaderLength m p ↔ ExtensionInPlace m p := by
  rcases hasextension_cases m p with hx | hx
  · refine iff_of_true ?_ (Or.inl hx)
    rw [getHeaderLength, rfcHeaderLength, hx, if_neg Nat.zero_ne_one, Nat.mul_comm 4]
    omega
  · have hword : getHeaderLength m p = rfcHeaderLength m p ↔
        m.word (p + 14) = m.word (p + 12 + 4 * cc m p + 2) := by
      rw [getHeaderLength, rfcHeaderLength, hx, if_pos rfl, getExtLength, ← UInt16.toNat_inj,
        ← Nat.add_assoc p 12]
      omega
    rw [hword]
    constructor
    · exact fun he => Or.inr (Or.inr he)
    · intro hplace
      rcases hplace with h0 | h0 | he
      · exact absurd (hx.symm.trans h0) Nat.one_ne_zero
      · rw [h0]
      · exact he

theorem getSeqNumber_setPayloadType (aType : ℕ) :
    getSeqNumber (setPayloadType m p aType) p = getSeqNumber m p := by
  apply Mem.word_congr <;> exact Function.update_of_ne (by omega) _ _

theorem getSeqNumber_setTimestamp (v : UInt32) :
    getSeqNumber (setTimestamp m p v) p = getSeqNumber m p :=
  Mem.word_congr (Mem.setLong_of_lt (by omega)) (Mem.setLong_of_lt (by omega))

theorem getSeqNumber_setSSRC (v : UInt32) : getSeqNumber (setSSRC m p v) p = getSeqNumber m p :=
  Mem.word_congr (Mem.setLong_of_lt (by omega)) (Mem.setLong_of_lt (by omega))

theorem getSeqNumber_setSeqNumber (v : UInt16) : getSeqNumber (setSeqNumber m p v) p = v :=
  Mem.word_setWord

end RtpHeader

namespace RtcpHeader

variable (m : Mem) (p : ℕ)

def blockcount : ℕ := (m p).toNat % 32

def packettype : ℕ := (m (p + 1)).toNat

def getLength : ℕ := (m.word (p + 2)).toNat

def isFeedback : Bool := packettype m p = 201 || packettype m p = 206 || packettype m p = 205

def isRtcp : Bool := packettype m p = 200 || packettype m p = 204 || isFeedback m p

def getSeqnumCycles : UInt16 := m.word (p + 16)

def setSeqnumCycles (seqnumcycles : UInt16) : Mem := m.setWord (p + 16) seqnumcycles

def getHighestSeqnum : UInt16 := m.word (p + 18)

def setHighestSeqnum (highest : UInt16) : Mem := m.setWord (p + 18) highest

def getNackPid : UInt16 := m.word (p + 12)

def setNackPid (pid : UInt16) : Mem := m.setWord (p + 12) pid

/-- The header after its constructor; the report is not written. -/
def new (m : Mem) : Mem := fun i => if i = 0 then 0x80 else if i < 8 then 0 else m i

def getBlockCount : ℕ := blockcount m p

def setBlockCount (count : ℕ) : Mem :=
  Function.update m p (UInt8.ofNat ((m p).toNat / 32 * 32 + count % 32))

def setPacketType (pt : ℕ) : Mem := Function.update m (p + 1) (UInt8.ofNat pt)

def setLength (theLength : ℕ) : Mem := m.setWord (p + 2) (UInt16.ofNat theLength)

def getSSRC : ℕ := m.long (p + 4)

def setSSRC (aSsrc : ℕ) : Mem := m.setLong (p + 4) (UInt32.ofNat aSsrc)

def getSourceSSRC : ℕ := m.long (p + 8)

def setSourceSSRC (sourceSsrc : ℕ) : Mem := m.setLong (p + 8) (UInt32.ofNat sourceSsrc)

def getFractionLost : UInt8 := m (p + 12)

def setFractionLost (fractionLost : UInt8) : Mem := Function.update m (p + 12) fractionLost

/-- The sign of the field is shifted out again. -/
def getLostPackets : UInt32 :=
  UInt32.ofNat (65536 * (m (p + 13)).toNat + 256 * (m (p + 14)).toNat + (m (p + 15)).toNat)

def setTriple (a : ℕ) (v : ℕ) : Mem :=
  Function.update (Function.update (Function.update m a (UInt8.ofNat (v / 65536))) (a + 1)
    (UInt8.ofNat (v / 256))) (a + 2) (UInt8.ofNat v)

def setLostPackets (lost : UInt32) : Mem := setTriple m (p + 13) lost.toNat

def getJitter : UInt32 := UInt32.ofNat (m.long (p + 20))

def setJitter (jitter : UInt32) : Mem := m.setLong (p + 20) jitter

def getLastSr : UInt32 := UInt32.ofNat (m.long (p + 24))

def setLastSr (lastsr : UInt32) : Mem := m.setLong (p + 24) lastsr

def getDelaySinceLastSr : UInt32 := UInt32.ofNat (m.long (p + 28))

def setDelaySinceLastSr (delaylastsr : UInt32) : Mem := m.setLong (p + 28) delaylastsr

def getPacketsSent : ℕ := m.long (p + 20)

def getOctetsSent : ℕ := m.long (p + 24)

def getNtpTimestamp : ℕ := m.long (p + 8) * 2 ^ 32 + m.long (p + 12)

def getNackBlp : UInt16 := UInt16.ofNat ((m (p + 14)).toNat + 256 * (m (p + 15)).toNat)

def setNackBlp (blp : UInt16) : Mem :=
  Function.update (Function.update m (p + 14) (UInt8.ofNat blp.toNat)) (p + 15) (UInt8.ofNat (blp.toNat / 256))

/-- `strncmp(uniqueId, "REMB", 4)` is 0. -/
def isREMB : Bool :=
  m (p + 12) = 0x52 && m (p + 13) = 0x45 && m (p + 14) = 0x4D && m (p + 15) = 0x42

def setUniqueId : Mem := fun i =>
  if i = p + 12 then 0x52 else if i = p + 13 then 0x45 else if i = p + 14 then 0x4D else if i = p + 15 then 0x42 else m i

def setREMBNumSSRC (num : UInt8) : Mem := Function.update m (p + 16) num

def getBrExp : ℕ := (m (p + 17)).toNat / 4

def getBrMantis : ℕ := (m (p + 17)).toNat % 4 * 65536 + (m (p + 18)).toNat * 256 + (m (p + 19)).toNat

/-- The shift is one of 32-bit numbers; the processor takes its count modulo 32. -/
def bitrate : ℕ := getBrMantis m p * 2 ^ (getBrExp m p % 32) % 2 ^ 32

def rembExp (bitRate : ℕ) : ℕ → ℕ → ℕ
  | 0, _ => 64
  | turns + 1, max => if max ≤ bitRate then rembExp bitRate turns (max * 2 % 2 ^ 64) else 63 - turns

def setREMBBitRate (bitRate : ℕ) : Mem :=
  let exp := rembExp bitRate 64 0x3FFFF
  let mantissa := bitRate / 2 ^ exp
  setTriple m (p + 17) (mantissa % 2 ^ 18 + exp % 64 * 2 ^ 18)

def setREMBFeedSSRC (ssrc : ℕ) : Mem := m.setLong (p + 20) (UInt32.ofNat ssrc)

end RtcpHeader
end Sfup.Rtp
