import Sfup.Lib.Ring
import Mathlib.Logic.Function.Basic
import Mathlib.Algebra.Group.Nat.Defs

/-! The ring buffer of `Client/ByteBuffer.cpp`. Every function runs in `Option`: `none` is a failed
`ASSERT` or `VERIFY`, or a copy that leaves the block `m_Buffer`. -/
namespace Sfup.Client
open Sfup.Ring

/-- `size_t` has 32 bits in the Win32 build. -/
def sizeT : ℕ := 2 ^ 32

/-- Addition of two `size_t` values. -/
def sizeAdd (a b : ℕ) : ℕ := (a + b) % sizeT

/-- `ASSERT` and `VERIFY`. -/
def assert (p : Prop) [Decidable p] : Option Unit := if p then some () else none

/-- `cByteBuffer`: the block `m_Buffer`, its size and the three cursors into it. -/
structure ByteBuffer where
  buffer : List UInt8
  bufferSize : ℕ
  dataStart : ℕ
  writePos : ℕ
  readPos : ℕ
deriving DecidableEq, Repr

namespace ByteBuffer

/-- The constructor. `fresh` gives the bytes `new char[]` happens to return. One byte more than
requested is allocated, so that a full buffer differs from an empty one. -/
def new (aBufferSize : UInt32) (fresh : ℕ → UInt8) : ByteBuffer :=
  let bufferSize := sizeAdd aBufferSize.toNat 1
  { buffer := (List.range bufferSize).map fresh, bufferSize, dataStart := 0, writePos := 0, readPos := 0 }

def checkValid (b : ByteBuffer) : Option Unit := do
  assert (b.readPos < b.bufferSize)
  assert (b.writePos < b.bufferSize)

/-- The arguments of `memset` are swapped in the source, so the block keeps its bytes. -/
def clearAll (b : ByteBuffer) : ByteBuffer :=
  { b with dataStart := 0, writePos := 0, readPos := 0 }

/-- The `ASSERT`s keep the `size_t` subtractions from wrapping. -/
def getFreeSpace (b : ByteBuffer) : Option ℕ := do
  b.checkValid
  if b.dataStart ≤ b.writePos then
    assert (b.writePos ≤ b.bufferSize)
    assert (1 ≤ b.bufferSize - b.writePos + b.dataStart)
    return b.bufferSize - b.writePos + b.dataStart - 1
  assert (b.writePos ≤ b.bufferSize)
  assert (1 ≤ b.bufferSize - b.writePos)
  return b.dataStart - b.writePos - 1

def getUsedSpace (b : ByteBuffer) : Option ℕ := do
  b.checkValid
  let free ← b.getFreeSpace
  assert (free ≤ b.bufferSize)
  assert (1 ≤ b.bufferSize - free)
  return b.bufferSize - free - 1

def getReadableSpace (b : ByteBuffer) : Option ℕ := do
  b.checkValid
  if b.writePos < b.readPos then
    assert (b.readPos ≤ b.bufferSize)
    return b.bufferSize - b.readPos + b.writePos
  assert (b.readPos ≤ b.writePos)
  return b.writePos - b.readPos

def canReadBytes (b : ByteBuffer) (aCount : ℕ) : Option Bool := do
  b.checkValid
  return decide (aCount ≤ (← b.getReadableSpace))

def canWriteBytes (b : ByteBuffer) (aCount : ℕ) : Option Bool := do
  b.checkValid
  return decide (aCount ≤ (← b.getFreeSpace))

/-- `Write(a_Bytes, a_Count)`, with `a_Count` the length of the list. -/
def write (b : ByteBuffer) (aBytes : List UInt8) : Option (Bool × ByteBuffer) := do
  b.checkValid
  let curFreeSpace ← b.getFreeSpace
  let curReadableSpace ← b.getReadableSpace
  if curFreeSpace < aBytes.length then return (false, b)
  assert (b.writePos ≤ b.bufferSize)
  let tillEnd := b.bufferSize - b.writePos
  let (b₁, rest, writtenBytes) ←
    if tillEnd ≤ aBytes.length then do
      -- need to wrap around the ring buffer end
      if 0 < tillEnd then do
        let mem ← store? b.buffer b.writePos (aBytes.take tillEnd)
        pure ({ b with buffer := mem, writePos := 0 }, aBytes.drop tillEnd, tillEnd)
      else pure ({ b with writePos := 0 }, aBytes, 0)
    else pure (b, aBytes, 0)
  let (b₂, writtenBytes) ←
    if 0 < rest.length then do
      let mem ← store? b₁.buffer b₁.writePos rest
      pure ({ b₁ with buffer := mem, writePos := sizeAdd b₁.writePos rest.length },
        writtenBytes + rest.length)
    else pure (b₁, writtenBytes)
  let newFreeSpace ← b₂.getFreeSpace
  assert (newFreeSpace = curFreeSpace - writtenBytes)
  let newReadableSpace ← b₂.getReadableSpace
  assert (newReadableSpace = curReadableSpace + writtenBytes)
  return (true, b₂)

/-- `ReadBuf`: the bytes copied to `a_Buffer`, or `none` when the call returns false. -/
def readBuf (b : ByteBuffer) (aCount : ℕ) : Option (Option (List UInt8) × ByteBuffer) := do
  b.checkValid
  if !(← b.canReadBytes aCount) then return (none, b)
  assert (b.readPos ≤ b.bufferSize)
  let bytesToEndOfBuffer := b.bufferSize - b.readPos
  let (dst, count, b₁) ←
    if bytesToEndOfBuffer ≤ aCount then do
      -- reading across the ring buffer end
      if 0 < bytesToEndOfBuffer then do
        let part ← load? b.buffer b.readPos bytesToEndOfBuffer
        pure (part, aCount - bytesToEndOfBuffer, { b with readPos := 0 })
      else pure ([], aCount, { b with readPos := 0 })
    else pure ([], aCount, b)
  if 0 < count then
    let part ← load? b₁.buffer b₁.readPos count
    return (some (dst ++ part), { b₁ with readPos := sizeAdd b₁.readPos count })
  return (some dst, b₁)

/-- `WriteBuf` copies without testing for an empty first part. -/
def writeBuf (b : ByteBuffer) (aBuffer : List UInt8) : Option (Bool × ByteBuffer) := do
  b.checkValid
  if !(← b.canWriteBytes aBuffer.length) then return (false, b)
  assert (b.readPos ≤ b.bufferSize)
  let bytesToEndOfBuffer := b.bufferSize - b.writePos
  let (b₁, rest) ←
    if bytesToEndOfBuffer ≤ aBuffer.length then do
      let mem ← store? b.buffer b.writePos (aBuffer.take bytesToEndOfBuffer)
      pure ({ b with buffer := mem, writePos := 0 }, aBuffer.drop bytesToEndOfBuffer)
    else pure (b, aBuffer)
  if 0 < rest.length then
    let mem ← store? b₁.buffer b₁.writePos rest
    return (true, { b₁ with buffer := mem, writePos := sizeAdd b₁.writePos rest.length })
  return (true, b₁)

/-- `ReadString`: the new value of `a_String`, or `none` when the call returns false. -/
def readString (b : ByteBuffer) (aCount : ℕ) : Option (Option (List UInt8) × ByteBuffer) := do
  b.checkValid
  if !(← b.canReadBytes aCount) then return (none, b)
  assert (b.readPos ≤ b.bufferSize)
  let bytesToEndOfBuffer := b.bufferSize - b.readPos
  let (aString, count, b₁) ←
    if bytesToEndOfBuffer ≤ aCount then do
      if 0 < bytesToEndOfBuffer then do
        let part ← load? b.buffer b.readPos bytesToEndOfBuffer
        assert (bytesToEndOfBuffer ≤ aCount)
        pure (part, aCount - bytesToEndOfBuffer, { b with readPos := 0 })
      else pure ([], aCount, { b with readPos := 0 })
    else pure ([], aCount, b)
  if 0 < count then
    let part ← load? b₁.buffer b₁.readPos count
    return (some (aString ++ part), { b₁ with readPos := sizeAdd b₁.readPos count })
  return (some aString, b₁)

def advanceReadPos (b : ByteBuffer) (aCount : ℕ) : Option ByteBuffer := do
  b.checkValid
  let readPos := sizeAdd b.readPos aCount
  return { b with readPos := if b.bufferSize ≤ readPos then readPos - b.bufferSize else readPos }

def skipRead (b : ByteBuffer) (aCount : ℕ) : Option (Bool × ByteBuffer) := do
  b.checkValid
  if !(← b.canReadBytes aCount) then return (false, b)
  return (true, ← b.advanceReadPos aCount)

def readAll (b : ByteBuffer) : Option (Option (List UInt8) × ByteBuffer) := do
  b.checkValid
  b.readString (← b.getReadableSpace)

def commitRead (b : ByteBuffer) : Option ByteBuffer := do
  b.checkValid
  return { b with dataStart := b.readPos }

def resetRead (b : ByteBuffer) : Option ByteBuffer := do
  b.checkValid
  return { b with readPos := b.dataStart }

end ByteBuffer

/-- The `cByteBuffer` objects of a program, by name. Two parameters of one call may name the
same object. -/
abbrev Heap (ι : Type) := ι → ByteBuffer

namespace Heap

variable {ι : Type} [DecidableEq ι]

/-- The loop of `ReadToByteBuffer`, which moves at most `sizeof(buf)` bytes a turn. `fuel` bounds
the number of turns; every turn moves at least one byte. -/
def copyLoop (src dst : ι) : ℕ → Heap ι → ℕ → Option (Heap ι)
  | _, h, 0 => some h
  | 0, _, _ + 1 => none
  | fuel + 1, h, k + 1 => do
    let aNumBytes := k + 1
    let num := if 1024 < aNumBytes then 1024 else aNumBytes
    let (buf, b) ← (h src).readBuf num
    let bytes ← buf
    let h := Function.update h src b
    let (ok, b) ← (h dst).write bytes
    assert ok
    assert (num ≤ aNumBytes)
    copyLoop src dst fuel (Function.update h dst b) (aNumBytes - num)

def readToByteBuffer (h : Heap ι) (src aDst : ι) (aNumBytes : ℕ) : Option (Bool × Heap ι) := do
  if !(← (h aDst).canWriteBytes aNumBytes) then return (false, h)
  if !(← (h src).canReadBytes aNumBytes) then return (false, h)
  return (true, ← copyLoop src aDst aNumBytes h aNumBytes)

end Heap

/-- `ReadToByteBuffer` between two objects that are not the same. -/
def ByteBuffer.readToByteBuffer (b aDst : ByteBuffer) (aNumBytes : ℕ) :
    Option (Bool × ByteBuffer × ByteBuffer) := do
  let (ok, h) ← Heap.readToByteBuffer (fun i => if i then b else aDst) true false aNumBytes
  return (ok, h true, h false)

end Sfup.Client
