import Sfup.Lib.Blocks
import Mathlib.Algebra.Group.Nat.Defs

/-! The message digest of `Client/md5.cpp`. -/
namespace Sfup.Client
open Sfup.Blocks

/-- The four words of `_state`. -/
structure MD5State where
  a : UInt32
  b : UInt32
  c : UInt32
  d : UInt32
deriving DecidableEq, Repr

/-- `MD5`. -/
structure MD5 where
  state : MD5State
  /-- The number of bits, low-order word first. -/
  count : UInt32 × UInt32
  buffer : Block UInt8 64
  /-- `_digest`. -/
  messageDigest : Block UInt8 16
  finished : Bool
deriving DecidableEq, Repr

namespace MD5

def s11 : UInt32 := 7
def s12 : UInt32 := 12
def s13 : UInt32 := 17
def s14 : UInt32 := 22
def s21 : UInt32 := 5
def s22 : UInt32 := 9
def s23 : UInt32 := 14
def s24 : UInt32 := 20
def s31 : UInt32 := 4
def s32 : UInt32 := 11
def s33 : UInt32 := 16
def s34 : UInt32 := 23
def s41 : UInt32 := 6
def s42 : UInt32 := 10
def s43 : UInt32 := 15
def s44 : UInt32 := 21

def basicF (x y z : UInt32) : UInt32 := (x &&& y) ||| (~~~x &&& z)

def basicG (x y z : UInt32) : UInt32 := (x &&& z) ||| (y &&& ~~~z)

def basicH (x y z : UInt32) : UInt32 := x ^^^ y ^^^ z

def basicI (x y z : UInt32) : UInt32 := y ^^^ (x ||| ~~~z)

def rotateLeft (x n : UInt32) : UInt32 := (x <<< n) ||| (x >>> (32 - n))

/-- The step of a round, with the round's function. -/
def step (fn : UInt32 → UInt32 → UInt32 → UInt32) (a b c d x s ac : UInt32) : UInt32 :=
  rotateLeft (a + (fn b c d + x + ac)) s + b

def ff : UInt32 → UInt32 → UInt32 → UInt32 → UInt32 → UInt32 → UInt32 → UInt32 := step basicF

def gg : UInt32 → UInt32 → UInt32 → UInt32 → UInt32 → UInt32 → UInt32 → UInt32 := step basicG

def hh : UInt32 → UInt32 → UInt32 → UInt32 → UInt32 → UInt32 → UInt32 → UInt32 := step basicH

def ii : UInt32 → UInt32 → UInt32 → UInt32 → UInt32 → UInt32 → UInt32 → UInt32 := step basicI

def encodeWord (w : UInt32) : List UInt8 :=
  [(w &&& 0xff).toUInt8, ((w >>> 8) &&& 0xff).toUInt8, ((w >>> 16) &&& 0xff).toUInt8, ((w >>> 24) &&& 0xff).toUInt8]

def encode (input : List UInt32) : List UInt8 := input.flatMap encodeWord

/-- The word of the four bytes at `4 * i`. -/
def decode (input : Block UInt8 64) (i : Fin 16) : UInt32 :=
  let byte (j : ℕ) (hj : j < 4) : UInt32 := (input.1.get ⟨4 * i + j, by have := input.2; omega⟩).toUInt32
  byte 0 (by decide) ||| (byte 1 (by decide) <<< 8) ||| (byte 2 (by decide) <<< 16) ||| (byte 3 (by decide) <<< 24)

def transform (state : MD5State) (block : Block UInt8 64) : MD5State :=
  let a := state.a
  let b := state.b
  let c := state.c
  let d := state.d
  let x := decode block
  let a := ff a b c d (x 0) s11 0xd76aa478
  let d := ff d a b c (x 1) s12 0xe8c7b756
  let c := ff c d a b (x 2) s13 0x242070db
  let b := ff b c d a (x 3) s14 0xc1bdceee
  let a := ff a b c d (x 4) s11 0xf57c0faf
  let d := ff d a b c (x 5) s12 0x4787c62a
  let c := ff c d a b (x 6) s13 0xa8304613
  let b := ff b c d a (x 7) s14 0xfd469501
  let a := ff a b c d (x 8) s11 0x698098d8
  let d := ff d a b c (x 9) s12 0x8b44f7af
  let c := ff c d a b (x 10) s13 0xffff5bb1
  let b := ff b c d a (x 11) s14 0x895cd7be
  let a := ff a b c d (x 12) s11 0x6b901122
  let d := ff d a b c (x 13) s12 0xfd987193
  let c := ff c d a b (x 14) s13 0xa679438e
  let b := ff b c d a (x 15) s14 0x49b40821
  let a := gg a b c d (x 1) s21 0xf61e2562
  let d := gg d a b c (x 6) s22 0xc040b340
  let c := gg c d a b (x 11) s23 0x265e5a51
  let b := gg b c d a (x 0) s24 0xe9b6c7aa
  let a := gg a b c d (x 5) s21 0xd62f105d
  let d := gg d a b c (x 10) s22 0x2441453
  let c := gg c d a b (x 15) s23 0xd8a1e681
  let b := gg b c d a (x 4) s24 0xe7d3fbc8
  let a := gg a b c d (x 9) s21 0x21e1cde6
  let d := gg d a b c (x 14) s22 0xc33707d6
  let c := gg c d a b (x 3) s23 0xf4d50d87
  let b := gg b c d a (x 8) s24 0x455a14ed
  let a := gg a b c d (x 13) s21 0xa9e3e905
  let d := gg d a b c (x 2) s22 0xfcefa3f8
  let c := gg c d a b (x 7) s23 0x676f02d9
  let b := gg b c d a (x 12) s24 0x8d2a4c8a
  let a := hh a b c d (x 5) s31 0xfffa3942
  let d := hh d a b c (x 8) s32 0x8771f681
  let c := hh c d a b (x 11) s33 0x6d9d6122
  let b := hh b c d a (x 14) s34 0xfde5380c
  let a := hh a b c d (x 1) s31 0xa4beea44
  let d := hh d a b c (x 4) s32 0x4bdecfa9
  let c := hh c d a b (x 7) s33 0xf6bb4b60
  let b := hh b c d a (x 10) s34 0xbebfbc70
  let a := hh a b c d (x 13) s31 0x289b7ec6
  let d := hh d a b c (x 0) s32 0xeaa127fa
  let c := hh c d a b (x 3) s33 0xd4ef3085
  let b := hh b c d a (x 6) s34 0x4881d05
  let a := hh a b c d (x 9) s31 0xd9d4d039
  let d := hh d a b c (x 12) s32 0xe6db99e5
  let c := hh c d a b (x 15) s33 0x1fa27cf8
  let b := hh b c d a (x 2) s34 0xc4ac5665
  let a := ii a b c d (x 0) s41 0xf4292244
  let d := ii d a b c (x 7) s42 0x432aff97
  let c := ii c d a b (x 14) s43 0xab9423a7
  let b := ii b c d a (x 5) s44 0xfc93a039
  let a := ii a b c d (x 12) s41 0x655b59c3
  let d := ii d a b c (x 3) s42 0x8f0ccc92
  let c := ii c d a b (x 10) s43 0xffeff47d
  let b := ii b c d a (x 1) s44 0x85845dd1
  let a := ii a b c d (x 8) s41 0x6fa87e4f
  let d := ii d a b c (x 15) s42 0xfe2ce6e0
  let c := ii c d a b (x 6) s43 0xa3014314
  let b := ii b c d a (x 13) s44 0x4e0811a1
  let a := ii a b c d (x 4) s41 0xf7537e82
  let d := ii d a b c (x 11) s42 0xbd3af235
  let c := ii c d a b (x 2) s43 0x2ad7d2bb
  let b := ii b c d a (x 9) s44 0xeb86d391
  ⟨state.a + a, state.b + b, state.c + c, state.d + d⟩

/-- The `PADDING`. -/
def padding : List UInt8 := 0x80 :: List.replicate 63 0

def reset (m : MD5) : MD5 :=
  { m with finished := false, count := (0, 0), state := ⟨0x67452301, 0xefcdab89, 0x98badcfe, 0x10325476⟩ }

/-- `memcpy` to an offset of an array. `none` is a copy that leaves the array. -/
def copyTo {n : ℕ} (dst : Block UInt8 n) (index : ℕ) (src : List UInt8) : Option (Block UInt8 n) :=
  if hin : index + src.length ≤ n then
    some ⟨dst.1.take index ++ src ++ dst.1.drop (index + src.length), by have := dst.2; simp; omega⟩
  else none

/-- The loop of `update` from `i` on. `none` is a block that leaves the input: `i + 63` wraps at 32 bits. -/
def transformLoop (input : List UInt8) : ℕ → ℕ → MD5State → Option (ℕ × MD5State)
  | 0, _, _ => none
  | fuel + 1, i, state =>
    if (i + 63) % 2 ^ 32 < input.length then
      if hin : i + 64 ≤ input.length then
        transformLoop input fuel (i + 64) (transform state (slice 64 input i hin))
      else none
    else some (i, state)

def index (m : MD5) : ℕ := ((m.count.1 >>> 3) &&& 0x3f).toNat

def addCount (count : UInt32 × UInt32) (length : UInt32) : UInt32 × UInt32 :=
  let low := count.1 + (length <<< 3)
  let high := if low < length <<< 3 then count.2 + 1 else count.2
  (low, high + (length >>> 29))

/-- `update(input, length)`, with `length` that of the list. -/
def update (m : MD5) (input : List UInt8) : Option MD5 := do
  let index := m.index
  let count := addCount m.count (UInt32.ofNat input.length)
  let partLen := 64 - index
  if partLen ≤ input.length then
    let buffer ← copyTo m.buffer index (input.take partLen)
    let (i, state) ← transformLoop input (input.length + 1) partLen (transform m.state buffer)
    let buffer ← copyTo buffer 0 (input.drop i)
    return { m with finished := false, count, state, buffer }
  let buffer ← copyTo m.buffer index input
  return { m with finished := false, count, buffer }

def final (m : MD5) : Option MD5 := do
  let bits := encode [m.count.1, m.count.2]
  let padLen := if m.index < 56 then 56 - m.index else 120 - m.index
  let m' ← m.update (padding.take padLen)
  let m' ← m'.update bits
  return { m' with
    messageDigest := ⟨encode [m'.state.a, m'.state.b, m'.state.c, m'.state.d], rfl⟩
    state := m.state
    count := m.count }

/-- `digest`. The calls of `update` in `final` clear `_finished` again. -/
def digest (m : MD5) : Option (Block UInt8 16 × MD5) := do
  let m ← if m.finished then some m else final { m with finished := true }
  return (m.messageDigest, m)

def hex : List Char := "0123456789abcdef".toList

def bytesToHexString (input : List UInt8) : String :=
  String.ofList (input.flatMap fun t =>
    [hex.get ⟨t.toNat / 16, Nat.div_lt_of_lt_mul t.toNat_lt⟩, hex.get ⟨t.toNat % 16, Nat.mod_lt _ (by decide)⟩])

def toString (m : MD5) : Option (String × MD5) := do
  let (digest, m) ← m.digest
  return (bytesToHexString digest.1, m)

end MD5
end Sfup.Client
