import Sfup.Client.ByteBuffer

/-! What a `cByteBuffer` stands for: the bytes read but not committed, followed by the unread ones.
One specification per operation; later modules use these and do not unfold the operations. -/
namespace Sfup.Client
open Sfup.Ring

@[simp] theorem assert_pos {p : Prop} [Decidable p] (h : p) : assert p = some () := if_pos h

@[simp] theorem assert_neg {p : Prop} [Decidable p] (h : ¬p) : assert p = none := if_neg h

theorem sizeAdd_of_lt {a b : ℕ} (h : a + b < sizeT) : sizeAdd a b = a + b := Nat.mod_eq_of_lt h

namespace ByteBuffer

/-- The read cursor moved over `n` cells. -/
def advanced (b : ByteBuffer) (n : ℕ) : ByteBuffer :=
  { b with readPos := (b.readPos + n) % b.bufferSize }

/-- The block after storing `src` split at its end. -/
private def wrapped (b : ByteBuffer) (src : List UInt8) : List UInt8 :=
  src.drop (b.bufferSize - b.writePos) ++
    (b.buffer.take b.writePos ++ src.take (b.bufferSize - b.writePos)).drop
      (src.length - (b.bufferSize - b.writePos))

/-- The block after storing `src` below its end. -/
private def straight (b : ByteBuffer) (src : List UInt8) : List UInt8 :=
  b.buffer.take b.writePos ++ src ++ b.buffer.drop (b.writePos + src.length)

/-- `src` stored at the write cursor, around the end of the block if it does not fit below. -/
def stored (b : ByteBuffer) (src : List UInt8) : ByteBuffer :=
  if b.bufferSize - b.writePos ≤ src.length then
    { b with buffer := wrapped b src, writePos := src.length - (b.bufferSize - b.writePos) }
  else { b with buffer := straight b src, writePos := b.writePos + src.length }

@[simp] theorem advanced_dataStart (b : ByteBuffer) (n : ℕ) :
    (b.advanced n).dataStart = b.dataStart := rfl

@[simp] theorem stored_dataStart (b : ByteBuffer) (src : List UInt8) :
    (b.stored src).dataStart = b.dataStart := by
  unfold stored; split_ifs <;> rfl

/-- Two stores below the end of the block are one store of both. -/
theorem stored_stored {b : ByteBuffer} (hl : b.buffer.length = b.bufferSize) {x y : List UInt8}
    (h : b.writePos + (x.length + y.length) < b.bufferSize) :
    (b.stored x).stored y = b.stored (x ++ y) := by
  have hx : ¬b.bufferSize - b.writePos ≤ x.length := by omega
  have hy : ¬b.bufferSize - (b.writePos + x.length) ≤ y.length := by omega
  have hxy : ¬b.bufferSize - b.writePos ≤ x.length + y.length := by omega
  have ht : (b.buffer.take b.writePos).length = b.writePos := by simp; omega
  have hp : (b.buffer.take b.writePos ++ x).length = b.writePos + x.length := by
    rw [List.length_append, ht]
  simp only [stored, straight, hx, hy, hxy, if_false, List.length_append, Nat.add_assoc, mk.injEq,
    and_true]
  rw [← hp, List.take_left, List.drop_append, List.drop_drop, hp,
    List.drop_of_length_le (by rw [hp]; omega)]
  simp only [List.append_assoc, List.nil_append]
  rw [show b.writePos + x.length + (b.writePos + (x.length + y.length) - (b.writePos + x.length)) =
    b.writePos + (x.length + y.length) by omega]

@[simp] theorem advanced_advanced (b : ByteBuffer) (k n : ℕ) :
    (b.advanced k).advanced n = b.advanced (k + n) := by
  simp [advanced, Nat.add_assoc]

/-- `b` has room for `size` bytes and holds `read` (not committed yet) and then `unread`. -/
structure Rep (b : ByteBuffer) (size : ℕ) (read unread : List UInt8) : Prop where
  bufferSize : b.bufferSize = size + 1
  bound : size + 1 < sizeT
  length : b.buffer.length = size + 1
  dataStart : b.dataStart < size + 1
  readPos : b.readPos = (b.dataStart + read.length) % (size + 1)
  writePos : b.writePos = (b.dataStart + (read.length + unread.length)) % (size + 1)
  fits : read.length + unread.length ≤ size
  cells : ∃ free, b.buffer.rotate b.dataStart = read ++ unread ++ free

namespace Rep

variable {b : ByteBuffer} {size : ℕ} {read unread : List UInt8}

theorem readPos_lt (h : Rep b size read unread) : b.readPos < size + 1 := by
  rw [h.readPos]; exact Nat.mod_lt _ (by omega)

theorem writePos_lt (h : Rep b size read unread) : b.writePos < size + 1 := by
  rw [h.writePos]; exact Nat.mod_lt _ (by omega)

theorem readPos_eq (h : Rep b size read unread) :
    b.readPos = if b.dataStart + read.length < size + 1 then b.dataStart + read.length
      else b.dataStart + read.length - (size + 1) := by
  rw [h.readPos, add_mod_eq_ite h.dataStart (by have := h.fits; omega)]

theorem writePos_eq (h : Rep b size read unread) :
    b.writePos = if b.dataStart + (read.length + unread.length) < size + 1
      then b.dataStart + (read.length + unread.length)
      else b.dataStart + (read.length + unread.length) - (size + 1) := by
  rw [h.writePos, add_mod_eq_ite h.dataStart (by have := h.fits; omega)]

theorem checkValid (h : Rep b size read unread) : b.checkValid = some () := by
  have hr := h.readPos_lt
  have hw := h.writePos_lt
  have hb := h.bufferSize
  simp [ByteBuffer.checkValid, assert_pos (show b.readPos < b.bufferSize by omega),
    assert_pos (show b.writePos < b.bufferSize by omega)]

theorem getFreeSpace (h : Rep b size read unread) :
    b.getFreeSpace = some (size - (read.length + unread.length)) := by
  have hw := h.writePos_eq
  have hd := h.dataStart
  have hf := h.fits
  have hv := h.checkValid
  have hb := h.bufferSize
  unfold ByteBuffer.getFreeSpace
  simp only [hv, hb, Option.pure_def, Option.bind_eq_bind, Option.bind_some]
  split_ifs at hw ⊢ with h1 h2 h2
  all_goals
    rw [assert_pos (by omega), Option.bind_some, assert_pos (by omega), Option.bind_some]
    congr 1
    omega

theorem getReadableSpace (h : Rep b size read unread) :
    b.getReadableSpace = some unread.length := by
  have hw := h.writePos_eq
  have hr := h.readPos_eq
  have hd := h.dataStart
  have hf := h.fits
  have hv := h.checkValid
  have hb := h.bufferSize
  unfold ByteBuffer.getReadableSpace
  simp only [hv, hb, Option.pure_def, Option.bind_eq_bind, Option.bind_some]
  split_ifs at hw hr ⊢
  all_goals
    first
    | omega
    | rw [assert_pos (by omega), Option.bind_some]; congr 1; omega

theorem getUsedSpace (h : Rep b size read unread) :
    b.getUsedSpace = some (read.length + unread.length) := by
  have hb := h.bufferSize
  have hf := h.fits
  unfold ByteBuffer.getUsedSpace
  simp only [h.checkValid, h.getFreeSpace, hb, Option.pure_def, Option.bind_eq_bind, Option.bind_some]
  rw [assert_pos (by omega), Option.bind_some, assert_pos (by omega), Option.bind_some]
  congr 1
  omega

theorem canReadBytes (h : Rep b size read unread) (n : ℕ) :
    b.canReadBytes n = some (decide (n ≤ unread.length)) := by
  simp [ByteBuffer.canReadBytes, h.checkValid, h.getReadableSpace]

theorem canWriteBytes (h : Rep b size read unread) (n : ℕ) :
    b.canWriteBytes n = some (decide (read.length + unread.length + n ≤ size)) := by
  have hf := h.fits
  simp only [ByteBuffer.canWriteBytes, h.checkValid, h.getFreeSpace, Option.pure_def,
    Option.bind_eq_bind, Option.bind_some, Option.some.injEq, decide_eq_decide]
  omega

theorem advanced_zero (h : Rep b size read unread) : b.advanced 0 = b := by
  have hp : b.readPos % b.bufferSize = b.readPos := by
    rw [h.bufferSize]
    exact Nat.mod_eq_of_lt h.readPos_lt
  simp [advanced, hp]

theorem rotate_readPos (h : Rep b size read unread) :
    ∃ rest, b.buffer.rotate b.readPos = unread ++ rest := by
  obtain ⟨free, hc⟩ := h.cells
  refine ⟨free ++ read, ?_⟩
  rw [h.readPos, ← h.length, List.rotate_mod, ← List.rotate_rotate, hc, List.append_assoc,
    List.rotate_append_length_eq, List.append_assoc]

theorem rotate_writePos (h : Rep b size read unread) :
    ∃ free, b.buffer.rotate b.writePos = free ++ (read ++ unread) ∧
      free.length = size + 1 - (read.length + unread.length) := by
  obtain ⟨free, hc⟩ := h.cells
  have hl := congrArg List.length hc
  have hlen := h.length
  simp only [List.length_rotate, List.length_append] at hl
  refine ⟨free, ?_, by omega⟩
  have hr := List.rotate_append_length_eq (read ++ unread) free
  rw [List.length_append] at hr
  rw [h.writePos, ← h.length, List.rotate_mod, ← List.rotate_rotate, hc, hr]

theorem take_unread (h : Rep b size read unread) {n : ℕ} (hn : n ≤ unread.length) :
    (b.buffer.rotate b.readPos).take n = unread.take n := by
  obtain ⟨rest, hr⟩ := h.rotate_readPos
  rw [hr, List.take_append_of_le_length hn]

/-- Advancing the read cursor over `n` unread bytes. -/
theorem advance (h : Rep b size read unread) {n : ℕ} (hn : n ≤ unread.length) :
    Rep (b.advanced n) size (read ++ unread.take n) (unread.drop n) := by
  have hf := h.fits
  obtain ⟨free, hc⟩ := h.cells
  have hl : (read ++ unread.take n).length = read.length + n := by simp [hn]
  have hd : (unread.drop n).length = unread.length - n := List.length_drop
  refine ⟨h.bufferSize, h.bound, h.length, h.dataStart, ?_, ?_, ?_, free, ?_⟩
  · rw [hl, advanced_dataStart, ← Nat.add_assoc, ← Nat.mod_add_mod, ← h.readPos]
    exact congrArg ((b.readPos + n) % ·) h.bufferSize
  · rw [hl, hd, show read.length + n + (unread.length - n) = read.length + unread.length by omega]
    exact h.writePos
  · rw [hl, hd]; omega
  · rw [List.append_assoc read (unread.take n), List.take_append_drop]
    exact hc

/-- Storing `src` from the write cursor on, whatever the block does at its end. -/
theorem append (h : Rep b size read unread) {src mem : List UInt8}
    (hs : read.length + unread.length + src.length ≤ size)
    (hlen : mem.length = size + 1)
    (hm : mem.rotate b.writePos = src ++ (b.buffer.rotate b.writePos).drop src.length) :
    Rep { b with buffer := mem, writePos := (b.writePos + src.length) % b.bufferSize } size
      read (unread ++ src) := by
  obtain ⟨free, hfree, hfl⟩ := h.rotate_writePos
  have hf := h.fits
  refine ⟨h.bufferSize, h.bound, hlen, h.dataStart, h.readPos, ?_, by simp; omega,
    free.drop src.length, ?_⟩
  · dsimp only
    rw [h.bufferSize, h.writePos, Nat.mod_add_mod, List.length_append, ← Nat.add_assoc read.length,
      Nat.add_assoc b.dataStart]
  · -- the write cursor is `free.length` cells before the data start
    have hback : (b.writePos + free.length) % (size + 1) = b.dataStart := by
      rw [h.writePos, hfl, Nat.mod_add_mod,
        show b.dataStart + (read.length + unread.length) +
          (size + 1 - (read.length + unread.length)) = b.dataStart + (size + 1) by omega,
        Nat.add_mod_right, Nat.mod_eq_of_lt h.dataStart]
    have hmem : mem.rotate b.writePos = (src ++ free.drop src.length) ++ (read ++ unread) := by
      rw [hm, hfree, List.drop_append_of_le_length (by omega), List.append_assoc]
    have hl : (src ++ free.drop src.length).length = free.length := by simp; omega
    have hr := List.rotate_append_length_eq (src ++ free.drop src.length) (read ++ unread)
    rw [hl] at hr
    dsimp only
    rw [← hback, ← hlen, List.rotate_mod, ← List.rotate_rotate, hmem, hr]
    simp only [List.append_assoc]

/-- Both halves of a read split at the block end. -/
private theorem load_across (h : Rep b size read unread) {n : ℕ} (hn : n ≤ unread.length) :
    (b.bufferSize - b.readPos ≤ n →
      load? b.buffer b.readPos (b.bufferSize - b.readPos) = some (b.buffer.drop b.readPos) ∧
      load? b.buffer 0 (n - (b.bufferSize - b.readPos)) =
        some (b.buffer.take (n - (b.bufferSize - b.readPos))) ∧
      b.buffer.drop b.readPos ++ b.buffer.take (n - (b.bufferSize - b.readPos)) = unread.take n) ∧
    (n < b.bufferSize - b.readPos → load? b.buffer b.readPos n = some (unread.take n)) := by
  have hl := h.length
  have hp := h.readPos_lt
  have hf := h.fits
  have hb := h.bufferSize
  constructor
  · intro hw
    refine ⟨?_, ?_, ?_⟩
    · rw [load?_eq_some (by omega), List.take_of_length_le (by simp [hl, hb])]
    · rw [load?_eq_some (by omega), List.drop_zero]
    · rw [← h.take_unread hn, take_rotate_of_ge (by omega) (by omega) (by omega), hl, hb]
  · intro hw
    rw [load?_eq_some (by omega), ← h.take_unread hn, take_rotate_of_lt (by omega) (by omega)]

/-- The cursor after a read or write of `n < b.bufferSize` cells that may wrap. -/
private theorem cursor_cases {n d k : ℕ} (hd : d < n) (hk : k < n) :
    (n - d ≤ k → k - (n - d) = (d + k) % n) ∧ (k < n - d → d + k = (d + k) % n) := by
  have h := cursor_add hd hk
  constructor
  · intro hw; rwa [if_pos hw] at h
  · intro hw; rwa [if_neg (by omega)] at h

theorem readBuf_of_le (h : Rep b size read unread) {n : ℕ} (hn : n ≤ unread.length) :
    b.readBuf n = some (some (unread.take n), b.advanced n) := by
  have hp := h.readPos_lt
  have hb := h.bufferSize
  have hf := h.fits
  have hT := h.bound
  obtain ⟨hwrap, hflat⟩ := h.load_across hn
  obtain ⟨hcw, hcf⟩ := cursor_cases (hb ▸ hp) (show n < b.bufferSize by omega)
  unfold ByteBuffer.readBuf advanced
  simp only [h.checkValid, h.canReadBytes, hn, decide_true, Option.pure_def,
    Option.bind_eq_bind, Option.bind_some, Bool.not_true, Bool.false_eq_true, if_false]
  rw [assert_pos (by omega), Option.bind_some]
  by_cases hw : b.bufferSize - b.readPos ≤ n
  · obtain ⟨h1, h2, h3⟩ := hwrap hw
    rw [if_pos hw, if_pos (by omega), h1, ← hcw hw, ← h3]
    simp only [Option.bind_some]
    split_ifs with h0
    · rw [h2, Option.bind_some, sizeAdd_of_lt (by omega), Nat.zero_add]
    · rw [show n - (b.bufferSize - b.readPos) = 0 by omega, List.take_zero, List.append_nil]
  · rw [if_neg hw, ← hcf (by omega)]
    simp only [List.nil_append]
    split_ifs with h0
    · rw [hflat (by omega), Option.bind_some, sizeAdd_of_lt (by omega)]
    · rw [show n = 0 by omega, List.take_zero, Nat.add_zero]

theorem readBuf_of_gt (h : Rep b size read unread) {n : ℕ} (hn : unread.length < n) :
    b.readBuf n = some (none, b) := by
  simp [ByteBuffer.readBuf, h.checkValid, h.canReadBytes, Nat.not_le.mpr hn]

/-- `ReadString` and `ReadBuf` copy the same bytes and leave the same buffer. -/
theorem readString_eq_readBuf (b : ByteBuffer) (n : ℕ) : b.readString n = b.readBuf n := by
  unfold ByteBuffer.readString ByteBuffer.readBuf
  by_cases hw : b.bufferSize - b.readPos ≤ n
  · simp only [if_pos hw, assert_pos hw, Option.bind_eq_bind, Option.bind_some]
  · simp only [if_neg hw]

theorem readString_of_le (h : Rep b size read unread) {n : ℕ} (hn : n ≤ unread.length) :
    b.readString n = some (some (unread.take n), b.advanced n) := by
  rw [readString_eq_readBuf]
  exact h.readBuf_of_le hn

theorem readString_of_gt (h : Rep b size read unread) {n : ℕ} (hn : unread.length < n) :
    b.readString n = some (none, b) := by
  rw [readString_eq_readBuf]
  exact h.readBuf_of_gt hn

theorem readAll (h : Rep b size read unread) :
    b.readAll = some (some unread, b.advanced unread.length) := by
  simp [ByteBuffer.readAll, h.checkValid, h.getReadableSpace, h.readString_of_le le_rfl]

/-- The bytes a buffer holds are the ones `ReadAll` gives. -/
theorem unread_unique {read' unread' : List UInt8} (h : Rep b size read unread)
    (h' : Rep b size read' unread') : unread = unread' := by
  have hr := h.readAll.symm.trans h'.readAll
  simp only [Option.some.injEq, Prod.mk.injEq] at hr
  exact hr.1

private theorem append_wrapped (h : Rep b size read unread) {src : List UInt8}
    (hs : read.length + unread.length + src.length ≤ size)
    (hw : b.bufferSize - b.writePos ≤ src.length) :
    Rep { b with buffer := wrapped b src, writePos := src.length - (b.bufferSize - b.writePos) } size
      read (unread ++ src) := by
  have hp := h.writePos_lt
  have hb := h.bufferSize
  have hl := h.length
  rw [(cursor_cases (hb ▸ hp) (show src.length < b.bufferSize by omega)).1 hw]
  refine h.append hs ?_ ?_
  · simp [wrapped]; omega
  · have hr := rotate_store_wrap (show b.writePos ≤ b.buffer.length by omega)
      (show b.buffer.length - b.writePos ≤ src.length by omega) (by omega)
    rwa [hl, ← hb] at hr

private theorem append_straight (h : Rep b size read unread) {src : List UInt8}
    (hs : read.length + unread.length + src.length ≤ size)
    (hw : src.length < b.bufferSize - b.writePos) :
    Rep { b with buffer := straight b src, writePos := b.writePos + src.length } size
      read (unread ++ src) := by
  have hp := h.writePos_lt
  have hb := h.bufferSize
  have hl := h.length
  rw [(cursor_cases (hb ▸ hp) (show src.length < b.bufferSize by omega)).2 hw]
  refine h.append hs ?_ (rotate_store (by omega))
  simp [straight]; omega

private theorem store_first (h : Rep b size read unread) {src : List UInt8}
    (hw : b.bufferSize - b.writePos ≤ src.length) :
    store? b.buffer b.writePos (src.take (b.bufferSize - b.writePos)) =
      some (b.buffer.take b.writePos ++ src.take (b.bufferSize - b.writePos)) := by
  have hp := h.writePos_lt
  have hb := h.bufferSize
  have hl := h.length
  have ht : (src.take (b.bufferSize - b.writePos)).length = b.bufferSize - b.writePos := by simp [hw]
  rw [store?_eq_some (by omega), ht, List.drop_of_length_le (by omega), List.append_nil]

private theorem store_second (h : Rep b size read unread) {src : List UInt8}
    (hs : read.length + unread.length + src.length ≤ size)
    (hw : b.bufferSize - b.writePos ≤ src.length) :
    store? (b.buffer.take b.writePos ++ src.take (b.bufferSize - b.writePos)) 0
      (src.drop (b.bufferSize - b.writePos)) = some (wrapped b src) := by
  have hp := h.writePos_lt
  have hb := h.bufferSize
  have hl := h.length
  rw [store?_eq_some (by simp; omega)]
  simp [wrapped]

theorem store (h : Rep b size read unread) {src : List UInt8}
    (hs : read.length + unread.length + src.length ≤ size) :
    Rep (b.stored src) size read (unread ++ src) := by
  unfold stored
  split_ifs with hw
  · exact h.append_wrapped hs hw
  · exact h.append_straight hs (by omega)

theorem writeBuf_of_le (h : Rep b size read unread) {src : List UInt8}
    (hs : read.length + unread.length + src.length ≤ size) :
    b.writeBuf src = some (true, b.stored src) := by
  have hp := h.writePos_lt
  have hr := h.readPos_lt
  have hb := h.bufferSize
  have hT := h.bound
  have hl := h.length
  unfold ByteBuffer.writeBuf stored
  simp only [h.checkValid, h.canWriteBytes, hs, decide_true, Option.pure_def,
    Option.bind_eq_bind, Option.bind_some, Bool.not_true, Bool.false_eq_true, if_false]
  rw [assert_pos (by omega), Option.bind_some]
  by_cases hw : b.bufferSize - b.writePos ≤ src.length
  · rw [if_pos hw, if_pos hw, h.store_first hw]
    simp only [Option.bind_some, List.length_drop]
    split_ifs with h0
    · rw [h.store_second hs hw, Option.bind_some, sizeAdd_of_lt (by omega), Nat.zero_add]
    · have hz : src.length - (b.bufferSize - b.writePos) = 0 := by omega
      have hd : src.drop (b.bufferSize - b.writePos) = [] := List.drop_of_length_le (by omega)
      simp only [wrapped, hz, hd, List.nil_append, List.drop_zero]
  · rw [if_neg hw, if_neg hw]
    split_ifs with h0
    · rw [store?_eq_some (by omega), Option.bind_some, sizeAdd_of_lt (by omega)]
      rfl
    · have hz : src = [] := List.eq_nil_of_length_eq_zero (by omega)
      subst hz
      simp [straight]

theorem writeBuf_of_gt (h : Rep b size read unread) {src : List UInt8}
    (hs : size < read.length + unread.length + src.length) :
    b.writeBuf src = some (false, b) := by
  simp [ByteBuffer.writeBuf, h.checkValid, h.canWriteBytes, Nat.not_le.mpr hs]

/-- The two `ASSERT`s at the end of `Write`. -/
private theorem asserts_of_append {src : List UInt8} {b' : ByteBuffer}
    (h' : Rep b' size read (unread ++ src)) {k : ℕ} (hk : k = src.length) :
    (do let newFreeSpace ← b'.getFreeSpace
        assert (newFreeSpace = size - (read.length + unread.length) - k)
        let newReadableSpace ← b'.getReadableSpace
        assert (newReadableSpace = unread.length + k)
        return (true, b')) = some (true, b') := by
  have hf := h'.fits
  rw [List.length_append] at hf
  simp only [h'.getFreeSpace, h'.getReadableSpace, List.length_append, Option.bind_eq_bind,
    Option.bind_some, Option.pure_def]
  rw [assert_pos (by omega), Option.bind_some, assert_pos (by omega), Option.bind_some]

theorem write_of_le (h : Rep b size read unread) {src : List UInt8}
    (hs : read.length + unread.length + src.length ≤ size) :
    b.write src = some (true, b.stored src) := by
  have hp := h.writePos_lt
  have hb := h.bufferSize
  have hT := h.bound
  have hl := h.length
  unfold ByteBuffer.write stored
  simp only [h.checkValid, h.getFreeSpace, h.getReadableSpace, Option.pure_def,
    Option.bind_eq_bind, Option.bind_some]
  rw [if_neg (by omega), assert_pos (by omega), Option.bind_some]
  by_cases hw : b.bufferSize - b.writePos ≤ src.length
  · have h' := h.append_wrapped hs hw
    rw [if_pos hw, if_pos hw, if_pos (by omega), h.store_first hw]
    simp only [Option.bind_some, List.length_drop]
    split_ifs with h0
    · rw [h.store_second hs hw, Option.bind_some, sizeAdd_of_lt (by omega), Nat.zero_add]
      exact asserts_of_append h' (by omega)
    · have hz : src.length - (b.bufferSize - b.writePos) = 0 := by omega
      have hd : src.drop (b.bufferSize - b.writePos) = [] := List.drop_of_length_le (by omega)
      have ha := asserts_of_append h' (k := b.bufferSize - b.writePos) (by omega)
      simp only [wrapped, hz, hd, List.nil_append, List.drop_zero] at ha ⊢
      exact ha
  · have h' := h.append_straight hs (by omega)
    rw [if_neg hw, if_neg hw]
    split_ifs with h0
    · rw [store?_eq_some (by omega), Option.bind_some, sizeAdd_of_lt (by omega), Nat.zero_add]
      exact asserts_of_append h' rfl
    · have hz : src = [] := List.eq_nil_of_length_eq_zero (by omega)
      subst hz
      simp [straight]

theorem write_of_gt (h : Rep b size read unread) {src : List UInt8}
    (hs : size < read.length + unread.length + src.length) :
    b.write src = some (false, b) := by
  have hf := h.fits
  simp [ByteBuffer.write, h.checkValid, h.getFreeSpace, h.getReadableSpace,
    show size - (read.length + unread.length) < src.length by omega]

/-- `SkipRead` adds before it compares, so the sum must not leave `size_t`. -/
theorem skipRead_of_le (h : Rep b size read unread) {n : ℕ} (hn : n ≤ unread.length)
    (hT : b.readPos + n < sizeT) : b.skipRead n = some (true, b.advanced n) := by
  have hp := h.readPos_lt
  have hb := h.bufferSize
  have hf := h.fits
  have hcur : (if b.bufferSize ≤ b.readPos + n then b.readPos + n - b.bufferSize else b.readPos + n) =
      (b.readPos + n) % b.bufferSize := by
    rw [add_mod_eq_ite (show b.readPos < b.bufferSize by omega) (show n < b.bufferSize by omega)]
    split_ifs <;> omega
  simp [ByteBuffer.skipRead, ByteBuffer.advanceReadPos, h.checkValid, h.canReadBytes, hn,
    sizeAdd_of_lt hT, hcur, advanced]

theorem skipRead_of_gt (h : Rep b size read unread) {n : ℕ} (hn : unread.length < n) :
    b.skipRead n = some (false, b) := by
  simp [ByteBuffer.skipRead, h.checkValid, h.canReadBytes, Nat.not_le.mpr hn]

theorem commitRead (h : Rep b size read unread) :
    b.commitRead = some { b with dataStart := b.readPos } := by
  simp [ByteBuffer.commitRead, h.checkValid]

theorem commit (h : Rep b size read unread) :
    Rep { b with dataStart := b.readPos } size [] unread := by
  have hf := h.fits
  obtain ⟨rest, hr⟩ := h.rotate_readPos
  refine ⟨h.bufferSize, h.bound, h.length, h.readPos_lt, ?_, ?_, ?_, rest, hr⟩
  · simp [Nat.mod_eq_of_lt h.readPos_lt]
  · dsimp only
    rw [h.writePos, h.readPos, List.length_nil, Nat.zero_add, Nat.mod_add_mod, Nat.add_assoc]
  · simp only [List.length_nil]; omega

theorem resetRead (h : Rep b size read unread) :
    b.resetRead = some { b with readPos := b.dataStart } := by
  simp [ByteBuffer.resetRead, h.checkValid]

theorem reset (h : Rep b size read unread) :
    Rep { b with readPos := b.dataStart } size [] (read ++ unread) := by
  obtain ⟨free, hc⟩ := h.cells
  refine ⟨h.bufferSize, h.bound, h.length, h.dataStart, ?_, ?_, ?_, free, hc⟩
  · simp [Nat.mod_eq_of_lt h.dataStart]
  · rw [List.length_nil, Nat.zero_add, List.length_append]
    exact h.writePos
  · simpa using h.fits

theorem resetRead_advanced (h : Rep b size [] unread) {n : ℕ} (hn : n ≤ unread.length) :
    (b.advanced n).resetRead = some b := by
  have hp : b.readPos = b.dataStart := by
    rw [h.readPos, List.length_nil, Nat.add_zero, Nat.mod_eq_of_lt h.dataStart]
  rw [(h.advance hn).resetRead]
  cases b
  simp only [advanced] at hp ⊢
  rw [hp]

theorem clearAll (h : Rep b size read unread) : Rep b.clearAll size [] [] := by
  refine ⟨h.bufferSize, h.bound, h.length, ?_, ?_, ?_, ?_, b.buffer, ?_⟩
  all_goals simp [ByteBuffer.clearAll]

end Rep

@[simp] theorem stored_bufferSize (b : ByteBuffer) (src : List UInt8) :
    (b.stored src).bufferSize = b.bufferSize := by
  unfold stored; split_ifs <;> rfl

private theorem stored_nil {b : ByteBuffer} (h : b.writePos < b.bufferSize) : b.stored [] = b := by
  have hw : ¬b.bufferSize - b.writePos ≤ 0 := by omega
  simp [stored, straight, hw]

private theorem stored_writePos {b : ByteBuffer} {src : List UInt8} (h : b.writePos + src.length < b.bufferSize) :
    (b.stored src).writePos = b.writePos + src.length := by
  have hw : ¬b.bufferSize - b.writePos ≤ src.length := by omega
  simp [stored, hw]

/-- The copying loop between two objects, as long as the destination does not wrap. -/
private theorem copyLoop_apart {size room fuel n : ℕ} {read unread got : List UInt8} {h : Heap Bool}
    (hs : (h true).Rep size read unread) (hd : (h false).Rep room [] got) (hfuel : n ≤ fuel)
    (hn : n ≤ unread.length) (hroom : got.length + n ≤ room)
    (hw : (h false).writePos + n < (h false).bufferSize) :
    ∃ h', Heap.copyLoop true false fuel h n = some h' ∧ h' true = (h true).advanced n ∧
      h' false = (h false).stored (unread.take n) := by
  induction fuel generalizing n h read unread got with
  | zero =>
    have hz : n = 0 := by omega
    subst hz
    exact ⟨h, by simp [Heap.copyLoop], hs.advanced_zero.symm, by simp [stored_nil hw]⟩
  | succ fuel ih =>
    cases n with
    | zero => exact ⟨h, by simp [Heap.copyLoop], hs.advanced_zero.symm, by simp [stored_nil hw]⟩
    | succ k =>
      set num := if 1024 < k + 1 then 1024 else k + 1 with hnum
      have hpos : 0 < num := by split_ifs at hnum <;> omega
      have hle : num ≤ k + 1 := by split_ifs at hnum <;> omega
      have hlen : num ≤ unread.length := by omega
      have htake : (unread.take num).length = num := by simp [hlen]
      have hfit : ([] : List UInt8).length + got.length + (unread.take num).length ≤ room := by
        rw [htake]; simp; omega
      let h₁ : Heap Bool := Function.update (Function.update h true ((h true).advanced num)) false
        ((h false).stored (unread.take num))
      have hp : ((h false).stored (unread.take num)).writePos = (h false).writePos + num := by
        rw [stored_writePos (by rw [htake]; omega), htake]
      obtain ⟨h₂, hloop, ht₂, hf₂⟩ := ih (n := k + 1 - num) (h := h₁) (hs.advance hlen) (hd.store hfit)
        (by omega) (by rw [List.length_drop]; omega) (by rw [List.length_append, htake]; omega)
        (by simp only [h₁, Function.update_self, hp, stored_bufferSize]; omega)
      refine ⟨h₂, ?_, ?_, ?_⟩
      · simp only [Heap.copyLoop, ← hnum, hs.readBuf_of_le hlen, Option.bind_eq_bind, Option.bind_some,
          Function.update_of_ne (show false ≠ true by decide), hd.write_of_le hfit, assert_pos hle,
          assert_pos trivial]
        exact hloop
      · rw [ht₂]
        simp [h₁, show num + (k + 1 - num) = k + 1 by omega]
      · have hl : (h false).buffer.length = (h false).bufferSize := by rw [hd.length, hd.bufferSize]
        have hrest : ((unread.drop num).take (k + 1 - num)).length = k + 1 - num := by simp; omega
        simp only [hf₂, h₁, Function.update_self]
        rw [stored_stored hl (by rw [htake, hrest]; omega), ← List.take_add,
          show num + (k + 1 - num) = k + 1 by omega]

/-- `ReadToByteBuffer` into an empty object whose block is still unused. -/
theorem Rep.readToByteBuffer {b d : ByteBuffer} {size room n : ℕ} {read unread : List UInt8}
    (h : Rep b size read unread) (hd : Rep d room [] []) (hw : d.writePos = 0)
    (hn : n ≤ unread.length) (hroom : n ≤ room) :
    b.readToByteBuffer d n = some (true, b.advanced n, d.stored (unread.take n)) := by
  have hb := hd.bufferSize
  obtain ⟨h', hl, ht, hf⟩ := copyLoop_apart (h := fun i => if i then b else d) (n := n)
    (by simpa using h) (by simpa using hd) le_rfl hn (by simpa using hroom)
    (by simp only [Bool.false_eq_true, if_false]; omega)
  simp only [Bool.false_eq_true, if_false, if_true] at ht hf
  simp [ByteBuffer.readToByteBuffer, Heap.readToByteBuffer, hd.canWriteBytes, h.canReadBytes, hn, hroom,
    hl, ht, hf]

theorem rep_new {aBufferSize : UInt32} (h : aBufferSize.toNat + 1 < sizeT) (fresh : ℕ → UInt8) :
    Rep (new aBufferSize fresh) aBufferSize.toNat [] [] := by
  have hs : sizeAdd aBufferSize.toNat 1 = aBufferSize.toNat + 1 := sizeAdd_of_lt h
  refine ⟨hs, h, by simp [new, hs], by simp [new], by simp [new], by simp [new], by simp,
    (new aBufferSize fresh).buffer, by simp [new]⟩

theorem exists_rep {size : ℕ} {content : List UInt8} (hs : size + 1 < sizeT) (hc : content.length ≤ size) :
    ∃ b, Rep b size [] content := by
  have hn : (UInt32.ofNat size).toNat = size := by
    unfold sizeT at hs
    exact UInt32.toNat_ofNat_of_lt' (by rw [UInt32.size]; omega)
  have hnew := rep_new (hn.symm ▸ hs) fun _ => 0
  rw [hn] at hnew
  exact ⟨_, hnew.store (by simpa using hc)⟩

end ByteBuffer

end Sfup.Client
