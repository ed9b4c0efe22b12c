import Sfup.Lib.Fifo
import Sfup.Lib.Transition
import Sfup.Client.ByteBufferSpec

/-! A program's `cByteBuffer` objects refine bounded queues, over every sequence of calls. -/
namespace Sfup.Client
open Sfup.Transition

/-- A call on one of the objects (two of them for `ReadToByteBuffer`). -/
inductive Call (ι : Type) where
  | write (i : ι) (aBytes : List UInt8)
  | writeBuf (i : ι) (aBuffer : List UInt8)
  | readBuf (i : ι) (aCount : ℕ)
  | readString (i : ι) (aCount : ℕ)
  | skipRead (i : ι) (aCount : ℕ)
  | readToByteBuffer (i aDst : ι) (aNumBytes : ℕ)
  | commitRead (i : ι)
  | resetRead (i : ι)
  | clearAll (i : ι)

/-- What a call gives back: its result (true for the `void` ones) and the bytes it copied out. -/
structure Reply where
  ok : Bool
  bytes : List UInt8
deriving DecidableEq, Repr

/-- A read gives back its bytes, or false and none. -/
def Reply.ofRead (out : Option (List UInt8)) : Reply := ⟨out.isSome, out.getD []⟩

section
variable {ι : Type} [DecidableEq ι]

def Call.exec (h : Heap ι) : Call ι → Option (Reply × Heap ι)
  | .write i bs => do let (ok, b) ← (h i).write bs; return (⟨ok, []⟩, Function.update h i b)
  | .writeBuf i bs => do let (ok, b) ← (h i).writeBuf bs; return (⟨ok, []⟩, Function.update h i b)
  | .readBuf i n => do let (out, b) ← (h i).readBuf n; return (.ofRead out, Function.update h i b)
  | .readString i n => do let (out, b) ← (h i).readString n; return (.ofRead out, Function.update h i b)
  | .skipRead i n => do let (ok, b) ← (h i).skipRead n; return (⟨ok, []⟩, Function.update h i b)
  | .readToByteBuffer i d n => do let (ok, h) ← h.readToByteBuffer i d n; return (⟨ok, []⟩, h)
  | .commitRead i => do let b ← (h i).commitRead; return (⟨true, []⟩, Function.update h i b)
  | .resetRead i => do let b ← (h i).resetRead; return (⟨true, []⟩, Function.update h i b)
  | .clearAll i => some (⟨true, []⟩, Function.update h i (h i).clearAll)

/-- The queues with capacities `cap` that the objects stand for. -/
def Call.spec (cap : ι → ℕ) (q : ι → Fifo UInt8) : Call ι → Reply × (ι → Fifo UInt8)
  | .write i bs | .writeBuf i bs =>
    (⟨((q i).put (cap i) bs).1, []⟩, Function.update q i ((q i).put (cap i) bs).2)
  | .readBuf i n | .readString i n =>
    (.ofRead ((q i).get n).1, Function.update q i ((q i).get n).2)
  | .skipRead i n => (⟨((q i).get n).1.isSome, []⟩, Function.update q i ((q i).get n).2)
  | .readToByteBuffer i d n =>
    if (q d).used + n ≤ cap d ∧ n ≤ (q i).unread.length then (⟨true, []⟩, Fifo.transfer q i d n)
    else (⟨false, []⟩, q)
  | .commitRead i => (⟨true, []⟩, Function.update q i (q i).commit)
  | .resetRead i => (⟨true, []⟩, Function.update q i (q i).reset)
  | .clearAll i => (⟨true, []⟩, Function.update q i .empty)

def newHeap (aBufferSize : ι → UInt32) (fresh : ι → ℕ → UInt8) : Heap ι :=
  fun i => .new (aBufferSize i) (fresh i)

def Refines (cap : ι → ℕ) (h : Heap ι) (q : ι → Fifo UInt8) : Prop :=
  ∀ i, (h i).Rep (cap i) (q i).read (q i).unread

theorem Refines.update {cap : ι → ℕ} {h : Heap ι} {q : ι → Fifo UInt8} (hr : Refines cap h q)
    {i : ι} {b : ByteBuffer} {f : Fifo UInt8} (hb : b.Rep (cap i) f.read f.unread) :
    Refines cap (Function.update h i b) (Function.update q i f) := by
  intro j
  by_cases hj : j = i
  · subst hj; simpa using hb
  · simpa [hj] using hr j

/-- The copying loop moves the bytes a portion at a time. -/
theorem copyLoop_refines {cap : ι → ℕ} (src dst : ι) {fuel n : ℕ} (hfuel : n ≤ fuel) {h : Heap ι}
    {q : ι → Fifo UInt8} (hr : Refines cap h q) (hread : n ≤ (q src).unread.length)
    (hroom : (q dst).used + n ≤ cap dst) :
    ∃ h', Heap.copyLoop src dst fuel h n = some h' ∧ Refines cap h' (Fifo.transfer q src dst n) := by
  induction fuel generalizing n h q with
  | zero =>
    have hz : n = 0 := by omega
    subst hz
    exact ⟨h, by simp [Heap.copyLoop], by simpa using hr⟩
  | succ fuel ih =>
    cases n with
    | zero => exact ⟨h, by simp [Heap.copyLoop], by simpa using hr⟩
    | succ k =>
      set num := if 1024 < k + 1 then 1024 else k + 1 with hnum
      have hpos : 0 < num := by split_ifs at hnum <;> omega
      have hle : num ≤ k + 1 := by split_ifs at hnum <;> omega
      have hlen : num ≤ (q src).unread.length := by omega
      have h₁ : Refines cap (Function.update h src ((h src).advanced num))
          (Function.update q src ((q src).get num).2) := by
        rw [Fifo.get_of_le hlen]
        exact hr.update ((hr src).advance hlen)
      have hused : (Function.update q src ((q src).get num).2 dst).used = (q dst).used := by
        by_cases hd : dst = src
        · subst hd; simp [Fifo.used_get]
        · simp [hd]
      have hfit : (Function.update q src ((q src).get num).2 dst).used +
          ((q src).unread.take num).length ≤ cap dst := by
        rw [hused, List.length_take, min_eq_left (by omega)]
        omega
      have h₂ : Refines cap _ (Fifo.transfer q src dst num) := h₁.update ((h₁ dst).store hfit)
      have hu := Fifo.used_transfer (d := dst) hlen
      have hun := Fifo.unread_transfer (d := dst) hlen
      obtain ⟨h₃, hloop, hr₃⟩ := ih (n := k + 1 - num) (by omega) h₂ (by omega) (by omega)
      rw [Fifo.transfer_transfer (by omega), show num + (k + 1 - num) = k + 1 by omega] at hr₃
      refine ⟨h₃, ?_, hr₃⟩
      simp only [Heap.copyLoop, ← hnum, (hr src).readBuf_of_le hlen, (h₁ dst).write_of_le hfit,
        Option.bind_eq_bind, Option.bind_some, assert_pos hle, assert_pos trivial, hloop]

theorem readToByteBuffer_refines {cap : ι → ℕ} (src dst : ι) (n : ℕ) {h : Heap ι}
    {q : ι → Fifo UInt8} (hr : Refines cap h q) :
    ∃ h', Call.exec h (.readToByteBuffer src dst n) =
        some ((Call.spec cap q (.readToByteBuffer src dst n)).1, h') ∧
      Refines cap h' (Call.spec cap q (.readToByteBuffer src dst n)).2 := by
  simp only [Call.exec, Call.spec, Heap.readToByteBuffer, (hr dst).canWriteBytes,
    (hr src).canReadBytes, Option.pure_def, Option.bind_eq_bind, Option.bind_some]
  by_cases hw : (q dst).used + n ≤ cap dst
  · by_cases hn : n ≤ (q src).unread.length
    · obtain ⟨h', hl, hr'⟩ := copyLoop_refines src dst le_rfl hr hn hw
      refine ⟨h', ?_, by simpa [hw, hn] using hr'⟩
      unfold Fifo.used at hw
      simp [Fifo.used, hw, hn, hl]
    · refine ⟨h, ?_, by simpa [hn] using hr⟩
      unfold Fifo.used at hw
      simp [hw, hn]
  · refine ⟨h, ?_, by simpa [hw] using hr⟩
    unfold Fifo.used at hw
    simp [Fifo.used, hw]

private theorem put_refines {cap : ι → ℕ} {h : Heap ι} {q : ι → Fifo UInt8} (hr : Refines cap h q)
    (i : ι) (bs : List UInt8) {f : ByteBuffer → List UInt8 → Option (Bool × ByteBuffer)}
    (hle : (q i).used + bs.length ≤ cap i → f (h i) bs = some (true, (h i).stored bs))
    (hgt : cap i < (q i).used + bs.length → f (h i) bs = some (false, h i)) :
    ∃ b', f (h i) bs = some (((q i).put (cap i) bs).1, b') ∧
      Refines cap (Function.update h i b') (Function.update q i ((q i).put (cap i) bs).2) := by
  by_cases hs : (q i).used + bs.length ≤ cap i
  · simp only [Fifo.put, if_pos hs]
    exact ⟨_, hle hs, hr.update ((hr i).store hs)⟩
  · simp only [Fifo.put, if_neg hs]
    exact ⟨h i, hgt (by omega), hr.update (hr i)⟩

private theorem get_refines {cap : ι → ℕ} {h : Heap ι} {q : ι → Fifo UInt8} (hr : Refines cap h q)
    (i : ι) (n : ℕ) {f : ByteBuffer → ℕ → Option (Option (List UInt8) × ByteBuffer)}
    (hle : n ≤ (q i).unread.length →
      f (h i) n = some (some ((q i).unread.take n), (h i).advanced n))
    (hgt : (q i).unread.length < n → f (h i) n = some (none, h i)) :
    ∃ b', f (h i) n = some (((q i).get n).1, b') ∧
      Refines cap (Function.update h i b') (Function.update q i ((q i).get n).2) := by
  by_cases hn : n ≤ (q i).unread.length
  · rw [Fifo.get_of_le hn]
    exact ⟨_, hle hn, hr.update ((hr i).advance hn)⟩
  · simp only [Fifo.get, if_neg hn]
    exact ⟨h i, hgt (by omega), hr.update (hr i)⟩

/-- One call on buffers below `2 ^ 31` bytes does what the queues do. -/
theorem exec_refines {cap : ι → ℕ} (hcap : ∀ i, cap i < 2 ^ 31) (h : Heap ι) (q : ι → Fifo UInt8)
    (c : Call ι) (hr : Refines cap h q) :
    ∃ h', c.exec h = some ((c.spec cap q).1, h') ∧ Refines cap h' (c.spec cap q).2 := by
  cases c with
  | write i bs =>
    obtain ⟨b', hb, hb'⟩ := put_refines hr i bs (f := ByteBuffer.write)
      (fun hs => (hr i).write_of_le hs) (fun hs => (hr i).write_of_gt hs)
    exact ⟨_, by simp [Call.exec, Call.spec, hb], hb'⟩
  | writeBuf i bs =>
    obtain ⟨b', hb, hb'⟩ := put_refines hr i bs (f := ByteBuffer.writeBuf)
      (fun hs => (hr i).writeBuf_of_le hs) (fun hs => (hr i).writeBuf_of_gt hs)
    exact ⟨_, by simp [Call.exec, Call.spec, hb], hb'⟩
  | readBuf i n =>
    obtain ⟨b', hb, hb'⟩ := get_refines hr i n (f := ByteBuffer.readBuf)
      (fun hn => (hr i).readBuf_of_le hn) (fun hn => (hr i).readBuf_of_gt hn)
    exact ⟨_, by simp [Call.exec, Call.spec, hb], hb'⟩
  | readString i n =>
    obtain ⟨b', hb, hb'⟩ := get_refines hr i n (f := ByteBuffer.readString)
      (fun hn => (hr i).readString_of_le hn) (fun hn => (hr i).readString_of_gt hn)
    exact ⟨_, by simp [Call.exec, Call.spec, hb], hb'⟩
  | skipRead i n =>
    by_cases hn : n ≤ (q i).unread.length
    · have hT : (h i).readPos + n < sizeT := by
        have hp := (hr i).readPos_lt
        have hf := (hr i).fits
        have hc := hcap i
        have hs : sizeT = 2 ^ 32 := rfl
        omega
      refine ⟨Function.update h i ((h i).advanced n), ?_, ?_⟩
      · simp [Call.exec, Call.spec, (hr i).skipRead_of_le hn hT, Fifo.get_of_le hn]
      · simp only [Call.spec, Fifo.get_of_le hn]
        exact hr.update ((hr i).advance hn)
    · refine ⟨h, ?_, by simpa [Call.spec, Fifo.get, hn] using hr⟩
      simp [Call.exec, Call.spec, (hr i).skipRead_of_gt (Nat.not_le.mp hn), Fifo.get, hn]
  | readToByteBuffer i d n => exact readToByteBuffer_refines i d n hr
  | commitRead i =>
    exact ⟨_, by simp [Call.exec, Call.spec, (hr i).commitRead], hr.update (hr i).commit⟩
  | resetRead i =>
    exact ⟨_, by simp [Call.exec, Call.spec, (hr i).resetRead], hr.update (hr i).reset⟩
  | clearAll i => exact ⟨_, rfl, hr.update (hr i).clearAll⟩

/-- Every sequence of calls runs without a failed `ASSERT` and answers as the queues do; the space
functions then report the queues' sizes, and a call that returns false changes nothing. -/
def RefinesFifo (aBufferSize : ι → UInt32) : Prop :=
  ∀ (fresh : ι → ℕ → UInt8) (calls : List (Call ι)),
    let cap := fun i => (aBufferSize i).toNat
    let q := run (Call.spec cap) (fun _ => .empty) calls
    ∃ h, run? Call.exec (newHeap aBufferSize fresh) calls = some (q.1, h) ∧
      (∀ i, ∃ free used, (h i).getFreeSpace = some free ∧ (h i).getUsedSpace = some used ∧
        free + used = cap i ∧ used = (q.2 i).used ∧
        (h i).getReadableSpace = some (q.2 i).unread.length ∧ (h i).checkValid = some ()) ∧
      ∀ c r h', Call.exec h c = some (r, h') → r.ok = false → h' = h

/-- A call that returns false leaves every object exactly as it was. -/
theorem exec_false {cap : ι → ℕ} {h h' : Heap ι} {q : ι → Fifo UInt8} (hr : Refines cap h q)
    {c : Call ι} {r : Reply} (he : c.exec h = some (r, h')) (hf : r.ok = false) : h' = h := by
  cases c with
  | write i bs =>
    by_cases hs : (q i).used + bs.length ≤ cap i
    · simp [Call.exec, (hr i).write_of_le hs] at he
      simp [← he.1] at hf
    · simp [Call.exec, (hr i).write_of_gt (Nat.not_le.mp hs)] at he
      exact he.2.symm
  | writeBuf i bs =>
    by_cases hs : (q i).used + bs.length ≤ cap i
    · simp [Call.exec, (hr i).writeBuf_of_le hs] at he
      simp [← he.1] at hf
    · simp [Call.exec, (hr i).writeBuf_of_gt (Nat.not_le.mp hs)] at he
      exact he.2.symm
  | readBuf i n =>
    by_cases hn : n ≤ (q i).unread.length
    · simp [Call.exec, (hr i).readBuf_of_le hn] at he
      simp [← he.1, Reply.ofRead] at hf
    · simp [Call.exec, (hr i).readBuf_of_gt (Nat.not_le.mp hn)] at he
      exact he.2.symm
  | readString i n =>
    by_cases hn : n ≤ (q i).unread.length
    · simp [Call.exec, (hr i).readString_of_le hn] at he
      simp [← he.1, Reply.ofRead] at hf
    · simp [Call.exec, (hr i).readString_of_gt (Nat.not_le.mp hn)] at he
      exact he.2.symm
  | skipRead i n =>
    by_cases hn : n ≤ (q i).unread.length
    · simp [Call.exec, ByteBuffer.skipRead, (hr i).checkValid, (hr i).canReadBytes, hn,
        ByteBuffer.advanceReadPos] at he
      simp [← he.1] at hf
    · simp [Call.exec, (hr i).skipRead_of_gt (Nat.not_le.mp hn)] at he
      exact he.2.symm
  | readToByteBuffer i d n =>
    simp only [Call.exec, Heap.readToByteBuffer, (hr d).canWriteBytes, (hr i).canReadBytes] at he
    by_cases hw : (q d).read.length + (q d).unread.length + n ≤ cap d
    · by_cases hn : n ≤ (q i).unread.length
      · simp [hw, hn, Option.bind_eq_some_iff] at he
        simp [← he.2] at hf
      · simp [hw, hn] at he
        exact he.2.symm
    · simp [hw] at he
      exact he.2.symm
  | commitRead i =>
    simp [Call.exec, (hr i).commitRead] at he
    simp [← he.1] at hf
  | resetRead i =>
    simp [Call.exec, (hr i).resetRead] at he
    simp [← he.1] at hf
  | clearAll i =>
    simp [Call.exec] at he
    simp [← he.1] at hf

private theorem refinesFifo_of_lt {aBufferSize : ι → UInt32}
    (hs : ∀ i, (aBufferSize i).toNat < 2 ^ 31) : RefinesFifo aBufferSize := by
  intro fresh calls cap q
  have hnew : Refines cap (newHeap aBufferSize fresh) (fun _ => .empty) := by
    intro i
    have hi := hs i
    exact ByteBuffer.rep_new (by unfold sizeT; omega) (fresh i)
  obtain ⟨h, hrun, hr⟩ := run?_simulates (exec_refines hs) hnew calls
  refine ⟨h, hrun, ?_, fun c r h' he hf => exec_false hr he hf⟩
  intro i
  have hf : (q.2 i).used ≤ cap i := (hr i).fits
  exact ⟨_, _, (hr i).getFreeSpace, (hr i).getUsedSpace, Nat.sub_add_cancel hf, rfl,
    (hr i).getReadableSpace, (hr i).checkValid⟩

/-- With `SIZE_MAX` the block has no cell at all, and the first `CheckValid` fails. -/
private theorem not_refinesFifo_of_eq {aBufferSize : ι → UInt32} {i : ι}
    (hs : (aBufferSize i).toNat + 1 = 2 ^ 32) : ¬RefinesFifo aBufferSize := by
  intro hall
  obtain ⟨h, hrun, -⟩ := hall (fun _ _ => 0) [.commitRead i]
  have hz : sizeAdd (aBufferSize i).toNat 1 = 0 := by simp [sizeAdd, sizeT, hs]
  simp [run?, Call.exec, newHeap, ByteBuffer.commitRead, ByteBuffer.checkValid, ByteBuffer.new, hz] at hrun

/-- The calls that bring the sum in `AdvanceReadPos` past `SIZE_MAX`: fill the buffer, empty it,
and do so again from the last cell. -/
def overflowCalls (i : ι) (n : ℕ) : List (Call ι) :=
  [.write i (List.replicate n 0), .skipRead i n, .commitRead i, .write i (List.replicate n 0),
    .skipRead i n]

private theorem spec_overflowCalls (cap : ι → ℕ) (i : ι) {n : ℕ} (hn : cap i = n) :
    ((run (Call.spec cap) (fun _ => .empty) (overflowCalls i n)).2 i).unread = [] := by
  simp [overflowCalls, run, Call.spec, Fifo.put, Fifo.get, Fifo.used, Fifo.empty, Fifo.commit, hn]

/-- Skipping a full buffer of at least `2 ^ 31` bytes from its last cell loses the carry of the sum:
the cursor falls short. -/
private theorem skipRead_overflow {b : ByteBuffer} {n : ℕ} {unread : List UInt8}
    (hr : b.Rep n [] unread) (hl : unread.length = n) (hd : b.dataStart = n) (hn : 2 ^ 31 ≤ n) :
    b.skipRead n = some (true, { b with readPos := n + n - 2 ^ 32 }) := by
  have hT : n + 1 < 2 ^ 32 := hr.bound
  have hb := hr.bufferSize
  have hp : b.readPos = n := by
    rw [hr.readPos, hd, List.length_nil, Nat.add_zero, Nat.mod_eq_of_lt (Nat.lt_succ_self n)]
  have hsum : sizeAdd n n = n + n - 2 ^ 32 := by
    rw [sizeAdd, sizeT, Nat.mod_eq_sub_mod (by omega), Nat.mod_eq_of_lt (by omega)]
  simp only [ByteBuffer.skipRead, ByteBuffer.advanceReadPos, hr.checkValid, hr.canReadBytes, hl, hp,
    hsum, hb, le_refl, decide_true, Option.pure_def, Option.bind_eq_bind, Option.bind_some,
    Bool.not_true, Bool.false_eq_true, if_false]
  rw [if_neg (by omega)]

/-- The calls return true, and leave a full buffer that starts at its last cell with a cursor that falls short. -/
theorem exists_run_overflowCalls {aBufferSize : ι → UInt32} {i : ι} {n : ℕ}
    (hn : (aBufferSize i).toNat = n) (hlo : 2 ^ 31 ≤ n) (hhi : n + 1 < 2 ^ 32) :
    ∃ (b : ByteBuffer) (h : Heap ι), b.Rep n [] (List.replicate n 0) ∧ b.dataStart = n ∧
      run? Call.exec (newHeap aBufferSize fun _ _ => 0) (overflowCalls i n) =
        some (List.replicate 5 ⟨true, []⟩, Function.update h i { b with readPos := n + n - 2 ^ 32 }) := by
  let bytes : List UInt8 := List.replicate n 0
  have hl : bytes.length = n := List.length_replicate
  let h₀ : Heap ι := newHeap aBufferSize fun _ _ => 0
  have hr₀ : (h₀ i).Rep n [] [] := hn ▸ ByteBuffer.rep_new (by rw [hn]; exact hhi) _
  have hfit : ([] : List UInt8).length + ([] : List UInt8).length + bytes.length ≤ n := by simp [hl]
  have hle : n ≤ bytes.length := hl.ge
  -- fill the buffer from its first cell and empty it again
  let b₁ := (h₀ i).stored bytes
  have hr₁ : b₁.Rep n [] bytes := hr₀.store hfit
  have hp₁ : b₁.readPos = 0 := by
    rw [hr₁.readPos, show b₁.dataStart = (h₀ i).dataStart from ByteBuffer.stored_dataStart _ _]
    simp [h₀, newHeap, ByteBuffer.new]
  have hskip : b₁.skipRead n = some (true, b₁.advanced n) :=
    hr₁.skipRead_of_le hle (by rw [hp₁]; unfold sizeT; omega)
  have hr₂ := hr₁.advance hle
  rw [List.drop_of_length_le hl.le] at hr₂
  have hp₂ : (b₁.advanced n).readPos = n := by simp [ByteBuffer.advanced, hp₁, hr₁.bufferSize]
  -- fill it once more, now from its last cell
  let b₃ : ByteBuffer := { b₁.advanced n with dataStart := (b₁.advanced n).readPos }
  have hr₃ : b₃.Rep n [] [] := hr₂.commit
  have hr₄ : (b₃.stored bytes).Rep n [] bytes := hr₃.store hfit
  have hd₄ : (b₃.stored bytes).dataStart = n := (ByteBuffer.stored_dataStart _ _).trans hp₂
  have hs₅ := skipRead_overflow hr₄ hl hd₄ hlo
  refine ⟨b₃.stored bytes, h₀, hr₄, hd₄, ?_⟩
  rw [overflowCalls,
    run?_cons _ (show Call.exec h₀ (.write i bytes) = some (⟨true, []⟩, Function.update h₀ i b₁) by
      simp [Call.exec, hr₀.write_of_le hfit, b₁]),
    run?_cons _ (show Call.exec (Function.update h₀ i b₁) (.skipRead i n) =
        some (⟨true, []⟩, Function.update h₀ i (b₁.advanced n)) by simp [Call.exec, hskip]),
    run?_cons _ (show Call.exec (Function.update h₀ i (b₁.advanced n)) (.commitRead i) =
        some (⟨true, []⟩, Function.update h₀ i b₃) by simp [Call.exec, hr₂.commitRead, b₃]),
    run?_cons _ (show Call.exec (Function.update h₀ i b₃) (.write i bytes) =
        some (⟨true, []⟩, Function.update h₀ i (b₃.stored bytes)) by
      simp [Call.exec, hr₃.write_of_le hfit]),
    run?_cons _ (show Call.exec (Function.update h₀ i (b₃.stored bytes)) (.skipRead i n) =
        some (⟨true, []⟩, Function.update h₀ i { b₃.stored bytes with readPos := n + n - 2 ^ 32 }) by
      simp [Call.exec, hs₅])]
  rfl

/-- Bytes already read then look unread. -/
private theorem not_refinesFifo_of_ge {aBufferSize : ι → UInt32} {i : ι} {n : ℕ}
    (hn : (aBufferSize i).toNat = n) (hlo : 2 ^ 31 ≤ n) (hhi : n + 1 < 2 ^ 32) :
    ¬RefinesFifo aBufferSize := by
  intro hall
  obtain ⟨b, h₀, hr, hd, hfinal⟩ := exists_run_overflowCalls hn hlo hhi
  obtain ⟨h, hrun, hobs, -⟩ := hall (fun _ _ => 0) (overflowCalls i n)
  obtain ⟨_, _, -, -, -, -, hread, -⟩ := hobs i
  rw [spec_overflowCalls _ i hn] at hread
  rw [hfinal] at hrun
  obtain ⟨-, rfl⟩ := Prod.mk.inj (Option.some.inj hrun)
  have hb := hr.bufferSize
  have hw := hr.writePos_eq
  rw [hd, List.length_replicate, List.length_nil, if_neg (by omega)] at hw
  rw [Function.update_self] at hread
  simp only [ByteBuffer.getReadableSpace, ByteBuffer.checkValid, hb, Option.pure_def, Option.bind_eq_bind] at hread
  rw [assert_pos (by omega), Option.bind_some, assert_pos (by omega), Option.bind_some,
    if_neg (by omega), assert_pos (by omega), Option.bind_some, Option.some.injEq, List.length_nil] at hread
  omega

/-- The buffers refine queues exactly when each is asked for fewer than `2 ^ 31` bytes: `SkipRead`
adds before it compares, and `SIZE_MAX` leaves no room for the extra byte. -/
theorem refinesFifo_iff (aBufferSize : ι → UInt32) :
    RefinesFifo aBufferSize ↔ ∀ i, (aBufferSize i).toNat < 2 ^ 31 := by
  refine ⟨fun hall i => ?_, refinesFifo_of_lt⟩
  by_contra hge
  have hlt := (aBufferSize i).toNat_lt
  by_cases hs : (aBufferSize i).toNat + 1 = 2 ^ 32
  · exact not_refinesFifo_of_eq hs hall
  · exact not_refinesFifo_of_ge rfl (Nat.not_lt.mp hge) (by omega) hall

end

/-- One object built with `SIZE_MAX`: its first call fails an `ASSERT`. -/
theorem not_refinesFifo_sizeMax : ¬RefinesFifo (fun _ : Unit => (4294967295 : UInt32)) := by
  intro hall
  obtain ⟨h, hrun, -⟩ := hall (fun _ _ => 0) [.write () []]
  have hz : run? Call.exec (newHeap (fun _ : Unit => (4294967295 : UInt32)) fun _ _ => 0)
      [.write () []] = none := by
    rfl
  rw [hz] at hrun
  cases hrun

end Sfup.Client
