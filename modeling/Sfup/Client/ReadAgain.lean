import Sfup.Client.ByteBufferRefinement

/-! `ReadAgain` of `cByteBuffer`, over every sequence of calls: it repeats the bytes that are read and not committed,
and no write gets at them. -/
namespace Sfup.Client
open Sfup.Ring Sfup.Transition

namespace ByteBuffer

/-- `ReadAgain`, with the new value of `a_Out`. -/
def readAgain (b : ByteBuffer) (aOut : List UInt8) : Option (List UInt8 × ByteBuffer) := do
  b.checkValid
  let (aOut, dataStart) ←
    if b.readPos < b.dataStart then do
      -- across the ring buffer end
      assert (b.dataStart ≤ b.bufferSize)
      let part ← load? b.buffer b.dataStart (b.bufferSize - b.dataStart)
      pure (aOut ++ part, 0)
    else pure (aOut, b.dataStart)
  assert (dataStart ≤ b.readPos)
  let part ← load? b.buffer dataStart (b.readPos - dataStart)
  return (aOut ++ part, b)

/-- The bytes between the start of the data and the read cursor are the ones that are read. -/
theorem Rep.readAgain {b : ByteBuffer} {size : ℕ} {read unread : List UInt8} (h : Rep b size read unread)
    (aOut : List UInt8) : b.readAgain aOut = some (aOut ++ read, b) := by
  obtain ⟨free, hcells⟩ := h.cells
  have hd := h.dataStart
  have hl := h.length
  have hb := h.bufferSize
  have hf := h.fits
  have hr := h.readPos_eq
  have hread : (b.buffer.rotate b.dataStart).take read.length = read := by
    rw [hcells, List.append_assoc, List.take_left]
  unfold ByteBuffer.readAgain
  simp only [h.checkValid, Option.pure_def, Option.bind_eq_bind, Option.bind_some]
  split_ifs at hr with hflat
  · rw [if_neg (by omega), assert_pos (by omega), Option.bind_some, load?_eq_some (by omega), Option.bind_some, hr,
      Nat.add_sub_cancel_left, ← take_rotate_of_lt (by omega) (by omega), hread]
  · have hfirst : (b.buffer.drop b.dataStart).take (b.bufferSize - b.dataStart) = b.buffer.drop b.dataStart :=
      List.take_of_length_le (by rw [List.length_drop]; omega)
    have hsecond : b.readPos = read.length - (b.buffer.length - b.dataStart) := by omega
    rw [if_pos (by omega), assert_pos (by omega), Option.bind_some, load?_eq_some (by omega), Option.bind_some,
      assert_pos (by omega), Option.bind_some, load?_eq_some (by omega), Option.bind_some, hfirst, List.drop_zero,
      Nat.sub_zero, List.append_assoc, hsecond, ← take_rotate_of_ge (by omega) (by omega) (by omega), hread]

/-- A read cursor in front of the start of the data shows the cells from there to the end, and the first ones. -/
theorem readAgain_of_lt {b : ByteBuffer} {size pos : ℕ} {read unread : List UInt8} (h : Rep b size read unread)
    (hpos : pos < b.dataStart) (aOut : List UInt8) :
    { b with readPos := pos }.readAgain aOut =
      some (aOut ++ b.buffer.drop b.dataStart ++ b.buffer.take pos, { b with readPos := pos }) := by
  have hd := h.dataStart
  have hl := h.length
  have hb := h.bufferSize
  have hw := h.writePos_lt
  have hfirst : (b.buffer.drop b.dataStart).take (b.bufferSize - b.dataStart) = b.buffer.drop b.dataStart :=
    List.take_of_length_le (by rw [List.length_drop]; omega)
  simp only [ByteBuffer.readAgain, ByteBuffer.checkValid, Option.pure_def, Option.bind_eq_bind]
  rw [assert_pos (by omega), Option.bind_some, assert_pos (by omega), Option.bind_some, if_pos hpos,
    assert_pos (by omega), Option.bind_some, load?_eq_some (by omega), Option.bind_some, Option.bind_some,
    assert_pos (by omega), Option.bind_some, load?_eq_some (by omega), Option.bind_some, hfirst, List.drop_zero,
    Nat.sub_zero]

end ByteBuffer

def Call.writesTo {ι : Type} [DecidableEq ι] (i : ι) : Call ι → Bool
  | .write j _ | .writeBuf j _ => i = j
  | _ => false

section
variable {ι : Type} [DecidableEq ι]

def queues (aBufferSize : ι → UInt32) (calls : List (Call ι)) : ι → Fifo UInt8 :=
  (run (Call.spec fun i => (aBufferSize i).toNat) (fun _ => .empty) calls).2

/-- In every state that calls lead to, `ReadAgain` appends the bytes that are read and not committed, and changes
nothing; and it still does so behind writes that succeed. -/
def ReplaysReads (aBufferSize : ι → UInt32) : Prop :=
  ∀ (fresh : ι → ℕ → UInt8) (calls : List (Call ι)) (replies : List Reply) (h : Heap ι),
    run? Call.exec (newHeap aBufferSize fresh) calls = some (replies, h) → ∀ (i : ι) (aOut : List UInt8),
      (h i).readAgain aOut = some (aOut ++ (queues aBufferSize calls i).read, h i) ∧
      ∀ (writes : List (Call ι)) (replies' : List Reply) (h' : Heap ι), (∀ c ∈ writes, c.writesTo i) →
        run? Call.exec h writes = some (replies', h') → (∀ r ∈ replies', r.ok) →
          (h' i).readAgain aOut = some (aOut ++ (queues aBufferSize calls i).read, h' i)

theorem read_of_writesTo {cap : ι → ℕ} {i : ι} {c : Call ι} (hc : c.writesTo i) (q : ι → Fifo UInt8) :
    ((c.spec cap q).2 i).read = (q i).read := by
  cases c with
  | write j bs | writeBuf j bs =>
    obtain rfl : i = j := of_decide_eq_true hc
    simp only [Call.spec, Function.update_self, Fifo.put]
    split_ifs <;> rfl
  | _ => cases hc

private theorem read_of_writes {cap : ι → ℕ} {i : ι} {writes : List (Call ι)} (hw : ∀ c ∈ writes, c.writesTo i)
    (q : ι → Fifo UInt8) : ((run (Call.spec cap) q writes).2 i).read = (q i).read := by
  induction writes generalizing q with
  | nil => rfl
  | cons c writes ih =>
    simp only [run]
    rw [ih (fun c' hc' => hw c' (List.mem_cons_of_mem _ hc')), read_of_writesTo (hw c List.mem_cons_self)]

theorem replaysReads_of_lt {aBufferSize : ι → UInt32} (hs : ∀ i, (aBufferSize i).toNat < 2 ^ 31) :
    ReplaysReads aBufferSize := by
  intro fresh calls replies h hrun i aOut
  have hnew : Refines (fun i => (aBufferSize i).toNat) (newHeap aBufferSize fresh) (fun _ => .empty) := by
    intro j
    have hj := hs j
    exact ByteBuffer.rep_new (by unfold sizeT; omega) (fresh j)
  obtain ⟨h₁, hrun₁, hr⟩ := run?_simulates (exec_refines hs) hnew calls
  obtain ⟨-, rfl⟩ := Prod.mk.inj (Option.some.inj (hrun.symm.trans hrun₁))
  refine ⟨(hr i).readAgain aOut, fun writes replies' h' hw hrun' _ => ?_⟩
  obtain ⟨h₂, hrun₂, hr'⟩ := run?_simulates (exec_refines hs) hr writes
  obtain ⟨-, rfl⟩ := Prod.mk.inj (Option.some.inj (hrun'.symm.trans hrun₂))
  rw [queues, ← read_of_writes hw]
  exact (hr' i).readAgain aOut

/-- With `SIZE_MAX` the first `CheckValid` fails. -/
theorem not_replaysReads_of_eq {aBufferSize : ι → UInt32} {i : ι} (hs : (aBufferSize i).toNat + 1 = 2 ^ 32) :
    ¬ ReplaysReads aBufferSize := by
  intro hall
  have hread := (hall (fun _ _ => 0) [] [] _ rfl i []).1
  have hz : sizeAdd (aBufferSize i).toNat 1 = 0 := by simp [sizeAdd, sizeT, hs]
  simp [ByteBuffer.readAgain, ByteBuffer.checkValid, newHeap, ByteBuffer.new, hz] at hread

private theorem length_read_overflowCalls (aBufferSize : ι → UInt32) {i : ι} {n : ℕ}
    (hn : (aBufferSize i).toNat = n) : (queues aBufferSize (overflowCalls i n) i).read.length = n := by
  simp [queues, overflowCalls, run, Call.spec, Fifo.put, Fifo.get, Fifo.used, Fifo.empty, Fifo.commit, hn]

theorem not_replaysReads_of_ge {aBufferSize : ι → UInt32} {i : ι} {n : ℕ} (hn : (aBufferSize i).toNat = n)
    (hlo : 2 ^ 31 ≤ n) (hhi : n + 1 < 2 ^ 32) : ¬ ReplaysReads aBufferSize := by
  intro hall
  obtain ⟨b, h, hr, hd, hrun⟩ := exists_run_overflowCalls hn hlo hhi
  have hread := (hall _ _ _ _ hrun i []).1
  rw [Function.update_self, ByteBuffer.readAgain_of_lt hr (by rw [hd]; omega)] at hread
  -- the bytes that are shown are fewer than the ones that are skipped
  have hlen := congrArg List.length (Prod.mk.inj (Option.some.inj hread)).1
  have hl := hr.length
  simp only [List.length_append, List.length_nil, List.length_drop, List.length_take, hl, hd,
    length_read_overflowCalls aBufferSize hn] at hlen
  omega

/-- `ReadAgain` repeats what is read exactly if each object is asked for fewer than `2 ^ 31` bytes. -/
theorem replaysReads_iff (aBufferSize : ι → UInt32) :
    ReplaysReads aBufferSize ↔ ∀ i, (aBufferSize i).toNat < 2 ^ 31 := by
  refine ⟨fun hall i => ?_, replaysReads_of_lt⟩
  by_contra hge
  have hlt := (aBufferSize i).toNat_lt
  by_cases hs : (aBufferSize i).toNat + 1 = 2 ^ 32
  · exact not_replaysReads_of_eq hs hall
  · exact not_replaysReads_of_ge rfl (Nat.not_lt.mp hge) (by omega) hall

end

/-- One object of `2 ^ 31` bytes, filled and skipped twice. -/
theorem not_replaysReads : ¬ ReplaysReads (fun _ : Unit => (2147483648 : UInt32)) :=
  not_replaysReads_of_ge (i := ()) rfl (by decide) (by decide)

end Sfup.Client
