import Sfup.Lib.Serial
import Sfup.Lib.Transition
import Mathlib.Data.Rat.Defs
import Mathlib.Algebra.Order.Field.Rat

/-! The reordering queue of `rtp/RtpPacketQueue.cpp`. Depths are exact quotients; `none` is a
`pop_back` on an empty list. -/
namespace Sfup.Rtp
open Sfup.Transition

class RtpPacket (α : Type*) where
  getSeqNumber : α → UInt16
  getTimestamp : α → UInt32

export RtpPacket (getSeqNumber getTimestamp)

/-- The newest packet is at the front. `lastSequenceNumberGiven` is -1 before the first pop. -/
structure RtpPacketQueue (α : Type*) where
  queue : List α
  lastSequenceNumberGiven : ℤ
  timebase : UInt32
  depthInSeconds : ℚ
  maxDepthInSeconds : ℚ

/-- `x < y`, taking into account sequence number wrap. -/
def rtpSequenceLessThan (x y : UInt16) : Bool :=
  let diff : ℤ := y.toNat - x.toNat
  if diff > 0 then diff < 0x8000 else if diff < 0 then diff < -0x8000 else false

namespace RtpPacketQueue

variable {α : Type*} [RtpPacket α]

/-- Limits that are not in order are reset to the defaults. -/
def new (depthInSeconds maxDepthInSeconds : ℚ) : RtpPacketQueue α :=
  if depthInSeconds ≥ maxDepthInSeconds then
    { queue := [], lastSequenceNumberGiven := -1, timebase := 0, depthInSeconds := 3, maxDepthInSeconds := 5 }
  else { queue := [], lastSequenceNumberGiven := -1, timebase := 0, depthInSeconds, maxDepthInSeconds }

/-- The difference of the timestamps is that of unsigned 32-bit words. -/
def getDepthInSeconds (q : RtpPacketQueue α) : ℚ :=
  match q.queue.head?, q.queue.getLast? with
  | some newest, some oldest =>
    if 0 < q.timebase ∧ 1 < q.queue.length then
      ((getTimestamp newest - getTimestamp oldest).toNat : ℚ) / q.timebase.toNat
    else 0
  | _, _ => 0

def tooLate (q : RtpPacketQueue α) (current : UInt16) : Bool :=
  decide (q.lastSequenceNumberGiven ≥ 0) &&
    (rtpSequenceLessThan current (UInt16.ofNat q.lastSequenceNumberGiven.toNat) ||
      decide ((current.toNat : ℤ) = q.lastSequenceNumberGiven))

def insertPacket (packet : α) : List α → List α
  | [] => [packet]
  | q :: qs =>
    if getSeqNumber q = getSeqNumber packet then q :: qs
    else if rtpSequenceLessThan (getSeqNumber q) (getSeqNumber packet) then packet :: q :: qs
    else q :: insertPacket packet qs

def enforceMax : ℕ → RtpPacketQueue α → Option (RtpPacketQueue α)
  | fuel, q =>
    if q.getDepthInSeconds > q.maxDepthInSeconds then
      match fuel with
      | 0 => none
      | fuel + 1 => enforceMax fuel { q with queue := q.queue.dropLast }
    else some q

def pushPacket (q : RtpPacketQueue α) (packet : α) : Option (RtpPacketQueue α) :=
  if q.tooLate (getSeqNumber packet) then some q
  else
    let queue := insertPacket packet q.queue
    enforceMax queue.length { q with queue }

def popPacket (q : RtpPacketQueue α) (ignoreDepth : Bool) : Option α × RtpPacketQueue α :=
  match q.queue.getLast? with
  | some packet =>
    if ignoreDepth || decide (q.getDepthInSeconds > q.depthInSeconds) then
      (some packet, { q with queue := q.queue.dropLast,
                             lastSequenceNumberGiven := (getSeqNumber packet).toNat })
    else (none, q)
  | none => (none, q)

def setTimebase (q : RtpPacketQueue α) (timebase : UInt32) : RtpPacketQueue α := { q with timebase }

/-- A call on the queue. -/
inductive Op (α : Type*) where
  | push (packet : α)
  | pop (ignoreDepth : Bool)
  | setTimebase (timebase : UInt32)

/-- A call, with the packet it returns. -/
def step (q : RtpPacketQueue α) : Op α → Option (Option α × RtpPacketQueue α)
  | .push packet => (q.pushPacket packet).map fun q' => (none, q')
  | .pop ignoreDepth => some (q.popPacket ignoreDepth)
  | .setTimebase timebase => some (none, q.setTimebase timebase)

theorem getDepthInSeconds_le_one {q : RtpPacketQueue α} (h : q.queue.length ≤ 1) :
    q.getDepthInSeconds = 0 := by
  unfold getDepthInSeconds
  split
  · rw [if_neg (by omega)]
  · rfl

/-- The overflow loop only shortens the queue from its old end. -/
theorem enforceMax_spec {fuel : ℕ} {q q' : RtpPacketQueue α} (h : enforceMax fuel q = some q') :
    ∃ queue, queue <+: q.queue ∧ q' = { q with queue } := by
  induction fuel generalizing q with
  | zero =>
    rw [enforceMax] at h
    split_ifs at h
    obtain rfl := Option.some.inj h
    exact ⟨q.queue, List.prefix_rfl, rfl⟩
  | succ fuel ih =>
    rw [enforceMax] at h
    split_ifs at h
    · obtain ⟨queue, hp, rfl⟩ := ih h
      exact ⟨queue, hp.trans (List.dropLast_prefix _), rfl⟩
    · obtain rfl := Option.some.inj h
      exact ⟨q.queue, List.prefix_rfl, rfl⟩

/-- With a limit that is not negative the overflow loop ends before the queue is empty. -/
theorem enforceMax_isSome {fuel : ℕ} {q : RtpPacketQueue α} (hmax : 0 ≤ q.maxDepthInSeconds)
    (hf : q.queue.length ≤ fuel) : (enforceMax fuel q).isSome := by
  induction fuel generalizing q with
  | zero =>
    rw [enforceMax, getDepthInSeconds_le_one (by omega), if_neg (not_lt.mpr hmax)]
    rfl
  | succ fuel ih =>
    rw [enforceMax]
    split_ifs
    · apply ih (q := { q with queue := q.queue.dropLast }) hmax
      rw [List.length_dropLast]
      omega
    · rfl

theorem pushPacket_cases {q q' : RtpPacketQueue α} {packet : α} (h : q.pushPacket packet = some q') :
    (q.tooLate (getSeqNumber packet) = true ∧ q' = q) ∨
      (q.tooLate (getSeqNumber packet) = false ∧
        ∃ queue, queue <+: insertPacket packet q.queue ∧ q' = { q with queue }) := by
  unfold pushPacket at h
  split_ifs at h with hl
  · exact .inl ⟨hl, (Option.some.inj h).symm⟩
  · exact .inr ⟨by simpa using hl, enforceMax_spec h⟩

theorem popPacket_cases (q : RtpPacketQueue α) (ignoreDepth : Bool) :
    q.popPacket ignoreDepth = (none, q) ∨ ∃ queue packet, q.queue = queue ++ [packet] ∧
      q.popPacket ignoreDepth = (some packet,
        { q with queue, lastSequenceNumberGiven := (getSeqNumber packet).toNat }) := by
  unfold popPacket
  cases hq : q.queue.getLast? with
  | none => exact .inl rfl
  | some packet =>
    obtain ⟨queue, he⟩ := List.getLast?_eq_some_iff.mp hq
    dsimp only
    split_ifs
    · exact .inr ⟨queue, packet, he, by rw [he, List.dropLast_concat]⟩
    · exact .inl rfl

/-- Where the search stops: at the same number, in front of the first smaller one, or at the end. -/
theorem insertPacket_cases (packet : α) (queue : List α) :
    (∃ pre x post, queue = pre ++ x :: post ∧ getSeqNumber x = getSeqNumber packet ∧
      (∀ y ∈ pre, rtpSequenceLessThan (getSeqNumber y) (getSeqNumber packet) = false) ∧
      insertPacket packet queue = queue) ∨
    ∃ pre post, queue = pre ++ post ∧ insertPacket packet queue = pre ++ packet :: post ∧
      (∀ y ∈ pre, getSeqNumber y ≠ getSeqNumber packet ∧
        rtpSequenceLessThan (getSeqNumber y) (getSeqNumber packet) = false) ∧
      ∀ y ∈ post.head?, getSeqNumber y ≠ getSeqNumber packet ∧
        rtpSequenceLessThan (getSeqNumber y) (getSeqNumber packet) = true := by
  induction queue with
  | nil => exact .inr ⟨[], [], rfl, rfl, by simp, by simp⟩
  | cons q qs ih =>
    rw [insertPacket]
    split_ifs with heq hlt
    · exact .inl ⟨[], q, qs, rfl, heq, by simp, rfl⟩
    · exact .inr ⟨[], q :: qs, rfl, rfl, by simp, by simpa using ⟨heq, hlt⟩⟩
    · have hq : rtpSequenceLessThan (getSeqNumber q) (getSeqNumber packet) = false := by simpa using hlt
      rcases ih with ⟨pre, x, post, hqs, hx, hpre, hins⟩ | ⟨pre, post, hqs, hins, hpre, hpost⟩
      · refine .inl ⟨q :: pre, x, post, by rw [hqs]; rfl, hx, ?_, by rw [hins]⟩
        simpa using ⟨hq, hpre⟩
      · refine .inr ⟨q :: pre, post, by rw [hqs]; rfl, by rw [hins]; rfl, ?_, hpost⟩
        simpa using ⟨⟨heq, hq⟩, hpre⟩

end RtpPacketQueue

end Sfup.Rtp
