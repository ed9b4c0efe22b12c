import Sfup.Rtp.Reordering
import Mathlib.Logic.Relation

/-! The overflow loop of the reordering queue, turn by turn. It is decided by the timestamps of the two
end packets, which are not checked, so the depth can grow when a packet is removed. What ends the loop is
that a single packet has no depth and the constructor leaves no negative limit. -/
namespace Sfup.Rtp.RtpPacketQueue
open Relation

section Lists
variable {α : Type*}

theorem new_maxDepthInSeconds_nonneg {depthInSeconds maxDepthInSeconds : ℚ} (hmax : 0 ≤ maxDepthInSeconds) :
    0 ≤ (new depthInSeconds maxDepthInSeconds : RtpPacketQueue α).maxDepthInSeconds := by
  unfold new
  split_ifs
  · exact Nat.ofNat_nonneg 5
  · exact hmax

private theorem head?_dropLast {queue : List α} (h : 2 ≤ queue.length) : queue.dropLast.head? = queue.head? := by
  cases queue with
  | nil => rfl
  | cons x xs =>
    cases xs with
    | nil => exact absurd h (by simp)
    | cons y ys => rfl

/-- A queue without some of its oldest packets, the newest one excepted. -/
structure Trimmed (q q' : RtpPacketQueue α) : Prop where
  rest : q' = { q with queue := q'.queue }
  newest : q'.queue.head? = q.queue.head?
  oldest : q'.queue <+: q.queue

theorem Trimmed.refl (q : RtpPacketQueue α) : Trimmed q q := ⟨rfl, rfl, List.prefix_rfl⟩

end Lists

variable {α : Type*} [RtpPacket α]

def Discards (q q' : RtpPacketQueue α) : Prop :=
  q.maxDepthInSeconds < q.getDepthInSeconds ∧ q' = { q with queue := q.queue.dropLast }

variable {q q' : RtpPacketQueue α}

theorem two_le_of_tooDeep (hmax : 0 ≤ q.maxDepthInSeconds) (h : q.maxDepthInSeconds < q.getDepthInSeconds) :
    2 ≤ q.queue.length := by
  by_contra hlen
  have hzero : q.getDepthInSeconds = 0 := getDepthInSeconds_le_one (by omega)
  rw [hzero] at h
  exact absurd hmax (not_le.mpr h)

theorem Trimmed.discards {start : RtpPacketQueue α} (hmax : 0 ≤ start.maxDepthInSeconds) (h : Trimmed start q)
    (hd : Discards q q') : Trimmed start q' := by
  obtain ⟨hdeep, rfl⟩ := hd
  have hmax' : 0 ≤ q.maxDepthInSeconds := by
    rw [h.rest]
    exact hmax
  have hnewest : q.queue.dropLast.head? = q.queue.head? := head?_dropLast (two_le_of_tooDeep hmax' hdeep)
  refine ⟨?_, hnewest.trans h.newest, (List.dropLast_prefix _).trans h.oldest⟩
  rw [h.rest]

theorem trimmed_of_discards {start : RtpPacketQueue α} (hmax : 0 ≤ start.maxDepthInSeconds)
    (h : ReflTransGen Discards start q) : Trimmed start q := by
  induction h with
  | refl => exact Trimmed.refl start
  | tail _ hd ih => exact ih.discards hmax hd

/-- The function is the loop: it ends where no further turn is taken. -/
theorem enforceMax_discards {fuel : ℕ} (h : enforceMax fuel q = some q') :
    ReflTransGen Discards q q' ∧ q'.getDepthInSeconds ≤ q'.maxDepthInSeconds := by
  induction fuel generalizing q with
  | zero =>
    rw [enforceMax] at h
    split_ifs at h with hdeep
    obtain rfl := Option.some.inj h
    exact ⟨.refl, not_lt.mp hdeep⟩
  | succ fuel ih =>
    rw [enforceMax] at h
    split_ifs at h with hdeep
    · obtain ⟨hturns, hend⟩ := ih h
      exact ⟨.head ⟨hdeep, rfl⟩ hturns, hend⟩
    · obtain rfl := Option.some.inj h
      exact ⟨.refl, not_lt.mp hdeep⟩

private theorem insertPacket_ne_nil (packet : α) (queue : List α) : insertPacket packet queue ≠ [] := by
  rcases insertPacket_cases packet queue with ⟨pre, x, post, hq, -, -, hi⟩ | ⟨pre, post, -, hi, -, -⟩
  · rw [hi, hq]
    simp
  · rw [hi]
    simp

/-- For limits that are not negative, and any packets, the overflow loop ends. Each turn finds two packets
at least and removes the oldest one, the newest stays, and in the end the queue is not too deep. -/
theorem pushPacket_overflow (depthInSeconds : ℚ) {maxDepthInSeconds : ℚ}
    (hmax : 0 ≤ maxDepthInSeconds) (timebase : UInt32) (lastSequenceNumberGiven : ℤ) (queue : List α)
    (packet : α) (q start : RtpPacketQueue α)
    (hq : q = { (new depthInSeconds maxDepthInSeconds : RtpPacketQueue α) with
      queue, timebase, lastSequenceNumberGiven })
    (hstart : start = { q with queue := insertPacket packet queue })
    (hpush : q.tooLate (getSeqNumber packet) = false) :
    (∀ q₁, ReflTransGen Discards start q₁ → q₁.maxDepthInSeconds < q₁.getDepthInSeconds →
      2 ≤ q₁.queue.length) ∧
    ∃ q', q.pushPacket packet = some q' ∧ ReflTransGen Discards start q' ∧
      (∃ removed, start.queue = q'.queue ++ removed) ∧
      (∃ newest, start.queue.head? = some newest ∧ q'.queue.head? = some newest) ∧
      q'.getDepthInSeconds ≤ q'.maxDepthInSeconds := by
  have hlimit : 0 ≤ start.maxDepthInSeconds := by
    rw [hstart, hq]
    exact new_maxDepthInSeconds_nonneg hmax
  have hloop : q.pushPacket packet = enforceMax start.queue.length start := by
    have hqueue : q.queue = queue := by rw [hq]
    simp only [pushPacket, hpush, Bool.false_eq_true, if_false, hqueue, hstart]
  obtain ⟨q', hq'⟩ := Option.isSome_iff_exists.mp (enforceMax_isSome hlimit le_rfl)
  obtain ⟨hturns, hend⟩ := enforceMax_discards hq'
  have htrimmed : Trimmed start q' := trimmed_of_discards hlimit hturns
  refine ⟨fun q₁ h₁ hdeep => ?_, q', hloop.trans hq', hturns, ?_, ?_, hend⟩
  · have htrimmed₁ : Trimmed start q₁ := trimmed_of_discards hlimit h₁
    have hlimit₁ : 0 ≤ q₁.maxDepthInSeconds := by
      rw [htrimmed₁.rest]
      exact hlimit
    exact two_le_of_tooDeep hlimit₁ hdeep
  · obtain ⟨removed, hr⟩ := htrimmed.oldest
    exact ⟨removed, hr.symm⟩
  · have hne : start.queue ≠ [] := by
      rw [hstart]
      exact insertPacket_ne_nil packet queue
    obtain ⟨newest, hnewest⟩ := Option.isSome_iff_exists.mp (List.isSome_head?.mpr hne)
    exact ⟨newest, hnewest, htrimmed.newest.trans hnewest⟩

/-- Limits in the wrong order, and a packet whose timestamp is far ahead of the others: it stays. -/
theorem pushPacket_overflow_pair : ∃ q', pushPacket
      { (new 2 1 : RtpPacketQueue Stamp) with
        queue := ([⟨2, 100⟩, ⟨1, 0⟩] : List Stamp), timebase := 10, lastSequenceNumberGiven := -1 }
      ⟨3, 1000⟩ = some q' ∧ q'.queue.head? = some ⟨3, 1000⟩ := by
  obtain ⟨-, q', hpush, -, -, ⟨newest, hstart, hnewest⟩, -⟩ := pushPacket_overflow 2
    (show (0 : ℚ) ≤ 1 by decide) 10 (-1) [⟨2, 100⟩, ⟨1, 0⟩] (⟨3, 1000⟩ : Stamp) _ _ rfl rfl (by decide)
  have he : newest = ⟨3, 1000⟩ := Option.some.inj (hstart.symm.trans (by decide))
  exact ⟨q', hpush, he ▸ hnewest⟩

end Sfup.Rtp.RtpPacketQueue
