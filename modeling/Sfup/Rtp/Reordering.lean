import Sfup.Rtp.PacketQueue
import Mathlib.Data.List.Pairwise
import Mathlib.Data.List.ReduceOption

/-! What the reordering queue guarantees: duplicates, as long as the search meets them, and order
across the wrap of the sequence numbers, for packets that stay within half a turn. -/
namespace Sfup.Rtp.RtpPacketQueue
open Sfup.Transition

variable {α : Type*} [RtpPacket α]

/-- No packet in front of a queued duplicate stops the search for the place of a pushed packet. -/
def MeetsDuplicate (q : RtpPacketQueue α) : Op α → Prop
  | .push packet => q.tooLate (getSeqNumber packet) = false →
    ∀ pre x post, q.queue = pre ++ x :: post → getSeqNumber x = getSeqNumber packet →
      ∀ y ∈ pre, rtpSequenceLessThan (getSeqNumber y) (getSeqNumber packet) = false
  | _ => True

private theorem insertPacket_nodup {packet : α} {queue : List α} (hn : (queue.map getSeqNumber).Nodup)
    (hm : ∀ pre x post, queue = pre ++ x :: post → getSeqNumber x = getSeqNumber packet →
      ∀ y ∈ pre, rtpSequenceLessThan (getSeqNumber y) (getSeqNumber packet) = false) :
    ((insertPacket packet queue).map getSeqNumber).Nodup := by
  rcases insertPacket_cases packet queue with ⟨-, -, -, -, -, -, hi⟩ | ⟨pre, post, hq, hi, hpre, hpost⟩
  · rwa [hi]
  · have hnew : getSeqNumber packet ∉ queue.map getSeqNumber := by
      intro hmem
      obtain ⟨x, hx, hxs⟩ := List.mem_map.mp hmem
      rw [hq, List.mem_append] at hx
      rcases hx with hx | hx
      · exact (hpre x hx).1 hxs
      · cases post with
        | nil => cases hx
        | cons y post =>
          obtain ⟨hne, hlt⟩ := hpost y rfl
          rcases List.mem_cons.mp hx with rfl | hx
          · exact hne hxs
          · obtain ⟨s, t, rfl⟩ := List.append_of_mem hx
            have hf := hm (pre ++ y :: s) x t (by rw [hq]; simp) hxs y (by simp)
            rw [hf] at hlt
            cases hlt
    have hperm : (insertPacket packet queue).Perm (packet :: queue) := by
      rw [hi, hq]
      exact List.perm_middle
    exact (hperm.map getSeqNumber).nodup_iff.mpr (by simpa using ⟨by simpa using hnew, hn⟩)

private theorem step_nodup {q q' : RtpPacketQueue α} {op : Op α} {r : Option α}
    (hn : (q.queue.map getSeqNumber).Nodup) (hm : q.MeetsDuplicate op) (h : q.step op = some (r, q')) :
    (q'.queue.map getSeqNumber).Nodup := by
  cases op with
  | push packet =>
    obtain ⟨q₁, h₁, he⟩ := Option.map_eq_some_iff.mp h
    obtain ⟨-, rfl⟩ := Prod.mk.inj he
    rcases pushPacket_cases h₁ with ⟨-, rfl⟩ | ⟨hl, queue, hp, rfl⟩
    · exact hn
    · exact (insertPacket_nodup hn (hm hl)).sublist (hp.sublist.map _)
  | pop ignoreDepth =>
    have he : q.popPacket ignoreDepth = (r, q') := Option.some.inj h
    rcases q.popPacket_cases ignoreDepth with hp | ⟨queue, packet, hq, hp⟩
    · obtain ⟨-, rfl⟩ := Prod.mk.inj (hp.symm.trans he)
      exact hn
    · obtain ⟨-, rfl⟩ := Prod.mk.inj (hp.symm.trans he)
      rw [hq, List.map_append] at hn
      exact (List.nodup_append.mp hn).1
  | setTimebase timebase =>
    obtain ⟨-, rfl⟩ := Prod.mk.inj (Option.some.inj h)
    exact hn

/-- The queue holds no number twice as long as every search meets the duplicate it should. -/
theorem nodup_of_meetsDuplicate {depthInSeconds maxDepthInSeconds : ℚ} {ops : List (Op α)}
    {outs : List (Option α)} {q : RtpPacketQueue α}
    (hm : Along step MeetsDuplicate (new depthInSeconds maxDepthInSeconds) ops)
    (hr : run? step (new depthInSeconds maxDepthInSeconds) ops = some (outs, q)) :
    (q.queue.map getSeqNumber).Nodup := by
  refine run?_invariant (I := fun q : RtpPacketQueue α => (q.queue.map getSeqNumber).Nodup) ?_ ?_ hm hr
  · intro q op r q' hn hc hs
    exact step_nodup hn hc hs
  · unfold new
    split_ifs <;> exact List.nodup_nil

/-- A packet reduced to what the queue reads of it. -/
structure Stamp where
  seqNumber : UInt16
  timestamp : UInt32
deriving DecidableEq, Repr

instance : RtpPacket Stamp := ⟨Stamp.seqNumber, Stamp.timestamp⟩

theorem meetsDuplicate_of_forall {q : RtpPacketQueue α} {packet : α}
    (h : ∀ y ∈ q.queue, rtpSequenceLessThan (getSeqNumber y) (getSeqNumber packet) = false) :
    q.MeetsDuplicate (.push packet) := by
  intro _ pre x post hq _ y hy
  exact h y (by rw [hq]; exact List.mem_append_left _ hy)

/-- Two packets out of order, across the wrap, and the older one once more: its search goes past the
newer one and meets it. -/
theorem nodup_repeated :
    run? step (new (α := Stamp) 3 5) [.push ⟨7, 0⟩, .push ⟨65535, 0⟩, .push ⟨65535, 9⟩] =
      some ([none, none, none], ⟨[⟨7, 0⟩, ⟨65535, 0⟩], -1, 0, 3, 5⟩) ∧
    (([⟨7, 0⟩, ⟨65535, 0⟩] : List Stamp).map getSeqNumber).Nodup := by
  have hr : run? step (new (α := Stamp) 3 5) [.push ⟨7, 0⟩, .push ⟨65535, 0⟩, .push ⟨65535, 9⟩] =
      some ([none, none, none], ⟨[⟨7, 0⟩, ⟨65535, 0⟩], -1, 0, 3, 5⟩) := by rfl
  have hfirst : step (new (α := Stamp) 3 5) (.push ⟨7, 0⟩) = some (none, ⟨[⟨7, 0⟩], -1, 0, 3, 5⟩) := by rfl
  have hsecond : step (⟨[⟨7, 0⟩], -1, 0, 3, 5⟩ : RtpPacketQueue Stamp) (.push ⟨65535, 0⟩) =
      some (none, ⟨[⟨7, 0⟩, ⟨65535, 0⟩], -1, 0, 3, 5⟩) := by rfl
  have hm : Along step MeetsDuplicate (new (α := Stamp) 3 5)
      [.push ⟨7, 0⟩, .push ⟨65535, 0⟩, .push ⟨65535, 9⟩] := by
    refine ⟨meetsDuplicate_of_forall (by decide), fun r q h => ?_⟩
    obtain ⟨-, rfl⟩ := Prod.mk.inj (Option.some.inj (hfirst.symm.trans h))
    refine ⟨meetsDuplicate_of_forall (by decide), fun r q h => ?_⟩
    obtain ⟨-, rfl⟩ := Prod.mk.inj (Option.some.inj (hsecond.symm.trans h))
    exact ⟨meetsDuplicate_of_forall (by decide), fun _ _ _ => trivial⟩
  exact ⟨hr, nodup_of_meetsDuplicate hm hr⟩

/-- Three numbers each a quarter turn behind the next, and the first one again: its search ends in
front of the second. -/
theorem not_nodup_cycle :
    ¬∀ (ops : List (Op Stamp)) outs q, run? step (new 3 5) ops = some (outs, q) →
      (q.queue.map getSeqNumber).Nodup := by
  intro h
  have hr : run? step (new (α := Stamp) 3 5)
      [.push ⟨0, 0⟩, .push ⟨0x7000, 0⟩, .push ⟨0xE000, 0⟩, .push ⟨0, 0⟩] =
      some ([none, none, none, none], ⟨[⟨0, 0⟩, ⟨0xE000, 0⟩, ⟨0x7000, 0⟩, ⟨0, 0⟩], -1, 0, 3, 5⟩) := by rfl
  exact absurd (h _ _ _ hr) (by decide)

section
variable (idx : α → ℤ)

def Near (packets : List α) : Prop := ∀ x ∈ packets, ∀ y ∈ packets, |idx x - idx y| < 0x8000

omit [RtpPacket α] in
theorem Near.subset {idx : α → ℤ} {packets packets' : List α} (h : Near idx packets)
    (hs : packets' ⊆ packets) : Near idx packets' :=
  fun x hx y hy => h x (hs hx) y (hs hy)

/-- A pushed packet is near the queued ones and the last one popped. -/
def Window (s : RtpPacketQueue α × Option α) : Op α → Prop
  | .push packet => Near idx (packet :: (s.1.queue ++ s.2.toList))
  | _ => True

/-- The packet comes after the last one popped and is not in the queue. -/
def Fresh (s : RtpPacketQueue α × Option α) (packet : α) : Prop :=
  (∀ l ∈ s.2, idx l < idx packet) ∧ ∀ x ∈ s.1.queue, idx x ≠ idx packet

/-- A call loses no packet, except that the overflow loop may remove some after an insertion. -/
def Keeps (s : RtpPacketQueue α × Option α) (r : Option α) (q' : RtpPacketQueue α) : Op α → Prop
  | .push packet => ∃ queue, s.1.queue.Sublist queue ∧
      (Fresh idx s packet → queue.Perm (packet :: s.1.queue)) ∧
      (q' = { s.1 with queue } ∨ enforceMax queue.length { s.1 with queue } = some q')
  | .pop _ => s.1.queue = q'.queue ++ r.toList
  | .setTimebase _ => q'.queue = s.1.queue

/-- The invariant, with the last packet popped. -/
structure Ordered (s : RtpPacketQueue α × Option α) : Prop where
  decreasing : s.1.queue.Pairwise fun x y => idx y < idx x
  near : Near idx (s.1.queue ++ s.2.toList)
  after : ∀ l ∈ s.2, ∀ x ∈ s.1.queue, idx l < idx x
  given : s.1.lastSequenceNumberGiven = s.2.elim (-1) fun l => ((getSeqNumber l).toNat : ℤ)

end

section
variable {idx : α → ℤ} (hidx : ∀ p : α, ((getSeqNumber p).toNat : ℤ) = idx p % 0x10000)

include hidx

theorem lessThan_iff {x y : α} (h : |idx x - idx y| < 0x8000) :
    rtpSequenceLessThan (getSeqNumber x) (getSeqNumber y) = true ↔ idx x < idx y := by
  rw [← Serial.less_emod_iff h]
  unfold rtpSequenceLessThan Serial.less
  rw [hidx x, hidx y]
  norm_num

theorem eq_of_getSeqNumber_eq {x y : α} (h : |idx x - idx y| < 0x8000)
    (he : getSeqNumber x = getSeqNumber y) : idx x = idx y := by
  refine Serial.eq_of_emod_eq h ?_
  have hx := hidx x
  rw [he, hidx y] at hx
  exact hx.symm

theorem tooLate_iff {s : RtpPacketQueue α × Option α} {p : α} (ho : Ordered idx s)
    (hw : Window idx s (.push p)) :
    s.1.tooLate (getSeqNumber p) = true ↔ ∃ l ∈ s.2, idx p ≤ idx l := by
  have hg := ho.given
  unfold tooLate
  cases hl : s.2 with
  | none =>
    rw [hl, Option.elim_none] at hg
    simp [hg]
  | some l =>
    rw [hl, Option.elim_some] at hg
    have hpl : |idx p - idx l| < 0x8000 := hw p (by simp) l (by simp [hl])
    have hcast : UInt16.ofNat ((getSeqNumber l).toNat : ℤ).toNat = getSeqNumber l := by simp
    have hnn : ((getSeqNumber l).toNat : ℤ) ≥ 0 := Int.natCast_nonneg _
    rw [hg, hcast]
    simp only [hnn, decide_true, Bool.true_and, Bool.or_eq_true, decide_eq_true_eq, lessThan_iff hidx hpl,
      Option.mem_def, Option.some.injEq, exists_eq_left', Nat.cast_inj]
    constructor
    · rintro (hlt | he)
      · exact hlt.le
      · exact (eq_of_getSeqNumber_eq hidx hpl (UInt16.toNat_inj.mp he)).le
    · intro hle
      rcases lt_or_eq_of_le hle with hlt | he
      · exact .inl hlt
      · have hm : ((getSeqNumber p).toNat : ℤ) = (getSeqNumber l).toNat := by rw [hidx p, hidx l, he]
        exact .inr (by exact_mod_cast hm)

/-- A packet goes between the newer and the older ones. -/
theorem insertPacket_decreasing {packet : α} {queue : List α}
    (hd : queue.Pairwise fun x y => idx y < idx x) (hn : Near idx (packet :: queue)) :
    (insertPacket packet queue).Pairwise fun x y => idx y < idx x := by
  rcases insertPacket_cases packet queue with ⟨-, -, -, -, -, -, hi⟩ | ⟨pre, post, hq, hi, hpre, hpost⟩
  · rwa [hi]
  · have hnear : ∀ y ∈ queue, |idx y - idx packet| < 0x8000 := fun y hy =>
      hn y (List.mem_cons_of_mem _ hy) packet (List.mem_cons_self ..)
    have hbefore : ∀ y ∈ pre, idx packet < idx y := by
      intro y hy
      have hny := hnear y (by rw [hq]; simp [hy])
      obtain ⟨hne, hlt⟩ := hpre y hy
      have hle : ¬idx y < idx packet := by rw [← lessThan_iff hidx hny, hlt]; simp
      have hneq : idx y ≠ idx packet := by
        intro he
        apply hne
        have hm : ((getSeqNumber y).toNat : ℤ) = (getSeqNumber packet).toNat := by
          rw [hidx y, hidx packet, he]
        exact UInt16.toNat_inj.mp (by exact_mod_cast hm)
      omega
    rw [hq, List.pairwise_append] at hd
    obtain ⟨hdpre, hdpost, hcross⟩ := hd
    have hbehind : ∀ y ∈ post, idx y < idx packet := by
      cases post with
      | nil => simp
      | cons z post =>
        have hz : idx z < idx packet :=
          (lessThan_iff hidx (hnear z (by rw [hq]; simp))).mp (hpost z rfl).2
        intro y hy
        rcases List.mem_cons.mp hy with rfl | hy
        · exact hz
        · exact ((List.pairwise_cons.mp hdpost).1 y hy).trans hz
    rw [hi, List.pairwise_append, List.pairwise_cons]
    refine ⟨hdpre, ⟨hbehind, hdpost⟩, ?_⟩
    intro x hx y hy
    rcases List.mem_cons.mp hy with rfl | hy
    · exact hbefore x hx
    · exact hcross x hx y hy

theorem insertPacket_perm {packet : α} {queue : List α} (hn : Near idx (packet :: queue))
    (hne : ∀ x ∈ queue, idx x ≠ idx packet) : (insertPacket packet queue).Perm (packet :: queue) := by
  rcases insertPacket_cases packet queue with ⟨pre, x, post, hq, hx, -, -⟩ | ⟨pre, post, hq, hi, -, -⟩
  · have hmem : x ∈ queue := by rw [hq]; simp
    exact absurd (eq_of_getSeqNumber_eq hidx
      (hn x (List.mem_cons_of_mem _ hmem) packet (List.mem_cons_self ..)) hx) (hne x hmem)
  · rw [hi, hq]
    exact List.perm_middle

omit hidx in
private theorem insertPacket_subset (packet : α) (queue : List α) :
    queue.Sublist (insertPacket packet queue) ∧ insertPacket packet queue ⊆ packet :: queue := by
  rcases insertPacket_cases packet queue with ⟨-, -, -, -, -, -, hi⟩ | ⟨pre, post, hq, hi, -, -⟩
  · rw [hi]
    exact ⟨List.Sublist.refl _, List.subset_cons_self _ _⟩
  · rw [hi, hq]
    exact ⟨(List.sublist_cons_self _ _).append_left _, List.perm_middle.subset⟩

/-- One call keeps the order, and gives out a packet after the last one given. -/
theorem step_ordered {s s' : RtpPacketQueue α × Option α} {op : Op α} {r : Option α}
    (ho : Ordered idx s) (hw : Window idx s op) (h : remember step s op = some (r, s')) :
    Ordered idx s' ∧ (∀ x ∈ r, ∀ l ∈ s.2, idx l < idx x) ∧ s'.2 = r.or s.2 ∧ Keeps idx s r s'.1 op := by
  obtain ⟨q, last⟩ := s
  obtain ⟨⟨r₁, q'⟩, h₁, he⟩ := Option.map_eq_some_iff.mp h
  obtain ⟨rfl, rfl⟩ := Prod.mk.inj he
  cases op with
  | push packet =>
    obtain ⟨q₁, hpush, hq₁⟩ := Option.map_eq_some_iff.mp h₁
    obtain ⟨rfl, rfl⟩ := Prod.mk.inj hq₁
    rcases pushPacket_cases hpush with ⟨hl, rfl⟩ | ⟨hl, queue, hp, rfl⟩
    · refine ⟨ho, by simp, rfl, q₁.queue, List.Sublist.refl _, fun hf => ?_, .inl rfl⟩
      obtain ⟨l, hlast, hle⟩ := (tooLate_iff hidx ho hw).mp hl
      exact absurd (hf.1 l hlast) (not_lt.mpr hle)
    · have hnear : Near idx (packet :: q.queue) := by
        refine Near.subset hw ?_
        simp
      have hsub : queue ⊆ packet :: q.queue := List.Subset.trans hp.subset (insertPacket_subset packet q.queue).2
      have hnew : ∀ l ∈ last, idx l < idx packet := by
        intro l hlast
        by_contra hle
        rw [(tooLate_iff hidx ho hw).mpr ⟨l, hlast, not_lt.mp hle⟩] at hl
        cases hl
      refine ⟨⟨?_, ?_, ?_, ho.given⟩, by simp, rfl, insertPacket packet q.queue,
        (insertPacket_subset packet q.queue).1, ?_, .inr ?_⟩
      · exact (insertPacket_decreasing hidx ho.decreasing hnear).sublist hp.sublist
      · refine Near.subset hw ?_
        rw [← List.cons_append]
        exact List.append_subset.mpr ⟨List.Subset.trans hsub (List.subset_append_left _ _),
          List.subset_append_right _ _⟩
      · intro l hlast x hx
        rcases List.mem_cons.mp (hsub hx) with rfl | hx
        · exact hnew l hlast
        · exact ho.after l hlast x hx
      · exact fun hf => insertPacket_perm hidx hnear hf.2
      · rw [pushPacket, if_neg (by simp [hl])] at hpush
        exact hpush
  | pop ignoreDepth =>
    have hpop : q.popPacket ignoreDepth = (r₁, q') := Option.some.inj h₁
    rcases q.popPacket_cases ignoreDepth with hp | ⟨queue, packet, hq, hp⟩
    · obtain ⟨rfl, rfl⟩ := Prod.mk.inj (hp.symm.trans hpop)
      exact ⟨ho, by simp, rfl, by simp [Keeps]⟩
    · obtain ⟨rfl, rfl⟩ := Prod.mk.inj (hp.symm.trans hpop)
      have hd : (queue ++ [packet]).Pairwise fun x y => idx y < idx x := hq ▸ ho.decreasing
      rw [List.pairwise_append] at hd
      refine ⟨⟨hd.1, ?_, ?_, rfl⟩, ?_, rfl, by simpa [Keeps] using hq⟩
      · refine Near.subset ho.near ?_
        simp [hq]
      · intro l hlast x hx
        obtain rfl : packet = l := by simpa using hlast
        exact hd.2.2 x hx packet (by simp)
      · intro x hx l hlast
        obtain rfl : packet = x := by simpa using hx
        exact ho.after l hlast packet (by simp [hq])
  | setTimebase timebase =>
    obtain ⟨rfl, rfl⟩ := Prod.mk.inj (Option.some.inj h₁)
    exact ⟨⟨ho.decreasing, ho.near, ho.after, ho.given⟩, by simp, rfl, rfl⟩

omit hidx in
theorem remember_step_isSome (s : RtpPacketQueue α × Option α) (op : Op α)
    (hmax : 0 ≤ s.1.maxDepthInSeconds) :
    ∃ r s', remember step s op = some (r, s') ∧ 0 ≤ s'.1.maxDepthInSeconds := by
  cases op with
  | push packet =>
    by_cases hl : s.1.tooLate (getSeqNumber packet) = true
    · exact ⟨none, s, by simp [remember, step, pushPacket, hl], hmax⟩
    · obtain ⟨q', hq'⟩ := Option.isSome_iff_exists.mp (enforceMax_isSome
        (q := { s.1 with queue := insertPacket packet s.1.queue }) hmax le_rfl)
      obtain ⟨queue, -, rfl⟩ := enforceMax_spec hq'
      exact ⟨none, ({ s.1 with queue }, s.2), by simp [remember, step, pushPacket, hl, hq'], hmax⟩
  | pop ignoreDepth =>
    rcases s.1.popPacket_cases ignoreDepth with hp | ⟨queue, packet, -, hp⟩
    · exact ⟨none, s, by simp [remember, step, hp], hmax⟩
    · refine ⟨some packet, ((s.1.popPacket ignoreDepth).2, some packet), ?_, ?_⟩
      · simp [remember, step, hp]
      · rw [hp]
        exact hmax
  | setTimebase timebase => exact ⟨none, (s.1.setTimebase timebase, s.2), rfl, hmax⟩

/-- The packets given out along a run come in order, after the last one given before it. -/
theorem run_ordered {s s' : RtpPacketQueue α × Option α} {ops : List (Op α)} {outs : List (Option α)}
    (ho : Ordered idx s) (hw : Along (remember step) (Window idx) s ops)
    (h : run? (remember step) s ops = some (outs, s')) :
    Ordered idx s' ∧ outs.reduceOption.Pairwise (fun x y => idx x < idx y) ∧
      ∀ l ∈ s.2, ∀ x ∈ outs.reduceOption, idx l < idx x := by
  induction ops generalizing s outs with
  | nil =>
    obtain ⟨rfl, rfl⟩ := Prod.mk.inj (Option.some.inj h)
    exact ⟨ho, List.Pairwise.nil, by simp⟩
  | cons op ops ih =>
    obtain ⟨r, s₁, outs₁, h₁, h₂, rfl⟩ := run?_cons_eq_some.mp h
    obtain ⟨ho₁, hr, hlast, -⟩ := step_ordered hidx ho hw.1 h₁
    obtain ⟨ho₂, hpw, hall⟩ := ih ho₁ (hw.2 r s₁ h₁) h₂
    refine ⟨ho₂, ?_, ?_⟩
    · cases r with
      | none => exact hpw
      | some x =>
        rw [List.reduceOption_cons_of_some, List.pairwise_cons]
        exact ⟨fun y hy => hall x (by simp [hlast]) y hy, hpw⟩
    · intro l hl x hx
      cases r with
      | none =>
        rw [List.reduceOption_cons_of_none] at hx
        exact hall l (by simpa [hlast] using hl) x hx
      | some y =>
        rw [List.reduceOption_cons_of_some] at hx
        have hly : idx l < idx y := hr y rfl l hl
        rcases List.mem_cons.mp hx with rfl | hx
        · exact hly
        · exact hly.trans (hall y (by simp [hlast]) x hx)

/-- Across any number of wraps: the queue runs from new to old without a repeated number, only the
overflow loop loses packets, and those given out come in order. With limits that are not negative
every run goes through. -/
theorem reorders (depthInSeconds maxDepthInSeconds : ℚ) (ops : List (Op α))
    (hw : Along (remember step) (Window idx) (new depthInSeconds maxDepthInSeconds, none) ops) :
    (0 ≤ depthInSeconds →
      (run? (remember step) (new depthInSeconds maxDepthInSeconds, none) ops).isSome) ∧
    ∀ outs s, run? (remember step) (new depthInSeconds maxDepthInSeconds, none) ops = some (outs, s) →
      (s.1.queue.Pairwise fun x y => idx y < idx x) ∧ (s.1.queue.map getSeqNumber).Nodup ∧
      (outs.reduceOption.Pairwise fun x y => idx x < idx y) ∧
      ∀ op r s', Window idx s op → remember step s op = some (r, s') → Keeps idx s r s'.1 op := by
  constructor
  · intro hd
    refine run?_isSome (I := fun s => 0 ≤ s.1.maxDepthInSeconds) ?_ ?_ ops
    · exact remember_step_isSome
    · unfold new
      split_ifs with hge
      · norm_num
      · exact hd.trans (not_le.mp hge).le
  · intro outs s hr
    have hnew : Ordered idx (new depthInSeconds maxDepthInSeconds, none) := by
      unfold new
      split_ifs <;> exact ⟨List.Pairwise.nil, by simp [Near], by simp, rfl⟩
    obtain ⟨ho, hpw, -⟩ := run_ordered hidx hnew hw hr
    refine ⟨ho.decreasing, ?_, hpw, fun op r s' hop hs => (step_ordered hidx ho hop hs).2.2.2⟩
    rw [List.Nodup, List.pairwise_map]
    refine ho.decreasing.imp_of_mem fun {x y} hx hy hlt he => ?_
    have hnear := ho.near x (List.mem_append_left _ hx) y (List.mem_append_left _ hy)
    exact absurd (eq_of_getSeqNumber_eq hidx hnear he) hlt.ne'

end

/-- A packet by its place in the stream. -/
structure Numbered where
  index : ℤ
  timestamp : UInt32
deriving DecidableEq

instance : RtpPacket Numbered where
  getSeqNumber p := UInt16.ofNat (p.index % 0x10000).toNat
  getTimestamp := Numbered.timestamp

theorem Numbered.getSeqNumber_eq (p : Numbered) :
    ((getSeqNumber p).toNat : ℤ) = p.index % 0x10000 := by
  have h0 := Int.emod_nonneg p.index (show (0x10000 : ℤ) ≠ 0 by decide)
  have h1 := Int.emod_lt_of_pos p.index (show (0 : ℤ) < 0x10000 by decide)
  simp only [getSeqNumber, UInt16.toNat_ofNat']
  omega

/-- Packets 65536 and 65535, pushed out of order across the wrap. -/
theorem reorders_wrap : ∃ outs s, run? (remember step) (new (α := Numbered) 3 5, none)
      [.push ⟨65536, 0⟩, .push ⟨65535, 0⟩] = some (outs, s) ∧
    s.1.queue.Pairwise fun x y => y.index < x.index := by
  have hw : Along (remember step) (Window Numbered.index) (new (α := Numbered) 3 5, none)
      [.push ⟨65536, 0⟩, .push ⟨65535, 0⟩] := by
    have hs : remember step (new (α := Numbered) 3 5, none) (.push ⟨65536, 0⟩) =
        some (none, (⟨[⟨65536, 0⟩], -1, 0, 3, 5⟩, none)) := by rfl
    refine ⟨by simp [Window, Near, new], fun r s h => ?_⟩
    obtain ⟨-, rfl⟩ := Prod.mk.inj (Option.some.inj (hs.symm.trans h))
    exact ⟨by simp [Window, Near, abs_lt], fun _ _ _ => trivial⟩
  obtain ⟨hsome, hall⟩ := reorders Numbered.getSeqNumber_eq 3 5 _ hw
  obtain ⟨⟨outs, s⟩, hr⟩ := Option.isSome_iff_exists.mp (hsome (by norm_num))
  exact ⟨outs, s, hr, (hall outs s hr).1⟩

end Sfup.Rtp.RtpPacketQueue
