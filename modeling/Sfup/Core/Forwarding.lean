import Sfup.Core.Walkers
import Sfup.Rtp.ReceiverReports

/-! What the forwarder does to a compound: the walk leaves each packet as if it were the only one, so that nothing is
written but the sender of a receiver report and the rate of a bandwidth. -/
namespace Sfup.Core
open Sfup.Rtp RtcpProcessor
open RtcpAggregator (parts)

/-- A bandwidth. -/
def IsRemb (m : Mem) (p : ℕ) : Prop :=
  RtcpHeader.packettype m p = 206 ∧ RtcpHeader.getBlockCount m p = 15 ∧ RtcpHeader.isREMB m p = true

/-- The bytes that a packet has for its type: a report has all its blocks, and a bandwidth has its rate. -/
def required (m : Mem) (p : ℕ) : ℕ :=
  if RtcpHeader.packettype m p = 201 then 8 + 24 * RtcpHeader.getBlockCount m p
  else if RtcpHeader.packettype m p = 206 ∧ RtcpHeader.getBlockCount m p = 15 then
    if RtcpHeader.isREMB m p then 20 else 16
  else 4

/-- The packets of a compound fill it, and each is as long as its type requires. -/
structure WellFormed (buf : Mem) (len : ℕ) : Prop where
  fills : ((parts buf len).map (rtcpLength buf)).sum = len
  holds : ∀ p ∈ parts buf len, required buf p ≤ rtcpLength buf p

instance {buf : Mem} {len : ℕ} : Decidable (WellFormed buf len) :=
  decidable_of_iff (_ ∧ _) ⟨fun h => ⟨h.1, h.2⟩, fun h => ⟨h.fills, h.holds⟩⟩

def ReportsOn (m : Mem) (p ssrc : ℕ) : Prop := ∃ k < RtcpHeader.getBlockCount m p, m.long (p + 8 + 24 * k) = ssrc

instance {m : Mem} {p ssrc : ℕ} : Decidable (ReportsOn m p ssrc) :=
  inferInstanceAs (Decidable (∃ k < _, _))

/-- A compound of one packet, without a block. -/
def IsLoneEmpty (buf : Mem) (len : ℕ) : Prop := RtcpHeader.getBlockCount buf 0 = 0 ∧ parts buf len = [0]

/-- What is left of a compound, with the length to send. -/
structure Forwards (e : Endpoints) (buf : Mem) (len : ℕ) (r : ℕ × Mem) : Prop where
  dropped : RtcpHeader.isFeedback buf 0 = false ∨ IsLoneEmpty buf len → r = (0, buf)
  sent : RtcpHeader.isFeedback buf 0 = true → ¬ IsLoneEmpty buf len → r.1 = len
  kept : ∀ i, r.2 i ≠ buf i → ∃ p ∈ parts buf len,
    RtcpHeader.packettype buf p = 201 ∧ p + 4 ≤ i ∧ i < p + 8 ∨ IsRemb buf p ∧ p + 17 ≤ i ∧ i < p + 20
  senders : RtcpHeader.isFeedback buf 0 = true → ¬ IsLoneEmpty buf len → ∀ p ∈ parts buf len,
    RtcpHeader.packettype buf p = 201 → RtcpHeader.getSSRC r.2 p =
      (if ReportsOn buf p e.videoSourceSSRC then e.videoSinkSSRC else e.audioSinkSSRC) % 2 ^ 32

/-- The place of the first source has the video source, but the report has no block; or it has another source, and the
video source is in a later block. -/
def Misread (m : Mem) (p ssrc : ℕ) : Prop :=
  RtcpHeader.getBlockCount m p = 0 ∧ RtcpHeader.getSourceSSRC m p = ssrc ∨
    RtcpHeader.getSourceSSRC m p ≠ ssrc ∧ ∃ k, 0 < k ∧ k < RtcpHeader.getBlockCount m p ∧
      m.long (p + 8 + 24 * k) = ssrc

/-! ## One packet -/

section Part
variable {m m' : Mem} {p i : ℕ} {e : Endpoints} {maxVideoBw : ℕ}

/-- What the forwarder does with a packet. -/
theorem forwardPart_cases (e : Endpoints) (maxVideoBw : ℕ) (m : Mem) (p : ℕ) :
    RtcpHeader.packettype m p = 201 ∧ RtcpForwarder.forwardPart e maxVideoBw m p = RtcpHeader.setSSRC m p
        (if RtcpHeader.getSourceSSRC m p = e.videoSourceSSRC then e.videoSinkSSRC else e.audioSinkSSRC) ∨
      IsRemb m p ∧ RtcpForwarder.forwardPart e maxVideoBw m p =
        RtcpHeader.setREMBBitRate m p (min (RtcpHeader.bitrate m p) maxVideoBw) ∨
      RtcpHeader.packettype m p ≠ 201 ∧ ¬ IsRemb m p ∧ RtcpForwarder.forwardPart e maxVideoBw m p = m := by
  unfold IsRemb
  simp only [RtcpForwarder.forwardPart]
  by_cases h201 : RtcpHeader.packettype m p = 201
  · left
    rw [if_pos h201]
    split_ifs
    · exact ⟨h201, rfl⟩
    · exact ⟨h201, rfl⟩
  · right
    rw [if_neg h201]
    by_cases hremb : RtcpHeader.packettype m p = 206 ∧ RtcpHeader.getBlockCount m p = 15 ∧ RtcpHeader.isREMB m p = true
    · left
      rw [if_pos hremb.1, if_pos hremb.2.1, if_pos hremb.2.2]
      refine ⟨hremb, ?_⟩
      congr 1
      split_ifs with hlt
      · exact (min_eq_left hlt.le).symm
      · exact (min_eq_right (Nat.not_lt.mp hlt)).symm
    · right
      refine ⟨h201, hremb, ?_⟩
      by_cases h206 : RtcpHeader.packettype m p = 206
      · rw [if_pos h206]
        by_cases h15 : RtcpHeader.getBlockCount m p = 15
        · rw [if_pos h15, if_neg fun h => hremb ⟨h206, h15, h⟩]
        · rw [if_neg h15]
      · rw [if_neg h206]

theorem forwardPart_of_ne (h : RtcpForwarder.forwardPart e maxVideoBw m p i ≠ m i) :
    RtcpHeader.packettype m p = 201 ∧ p + 4 ≤ i ∧ i < p + 8 ∨ IsRemb m p ∧ p + 17 ≤ i ∧ i < p + 20 := by
  rcases forwardPart_cases e maxVideoBw m p with ⟨h201, heq⟩ | ⟨hremb, heq⟩ | ⟨-, -, heq⟩
  · rw [heq] at h
    refine Or.inl ⟨h201, ?_⟩
    by_contra hout
    by_cases hlt : i < p + 4
    · exact h (Mem.setLong_of_lt hlt)
    · exact h (Mem.setLong_of_ge (by omega))
  · rw [heq] at h
    refine Or.inr ⟨hremb, ?_⟩
    by_contra hout
    exact h (RtcpHeader.setREMBBitRate_of_ne (by omega))
  · rw [heq] at h
    exact absurd rfl h

theorem required_congr (h : ∀ i, p ≤ i → m i = m' i) : required m p = required m' p := by
  unfold required
  rw [packettype_congr h, getBlockCount_congr h, isREMB_congr h]

/-- What becomes of a packet is decided by what stands from it on. -/
theorem forwardPart_local (h : ∀ i, p ≤ i → m i = m' i) (i : ℕ) (hi : p ≤ i) :
    RtcpForwarder.forwardPart e maxVideoBw m p i = RtcpForwarder.forwardPart e maxVideoBw m' p i := by
  have hsource : RtcpHeader.getSourceSSRC m p = RtcpHeader.getSourceSSRC m' p :=
    Mem.long_congr fun i hi _ => h i (by omega)
  have hrate : RtcpHeader.bitrate m p = RtcpHeader.bitrate m' p := RtcpHeader.bitrate_congr fun i hi _ => h i (by omega)
  simp only [RtcpForwarder.forwardPart]
  rw [packettype_congr h, getBlockCount_congr h, isREMB_congr h, hsource, hrate]
  split_ifs
  · exact Mem.setLong_congr (h i hi)
  · exact Mem.setLong_congr (h i hi)
  · exact RtcpHeader.setREMBBitRate_congr (h i hi)
  · exact RtcpHeader.setREMBBitRate_congr (h i hi)
  · exact h i hi
  · exact h i hi
  · exact h i hi

private theorem forwardPart_kept (h : required m p ≤ rtcpLength m p) (hi : p + rtcpLength m p ≤ i) :
    RtcpForwarder.forwardPart e maxVideoBw m p i = m i := by
  by_contra hne
  unfold required at h
  rcases forwardPart_of_ne hne with ⟨h201, -, hlt⟩ | ⟨⟨h206, h15, hremb⟩, -, hlt⟩
  · rw [if_pos h201] at h
    omega
  · rw [if_neg (by omega), if_pos ⟨h206, h15⟩, if_pos hremb] at h
    omega

private theorem forwardPart_below (hi : i < p) : RtcpForwarder.forwardPart e maxVideoBw m p i = m i := by
  by_contra hne
  rcases forwardPart_of_ne hne with ⟨-, hle, -⟩ | ⟨-, hle, -⟩
  · omega
  · omega

end Part

/-! ## The compound -/

section Compound
variable {buf : Mem} {len p i : ℕ} {e : Endpoints} {maxVideoBw : ℕ}

/-- The bytes of a packet are those that the forwarder makes of it alone, and no others change. -/
theorem WellFormed.forwardLoop (h : WellFormed buf len) :
    (∀ p ∈ parts buf len, p ≤ i → i < p + rtcpLength buf p →
      RtcpForwarder.forwardLoop e maxVideoBw len buf i = RtcpForwarder.forwardPart e maxVideoBw buf p i) ∧
    ((∀ p ∈ parts buf len, ¬ (p ≤ i ∧ i < p + rtcpLength buf p)) →
      RtcpForwarder.forwardLoop e maxVideoBw len buf i = buf i) := by
  have hkept : ∀ m p, required m p ≤ rtcpLength m p → ∀ i, p + rtcpLength m p ≤ i →
      RtcpForwarder.forwardPart e maxVideoBw m p i = m i := fun _ _ hg _ => forwardPart_kept hg
  have hgood : ∀ {m m' : Mem} {p : ℕ}, (∀ i, p ≤ i → m i = m' i) →
      (required m p ≤ rtcpLength m p ↔ required m' p ≤ rtcpLength m' p) := by
    intro m m' p hag
    rw [required_congr hag, rtcpLength_congr hag]
  exact Walk.loop_local (fun _ _ _ => forwardPart_below) rtcpLength_congr hgood hkept forwardPart_local h.holds

theorem WellFormed.forwardLoop_changed (h : WellFormed buf len)
    (hne : RtcpForwarder.forwardLoop e maxVideoBw len buf i ≠ buf i) : ∃ p ∈ parts buf len,
      RtcpHeader.packettype buf p = 201 ∧ p + 4 ≤ i ∧ i < p + 8 ∨ IsRemb buf p ∧ p + 17 ≤ i ∧ i < p + 20 := by
  have hin : ∃ p ∈ parts buf len, p ≤ i ∧ i < p + rtcpLength buf p := by
    by_contra hout
    exact hne (h.forwardLoop.2 fun p hp hi => hout ⟨p, hp, hi⟩)
  obtain ⟨p, hp, hlo, hhi⟩ := hin
  rw [h.forwardLoop.1 p hp hlo hhi] at hne
  exact ⟨p, hp, forwardPart_of_ne hne⟩

/-- The sender of a report is the number of the sink for the source that stands first. -/
theorem WellFormed.getSSRC_forwardLoop (h : WellFormed buf len) (hp : p ∈ parts buf len)
    (h201 : RtcpHeader.packettype buf p = 201) : RtcpHeader.getSSRC (RtcpForwarder.forwardLoop e maxVideoBw len buf) p =
      (if RtcpHeader.getSourceSSRC buf p = e.videoSourceSSRC then e.videoSinkSSRC else e.audioSinkSSRC) % 2 ^ 32 := by
  have hholds := h.holds p hp
  rw [required, if_pos h201] at hholds
  have hbytes : RtcpHeader.getSSRC (RtcpForwarder.forwardLoop e maxVideoBw len buf) p =
      RtcpHeader.getSSRC (RtcpForwarder.forwardPart e maxVideoBw buf p) p :=
    Mem.long_congr fun i hlo hhi => h.forwardLoop.1 p hp (by omega) (by omega)
  rcases forwardPart_cases e maxVideoBw buf p with ⟨-, heq⟩ | ⟨⟨h206, -⟩, -⟩ | ⟨hn, -⟩
  · rw [hbytes, heq, RtcpHeader.getSSRC, RtcpHeader.setSSRC, Mem.long_setLong, UInt32.toNat_ofNat']
  · omega
  · exact absurd h201 hn

/-- A compound of one packet is one whose first length is that of the buffer. -/
theorem WellFormed.parts_eq_singleton_iff (h : WellFormed buf len) : parts buf len = [0] ↔ rtcpLength buf 0 = len := by
  have hparts : parts buf len = 0 :: if 0 + rtcpLength buf 0 < len then
    Walk.blocks rtcpLength buf len len (0 + rtcpLength buf 0) else [] := rfl
  constructor
  · intro hone
    have hsum := h.fills
    rw [hone] at hsum
    simpa using hsum
  · intro hlen
    rw [hparts, if_neg (by omega)]

theorem WellFormed.analyzes_iff (h : WellFormed buf len) :
    analyzes buf len = true ↔ RtcpHeader.isFeedback buf 0 = true ∧ ¬ IsLoneEmpty buf len := by
  rw [IsLoneEmpty, h.parts_eq_singleton_iff]
  simp [analyzes, isEmptyRr, imp_iff_not_or]

private theorem misread_iff {m : Mem} {p ssrc : ℕ} :
    Misread m p ssrc ↔ ¬ (ReportsOn m p ssrc ↔ RtcpHeader.getSourceSSRC m p = ssrc) := by
  have hfirst : RtcpHeader.getSourceSSRC m p = m.long (p + 8 + 24 * 0) := rfl
  unfold Misread ReportsOn
  constructor
  · rintro (⟨hzero, hs⟩ | ⟨hs, k, -, hk, hlong⟩) hiff
    · obtain ⟨k, hk, -⟩ := hiff.mpr hs
      omega
    · exact hs (hiff.mp ⟨k, hk, hlong⟩)
  · intro hniff
    by_cases hs : RtcpHeader.getSourceSSRC m p = ssrc
    · left
      refine ⟨?_, hs⟩
      by_contra hpos
      exact hniff ⟨fun _ => hs, fun _ => ⟨0, by omega, hfirst ▸ hs⟩⟩
    · right
      refine ⟨hs, ?_⟩
      by_contra hnone
      refine hniff ⟨?_, fun h => absurd h hs⟩
      rintro ⟨k, hk, hlong⟩
      rcases Nat.eq_zero_or_pos k with rfl | hpos
      · exact absurd (hfirst.trans hlong) hs
      · exact absurd ⟨k, hpos, hk, hlong⟩ hnone

/-- Of a well-formed compound only the senders of reports and the rates of bandwidths are written. The senders are
right exactly if no report is misread, or if the two numbers of the sink are the same. -/
theorem forwards_iff (c : Call) (f : RtcpForwarder) {buf : Mem} {len : ℕ} (h : WellFormed buf len) :
    Forwards c.ends buf len (f.analyzeFeedback c buf len).1 ↔
      (RtcpHeader.isFeedback buf 0 = true → ¬ IsLoneEmpty buf len → ∀ p ∈ parts buf len,
        RtcpHeader.packettype buf p = 201 → Misread buf p c.ends.videoSourceSSRC →
          c.ends.videoSinkSSRC % 2 ^ 32 = c.ends.audioSinkSSRC % 2 ^ 32) := by
  unfold RtcpForwarder.analyzeFeedback
  by_cases ha : analyzes buf len = true
  · rw [if_pos ha]
    obtain ⟨hfb, hlone⟩ := h.analyzes_iff.mp ha
    constructor
    · intro hf _ _ p hp h201 hmis
      have hsender := hf.senders hfb hlone p hp h201
      rw [h.getSSRC_forwardLoop hp h201] at hsender
      have hdiff := misread_iff.mp hmis
      split_ifs at hsender with hs hr hr
      · exact absurd (iff_of_true hr hs) hdiff
      · exact hsender
      · exact hsender.symm
      · exact absurd (iff_of_false hr hs) hdiff
    · intro hcond
      refine ⟨?_, fun _ _ => rfl, fun i => h.forwardLoop_changed, ?_⟩
      · rintro (hno | hempty)
        · rw [hfb] at hno
          cases hno
        · exact absurd hempty hlone
      · intro _ _ p hp h201
        rw [h.getSSRC_forwardLoop hp h201]
        by_cases hmis : Misread buf p c.ends.videoSourceSSRC
        · have heq := hcond hfb hlone p hp h201 hmis
          split_ifs
          · rfl
          · exact heq
          · exact heq.symm
          · rfl
        · have hiff := not_not.mp (mt misread_iff.mpr hmis)
          simp only [hiff]
  · rw [if_neg ha]
    have hno : ¬ (RtcpHeader.isFeedback buf 0 = true ∧ ¬ IsLoneEmpty buf len) := mt h.analyzes_iff.mpr ha
    constructor
    · intro _ hfb hlone
      exact absurd ⟨hfb, hlone⟩ hno
    · intro _
      exact ⟨fun _ => rfl, fun hfb hlone => absurd ⟨hfb, hlone⟩ hno, fun i hne => absurd rfl hne,
        fun hfb hlone => absurd ⟨hfb, hlone⟩ hno⟩

/-- A receiver report without a block, and a NACK behind it. -/
def blocklessReport : Mem := fun i =>
  [0x80, 201, 0, 1, 0, 0, 0, 9, 0x81, 205, 0, 3, 0, 0, 0, 9, 0, 0, 0, 2, 0, 7, 0, 0].getD i 0

/-- The sender is changed to the audio number of the sink, and nothing is written of the NACK. -/
theorem forwards_blocklessReport : WellFormed blocklessReport 24 ∧
    Forwards ⟨1, 2, 3, 4⟩ blocklessReport 24
      ((RtcpForwarder.new 0 300000).analyzeFeedback ⟨⟨1, 2, 3, 4⟩, ⟨0, 0⟩, ⟨0, 0⟩, 0⟩ blocklessReport 24).1 := by
  have hwf : WellFormed blocklessReport 24 := by decide +kernel
  refine ⟨hwf, (forwards_iff ⟨⟨1, 2, 3, 4⟩, ⟨0, 0⟩, ⟨0, 0⟩, 0⟩ _ hwf).mpr ?_⟩
  intro _ _ p hp h201 hmis
  have hp0 : ∀ p ∈ parts blocklessReport 24, RtcpHeader.packettype blocklessReport p = 201 → p = 0 := by decide +kernel
  obtain rfl := hp0 p hp h201
  rcases hmis with ⟨-, hs⟩ | ⟨-, k, -, hk, -⟩
  · exact absurd hs (by decide)
  · exact absurd hk (by simp [RtcpHeader.getBlockCount, RtcpHeader.blockcount, blocklessReport])

/-- With the header of the NACK as the number of the video source, the report is taken for one about it. -/
theorem not_forwards_blocklessReport : WellFormed blocklessReport 24 ∧
    ¬ Forwards ⟨1, 0x81CD0003, 3, 4⟩ blocklessReport 24 ((RtcpForwarder.new 0 300000).analyzeFeedback
      ⟨⟨1, 0x81CD0003, 3, 4⟩, ⟨0, 0⟩, ⟨0, 0⟩, 0⟩ blocklessReport 24).1 := by
  refine ⟨by decide +kernel, ?_⟩
  intro hf
  have hlone : ¬ IsLoneEmpty blocklessReport 24 := by
    unfold IsLoneEmpty
    decide +kernel
  have hsender := hf.senders (by decide) hlone 0 (by decide +kernel) (by decide)
  revert hsender
  decide +kernel

end Compound

/-! ## The cap -/

/-- The cap that was set last, or else the first one. -/
def lastSet (maxVideoBw : UInt32) (evs : List RtcpForwarder.Event) : UInt32 :=
  evs.foldl (fun cap ev => match ev with
    | .setMaxVideoBW bandwidth => bandwidth
    | _ => cap) maxVideoBw

/-- The rate is kept below the cap, and is that of the cap from there on. -/
structure Caps (cap : ℕ) (buf : Mem) (p : ℕ) (buf' : Mem) : Prop where
  below : RtcpHeader.advertised buf p < cap → RtcpHeader.advertised buf' p = RtcpHeader.advertised buf p
  above : cap ≤ RtcpHeader.advertised buf p →
    Scaled (2 ^ 18 - 1) cap (RtcpHeader.getBrMantis buf' p) (RtcpHeader.getBrExp buf' p)

/-- The bandwidth that is counted for the sender is the announced rate. -/
def Counts (s : Stats) (buf : Mem) (p : ℕ) : Prop :=
  (s.processPart buf p).statsPacket (RtcpHeader.getSSRC buf p) .bandwidth = some (RtcpHeader.advertised buf p)

/-- The rate has 32 bits. Below the cap its mantissa is not the greatest one, and the value in the place of the cap does
not cut it; from the cap on that value is written as the cap would be. -/
structure Cappable (cap field : ℕ) (buf : Mem) (p : ℕ) : Prop where
  fits : RtcpHeader.advertised buf p < 2 ^ 32
  below : RtcpHeader.advertised buf p < cap →
    RtcpHeader.getBrMantis buf p ≠ 2 ^ 18 - 1 ∧ RtcpHeader.advertised buf p ≤ field
  above : cap ≤ RtcpHeader.advertised buf p → ∃ m e, Scaled (2 ^ 18 - 1) cap m e ∧
    Scaled (2 ^ 18 - 1) (min (RtcpHeader.advertised buf p) field) m e

section Cap
variable {buf : Mem} {len p : ℕ} {e : Endpoints}

/-- The constructor leaves what was in memory, and nothing but `setMaxVideoBW` writes there. -/
theorem maxVideoBw_run {f : RtcpForwarder} {field : UInt32} (h : f.maxVideoBw = field.toNat)
    (evs : List RtcpForwarder.Event) : (f.run evs).maxVideoBw = (lastSet field evs).toNat := by
  induction evs generalizing f field with
  | nil => exact h
  | cons ev evs ih =>
    cases ev with
    | setMaxVideoBW bandwidth => exact ih rfl
    | analyzeFeedback c buf len =>
      apply ih
      simp only [RtcpForwarder.step, RtcpForwarder.analyzeFeedback]
      split_ifs
      · exact h
      · exact h
    | _ => exact ih h

/-- The rate of a bandwidth behind the forwarder. -/
theorem WellFormed.scaled_forwardLoop (h : WellFormed buf len) (hp : p ∈ parts buf len) (hr : IsRemb buf p)
    (maxVideoBw : ℕ) : Scaled (2 ^ 18 - 1) (min (RtcpHeader.bitrate buf p) maxVideoBw)
      (RtcpHeader.getBrMantis (RtcpForwarder.forwardLoop e maxVideoBw len buf) p)
      (RtcpHeader.getBrExp (RtcpForwarder.forwardLoop e maxVideoBw len buf) p) := by
  have hholds := h.holds p hp
  obtain ⟨h206, h15, hremb⟩ := hr
  rw [required, if_neg (by omega), if_pos ⟨h206, h15⟩, if_pos hremb] at hholds
  have hbytes : ∀ i, p + 17 ≤ i → i < p + 20 → RtcpForwarder.forwardLoop e maxVideoBw len buf i =
      RtcpHeader.setREMBBitRate buf p (min (RtcpHeader.bitrate buf p) maxVideoBw) i := by
    intro i hlo hhi
    rw [h.forwardLoop.1 p hp (by omega) (by omega)]
    rcases forwardPart_cases e maxVideoBw buf p with ⟨h201, -⟩ | ⟨-, heq⟩ | ⟨-, hn, -⟩
    · omega
    · rw [heq]
    · exact absurd ⟨h206, h15, hremb⟩ hn
  rw [RtcpHeader.getBrMantis_congr hbytes, RtcpHeader.getBrExp_congr hbytes]
  exact RtcpHeader.scaled_setREMBBitRate (lt_of_le_of_lt (Nat.min_le_left _ _) RtcpHeader.bitrate_lt)

theorem counts_iff (s : Stats) (hr : IsRemb buf p) : Counts s buf p ↔ RtcpHeader.advertised buf p < 2 ^ 32 := by
  obtain ⟨h206, h15, hremb⟩ := hr
  have hset : (s.processPart buf p).statsPacket (RtcpHeader.getSSRC buf p) .bandwidth =
      some (RtcpHeader.bitrate buf p) := by
    simp [Stats.processPart, Stats.set, h206, h15, hremb]
  rw [Counts, hset, Option.some_inj, RtcpHeader.bitrate_eq_advertised_iff]

/-- A rate that is written again is the same exactly if its mantissa is not the greatest one. -/
theorem eq_advertised_iff {m e : ℕ} (h : Scaled (2 ^ 18 - 1) (RtcpHeader.advertised buf p) m e) :
    m * 2 ^ e = RtcpHeader.advertised buf p ↔ RtcpHeader.getBrMantis buf p ≠ 2 ^ 18 - 1 := by
  unfold RtcpHeader.advertised at *
  have hlt := RtcpHeader.getBrMantis_lt (m := buf) (p := p)
  constructor
  · intro heq hmax
    rw [hmax] at h heq
    exact h.ne_of_odd (by decide) heq
  · intro hne
    exact h.eq_of_lt (by omega)

/-- After any calls, the rate of a bandwidth is capped as it should be and counted exactly under the conditions of
`Cappable`. -/
theorem caps_iff (uninitialized maxVideoBw : UInt32) (evs : List RtcpForwarder.Event) (c : Call) (s : Stats)
    {buf : Mem} {len p : ℕ} (h : WellFormed buf len) (ha : analyzes buf len = true) (hp : p ∈ parts buf len) (hr : IsRemb buf p) :
    Caps (lastSet maxVideoBw evs).toNat buf p
        (((RtcpForwarder.new uninitialized maxVideoBw).run evs).analyzeFeedback c buf len).1.2 ∧ Counts s buf p ↔
      Cappable (lastSet maxVideoBw evs).toNat (lastSet uninitialized evs).toNat buf p := by
  have hfield : ((RtcpForwarder.new uninitialized maxVideoBw).run evs).maxVideoBw = (lastSet uninitialized evs).toNat :=
    maxVideoBw_run rfl evs
  have hbuf : (((RtcpForwarder.new uninitialized maxVideoBw).run evs).analyzeFeedback c buf len).1.2 =
      RtcpForwarder.forwardLoop c.ends (lastSet uninitialized evs).toNat len buf := by
    rw [RtcpForwarder.analyzeFeedback, if_pos ha, hfield]
  have hs := h.scaled_forwardLoop (e := c.ends) hp hr (lastSet uninitialized evs).toNat
  rw [hbuf, counts_iff s hr]
  generalize RtcpForwarder.forwardLoop c.ends (lastSet uninitialized evs).toNat len buf = buf' at hs ⊢
  generalize (lastSet uninitialized evs).toNat = field at hs ⊢
  constructor
  · rintro ⟨hcaps, hfits⟩
    rw [RtcpHeader.bitrate_eq_advertised_iff.mpr hfits] at hs
    refine ⟨hfits, ?_, fun hle => ⟨_, _, hcaps.above hle, hs⟩⟩
    intro hlt
    have heq := hcaps.below hlt
    have hle := hs.le
    have hfield : RtcpHeader.advertised buf p ≤ field := by
      rw [← heq]
      exact hle.trans (Nat.min_le_right _ _)
    rw [min_eq_left hfield] at hs
    exact ⟨(eq_advertised_iff hs).mp heq, hfield⟩
  · intro hc
    rw [RtcpHeader.bitrate_eq_advertised_iff.mpr hc.fits] at hs
    refine ⟨⟨?_, ?_⟩, hc.fits⟩
    · intro hlt
      obtain ⟨hne, hfield⟩ := hc.below hlt
      rw [min_eq_left hfield] at hs
      exact (eq_advertised_iff hs).mpr hne
    · intro hle
      obtain ⟨m, e, hcap, hmin⟩ := hc.above hle
      obtain ⟨hm, he⟩ := hs.unique hmin
      rw [hm, he]
      exact hcap

def exampleRemb (high middle low : UInt8) : Mem := fun i =>
  [0x8F, 206, 0, 5, 0, 0, 0, 9, 0, 0, 0, 2, 0x52, 0x45, 0x4D, 0x42, 1, high, middle, low, 0, 0, 0, 2].getD i 0

def exampleCall : Call := ⟨⟨1, 2, 3, 4⟩, ⟨0, 0⟩, ⟨0, 0⟩, 0⟩

/-- A rate of 200000 is below a cap of 300000, and is kept. -/
theorem caps_exampleRemb : ∃ buf, WellFormed buf 24 ∧ analyzes buf 24 = true ∧ 0 ∈ parts buf 24 ∧ IsRemb buf 0 ∧
    Caps 300000 buf 0
      (((RtcpForwarder.new 0 300000).run [.setMaxVideoBW 300000]).analyzeFeedback exampleCall buf 24).1.2 ∧
    Counts ⟨fun _ _ => none⟩ buf 0 := by
  have hwf : WellFormed (exampleRemb 8 0xC3 0x50) 24 := by decide +kernel
  have ha : analyzes (exampleRemb 8 0xC3 0x50) 24 = true := by decide +kernel
  have hp : 0 ∈ parts (exampleRemb 8 0xC3 0x50) 24 := List.mem_cons_self
  have hr : IsRemb (exampleRemb 8 0xC3 0x50) 0 := ⟨by decide, by decide, by decide⟩
  have hrate : RtcpHeader.advertised (exampleRemb 8 0xC3 0x50) 0 = 200000 := by decide +kernel
  have hmantis : RtcpHeader.getBrMantis (exampleRemb 8 0xC3 0x50) 0 = 50000 := by decide +kernel
  have hcap : Cappable 300000 300000 (exampleRemb 8 0xC3 0x50) 0 :=
    ⟨by omega, fun _ => ⟨by omega, by omega⟩, fun hle => by omega⟩
  exact ⟨_, hwf, ha, hp, hr, (caps_iff 0 300000 [.setMaxVideoBW 300000] exampleCall _ hwf ha hp hr).mpr hcap⟩

/-- A rate of 2^32, with the mantissa 2^17 and the exponent 15, is a rate of 0 for both. -/
theorem not_caps_exampleRemb : ∃ buf, WellFormed buf 24 ∧ analyzes buf 24 = true ∧ 0 ∈ parts buf 24 ∧ IsRemb buf 0 ∧
    RtcpHeader.advertised buf 0 = 2 ^ 32 ∧
    ¬ Caps 300000 buf 0
      (((RtcpForwarder.new 0 300000).run [.setMaxVideoBW 300000]).analyzeFeedback exampleCall buf 24).1.2 ∧
    ¬ Counts ⟨fun _ _ => none⟩ buf 0 := by
  have hr : IsRemb (exampleRemb 62 0 0) 0 := ⟨by decide, by decide, by decide⟩
  have hrate : RtcpHeader.advertised (exampleRemb 62 0 0) 0 = 2 ^ 32 := by decide +kernel
  have hzero : RtcpHeader.getBrMantis (((RtcpForwarder.new 0 300000).run [.setMaxVideoBW 300000]).analyzeFeedback
      exampleCall (exampleRemb 62 0 0) 24).1.2 0 = 0 ∧ RtcpHeader.getBrExp (((RtcpForwarder.new 0 300000).run
      [.setMaxVideoBW 300000]).analyzeFeedback exampleCall (exampleRemb 62 0 0) 24).1.2 0 = 0 := by decide +kernel
  refine ⟨exampleRemb 62 0 0, by decide +kernel, by decide +kernel, List.mem_cons_self, hr, hrate, ?_, ?_⟩
  · intro hcaps
    have hs := hcaps.above (by omega)
    rw [hzero.1, hzero.2] at hs
    exact absurd hs.lt (by decide)
  · rw [counts_iff _ hr, hrate]
    exact lt_irrefl _

end Cap
end Sfup.Core
