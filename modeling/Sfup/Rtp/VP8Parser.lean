import Sfup.Rtp.Headers

/-! The payload descriptor parser of `rtp/RtpVP8Parser.cpp`. The structure it fills is not
initialised, so its first contents are an argument, and an early return leaves some of them. -/
namespace Sfup.Rtp

inductive FrameTypes where
  | kIFrame
  | kPFrame
deriving DecidableEq, Repr

structure RTPPayloadVP8 where
  nonReferenceFrame : Bool
  beginningOfPartition : Bool
  partitionID : ℕ
  hasPictureID : Bool
  hasTl0PicIdx : Bool
  hasTID : Bool
  hasKeyIdx : Bool
  pictureID : ℕ
  tl0PicIdx : ℕ
  tID : ℕ
  layerSync : Bool
  keyIdx : ℕ
  frameWidth : ℕ
  frameHeight : ℕ
  frameType : FrameTypes
  data : ℕ
  dataLength : ℕ
deriving DecidableEq, Repr

namespace RtpVP8Parser

/-- What the parsers of the optional fields update through their pointers. -/
structure Cursor where
  vp8 : RTPPayloadVP8
  dataPtr : ℕ
  dataLength : ℤ
  parsedBytes : ℕ

def Cursor.advance (c : Cursor) : Cursor :=
  { c with dataPtr := c.dataPtr + 1, dataLength := c.dataLength - 1, parsedBytes := c.parsedBytes + 1 }

variable (m : Mem)

/-- `false` is the error return -1. -/
def parseVP8PictureID (c : Cursor) : Bool × Cursor :=
  if c.dataLength ≤ 0 then (false, c)
  else
    let b := (m c.dataPtr).toNat
    let c := { c with vp8 := { c.vp8 with pictureID := b % 128 } }
    if 128 ≤ b then
      let c := c.advance
      if c.dataLength ≤ 0 then (false, c)
      else
        let pictureID := c.vp8.pictureID * 256 + (m c.dataPtr).toNat
        (true, { c with vp8 := { c.vp8 with pictureID } }.advance)
    else (true, c.advance)

def parseVP8Tl0PicIdx (c : Cursor) : Bool × Cursor :=
  if c.dataLength ≤ 0 then (false, c)
  else (true, { c with vp8 := { c.vp8 with tl0PicIdx := (m c.dataPtr).toNat } }.advance)

def parseVP8TIDAndKeyIdx (c : Cursor) : Bool × Cursor :=
  if c.dataLength ≤ 0 then (false, c)
  else
    let b := (m c.dataPtr).toNat
    let vp8 := if c.vp8.hasTID then { c.vp8 with tID := b / 64, layerSync := b / 32 % 2 = 1 } else c.vp8
    let vp8 := if vp8.hasKeyIdx then { vp8 with keyIdx := b % 32 } else vp8
    (true, { c with vp8 }.advance)

def optionally (present : Bool) (parse : Cursor → Bool × Cursor) (r : Bool × Cursor) : Bool × Cursor :=
  if r.1 && present then parse r.2 else r

/-- The extension byte and the fields it announces; `none` in place of the parsed bytes is the error. -/
def parseVP8Extension (vp8 : RTPPayloadVP8) (dataPtr : ℕ) (dataLength : ℤ) : Option ℕ × RTPPayloadVP8 :=
  if dataLength ≤ 0 then (none, vp8)
  else
    let b := (m dataPtr).toNat
    let vp8 := { vp8 with hasPictureID := b / 128 % 2 = 1, hasTl0PicIdx := b / 64 % 2 = 1,
                          hasTID := b / 32 % 2 = 1, hasKeyIdx := b / 16 % 2 = 1 }
    let c : Cursor := { vp8, dataPtr := dataPtr + 1, dataLength := dataLength - 1, parsedBytes := 1 }
    let (ok, c) := optionally (vp8.hasTID || vp8.hasKeyIdx) (parseVP8TIDAndKeyIdx m)
      (optionally vp8.hasTl0PicIdx (parseVP8Tl0PicIdx m)
        (optionally vp8.hasPictureID (parseVP8PictureID m) (true, c)))
    (if ok then some c.parsedBytes else none, c.vp8)

def parseVP8FrameSize (vp8 : RTPPayloadVP8) (dataPtr : ℕ) (dataLength : ℤ) : RTPPayloadVP8 :=
  if vp8.frameType ≠ .kIFrame ∨ dataLength < 10 then vp8
  else
    { vp8 with frameWidth := ((m (dataPtr + 7)).toNat * 256 + (m (dataPtr + 6)).toNat) % 16384,
               frameHeight := ((m (dataPtr + 9)).toNat * 256 + (m (dataPtr + 8)).toNat) % 16384 }

def parsePayload (vp8 : RTPPayloadVP8) (dataPtr : ℕ) (dataLength : ℤ) : RTPPayloadVP8 :=
  if dataLength ≤ 0 then vp8
  else
    let frameType : FrameTypes :=
      if vp8.beginningOfPartition && decide (vp8.partitionID = 0) && decide ((m dataPtr).toNat % 2 = 0) then
        .kIFrame
      else .kPFrame
    let vp8 := parseVP8FrameSize m { vp8 with frameType } dataPtr dataLength
    { vp8 with data := dataPtr, dataLength := dataLength.toNat }

def parseVP8 (vp8 : RTPPayloadVP8) (data : ℕ) (dataLength : ℤ) : RTPPayloadVP8 :=
  let b := (m data).toNat
  let vp8 := { vp8 with nonReferenceFrame := b / 32 % 2 = 1, beginningOfPartition := b / 16 % 2 = 1,
                        partitionID := b % 16 }
  if vp8.partitionID > 8 then vp8
  else if 128 ≤ b then
    match parseVP8Extension m vp8 (data + 1) (dataLength - 1) with
    | (none, vp8) => vp8
    | (some parsedBytes, vp8) =>
      parsePayload m vp8 (data + 1 + parsedBytes) (dataLength - 1 - parsedBytes)
  else parsePayload m vp8 (data + 1) (dataLength - 1)

variable {m}

private theorem parseVP8FrameSize_beginning (vp8 : RTPPayloadVP8) (p : ℕ) (n : ℤ) :
    (parseVP8FrameSize m vp8 p n).beginningOfPartition = vp8.beginningOfPartition := by
  unfold parseVP8FrameSize
  split_ifs <;> rfl

theorem parsePayload_pos (vp8 : RTPPayloadVP8) (p : ℕ) {n : ℤ} (hn : 0 < n) :
    (parsePayload m vp8 p n).beginningOfPartition = vp8.beginningOfPartition ∧
      (parsePayload m vp8 p n).data = p ∧ (parsePayload m vp8 p n).dataLength = n.toNat := by
  unfold parsePayload
  rw [if_neg (by omega)]
  exact ⟨parseVP8FrameSize_beginning _ _ _, rfl, rfl⟩

/-- A descriptor of one byte, for partition 0. -/
theorem parseVP8_oneByte {data n : ℕ} {first : Bool} (hd : m data = if first then 0x10 else 0x00)
    (hn : 0 < n) (vp8 : RTPPayloadVP8) :
    (parseVP8 m vp8 data (n + 1)).beginningOfPartition = first ∧
      (parseVP8 m vp8 data (n + 1)).data = data + 1 ∧
      (parseVP8 m vp8 data (n + 1)).dataLength = n := by
  have hp : parseVP8 m vp8 data (n + 1) = parsePayload m { vp8 with
      nonReferenceFrame := false, beginningOfPartition := first, partitionID := 0 } (data + 1) n := by
    cases first <;> simp [parseVP8, hd]
  rw [hp]
  obtain ⟨h₁, h₂, h₃⟩ := parsePayload_pos (m := m) { vp8 with
      nonReferenceFrame := false, beginningOfPartition := first, partitionID := 0 } (data + 1)
      (Int.natCast_pos.mpr hn)
  exact ⟨h₁, h₂, h₃⟩

/-! ## Where the type of a frame is set -/

section FrameType
variable {c c' : Cursor} {k : ℕ}

def fieldsLength (m : Mem) (dataPtr b : ℕ) : ℕ :=
  (if b / 128 % 2 = 1 then if 128 ≤ (m dataPtr).toNat then 2 else 1 else 0) +
    (if b / 64 % 2 = 1 then 1 else 0) + (if b / 32 % 2 = 1 ∨ b / 16 % 2 = 1 then 1 else 0)

def descriptorLength (m : Mem) (data : ℕ) : ℕ :=
  if 128 ≤ (m data).toNat then 2 + fieldsLength m (data + 2) (m (data + 1)).toNat else 1

def SameFrame (vp8 vp8' : RTPPayloadVP8) : Prop :=
  vp8'.frameType = vp8.frameType ∧ vp8'.beginningOfPartition = vp8.beginningOfPartition ∧
    vp8'.partitionID = vp8.partitionID

theorem SameFrame.trans {a b d : RTPPayloadVP8} (h : SameFrame a b) (h' : SameFrame b d) : SameFrame a d :=
  ⟨h'.1.trans h.1, h'.2.1.trans h.2.1, h'.2.2.trans h.2.2⟩

def Advances (k : ℕ) (c : Cursor) (r : Bool × Cursor) : Prop :=
  r.1 = decide ((k : ℤ) ≤ c.dataLength) ∧ SameFrame c.vp8 r.2.vp8 ∧
    (r.1 = true → r.2.dataPtr = c.dataPtr + k ∧ r.2.dataLength = c.dataLength - k ∧ r.2.parsedBytes = c.parsedBytes + k)

theorem advances_error (h : SameFrame c.vp8 c'.vp8) (hn : c.dataLength < k) : Advances k c (false, c') :=
  ⟨(decide_eq_false (not_le.mpr hn)).symm, h, nofun⟩

theorem advances_pictureID (m : Mem) (c : Cursor) :
    Advances (if 128 ≤ (m c.dataPtr).toNat then 2 else 1) c (parseVP8PictureID m c) := by
  unfold parseVP8PictureID
  by_cases hn : c.dataLength ≤ 0
  · rw [if_pos hn]
    exact advances_error ⟨rfl, rfl, rfl⟩ (by split_ifs <;> push_cast <;> omega)
  rw [if_neg hn]
  by_cases hb : 128 ≤ (m c.dataPtr).toNat
  · simp only [if_pos hb]
    split <;> rename_i hn' <;> simp only [Cursor.advance] at hn'
    · exact advances_error ⟨rfl, rfl, rfl⟩ (by push_cast; omega)
    · refine ⟨(decide_eq_true (by push_cast; omega)).symm, ⟨rfl, rfl, rfl⟩, fun _ => ⟨rfl, ?_, rfl⟩⟩
      simp only [Cursor.advance]
      push_cast
      omega
  · simp only [if_neg hb, Cursor.advance]
    exact ⟨(decide_eq_true (by push_cast; omega)).symm, ⟨rfl, rfl, rfl⟩, fun _ => ⟨rfl, rfl, rfl⟩⟩

theorem advances_tl0PicIdx (m : Mem) (c : Cursor) : Advances 1 c (parseVP8Tl0PicIdx m c) := by
  unfold parseVP8Tl0PicIdx
  split_ifs with hn
  · exact advances_error ⟨rfl, rfl, rfl⟩ (by push_cast; omega)
  · exact ⟨(decide_eq_true (by push_cast; omega)).symm, ⟨rfl, rfl, rfl⟩, fun _ => ⟨rfl, rfl, rfl⟩⟩

private theorem advances_tidAndKeyIdx (m : Mem) (c : Cursor) : Advances 1 c (parseVP8TIDAndKeyIdx m c) := by
  unfold parseVP8TIDAndKeyIdx
  split
  · rename_i hn
    exact advances_error ⟨rfl, rfl, rfl⟩ (by push_cast; omega)
  · refine ⟨(decide_eq_true (by push_cast; omega)).symm, ?_, fun _ => ⟨rfl, rfl, rfl⟩⟩
    simp only [Cursor.advance]
    split_ifs <;> exact ⟨rfl, rfl, rfl⟩

/-- The bytes of the optional fields add up. -/
theorem Advances.optionally {r : Bool × Cursor} {j : ℕ} {parse : Cursor → Bool × Cursor} (h : Advances k c r)
    (present : Bool) (hparse : ∀ c', c'.dataPtr = c.dataPtr + k → Advances j c' (parse c')) :
    Advances (k + if present then j else 0) c (optionally present parse r) := by
  obtain ⟨hr, hframe, hnext⟩ := h
  obtain ⟨ok, c'⟩ := r
  unfold RtpVP8Parser.optionally
  cases ok with
  | false =>
    have hn := of_decide_eq_false hr.symm
    simp only [Bool.false_and, Bool.false_eq_true, if_false]
    exact advances_error hframe (by split_ifs <;> push_cast <;> omega)
  | true =>
    have hn := of_decide_eq_true hr.symm
    obtain ⟨hptr, hlen, hbytes⟩ := hnext rfl
    simp only [] at hptr hlen hbytes
    cases present with
    | false => exact ⟨hr, hframe, fun _ => ⟨hptr, hlen, hbytes⟩⟩
    | true =>
      obtain ⟨hr', hframe', hnext'⟩ := hparse c' hptr
      simp only [Bool.and_self, if_true]
      refine ⟨?_, hframe.trans hframe', fun hok => ?_⟩
      · rw [hr', decide_eq_decide, hlen]
        push_cast
        omega
      · obtain ⟨hptr', hlen', hbytes'⟩ := hnext' hok
        refine ⟨by omega, ?_, by omega⟩
        rw [hlen', hlen]
        push_cast
        omega

private theorem advances_fields (m : Mem) (c : Cursor) (hn : 0 ≤ c.dataLength) (b : ℕ) :
    Advances (fieldsLength m c.dataPtr b) c
      (optionally (decide (b / 32 % 2 = 1) || decide (b / 16 % 2 = 1)) (parseVP8TIDAndKeyIdx m)
        (optionally (decide (b / 64 % 2 = 1)) (parseVP8Tl0PicIdx m)
          (optionally (decide (b / 128 % 2 = 1)) (parseVP8PictureID m) (true, c)))) := by
  have hstart : Advances 0 c (true, c) :=
    ⟨(decide_eq_true (by simpa using hn)).symm, ⟨rfl, rfl, rfl⟩, fun _ => ⟨rfl, by simp, rfl⟩⟩
  have hpic := hstart.optionally (decide (b / 128 % 2 = 1)) fun c' hc' => by
    have h := advances_pictureID m c'
    rw [hc'] at h
    exact h
  have htl0 := hpic.optionally (decide (b / 64 % 2 = 1)) fun c' _ => advances_tl0PicIdx m c'
  have htid := htl0.optionally (decide (b / 32 % 2 = 1) || decide (b / 16 % 2 = 1)) fun c' _ =>
    advances_tidAndKeyIdx m c'
  simp only [decide_eq_true_eq, Bool.or_eq_true, Nat.zero_add, Nat.add_zero] at htid
  exact htid

/-- The fields that the bits of the extension announce are there, or the extension is an error. -/
theorem parseVP8Extension_spec (vp8 : RTPPayloadVP8) {data : ℕ} (n : ℤ) (hx : 128 ≤ (m data).toNat) :
    SameFrame vp8 (parseVP8Extension m vp8 (data + 1) n).2 ∧ (parseVP8Extension m vp8 (data + 1) n).1 =
      if (descriptorLength m data : ℤ) ≤ n + 1 then some (descriptorLength m data - 1) else none := by
  have hk : descriptorLength m data = 2 + fieldsLength m (data + 2) (m (data + 1)).toNat := if_pos hx
  unfold parseVP8Extension
  by_cases hn : n ≤ 0
  · rw [if_pos hn, if_neg (by rw [hk]; push_cast; omega)]
    exact ⟨⟨rfl, rfl, rfl⟩, rfl⟩
  rw [if_neg hn]
  simp only []
  generalize (m (data + 1)).toNat = b at hk ⊢
  obtain ⟨hok, hframe, hbytes⟩ := advances_fields m ⟨{ vp8 with
    hasPictureID := decide (b / 128 % 2 = 1), hasTl0PicIdx := decide (b / 64 % 2 = 1),
    hasTID := decide (b / 32 % 2 = 1), hasKeyIdx := decide (b / 16 % 2 = 1) }, data + 2, n - 1, 1⟩ (by simp; omega) b
  generalize optionally _ _ _ = r at hok hframe hbytes ⊢
  refine ⟨hframe, ?_⟩
  by_cases hlen : (fieldsLength m (data + 2) b : ℤ) ≤ n - 1
  · rw [decide_eq_true hlen] at hok
    rw [hok, if_pos rfl, (hbytes hok).2.2, if_pos (by rw [hk]; push_cast; omega), hk]
    exact congrArg some (by simp only []; omega)
  · rw [decide_eq_false hlen] at hok
    rw [hok, if_neg Bool.false_ne_true, if_neg (by rw [hk]; push_cast; omega)]

theorem frameType_parsePayload (vp8 : RTPPayloadVP8) (p : ℕ) (n : ℤ) : (parsePayload m vp8 p n).frameType =
    if n ≤ 0 then vp8.frameType
    else if vp8.beginningOfPartition = true ∧ vp8.partitionID = 0 ∧ (m p).toNat % 2 = 0 then .kIFrame else .kPFrame := by
  unfold parsePayload parseVP8FrameSize
  split
  · rfl
  · simp only []
    split_ifs <;> simp_all

end FrameType

/-! ## Where the payload is, and the frame's type -/

section Payload
variable {c : Cursor} {vp8 vp8' : RTPPayloadVP8} {r : Bool × Cursor}

def SamePayload (vp8 vp8' : RTPPayloadVP8) : Prop := vp8'.data = vp8.data ∧ vp8'.dataLength = vp8.dataLength

private theorem samePayload_pictureID : SamePayload c.vp8 (parseVP8PictureID m c).2.vp8 := by
  unfold parseVP8PictureID
  by_cases hn : c.dataLength ≤ 0
  · rw [if_pos hn]
    exact ⟨rfl, rfl⟩
  rw [if_neg hn]
  by_cases hb : 128 ≤ (m c.dataPtr).toNat
  · simp only [if_pos hb]
    split <;> exact ⟨rfl, rfl⟩
  · simp only [if_neg hb]
    exact ⟨rfl, rfl⟩

private theorem samePayload_tl0PicIdx : SamePayload c.vp8 (parseVP8Tl0PicIdx m c).2.vp8 := by
  simp only [parseVP8Tl0PicIdx, Cursor.advance, SamePayload]
  split_ifs <;> simp only [and_self]

private theorem samePayload_tidAndKeyIdx : SamePayload c.vp8 (parseVP8TIDAndKeyIdx m c).2.vp8 := by
  simp only [parseVP8TIDAndKeyIdx, Cursor.advance, SamePayload]
  split_ifs <;> simp only [and_self]

theorem SamePayload.optionally {present : Bool} {parse : Cursor → Bool × Cursor} (h : SamePayload vp8 r.2.vp8)
    (hparse : ∀ c, SamePayload c.vp8 (parse c).2.vp8) : SamePayload vp8 (optionally present parse r).2.vp8 := by
  unfold RtpVP8Parser.optionally
  split_ifs
  · exact ⟨(hparse r.2).1.trans h.1, (hparse r.2).2.trans h.2⟩
  · exact h

private theorem samePayload_extension (m : Mem) (vp8 : RTPPayloadVP8) (dataPtr : ℕ) (n : ℤ) :
    SamePayload vp8 (parseVP8Extension m vp8 dataPtr n).2 := by
  unfold parseVP8Extension
  by_cases hn : n ≤ 0
  · rw [if_pos hn]
    exact ⟨rfl, rfl⟩
  · rw [if_neg hn]
    have hstart : ∀ c : Cursor, SamePayload c.vp8 (true, c).2.vp8 := fun _ => ⟨rfl, rfl⟩
    exact (((hstart _).optionally fun _ => samePayload_pictureID).optionally fun _ =>
      samePayload_tl0PicIdx).optionally fun _ => samePayload_tidAndKeyIdx

/-- There is a payload: the descriptor is not damaged and a byte follows it. -/
def HasPayload (m : Mem) (data : ℕ) (n : ℤ) : Prop := (m data).toNat % 16 ≤ 8 ∧ (descriptorLength m data : ℤ) < n

instance (m : Mem) (data : ℕ) (n : ℤ) : Decidable (HasPayload m data n) := inferInstanceAs (Decidable (_ ∧ _))

def firstByte (m : Mem) (vp8 : RTPPayloadVP8) (data : ℕ) : RTPPayloadVP8 :=
  { vp8 with
    nonReferenceFrame := (m data).toNat / 32 % 2 = 1
    beginningOfPartition := (m data).toNat / 16 % 2 = 1
    partitionID := (m data).toNat % 16 }

/-- Behind the descriptor the payload is parsed, with or without an extension. Where there is none, nothing is set. -/
theorem parseVP8_eq (vp8 : RTPPayloadVP8) (data : ℕ) (n : ℤ) : ∃ vp8', SameFrame (firstByte m vp8 data) vp8' ∧
    SamePayload vp8 vp8' ∧ parseVP8 m vp8 data n =
      if 8 < (m data).toNat % 16 then firstByte m vp8 data
      else parsePayload m vp8' (data + descriptorLength m data) (n - descriptorLength m data) := by
  by_cases hx : 128 ≤ (m data).toNat
  · obtain ⟨hframe, hext⟩ := parseVP8Extension_spec (firstByte m vp8 data) (n - 1) hx
    have hsame := samePayload_extension m (firstByte m vp8 data) (data + 1) (n - 1)
    refine ⟨_, hframe, hsame, ?_⟩
    simp only [parseVP8, if_pos hx]
    split_ifs with hpart
    · rfl
    change (match parseVP8Extension m (firstByte m vp8 data) (data + 1) (n - 1) with
      | (none, vp8) => vp8
      | (some parsedBytes, vp8) => parsePayload m vp8 (data + 1 + parsedBytes) (n - 1 - parsedBytes)) = _
    generalize parseVP8Extension m (firstByte m vp8 data) (data + 1) (n - 1) = r at hext ⊢
    obtain ⟨parsed, vp8'⟩ := r
    simp only [sub_add_cancel] at hext
    subst hext
    have hpos : 1 ≤ descriptorLength m data := by
      unfold descriptorLength
      rw [if_pos hx]
      omega
    have hptr : data + 1 + (descriptorLength m data - 1) = data + descriptorLength m data := by omega
    have hlen : n - 1 - ((descriptorLength m data - 1 : ℕ) : ℤ) = n - descriptorLength m data := by omega
    split_ifs with hn
    · simp only [hptr, hlen]
    · exact (if_pos (by omega)).symm
  · have hone : descriptorLength m data = 1 := if_neg hx
    refine ⟨firstByte m vp8 data, ⟨rfl, rfl, rfl⟩, ⟨rfl, rfl⟩, ?_⟩
    rw [hone]
    simp only [parseVP8, if_neg hx]
    rfl

/-- The type of the frame is set if the descriptor is not damaged and a byte follows it. -/
theorem frameType_parseVP8 (vp8 : RTPPayloadVP8) (data : ℕ) (n : ℤ) : (parseVP8 m vp8 data n).frameType =
    if (m data).toNat % 16 ≤ 8 ∧ (descriptorLength m data : ℤ) < n then
      if (m data).toNat / 16 % 2 = 1 ∧ (m data).toNat % 16 = 0 ∧ (m (data + descriptorLength m data)).toNat % 2 = 0 then
        .kIFrame
      else .kPFrame
    else vp8.frameType := by
  obtain ⟨vp8', ⟨htype, hbegin, hid⟩, -, heq⟩ := parseVP8_eq (m := m) vp8 data n
  rw [heq]
  by_cases hpart : 8 < (m data).toNat % 16
  · rw [if_pos hpart, if_neg (by omega)]
    rfl
  rw [if_neg hpart, frameType_parsePayload, htype, hbegin, hid]
  by_cases hn : n ≤ descriptorLength m data
  · rw [if_pos (by omega), if_neg (by omega)]
    rfl
  · have hset : (m data).toNat % 16 ≤ 8 ∧ (descriptorLength m data : ℤ) < n := ⟨by omega, by omega⟩
    rw [if_neg (by omega), if_pos hset]
    simp only [firstByte, decide_eq_true_eq]

/-- The payload is what follows the descriptor; without one the fields are left as they were. -/
theorem payload_parseVP8 (vp8 : RTPPayloadVP8) (data : ℕ) (n : ℤ) :
    (HasPayload m data n → (parseVP8 m vp8 data n).data = data + descriptorLength m data ∧
        (parseVP8 m vp8 data n).dataLength = (n - descriptorLength m data).toNat) ∧
      (¬ HasPayload m data n → SamePayload vp8 (parseVP8 m vp8 data n)) := by
  obtain ⟨vp8', -, hsame, heq⟩ := parseVP8_eq (m := m) vp8 data n
  rw [heq]
  by_cases hpart : 8 < (m data).toNat % 16
  · rw [if_pos hpart]
    exact ⟨fun h => absurd h.1 (by omega), fun _ => ⟨rfl, rfl⟩⟩
  rw [if_neg hpart]
  constructor
  · rintro ⟨-, hlt⟩
    exact (parsePayload_pos vp8' _ (by omega)).2
  · intro h
    have hle : n - descriptorLength m data ≤ 0 := by
      by_contra hn
      exact h ⟨by omega, by omega⟩
    rw [parsePayload, if_pos hle]
    exact hsame

end Payload

end RtpVP8Parser

/-- A packet of 14 bytes: a header without extras, a descriptor of one byte and one byte of payload. -/
def vp8Packet (number : UInt16) (marker : Bool) (descriptor first : UInt8) : Mem :=
  RtpHeader.setSeqNumber (fun i =>
    if i = 0 then 0x80 else if i = 1 then (if marker then 0xe4 else 0x64)
    else if i = 12 then descriptor else if i = 13 then first else 0) 0 number

/-- Memory of zeros where a payload structure is made. -/
def RTPPayloadVP8.zero : RTPPayloadVP8 :=
  ⟨false, false, 0, false, false, false, false, 0, 0, 0, false, 0, 0, 0, .kIFrame, 0, 0⟩

end Sfup.Rtp
