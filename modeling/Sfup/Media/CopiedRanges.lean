import Sfup.Media.ExternalOutput
import Sfup.Media.InputProcessor

/-! What the two users of the VP8 parser copy from a packet. The structure of the parser is not initialised,
and its early returns leave the range of the payload as it was; neither caller looks at the length that is
left behind the header. -/
namespace Sfup.Media
open Sfup.Rtp

/-- A range of a packet, as far as it depends on what was in the memory of the parser's structure: it does
not, and it is within the first `len` bytes. -/
def DefinedInside (range : RTPPayloadVP8 → Option (ℕ × ℕ)) (len : ℤ) : Prop :=
  ∃ r, (∀ fresh, range fresh = r) ∧ ∀ x ∈ r, ((x.1 + x.2 : ℕ) : ℤ) ≤ len

def parsedPayload (buf : Mem) (len : ℤ) (fresh : RTPPayloadVP8) : RTPPayloadVP8 :=
  RtpVP8Parser.parseVP8 buf fresh (RtpHeader.getHeaderLength buf 0) (len - RtpHeader.getHeaderLength buf 0)

/-- The descriptor behind the header of a packet is not damaged, and a byte of the packet follows it. -/
def HasPayload (buf : Mem) (len : ℤ) : Prop :=
  RtpVP8Parser.HasPayload buf (RtpHeader.getHeaderLength buf 0) (len - RtpHeader.getHeaderLength buf 0)

instance (buf : Mem) (len : ℤ) : Decidable (HasPayload buf len) :=
  inferInstanceAs (Decidable (RtpVP8Parser.HasPayload _ _ _))

theorem parsedPayload_of_hasPayload {buf : Mem} {len : ℤ} (h : HasPayload buf len) :
    ∃ r : ℕ × ℕ, ((r.1 + r.2 : ℕ) : ℤ) = len ∧
      ∀ fresh, ((parsedPayload buf len fresh).data, (parsedPayload buf len fresh).dataLength) = r := by
  have hlt := h.2
  refine ⟨(RtpHeader.getHeaderLength buf 0 + RtpVP8Parser.descriptorLength buf (RtpHeader.getHeaderLength buf 0),
    (len - RtpHeader.getHeaderLength buf 0 -
      RtpVP8Parser.descriptorLength buf (RtpHeader.getHeaderLength buf 0)).toNat), ?_, fun fresh =>
    Prod.ext ((RtpVP8Parser.payload_parseVP8 fresh _ _).1 h).1 ((RtpVP8Parser.payload_parseVP8 fresh _ _).1 h).2⟩
  simp only []
  rw [Nat.cast_add, Nat.cast_add, Int.toNat_of_nonneg (by omega)]
  omega

theorem parsedPayload_of_not {buf : Mem} {len : ℤ} (h : ¬ HasPayload buf len) (fresh : RTPPayloadVP8) :
    (parsedPayload buf len fresh).data = fresh.data ∧ (parsedPayload buf len fresh).dataLength = fresh.dataLength :=
  (RtpVP8Parser.payload_parseVP8 fresh _ _).2 h

/-- A caller that copies the payload, if it likes the length, copies a part of the packet exactly if there is
a payload. -/
theorem definedInside_iff {buf : Mem} {len : ℤ} (room : ℕ → Bool) (hroom : ∃ n, room n = true)
    {range : RTPPayloadVP8 → Option (ℕ × ℕ)}
    (hrange : ∀ fresh, range fresh = if room (parsedPayload buf len fresh).dataLength then
      some ((parsedPayload buf len fresh).data, (parsedPayload buf len fresh).dataLength) else none) :
    DefinedInside range len ↔ HasPayload buf len := by
  constructor
  · rintro ⟨r, hr, -⟩
    by_contra h
    obtain ⟨n, hn⟩ := hroom
    have hcopied (data : ℕ) : r = some (data, n) := by
      obtain ⟨hdata, hlength⟩ := parsedPayload_of_not h { RTPPayloadVP8.zero with data, dataLength := n }
      rw [← hr { RTPPayloadVP8.zero with data, dataLength := n }, hrange, hdata, hlength, if_pos hn]
    have hdata : (0, n) = (1, n) := Option.some.inj ((hcopied 0).symm.trans (hcopied 1))
    exact absurd (Prod.mk.inj hdata).1 Nat.zero_ne_one
  · intro h
    obtain ⟨r, hend, hsame⟩ := parsedPayload_of_hasPayload h
    refine ⟨if room r.2 then some r else none, fun fresh => ?_, fun x hx => ?_⟩
    · rw [hrange, hsame fresh]
      have hlength : (parsedPayload buf len fresh).dataLength = r.2 := congrArg Prod.snd (hsame fresh)
      rw [hlength]
    · split_ifs at hx
      · obtain rfl := Option.some.inj hx
        exact hend.le
      · cases hx

theorem beginningOfPartition_parseVP8 {m : Mem} (fresh : RTPPayloadVP8) (data : ℕ) (n : ℤ) :
    (RtpVP8Parser.parseVP8 m fresh data n).beginningOfPartition = decide ((m data).toNat / 16 % 2 = 1) := by
  obtain ⟨vp8, ⟨-, hbegin, -⟩, -, heq⟩ := RtpVP8Parser.parseVP8_eq (m := m) fresh data n
  have hfirst : vp8.beginningOfPartition = decide ((m data).toNat / 16 % 2 = 1) := hbegin
  rw [heq]
  by_cases hpart : 8 < (m data).toNat % 16
  · rw [if_pos hpart]
    rfl
  · rw [if_neg hpart]
    by_cases hn : 0 < n - RtpVP8Parser.descriptorLength m data
    · exact (RtpVP8Parser.parsePayload_pos vp8 _ hn).1.trans hfirst
    · rw [RtpVP8Parser.parsePayload, if_pos (not_lt.mp hn)]
      exact hfirst

/-! ## The recorder -/

namespace ExternalOutput
variable {o : ExternalOutput} {buf : Mem} {payload : RTPPayloadVP8}

/-- The output as it is when the search copies a payload, unless it passes over the packet. -/
def copiesTo (o : ExternalOutput) (startOfFrame endOfFrame : Bool) : Option ExternalOutput :=
  match o.vp8SearchState, startOfFrame, endOfFrame with
  | .lookingForStart, false, _ => none
  | .lookingForStart, true, true => some o.reset
  | .lookingForStart, true, false => some o
  | .lookingForEnd, true, true => some { o.reset with vp8SearchState := .lookingForStart }
  | .lookingForEnd, true, false => some o.reset
  | .lookingForEnd, false, true => some { o with vp8SearchState := .lookingForStart }
  | .lookingForEnd, false, false => some o

/-- The state that the search is left in when a payload was copied. -/
def found (o o' : ExternalOutput) (startOfFrame endOfFrame : Bool) : ExternalOutput :=
  if o.vp8SearchState = .lookingForStart ∧ startOfFrame = true ∧ endOfFrame = false then
    { o' with vp8SearchState := .lookingForEnd }
  else o'

/-- The search copies a payload or empties the buffer. A frame is delivered when its end was copied. -/
theorem search_eq (startOfFrame endOfFrame : Bool) : o.search buf payload startOfFrame endOfFrame =
    match o.copiesTo startOfFrame endOfFrame with
    | none => some (false, o.reset)
    | some o₁ => (o₁.append buf payload).map fun p =>
        (p.1 && endOfFrame, if p.1 then o.found p.2 startOfFrame endOfFrame else p.2) := by
  unfold search copiesTo found
  cases hstate : o.vp8SearchState <;> cases startOfFrame <;> cases endOfFrame <;> simp

theorem copiesTo_cases {o₁ : ExternalOutput} {startOfFrame endOfFrame : Bool}
    (h : o.copiesTo startOfFrame endOfFrame = some o₁) :
    ∃ unpackagedSize unpackagedBufferpart vp8SearchState,
      o₁ = { o with unpackagedSize, unpackagedBufferpart, vp8SearchState } := by
  unfold copiesTo at h
  cases hstate : o.vp8SearchState <;> cases startOfFrame <;> cases endOfFrame <;> rw [hstate] at h <;>
    cases h <;> exact ⟨_, _, _, rfl⟩

/-- A payload is refused, or it is put behind what is in the buffer. -/
theorem refused_or_appended {o' : ExternalOutput} {fits : Bool} (h : o.append buf payload = some (fits, o')) :
    (o.bufferCheck payload).1 = fits ∧ ∃ unpackagedSize unpackagedBufferpart vp8SearchState,
      o' = { o with
        unpackagedBuffer := if fits then
            o.unpackagedBuffer.copy o.unpackagedBufferpart (buf.bytes payload.data payload.dataLength)
          else o.unpackagedBuffer
        unpackagedSize, unpackagedBufferpart, vp8SearchState } := by
  unfold append bufferCheck at h
  unfold bufferCheck
  by_cases hfull : unpackageBufferSize ≤ (payload.dataLength + o.unpackagedSize) % 2 ^ 32
  · rw [if_pos hfull] at h ⊢
    obtain ⟨rfl, rfl⟩ := Prod.mk.inj (Option.some.inj h)
    exact ⟨rfl, _, _, _, rfl⟩
  · rw [if_neg hfull] at h ⊢
    simp only [] at h
    split_ifs at h
    obtain ⟨rfl, rfl⟩ := Prod.mk.inj (Option.some.inj h)
    exact ⟨rfl, _, _, _, rfl⟩

theorem found_cases (o o' : ExternalOutput) (startOfFrame endOfFrame : Bool) :
    ∃ vp8SearchState, o.found o' startOfFrame endOfFrame = { o' with vp8SearchState } := by
  unfold found
  split_ifs
  · exact ⟨_, rfl⟩
  · exact ⟨_, rfl⟩

def copiedRange (o : ExternalOutput) (payload : RTPPayloadVP8) (endOfFrame : Bool) : Option (ℕ × ℕ) :=
  match o.copiesTo payload.beginningOfPartition endOfFrame with
  | none => none
  | some o₁ => if (o₁.bufferCheck payload).1 then some (payload.data, payload.dataLength) else none

/-- The search gives the buffer the bytes of the range, and touches nothing but the buffer and its own state. -/
theorem search_cases {o' : ExternalOutput} {endOfFrame deliver : Bool}
    (h : o.search buf payload payload.beginningOfPartition endOfFrame = some (deliver, o')) :
    ∃ p unpackagedSize unpackagedBufferpart vp8SearchState, o' = { o with
      unpackagedBuffer := match o.copiedRange payload endOfFrame with
        | none => o.unpackagedBuffer
        | some (data, dataLength) => o.unpackagedBuffer.copy p (buf.bytes data dataLength)
      unpackagedSize, unpackagedBufferpart, vp8SearchState } := by
  rw [search_eq] at h
  unfold copiedRange
  cases hcopies : o.copiesTo payload.beginningOfPartition endOfFrame with
  | none =>
    rw [hcopies] at h
    obtain ⟨-, rfl⟩ := Prod.mk.inj (Option.some.inj h)
    exact ⟨0, _, _, _, rfl⟩
  | some o₁ =>
    rw [hcopies] at h
    obtain ⟨⟨fits, o₂⟩, happend, h⟩ := Option.map_eq_some_iff.mp h
    obtain ⟨-, rfl⟩ := Prod.mk.inj h
    obtain ⟨hcheck, size₂, part₂, state₂, rfl⟩ := refused_or_appended happend
    obtain ⟨size₁, part₁, state₁, rfl⟩ := copiesTo_cases hcopies
    refine ⟨part₁, ?_⟩
    simp only [hcheck]
    cases fits with
    | false => exact ⟨_, _, _, rfl⟩
    | true =>
      obtain ⟨state₃, hfound⟩ := found_cases o { o with
        unpackagedBuffer := o.unpackagedBuffer.copy part₁ (buf.bytes payload.data payload.dataLength)
        unpackagedSize := size₂, unpackagedBufferpart := part₂, vp8SearchState := state₂ }
        payload.beginningOfPartition endOfFrame
      exact ⟨size₂, part₂, state₃, hfound⟩

/-- The output when `writeVideoData` searches a packet. -/
def searching (o : ExternalOutput) (buf : Mem) : ExternalOutput :=
  (o.checkSequence (RtpHeader.getSeqNumber buf 0)).noteTimestamp (buf.long 4)

/-- The range of a packet that `writeVideoData` copies. -/
def writtenRange (o : ExternalOutput) (buf : Mem) (len : ℕ) (fresh : RTPPayloadVP8) : Option (ℕ × ℕ) :=
  (o.searching buf).copiedRange (parse fresh buf len) (RtpHeader.getMarker buf 0)

def room (o : ExternalOutput) (dataLength : ℕ) : Bool :=
  !decide (unpackageBufferSize ≤ (dataLength + o.unpackagedSize) % 2 ^ 32)

private theorem bufferCheck_fst : (o.bufferCheck payload).1 = o.room payload.dataLength := by
  unfold bufferCheck room
  split_ifs with h
  · rw [decide_eq_true h]
    rfl
  · rw [decide_eq_false h]
    rfl

/-- The sum wraps, so some length always fits. -/
theorem exists_room (o : ExternalOutput) : ∃ n, o.room n = true := by
  refine ⟨2 ^ 32 - o.unpackagedSize % 2 ^ 32, ?_⟩
  have hzero : (2 ^ 32 - o.unpackagedSize % 2 ^ 32 + o.unpackagedSize) % 2 ^ 32 = 0 := by omega
  rw [room, hzero]
  rfl

/-- The search copies the payload of the packet, if there is room for it. -/
def Copies (o : ExternalOutput) (buf : Mem) : Prop :=
  ((o.searching buf).copiesTo (decide ((buf (RtpHeader.getHeaderLength buf 0)).toNat / 16 % 2 = 1))
    (RtpHeader.getMarker buf 0)).isSome = true

instance (o : ExternalOutput) (buf : Mem) : Decidable (o.Copies buf) := inferInstanceAs (Decidable (_ = true))

theorem definedInside_writtenRange_iff (len : ℕ) :
    DefinedInside (o.writtenRange buf len) len ↔ (o.Copies buf → HasPayload buf len) := by
  have hstart (fresh : RTPPayloadVP8) : (parse fresh buf len).beginningOfPartition =
      decide ((buf (RtpHeader.getHeaderLength buf 0)).toNat / 16 % 2 = 1) := beginningOfPartition_parseVP8 _ _ _
  unfold Copies
  cases hcopies : (o.searching buf).copiesTo (decide ((buf (RtpHeader.getHeaderLength buf 0)).toNat / 16 % 2 = 1))
      (RtpHeader.getMarker buf 0) with
  | none =>
    refine iff_of_true ⟨none, fun fresh => ?_, fun x hx => by cases hx⟩ fun h => by cases h
    rw [writtenRange, copiedRange, hstart, hcopies]
  | some o₁ =>
    have hrange (fresh : RTPPayloadVP8) : o.writtenRange buf len fresh =
        if o₁.room (parsedPayload buf len fresh).dataLength then
          some ((parsedPayload buf len fresh).data, (parsedPayload buf len fresh).dataLength) else none := by
      rw [writtenRange, copiedRange, hstart, hcopies]
      simp only [bufferCheck_fst]
      rfl
    rw [definedInside_iff _ (exists_room o₁) hrange]
    exact ⟨fun h _ => h, fun h => h rfl⟩

end ExternalOutput

/-! ## The processor -/

namespace InputProcessor
variable {p : InputProcessor} {buf : Mem} {len : ℤ}

/-- The range of a packet that `unpackageVideo` copies. -/
def unpackagedRange (p : InputProcessor) (buf : Mem) (len : ℤ) (fresh : RTPPayloadVP8) : Option (ℕ × ℕ) :=
  if p.videoUnpackager = true ∧ RtpHeader.getPayloadType buf 0 = 100 then
    some ((parsed ⟨buf, len, fresh⟩).data, (parsed ⟨buf, len, fresh⟩).dataLength)
  else none

theorem definedInside_unpackagedRange_iff : DefinedInside (p.unpackagedRange buf len) len ↔
    (p.videoUnpackager = true → RtpHeader.getPayloadType buf 0 = 100 → HasPayload buf len) := by
  by_cases hcopies : p.videoUnpackager = true ∧ RtpHeader.getPayloadType buf 0 = 100
  · have hrange (fresh : RTPPayloadVP8) : p.unpackagedRange buf len fresh = if true then
        some ((parsedPayload buf len fresh).data, (parsedPayload buf len fresh).dataLength) else none := if_pos hcopies
    rw [definedInside_iff (fun _ => true) ⟨0, rfl⟩ hrange]
    exact ⟨fun h _ _ => h, fun h => h hcopies.1 hcopies.2⟩
  · refine iff_of_true ⟨none, fun fresh => if_neg hcopies, fun x hx => by cases hx⟩ fun hu ht => ?_
    exact absurd ⟨hu, ht⟩ hcopies

end InputProcessor

/-- What is copied is a part of the packet exactly if the packets that are not passed over have a payload. -/
theorem copiedRanges_iff (o : ExternalOutput) (p : InputProcessor) (buf : Mem) (len : ℕ) :
    (DefinedInside (o.writtenRange buf len) len ↔ (o.Copies buf → HasPayload buf len)) ∧
      (DefinedInside (p.unpackagedRange buf len) len ↔
        (p.videoUnpackager = true → RtpHeader.getPayloadType buf 0 = 100 → HasPayload buf len)) :=
  ⟨ExternalOutput.definedInside_writtenRange_iff len, InputProcessor.definedInside_unpackagedRange_iff⟩

/-- A packet that ends with its header: the recorder, which looks for the start of a frame and takes the byte
behind the packet for one, and the processor copy what the structure of the parser happens to point to. -/
theorem not_copiedRanges :
    ¬ DefinedInside ((ExternalOutput.new (fun _ => 0) 0).writtenRange (vp8Packet 1 true 0x10 0) 12) 12 ∧
      ¬ DefinedInside ((InputProcessor.init fun _ => 0).unpackagedRange (vp8Packet 1 true 0x10 0) 12) 12 := by
  have hpayload : ¬ HasPayload (vp8Packet 1 true 0x10 0) 12 := by decide
  constructor
  · intro h
    exact hpayload (ExternalOutput.definedInside_writtenRange_iff 12 |>.mp h (by decide))
  · intro h
    exact hpayload (InputProcessor.definedInside_unpackagedRange_iff.mp h rfl (by decide))

end Sfup.Media
