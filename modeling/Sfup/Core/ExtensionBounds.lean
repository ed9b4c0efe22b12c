import Sfup.Core.RtpExtensionProcessor

/-! The bytes that the extensions of a packet are read from and written to. Nothing but the announced length ends the
loop, and its place has 16 bits. -/
namespace Sfup.Core
open Sfup.Rtp

/-- The packet has a header extension of elements with headers of one byte. -/
structure IsExtended (p : DataPacket) : Prop where
  flag : RtpHeader.hasextension p.data 0 ≠ 0
  header : 16 + 4 * RtpHeader.cc p.data 0 ≤ p.length
  id : (p.data.word (12 + 4 * RtpHeader.cc p.data 0)).toNat = 0xBEDE

/-- The bytes are in the packet, and in the extension that it announces behind its sources. -/
def InExtension (p : DataPacket) (address n : ℕ) : Prop :=
  16 + 4 * RtpHeader.cc p.data 0 ≤ address ∧
    address + n ≤ 16 + 4 * RtpHeader.cc p.data 0 + 4 * (p.data.word (14 + 4 * RtpHeader.cc p.data 0)).toNat ∧
    address + n ≤ p.length

namespace ExtensionMaps

/-- An element is read by its first byte; the time of sending is written into a word of four. -/
def width (extMap : ℕ → ℕ) (v : Mem × ℕ) : ℕ := if isAbsSendTime extMap v.1 v.2 then 4 else 1

def accesses (e : ExtensionMaps) (now : ℕ → Timeval) (fuel : ℕ) (p : DataPacket) : List (ℕ × ℕ) :=
  match e.extMap p.type with
  | none => []
  | some extMap => (e.reached now fuel p).map fun v => (v.2, width extMap v)

/-- The call returns and keeps inside the extension. -/
structure Contained (e : ExtensionMaps) (now : ℕ → Timeval) (p : DataPacket) : Prop where
  terminates : ∃ fuel, (e.processRtpExtensions now fuel p).isSome
  inside : ∀ fuel, ∀ a ∈ e.accesses now fuel p, InExtension p a.1 a.2

def elements (extMap : ℕ → ℕ) (now : ℕ → Timeval) (p : DataPacket) : List (Mem × ℕ) :=
  Cursor.plain advance (processElement extMap now) (RtpHeader.getExtLength p.data 0 * 4 + 15)
    (RtpHeader.getExtLength p.data 0 * 4 + 15) p.data 16

/-- There are no sources before the extension, the packet has every element that it announces, the time of sending is
not cut off by an end, and the place behind each element has 16 bits. -/
structure Walkable (extMap : ℕ → ℕ) (now : ℕ → Timeval) (p : DataPacket) : Prop where
  csrc : RtpHeader.cc p.data 0 = 0
  received : ∀ v ∈ elements extMap now p, v.2 < p.length
  whole : ∀ v ∈ elements extMap now p, isAbsSendTime extMap v.1 v.2 →
    v.2 + 4 ≤ 16 + 4 * RtpHeader.getExtLength p.data 0 ∧ v.2 + 4 ≤ p.length
  place : ∀ v ∈ elements extMap now p, v.2 + advance v.1 v.2 < 2 ^ 16 + 15

section Loop
variable {extMap : ℕ → ℕ} {now : ℕ → Timeval} {p : DataPacket}

theorem advance_pos (m : Mem) (a : ℕ) : 0 < advance m a := Nat.succ_pos _

private theorem advance_le (m : Mem) (a : ℕ) : advance m a ≤ 2 ^ 16 := by
  unfold advance extLength
  omega

theorem width_of_abs {v : Mem × ℕ} (h : isAbsSendTime extMap v.1 v.2) : width extMap v = 4 := if_pos h

theorem width_of_not_abs {v : Mem × ℕ} (h : ¬ isAbsSendTime extMap v.1 v.2) : width extMap v = 1 := if_neg h

private theorem width_pos (extMap : ℕ → ℕ) (v : Mem × ℕ) : 0 < width extMap v := by
  by_cases h : isAbsSendTime extMap v.1 v.2
  · rw [width_of_abs h]
    decide
  · rw [width_of_not_abs h]
    decide

/-- The elements that `extensionLoop` meets in its first turns. -/
def extensionVisits (extMap : ℕ → ℕ) (now : ℕ → Timeval) (totalExtLength fuel : ℕ) (m : Mem) : List (Mem × ℕ) :=
  Cursor.visits advance (processElement extMap now) (totalExtLength * 4) fuel (1 : BitVec 16) 16 m

theorem extensionVisits_of_zero (h : RtpHeader.getExtLength p.data 0 = 0) (fuel : ℕ) :
    extensionVisits extMap now (RtpHeader.getExtLength p.data 0) fuel p.data = [] := by
  cases fuel with
  | zero => rfl
  | succ fuel => rw [extensionVisits, Cursor.visits, if_neg (by omega)]

/-- The place is 15 bytes behind the pointer, until it wraps around. -/
theorem start_place : (1 : BitVec 16).toNat + 15 = 16 := rfl

/-- A loop that ends and keeps inside has walked over the elements. -/
theorem walkable_of_inside (hpos : 0 < RtpHeader.getExtLength p.data 0)
    (hend : ∃ fuel, (extensionLoop extMap now (RtpHeader.getExtLength p.data 0) fuel p.data).isSome)
    (hin : ∀ fuel, ∀ v ∈ extensionVisits extMap now (RtpHeader.getExtLength p.data 0) fuel p.data,
      InExtension p v.2 (width extMap v)) : Walkable extMap now p := by
  obtain ⟨fuel, hend⟩ := hend
  have hcc : RtpHeader.cc p.data 0 = 0 := by
    have hmem : (p.data, 16) ∈ extensionVisits extMap now (RtpHeader.getExtLength p.data 0) 1 p.data := by
      rw [extensionVisits, Cursor.visits, if_pos (by have hplace := start_place; omega)]
      exact List.mem_cons_self
    have hfirst := (hin 1 (p.data, 16) hmem).1
    omega
  have hlimit : RtpHeader.getExtLength p.data 0 * 4 < 2 ^ 16 := by
    by_contra hge
    rw [extensionLoop, Cursor.loop_of_le (Nat.le_of_not_lt hge)] at hend
    cases hend
  have hbounds : ∀ fuel, ∀ v ∈ extensionVisits extMap now (RtpHeader.getExtLength p.data 0) fuel p.data,
      v.2 + width extMap v ≤ 16 + 4 * RtpHeader.getExtLength p.data 0 ∧ v.2 + width extMap v ≤ p.length := by
    intro fuel v hv
    have hi := (hin fuel v hv).2
    rw [hcc] at hi
    exact hi
  have hnowrap : ∀ v ∈ elements extMap now p, v.2 + advance v.1 v.2 < 2 ^ 16 + 15 := by
    apply Cursor.forall_plain_of_visits advance_le start_place (by omega)
    intro v hv
    have hw := width_pos extMap v
    have hb := (hbounds _ v hv).1
    omega
  have hinside : ∀ v ∈ elements extMap now p, v.2 + width extMap v ≤ 16 + 4 * RtpHeader.getExtLength p.data 0 ∧
      v.2 + width extMap v ≤ p.length := by
    intro v hv
    rw [elements, ← Cursor.visits_eq_plain start_place (by omega) hnowrap] at hv
    exact hbounds _ v hv
  refine ⟨hcc, ?_, ?_, hnowrap⟩
  · intro v hv
    have hw := width_pos extMap v
    have hb := (hinside v hv).2
    omega
  · intro v hv habs
    have hb := hinside v hv
    rwa [width_of_abs habs] at hb

theorem Walkable.isSome_loop (hw : Walkable extMap now p) (hpos : 0 < RtpHeader.getExtLength p.data 0) :
    ∃ fuel, (extensionLoop extMap now (RtpHeader.getExtLength p.data 0) fuel p.data).isSome := by
  refine ⟨RtpHeader.getExtLength p.data 0 * 4 + 15 + 1, ?_⟩
  rw [extensionLoop, Cursor.loop_eq_some advance_pos start_place (by omega) (by omega) hw.place]
  rfl

theorem Walkable.inside (hw : Walkable extMap now p) (hpos : 0 < RtpHeader.getExtLength p.data 0) {fuel : ℕ}
    {v : Mem × ℕ} (hv : v ∈ extensionVisits extMap now (RtpHeader.getExtLength p.data 0) fuel p.data) :
    InExtension p v.2 (width extMap v) := by
  have hmore : ∀ v ∈ Cursor.plain advance (processElement extMap now) (RtpHeader.getExtLength p.data 0 * 4 + 15) fuel
      p.data 16, v ∈ elements extMap now p := fun v hv => Cursor.plain_subset advance_pos (by omega) (by omega) hv
  rw [extensionVisits, Cursor.visits_eq_plain start_place (by omega) fun v hv => hw.place v (hmore v hv)] at hv
  have hb := Cursor.bounds_of_mem_plain (by omega) hv
  have hlen := hw.received v (hmore v hv)
  have htime := hw.whole v (hmore v hv)
  unfold InExtension
  rw [hw.csrc]
  refine ⟨hb.1, ?_⟩
  by_cases habs : isAbsSendTime extMap v.1 v.2
  · rw [width_of_abs habs]
    exact htime habs
  · -- the first byte is before the end by the test of the loop
    rw [width_of_not_abs habs]
    change v.2 + 1 ≤ 16 + 4 * RtpHeader.getExtLength p.data 0 ∧ v.2 + 1 ≤ p.length
    omega

end Loop

section Packet
variable {e : ExtensionMaps} {extMap : ℕ → ℕ} {now : ℕ → Timeval} {p : DataPacket}

theorem processRtpExtensions_of_id (hflag : RtpHeader.hasextension p.data 0 ≠ 0) (hmap : e.extMap p.type = some extMap)
    (hid : RtpHeader.getExtId p.data 0 = 0xBEDE) (fuel : ℕ) : e.processRtpExtensions now fuel p =
      (extensionLoop extMap now (RtpHeader.getExtLength p.data 0) fuel p.data).map fun m => (p.length, m) := by
  simp only [processRtpExtensions, if_pos hflag, hmap, if_pos hid]

theorem reached_of_id (hflag : RtpHeader.hasextension p.data 0 ≠ 0) (hmap : e.extMap p.type = some extMap)
    (hid : RtpHeader.getExtId p.data 0 = 0xBEDE) (fuel : ℕ) :
    e.reached now fuel p = extensionVisits extMap now (RtpHeader.getExtLength p.data 0) fuel p.data := by
  simp only [reached, if_pos (And.intro hflag hid), hmap]
  rfl

/-- A packet whose extension is found is contained as its loop is. -/
theorem contained_iff_loop (hflag : RtpHeader.hasextension p.data 0 ≠ 0) (hmap : e.extMap p.type = some extMap)
    (hid : RtpHeader.getExtId p.data 0 = 0xBEDE) : e.Contained now p ↔
      (∃ fuel, (extensionLoop extMap now (RtpHeader.getExtLength p.data 0) fuel p.data).isSome) ∧
        ∀ fuel, ∀ v ∈ extensionVisits extMap now (RtpHeader.getExtLength p.data 0) fuel p.data,
          InExtension p v.2 (width extMap v) := by
  have haccesses : ∀ fuel, e.accesses now fuel p =
      (extensionVisits extMap now (RtpHeader.getExtLength p.data 0) fuel p.data).map
        fun v => (v.2, width extMap v) := by
    intro fuel
    simp only [accesses, hmap, reached_of_id hflag hmap hid]
  constructor
  · intro hc
    have hin := hc.inside
    have hend := hc.terminates
    simp only [haccesses, List.forall_mem_map] at hin
    simp only [processRtpExtensions_of_id hflag hmap hid, Option.isSome_map] at hend
    exact ⟨hend, hin⟩
  · rintro ⟨hend, hin⟩
    constructor
    · simpa only [processRtpExtensions_of_id hflag hmap hid, Option.isSome_map] using hend
    · simpa only [haccesses, List.forall_mem_map] using hin

end Packet

/-- An extended packet is processed inside its extension exactly if the code sees no extension in it, or an empty one,
or if it can be walked over. -/
theorem contained_iff (e : ExtensionMaps) (now : ℕ → Timeval) {p : DataPacket} (h : IsExtended p) :
    e.Contained now p ↔ ∀ extMap, e.extMap p.type = some extMap → RtpHeader.getExtId p.data 0 = 0xBEDE →
      0 < RtpHeader.getExtLength p.data 0 → Walkable extMap now p := by
  cases htype : e.extMap p.type with
  | none =>
    have hend : e.processRtpExtensions now 0 p = some (0, p.data) := by
      simp only [processRtpExtensions, if_pos h.flag, htype]
    refine iff_of_true ⟨⟨0, by rw [hend]; rfl⟩, ?_⟩ (by simp)
    simp [accesses, htype]
  | some extMap =>
    by_cases hid : RtpHeader.getExtId p.data 0 = 0xBEDE
    · rw [contained_iff_loop h.flag htype hid]
      by_cases hpos : 0 < RtpHeader.getExtLength p.data 0
      · constructor
        · rintro ⟨hend, hin⟩ extMap' hmap - -
          cases hmap
          exact walkable_of_inside hpos hend hin
        · intro hw
          have hwalk := hw extMap rfl hid hpos
          exact ⟨hwalk.isSome_loop hpos, fun _ _ hv => hwalk.inside hpos hv⟩
      · have hzero : RtpHeader.getExtLength p.data 0 = 0 := by omega
        refine iff_of_true ⟨⟨1, ?_⟩, ?_⟩ fun _ _ _ h => absurd h hpos
        · rw [extensionLoop, Cursor.loop, if_neg (by omega)]
          rfl
        · intro fuel v hv
          rw [extensionVisits_of_zero hzero] at hv
          cases hv
    · have hend : e.processRtpExtensions now 0 p = some (p.length, p.data) := by
        simp only [processRtpExtensions, if_pos h.flag, htype, if_neg hid]
      refine iff_of_true ⟨⟨0, by rw [hend]; rfl⟩, ?_⟩ fun _ _ h => absurd h hid
      simp [accesses, reached, hid, htype]

def exampleExtended (block : List UInt8) : DataPacket where
  comp := 0
  data := fun i =>
    ([0x90, 100, 0, 1, 0, 0, 0, 0, 0, 0, 0, 2, 0xBE, 0xDE, 0, UInt8.ofNat (block.length / 4)] ++ block).getD i 0
  length := 16 + block.length
  type := .video

def exampleMaps : ExtensionMaps where
  extMapVideo := fun i => if i = 3 then 1 else 0

/-- An extension that is filled by the time of sending. -/
theorem contained_filled : ∃ p, IsExtended p ∧ exampleMaps.Contained (fun _ => ⟨5, 0⟩) p := by
  have h : IsExtended (exampleExtended [0x32, 0, 0, 0]) := ⟨by decide, by decide, by decide⟩
  refine ⟨_, h, (contained_iff exampleMaps _ h).mpr ?_⟩
  intro extMap hmap _ _
  cases hmap
  exact ⟨by decide, by decide +kernel, by decide +kernel, by decide +kernel⟩

/-- Padding at the start of a word and the time of sending at its end: two bytes behind the packet are written. -/
theorem not_contained_padded : ∃ p, IsExtended p ∧ ¬ exampleMaps.Contained (fun _ => ⟨5, 0⟩) p := by
  refine ⟨exampleExtended [0, 0, 0x32, 0], ⟨by decide, by decide, by decide⟩, ?_⟩
  intro hc
  have haccess : (18, 4) ∈ exampleMaps.accesses (fun _ => ⟨5, 0⟩) 2 (exampleExtended [0, 0, 0x32, 0]) := by
    decide +kernel
  have hin := (hc.inside 2 _ haccess).2.2
  exact absurd hin (by decide)

end ExtensionMaps
end Sfup.Core
