import Sfup.Core.ExtensionBounds
import Sfup.Rtp.BitRates

/-! The elements of an extension as RFC 5285 lays them out. A byte of padding has no length, but the loop takes it for
an element of one byte of data; the tables have ten places for fourteen ids. -/
namespace Sfup.Core
open Sfup.Sdp Sfup.Rtp

/-- The ids and lengths that a header of one byte has; 0 is padding and 15 is reserved. -/
structure Element where
  id : ℕ
  data : List UInt8
  id_pos : 1 ≤ id
  id_le : id ≤ 14
  data_pos : 1 ≤ data.length
  data_le : data.length ≤ 16
deriving DecidableEq

inductive Item where
  | pad
  | element (el : Element)
deriving DecidableEq

namespace Item

/-- An element has its id and one less than its length before its data. -/
def encode : Item → List UInt8
  | pad => [0]
  | element el => UInt8.ofNat (el.id * 16 + (el.data.length - 1)) :: el.data

def located : ℕ → List Item → List (ℕ × Element)
  | _, [] => []
  | a, pad :: items => located (a + 1) items
  | a, element el :: items => (a, el) :: located (a + (el.data.length + 1)) items

/-- Before each element there is an even number of bytes of padding. -/
def evenlyPadded : List Item → Bool
  | [] => true
  | element _ :: items => evenlyPadded items
  | [pad] => true
  | pad :: pad :: items => evenlyPadded items
  | pad :: element _ :: _ => false

theorem le_of_mem_located {a : ℕ} {items : List Item} {x : ℕ × Element} (h : x ∈ located a items) : a ≤ x.1 := by
  induction items generalizing a with
  | nil => cases h
  | cons item items ih =>
    cases item with
    | pad =>
      have hle := ih h
      omega
    | element el =>
      rcases List.mem_cons.mp h with rfl | h
      · exact le_rfl
      · have hle := ih h
        omega

theorem mem_of_mem_located {a : ℕ} {items : List Item} {x : ℕ × Element} (h : x ∈ located a items) :
    element x.2 ∈ items := by
  induction items generalizing a with
  | nil => cases h
  | cons item items ih =>
    cases item with
    | pad => exact List.mem_cons_of_mem _ (ih h)
    | element el =>
      rcases List.mem_cons.mp h with rfl | h
      · exact List.mem_cons_self
      · exact List.mem_cons_of_mem _ (ih h)

theorem exists_located {items : List Item} {el : Element} (h : element el ∈ items) (a : ℕ) :
    ∃ x ∈ located a items, x.2 = el := by
  induction items generalizing a with
  | nil => cases h
  | cons item items ih =>
    rcases List.mem_cons.mp h with rfl | hrest
    · exact ⟨(a, el), List.mem_cons_self, rfl⟩
    · cases item with
      | pad => exact ih hrest (a + 1)
      | element first =>
        obtain ⟨x, hx, hel⟩ := ih hrest (a + (first.data.length + 1))
        exact ⟨x, List.mem_cons_of_mem _ hx, hel⟩

end Item

/-- The packet has no sources, and a header extension of these items behind its header. -/
structure IsBlock (p : DataPacket) (items : List Item) : Prop where
  flag : RtpHeader.hasextension p.data 0 ≠ 0
  csrc : RtpHeader.cc p.data 0 = 0
  id : RtpHeader.getExtId p.data 0 = 0xBEDE
  length : (items.flatMap Item.encode).length = RtpHeader.getExtLength p.data 0 * 4
  bytes : p.data.Holds 16 (items.flatMap Item.encode)
  received : 16 + RtpHeader.getExtLength p.data 0 * 4 ≤ p.length
  room : p.length ≤ 1500

namespace ExtensionMaps

section Turn
variable {extMap : ℕ → ℕ} {now : ℕ → Timeval} {m : Mem} {a : ℕ} {el : Element}

theorem toNat_header (h : m a = UInt8.ofNat (el.id * 16 + (el.data.length - 1))) :
    (m a).toNat = el.id * 16 + (el.data.length - 1) := by
  have hid := el.id_le
  have hlen := el.data_le
  rw [h, UInt8.toNat_ofNat', Nat.mod_eq_of_lt (by omega)]

theorem extId_header (h : m a = UInt8.ofNat (el.id * 16 + (el.data.length - 1))) : extId m a = el.id := by
  have hlen := el.data_le
  rw [extId, toNat_header h]
  omega

theorem advance_header (h : m a = UInt8.ofNat (el.id * 16 + (el.data.length - 1))) :
    advance m a = el.data.length + 1 := by
  have hpos := el.data_pos
  have hlen := el.data_le
  rw [advance, extLength, toNat_header h]
  omega

theorem isAbsSendTime_header (h : m a = UInt8.ofNat (el.id * 16 + (el.data.length - 1))) :
    isAbsSendTime extMap m a = true ↔ extMap el.id = 1 := by
  have hpos := el.id_pos
  rw [isAbsSendTime, extId_header h, decide_eq_true_iff]
  omega

theorem extId_pad (h : m a = 0) : extId m a = 0 := by
  rw [extId, h]
  rfl

theorem advance_pad (h : m a = 0) : advance m a = 2 := by
  rw [advance, extLength, h]
  rfl

theorem processElement_pad (h : m a = 0) : processElement extMap now m a = m := by
  have hnot : isAbsSendTime extMap m a = false := by simp [isAbsSendTime, extId_pad h]
  rw [processElement, hnot]
  rfl

theorem processElement_of_ne (i : ℕ) (h : i ≤ a ∨ a + 4 ≤ i) : processElement extMap now m a i = m i := by
  unfold processElement
  split_ifs
  · exact RtcpHeader.setTriple_of_ne (by omega)
  · rfl

theorem processElement_other (h : m a = UInt8.ofNat (el.id * 16 + (el.data.length - 1))) (hne : extMap el.id ≠ 1) :
    processElement extMap now m a = m := by
  rw [processElement, if_neg fun habs => hne ((isAbsSendTime_header h).mp habs)]

private theorem processElement_time (h : m a = UInt8.ofNat (el.id * 16 + (el.data.length - 1)))
    (hone : extMap el.id = 1) :
    processElement extMap now m a = processAbsSendTime (now a) m a := by
  rw [processElement, if_pos ((isAbsSendTime_header h).mpr hone)]

end Turn

def timeBytes (t : Timeval) : List UInt8 :=
  [UInt8.ofNat (absSendTime t / 65536), UInt8.ofNat (absSendTime t / 256), UInt8.ofNat (absSendTime t)]

/-- The time is in the data of the elements with some ids, and no other byte is changed. -/
structure Stamped (timed : ℕ → Prop) (now : ℕ → Timeval) (elements : List (ℕ × Element)) (m m' : Mem) : Prop where
  written : ∀ x ∈ elements, timed x.2.id → m'.Holds (x.1 + 1) (timeBytes (now x.1))
  kept : ∀ i, (∀ x ∈ elements, timed x.2.id → ¬ (x.1 < i ∧ i ≤ x.1 + 3)) → m' i = m i

private theorem holds_processAbsSendTime (t : Timeval) (m : Mem) (a : ℕ) :
    (processAbsSendTime t m a).Holds (a + 1) (timeBytes t) := by
  have hhigh := RtcpHeader.setTriple_high (m := m) (p := a + 1) (v := absSendTime t)
  have hmiddle := RtcpHeader.setTriple_middle (m := m) (p := a + 1) (v := absSendTime t)
  have hlow := RtcpHeader.setTriple_low (m := m) (p := a + 1) (v := absSendTime t)
  change [_, _, _] = [_, _, _]
  rw [List.cons_eq_cons, List.cons_eq_cons, List.cons_eq_cons]
  exact ⟨hhigh, hmiddle, hlow, rfl⟩

section Walk
variable {extMap : ℕ → ℕ} {now : ℕ → Timeval} {m m' : Mem} {a limit fuel : ℕ} {place : BitVec 16} {el : Element}
  {items : List Item}

theorem stamped_nil {timed : ℕ → Prop} : Stamped timed now [] m m :=
  ⟨fun _ hx => absurd hx List.not_mem_nil, fun _ _ => rfl⟩

/-- An element that is written by its own turn stays so behind it. -/
theorem stamped_cons (h : m a = UInt8.ofNat (el.id * 16 + (el.data.length - 1)))
    (htime : extMap el.id = 1 → el.data.length = 3)
    (hrest : Stamped (extMap · = 1) now (Item.located (a + (el.data.length + 1)) items)
      (processElement extMap now m a) m') :
    Stamped (extMap · = 1) now ((a, el) :: Item.located (a + (el.data.length + 1)) items) m m' := by
  have hbefore : ∀ i, i < a + (el.data.length + 1) → m' i = processElement extMap now m a i := by
    intro i hi
    apply hrest.kept
    intro x hx _
    have hle := Item.le_of_mem_located hx
    omega
  constructor
  · intro x hx hone
    rcases List.mem_cons.mp hx with rfl | hx
    · have hthree := htime hone
      have hwritten := holds_processAbsSendTime (now a) m a
      rw [← processElement_time h hone] at hwritten
      apply Eq.trans (Mem.bytes_congr _) hwritten
      intro i hi
      have hi3 : i < 3 := hi
      exact hbefore _ (by omega)
    · exact hrest.written x hx hone
  · intro i hi
    rw [hrest.kept i fun x hx => hi x (List.mem_cons_of_mem _ hx)]
    by_cases hone : extMap el.id = 1
    · have hnot := hi (a, el) List.mem_cons_self hone
      exact processElement_of_ne i (by omega)
    · rw [processElement_other h hone]

theorem turn_header (h : m a = UInt8.ofNat (el.id * 16 + (el.data.length - 1)))
    (htime : extMap el.id = 1 → el.data.length = 3) : advance m a = el.data.length + 1 ∧
      ∀ i, a + (el.data.length + 1) ≤ i → processElement extMap now m a i = m i := by
  refine ⟨advance_header h, ?_⟩
  intro i hi
  by_cases hone : extMap el.id = 1
  · have hthree := htime hone
    exact processElement_of_ne i (by omega)
  · rw [processElement_other h hone]

/-- Over elements with even padding between them, the loop ends, writes the times and meets the elements alone. -/
theorem walk_of_evenlyPadded (heven : Item.evenlyPadded items)
    (htime : ∀ el, Item.element el ∈ items → extMap el.id = 1 → el.data.length = 3) (hplace : place.toNat + 15 = a)
    (hend : a + (items.flatMap Item.encode).length = limit + 16) (hlimit : limit < 2 ^ 15)
    (hfuel : (items.flatMap Item.encode).length < fuel) (hm : m.Holds a (items.flatMap Item.encode)) :
    (∃ m', Cursor.loop advance (processElement extMap now) limit fuel place a m = some m' ∧
      Stamped (extMap · = 1) now (Item.located a items) m m') ∧
    ((Cursor.visits advance (processElement extMap now) limit fuel place a m).filter fun v => extId v.1 v.2 ≠ 0).map
      (fun v => (v.2, extId v.1 v.2)) = (Item.located a items).map fun x => (x.1, x.2.id) := by
  obtain ⟨fuel, rfl⟩ : ∃ k, fuel = k + 1 := ⟨fuel - 1, by omega⟩
  induction items using Item.evenlyPadded.induct generalizing place a m fuel with
  | case1 =>
    rw [List.flatMap_nil, List.length_nil] at hend
    rw [Cursor.loop, Cursor.visits, if_neg (by omega), if_neg (by omega)]
    exact ⟨⟨m, rfl, stamped_nil⟩, rfl⟩
  | case2 el items ih =>
    rw [List.flatMap_cons] at hm hend hfuel
    rw [List.length_append] at hend hfuel
    have hsize : (Item.element el).encode.length = el.data.length + 1 := rfl
    obtain ⟨hfirst, hrest⟩ := hm.of_append
    have hhead := hfirst.head
    have hel := htime el List.mem_cons_self
    obtain ⟨hadvance, hkept⟩ := turn_header hhead hel
    have hpos := el.data_pos
    have hlen := el.data_le
    rw [hsize] at hend hfuel hrest
    obtain ⟨k, rfl⟩ : ∃ k, fuel = k + 1 := ⟨fuel - 1, by omega⟩
    have hnext : (place + BitVec.ofNat 16 (advance m a)).toNat + 15 = a + advance m a :=
      Cursor.toNat_add_of_lt hplace (by omega)
    rw [Cursor.loop, Cursor.visits, if_pos (by omega), if_pos (by omega)]
    rw [hadvance] at hnext ⊢
    obtain ⟨⟨m', hloop, hstamped⟩, hvisits⟩ := ih heven (fun e he => htime e (List.mem_cons_of_mem _ he)) hnext
      (by omega) (hrest.congr hkept) k (by omega)
    have hid : extId m a ≠ 0 := by
      have hidpos := el.id_pos
      rw [extId_header hhead]
      omega
    refine ⟨⟨m', hloop, stamped_cons hhead hel hstamped⟩, ?_⟩
    rw [List.filter_cons_of_pos (by simpa using hid), List.map_cons, hvisits, Item.located, List.map_cons,
      extId_header hhead]
  | case3 =>
    have hlen : ([Item.pad].flatMap Item.encode).length = 1 := rfl
    rw [Cursor.loop, Cursor.visits, if_neg (by omega), if_neg (by omega)]
    exact ⟨⟨m, rfl, stamped_nil⟩, rfl⟩
  | case4 items ih =>
    have hpads : (Item.pad :: Item.pad :: items).flatMap Item.encode = [0, 0] ++ items.flatMap Item.encode := rfl
    rw [hpads] at hm hend hfuel
    rw [List.length_append, List.length_cons, List.length_cons, List.length_nil] at hend hfuel
    obtain ⟨hfirst, hrest⟩ := hm.of_append
    have hhead := hfirst.head
    have hadvance := advance_pad hhead
    obtain ⟨k, rfl⟩ : ∃ k, fuel = k + 1 := ⟨fuel - 1, by omega⟩
    have hnext : (place + BitVec.ofNat 16 (advance m a)).toNat + 15 = a + advance m a :=
      Cursor.toNat_add_of_lt hplace (by omega)
    rw [Cursor.loop, Cursor.visits, if_pos (by omega), if_pos (by omega)]
    rw [hadvance] at hnext ⊢
    rw [processElement_pad hhead, List.filter_cons_of_neg (by simp [extId_pad hhead])]
    exact ih heven (fun e he => htime e (List.mem_cons_of_mem _ (List.mem_cons_of_mem _ he))) hnext (by omega) hrest k
      (by omega)
  | case5 => cases heven

/-- The element behind an odd number of bytes of padding is stepped over. -/
theorem missed_of_not_evenlyPadded (now : ℕ → Timeval) (limit : ℕ) (place : BitVec 16)
    (hodd : ¬ Item.evenlyPadded items) (htime : ∀ el, Item.element el ∈ items → extMap el.id = 1 → el.data.length = 3)
    (hm : m.Holds a (items.flatMap Item.encode)) :
    ∃ x ∈ Item.located a items, ∀ fuel, ∀ v ∈ Cursor.visits advance (processElement extMap now) limit fuel place a m,
      v.2 ≠ x.1 := by
  induction items using Item.evenlyPadded.induct generalizing place a m with
  | case1 => exact absurd rfl hodd
  | case2 el items ih =>
    obtain ⟨hfirst, hrest⟩ := hm.of_append
    obtain ⟨hadvance, hkept⟩ := turn_header hfirst.head (htime el List.mem_cons_self)
    obtain ⟨x, hx, hmissed⟩ := ih _ hodd (fun e he => htime e (List.mem_cons_of_mem _ he)) (hrest.congr hkept)
    refine ⟨x, List.mem_cons_of_mem _ hx, ?_⟩
    intro fuel v hv
    rcases Cursor.mem_visits_cases hv with rfl | ⟨k, hv⟩
    · have hle : a + (el.data.length + 1) ≤ x.1 := Item.le_of_mem_located hx
      have hlt : a < x.1 := by omega
      exact hlt.ne
    · rw [hadvance] at hv
      exact hmissed k v hv
  | case3 => exact absurd rfl hodd
  | case4 items ih =>
    have hpads : m.Holds a ([0, 0] ++ items.flatMap Item.encode) := hm
    obtain ⟨hfirst, hrest⟩ := hpads.of_append
    have htime' : ∀ e, Item.element e ∈ items → extMap e.id = 1 → e.data.length = 3 :=
      fun e he => htime e (List.mem_cons_of_mem _ (List.mem_cons_of_mem _ he))
    obtain ⟨x, hx, hmissed⟩ := ih _ hodd htime' hrest
    refine ⟨x, hx, ?_⟩
    intro fuel v hv
    rcases Cursor.mem_visits_cases hv with rfl | ⟨k, hv⟩
    · have hle : a + 2 ≤ x.1 := Item.le_of_mem_located hx
      have hlt : a < x.1 := by omega
      exact hlt.ne
    · rw [advance_pad hfirst.head, processElement_pad hfirst.head] at hv
      exact hmissed k v hv
  | case5 el items =>
    refine ⟨(a + 1, el), List.mem_cons_self, ?_⟩
    intro fuel v hv
    rcases Cursor.mem_visits_cases hv with rfl | ⟨k, hv⟩
    · exact (Nat.lt_succ_self a).ne
    · have hle := Cursor.le_of_mem_visits hv
      rw [advance_pad hm.head] at hle
      have hlt : a + 1 < v.2 := by omega
      exact hlt.ne.symm

end Walk

section Tables

/-- The media that a packet is of. -/
def media : PacketType → MediaType
  | .video => .videoType
  | .audio => .audioType
  | .other => .other

def isSupported (theMap : ExtMap) : Bool := (translationMap.lookup theMap.uri).isSome

def afterSdps (infos : List SdpInfo) : ExtensionMaps := infos.foldl (fun e theInfo => e.setSdpInfo theInfo) {}

/-- The places of the arrays that are written for a description. -/
def setSdpInfoIndices (theInfo : SdpInfo) : List ℕ :=
  (theInfo.extMapVector.filter fun theMap => theMap.mediaType ≠ .other ∧ isSupported theMap).map (·.value.toNat)

def mapping (entries : List ExtMap) (t : MediaType) (id : ℕ) : Option ExtMap :=
  (entries.filter fun theMap => theMap.mediaType = t ∧ theMap.value.toNat = id ∧ isSupported theMap).getLast?

/-- The descriptions map the id to the time of sending. -/
def IsTimed (infos : List SdpInfo) (t : MediaType) (id : ℕ) : Prop :=
  ∃ theMap, mapping (infos.flatMap (·.extMapVector)) t id = some theMap ∧
    theMap.uri = "http://www.webrtc.org/experiments/rtp-hdrext/abs-send-time".toList

/-- The turn of `setSdpInfo` for one extension. -/
def record (e : ExtensionMaps) (theMap : ExtMap) : ExtensionMaps :=
  match theMap.mediaType, translationMap.lookup theMap.uri with
  | .videoType, some value => { e with extMapVideo := Function.update e.extMapVideo theMap.value.toNat value }
  | .audioType, some value => { e with extMapAudio := Function.update e.extMapAudio theMap.value.toNat value }
  | _, _ => e

theorem afterSdps_eq (infos : List SdpInfo) : afterSdps infos = (infos.flatMap (·.extMapVector)).foldl record {} := by
  rw [List.foldl_flatMap]
  rfl

theorem lookup_eq_one_iff (uri : Str) : translationMap.lookup uri = some 1 ↔
    uri = "http://www.webrtc.org/experiments/rtp-hdrext/abs-send-time".toList := by
  constructor
  · intro h
    have hmem : ∀ x ∈ translationMap, x.2 = 1 →
        x.1 = "http://www.webrtc.org/experiments/rtp-hdrext/abs-send-time".toList := by
      decide +kernel
    obtain ⟨l₁, l₂, heq, -⟩ := List.lookup_eq_some_iff.mp h
    exact hmem (uri, 1) (heq ▸ List.mem_append_right _ List.mem_cons_self) rfl
  · rintro rfl
    decide +kernel

variable {e : ExtensionMaps} {t : PacketType} {extMap : ℕ → ℕ}

/-- A place is written by the supported extensions of its media and id. -/
theorem extMap_record (theMap : ExtMap) (id : ℕ) (ht : t ≠ .other) : ((record e theMap).extMap t).map (· id) =
    if theMap.mediaType = media t ∧ theMap.value.toNat = id ∧ isSupported theMap then translationMap.lookup theMap.uri
    else (e.extMap t).map (· id) := by
  unfold record isSupported
  cases hl : translationMap.lookup theMap.uri with
  | none =>
    rw [if_neg (by simp)]
    cases theMap.mediaType <;> rfl
  | some value =>
    have hplace : theMap.value.toNat = id ↔ id = theMap.value.toNat := eq_comm
    cases t with
    | other => exact absurd rfl ht
    | video => cases hm : theMap.mediaType <;> simp [extMap, media, Function.update_apply, hplace, apply_ite some]
    | audio => cases hm : theMap.mediaType <;> simp [extMap, media, Function.update_apply, hplace, apply_ite some]

/-- A place has the extension that its id is mapped to in the end, or 0. -/
theorem extMap_foldl (entries : List ExtMap) (ht : t ≠ .other) (id : ℕ) :
    ((entries.foldl record {}).extMap t).map (· id) =
      some ((mapping entries (media t) id).elim 0 fun theMap => (translationMap.lookup theMap.uri).getD 0) := by
  induction entries using List.reverseRecOn with
  | nil =>
    cases t with
    | other => exact absurd rfl ht
    | video => rfl
    | audio => rfl
  | append_singleton entries theMap ih =>
    rw [List.foldl_append, List.foldl_cons, List.foldl_nil, extMap_record theMap id ht, mapping, List.filter_append]
    by_cases h : theMap.mediaType = media t ∧ theMap.value.toNat = id ∧ isSupported theMap
    · rw [if_pos h, List.filter_singleton, decide_eq_true h, cond_true, List.getLast?_append]
      obtain ⟨value, hvalue⟩ := Option.isSome_iff_exists.mp h.2.2
      simp [hvalue]
    · rw [if_neg h, List.filter_singleton, decide_eq_false h, cond_false, List.append_nil]
      exact ih

theorem extMap_eq_one_iff {infos : List SdpInfo} (h : (afterSdps infos).extMap t = some extMap) (id : ℕ) :
    extMap id = 1 ↔ IsTimed infos (media t) id := by
  have ht : t ≠ .other := by
    rintro rfl
    cases h
  have hplace := extMap_foldl (infos.flatMap (·.extMapVector)) ht id
  rw [← afterSdps_eq, h, Option.map_some, Option.some.injEq] at hplace
  rw [hplace, IsTimed]
  cases hmap : mapping (infos.flatMap (·.extMapVector)) (media t) id with
  | none => simp
  | some theMap =>
    have hsupported : isSupported theMap := by
      have hmem := List.mem_filter.mp (List.mem_of_getLast? hmap)
      simp only [decide_eq_true_eq] at hmem
      exact hmem.2.2.2
    obtain ⟨value, hvalue⟩ := Option.isSome_iff_exists.mp hsupported
    have hone := lookup_eq_one_iff theMap.uri
    rw [hvalue, Option.some.injEq] at hone
    simp [hvalue, hone]

end Tables

/-- The call returns behind visits to the elements and nothing else, has written the time into those that are mapped
to it, and has looked up no place behind the end of the array. -/
structure Processes (infos : List SdpInfo) (now : ℕ → Timeval) (p : DataPacket) (items : List Item) (fuel : ℕ)
    (m' : Mem) : Prop where
  returns : (afterSdps infos).processRtpExtensions now fuel p = some (p.length, m')
  visits : (((afterSdps infos).reached now fuel p).filter fun v => extId v.1 v.2 ≠ 0).map (·.2) =
    (Item.located 16 items).map (·.1)
  stamped : Stamped (IsTimed infos (media p.type)) now (Item.located 16 items) p.data m'
  lookups : ∀ v ∈ (afterSdps infos).reached now fuel p, extId v.1 v.2 ≠ 0 → extId v.1 v.2 < 10

section Process
variable {infos : List SdpInfo} {now : ℕ → Timeval} {p : DataPacket} {items : List Item} {extMap : ℕ → ℕ}

theorem exists_extMap (ht : p.type ≠ .other) : ∃ extMap, (afterSdps infos).extMap p.type = some extMap := by
  cases htype : p.type with
  | other => exact absurd htype ht
  | video => exact ⟨_, rfl⟩
  | audio => exact ⟨_, rfl⟩

/-- The block of a packet is walked over from its start, if its padding allows it. -/
theorem walk_of_isBlock (now : ℕ → Timeval) (h : IsBlock p items) (heven : Item.evenlyPadded items)
    (htime : ∀ el, Item.element el ∈ items → extMap el.id = 1 → el.data.length = 3) {fuel : ℕ} (hfuel : 1500 ≤ fuel) :
    (∃ m', extensionLoop extMap now (RtpHeader.getExtLength p.data 0) fuel p.data = some m' ∧
      Stamped (extMap · = 1) now (Item.located 16 items) p.data m') ∧
    ((extensionVisits extMap now (RtpHeader.getExtLength p.data 0) fuel p.data).filter fun v => extId v.1 v.2 ≠ 0).map
      (fun v => (v.2, extId v.1 v.2)) = (Item.located 16 items).map fun x => (x.1, x.2.id) := by
  have hlen := h.length
  have hreceived := h.received
  have hroom := h.room
  exact walk_of_evenlyPadded heven htime start_place (by omega) (by omega) (by omega) h.bytes

theorem setSdpInfoIndices_iff (infos : List SdpInfo) :
    (∀ theInfo ∈ infos, ∀ i ∈ setSdpInfoIndices theInfo, i < 10) ↔ ∀ theInfo ∈ infos,
      ∀ theMap ∈ theInfo.extMapVector, theMap.mediaType ≠ .other → isSupported theMap → theMap.value.toNat < 10 := by
  simp only [setSdpInfoIndices, List.forall_mem_map, List.mem_filter, decide_eq_true_eq, and_imp]

/-- Evenly padded elements with low ids are processed within the turns that the buffer has bytes. -/
theorem processes_of_evenlyPadded (h : IsBlock p items) (hmap : (afterSdps infos).extMap p.type = some extMap)
    (htime : ∀ el, Item.element el ∈ items → extMap el.id = 1 → el.data.length = 3) (heven : Item.evenlyPadded items)
    (hids : ∀ el, Item.element el ∈ items → el.id < 10) : ∃ m', Processes infos now p items 1500 m' := by
  obtain ⟨⟨m', hloop, hstamped⟩, hvisits⟩ := walk_of_isBlock now h heven htime le_rfl
  have htimed : (extMap · = 1) = IsTimed infos (media p.type) := funext fun id => propext (extMap_eq_one_iff hmap id)
  refine ⟨m', ?_, ?_, htimed ▸ hstamped, ?_⟩
  · rw [processRtpExtensions_of_id h.flag hmap h.id, hloop, Option.map_some]
  · have hfirst := congrArg (List.map Prod.fst) hvisits
    rw [List.map_map, List.map_map] at hfirst
    rw [reached_of_id h.flag hmap h.id]
    exact hfirst
  · rw [reached_of_id h.flag hmap h.id]
    intro v hv hid
    have hmem : (v.2, extId v.1 v.2) ∈ (Item.located 16 items).map fun x => (x.1, x.2.id) := by
      rw [← hvisits]
      exact List.mem_map_of_mem (List.mem_filter.mpr ⟨hv, decide_eq_true hid⟩)
    obtain ⟨x, hx, heq⟩ := List.mem_map.mp hmem
    rw [← (Prod.mk.inj heq).2]
    exact hids x.2 (Item.mem_of_mem_located hx)

/-- Elements that are all visited are evenly padded. -/
theorem Processes.evenlyPadded {fuel : ℕ} {m' : Mem} (hp : Processes infos now p items fuel m') (h : IsBlock p items)
    (hmap : (afterSdps infos).extMap p.type = some extMap)
    (htime : ∀ el, Item.element el ∈ items → extMap el.id = 1 → el.data.length = 3) : Item.evenlyPadded items := by
  by_contra hodd
  obtain ⟨x, hx, hmissed⟩ := missed_of_not_evenlyPadded now (RtpHeader.getExtLength p.data 0 * 4) 1 hodd htime h.bytes
  have hvisited : x.1 ∈ (Item.located 16 items).map (·.1) := List.mem_map_of_mem hx
  rw [← hp.visits, reached_of_id h.flag hmap h.id] at hvisited
  obtain ⟨v, hv, heq⟩ := List.mem_map.mp hvisited
  exact hmissed fuel v (List.mem_filter.mp hv).1 heq

/-- Every id of an element is looked up. -/
theorem Processes.id_lt {fuel : ℕ} {m' : Mem} (hp : Processes infos now p items fuel m') (h : IsBlock p items)
    (hmap : (afterSdps infos).extMap p.type = some extMap)
    (htime : ∀ el, Item.element el ∈ items → extMap el.id = 1 → el.data.length = 3) {el : Element}
    (hel : Item.element el ∈ items) : el.id < 10 := by
  have hreturns := hp.returns
  rw [processRtpExtensions_of_id h.flag hmap h.id] at hreturns
  obtain ⟨m, hloop, -⟩ := Option.map_eq_some_iff.mp hreturns
  have hmore : extensionVisits extMap now (RtpHeader.getExtLength p.data 0) (max fuel 1500) p.data =
      extensionVisits extMap now (RtpHeader.getExtLength p.data 0) fuel p.data :=
    (Cursor.of_loop_eq_some hloop (Nat.le_max_left fuel 1500)).2
  have hvisits := (walk_of_isBlock now h (hp.evenlyPadded h hmap htime) htime (Nat.le_max_right fuel 1500)).2
  rw [hmore] at hvisits
  obtain ⟨x, hx, rfl⟩ := Item.exists_located hel 16
  have hmem : (x.1, x.2.id) ∈ (Item.located 16 items).map fun x => (x.1, x.2.id) := List.mem_map_of_mem hx
  rw [← hvisits] at hmem
  obtain ⟨v, hv, heq⟩ := List.mem_map.mp hmem
  obtain ⟨hv, hid⟩ := List.mem_filter.mp hv
  rw [← (Prod.mk.inj heq).2]
  apply hp.lookups v _ (of_decide_eq_true hid)
  rw [reached_of_id h.flag hmap h.id]
  exact hv

/-- The elements are processed exactly if each has an even number of bytes of padding before it, and no id of an
element or of a supported extension is above 9. -/
theorem processes_iff (infos : List SdpInfo) (now : ℕ → Timeval) (h : IsBlock p items) (ht : p.type ≠ .other)
    (htime : ∀ el, Item.element el ∈ items → IsTimed infos (media p.type) el.id → el.data.length = 3) :
    ((∃ fuel m', Processes infos now p items fuel m') ∧ ∀ theInfo ∈ infos, ∀ i ∈ setSdpInfoIndices theInfo, i < 10) ↔
      Item.evenlyPadded items ∧ (∀ el, Item.element el ∈ items → el.id < 10) ∧
        ∀ theInfo ∈ infos, ∀ theMap ∈ theInfo.extMapVector, theMap.mediaType ≠ .other → isSupported theMap →
          theMap.value.toNat < 10 := by
  obtain ⟨extMap, hmap⟩ : ∃ extMap, (afterSdps infos).extMap p.type = some extMap := exists_extMap ht
  have htime' : ∀ el, Item.element el ∈ items → extMap el.id = 1 → el.data.length = 3 :=
    fun el hel hone => htime el hel ((extMap_eq_one_iff hmap el.id).mp hone)
  rw [setSdpInfoIndices_iff, ← and_assoc]
  apply and_congr_left'
  constructor
  · rintro ⟨fuel, m', hp⟩
    exact ⟨hp.evenlyPadded h hmap htime', fun el hel => hp.id_lt h hmap htime' hel⟩
  · rintro ⟨heven, hids⟩
    exact ⟨1500, processes_of_evenlyPadded h hmap htime' heven hids⟩

end Process

def exampleTime : Element := ⟨3, [0, 0, 0], by decide, by decide, by decide, by decide⟩

/-- A description that maps the id 3 to the time of sending for video. -/
def exampleSdp : SdpInfo :=
  { SdpInfo.new .sendRecv .sendRecv with extMapVector :=
    [⟨3, "http://www.webrtc.org/experiments/rtp-hdrext/abs-send-time".toList, .videoType⟩] }

/-- Two bytes of padding before the time of sending. -/
theorem processes_evenlyPadded : ∃ p items, IsBlock p items ∧ p.type ≠ .other ∧
    (∀ el, Item.element el ∈ items → IsTimed [exampleSdp] (media p.type) el.id → el.data.length = 3) ∧
    (∃ fuel m', Processes [exampleSdp] (fun _ => ⟨5, 0⟩) p items fuel m') ∧
    ∀ theInfo ∈ [exampleSdp], ∀ i ∈ setSdpInfoIndices theInfo, i < 10 := by
  have h : IsBlock (exampleExtended [0, 0, 0x32, 0, 0, 0, 0, 0]) [.pad, .pad, .element exampleTime, .pad, .pad] :=
    ⟨by decide, by decide, by decide, by decide, by decide +kernel, by decide, by decide⟩
  have htime : ∀ el, Item.element el ∈ [.pad, .pad, .element exampleTime, .pad, .pad] →
      IsTimed [exampleSdp] .videoType el.id → el.data.length = 3 := by
    intro el hel _
    simp only [List.mem_cons, reduceCtorEq, Item.element.injEq, List.not_mem_nil, or_false, false_or] at hel
    rw [hel]
    rfl
  have hids : ∀ el, Item.element el ∈ [.pad, .pad, .element exampleTime, .pad, .pad] → el.id < 10 := by
    intro el hel
    simp only [List.mem_cons, reduceCtorEq, Item.element.injEq, List.not_mem_nil, or_false, false_or] at hel
    rw [hel]
    decide
  have hmaps : ∀ theInfo ∈ [exampleSdp], ∀ theMap ∈ theInfo.extMapVector, theMap.mediaType ≠ .other →
      isSupported theMap → theMap.value.toNat < 10 := by decide +kernel
  exact ⟨_, _, h, by decide, htime, (processes_iff [exampleSdp] _ h (by decide) htime).mpr ⟨rfl, hids, hmaps⟩⟩

/-- Padding of one byte before the time of sending: its first byte is stepped over, and the time stays as it was. -/
theorem not_processes_oddlyPadded : ∃ p items, IsBlock p items ∧ p.type ≠ .other ∧
    (∀ el, Item.element el ∈ items → IsTimed [exampleSdp] (media p.type) el.id → el.data.length = 3) ∧
    ¬ ∃ fuel m', Processes [exampleSdp] (fun _ => ⟨5, 0⟩) p items fuel m' := by
  have h : IsBlock (exampleExtended [0, 0x32, 0, 0, 0, 0, 0, 0]) [.pad, .element exampleTime, .pad, .pad, .pad] :=
    ⟨by decide, by decide, by decide, by decide, by decide +kernel, by decide, by decide⟩
  have htime : ∀ el, Item.element el ∈ [.pad, .element exampleTime, .pad, .pad, .pad] → el.data.length = 3 := by
    intro el hel
    simp only [List.mem_cons, reduceCtorEq, Item.element.injEq, List.not_mem_nil, or_false, false_or] at hel
    rw [hel]
    rfl
  refine ⟨_, _, h, by decide, fun el hel _ => htime el hel, ?_⟩
  rintro ⟨fuel, m', hp⟩
  obtain ⟨extMap, hmap⟩ : ∃ extMap, (afterSdps [exampleSdp]).extMap .video = some extMap := ⟨_, rfl⟩
  exact absurd (hp.evenlyPadded h hmap fun el hel _ => htime el hel) (by decide)

end ExtensionMaps
end Sfup.Core
