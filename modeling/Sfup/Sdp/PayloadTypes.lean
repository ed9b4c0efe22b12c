import Sfup.Sdp.Collecting

/-! The payload type maps of a description that was read. -/
namespace Sfup.Sdp

namespace SdpInfo

def getAudioInternalPT (info : SdpInfo) (externalPT : ℤ) : ℤ := (info.outInPTMap.find? externalPT).getD externalPT

def getVideoInternalPT (info : SdpInfo) (externalPT : ℤ) : ℤ := info.getAudioInternalPT externalPT

def getAudioExternalPT (info : SdpInfo) (internalPT : ℤ) : ℤ := (info.inOutPTMap.find? internalPT).getD internalPT

def getVideoExternalPT (info : SdpInfo) (internalPT : ℤ) : ℤ := info.getAudioExternalPT internalPT

end SdpInfo

namespace Parser
open SdpInfo

/-- The supported codecs of a description. -/
def mapped (ls : List Str) : List (UInt32 × UInt32) := ls.filterMap mappedBy

section Maps
variable {ls : List Str}

/-- The entries of `outInPTMap` and of `inOutPTMap`, in the order in which they are set. -/
def outIn (x : UInt32 × UInt32) : ℤ × ℤ := (toInt x.1, toInt x.2)

def inOut (x : UInt32 × UInt32) : ℤ × ℤ := (toInt x.2, toInt x.1)

def setAll (m : OrdMap ℤ ℤ) (xs : List (ℤ × ℤ)) : OrdMap ℤ ℤ := xs.foldl (fun m x => m.set x.1 x.2) m

private theorem maps_read (v : Tally) (line : Str) :
    (v.read line).outInPTMap = setAll v.outInPTMap ((mappedBy line).toList.map outIn) ∧
      (v.read line).inOutPTMap = setAll v.inOutPTMap ((mappedBy line).toList.map inOut) := by
  rw [Tally.read_eq]
  cases mappedBy line with
  | none => exact ⟨rfl, rfl⟩
  | some x => exact ⟨rfl, rfl⟩

theorem maps_foldl_read (ls : List Str) (v : Tally) : (ls.foldl Tally.read v).outInPTMap = setAll v.outInPTMap ((mapped ls).map outIn) ∧
    (ls.foldl Tally.read v).inOutPTMap = setAll v.inOutPTMap ((mapped ls).map inOut) := by
  induction ls generalizing v with
  | nil => exact ⟨rfl, rfl⟩
  | cons line ls ih =>
    have hmapped : mapped (line :: ls) = (mappedBy line).toList ++ mapped ls := by
      unfold mapped
      cases hline : mappedBy line with
      | none => exact List.filterMap_cons_none hline
      | some x => exact List.filterMap_cons_some hline
    rw [List.foldl_cons, (ih _).1, (ih _).2, (maps_read v line).1, (maps_read v line).2, hmapped]
    simp only [setAll, List.map_append, List.foldl_append, and_self]

private theorem toInt_injective : Function.Injective toInt :=
  fun a b h => UInt32.toBitVec_inj.mp (BitVec.toInt_inj.mp (show a.toBitVec.toInt = b.toBitVec.toInt from h))

private theorem mem_mapped {x : UInt32 × UInt32} : x ∈ mapped ls ↔
    ∃ line ∈ ls, ∃ c rtp, codecOf line = some c ∧ internalOf c = some rtp ∧ x = (c.payloadType, rtp.payloadType) := by
  simp only [mapped, mappedBy, List.mem_filterMap, Option.bind_eq_bind, Option.bind_eq_some_iff, Option.pure_def,
    Option.some.injEq, eq_comm (a := x)]
  constructor
  · rintro ⟨line, hline, c, hc, rtp, hr, hx⟩
    exact ⟨line, hline, c, rtp, hc, hr, hx⟩
  · rintro ⟨line, hline, c, rtp, hc, hr, hx⟩
    exact ⟨line, hline, c, hc, rtp, hr, hx⟩

theorem maps_initWithSdp {videoDirection audioDirection : StreamDirection} {sdp media : Str} {r : Bool}
    {info : SdpInfo} (h : initWithSdp (SdpInfo.new videoDirection audioDirection) sdp media = .ok (r, info)) :
    info.outInPTMap = setAll .empty ((mapped (getlines sdp)).map outIn) ∧
      info.inOutPTMap = setAll .empty ((mapped (getlines sdp)).map inOut) := by
  obtain ⟨t, ht⟩ := tally_processSdp h
  obtain ⟨ho, hi⟩ := maps_foldl_read (getlines sdp)
    (tallyOf (SdpInfo.new videoDirection audioDirection) (mediaTypeOf media))
  exact ⟨(congrArg Tally.outInPTMap ht).trans ho, (congrArg Tally.inOutPTMap ht).trans hi⟩

end Maps

/-- If no payload type is given to two supported codecs, the maps of the description are inverse to each other on
the internal types, and each external type is mapped to the internal type of its codec. -/
theorem payloadTypes_consistent {videoDirection audioDirection : StreamDirection} {sdp media : Str} {r : Bool}
    {info : SdpInfo} (hnd : ((mapped (getlines sdp)).map (·.1)).Nodup)
    (h : initWithSdp (SdpInfo.new videoDirection audioDirection) sdp media = .ok (r, info)) :
    (∀ i e, info.inOutPTMap.find? i = some e → info.outInPTMap.find? e = some i) ∧
    (∀ e i, info.outInPTMap.find? e = some i ↔
      ∃ line ∈ getlines sdp, ∃ c rtp, codecOf line = some c ∧ internalOf c = some rtp ∧
        e = toInt c.payloadType ∧ i = toInt rtp.payloadType) ∧
    ∀ i, (info.inOutPTMap.find? i).isSome →
      info.getVideoInternalPT (info.getVideoExternalPT i) = i ∧
      info.getAudioInternalPT (info.getAudioExternalPT i) = i := by
  obtain ⟨hout, hin⟩ := maps_initWithSdp h
  have hkeys : (((mapped (getlines sdp)).map outIn).map (·.1)).Nodup := by
    rw [List.map_map]
    have hmap := hnd.map toInt_injective
    rwa [List.map_map] at hmap
  have houtIn : ∀ e i, info.outInPTMap.find? e = some i ↔ ∃ x ∈ mapped (getlines sdp), outIn x = (e, i) := by
    intro e i
    rw [hout, ← List.mem_map]
    constructor
    · intro hfind
      rcases OrdMap.find?_foldl_set hfind with hmem | hempty
      · exact hmem
      · cases hempty
    · exact OrdMap.find?_foldl_set_of_mem hkeys
  have hinverse : ∀ i e, info.inOutPTMap.find? i = some e → info.outInPTMap.find? e = some i := by
    intro i e hfind
    rw [hin] at hfind
    rcases OrdMap.find?_foldl_set hfind with hmem | hempty
    · obtain ⟨x, hx, hie⟩ := List.mem_map.mp hmem
      obtain ⟨rfl, rfl⟩ := Prod.mk.inj hie
      exact (houtIn _ _).mpr ⟨x, hx, rfl⟩
    · cases hempty
  have hreturn : ∀ i, (info.inOutPTMap.find? i).isSome →
      info.getAudioInternalPT (info.getAudioExternalPT i) = i := by
    intro i hi
    obtain ⟨e, he⟩ := Option.isSome_iff_exists.mp hi
    rw [getAudioExternalPT, he, Option.getD_some, getAudioInternalPT, hinverse i e he, Option.getD_some]
  refine ⟨hinverse, fun e i => ?_, fun i hi => ⟨hreturn i hi, hreturn i hi⟩⟩
  rw [houtIn]
  constructor
  · rintro ⟨x, hx, he⟩
    obtain ⟨line, hline, c, rtp, hc, hr, rfl⟩ := mem_mapped.mp hx
    exact ⟨line, hline, c, rtp, hc, hr, (Prod.mk.inj he).1.symm, (Prod.mk.inj he).2.symm⟩
  · rintro ⟨line, hline, c, rtp, hc, hr, rfl, rfl⟩
    exact ⟨_, mem_mapped.mpr ⟨line, hline, c, rtp, hc, hr, rfl⟩, rfl⟩

/-- The codec VP8 under two payload types. -/
def repeatedExample : Str := "a=rtpmap:96 VP8/90000\na=rtpmap:97 VP8/90000\n".toList

theorem payloadTypes_repeatedExample : ((mapped (getlines repeatedExample)).map (·.1)).Nodup ∧
    ∃ r info, initWithSdp (SdpInfo.new .sendRecv .sendRecv) repeatedExample [] = .ok (r, info) ∧
      info.inOutPTMap.find? 100 = some 97 ∧ info.outInPTMap.find? 96 = some 100 ∧
      info.getVideoInternalPT (info.getVideoExternalPT 100) = 100 := by
  have hnd : ((mapped (getlines repeatedExample)).map (·.1)).Nodup := by decide +kernel
  have hrun : (initWithSdp (SdpInfo.new .sendRecv .sendRecv) repeatedExample []).toOption.map
      (fun p => (p.2.inOutPTMap.find? 100, p.2.outInPTMap.find? 96)) = some (some 97, some 100) := by decide +kernel
  cases h : initWithSdp (SdpInfo.new .sendRecv .sendRecv) repeatedExample [] with
  | error e =>
    rw [h] at hrun
    cases hrun
  | ok p =>
    rw [h] at hrun
    obtain ⟨hin, hout⟩ := Prod.mk.inj (Option.some.inj hrun)
    obtain ⟨-, -, hreturn⟩ := payloadTypes_consistent hnd h
    exact ⟨hnd, p.1, p.2, rfl, hin, hout, (hreturn 100 (by rw [hin]; rfl)).1⟩

end Parser
end Sfup.Sdp
