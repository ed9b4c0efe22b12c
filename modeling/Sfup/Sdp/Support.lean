import Sfup.Sdp.PayloadTypes

/-! Whether a description supports a payload type: `supportPayloadType` of `SdpInfo.cpp`. -/
namespace Sfup.Sdp

namespace SdpInfo

/-- The loop over the codecs. The subscript operator makes an entry of 0 where there is none. -/
def supportLoop (payloadType : ℤ) : List RtpMap → OrdMap ℤ ℤ → Bool × OrdMap ℤ ℤ
  | [], inOutPTMap => (false, inOutPTMap)
  | rtp :: rest, inOutPTMap =>
    let inOutPTMap := inOutPTMap.touch (toInt rtp.payloadType) 0
    if inOutPTMap.find? (toInt rtp.payloadType) = some payloadType then (true, inOutPTMap)
    else supportLoop payloadType rest inOutPTMap

def supportPayloadType (info : SdpInfo) (payloadType : ℤ) : Bool × SdpInfo :=
  if (info.inOutPTMap.find? payloadType).isSome then
    let (found, inOutPTMap) := supportLoop payloadType info.payloadVector info.inOutPTMap
    (found, { info with inOutPTMap })
  else (false, info)

/-- The answer is whether a codec of the description has the payload type inside, and the maps stay as they are. -/
structure Agrees (info : SdpInfo) (payloadType : ℤ) : Prop where
  answer : (info.supportPayloadType payloadType).1 = true ↔
    ∃ rtp ∈ info.payloadVector, info.outInPTMap.find? (toInt rtp.payloadType) = some payloadType
  inOutPTMap : (info.supportPayloadType payloadType).2.inOutPTMap = info.inOutPTMap
  outInPTMap : (info.supportPayloadType payloadType).2.outInPTMap = info.outInPTMap

section Loop
variable {p k : ℤ} {rs : List RtpMap} {m : OrdMap ℤ ℤ}

/-- The external type is itself a key of `inOutPTMap`, with the payload type as its value. -/
def hits (m : OrdMap ℤ ℤ) (p : ℤ) (rtp : RtpMap) : Bool := m.find? (toInt rtp.payloadType) = some p

/-- The codecs that the loop passes have external types that are keys of `inOutPTMap`. -/
def Known (m : OrdMap ℤ ℤ) (p : ℤ) (rs : List RtpMap) : Prop :=
  ∀ rtp ∈ rs.takeWhile (!hits m p ·), (m.find? (toInt rtp.payloadType)).isSome

instance : Decidable (Known m p rs) := List.decidableBAll _ _

theorem touch_of_isSome {v : ℤ} (h : (m.find? k).isSome) : m.touch k v = m := if_pos h

theorem supportLoop_of_known (h : Known m p rs) : supportLoop p rs m = (rs.any (hits m p), m) := by
  induction rs with
  | nil => rfl
  | cons rtp rs ih =>
    by_cases hhit : m.find? (toInt rtp.payloadType) = some p
    · have htouch : m.touch (toInt rtp.payloadType) 0 = m := touch_of_isSome (by rw [hhit]; rfl)
      simp only [supportLoop, htouch, hhit, if_true, List.any_cons, hits, decide_true, Bool.true_or]
    · have hnot : hits m p rtp = false := decide_eq_false hhit
      rw [Known, List.takeWhile_cons_of_pos (by rw [hnot]; rfl), List.forall_mem_cons] at h
      simp only [supportLoop, touch_of_isSome h.1, if_neg hhit, List.any_cons, hnot, Bool.false_or]
      exact ih h.2

theorem find?_supportLoop (h : (m.find? k).isSome) : ((supportLoop p rs m).2.find? k).isSome := by
  induction rs generalizing m with
  | nil => exact h
  | cons rtp rs ih =>
    have htouch := OrdMap.find?_touch_isSome m (toInt rtp.payloadType) k 0 h
    simp only [supportLoop]
    split_ifs
    · exact htouch
    · exact ih htouch

/-- A codec whose external type is no key leaves an entry behind. -/
theorem supportLoop_ne (h : ¬ Known m p rs) : (supportLoop p rs m).2 ≠ m := by
  induction rs with
  | nil => exact absurd nofun h
  | cons rtp rs ih =>
    by_cases hhit : m.find? (toInt rtp.payloadType) = some p
    · have hyes : hits m p rtp = true := decide_eq_true hhit
      rw [Known, List.takeWhile_cons_of_neg (by rw [hyes]; simp)] at h
      exact absurd nofun h
    · have hnot : hits m p rtp = false := decide_eq_false hhit
      rw [Known, List.takeWhile_cons_of_pos (by rw [hnot]; rfl), List.forall_mem_cons, not_and_or] at h
      by_cases hsome : (m.find? (toInt rtp.payloadType)).isSome
      · simp only [supportLoop, touch_of_isSome hsome, if_neg hhit]
        exact ih (h.resolve_left (not_not.mpr hsome))
      · intro heq
        apply hsome
        rw [← heq, supportLoop]
        have htouch : ((m.touch (toInt rtp.payloadType) 0).find? (toInt rtp.payloadType)).isSome := by
          rw [OrdMap.find?_touch, if_pos rfl]
          rfl
        split_ifs
        · exact htouch
        · exact find?_supportLoop htouch

variable {info : SdpInfo}

theorem supportPayloadType_of (hp : (info.inOutPTMap.find? p).isSome) : info.supportPayloadType p =
    ((supportLoop p info.payloadVector info.inOutPTMap).1,
      { info with inOutPTMap := (supportLoop p info.payloadVector info.inOutPTMap).2 }) := if_pos hp

theorem known_of_agrees (hp : (info.inOutPTMap.find? p).isSome) (ha : info.Agrees p) :
    Known info.inOutPTMap p info.payloadVector := by
  have hkept := ha.inOutPTMap
  rw [supportPayloadType_of hp] at hkept
  exact not_not.mp fun hn => supportLoop_ne hn hkept

end Loop
end SdpInfo

namespace Parser
open SdpInfo

section Fresh
variable {videoDirection audioDirection : StreamDirection} {sdp media : Str} {r : Bool} {info : SdpInfo}

/-- An internal type that an external one is mapped to is a key of `inOutPTMap`. -/
theorem isSome_inOut (h : initWithSdp (SdpInfo.new videoDirection audioDirection) sdp media = .ok (r, info)) {e i : ℤ}
    (hout : info.outInPTMap.find? e = some i) : (info.inOutPTMap.find? i).isSome := by
  obtain ⟨ho, hi⟩ := maps_initWithSdp h
  rw [ho] at hout
  rw [hi]
  rcases OrdMap.find?_foldl_set hout with hmem | hempty
  · obtain ⟨x, hx, hxe⟩ := List.mem_map.mp hmem
    obtain ⟨-, rfl⟩ := Prod.mk.inj hxe
    apply OrdMap.find?_foldl_set_isSome
    rw [List.map_map]
    exact List.mem_map_of_mem hx
  · cases hempty

/-- The answer agrees with the maps exactly if the payload type is that of no codec, or the external types up to the
first that is itself an internal type under that number are all internal types, and there is one exactly if an external
type is mapped to the payload type. -/
theorem supportPayloadType_agrees_iff
    (h : initWithSdp (SdpInfo.new videoDirection audioDirection) sdp media = .ok (r, info)) (p : ℤ) :
    info.Agrees p ↔ ((info.inOutPTMap.find? p).isSome → Known info.inOutPTMap p info.payloadVector ∧
      (info.payloadVector.any (hits info.inOutPTMap p) ↔ info.payloadVector.any (hits info.outInPTMap p))) := by
  have hany : info.payloadVector.any (hits info.outInPTMap p) ↔
      ∃ rtp ∈ info.payloadVector, info.outInPTMap.find? (toInt rtp.payloadType) = some p := by
    simp only [List.any_eq_true, hits, decide_eq_true_eq]
  by_cases hp : (info.inOutPTMap.find? p).isSome
  · have hsupport := supportPayloadType_of hp
    constructor
    · intro ha _
      have hknown := known_of_agrees hp ha
      have hanswer := ha.answer
      rw [hsupport, supportLoop_of_known hknown, ← hany] at hanswer
      exact ⟨hknown, hanswer⟩
    · intro hc
      obtain ⟨hknown, hanswer⟩ := hc hp
      rw [supportLoop_of_known hknown] at hsupport
      refine ⟨?_, by rw [hsupport], by rw [hsupport]⟩
      rw [hsupport, ← hany]
      exact hanswer
  · have hsupport : info.supportPayloadType p = (false, info) := if_neg hp
    refine iff_of_true ⟨?_, by rw [hsupport], by rw [hsupport]⟩ fun hp' => absurd hp' hp
    rw [hsupport]
    refine iff_of_false nofun ?_
    rintro ⟨rtp, -, hrtp⟩
    exact hp (isSome_inOut h hrtp)

/-- The codec VP8 under a payload type. -/
def vp8Under (pt : Str) : Str := "a=rtpmap:".toList ++ pt ++ " VP8/90000\n".toList

theorem exists_of_any (sdp : Str) {q : SdpInfo → Bool}
    (h : (initWithSdp (SdpInfo.new .sendRecv .sendRecv) sdp []).toOption.any (q ·.2)) :
    ∃ r info, initWithSdp (SdpInfo.new .sendRecv .sendRecv) sdp [] = .ok (r, info) ∧ q info := by
  cases hread : initWithSdp (SdpInfo.new .sendRecv .sendRecv) sdp [] with
  | error e =>
    rw [hread] at h
    cases h
  | ok x =>
    rw [hread] at h
    exact ⟨x.1, x.2, rfl, h⟩

/-- Under the internal number the answer agrees with the maps. -/
theorem supportPayloadType_agrees_same : ∃ r info,
    initWithSdp (SdpInfo.new .sendRecv .sendRecv) (vp8Under "100".toList) [] = .ok (r, info) ∧ info.Agrees 100 := by
  obtain ⟨r, info, hread, hq⟩ := exists_of_any (vp8Under "100".toList) (q := fun info =>
    decide (Known info.inOutPTMap 100 info.payloadVector ∧
      (info.payloadVector.any (hits info.inOutPTMap 100) ↔ info.payloadVector.any (hits info.outInPTMap 100))))
    (by decide +kernel)
  exact ⟨r, info, hread, (supportPayloadType_agrees_iff hread 100).mpr fun _ => of_decide_eq_true hq⟩

/-- Under another number VP8 is not found, and an entry for the number is made. -/
theorem not_agrees_other : ∃ r info,
    initWithSdp (SdpInfo.new .sendRecv .sendRecv) (vp8Under "96".toList) [] = .ok (r, info) ∧
      (info.supportPayloadType 100).1 = false ∧ info.outInPTMap.find? 96 = some 100 ∧
      (info.supportPayloadType 100).2.inOutPTMap.find? 96 = some 0 ∧ ¬ info.Agrees 100 := by
  obtain ⟨r, info, hread, hq⟩ := exists_of_any (vp8Under "96".toList) (q := fun info => decide (
    (info.supportPayloadType 100).1 = false ∧ info.outInPTMap.find? 96 = some 100 ∧
      (info.supportPayloadType 100).2.inOutPTMap.find? 96 = some 0 ∧
      (info.inOutPTMap.find? 100).isSome ∧ ¬ Known info.inOutPTMap 100 info.payloadVector)) (by decide +kernel)
  obtain ⟨hfalse, hout, hentry, hsome, hnot⟩ := of_decide_eq_true hq
  exact ⟨r, info, hread, hfalse, hout, hentry, fun ha => hnot (known_of_agrees hsome ha)⟩

end Fresh
end Parser
end Sfup.Sdp
