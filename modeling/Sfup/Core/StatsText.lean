import Sfup.Core.Stats
import Sfup.Lib.OrdMap
import Sfup.Lib.Json
import Sfup.Sdp.StringUtil

/-! The table of the statistics as `Stats` keeps it, a map of maps, and the text that `getStats` writes of it. -/
namespace Sfup.Core
open Sfup.Rtp Sfup.Sdp

/-- The name of a key. -/
def Stat.text : Stat → Str
  | packetsLost => "packetsLost".toList
  | fractionLost => "fractionLost".toList
  | rtcpPacketSent => "rtcpPacketSent".toList
  | rtcpBytesSent => "rtcpBytesSent".toList
  | jitter => "jitter".toList
  | bandwidth => "bandwidth".toList
  | pli => "PLI".toList
  | sli => "SLI".toList
  | fir => "FIR".toList
  | nack => "NACK".toList
  | sourceSsrc => "sourceSsrc".toList

def Stat.all : List Stat :=
  [packetsLost, fractionLost, rtcpPacketSent, rtcpBytesSent, jitter, bandwidth, pli, sli, fir, nack, sourceSsrc]

theorem Stat.mem_all (key : Stat) : key ∈ all := by cases key <;> decide

structure StatsTable where
  statsPacket : OrdMap ℕ (OrdMap Str ℕ)
  videoSSRC : ℕ
  audioSSRC : ℕ
  theListener : Bool

namespace StatsTable

/-- The table of a new object. The constructor leaves the two sources as they are. -/
def start (videoSSRC audioSSRC : ℕ) (theListener : Bool) : StatsTable :=
  ⟨.empty, videoSSRC, audioSSRC, theListener⟩

def row (s : StatsTable) (ssrc : ℕ) : OrdMap Str ℕ := (s.statsPacket.find? ssrc).getD .empty

/-- `statsPacket_[ssrc]` makes an empty map if there is none. -/
def touch (s : StatsTable) (ssrc : ℕ) : StatsTable := { s with statsPacket := s.statsPacket.touch ssrc .empty }

def set (s : StatsTable) (ssrc : ℕ) (key : Stat) (value : ℕ) : StatsTable :=
  let s := s.touch ssrc
  { s with statsPacket := s.statsPacket.set ssrc ((s.row ssrc).set key.text value) }

def account (s : StatsTable) (ssrc : ℕ) (key : Stat) : StatsTable :=
  let s := s.touch ssrc
  match (s.row ssrc).find? key.text with
  | some count => s.set ssrc key ((count + 1) % 2 ^ 64)
  | none => s.set ssrc key 1

def processPart (s : StatsTable) (m : Mem) (chead : ℕ) : StatsTable :=
  let ssrc := RtcpHeader.getSSRC m chead
  if RtcpHeader.packettype m chead = 201 then
    let s := s.set ssrc .fractionLost (RtcpHeader.getFractionLost m chead).toNat
    let s := s.set ssrc .packetsLost (RtcpHeader.getLostPackets m chead).toNat
    let s := s.set ssrc .jitter (RtcpHeader.getJitter m chead).toNat
    s.set ssrc .sourceSsrc (RtcpHeader.getSourceSSRC m chead)
  else if RtcpHeader.packettype m chead = 200 then
    let s := s.set ssrc .rtcpPacketSent (RtcpHeader.getPacketsSent m chead)
    s.set ssrc .rtcpBytesSent (RtcpHeader.getOctetsSent m chead)
  else if RtcpHeader.packettype m chead = 205 then s.account ssrc .nack
  else if RtcpHeader.packettype m chead = 206 then
    if RtcpHeader.getBlockCount m chead = 1 then s.account ssrc .pli
    else if RtcpHeader.getBlockCount m chead = 2 then s.account ssrc .sli
    else if RtcpHeader.getBlockCount m chead = 4 then s.account ssrc .fir
    else if RtcpHeader.getBlockCount m chead = 15 then
      if RtcpHeader.isREMB m chead then s.set ssrc .bandwidth (RtcpHeader.bitrate m chead) else s
    else s
  else s

/-- The inner loop of `getStats`. -/
def membersText : List (Str × ℕ) → Str
  | [] => []
  | e :: es =>
    '"' :: e.1 ++ "\":\"".toList ++ dec e.2 ++ "\"".toList ++
      (if es.isEmpty then [] else ",\n".toList) ++ membersText es

def objectText (s : StatsTable) (currentSSRC : ℕ) : Str :=
  "\x7b\"ssrc\":\"".toList ++ dec currentSSRC ++ "\",\n".toList ++
    (if currentSSRC = s.videoSSRC then "\"type\":\"".toList ++ "video\",\n".toList
      else if currentSSRC = s.audioSSRC then "\"type\":\"".toList ++ "audio\",\n".toList else []) ++
    membersText (s.row currentSSRC).entries ++ "\x7d".toList

/-- The outer loop of `getStats`. -/
def objectsText (s : StatsTable) : List (ℕ × OrdMap Str ℕ) → Str
  | [] => []
  | e :: es => s.objectText e.1 ++ (if es.isEmpty then [] else ",".toList) ++ s.objectsText es

def getStats (s : StatsTable) : Str := "[".toList ++ s.objectsText s.statsPacket.entries ++ "]".toList

def sendStats (s : StatsTable) : Option Str := if s.theListener then some s.getStats else none

def processRtcpPacket (buf : Mem) (length : ℕ) (s : StatsTable) : StatsTable × Option Str :=
  let s := (Walk.loop RtcpProcessor.rtcpLength (fun s m p => (processPart s m p, m)) length (length + 1) s buf 0).1
  (s, s.sendStats)

/-- A sequence of packets, each with its length. -/
def run (packets : List (Mem × ℕ)) (s : StatsTable) : StatsTable :=
  packets.foldl (fun s x => (processRtcpPacket x.1 x.2 s).1) s

section View
variable {s : StatsTable} {ssrc ssrc' : ℕ} {key : Stat}

@[simp] theorem row_touch (s : StatsTable) (ssrc ssrc' : ℕ) : (s.touch ssrc).row ssrc' = s.row ssrc' := by
  simp only [row, touch, OrdMap.find?_touch]
  split_ifs with h
  · rw [h]
    rfl
  · rfl

theorem find?_set (s : StatsTable) (ssrc ssrc' : ℕ) (key : Stat) (value : ℕ) :
    (s.set ssrc key value).statsPacket.find? ssrc' =
      if ssrc = ssrc' then some ((s.row ssrc).set key.text value) else s.statsPacket.find? ssrc' := by
  simp only [set, OrdMap.find?_set, row_touch]
  split_ifs with h
  · rfl
  · rw [touch, OrdMap.find?_touch, if_neg h]

def view (s : StatsTable) : Stats := ⟨fun ssrc key => (s.row ssrc).find? key.text⟩

theorem account_eq (s : StatsTable) (ssrc : ℕ) (key : Stat) :
    s.account ssrc key = s.set ssrc key (match (s.row ssrc).find? key.text with
      | some count => (count + 1) % 2 ^ 64
      | none => 1) := by
  have htouch : (s.touch ssrc).touch ssrc = s.touch ssrc := by simp only [touch, OrdMap.touch_touch]
  simp only [account, set, row_touch, htouch]
  cases (s.row ssrc).find? key.text <;> rfl

end View

end StatsTable

section Entries
variable {s : Stats} {ssrc : ℕ} {key : Stat} {m : Mem} {p : ℕ}

/-- The fields of a receiver report. -/
def Stat.reported : Stat → Mem → ℕ → ℕ
  | packetsLost, m, p => (RtcpHeader.getLostPackets m p).toNat
  | fractionLost, m, p => (RtcpHeader.getFractionLost m p).toNat
  | jitter, m, p => (RtcpHeader.getJitter m p).toNat
  | sourceSsrc, m, p => RtcpHeader.getSourceSSRC m p
  | _, _, _ => 0

def Stat.reports : List Stat := [packetsLost, fractionLost, jitter, sourceSsrc]

def counted (n : ℕ) : Option ℕ := if n = 0 then none else some (n % 2 ^ 64)

end Entries

namespace StatsTable
open Json

section Filled
variable {s : StatsTable}

def Filled (r : OrdMap Str ℕ) : Prop :=
  (∃ key : Stat, r.find? key.text ≠ none) ∧ ∀ e ∈ r.entries, ∃ key : Stat, e.1 = key.text

def AllFilled (s : StatsTable) : Prop := ∀ e ∈ s.statsPacket.entries, Filled e.2

theorem AllFilled.set (h : s.AllFilled) (ssrc : ℕ) (key : Stat) (value : ℕ) : (s.set ssrc key value).AllFilled := by
  rintro ⟨ssrc', r⟩ he
  rw [← OrdMap.find?_eq_some_iff, find?_set] at he
  split_ifs at he with hssrc
  · cases he
    refine ⟨⟨key, by simp⟩, fun e he => ?_⟩
    rcases OrdMap.mem_insertEntry he with rfl | he
    · exact ⟨key, rfl⟩
    · unfold row at he
      cases hr : s.statsPacket.find? ssrc with
      | none =>
        rw [hr] at he
        cases he
      | some r =>
        rw [hr] at he
        exact (h _ (OrdMap.find?_eq_some_iff.mp hr)).2 e he
  · exact h _ (OrdMap.find?_eq_some_iff.mp he)

theorem AllFilled.processPart (h : s.AllFilled) (m : Mem) (chead : ℕ) : (s.processPart m chead).AllFilled := by
  have haccount : ∀ ssrc key, (s.account ssrc key).AllFilled := fun ssrc key => account_eq s ssrc key ▸ h.set _ _ _
  unfold StatsTable.processPart
  dsimp only
  repeat' split
  · exact (((h.set _ _ _).set _ _ _).set _ _ _).set _ _ _
  · exact (h.set _ _ _).set _ _ _
  all_goals first | exact h | exact haccount _ _ | exact h.set _ _ _

theorem AllFilled.foldl (h : s.AllFilled) (parts : List (Mem × ℕ)) :
    (parts.foldl (fun s x => s.processPart x.1 x.2) s).AllFilled := by
  induction parts generalizing s with
  | nil => exact h
  | cons x parts ih => exact ih (h.processPart x.1 x.2)

end Filled

section Text
variable {s : StatsTable}

theorem plain_dec (n : ℕ) : ∀ c ∈ dec n, Plain c := by
  intro c hc
  have hd : c.isDigit := Nat.isDigit_of_mem_toDigits (by decide) (by decide) hc
  exact plain_of_isAlphanum (by simp [Char.isAlphanum, hd])

def members (es : List (Str × ℕ)) : List (Str × Json) := es.map fun e => (e.1, .string (dec e.2))

def typeMember (s : StatsTable) (ssrc : ℕ) : List (Str × Json) :=
  if ssrc = s.videoSSRC then [("type".toList, .string "video".toList)]
  else if ssrc = s.audioSSRC then [("type".toList, .string "audio".toList)] else []

def object (s : StatsTable) (ssrc : ℕ) : List (Str × Json) :=
  ("ssrc".toList, .string (dec ssrc)) :: s.typeMember ssrc ++ members (s.row ssrc).entries

def sources (s : StatsTable) : List ℕ := s.statsPacket.entries.map (·.1)

end Text

section Run
variable {key : Stat} (packets : List (Mem × ℕ)) (videoSSRC audioSSRC : ℕ) (theListener : Bool) (ssrc : ℕ)

end Run

/-- A feedback packet of source 7. -/
def feedback (fmt packettype length : UInt8) : Mem := fun i =>
  if i = 0 then 0x80 + fmt else if i = 1 then packettype else if i = 3 then length else if i = 7 then 7 else 0

end StatsTable
end Sfup.Core
