import Sfup.Media.RoundTrip

/-! The packets of a frame: `packageVideo` cuts it without a gap or an overlap and numbers the parts. Its
loop asks the fragmenter for one packet after another until a flag is set with the last one. -/
namespace Sfup.Media
open Sfup.Rtp RtpVP8Fragmenter

namespace RtpVP8Fragmenter

/-- The fragment at the front as it is written, the flag `lastPacket`, and what is left in the queue. From
an empty queue nothing is written, and the flag is left as it is. -/
def getPacket (totalData : List UInt8) (fragmentQueue : List Piece) (lastPacket : Bool) :
    List UInt8 × Bool × List Piece :=
  match fragmentQueue with
  | [] => ([], lastPacket, [])
  | test :: rest => (writeFragment totalData test, lastPacket || rest.isEmpty, rest)

end RtpVP8Fragmenter

namespace OutputProcessor

/-- The body of the loop in `packageVideo` and its condition; `none` is a loop that goes on. -/
def doWhile (timestamp : UInt32) (inBuff : List UInt8) :
    ℕ → List Piece → Bool → OutputProcessor → Option (List (Mem × ℕ) × OutputProcessor)
  | 0, _, _, _ => none
  | fuel + 1, fragmentQueue, lastFrame, p =>
    let (outBuff, lastFrame, fragmentQueue) := getPacket inBuff fragmentQueue lastFrame
    let rtpHeader := header lastFrame p.seqnum timestamp
    let headerLength := RtpHeader.getHeaderLength rtpHeader 0
    let rtpBuffer := (p.rtpBuffer.copy 0 (rtpHeader.bytes 0 headerLength)).copy headerLength outBuff
    let p := { p with seqnum := p.seqnum + 1, rtpBuffer }
    let packet := (rtpBuffer, outBuff.length + headerLength)
    if lastFrame then some ([packet], p)
    else (doWhile timestamp inBuff fuel fragmentQueue lastFrame p).map fun r => (packet :: r.1, r.2)

variable {timestamp : UInt32} {frame : List UInt8} {p : OutputProcessor}

theorem doWhile_eq_packageLoop {fuel : ℕ} {fragmentQueue : List Piece} (hne : fragmentQueue ≠ [])
    (hfuel : fragmentQueue.length ≤ fuel) :
    doWhile timestamp frame fuel fragmentQueue false p = some (packageLoop timestamp frame fragmentQueue p) := by
  induction fuel generalizing fragmentQueue p with
  | zero => exact absurd (List.length_eq_zero_iff.mp (Nat.le_zero.mp hfuel)) hne
  | succ fuel ih =>
    cases fragmentQueue with
    | nil => exact absurd rfl hne
    | cons fragment rest =>
      cases rest with
      | nil => rfl
      | cons next rest =>
        simp only [doWhile, getPacket, List.isEmpty_cons, Bool.or_false, Bool.false_eq_true, if_false,
          ih (List.cons_ne_nil next rest) (by simpa using hfuel)]
        rfl

theorem calculatePackets_of_le {fuel remaining pos : ℕ} (hfuel : remaining ≤ fuel) :
    calculatePackets fuel remaining pos = calculatePackets remaining remaining pos := by
  induction remaining using Nat.strong_induction_on generalizing fuel pos with
  | _ remaining ih =>
    by_cases h : 0 < remaining
    · obtain ⟨n, rfl⟩ := Nat.exists_eq_succ_of_ne_zero h.ne'
      obtain ⟨k, rfl⟩ := Nat.exists_eq_succ_of_ne_zero (n := fuel) (by omega)
      have hmin : 0 < min 1099 (n + 1) := by omega
      have hless : n + 1 - min 1099 (n + 1) < n + 1 := by omega
      have hk : n + 1 - min 1099 (n + 1) ≤ k := by omega
      have hn : n + 1 - min 1099 (n + 1) ≤ n := by omega
      rw [calculatePackets_pos h, calculatePackets_pos h, ih _ hless hk, ih _ hless hn]
    · have hz : remaining = 0 := by omega
      rw [hz, calculatePackets_zero, calculatePackets_zero]

/-! ## The fields of the header -/

section Header
variable {lastFrame : Bool} {seqnum : UInt32}

private theorem header_timestamp : (header lastFrame seqnum timestamp).long 4 = timestamp.toNat := by
  simp only [header, RtpHeader.setPayloadType, RtpHeader.setSSRC, RtpHeader.setTimestamp]
  rw [← Mem.long_setLong (m := RtpHeader.setSeqNumber (RtpHeader.setMarker RtpHeader.new 0 lastFrame) 0 _) (p := 4)]
  refine Mem.long_congr fun i hlo hhi => ?_
  rw [Function.update_of_ne (by omega), Mem.setLong_of_lt (by omega)]

private theorem header_ssrc : (header lastFrame seqnum timestamp).long 8 = 55543 := by
  simp only [header, RtpHeader.setPayloadType]
  refine (Mem.long_congr fun i hlo hhi => Function.update_of_ne (by omega) _ _).trans ?_
  exact Mem.long_setLong

private theorem getMarker_header : RtpHeader.getMarker (header lastFrame seqnum timestamp) 0 = lastFrame := by
  have hbyte : header lastFrame seqnum timestamp (0 + 1) = if lastFrame then 0xe4 else 0x64 := header_second
  rw [RtpHeader.getMarker, hbyte]
  cases lastFrame <;> rfl

private theorem getMarker_congr {m m' : Mem} {a : ℕ} (h : m (a + 1) = m' (a + 1)) :
    RtpHeader.getMarker m a = RtpHeader.getMarker m' a := by
  rw [RtpHeader.getMarker, RtpHeader.getMarker, h]

end Header

/-! ## The packets -/

/-- A packet with a header of 12 bytes, a descriptor of one byte and up to 1099 bytes of a frame. -/
structure IsFragment (first last : Bool) (number : UInt16) (timestamp : UInt32) (packet : Mem × ℕ) : Prop where
  headerLength : RtpHeader.getHeaderLength packet.1 0 = 12
  length : 12 + 1 < packet.2 ∧ packet.2 ≤ 12 + 1100
  descriptor : packet.1 12 = if first then 0x10 else 0x00
  marker : RtpHeader.getMarker packet.1 0 = last
  timestamp : packet.1.long 4 = timestamp.toNat
  ssrc : packet.1.long 8 = 55543
  number : RtpHeader.getSeqNumber packet.1 0 = number

/-- What a packet carries of the frame. -/
def carried (packet : Mem × ℕ) : List UInt8 := packet.1.bytes 13 (packet.2 - 13)

theorem isFragment_packet {rtpBuffer : Mem} {lastFrame first : Bool} {seqnum : UInt32} {payload : List UInt8}
    (hpos : 0 < payload.length) (hmax : payload.length ≤ 1099) :
    IsFragment first lastFrame seqnum.toUInt16 timestamp
      (packet rtpBuffer lastFrame first seqnum timestamp payload, payload.length + 1 + 12) := by
  have hheader {i : ℕ} (hi : i < 12) : packet rtpBuffer lastFrame first seqnum timestamp payload i =
      header lastFrame seqnum timestamp i := packet_header hi
  have hdescriptor : packet rtpBuffer lastFrame first seqnum timestamp payload 12 = if first then 0x10 else 0x00 :=
    packet_descriptor
  have hmarker := getMarker_congr (a := 0) (hheader (show 0 + 1 < 12 by decide))
  refine ⟨?_, ?_, hdescriptor, hmarker.trans getMarker_header, ?_, ?_, ?_⟩
  · exact getHeaderLength_of_flags ((hheader (by decide)).trans header_flags)
  · constructor <;> dsimp only <;> omega
  · exact (Mem.long_congr fun i _ hi => hheader (by omega)).trans header_timestamp
  · exact (Mem.long_congr fun i _ hi => hheader (by omega)).trans header_ssrc
  · exact (Mem.word_congr (hheader (by decide)) (hheader (by decide))).trans header_number

section Pieces
variable {pieces : List Piece} {packet' : Mem × ℕ}

theorem length_packageLoop : (packageLoop timestamp frame pieces p).1.length = pieces.length := by
  induction pieces generalizing p with
  | nil => rfl
  | cons q rest ih => rw [packageLoop_cons, List.length_cons, List.length_cons, ih]

theorem carried_packageLoop : (packageLoop timestamp frame pieces p).1.map carried = pieces.map (slice frame) := by
  induction pieces generalizing p with
  | nil => rfl
  | cons q rest ih =>
    rw [packageLoop_cons, List.map_cons, List.map_cons, ih]
    congr 1
    exact packet_payload

theorem state_packageLoop : (packageLoop timestamp frame pieces p).2.seqnum = p.seqnum + UInt32.ofNat pieces.length ∧
    (packageLoop timestamp frame pieces p).2.videoPackager = p.videoPackager := by
  induction pieces generalizing p with
  | nil => exact ⟨(UInt32.add_zero _).symm, rfl⟩
  | cons q rest ih =>
    simp only [packageLoop]
    rw [ih.1, ih.2, List.length_cons, UInt32.ofNat_add, UInt32.add_assoc, UInt32.add_comm 1]
    exact ⟨rfl, rfl⟩

theorem getElem?_packageLoop {i : ℕ} (h : (packageLoop timestamp frame pieces p).1[i]? = some packet') :
    ∃ q rtpBuffer, pieces[i]? = some q ∧ packet' =
      (packet rtpBuffer (decide (i + 1 = pieces.length)) q.first (p.seqnum + UInt32.ofNat i) timestamp (slice frame q),
        (slice frame q).length + 1 + 12) := by
  induction pieces generalizing p i with
  | nil => cases h
  | cons q rest ih =>
    rw [packageLoop_cons] at h
    cases i with
    | zero =>
      obtain rfl := Option.some.inj h
      refine ⟨q, p.rtpBuffer, rfl, ?_⟩
      have hlast : rest.isEmpty = decide (0 + 1 = (q :: rest).length) := by cases rest <;> simp
      have hnumber : p.seqnum + UInt32.ofNat 0 = p.seqnum := UInt32.add_zero _
      rw [hlast, hnumber]
    | succ i =>
      obtain ⟨q', rtpBuffer, hq, he⟩ := ih h
      refine ⟨q', rtpBuffer, hq, ?_⟩
      have hlast : decide (i + 1 = rest.length) = decide (i + 1 + 1 = (q :: rest).length) := by simp
      have hnumber : p.seqnum + 1 + UInt32.ofNat i = p.seqnum + UInt32.ofNat (i + 1) := by
        rw [UInt32.ofNat_add, UInt32.add_assoc, UInt32.add_comm 1]
        rfl
      rw [he, hlast, hnumber]

/-- A piece is not empty, fits a packet, and is marked as the first one exactly at the start of the frame. -/
theorem getElem?_calculatePackets {fuel remaining pos i : ℕ} {q : Piece} (hframe : frame.length = pos + remaining)
    (hfuel : remaining ≤ fuel) (h : (calculatePackets fuel remaining pos)[i]? = some q) :
    q.first = decide (pos + i = 0) ∧ 0 < (slice frame q).length ∧ (slice frame q).length ≤ 1099 := by
  induction fuel generalizing remaining pos i with
  | zero => cases h
  | succ fuel ih =>
    by_cases hpos : 0 < remaining
    · have hmin : 0 < min 1099 remaining := by omega
      rw [calculatePackets_pos hpos] at h
      cases i with
      | zero =>
        obtain rfl := Option.some.inj h
        rw [length_slice hframe]
        exact ⟨rfl, hmin, by omega⟩
      | succ i =>
        obtain ⟨hfirst, hlen⟩ := ih (by omega) (by omega) h
        refine ⟨?_, hlen⟩
        rw [hfirst, decide_eq_decide]
        omega
    · have hz : remaining = 0 := by omega
      rw [hz, calculatePackets_zero] at h
      cases h

end Pieces

/-- A frame that is not empty is cut into as few packets as hold it. The loops end, however many turns they
may take; the packets carry the frame and have its timestamp and successive numbers, which the next frame
goes on with. -/
theorem packageVideo_partition (hready : p.videoPackager = true) (hframe : frame ≠ []) (timestamp : UInt32) :
    ∃ packets p',
      (∀ fuel turns, frame.length ≤ fuel → frame.length ≤ turns →
        doWhile timestamp frame turns (calculatePackets fuel frame.length 0) false p = some (packets, p')) ∧
      p.packageVideo frame timestamp = (packets, p') ∧
      packets.length = (frame.length + 1098) / 1099 ∧
      (packets.map carried).flatten = frame ∧
      (∀ i packet, packets[i]? = some packet → IsFragment (decide (i = 0)) (decide (i + 1 = packets.length))
        (p.seqnum.toUInt16 + UInt16.ofNat i) timestamp packet) ∧
      p'.seqnum.toUInt16 = p.seqnum.toUInt16 + UInt16.ofNat packets.length ∧ p'.videoPackager = true := by
  have hdata : frame.length = 0 + frame.length := by omega
  obtain ⟨hflat, hcount⟩ := slices_spec hdata le_rfl
  rw [slices, List.length_map] at hcount
  have hone : 0 < frame.length := List.length_pos_of_ne_nil hframe
  generalize hpieces : calculatePackets frame.length frame.length 0 = pieces at hflat hcount
  have hne : pieces ≠ [] := List.ne_nil_of_length_pos (by omega)
  refine ⟨(packageLoop timestamp frame pieces p).1, (packageLoop timestamp frame pieces p).2, ?_, ?_, ?_, ?_, ?_, ?_, ?_⟩
  · intro fuel turns hfuel hturns
    rw [calculatePackets_of_le hfuel, hpieces]
    exact doWhile_eq_packageLoop hne (by omega)
  · simp [packageVideo, hready, hframe, hpieces]
  · rw [length_packageLoop, hcount]
  · rw [carried_packageLoop, ← hpieces]
    exact hflat
  · intro i packet' h
    obtain ⟨q, rtpBuffer, hq, he⟩ := getElem?_packageLoop h
    rw [← hpieces] at hq
    obtain ⟨hfirst, hpos, hmax⟩ := getElem?_calculatePackets hdata le_rfl hq
    have hnumber : (p.seqnum + UInt32.ofNat i).toUInt16 = p.seqnum.toUInt16 + UInt16.ofNat i := by
      rw [UInt32.toUInt16_add, UInt32.toUInt16_ofNat']
    rw [he, length_packageLoop, ← hnumber, hfirst, Nat.zero_add]
    exact isFragment_packet hpos hmax
  · rw [state_packageLoop.1, length_packageLoop, UInt32.toUInt16_add, UInt32.toUInt16_ofNat']
  · exact state_packageLoop.2.trans hready

/-- A frame of two packets, after 65535 packets of others. -/
theorem packageVideo_partition_two : ∃ packets p',
    packageVideo ⟨true, 65535, fun _ => 0⟩ (List.replicate 1100 7) 90 = (packets, p') ∧ packets.length = 2 ∧
      (packets.map carried).flatten = List.replicate 1100 7 ∧ p'.seqnum.toUInt16 = 1 := by
  have hready : (⟨true, 65535, fun _ => 0⟩ : OutputProcessor).videoPackager = true := rfl
  have hframe : List.replicate 1100 (7 : UInt8) ≠ [] := List.ne_nil_of_length_eq_add_one List.length_replicate
  obtain ⟨packets, p', -, hrun, hcount, hflat, -, hnumber, -⟩ := packageVideo_partition hready hframe 90
  rw [List.length_replicate] at hcount
  refine ⟨packets, p', hrun, hcount, hflat, ?_⟩
  rw [hnumber, hcount]
  decide

end OutputProcessor

end Sfup.Media
