import Sfup.Rtp.Records
import Sfup.Rtp.BitRates

/-! The compounds that are sent: headers that are copied one behind the other, and what a walk over the packet
reads of them. -/
namespace Sfup.Rtp.RtcpAggregator
open RtcpProcessor (rtcpLength)

section Append
variable {h m : Mem} {p i : ℕ}

private theorem append_below (hi : i < p) : (append h m p).1 i = m i := Mem.copy_of_lt hi

private theorem append_get (hi : i < rtcpLength h 0) : (append h m p).1 (p + i) = h i := Mem.copy_bytes hi

/-- The headers stand in the memory from `p` on, one behind the other. -/
def Holds (m : Mem) : ℕ → List Mem → Prop
  | _, [] => True
  | p, h :: hs => (∀ i < rtcpLength h 0, m (p + i) = h i) ∧ Holds m (p + rtcpLength h 0) hs

/-- Where the headers start, if the first one starts at `p`. -/
def starts : ℕ → List Mem → List ℕ
  | _, [] => []
  | p, h :: hs => p :: starts (p + rtcpLength h 0) hs

def totalLength (hs : List Mem) : ℕ := (hs.map (rtcpLength · 0)).sum

def compound (hs : List Mem) : Mem × ℕ := hs.foldl (fun q h => append h q.1 q.2) (fun _ => 0, 0)

variable {hs : List Mem}

private theorem holds_append {k : Mem} (h : Holds m p hs) :
    Holds (append k m (p + totalLength hs)).1 p (hs ++ [k]) := by
  induction hs generalizing p with
  | nil =>
    refine ⟨?_, trivial⟩
    intro i hi
    exact append_get hi
  | cons k' hs ih =>
    have hlen : p + totalLength (k' :: hs) = p + rtcpLength k' 0 + totalLength hs := by
      simp only [totalLength, List.map_cons, List.sum_cons]
      omega
    rw [hlen]
    refine ⟨?_, ih h.2⟩
    intro i hi
    rw [append_below (by omega), h.1 i hi]

theorem compound_concat (hs : List Mem) (k : Mem) : compound (hs ++ [k]) = append k (compound hs).1 (compound hs).2 := by
  rw [compound, List.foldl_append]
  rfl

theorem compound_spec (hs : List Mem) : Holds (compound hs).1 0 hs ∧ (compound hs).2 = totalLength hs := by
  induction hs using List.reverseRecOn with
  | nil => exact ⟨trivial, rfl⟩
  | append_singleton hs k ih =>
    obtain ⟨hholds, hlen⟩ := ih
    rw [compound_concat, hlen]
    constructor
    · simpa using holds_append (k := k) hholds
    · simp [append, totalLength]

theorem rtcpLength_of_copy (hcopy : ∀ i < rtcpLength h 0, m (p + i) = h i) : rtcpLength m p = rtcpLength h 0 := by
  have hpos : 4 ≤ rtcpLength h 0 := by
    unfold rtcpLength
    omega
  have hword : m.word (p + 2) = h.word (0 + 2) :=
    Mem.word_congr (m := m.drop p) (hcopy 2 (by omega)) (hcopy 3 (by omega))
  rw [rtcpLength, RtcpHeader.getLength, hword]
  rfl

/-- A walk over the packet meets the headers. -/
theorem blocks_of_holds {k : Mem} {len fuel : ℕ} (h : Holds m p (k :: hs)) (hlen : len = p + totalLength (k :: hs))
    (hfuel : hs.length ≤ fuel) : Walk.blocks rtcpLength m len (fuel + 1) p = starts p (k :: hs) := by
  induction hs generalizing p k fuel with
  | nil =>
    rw [Walk.blocks, rtcpLength_of_copy h.1, if_neg (by simp [hlen, totalLength])]
    rfl
  | cons k' hs ih =>
    obtain ⟨fuel, rfl⟩ : ∃ n, fuel = n + 1 := ⟨fuel - 1, by rw [List.length_cons] at hfuel; omega⟩
    have hpos := RtcpProcessor.rtcpLength_pos k' 0
    have hlt : p + rtcpLength k 0 < len := by
      simp only [hlen, totalLength, List.map_cons, List.sum_cons]
      omega
    rw [Walk.blocks, rtcpLength_of_copy h.1, if_pos hlt, starts]
    congr 1
    apply ih h.2
    · simp only [hlen, totalLength, List.map_cons, List.sum_cons]
      omega
    · rw [List.length_cons] at hfuel
      omega

theorem exists_of_mem_starts {q : ℕ} (h : Holds m p hs) (hq : q ∈ starts p hs) :
    ∃ k ∈ hs, ∀ i < rtcpLength k 0, m (q + i) = k i := by
  induction hs generalizing p with
  | nil => cases hq
  | cons k hs ih =>
    rcases List.mem_cons.mp hq with rfl | hq
    · exact ⟨k, List.mem_cons_self, h.1⟩
    · obtain ⟨k', hk', hcopy⟩ := ih h.2 hq
      exact ⟨k', List.mem_cons_of_mem k hk', hcopy⟩

theorem exists_start_of_mem {k : Mem} (h : Holds m p hs) (hk : k ∈ hs) :
    ∃ q ∈ starts p hs, ∀ i < rtcpLength k 0, m (q + i) = k i := by
  induction hs generalizing p with
  | nil => cases hk
  | cons k' hs ih =>
    rcases List.mem_cons.mp hk with rfl | hk
    · exact ⟨p, List.mem_cons_self, h.1⟩
    · obtain ⟨q, hq, hcopy⟩ := ih h.2 hk
      exact ⟨q, List.mem_cons_of_mem p hq, hcopy⟩

private theorem length_le_totalLength (hs : List Mem) : hs.length ≤ totalLength hs := by
  induction hs with
  | nil => exact le_rfl
  | cons k hs ih =>
    have hpos := RtcpProcessor.rtcpLength_pos k 0
    simp only [totalLength, List.map_cons, List.sum_cons, List.length_cons] at ih ⊢
    omega

theorem blocks_compound {k : Mem} (hs : List Mem) :
    Walk.blocks rtcpLength (compound (k :: hs)).1 (compound (k :: hs)).2 ((compound (k :: hs)).2 + 1) 0 =
      starts 0 (k :: hs) := by
  obtain ⟨hholds, hlen⟩ := compound_spec (k :: hs)
  have hle := length_le_totalLength (k :: hs)
  rw [List.length_cons] at hle
  exact blocks_of_holds hholds (by omega) (by omega)

end Append

/-! ## The headers -/

section Headers
variable {i : ℕ}

theorem header_type (packettype blockcount length sinkSsrc sourceSsrc : ℕ) :
    header packettype blockcount length sinkSsrc sourceSsrc 1 = UInt8.ofNat packettype := by
  simp [header, RtcpHeader.setLength, RtcpHeader.setSourceSSRC, RtcpHeader.setSSRC, RtcpHeader.setBlockCount,
    RtcpHeader.setPacketType, Mem.setLong, Mem.setWord]

theorem header_count (packettype length sinkSsrc sourceSsrc : ℕ) {blockcount : ℕ} (hb : blockcount < 32) :
    RtcpHeader.getBlockCount (header packettype blockcount length sinkSsrc sourceSsrc) 0 = blockcount := by
  have hbyte : header packettype blockcount length sinkSsrc sourceSsrc 0 = UInt8.ofNat (128 + blockcount % 32) := by
    simp [header, RtcpHeader.setLength, RtcpHeader.setSourceSSRC, RtcpHeader.setSSRC, RtcpHeader.setBlockCount,
      RtcpHeader.setPacketType, RtcpHeader.new, Mem.setLong, Mem.setWord]
  rw [RtcpHeader.getBlockCount, RtcpHeader.blockcount, hbyte, UInt8.toNat_ofNat']
  omega

theorem header_length (packettype blockcount sinkSsrc sourceSsrc length : ℕ) (hl : length < 65536) :
    RtcpHeader.getLength (header packettype blockcount length sinkSsrc sourceSsrc) 0 = length := by
  simp only [header, RtcpHeader.setLength, RtcpHeader.getLength]
  rw [Mem.word_setWord, UInt16.toNat_ofNat', Nat.mod_eq_of_lt hl]

theorem header_source (packettype blockcount length sinkSsrc : ℕ) {sourceSsrc : ℕ} (hs : sourceSsrc < 2 ^ 32) :
    RtcpHeader.getSourceSSRC (header packettype blockcount length sinkSsrc sourceSsrc) 0 = sourceSsrc := by
  simp only [header, RtcpHeader.setLength, RtcpHeader.getSourceSSRC, RtcpHeader.setSourceSSRC]
  rw [Mem.long_setWord_of_disjoint (by omega), Mem.long_setLong, UInt32.toNat_ofNat', Nat.mod_eq_of_lt hs]

/-- The header of a NACK, as it is copied into the packet. -/
def nackHeader (seqNum blp : UInt16) (sourceSsrc sinkSsrc : ℕ) : Mem :=
  RtcpHeader.setNackBlp (RtcpHeader.setNackPid (header 205 1 3 sinkSsrc sourceSsrc) 0 seqNum) 0 blp

theorem nackHeader_of_lt {seqNum blp : UInt16} {sourceSsrc sinkSsrc : ℕ} (hi : i < 12) :
    nackHeader seqNum blp sourceSsrc sinkSsrc i = header 205 1 3 sinkSsrc sourceSsrc i := by
  simp only [nackHeader, RtcpHeader.setNackBlp, RtcpHeader.setNackPid]
  rw [Function.update_of_ne (by omega), Function.update_of_ne (by omega), Mem.setWord_of_ne (by omega) (by omega)]

theorem rtcpLength_nackHeader (seqNum blp : UInt16) (sourceSsrc sinkSsrc : ℕ) :
    rtcpLength (nackHeader seqNum blp sourceSsrc sinkSsrc) 0 = 16 := by
  have hlen := header_length 205 1 sinkSsrc sourceSsrc 3 (by omega)
  unfold RtcpHeader.getLength at hlen
  unfold rtcpLength RtcpHeader.getLength
  rw [Mem.word_congr (nackHeader_of_lt (by omega)) (nackHeader_of_lt (by omega)), hlen]

theorem getNackPid_nackHeader (seqNum blp : UInt16) (sourceSsrc sinkSsrc : ℕ) :
    RtcpHeader.getNackPid (nackHeader seqNum blp sourceSsrc sinkSsrc) 0 = seqNum := by
  have hword : (nackHeader seqNum blp sourceSsrc sinkSsrc).word 12 =
      (Mem.setWord (header 205 1 3 sinkSsrc sourceSsrc) 12 seqNum).word 12 := by
    apply Mem.word_congr
    · simp [nackHeader, RtcpHeader.setNackBlp, RtcpHeader.setNackPid]
    · simp [nackHeader, RtcpHeader.setNackBlp, RtcpHeader.setNackPid]
  exact hword.trans Mem.word_setWord

theorem getNackBlp_nackHeader (seqNum blp : UInt16) (sourceSsrc sinkSsrc : ℕ) :
    RtcpHeader.getNackBlp (nackHeader seqNum blp sourceSsrc sinkSsrc) 0 = blp := by
  apply UInt16.toNat_inj.mp
  have hb := blp.toNat_lt
  simp only [RtcpHeader.getNackBlp, nackHeader, RtcpHeader.setNackBlp, Nat.zero_add, Function.update_self,
    Function.update_of_ne (show (14 : ℕ) ≠ 15 by decide), UInt16.toNat_ofNat', UInt8.toNat_ofNat']
  omega

theorem receiverReport_of_lt {e : Endpoints} {audio : Bool} {now : Timeval} {d : RtcpData} {ratio : UInt32} (hi : i < 12) :
    receiverReport e audio now d ratio i = header 201 1 7 (if audio then e.audioSinkSSRC else e.videoSinkSSRC)
      (if audio then e.audioSourceSSRC else e.videoSourceSSRC) i := by
  simp only [receiverReport, RtcpHeader.setDelaySinceLastSr, RtcpHeader.setLastSr, RtcpHeader.setJitter,
    RtcpHeader.setLostPackets, RtcpHeader.setTriple, RtcpHeader.setSeqnumCycles, RtcpHeader.setHighestSeqnum,
    RtcpHeader.setFractionLost]
  rw [Mem.setLong_of_lt (by omega), Mem.setLong_of_lt (by omega), Mem.setLong_of_lt (by omega),
    Function.update_of_ne (by omega), Function.update_of_ne (by omega), Function.update_of_ne (by omega),
    Mem.setWord_of_ne (by omega) (by omega), Mem.setWord_of_ne (by omega) (by omega),
    Function.update_of_ne (by omega)]

theorem rtcpLength_receiverReport (e : Endpoints) (audio : Bool) (now : Timeval) (d : RtcpData) (ratio : UInt32) :
    rtcpLength (receiverReport e audio now d ratio) 0 = 32 := by
  have hlen := header_length 201 1 (if audio then e.audioSinkSSRC else e.videoSinkSSRC)
    (if audio then e.audioSourceSSRC else e.videoSourceSSRC) 7 (by omega)
  unfold RtcpHeader.getLength at hlen
  unfold rtcpLength RtcpHeader.getLength
  rw [Mem.word_congr (receiverReport_of_lt (by omega)) (receiverReport_of_lt (by omega)), hlen]

def rembHeader (e : Endpoints) (bitrate : ℕ) : Mem :=
  RtcpHeader.setREMBFeedSSRC (RtcpHeader.setREMBNumSSRC (RtcpHeader.setREMBBitRate
    (RtcpHeader.setUniqueId (header 206 15 5 e.videoSinkSSRC e.videoSourceSSRC) 0) 0 (bitrate % 2 ^ 32)) 0 1) 0
    e.videoSourceSSRC

private theorem rembHeader_of_lt {e : Endpoints} {bitrate : ℕ} (hi : i < 12) :
    rembHeader e bitrate i = header 206 15 5 e.videoSinkSSRC e.videoSourceSSRC i := by
  simp only [rembHeader, RtcpHeader.setREMBFeedSSRC, RtcpHeader.setREMBNumSSRC]
  rw [Mem.setLong_of_lt (by omega), Function.update_of_ne (by omega), RtcpHeader.setREMBBitRate_of_ne (by omega),
    RtcpHeader.setUniqueId, if_neg (by omega), if_neg (by omega), if_neg (by omega), if_neg (by omega)]

theorem rtcpLength_rembHeader (e : Endpoints) (bitrate : ℕ) : rtcpLength (rembHeader e bitrate) 0 = 24 := by
  have hlen := header_length 206 15 e.videoSinkSSRC e.videoSourceSSRC 5 (by omega)
  unfold RtcpHeader.getLength at hlen
  unfold rtcpLength RtcpHeader.getLength
  rw [Mem.word_congr (rembHeader_of_lt (by omega)) (rembHeader_of_lt (by omega)), hlen]

theorem rembHeader_bitrate (e : Endpoints) (bitrate : ℕ) : ∃ exp,
    RtcpHeader.getBrExp (rembHeader e bitrate) 0 = exp % 64 ∧
      RtcpHeader.getBrMantis (rembHeader e bitrate) 0 = bitrate % 2 ^ 32 / 2 ^ exp % 2 ^ 18 := by
  have hbytes : ∀ i, 0 + 17 ≤ i → i < 0 + 20 → rembHeader e bitrate i = RtcpHeader.setREMBBitRate
      (RtcpHeader.setUniqueId (header 206 15 5 e.videoSinkSSRC e.videoSourceSSRC) 0) 0 (bitrate % 2 ^ 32) i := by
    intro i hlo hhi
    simp only [rembHeader, RtcpHeader.setREMBFeedSSRC, RtcpHeader.setREMBNumSSRC]
    rw [Mem.setLong_of_lt (by omega), Function.update_of_ne (by omega)]
  refine ⟨RtcpHeader.rembExp (bitrate % 2 ^ 32) 64 0x3FFFF, ?_, ?_⟩
  · rw [RtcpHeader.getBrExp_congr hbytes, RtcpHeader.getBrExp_setREMBBitRate]
  · rw [RtcpHeader.getBrMantis_congr hbytes, RtcpHeader.getBrMantis_setREMBBitRate]

theorem announced_rembHeader_le (e : Endpoints) (bitrate : ℕ) :
    RtcpHeader.getBrMantis (rembHeader e bitrate) 0 * 2 ^ RtcpHeader.getBrExp (rembHeader e bitrate) 0 ≤ bitrate := by
  obtain ⟨exp, hexp, hmantis⟩ := rembHeader_bitrate e bitrate
  rw [hexp, hmantis]
  calc
    bitrate % 2 ^ 32 / 2 ^ exp % 2 ^ 18 * 2 ^ (exp % 64) ≤ bitrate % 2 ^ 32 / 2 ^ exp * 2 ^ exp :=
      Nat.mul_le_mul (Nat.mod_le _ _) (Nat.pow_le_pow_right (by omega) (Nat.mod_le _ _))
    _ ≤ bitrate % 2 ^ 32 := Nat.div_mul_le_self _ _
    _ ≤ bitrate := Nat.mod_le _ _

section Report
variable (e : Endpoints) (now : Timeval) (sourceSsrc sinkSsrc : ℕ) (d : RtcpData) (hs : List Mem)

def nackHeaders : List Mem :=
  if d.shouldSendNACK then [nackHeader d.nackSeqnum d.nackBlp sourceSsrc sinkSsrc] else []

def rembHeaders : List Mem :=
  if d.mediaType = .videoType ∧ (d.shouldSendREMB ∨ 1000 < now.since d.lastREMBSent) then
    [rembHeader e d.reportedBandwidth] else []

variable {sourceSsrc sinkSsrc d} in
theorem eq_of_mem_nackHeaders {k : Mem} (h : k ∈ nackHeaders sourceSsrc sinkSsrc d) :
    k = nackHeader d.nackSeqnum d.nackBlp sourceSsrc sinkSsrc := by
  unfold nackHeaders at h
  split_ifs at h
  · exact List.mem_singleton.mp h
  · cases h

variable {e now d} in
theorem eq_of_mem_rembHeaders {k : Mem} (h : k ∈ rembHeaders e now d) : k = rembHeader e d.reportedBandwidth := by
  unfold rembHeaders at h
  split_ifs at h
  · exact List.mem_singleton.mp h
  · cases h

private theorem flushNack_compound : (flushNack sourceSsrc sinkSsrc d (compound hs)).2 =
    compound (hs ++ nackHeaders sourceSsrc sinkSsrc d) := by
  unfold flushNack nackHeaders
  split_ifs
  · rw [compound_concat]
    rfl
  · rw [List.append_nil]

private theorem flushRemb_compound : (flushRemb e now d (compound hs)).2 = compound (hs ++ rembHeaders e now d) := by
  unfold flushRemb rembHeaders
  split_ifs
  · rw [compound_concat]
    rfl
  · rw [List.append_nil]

private theorem rembHeaders_flushNack (packet : Mem × ℕ) :
    rembHeaders e now (flushNack sourceSsrc sinkSsrc d packet).1 = rembHeaders e now d := by
  unfold flushNack
  split_ifs <;> rfl

end Report

def reportHeaders (e : Endpoints) (now : Timeval) (sourceSsrc : ℕ) (ratio : UInt32) (d : RtcpData) : List Mem :=
  receiverReport e (decide (sourceSsrc = e.audioSourceSSRC)) now d ratio ::
    (nackHeaders sourceSsrc (if decide (sourceSsrc = e.audioSourceSSRC) then e.audioSinkSSRC else e.videoSinkSSRC) d ++
      rembHeaders e now d)

theorem report_eq_compound (e : Endpoints) (bw : ℕ) (now : Timeval) (next : UInt32) (sourceSsrc : ℕ) (ratio : UInt32)
    (d : RtcpData) :
    (report e bw now next sourceSsrc ratio d).1 = ⟨decide (sourceSsrc = e.videoSourceSSRC),
      (compound (reportHeaders e now sourceSsrc ratio d)).1, (compound (reportHeaders e now sourceSsrc ratio d)).2⟩ := by
  have hrr : append (receiverReport e (decide (sourceSsrc = e.audioSourceSSRC)) now d ratio) (fun _ => 0) 0 =
      compound [receiverReport e (decide (sourceSsrc = e.audioSourceSSRC)) now d ratio] := rfl
  simp only [report, hrr]
  rw [flushNack_compound, flushRemb_compound, rembHeaders_flushNack]
  simp only [reportHeaders, List.cons_append, List.nil_append]
  rfl

end Headers
end Sfup.Rtp.RtcpAggregator
