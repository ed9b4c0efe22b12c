import Sfup.Media.CopiedRanges

/-! The timestamps of a recording, in `media/ExternalOutput.cpp`: they are distances from the first RTP
timestamp, in units of the stream. A timestamp below the first one has gone round, and is moved up by
2^32 - 1. -/
namespace Sfup.Media
open Sfup.Rtp

inductive AudioCodec where
  | pcmMulaw
  | opus
deriving DecidableEq, Repr

/-- What the timestamps need of `audio_stream_`: the sample rate and the denominator of the time base. -/
structure AudioStream where
  sampleRate : ℕ
  den : ℤ
deriving DecidableEq, Repr

/-- The audio packet given to `av_interleaved_write_frame`, by its place in the packet that was received. -/
structure AudioAVPacket where
  data : ℕ
  size : ℤ
  pts : ℤ
deriving DecidableEq, Repr

/-- The members of `ExternalOutput` that `writeAudioData` uses. -/
structure AudioOutput where
  lastAudioSequenceNumber : UInt16
  firstAudioTimestamp : ℤ
  audioOffsetMsec : ℤ
  audioCodec : Option AudioCodec
  audioStream : Option AudioStream

namespace AudioOutput

/-- The codec is decided by the first packet of a known type. -/
def noteCodec (o : AudioOutput) (payloadType : ℕ) : AudioOutput :=
  { o with
    audioCodec := o.audioCodec.or
      (if payloadType = 0 then some .pcmMulaw else if payloadType = 111 then some .opus else none) }

def noteTimestamp (o : AudioOutput) (timestamp : ℕ) : AudioOutput :=
  { o with firstAudioTimestamp := if o.firstAudioTimestamp = -1 then timestamp else o.firstAudioTimestamp }

/-- The stream is made once, for a known codec. `den` is what the muxer makes of its time base, if the
calls of libav succeed. -/
def initContext (o : AudioOutput) (den : Option ℤ) : AudioOutput :=
  let made := do
    let codec ← o.audioCodec
    let den ← den
    return { sampleRate := if codec = .pcmMulaw then 8000 else 48000, den }
  { o with audioStream := o.audioStream.or made }

/-- `none` is a division by zero. -/
def timestampToWrite (o : AudioOutput) (stream : AudioStream) (timestamp : ℕ) : Option ℤ :=
  let currentTimestamp : ℤ := timestamp
  let currentTimestamp :=
    if currentTimestamp - o.firstAudioTimestamp < 0 then currentTimestamp + 0xFFFFFFFF else currentTimestamp
  let unit := Int.tdiv stream.sampleRate stream.den
  let offsetUnit := Int.tdiv 1000 stream.den
  if unit = 0 ∨ offsetUnit = 0 then none
  else some ((currentTimestamp - o.firstAudioTimestamp).tdiv unit + o.audioOffsetMsec.tdiv offsetUnit)

def writeAudioData (o : AudioOutput) (buf : Mem) (len : ℤ) (den : Option ℤ) :
    Option (Option AudioAVPacket × AudioOutput) :=
  let timestamp := buf.long 4
  let o := { o with lastAudioSequenceNumber := RtpHeader.getSeqNumber buf 0 }
  let o := ((o.noteTimestamp timestamp).noteCodec (RtpHeader.getPayloadType buf 0)).initContext den
  match o.audioStream with
  | none => some (none, o)
  | some stream => do
    let pts ← o.timestampToWrite stream timestamp
    let headerLength := RtpHeader.getHeaderLength buf 0
    return (some { data := headerLength, size := len - headerLength, pts }, o)

end AudioOutput

/-! ## The distance of two timestamps -/

section Distance
variable {t₀ t : UInt32}

/-- The ticks from one timestamp to another one, modulo 2^32. -/
def elapsed (t₀ t : UInt32) : ℕ := (t - t₀).toNat

def counted (t₀ t : ℤ) : ℤ := (if t - t₀ < 0 then t + 0xFFFFFFFF else t) - t₀

theorem elapsed_eq (t₀ t : UInt32) :
    elapsed t₀ t = if t₀ ≤ t then t.toNat - t₀.toNat else t.toNat + 2 ^ 32 - t₀.toNat := by
  have h₀ := t₀.toNat_lt
  have h := t.toNat_lt
  rw [elapsed, UInt32.toNat_sub]
  by_cases hle : t₀ ≤ t
  · rw [if_pos hle]
    rw [UInt32.le_iff_toNat_le] at hle
    omega
  · rw [if_neg hle]
    rw [UInt32.le_iff_toNat_le] at hle
    omega

/-- Behind a wrap the code counts one tick too few. -/
theorem counted_eq (t₀ t : UInt32) :
    counted t₀.toNat t.toNat = ((if t₀ ≤ t then elapsed t₀ t else elapsed t₀ t - 1 : ℕ) : ℤ) := by
  have h₀ := t₀.toNat_lt
  have h := t.toNat_lt
  have he := elapsed_eq t₀ t
  rw [counted]
  by_cases hle : t₀ ≤ t
  · rw [if_pos hle] at he ⊢
    rw [UInt32.le_iff_toNat_le] at hle
    rw [if_neg (by omega), he]
    omega
  · rw [if_neg hle] at he ⊢
    rw [UInt32.le_iff_toNat_le] at hle
    rw [if_pos (by omega), he]
    omega

theorem pred_div_eq_iff {d k : ℕ} (hd : 0 < d) : (d - 1) / k = d / k ↔ ¬ k ∣ d := by
  obtain ⟨n, rfl⟩ := Nat.exists_eq_succ_of_ne_zero hd.ne'
  rw [Nat.succ_eq_add_one, Nat.add_sub_cancel, Nat.succ_div]
  split_ifs with h
  · exact iff_of_false (by omega) (not_not.mpr h)
  · exact iff_of_true rfl h

/-- A distance is written right exactly if there was no wrap or it is not a whole number of units. -/
theorem counted_tdiv_eq_iff (k : ℕ) (offset : ℤ) :
    (counted t₀.toNat t.toNat).tdiv k + offset = (elapsed t₀ t / k : ℕ) + offset ↔ t₀ ≤ t ∨ ¬ k ∣ elapsed t₀ t := by
  rw [counted_eq, add_left_inj, ← Int.ofNat_tdiv, Int.natCast_inj]
  by_cases hle : t₀ ≤ t
  · rw [if_pos hle]
    exact iff_of_true rfl (Or.inl hle)
  · have hpos : 0 < elapsed t₀ t := by
      have h₀ := t₀.toNat_lt
      rw [elapsed_eq, if_neg hle]
      omega
    rw [if_neg hle, pred_div_eq_iff hpos]
    simp [hle]

end Distance

/-! ## What is written -/

namespace ExternalOutput

/-- What a packet does to the sequence numbers does not touch the timestamps. -/
theorem checkSequence_clock (o : ExternalOutput) (n : UInt16) :
    (o.checkSequence n).firstVideoTimestamp = o.firstVideoTimestamp ∧
      (o.checkSequence n).videoOffsetMsec = o.videoOffsetMsec ∧ (o.checkSequence n).videoStream = o.videoStream := by
  unfold checkSequence
  split_ifs <;> exact ⟨rfl, rfl, rfl⟩

theorem timestampToWrite_thousand (o : ExternalOutput) (timestamp : ℕ) : o.timestampToWrite 1000 timestamp =
    (counted o.firstVideoTimestamp timestamp).tdiv 90 + o.videoOffsetMsec := by
  have hunit : Int.tdiv 1000 1000 = 1 := by decide
  rw [timestampToWrite, hunit, Int.tdiv_one]
  rfl

/-- The timestamp of a frame that is written is that of the packet which completes it. -/
theorem pts_deliverFrame {o o' : ExternalOutput} {deliver : Bool} {timestamp : ℕ} {pkt : AVPacket}
    (h : o.deliverFrame deliver timestamp = some (some pkt, o')) (hstream : o.videoStream = some 1000) :
    pkt.pts = (counted o.firstVideoTimestamp timestamp).tdiv 90 + o.videoOffsetMsec := by
  unfold deliverFrame at h
  rw [hstream] at h
  simp only [] at h
  split_ifs at h
  · obtain ⟨hpkt, -⟩ := Prod.mk.inj (Option.some.inj h)
    obtain rfl := Option.some.inj hpkt
    exact o.timestampToWrite_thousand timestamp
  · cases (Prod.mk.inj (Option.some.inj h)).1

theorem pts_writeVideoData {o o' : ExternalOutput} {fresh : RTPPayloadVP8} {buf : Mem} {len : ℕ}
    {stream : Option ℤ} {pkt : AVPacket} (h : o.writeVideoData fresh buf len stream = some (some pkt, o'))
    (hstream : (o.initContext stream).videoStream = some 1000) :
    pkt.pts = (counted (o.noteTimestamp (buf.long 4)).firstVideoTimestamp (buf.long 4)).tdiv 90 +
      o.videoOffsetMsec := by
  obtain ⟨⟨deliver, o₁⟩, hsearch, h⟩ := Option.bind_eq_some_iff.mp h
  obtain ⟨p, size, part, state, rfl⟩ := search_cases hsearch
  obtain ⟨hfirst, hoffset, hvideo⟩ := checkSequence_clock o (RtpHeader.getSeqNumber buf 0)
  have hstream' : ((o.checkSequence (RtpHeader.getSeqNumber buf 0)).noteTimestamp (buf.long 4)).videoStream.or stream =
      some 1000 := by
    rw [← hstream]
    exact congrArg (fun v => v.or stream) hvideo
  have hpts := pts_deliverFrame h hstream'
  simpa only [initContext, noteTimestamp, hfirst, hoffset] using hpts

end ExternalOutput

namespace AudioOutput

theorem timestampToWrite_thousand (o : AudioOutput) (sampleRate timestamp : ℕ) :
    o.timestampToWrite ⟨sampleRate, 1000⟩ timestamp =
      if sampleRate / 1000 = 0 then none
      else some ((counted o.firstAudioTimestamp timestamp).tdiv (sampleRate / 1000 : ℕ) + o.audioOffsetMsec) := by
  have hunit : Int.tdiv 1000 1000 = 1 := by decide
  have hrate : Int.tdiv (sampleRate : ℤ) 1000 = (sampleRate / 1000 : ℕ) := by
    rw [Int.natCast_ediv]
    exact Int.tdiv_eq_ediv_of_nonneg (Int.natCast_nonneg sampleRate)
  simp only [timestampToWrite, hunit, hrate, Int.tdiv_one, Int.natCast_eq_zero, one_ne_zero, or_false, counted]

theorem writeAudioData_eq (o : AudioOutput) {buf : Mem} (len : ℤ) {den : Option ℤ} {sampleRate : ℕ}
    (hstream : ((o.noteCodec (RtpHeader.getPayloadType buf 0)).initContext den).audioStream =
      some ⟨sampleRate, 1000⟩) :
    (o.writeAudioData buf len den).map (fun r => r.1.map AudioAVPacket.pts) =
      if sampleRate / 1000 = 0 then none
      else some (some ((counted (o.noteTimestamp (buf.long 4)).firstAudioTimestamp (buf.long 4)).tdiv
        (sampleRate / 1000 : ℕ) + o.audioOffsetMsec)) := by
  have hmade : (((({ o with lastAudioSequenceNumber := RtpHeader.getSeqNumber buf 0 } : AudioOutput).noteTimestamp
      (buf.long 4)).noteCodec (RtpHeader.getPayloadType buf 0)).initContext den).audioStream =
      some ⟨sampleRate, 1000⟩ := hstream
  simp only [writeAudioData]
  rw [hmade]
  simp only [timestampToWrite_thousand]
  split_ifs <;> rfl

end AudioOutput

/-- The timestamps of a recording with the time base 1/1000. They are the ticks since the first timestamp,
modulo 2^32, in whole units, exactly if the RTP clock has not gone round or is between two units. A sample
rate below 1000 would be a division by zero. -/
theorem recordedTimestamps_iff (t₀ t : UInt32) :
    (∀ (o o' : ExternalOutput) fresh buf len stream pkt, buf.long 4 = t.toNat →
      (o.noteTimestamp t.toNat).firstVideoTimestamp = t₀.toNat → (o.initContext stream).videoStream = some 1000 →
      o.writeVideoData fresh buf len stream = some (some pkt, o') →
        (pkt.pts = (elapsed t₀ t / 90 : ℕ) + o.videoOffsetMsec ↔ t₀ ≤ t ∨ ¬ 90 ∣ elapsed t₀ t)) ∧
    ∀ (o : AudioOutput) buf len den sampleRate, buf.long 4 = t.toNat →
      (o.noteTimestamp t.toNat).firstAudioTimestamp = t₀.toNat →
      ((o.noteCodec (RtpHeader.getPayloadType buf 0)).initContext den).audioStream = some ⟨sampleRate, 1000⟩ →
        ((∃ pkt o', o.writeAudioData buf len den = some (some pkt, o') ∧
            pkt.pts = (elapsed t₀ t / (sampleRate / 1000) : ℕ) + o.audioOffsetMsec) ↔
          1000 ≤ sampleRate ∧ (t₀ ≤ t ∨ ¬ sampleRate / 1000 ∣ elapsed t₀ t)) := by
  constructor
  · intro o o' fresh buf len stream pkt ht hfirst hstream h
    have hpts := ExternalOutput.pts_writeVideoData h hstream
    rw [ht, hfirst] at hpts
    rw [hpts]
    exact counted_tdiv_eq_iff 90 o.videoOffsetMsec
  · intro o buf len den sampleRate ht hfirst hstream
    have hwrite := o.writeAudioData_eq len hstream
    rw [ht, hfirst] at hwrite
    constructor
    · rintro ⟨pkt, o', h, hpts⟩
      rw [h] at hwrite
      split_ifs at hwrite with hrate
      · cases hwrite
      · have he : pkt.pts = _ := Option.some.inj (Option.some.inj hwrite)
        rw [hpts] at he
        exact ⟨by omega, (counted_tdiv_eq_iff (sampleRate / 1000) o.audioOffsetMsec).mp he.symm⟩
    · rintro ⟨hrate, hcond⟩
      rw [if_neg (by omega)] at hwrite
      obtain ⟨⟨r, o'⟩, h, hr⟩ := Option.map_eq_some_iff.mp hwrite
      obtain ⟨pkt, rfl, hpts⟩ := Option.map_eq_some_iff.mp hr
      refine ⟨pkt, o', h, hpts.trans ?_⟩
      exact (counted_tdiv_eq_iff (sampleRate / 1000) o.audioOffsetMsec).mpr hcond

/-- A recording of 1/1000, without an offset. -/
def recorder (firstVideoTimestamp : ℤ) : ExternalOutput :=
  { ExternalOutput.new (fun _ => 0) 0 with firstVideoTimestamp, videoOffsetMsec := 0, videoStream := some 1000 }

def audioRecorder (firstAudioTimestamp : ℤ) (sampleRate : ℕ) : AudioOutput :=
  ⟨0, firstAudioTimestamp, 0, some .opus, some ⟨sampleRate, 1000⟩⟩

/-- Timestamps 89 video ticks and 47 audio ticks apart, with the wrap in between. -/
theorem recordedTimestamps_wrap :
    (∃ pkt o', (recorder 4294967207).writeVideoData .zero (vp8Packet 1 true 0x10 0) 14 none = some (some pkt, o') ∧
      pkt.pts = 0) ∧
    ∃ pkt o', (audioRecorder 4294967249 48000).writeAudioData (vp8Packet 1 true 0x10 0) 14 none = some (some pkt, o') ∧
      pkt.pts = 0 := by
  have hvideo : ((recorder 4294967207).writeVideoData .zero (vp8Packet 1 true 0x10 0) 14 none).any
      (fun r => r.1.isSome) = true := by decide
  obtain ⟨⟨r, o'⟩, h, hr⟩ := (Option.any_eq_true _ _).mp hvideo
  obtain ⟨pkt, rfl⟩ := Option.isSome_iff_exists.mp hr
  have hv := (recordedTimestamps_iff 4294967207 0).1 (recorder 4294967207) o' .zero (vp8Packet 1 true 0x10 0) 14 none
    pkt (by decide) (by decide) rfl h
  have ha := (recordedTimestamps_iff 4294967249 0).2 (audioRecorder 4294967249 48000) (vp8Packet 1 true 0x10 0) 14 none
    48000 (by decide) (by decide) rfl
  exact ⟨⟨pkt, o', h, hv.mpr (by decide)⟩, ha.mpr (by decide)⟩

/-- One unit after the first timestamp, the clock having gone round in between, nothing is counted. -/
theorem not_recordedTimestamps :
    ((recorder 4294967206).writeVideoData .zero (vp8Packet 1 true 0x10 0) 14 none).map
        (fun r => r.1.map AVPacket.pts) = some (some 0) ∧ elapsed 4294967206 0 / 90 = 1 ∧
      ((audioRecorder 4294967248 48000).writeAudioData (vp8Packet 1 true 0x10 0) 14 none).map
        (fun r => r.1.map AudioAVPacket.pts) = some (some 0) ∧ elapsed 4294967248 0 / (48000 / 1000) = 1 := by
  decide

end Sfup.Media
