import Sfup.Rtp.RtcpProcessor

/-! The RTCP aggregator: feedback of the subscribers is collected per source in `analyzeFeedback`, and reports
go to the publisher from `checkRtcpFb`. -/
namespace Sfup.Rtp
open Sfup.Sdp (MediaType)
open RtcpProcessor (Sources rtcpLength)

structure RtcpAggregator where
  rtcpData : Sources
  /-- The constructor of the base class does not set it. -/
  maxVideoBw : ℕ
  defaultVideoBw : ℕ

namespace RtcpAggregator

def new (uninitialized maxVideoBw : ℕ) : RtcpAggregator := ⟨.empty, uninitialized, maxVideoBw / 2⟩

def addSourceSsrc (c : Call) (ssrc : ℕ) (a : RtcpAggregator) : RtcpAggregator :=
  { a with rtcpData := RtcpProcessor.addSourceSsrc c ssrc a.rtcpData }

def setMaxVideoBW (bandwidth : ℕ) (a : RtcpAggregator) : RtcpAggregator := { a with maxVideoBw := bandwidth }

/-- The product with 1.2 is rounded to the nearest double, and then down. -/
def setPublisherBW (bandwidth : ℕ) (a : RtcpAggregator) : RtcpAggregator :=
  { a with defaultVideoBw := if a.maxVideoBw * 5 < bandwidth * 6 then a.maxVideoBw else bandwidth * 6 / 5 }

def analyzeSr (c : Call) (m : Mem) (chead : ℕ) (a : RtcpAggregator) : RtcpAggregator :=
  { a with rtcpData := RtcpProcessor.analyzeSr c m chead a.rtcpData }

/-! ## Feedback of a subscriber -/

/-- The variables of the loop over a compound. `unacked` holds the numbers that were new in `nackedPackets`,
which the code logs. -/
structure Analysis where
  theData : RtcpData
  delay : UInt32
  unacked : List ℕ := []

/-- The delay of the last sender report that the block answers, or the value that was there before. -/
def reportDelay (now : Timeval) (lastSr dlsr : UInt32) (reports : List SrData) (delay : UInt32) : UInt32 :=
  reports.foldl (fun delay it =>
    if it.srNtp = lastSr then UInt32.ofInt (now.ms - it.timestamp.ms) - dlsr * 1000 / 65536 else delay) delay

def recordSeqNo (cycles highest : UInt16) (d : RtcpData) : RtcpData :=
  let extendedSeqNo := (cycles.toUInt32 <<< 16) + highest.toUInt32
  if extendedSeqNo > d.extendedSeqNo then
    { d with extendedSeqNo, highestSeqNumReceived := highest, seqNumCycles := cycles }
  else d

def recordDelay (now : Timeval) (lastSr dlsr delay : UInt32) (d : RtcpData) : RtcpData :=
  if d.lastSr = 0 ∨ d.lastDelay < delay then
    { d with lastSr, delaySinceLastSr := dlsr, lastSrUpdated := now, lastDelay := delay }
  else d

def analyzeReceiver (now : Timeval) (m : Mem) (chead : ℕ) (s : Analysis) : Analysis :=
  let d := s.theData
  let fractionLost := RtcpHeader.getFractionLost m chead
  let lostPackets := RtcpHeader.getLostPackets m chead
  let jitter := RtcpHeader.getJitter m chead
  let lastSr := RtcpHeader.getLastSr m chead
  let dlsr := RtcpHeader.getDelaySinceLastSr m chead
  let d := { d with
    rrsReceivedInPeriod := d.rrsReceivedInPeriod + 1
    ratioLost := if d.ratioLost > fractionLost then d.ratioLost else fractionLost
    totalPacketsLost := if d.totalPacketsLost > lostPackets then d.totalPacketsLost else lostPackets
    jitter := if d.jitter > jitter then d.jitter else jitter }
  let d := recordSeqNo (RtcpHeader.getSeqnumCycles m chead) (RtcpHeader.getHighestSeqnum m chead) d
  let delay := reportDelay now lastSr dlsr d.senderReports s.delay
  { s with theData := recordDelay now lastSr dlsr delay d, delay }

/-- Numbers are dropped from the front of the set while it holds 50 or more. -/
def trim : ℕ → Finset ℕ → Finset ℕ
  | 0, packets => packets
  | turns + 1, packets =>
    if h : 50 ≤ packets.card then
      trim turns (packets.erase (packets.min' (Finset.card_pos.mp (by omega))))
    else packets

def insertNack (n : ℕ) (s : Finset ℕ × List ℕ) : Finset ℕ × List ℕ :=
  if n ∈ s.1 then s else (insert n s.1, s.2 ++ [n])

/-- The bits that are set stand for the numbers behind `pid`, without a carry at 2^16. -/
def blpNumbers (pid blp : UInt16) : List ℕ :=
  ((List.range 16).filter fun i => blp.toNat.testBit i).map fun i => pid.toNat + 1 + i

def insertNacks (pid blp : UInt16) (packets : Finset ℕ) : Finset ℕ × List ℕ :=
  let s := if pid.toNat ∈ packets then (trim packets.card packets, []) else insertNack pid.toNat (packets, [])
  (blpNumbers pid blp).foldl (fun s n => insertNack n s) s

def analyzeNack (m : Mem) (chead : ℕ) (s : Analysis) : Analysis :=
  let pid := RtcpHeader.getNackPid m chead
  let blp := RtcpHeader.getNackBlp m chead
  let (nackedPackets, unacked) := insertNacks pid blp s.theData.nackedPackets
  let d := { s.theData with nackedPackets, shouldSendNACK := !unacked.isEmpty }
  { s with
    theData := if d.shouldSendNACK then { d with nackSeqnum := pid, nackBlp := blp, requestRr := true } else d
    unacked := s.unacked ++ unacked }

def analyzeAfb (defaultVideoBw : ℕ) (m : Mem) (chead : ℕ) (s : Analysis) : Analysis :=
  if RtcpHeader.isREMB m chead then
    let bitrate := RtcpHeader.bitrate m chead
    { s with theData :=
        if bitrate < defaultVideoBw then { s.theData with reportedBandwidth := bitrate, shouldSendREMB := true }
        else { s.theData with reportedBandwidth := defaultVideoBw } }
  else s

def analyzePart (defaultVideoBw : ℕ) (now : Timeval) (s : Analysis) (m : Mem) (chead : ℕ) : Analysis :=
  if RtcpHeader.packettype m chead = 201 then analyzeReceiver now m chead s
  else if RtcpHeader.packettype m chead = 205 then analyzeNack m chead s
  else if RtcpHeader.packettype m chead = 206 then
    if RtcpHeader.getBlockCount m chead = 1 then { s with theData := { s.theData with shouldSendPli := true } }
    else if RtcpHeader.getBlockCount m chead = 15 then analyzeAfb defaultVideoBw m chead s
    else s
  else s

def analyzeLoop (defaultVideoBw : ℕ) (now : Timeval) (len : ℕ) (s : Analysis) (m : Mem) : Analysis :=
  (Walk.loop rtcpLength (fun s m p => (analyzePart defaultVideoBw now s m p, m)) len (len + 1) s m 0).1

/-- All packets of a compound count for the source of its first one. The numbers are the new ones of all
its NACKs. -/
def analyzeFeedback (c : Call) (buf : Mem) (len : ℕ) (a : RtcpAggregator) : List ℕ × RtcpAggregator :=
  if RtcpProcessor.analyzes buf len then
    let sourceSsrc := RtcpHeader.getSourceSSRC buf 0
    let rtcpData := RtcpProcessor.addSourceSsrc c sourceSsrc a.rtcpData
    let s := analyzeLoop a.defaultVideoBw c.now len ⟨RtcpProcessor.data c sourceSsrc rtcpData, c.delay, []⟩ buf
    (s.unacked, { a with rtcpData := rtcpData.set sourceSsrc s.theData })
  else ([], a)

/-! ## Reports to the publisher -/

/-- A packet for the sink. -/
structure Delivery where
  video : Bool
  packet : Mem
  length : ℕ

def header (packettype blockcount length sinkSsrc sourceSsrc : ℕ) : Mem :=
  let h := RtcpHeader.setPacketType (RtcpHeader.new fun _ => 0) 0 packettype
  let h := RtcpHeader.setBlockCount h 0 blockcount
  let h := RtcpHeader.setSSRC h 0 sinkSsrc
  let h := RtcpHeader.setSourceSSRC h 0 sourceSsrc
  RtcpHeader.setLength h 0 length

/-- The header is copied behind the first `len` bytes of the packet. -/
def append (h : Mem) (packet : Mem) (len : ℕ) : Mem × ℕ :=
  (packet.copy len (h.bytes 0 (rtcpLength h 0)), len + rtcpLength h 0)

def addREMB (e : Endpoints) (buf : Mem) (len bitrate : ℕ) : Mem × ℕ :=
  let theREMB := header 206 15 5 e.videoSinkSSRC e.videoSourceSSRC
  let theREMB := RtcpHeader.setUniqueId theREMB 0
  let theREMB := RtcpHeader.setREMBBitRate theREMB 0 (bitrate % 2 ^ 32)
  let theREMB := RtcpHeader.setREMBNumSSRC theREMB 0 1
  append (RtcpHeader.setREMBFeedSSRC theREMB 0 e.videoSourceSSRC) buf len

def addNACK (buf : Mem) (len : ℕ) (seqNum blp : UInt16) (sourceSsrc sinkSsrc : ℕ) : Mem × ℕ :=
  let theNACK := header 205 1 3 sinkSsrc sourceSsrc
  let theNACK := RtcpHeader.setNackPid theNACK 0 seqNum
  append (RtcpHeader.setNackBlp theNACK 0 blp) buf len

/-- The product with 0.6 is rounded to the nearest double, and then down. -/
def resetData (data : RtcpData) (bandwidth : ℕ) : RtcpData :=
  { data with
    ratioLost := 0
    requestRr := false
    shouldReset := false
    jitter := 0
    rrsReceivedInPeriod := 0
    reportedBandwidth := if bandwidth < data.reportedBandwidth then bandwidth else data.reportedBandwidth
    lastDelay := UInt32.ofNat (data.lastDelay.toNat * 3 / 5) }

def due (d : RtcpData) (now : Timeval) : Bool :=
  (d.requestRr || decide (d.nextPacketInMs ≤ now.since d.lastRrSent) || d.shouldSendREMB) && decide (0 < d.lastSr)

/-- The receiver report. The quotient of whole numbers is taken; a conversion of 256 or more to the byte of
the field keeps the low bits. -/
def receiverReport (e : Endpoints) (audio : Bool) (now : Timeval) (d : RtcpData) (ratio : UInt32) : Mem :=
  let edlsr := now.since d.lastSrUpdated
  let h := header 201 1 7 (if audio then e.audioSinkSSRC else e.videoSinkSSRC)
    (if audio then e.audioSourceSSRC else e.videoSourceSSRC)
  let h := RtcpHeader.setFractionLost h 0 (UInt8.ofNat (ratio.toNat * 256))
  let h := RtcpHeader.setHighestSeqnum h 0 d.highestSeqNumReceived
  let h := RtcpHeader.setSeqnumCycles h 0 d.seqNumCycles
  let h := RtcpHeader.setLostPackets h 0 d.totalPacketsLost
  let h := RtcpHeader.setJitter h 0 d.jitter
  let h := RtcpHeader.setLastSr h 0 d.lastSr
  RtcpHeader.setDelaySinceLastSr h 0 (d.delaySinceLastSr + edlsr * 65536 / 1000)

def flushNack (sourceSsrc sinkSsrc : ℕ) (d : RtcpData) (packet : Mem × ℕ) : RtcpData × (Mem × ℕ) :=
  if d.shouldSendNACK then
    ({ d with shouldSendNACK := false, nackSeqnum := 0, nackBlp := 0 },
      addNACK packet.1 packet.2 d.nackSeqnum d.nackBlp sourceSsrc sinkSsrc)
  else (d, packet)

def flushRemb (e : Endpoints) (now : Timeval) (d : RtcpData) (packet : Mem × ℕ) : RtcpData × (Mem × ℕ) :=
  if d.mediaType = .videoType ∧ (d.shouldSendREMB ∨ 1000 < now.since d.lastREMBSent) then
    ({ d with shouldSendREMB := false, lastREMBSent := now }, addREMB e packet.1 packet.2 d.reportedBandwidth)
  else (d, packet)

def schedule (defaultVideoBw : ℕ) (now : Timeval) (next : UInt32) (d : RtcpData) : RtcpData :=
  let dtScheduled := now.since d.lastRrWasScheduled
  let d := { d with
    shouldReset := d.shouldReset || decide (d.nextPacketInMs < dtScheduled)
    lastRrSent := now
    lastRrWasScheduled := now
    nextPacketInMs := next }
  if d.shouldReset then resetData d defaultVideoBw else d

/-- The packet of one source: its report, the pending NACK and the bandwidth. -/
def report (e : Endpoints) (defaultVideoBw : ℕ) (now : Timeval) (next : UInt32) (sourceSsrc : ℕ) (ratio : UInt32)
    (d : RtcpData) : Delivery × RtcpData :=
  let audio := decide (sourceSsrc = e.audioSourceSSRC)
  let rtcpHead := receiverReport e audio now d ratio
  let d := { d with
    requestRr := false
    prevTotalPacketsLost := d.totalPacketsLost
    prevExtendedSeqNo := d.extendedSeqNo }
  let (d, packet) := flushNack sourceSsrc (if audio then e.audioSinkSSRC else e.videoSinkSSRC) d
    (append rtcpHead (fun _ => 0) 0)
  let (d, packet) := flushRemb e now d packet
  (⟨decide (sourceSsrc = e.videoSourceSSRC), packet.1, packet.2⟩, schedule defaultVideoBw now next d)

/-- None is a division by 0. -/
def sendReport (e : Endpoints) (defaultVideoBw : ℕ) (now : Timeval) (next : UInt32) (sourceSsrc : ℕ) (d : RtcpData) :
    Option (Delivery × RtcpData) :=
  let packetsReceivedinInterval := d.extendedSeqNo - d.prevExtendedSeqNo
  let packetsLostInInterval := d.totalPacketsLost - d.prevTotalPacketsLost
  if packetsReceivedinInterval = 0 then none
  else some (report e defaultVideoBw now next sourceSsrc (packetsLostInInterval / packetsReceivedinInterval) d)

/-- What `checkRtcpFb` does for one source: the packet it sends, and whether it asks for a key frame. -/
def checkSource (e : Endpoints) (defaultVideoBw : ℕ) (now : Timeval) (next : UInt32) (sourceSsrc : ℕ) (d : RtcpData) :
    Option ((Option Delivery × Bool) × RtcpData) :=
  if due d now then
    (sendReport e defaultVideoBw now next sourceSsrc d).map fun p =>
      ((some p.1, p.2.shouldSendPli), { p.2 with shouldSendPli := false })
  else some ((none, d.shouldSendPli), { d with shouldSendPli := false })

/-- The clock is read for each source, and the time to its next report is random. -/
structure Checks where
  ends : Endpoints
  now : ℕ → Timeval
  next : ℕ → UInt32

/-- The sources are checked in the order of their numbers; none is a division by 0. -/
def checkRtcpFb (c : Checks) (a : RtcpAggregator) : Option (List (Option Delivery × Bool) × RtcpAggregator) :=
  (a.rtcpData.mapM fun ssrc d => checkSource c.ends a.defaultVideoBw (c.now ssrc) (c.next ssrc) ssrc d).map
    fun p => (p.1, { a with rtcpData := p.2 })

/-! ## Runs -/

inductive Event where
  | addSourceSsrc (c : Call) (ssrc : ℕ)
  | analyzeSr (c : Call) (m : Mem)
  | analyzeFeedback (c : Call) (buf : Mem) (len : ℕ)
  | setMaxVideoBW (bandwidth : ℕ)
  | setPublisherBW (bandwidth : ℕ)
  | checkRtcpFb (c : Checks)

/-- The numbers that are new in the set of a source, and the packets that are sent. -/
structure Output where
  unacked : List ℕ := []
  sent : List Delivery := []

def step (a : RtcpAggregator) : Event → Option (Output × RtcpAggregator)
  | .addSourceSsrc c ssrc => some ({}, a.addSourceSsrc c ssrc)
  | .analyzeSr c m => some ({}, a.analyzeSr c m 0)
  | .analyzeFeedback c buf len =>
    let (unacked, a) := a.analyzeFeedback c buf len
    some ({ unacked }, a)
  | .setMaxVideoBW bandwidth => some ({}, a.setMaxVideoBW bandwidth)
  | .setPublisherBW bandwidth => some ({}, a.setPublisherBW bandwidth)
  | .checkRtcpFb c => (a.checkRtcpFb c).map fun p => ({ sent := p.1.filterMap (·.1) }, p.2)

end RtcpAggregator
end Sfup.Rtp
