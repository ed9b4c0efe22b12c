import Sfup.Core.ConnectionState
import Sfup.Core.NiceConnection
import Sfup.Core.RtpExtensionProcessor
import Sfup.Rtp.RtcpForwarder
import Sfup.Sdp.Offers
import Sfup.Sdp.Accesses

/-! Descriptions and candidates of the remote side: `setRemoteSdp` and `addRemoteCandidate` of
`WebRtcConnection.cpp`. -/
namespace Sfup.Core
open Sfup.Sdp Sfup.Rtp
open Sfup.Sdp.Parser (Guarded Halts turns start behind candidatesIn)

/-- How a call can fail to return: in a description, by a call on a null transport, or with the exception of a
`join`. -/
inductive Stop where
  | fault (f : Fault)
  | nullTransport
  | threw

def inCall {α : Type} : Except Fault α → Except Stop α
  | .ok a => .ok a
  | .error f => .error (.fault f)

theorem inCall_eq_ok {α : Type} {x : Except Fault α} {a : α} : inCall x = .ok a ↔ x = .ok a := by
  cases x with
  | error f =>
    constructor
    · rintro ⟨⟩
    · rintro ⟨⟩
  | ok a' =>
    constructor
    · rintro ⟨⟩
      rfl
    · rintro ⟨⟩
      rfl

/-- A transport with its ICE connection, and the credentials and candidates that its agent was given. -/
structure Link where
  transport : Transport
  nice : NiceConnection
  remoteCredentials : Option (Str × Str) := none
  remoteCandidates : List (List CandidateInfo) := []

/-- What a new transport gets of the libraries. -/
structure LocalKeys where
  fingerprint : Str
  username : Str
  password : Str

namespace Link

/-- A new transport that is started. Its agent gets the credentials if neither is empty. -/
def new (keys : LocalKeys) (mediaType : MediaType) (bundle rtcpMux : Bool) (username password : Str) : Link where
  transport :=
    { mediaType, bundle, fingerprint := keys.fingerprint, username := keys.username, password := keys.password }
  nice :=
    { NiceConnection.new (if rtcpMux then 1 else 2) true with agent := true, loop := true, thread := true }
  remoteCredentials := if username ≠ [] ∧ password ≠ [] then some (username, password) else none

/-- A null agent is not given anything. -/
def setRemoteCredentials (username password : Str) (l : Link) : Link :=
  if l.nice.agent then { l with remoteCredentials := some (username, password) } else l

def setRemoteCandidates (candidates : List CandidateInfo) (isBundle : Bool) (l : Link) : Except Stop (Bool × Link) :=
  if l.nice.agent then
    let taken := candidates.filter fun c =>
      ¬ (c.componentId ≠ 1 ∨ (isBundle = false ∧ c.mediaType ≠ l.transport.mediaType)) ∧ c.hostPort ≠ 0
    .ok (true, { l with remoteCandidates := l.remoteCandidates ++ [taken.reverse] })
  else
    match l.nice.close with
    | (.threw, _) => .error .threw
    | (_, nice) => .ok (false, { l with nice })

end Link

/-- The part of a connection that a remote description can change. -/
structure Negotiation where
  bundle : Bool := false
  trickleEnabled : Bool
  connEventListener : Bool
  globalState : WebRTCEvent := .initial
  remoteSdp : SdpInfo
  localSdp : SdpInfo
  audioTransport : Option Link := none
  videoTransport : Option Link := none
  audioEnabled : Bool
  videoEnabled : Bool
  ends : Endpoints
  /-- The numbers that `thisStats_` has. -/
  statsVideoSSRC : ℕ
  statsAudioSSRC : ℕ
  rtcpProcessor : RtcpForwarder
  extProcessor : ExtensionMaps := {}

namespace Negotiation

def getUsername (info : SdpInfo) (media : MediaType) : Str :=
  if media = .audioType then info.iceAudioUsername else info.iceVideoUsername

def getPassword (info : SdpInfo) (media : MediaType) : Str :=
  if media = .audioType then info.iceAudioPassword else info.iceVideoPassword

/-- What is taken over from the description before the transports. `call` has the memory that a new entry of the
RTCP processor does not set. -/
def takeRemoteSdp (call : Rtp.Call) (remoteSdp : SdpInfo) (c : Negotiation) : Negotiation :=
  let localSdp := c.localSdp.setOfferSdp remoteSdp
  let ends := { c.ends with
    videoSourceSSRC := remoteSdp.videoSsrc.toNat
    audioSourceSSRC := remoteSdp.audioSsrc.toNat }
  let call := { call with ends }
  { c with
    remoteSdp
    bundle := remoteSdp.isBundle
    extProcessor := c.extProcessor.setSdpInfo localSdp
    localSdp := { localSdp with
      videoSsrc := UInt32.ofNat c.ends.videoSinkSSRC
      audioSsrc := UInt32.ofNat c.ends.audioSinkSSRC }
    ends
    statsVideoSSRC := ends.videoSourceSSRC
    statsAudioSSRC := ends.audioSourceSSRC
    audioEnabled := remoteSdp.hasAudio
    videoEnabled := remoteSdp.hasVideo
    rtcpProcessor := (c.rtcpProcessor.addSourceSsrc call ends.audioSourceSSRC).addSourceSsrc call ends.videoSourceSSRC }

def prepareTransport (c : Negotiation) (keys : LocalKeys) (media : MediaType) (transport : Option Link) : Link :=
  let username := getUsername c.remoteSdp media
  let password := getPassword c.remoteSdp media
  match transport with
  | none => .new keys media c.bundle c.remoteSdp.isRtcpMux username password
  | some l => l.setRemoteCredentials username password

def prepareTransports (videoKeys audioKeys : LocalKeys) (c : Negotiation) : Negotiation :=
  if c.remoteSdp.profile = .savpf ∧ c.remoteSdp.isFingerprint then
    let c := if c.remoteSdp.hasVideo ∨ c.bundle then
        { c with videoTransport := some (c.prepareTransport videoKeys .videoType c.videoTransport) } else c
    if c.bundle = false ∧ c.remoteSdp.hasAudio then
      { c with audioTransport := some (c.prepareTransport audioKeys .audioType c.audioTransport) } else c
  else c

/-- `setRemoteCandidates` on a transport, which is not checked for null. -/
def pass (c : Negotiation) (candidates : List CandidateInfo) : Option Link → Except Stop (Bool × Link)
  | none => .error .nullTransport
  | some l => l.setRemoteCandidates candidates c.bundle

def isGathered (c : Negotiation) : Bool := c.globalState ≠ .initial ∧ c.globalState ≠ .started

def passVideo (c : Negotiation) : Except Stop Negotiation :=
  if c.remoteSdp.hasVideo then do
    let (_, l) ← c.pass c.remoteSdp.candidateVector c.videoTransport
    return { c with videoTransport := some l }
  else .ok c

def passAudio (c : Negotiation) : Except Stop Negotiation :=
  if c.bundle = false ∧ c.remoteSdp.hasAudio then do
    let (_, l) ← c.pass c.remoteSdp.candidateVector c.audioTransport
    return { c with audioTransport := some l }
  else .ok c

def passCandidates (c : Negotiation) : Except Stop Negotiation :=
  if c.isGathered ∧ c.remoteSdp.candidateVector ≠ [] then c.passVideo >>= passAudio else .ok c

def getLocalSdp (rand : ℕ → ℕ) (c : Negotiation) : Except Stop (Str × Negotiation) := do
  let localSdp := c.videoTransport.elim c.localSdp (·.transport.processLocalSdp c.localSdp)
  let localSdp := if c.bundle then localSdp else c.audioTransport.elim localSdp (·.transport.processLocalSdp localSdp)
  let (text, localSdp) ← inCall (SdpInfo.getSdp rand { localSdp with profile := c.remoteSdp.profile })
  return (text, { c with localSdp })

def answer (rand : ℕ → ℕ) (c : Negotiation) : Except Stop (Option (WebRTCEvent × Str) × Negotiation) :=
  if c.trickleEnabled then do
    let (object, c) ← c.getLocalSdp rand
    return (if c.connEventListener then some (.sdp, object) else none, c)
  else .ok (none, c)

def limitBandwidth (c : Negotiation) : Negotiation :=
  if c.remoteSdp.videoBandwidth ≠ 0 then
    { c with rtcpProcessor := { c.rtcpProcessor with maxVideoBw := (c.remoteSdp.videoBandwidth * 1000).toNat } }
  else c

/-- The result of `initWithSdp` is not looked at. -/
def setRemoteSdp (rand : ℕ → ℕ) (videoKeys audioKeys : LocalKeys) (call : Rtp.Call) (sdp : Str) (c : Negotiation) :
    Except Stop (Bool × Option (WebRTCEvent × Str) × Negotiation) := do
  let (_, remoteSdp) ← inCall (c.remoteSdp.initWithSdp sdp [])
  let c := (c.takeRemoteSdp call remoteSdp).prepareTransports videoKeys audioKeys
  let c ← c.passCandidates
  let (notified, c) ← c.answer rand
  return (true, notified, c.limitBandwidth)

def theType (mid : Str) (mLineIndex : ℤ) (c : Negotiation) : MediaType :=
  if mid = "video".toList ∨ mLineIndex = c.remoteSdp.videoSdpMLine then .videoType else .audioType

def theMid (mid : Str) (mLineIndex : ℤ) (c : Negotiation) : Str :=
  if c.theType mid mLineIndex = .videoType then "video".toList else "audio".toList

def tempSdp (videoDirection audioDirection : StreamDirection) (media : MediaType) (c : Negotiation) : SdpInfo :=
  setCredentials (SdpInfo.new videoDirection audioDirection) (getUsername c.remoteSdp media)
    (getPassword c.remoteSdp media) .other

def addCandidate (info : SdpInfo) (candidate : CandidateInfo) : SdpInfo :=
  { info with candidateVector := info.candidateVector ++ [candidate] }

/-- The candidates of an accepted text go to the transport of the medium, or of the bundle. -/
def passTo (media : MediaType) (candidates : List CandidateInfo) (c : Negotiation) : Except Stop (Bool × Negotiation) :=
  if media = .videoType ∨ c.bundle then do
    let (res, l) ← c.pass candidates c.videoTransport
    return (res, { c with videoTransport := some l })
  else do
    let (res, l) ← c.pass candidates c.audioTransport
    return (res, { c with audioTransport := some l })

/-- The number of the section is -1 behind the last candidate. -/
def noteLast (mLineIndex : ℤ) (c : Negotiation) : Negotiation :=
  if mLineIndex = -1 then
    { c with videoTransport := c.videoTransport.map fun l => { l with nice := l.nice.setReceivedLastCandidate true } }
  else c

/-- The candidates of the text are added to the description, whether or not the text is accepted. -/
def readCandidates (videoDirection audioDirection : StreamDirection) (mid : Str) (mLineIndex : ℤ) (sdp : Str)
    (c : Negotiation) : Except Stop (Bool × Negotiation) := do
  let media := c.theType mid mLineIndex
  let (accepted, tempSdp) ← inCall
    ((c.tempSdp videoDirection audioDirection media).initWithSdp sdp (c.theMid mid mLineIndex))
  let (res, c) ← (if accepted then c.passTo media tempSdp.candidateVector else .ok (false, c))
  let candidates ← inCall (SdpInfo.uint8Loop tempSdp.candidateVector fun candidate => [candidate])
  return (res, { c with remoteSdp := candidates.foldl addCandidate c.remoteSdp })

/-- The directions of the description on the stack are not set by its constructor. -/
def addRemoteCandidate (videoDirection audioDirection : StreamDirection) (mid : Str) (mLineIndex : ℤ) (sdp : Str)
    (c : Negotiation) : Except Stop (Bool × Negotiation) :=
  if c.videoTransport.isNone then .ok (false, c)
  else (c.noteLast mLineIndex).readCandidates videoDirection audioDirection mid mLineIndex sdp

/-! ## Endless loops -/

section Ends
variable {c : Negotiation} {media : MediaType} {candidates : List CandidateInfo}

/-- The transport that gets the candidates is there, and a `close` of it would not throw. -/
def passable (media : MediaType) (c : Negotiation) : Bool :=
  (if media = .videoType ∨ c.bundle then c.videoTransport else c.audioTransport).any fun l =>
    l.nice.agent || l.nice.iceState = .finished || l.nice.thread

/-- A call on a transport comes back, or stops without an endless loop. -/
theorem setRemoteCandidates_eq (candidates : List CandidateInfo) (isBundle : Bool) (l : Link) :
    (l.setRemoteCandidates candidates isBundle).map (fun _ => ()) =
      if l.nice.agent || l.nice.iceState = .finished || l.nice.thread then .ok () else .error .threw := by
  unfold Link.setRemoteCandidates
  by_cases ha : l.nice.agent
  · rw [if_pos ha, if_pos (by simp [ha])]
    rfl
  · rw [if_neg ha]
    by_cases hf : l.nice.iceState = .finished
    · rw [NiceConnection.close_of_finished hf, if_pos (by simp [hf])]
      rfl
    · have hclose := (NiceConnection.close_of_ne hf).1
      generalize l.nice.close = p at hclose ⊢
      obtain ⟨out, nice⟩ := p
      cases hthread : l.nice.thread with
      | true =>
        obtain rfl : out = .closed := hclose.trans (by rw [hthread, if_pos rfl])
        simp [Except.map]
      | false =>
        obtain rfl : out = .threw := hclose.trans (by rw [hthread, if_neg (by simp)])
        simp [ha, hf, Except.map]

/-- A transport takes the candidates, or the call stops without an endless loop. -/
theorem pass_ok_or (c : Negotiation) (candidates : List CandidateInfo) (transport : Option Link)
    (f : Link → Negotiation) :
    (transport.any (fun l => l.nice.agent || l.nice.iceState = .finished || l.nice.thread) ∧
      ∃ r, (do
        let (res, l) ← c.pass candidates transport
        return (res, f l)) = .ok r) ∨
    (¬ transport.any (fun l => l.nice.agent || l.nice.iceState = .finished || l.nice.thread) ∧
      ∃ e, (do
        let (res, l) ← c.pass candidates transport
        return (res, f l)) = .error e ∧ ∀ f, e ≠ .fault f) := by
  cases transport with
  | none => exact .inr ⟨by simp, .nullTransport, rfl, nofun⟩
  | some l =>
    have heq := setRemoteCandidates_eq candidates c.bundle l
    rw [Option.any_some]
    split_ifs at heq with h
    · obtain ⟨⟨res, l'⟩, hl', -⟩ := map_eq_ok.mp heq
      exact .inl ⟨h, _, by rw [pass, hl']; rfl⟩
    · exact .inr ⟨h, .threw, by rw [pass, map_eq_error.mp heq]; rfl, nofun⟩

theorem passTo_ok_or (c : Negotiation) (media : MediaType) (candidates : List CandidateInfo) :
    (c.passable media ∧ ∃ r, c.passTo media candidates = .ok r) ∨
      (¬ c.passable media ∧ ∃ e, c.passTo media candidates = .error e ∧ ∀ f, e ≠ .fault f) := by
  unfold passable passTo
  split_ifs
  · exact c.pass_ok_or candidates c.videoTransport fun l => { c with videoTransport := some l }
  · exact c.pass_ok_or candidates c.audioTransport fun l => { c with audioTransport := some l }

theorem inCall_uint8Loop_ne_iff {α β γ : Type} {xs : List α} {f : α → List β} {k : List β → γ} :
    (inCall (SdpInfo.uint8Loop xs f) >>= fun ys => (.ok (k ys) : Except Stop γ)) ≠ .error (.fault .endless) ↔
      xs.length < 256 := by
  unfold SdpInfo.uint8Loop
  split_ifs with hlt
  · exact iff_of_true nofun hlt
  · exact iff_of_false (fun hne => hne rfl) hlt

/-- The text is read to its end, and where its candidates get to the loop there are fewer than 256. -/
def Ends (videoDirection audioDirection : StreamDirection) (mid : Str) (mLineIndex : ℤ) (sdp : Str) (c : Negotiation) :
    Prop :=
  let media := c.theType mid mLineIndex
  let info := c.tempSdp videoDirection audioDirection media
  let first := start info (c.theMid mid mLineIndex)
  Halts (turns sdp) first ∧ (Guarded (turns sdp) first →
    ((behind info sdp (c.theMid mid mLineIndex)).named → c.passable media) → candidatesIn sdp < 256)

variable {videoDirection audioDirection : StreamDirection} {mid : Str} {mLineIndex : ℤ} {sdp : Str}

theorem readCandidates_iff : c.readCandidates videoDirection audioDirection mid mLineIndex sdp ≠ .error (.fault .endless) ↔
    c.Ends videoDirection audioDirection mid mLineIndex sdp := by
  unfold readCandidates Ends
  generalize c.theType mid mLineIndex = media
  dsimp only
  generalize hinfo : c.tempSdp videoDirection audioDirection media = info
  generalize c.theMid mid mLineIndex = theMid
  have hempty : info.candidateVector = [] := by
    rw [← hinfo]
    rfl
  rw [← Parser.halts_iff, ← Parser.guarded_iff, ← Parser.processSdp_ne_iff, ← Parser.processSdp_ne_iff, SdpInfo.initWithSdp]
  cases h : info.processSdp sdp theMid with
  | error f =>
    show (Except.error (.fault f) : Except Stop (Bool × Negotiation)) ≠ _ ↔ _
    cases f with
    | outOfRange => exact iff_of_true nofun ⟨nofun, fun hne => absurd rfl hne⟩
    | endless => exact iff_of_false (fun hne => hne rfl) fun hends => hends.1 rfl
  | ok p =>
    obtain ⟨accepted, tempSdp⟩ := p
    obtain ⟨hnamed, hlen⟩ := Parser.processSdp_outcome h
    rw [Parser.candidates_behind, hempty, List.length_nil, Nat.zero_add] at hlen
    rw [← hnamed, ← hlen]
    show ((if accepted then c.passTo media tempSdp.candidateVector else .ok (false, c)) >>= _) ≠ _ ↔ _
    have hcond : ∀ P : Prop, ((Except.ok (accepted, tempSdp) : Except Fault _) ≠ .error .endless ∧
        ((Except.ok (accepted, tempSdp) : Except Fault _) ≠ .error .outOfRange → P)) ↔ P :=
      fun P => ⟨fun hP => hP.2 nofun, fun hP => ⟨nofun, fun _ => hP⟩⟩
    rw [hcond]
    cases accepted with
    | false =>
      exact inCall_uint8Loop_ne_iff.trans ⟨fun hlt _ => hlt, fun hlt => hlt nofun⟩
    | true =>
      rcases c.passTo_ok_or media tempSdp.candidateVector with ⟨hp, r, hr⟩ | ⟨hp, e, he, hne⟩
      · rw [if_pos rfl, hr]
        exact inCall_uint8Loop_ne_iff.trans ⟨fun hlt _ => hlt, fun hlt => hlt fun _ => hp⟩
      · rw [if_pos rfl, he]
        exact iff_of_true (fun heq => hne .endless (Except.error.inj heq)) fun hp' => absurd (hp' rfl) hp

private theorem passable_noteLast (media : MediaType) : (c.noteLast mLineIndex).passable media = c.passable media := by
  unfold noteLast
  split_ifs
  · simp only [passable]
    split_ifs
    · rw [Option.any_map]
      rfl
    · rfl
  · rfl

private theorem ends_noteLast : (c.noteLast mLineIndex).Ends videoDirection audioDirection mid mLineIndex sdp ↔
    c.Ends videoDirection audioDirection mid mLineIndex sdp := by
  have hremote : (c.noteLast mLineIndex).remoteSdp = c.remoteSdp := by
    unfold noteLast
    split_ifs <;> rfl
  have htype : (c.noteLast mLineIndex).theType mid mLineIndex = c.theType mid mLineIndex := by
    rw [theType, hremote, theType]
  have hmid : (c.noteLast mLineIndex).theMid mid mLineIndex = c.theMid mid mLineIndex := by
    rw [theMid, htype, theMid]
  have htemp : ∀ media, (c.noteLast mLineIndex).tempSdp videoDirection audioDirection media =
      c.tempSdp videoDirection audioDirection media := by
    intro media
    rw [tempSdp, hremote, tempSdp]
  simp only [Ends, passable_noteLast, htype, hmid, htemp]

/-- Endless is a loop whose 8-bit counter never gets to the size. The description is written and read, and candidates
are added, without one exactly if the tags, extensions and candidates that such a loop reaches are fewer than 256. -/
theorem terminates_iff (rand : ℕ → ℕ) (info : SdpInfo) (sdp media : Str) (videoDirection audioDirection : StreamDirection)
    (mid : Str) (mLineIndex : ℤ) (c : Negotiation) :
    (∀ (α β : Type) (xs : List α) (f : α → List β),
        SdpInfo.uint8Loop xs f = .error .endless ↔ ∀ fuel, SdpInfo.uint8Turns xs f fuel = none) ∧
      (info.getSdp rand ≠ .error .endless ↔ info.Writable) ∧
      (info.processSdp sdp media ≠ .error .endless ↔ Halts (turns sdp) (start info media)) ∧
      (c.addRemoteCandidate videoDirection audioDirection mid mLineIndex sdp ≠ .error (.fault .endless) ↔
        (c.videoTransport.isSome → c.Ends videoDirection audioDirection mid mLineIndex sdp)) := by
  refine ⟨fun _ _ _ _ => SdpInfo.uint8Loop_eq_endless_iff, SdpInfo.getSdp_ne_iff rand, by rw [Parser.processSdp_ne_iff, Parser.halts_iff], ?_⟩
  unfold addRemoteCandidate
  split_ifs with hnone
  · exact iff_of_true nofun fun hsome => by simp_all
  · rw [readCandidates_iff, ends_noteLast]
    exact ⟨fun h _ => h, fun h => h (by simpa [Option.isSome_iff_ne_none] using hnone)⟩

/-- 256 extensions are not written, and a name is not looked up among 256 tags. -/
theorem not_terminates :
    SdpInfo.getSdp (fun _ => 0) { SdpInfo.new .sendRecv .sendRecv with
      hasVideo := true, extMapVector := List.replicate 256 ⟨1, "urn:3gpp:video-orientation".toList, .videoType⟩ } =
        .error .endless ∧
    SdpInfo.processSdp { SdpInfo.new .sendRecv .sendRecv with
      isBundle := true, bundleTags := List.replicate 256 ⟨"video".toList, .other⟩ } "a=mid:video\n".toList [] =
        .error .endless := by
  constructor
  · rw [← not_not (a := _ = _), ← ne_eq, SdpInfo.getSdp_ne_iff]
    intro h
    have hlen := (h.2 (.inr rfl)).1
    rw [List.length_replicate] at hlen
    exact absurd hlen (by decide)
  · rw [← not_not (a := _ = _), ← ne_eq, Parser.processSdp_ne_iff, Parser.halts_iff]
    decide +kernel

end Ends

end Negotiation
end Sfup.Core
