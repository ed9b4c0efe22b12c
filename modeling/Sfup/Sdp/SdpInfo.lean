import Sfup.Lib.OrdMap
import Sfup.Sdp.StringUtil
import Mathlib.Data.Char
import Mathlib.Data.UInt

/-! The state of a session description and its text: the types of `SdpInfo.h` and `getSdp` of `SdpInfo.cpp`. -/
namespace Sfup.Sdp

inductive HostType
  | host
  | srflx
  | prflx
  | relay
  deriving DecidableEq

inductive MediaType
  | videoType
  | audioType
  | other
  deriving DecidableEq

inductive StreamDirection
  | sendRecv
  | sendOnly
  | recvOnly
  deriving DecidableEq

inductive Profile
  | avpf
  | savpf
  deriving DecidableEq

structure CryptoInfo where
  tag : ℤ := 0
  cipherSuite : Str
  keyParams : Str
  mediaType : MediaType
  deriving DecidableEq

/-- The constructor leaves the fields other than the tag open, which is not read. -/
structure CandidateInfo where
  isBundle : Bool := false
  priority : UInt32 := 0
  componentId : UInt32
  foundation : Str
  hostAddress : Str := []
  rAddress : Str := []
  hostPort : ℤ := 0
  rPort : ℤ := 0
  netProtocol : Str
  hostType : HostType := .host
  username : Str := []
  password : Str := []
  mediaType : MediaType

structure BundleTag where
  id : Str
  mediaType : MediaType
  deriving DecidableEq

structure RtpMap where
  payloadType : UInt32
  encodingName : Str
  clockRate : UInt32
  mediaType : MediaType
  channels : UInt32 := 1
  feedbackTypes : List Str := []
  formatParameters : OrdMap Str Str := .empty

structure ExtMap where
  value : UInt32
  uri : Str
  mediaType : MediaType
  deriving DecidableEq

structure SdpInfo where
  audioSsrc : UInt32 := 0
  videoSsrc : UInt32 := 0
  videoRtxSsrc : UInt32 := 0
  isBundle : Bool := false
  hasAudio : Bool := false
  hasVideo : Bool := false
  isRtcpMux : Bool := false
  videoDirection : StreamDirection
  audioDirection : StreamDirection
  profile : Profile := .savpf
  isFingerprint : Bool := false
  fingerprint : Str := []
  inOutPTMap : OrdMap ℤ ℤ := .empty
  outInPTMap : OrdMap ℤ ℤ := .empty
  payloadVector : List RtpMap := []
  bundleTags : List BundleTag := []
  extMapVector : List ExtMap := []
  videoSdpMLine : ℤ := -1
  audioSdpMLine : ℤ := -1
  videoCodecs : ℤ := 0
  audioCodecs : ℤ := 0
  videoBandwidth : UInt32 := 0
  candidateVector : List CandidateInfo := []
  cryptoVector : List CryptoInfo := []
  iceVideoUsername : Str := []
  iceAudioUsername : Str := []
  iceVideoPassword : Str := []
  iceAudioPassword : Str := []

namespace SdpInfo

/-- The constructor does not set the directions. -/
def new (videoDirection audioDirection : StreamDirection) : SdpInfo := { videoDirection, audioDirection }

/-- The codecs that the constructor puts in `internalPayloadVector_`. -/
def internalPayloadVector : List RtpMap :=
  [{ payloadType := 100, encodingName := "VP8".toList, clockRate := 90000, mediaType := .videoType },
   { payloadType := 116, encodingName := "red".toList, clockRate := 90000, mediaType := .videoType },
   { payloadType := 117, encodingName := "ulpfec".toList, clockRate := 90000, mediaType := .videoType },
   { payloadType := 0, encodingName := "PCMU".toList, clockRate := 8000, mediaType := .audioType },
   { payloadType := 126, encodingName := "telephone-event".toList, clockRate := 8000, mediaType := .audioType }]

/-- The conversion from `unsigned int` to `int`. -/
def toInt (n : UInt32) : ℤ := n.toInt32.toInt

def alphanum : Str := "0123456789ABCDEFGHIJKLMNOPQRSTUVWXYZabcdefghijklmnopqrstuvwxyz".toList

/-- `rand` gives the values of the calls of `rand()`. -/
def genRandom (rand : ℕ → ℕ) (len : ℕ) : Str :=
  (List.range len).map fun i => alphanum.get ⟨rand i % alphanum.length, Nat.mod_lt _ (by decide)⟩

/-- A loop over a vector with a `uint8_t` counter. -/
def uint8Loop {α β : Type} (xs : List α) (f : α → List β) : Except Fault (List β) :=
  if xs.length < 256 then .ok (xs.flatMap f) else .error .endless

def hostTypeStr : HostType → Str
  | .host => "host".toList
  | .srflx => "srflx".toList
  | .prflx => "prflx".toList
  | .relay => "relay".toList

def stringifyCandidate (c : CandidateInfo) : Str :=
  "a=candidate:".toList ++ c.foundation ++ ' ' :: dec c.componentId.toNat ++ ' ' :: c.netProtocol ++
    ' ' :: dec c.priority.toNat ++ ' ' :: c.hostAddress ++ ' ' :: decInt c.hostPort ++ " typ ".toList ++
    hostTypeStr c.hostType ++
    (if c.hostType = .srflx ∨ c.hostType = .relay then
      " raddr ".toList ++ c.rAddress ++ " rport ".toList ++ decInt c.rPort else []) ++
    " generation 0".toList

section Lines

def groupLine (ids : List Str) : Str := "a=group:BUNDLE".toList ++ ids.flatten

def mediaLine (start : Str) (profile : Profile) (payloads : List RtpMap) (codecs : ℤ) : Str :=
  start ++ (if profile = .savpf then " UDP/TLS/RTP/SAVPF ".toList else " RTP/AVPF ".toList) ++
    (payloads.zipIdx 1).flatMap fun x =>
      dec x.1.payloadType.toNat ++ if (x.2 : ℤ) < codecs then " ".toList else []

def userLine (username : Str) : Str := "a=ice-ufrag:".toList ++ username

def passLine (password : Str) : Str := "a=ice-pwd:".toList ++ password

def fingerprintLine (fingerprint : Str) : Str := "a=fingerprint:sha-256 ".toList ++ fingerprint

def directionLine : StreamDirection → Str
  | .sendOnly => "a=sendonly".toList
  | .sendRecv => "a=sendrecv".toList
  | .recvOnly => "a=recvonly".toList

def extMapLine (e : ExtMap) : Str := "a=extmap:".toList ++ dec e.value.toNat ++ ' ' :: e.uri

def midLine (t : BundleTag) : Str := "a=mid:".toList ++ t.id

def cryptoLine (c : CryptoInfo) : Str :=
  "a=crypto:".toList ++ decInt c.tag ++ ' ' :: c.cipherSuite ++ " inline:".toList ++ c.keyParams

def rtpmapLine (rtp : RtpMap) : Str :=
  "a=rtpmap:".toList ++ decInt (toInt rtp.payloadType) ++ ' ' :: rtp.encodingName ++ '/' :: dec rtp.clockRate.toNat

def feedbackLine (rtp : RtpMap) (feedback : Str) : Str :=
  "a=rtcp-fb:".toList ++ decInt (toInt rtp.payloadType) ++ ' ' :: feedback

/-- The parameter named `none` is written without a name. -/
def formatWord (x : Str × Str) : Str := if x.1 ≠ "none".toList then x.1 ++ '=' :: x.2 else x.2

def fmtpLine (rtp : RtpMap) (x : Str × Str) : Str :=
  "a=fmtp:".toList ++ decInt (toInt rtp.payloadType) ++ ' ' :: formatWord x

def audioCodecLines (rtp : RtpMap) : List Str :=
  (if rtp.channels > 1 then rtpmapLine rtp ++ '/' :: dec rtp.channels.toNat else rtpmapLine rtp) ::
    rtp.formatParameters.entries.map (fmtpLine rtp)

def videoCodecLines (rtp : RtpMap) : List Str :=
  rtpmapLine rtp :: (rtp.feedbackTypes.map (feedbackLine rtp) ++ rtp.formatParameters.entries.map (fmtpLine rtp))

def ssrcLines (ssrc : UInt32) (msidtemp label : Str) : List Str :=
  ["a=ssrc:".toList ++ dec ssrc.toNat ++ " cname:o/i14u9pJrxRKAsu".toList,
   "a=ssrc:".toList ++ dec ssrc.toNat ++ " msid:".toList ++ msidtemp ++ ' ' :: label,
   "a=ssrc:".toList ++ dec ssrc.toNat ++ " mslabel:".toList ++ msidtemp,
   "a=ssrc:".toList ++ dec ssrc.toNat ++ " label:".toList ++ msidtemp ++ label]

end Lines

def headLines (msidtemp : Str) (s : SdpInfo) : Except Fault (List Str) := do
  let start := ["v=0".toList, "o=- 0 0 IN IP4 127.0.0.1".toList, "s=LicodeMCU".toList, "t=0 0".toList]
  if s.isBundle then
    let ids ← uint8Loop s.bundleTags fun t => [' ' :: t.id]
    return start ++ [groupLine ids, "a=msid-semantic: WMS ".toList ++ msidtemp]
  else return start

def audioLines (msidtemp : Str) (s : SdpInfo) : Except Fault (List Str) := do
  let extMaps ← uint8Loop s.extMapVector fun e => if e.mediaType = .audioType then [extMapLine e] else []
  let mids ← uint8Loop s.bundleTags fun t => if t.mediaType = .audioType then [midLine t] else []
  let payloads := s.payloadVector.filter (·.mediaType = .audioType)
  return [mediaLine "m=audio 1".toList s.profile payloads s.audioCodecs, "c=IN IP4 0.0.0.0".toList] ++
    (if s.isRtcpMux then ["a=rtcp:1 IN IP4 0.0.0.0".toList] else []) ++
    (s.candidateVector.filter fun c => c.mediaType = .audioType ∨ s.isBundle).map stringifyCandidate ++
    (if s.iceAudioUsername.length > 0 then [userLine s.iceAudioUsername, passLine s.iceAudioPassword]
      else [userLine s.iceVideoUsername, passLine s.iceVideoPassword]) ++
    (if s.isFingerprint then [fingerprintLine s.fingerprint] else []) ++
    [directionLine s.audioDirection] ++ extMaps ++ mids ++
    (if s.isRtcpMux then ["a=rtcp-mux".toList] else []) ++
    (s.cryptoVector.filter (·.mediaType = .audioType)).map cryptoLine ++
    payloads.flatMap audioCodecLines ++
    ["a=maxptime:60".toList] ++ ssrcLines s.audioSsrc msidtemp "a0".toList

def videoLines (msidtemp : Str) (s : SdpInfo) : Except Fault (List Str) := do
  let extMaps ← uint8Loop s.extMapVector fun e => if e.mediaType = .videoType then [extMapLine e] else []
  let mids ← uint8Loop s.bundleTags fun t => if t.mediaType = .videoType then [midLine t] else []
  let payloads := s.payloadVector.filter (·.mediaType = .videoType)
  return [mediaLine "m=video 1".toList s.profile payloads s.videoCodecs, "c=IN IP4 0.0.0.0".toList] ++
    (if s.isRtcpMux then ["a=rtcp:1 IN IP4 0.0.0.0".toList] else []) ++
    (s.candidateVector.filter (·.mediaType = .videoType)).map stringifyCandidate ++
    [userLine s.iceVideoUsername, passLine s.iceVideoPassword] ++ extMaps ++
    (if s.isFingerprint then [fingerprintLine s.fingerprint] else []) ++
    [directionLine s.videoDirection] ++ mids ++
    (if s.isRtcpMux then ["a=rtcp-mux".toList] else []) ++
    (s.cryptoVector.filter (·.mediaType = .videoType)).map cryptoLine ++
    payloads.flatMap videoCodecLines ++ ssrcLines s.videoSsrc msidtemp "v0".toList ++
    (if s.videoRtxSsrc ≠ 0 then ssrcLines s.videoRtxSsrc msidtemp "v0".toList else [])

/-- The sources that `getSdp` fills in while it writes. -/
def withSsrcs (s : SdpInfo) : SdpInfo :=
  { s with
    audioSsrc := if s.hasAudio ∧ s.audioSsrc = 0 then 44444 else s.audioSsrc
    videoSsrc := if s.hasVideo ∧ s.videoSsrc = 0 then 55543 else s.videoSsrc }

/-- The text, with a line break behind each line, and the state behind the call. -/
def getSdp (rand : ℕ → ℕ) (s : SdpInfo) : Except Fault (Str × SdpInfo) := do
  let msidtemp := genRandom rand 10
  let s := s.withSsrcs
  let head ← headLines msidtemp s
  let audio ← if s.hasAudio then audioLines msidtemp s else .ok []
  let video ← if s.hasVideo then videoLines msidtemp s else .ok []
  return ((head ++ audio ++ video).flatMap (· ++ ['\n']), s)

end SdpInfo
end Sfup.Sdp
