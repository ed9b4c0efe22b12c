import Sfup.Sdp.SdpInfo

/-! Reading a session description: `processSdp` and `processCandidate` of `SdpInfo.cpp`. -/
namespace Sfup.Sdp

namespace Marker

def cand : Str := "a=candidate:".toList
def crypto : Str := "a=crypto:".toList
def group : Str := "a=group:".toList
def video : Str := "m=video".toList
def audio : Str := "m=audio".toList
def mid : Str := "a=mid".toList
def sendrecv : Str := "a=sendrecv".toList
def recvonly : Str := "a=recvonly".toList
def sendonly : Str := "a=sendonly".toList
def iceUser : Str := "a=ice-ufrag".toList
def icePass : Str := "a=ice-pwd".toList
def ssrctag : Str := "a=ssrc".toList
def ssrcgrouptag : Str := "a=ssrc-group".toList
def savpf : Str := "SAVPF".toList
def rtpmap : Str := "a=rtpmap:".toList
def rtcpmux : Str := "a=rtcp-mux".toList
def fp : Str := "a=fingerprint".toList
def extmap : Str := "a=extmap:".toList
def rtcpfb : Str := "a=rtcp-fb:".toList
def fmtp : Str := "a=fmtp:".toList
def bas : Str := "b=AS:".toList

end Marker

/-- The state of the loop over the lines. -/
structure Parser where
  info : SdpInfo
  mtype : MediaType
  mlineNum : ℤ := -1
  tmpFeedbackVector : List Str := []

namespace Parser
open SdpInfo

def onFound (marker line : Str) (act : Parser → Except Fault Parser) (st : Parser) : Except Fault Parser :=
  if marker <:+: line then act st else .ok st

def rtcpMuxBranch (line : Str) : Parser → Except Fault Parser :=
  onFound Marker.rtcpmux line fun st => .ok { st with info.isRtcpMux := true }

def setDirection (d : StreamDirection) (st : Parser) : Parser :=
  if st.mtype = .audioType then { st with info.audioDirection := d } else { st with info.videoDirection := d }

def directionBranch (line : Str) (st : Parser) : Except Fault Parser :=
  if Marker.recvonly <:+: line then .ok (setDirection .recvOnly st)
  else if Marker.sendonly <:+: line then .ok (setDirection .sendOnly st)
  else if Marker.sendrecv <:+: line then .ok (setDirection .sendRecv st)
  else .ok st

def profileBranch (line : Str) : Parser → Except Fault Parser :=
  onFound Marker.savpf line fun st => .ok { st with info.profile := .savpf }

def fingerprintValue (line : Str) : Except Fault Str := do
  let value ← part (splitOneOf line [':'] 1) 1
  part (splitOneOf value [' '] 0) 1

def fingerprintBranch (line : Str) : Parser → Except Fault Parser :=
  onFound Marker.fp line fun st => do
    let fingerprint ← fingerprintValue line
    return { st with info.fingerprint := fingerprint, info.isFingerprint := true }

def groupBranch (line : Str) : Parser → Except Fault Parser :=
  onFound Marker.group line fun st => do
    let parts := splitOneOf line [':', ' ', ' ', '\r', '\n'] 10
    let kind ← part parts 1
    return { st with
      info.isBundle := if kind = "BUNDLE".toList then true else st.info.isBundle
      info.bundleTags := st.info.bundleTags ++ (parts.drop 2).map fun id => { id, mediaType := .other } }

def videoBranch (line : Str) : Parser → Except Fault Parser :=
  onFound Marker.video line fun st =>
    .ok { st with
      mlineNum := st.mlineNum + 1, info.videoSdpMLine := st.mlineNum + 1
      mtype := .videoType, info.hasVideo := true }

def audioBranch (line : Str) : Parser → Except Fault Parser :=
  onFound Marker.audio line fun st =>
    .ok { st with
      mlineNum := st.mlineNum + 1, info.audioSdpMLine := st.mlineNum + 1
      mtype := .audioType, info.hasAudio := true }

def hostTypeOf (s : Str) : HostType :=
  if s = "srflx".toList then .srflx else if s = "prflx".toList then .prflx
  else if s = "relay".toList then .relay else .host

/-- A candidate that is not taken leaves the vector as it is. -/
def processCandidate (pieces : List Str) (mediaType : MediaType) (info : SdpInfo) :
    Except Fault (Bool × SdpInfo) := do
  let foundation ← part pieces 1
  let componentId := strtoul (← part pieces 2)
  let netProtocol ← part pieces 3
  if netProtocol ≠ "UDP".toList ∧ netProtocol ≠ "udp".toList then return (false, info)
  let priority := strtoul (← part pieces 4)
  let hostAddress ← part pieces 5
  let hostPort := toInt (strtoul (← part pieces 6))
  if (← part pieces 7) ≠ "typ".toList then return (false, info)
  let hostType := hostTypeOf (← part pieces 8)
  let cand : CandidateInfo :=
    { foundation, componentId, netProtocol, priority, hostAddress, hostPort, hostType, mediaType }
  if hostType = .srflx ∨ hostType = .relay then
    let rAddress ← part pieces 10
    let rPort := toInt (strtoul (← part pieces 12))
    return (true, { info with candidateVector := info.candidateVector ++ [{ cand with rAddress, rPort }] })
  return (true, { info with candidateVector := info.candidateVector ++ [cand] })

def candidateBranch (line : Str) : Parser → Except Fault Parser :=
  onFound Marker.cand line fun st => do
    let (_, info) ← processCandidate (splitOneOf line [' ', ':'] 0) st.mtype st.info
    return { st with info }

def cryptoBranch (line : Str) : Parser → Except Fault Parser :=
  onFound Marker.crypto line fun st => do
    let cryptopiece := splitOneOf line [' ', ':'] 0
    let cipherSuite ← part cryptopiece 2
    let keyParams ← part cryptopiece 4
    let crypinfo : CryptoInfo := { cipherSuite, keyParams, mediaType := st.mtype }
    return { st with info.cryptoVector := st.info.cryptoVector ++ [crypinfo] }

def credential (line : Str) : Except Fault Str := do
  let value ← part (splitOneOf line [':'] 1) 1
  part (splitOneOf value ['\r'] 1) 0

def userBranch (line : Str) : Parser → Except Fault Parser :=
  onFound Marker.iceUser line fun st => do
    let username ← credential line
    return if st.mtype = .audioType then { st with info.iceAudioUsername := username }
      else { st with info.iceVideoUsername := username }

def passBranch (line : Str) : Parser → Except Fault Parser :=
  onFound Marker.icePass line fun st => do
    let password ← credential line
    return if st.mtype = .audioType then { st with info.iceAudioPassword := password }
      else { st with info.iceVideoPassword := password }

def setTagType (id : Str) (mtype : MediaType) (t : BundleTag) : BundleTag :=
  if t.id = id then { t with mediaType := mtype } else t

def midBranch (line : Str) : Parser → Except Fault Parser :=
  onFound Marker.mid line fun st => do
    let parts := splitOneOf line [':', ' ', '\r', '\n'] 4
    if parts.length ≥ 2 ∧ st.info.isBundle then
      let thisId ← part parts 1
      let bundleTags ← uint8Loop st.info.bundleTags fun t => [setTagType thisId st.mtype t]
      return { st with info.bundleTags := bundleTags }
    else return st

def ssrcBranch (line : Str) : Parser → Except Fault Parser :=
  onFound Marker.ssrctag line fun st => do
    let parts := splitOneOf line [' ', ':'] 2
    if st.mtype = .videoType ∧ st.info.videoSsrc = 0 then
      return { st with info.videoSsrc := strtoul (← part parts 1) }
    else if st.mtype = .audioType ∧ st.info.audioSsrc = 0 then
      return { st with info.audioSsrc := strtoul (← part parts 1) }
    else return st

def ssrcGroupBranch (line : Str) : Parser → Except Fault Parser :=
  onFound Marker.ssrcgrouptag line fun st =>
    let parts := splitOneOf line [' ', ':'] 10
    if st.mtype = .videoType ∧ parts.length ≥ 4 then do
      return { st with info.videoRtxSsrc := strtoul (← part parts 3) }
    else .ok st

def mapCodec (pt : UInt32) (codecname : Str) (clock : UInt32) (x : SdpInfo × Option UInt32) (rtp : RtpMap) :
    SdpInfo × Option UInt32 :=
  if rtp.encodingName = codecname ∧ rtp.clockRate = clock then
    ({ x.1 with
        outInPTMap := x.1.outInPTMap.set (toInt pt) (toInt rtp.payloadType)
        inOutPTMap := x.1.inOutPTMap.set (toInt rtp.payloadType) (toInt pt) }, some rtp.channels)
  else x

def addCodec (payloadType : UInt32) (encodingName : Str) (clockRate : UInt32) (st : Parser) : Parser :=
  let (info, found) := internalPayloadVector.foldl (mapCodec payloadType encodingName clockRate) (st.info, none)
  match found with
  | none => { st with info }
  | some channels =>
    let theMap : RtpMap := { payloadType, encodingName, clockRate, mediaType := st.mtype, channels }
    { st with info := { info with
      videoCodecs := if st.mtype = .videoType then info.videoCodecs + 1 else info.videoCodecs
      audioCodecs := if st.mtype = .videoType then info.audioCodecs else info.audioCodecs + 1
      payloadVector := info.payloadVector ++ [theMap] } }

def rtpmapBranch (line : Str) : Parser → Except Fault Parser :=
  onFound Marker.rtpmap line fun st => do
    let parts := splitOneOf line [' ', ':', '/', '\n'] 4
    let pt := strtoul (← part parts 1)
    let codecname ← part parts 2
    let clock := strtoul (← part parts 3)
    return addCodec pt codecname clock st

def extMapBranch (line : Str) : Parser → Except Fault Parser :=
  onFound Marker.extmap line fun st =>
    let parts := splitOneOf line [' ', ':', '='] 3
    if parts.length ≥ 3 then do
      let value := strtoul (← part parts 2)
      let uri ← part parts 3
      -- the last letter is taken for a carriage return
      let anExt : ExtMap := { value, uri := uri.take (uri.length - 1), mediaType := st.mtype }
      return { st with info.extMapVector := st.info.extMapVector ++ [anExt] }
    else .ok st

def feedbackBranch (line : Str) : Parser → Except Fault Parser :=
  onFound Marker.rtcpfb line fun st => .ok { st with tmpFeedbackVector := st.tmpFeedbackVector ++ [line] }

def addFormat (pt : UInt32) (option value : Str) (rtp : RtpMap) : RtpMap :=
  if rtp.payloadType = pt then { rtp with formatParameters := rtp.formatParameters.set option value } else rtp

def fmtpBranch (line : Str) : Parser → Except Fault Parser :=
  onFound Marker.fmtp line fun st =>
    let parts := splitOneOf line [' ', ':', '='] 4
    if parts.length ≥ 4 then do
      let pt := strtoul (← part parts 2)
      let (option, value) ←
        if parts.length = 4 then do pure ("none".toList, cStr (← part parts 3))
        else do pure (cStr (← part parts 3), cStr (← part parts 4))
      return { st with info.payloadVector := st.info.payloadVector.map (addFormat pt option value) }
    else .ok st

def bandwidthBranch (line : Str) : Parser → Except Fault Parser :=
  onFound Marker.bas line fun st =>
    let parts := splitOneOf line [':'] 2
    if st.mtype = .videoType ∧ parts.length ≥ 2 then do
      return { st with info.videoBandwidth := strtoul (← part parts 1) }
    else .ok st

/-- The branches of the loop body. -/
inductive Branch
  | rtcpMux | direction | profile | fingerprint | group | video | audio | candidate | crypto | user | pass
  | mid | ssrc | ssrcGroup | rtpmap | extMap | feedback | fmtp | bandwidth
  deriving DecidableEq

namespace Branch

def all : List Branch :=
  [rtcpMux, direction, profile, fingerprint, group, video, audio, candidate, crypto, user, pass, mid, ssrc,
    ssrcGroup, rtpmap, extMap, feedback, fmtp, bandwidth]

def run : Branch → Str → Parser → Except Fault Parser
  | rtcpMux => rtcpMuxBranch
  | direction => directionBranch
  | profile => profileBranch
  | fingerprint => fingerprintBranch
  | group => groupBranch
  | video => videoBranch
  | audio => audioBranch
  | candidate => candidateBranch
  | crypto => cryptoBranch
  | user => userBranch
  | pass => passBranch
  | mid => midBranch
  | ssrc => ssrcBranch
  | ssrcGroup => ssrcGroupBranch
  | rtpmap => rtpmapBranch
  | extMap => extMapBranch
  | feedback => feedbackBranch
  | fmtp => fmtpBranch
  | bandwidth => bandwidthBranch

end Branch

def processLine (st : Parser) (line : Str) : Except Fault Parser :=
  Branch.all.foldlM (fun st b => b.run line st) st

def setCandidate (info : SdpInfo) (c : CandidateInfo) : CandidateInfo :=
  if c.mediaType = .videoType then
    { c with isBundle := info.isBundle, username := info.iceVideoUsername, password := info.iceVideoPassword }
  else { c with isBundle := info.isBundle, username := info.iceAudioUsername, password := info.iceAudioPassword }

def addFeedback (pt : UInt32) (feedback : Str) (rtp : RtpMap) : RtpMap :=
  if rtp.payloadType = pt then { rtp with feedbackTypes := rtp.feedbackTypes ++ [feedback] } else rtp

def mapFeedback (info : SdpInfo) (line : Str) : Except Fault SdpInfo := do
  let parts := splitOneOf line [' ', ':'] 2
  let pt := strtoul (← part parts 1)
  let feedback ← part parts 2
  return { info with payloadVector := info.payloadVector.map (addFeedback pt feedback) }

def fillCredentials (info : SdpInfo) : SdpInfo :=
  if info.iceVideoUsername.isEmpty then
    { info with iceVideoUsername := info.iceAudioUsername, iceVideoPassword := info.iceAudioPassword }
  else if info.iceAudioUsername.isEmpty then
    { info with iceAudioUsername := info.iceVideoUsername, iceAudioPassword := info.iceVideoPassword }
  else info

def fillCandidates (info : SdpInfo) : SdpInfo :=
  { info with candidateVector := info.candidateVector.map (setCandidate info) }

/-- What `processSdp` does behind the loop. -/
def finish (st : Parser) : Except Fault (Bool × SdpInfo) := do
  if st.info.iceVideoUsername.isEmpty ∧ st.info.iceAudioUsername.isEmpty then return (false, st.info)
  let info ← st.tmpFeedbackVector.foldlM mapFeedback (fillCandidates (fillCredentials st.info))
  return (true, info)

end Parser

namespace SdpInfo

def mediaTypeOf (media : Str) : MediaType :=
  if media = "audio".toList then .audioType else if media = "video".toList then .videoType else .other

def processSdp (info : SdpInfo) (sdp media : Str) : Except Fault (Bool × SdpInfo) := do
  let st ← (getlines sdp).foldlM Parser.processLine { info, mtype := mediaTypeOf media }
  st.finish

def initWithSdp (info : SdpInfo) (sdp media : Str) : Except Fault (Bool × SdpInfo) := processSdp info sdp media

end SdpInfo
end Sfup.Sdp
