import Sfup.Sdp.SdpInfo
import Sfup.Lib.Transition
import Mathlib.Data.List.Chain

/-! The state of a connection: `Transport::updateTransportState` of `Transport.h` and `updateState` of
`WebRtcConnection.cpp`. The transports report in any order, and write their state before the connection has the lock.
`none` is a call on a null transport, or one that does not come back from the text of a description. -/
namespace Sfup.Core
open Sfup.Sdp Sfup.Transition

inductive TransportState where
  | initial
  | started
  | gathered
  | ready
  | finished
  | failed
deriving DecidableEq, Repr

inductive WebRTCEvent where
  | initial
  | started
  | gathered
  | ready
  | finished
  | candidate
  | sdp
  | failed
deriving DecidableEq, Repr

/-- What is read of a `DtlsTransport`. -/
structure Transport where
  state : TransportState := .initial
  mediaType : MediaType
  bundle : Bool
  fingerprint : Str
  username : Str
  password : Str

def setCredentials (info : SdpInfo) (username password : Str) : MediaType → SdpInfo
  | .videoType => { info with iceVideoUsername := username, iceVideoPassword := password }
  | .audioType => { info with iceAudioUsername := username, iceAudioPassword := password }
  | .other => { info with iceVideoUsername := username, iceVideoPassword := password,
                          iceAudioUsername := username, iceAudioPassword := password }

def Transport.processLocalSdp (t : Transport) (localSdp : SdpInfo) : SdpInfo :=
  let localSdp := { localSdp with isFingerprint := true, fingerprint := t.fingerprint }
  if t.bundle then setCredentials (setCredentials localSdp t.username t.password .videoType) t.username t.password .audioType
  else setCredentials localSdp t.username t.password t.mediaType

/-- The part of a connection that decides its state. -/
structure Signalling where
  bundle : Bool := false
  trickleEnabled : Bool
  sending : Bool := true
  /-- There is a listener for events. -/
  connEventListener : Bool
  globalState : WebRTCEvent := .initial
  remoteSdp : SdpInfo
  localSdp : SdpInfo
  audioTransport : Option Transport := none
  videoTransport : Option Transport := none

namespace Signalling

/-- What a call gives to the listener, and the candidates it gives to the transports. -/
structure Report where
  notified : Option (WebRTCEvent × Str) := none
  candidates : List (MediaType × List CandidateInfo) := []

def allIn (c : Signalling) (info : SdpInfo) (state : TransportState) : Bool :=
  (!info.hasAudio || c.audioTransport.any (·.state = state)) && (!info.hasVideo || c.videoTransport.any (·.state = state))

def getLocalSdp (rand : ℕ → ℕ) (c : Signalling) : Option (Str × Signalling) :=
  let localSdp := c.videoTransport.elim c.localSdp (·.processLocalSdp c.localSdp)
  let localSdp := if c.bundle then localSdp else c.audioTransport.elim localSdp (·.processLocalSdp localSdp)
  let localSdp := { localSdp with profile := c.remoteSdp.profile }
  (SdpInfo.getSdp rand localSdp).toOption.map fun p => (p.1, { c with localSdp := p.2 })

/-- `setRemoteCandidates` on a transport, which is not checked for null. -/
def setRemoteCandidates (c : Signalling) (t : MediaType) (transport : Option Transport) :
    Option (List (MediaType × List CandidateInfo)) :=
  transport.map fun _ => [(t, c.remoteSdp.candidateVector)]

def passCandidates (c : Signalling) : Option (List (MediaType × List CandidateInfo)) :=
  if c.remoteSdp.candidateVector.isEmpty then some []
  else do
    let video ← if c.remoteSdp.hasVideo then c.setRemoteCandidates .videoType c.videoTransport else some []
    let audio ← if !c.bundle && c.remoteSdp.hasAudio then c.setRemoteCandidates .audioType c.audioTransport else some []
    return video ++ audio

/-- The state and message that a call computes, what it gives to the transports, and the connection. -/
structure Computed where
  temp : WebRTCEvent
  msg : Str := []
  candidates : List (MediaType × List CandidateInfo) := []
  conn : Signalling

def gathered (rand : ℕ → ℕ) (c : Signalling) (candidates : List (MediaType × List CandidateInfo)) : Option Computed :=
  if c.trickleEnabled then some { temp := c.globalState, candidates, conn := c }
  else (c.getLocalSdp rand).map fun p => { temp := .gathered, msg := p.1, candidates, conn := p.2 }

def compute (rand : ℕ → ℕ) (state : TransportState) (c : Signalling) : Option Computed :=
  match state with
  | .started =>
    some { temp := if c.bundle || c.allIn c.remoteSdp .started then .started else c.globalState, conn := c }
  | .gathered =>
    if c.bundle then c.passCandidates.bind (c.gathered rand)
    else if c.allIn c.localSdp .gathered then c.gathered rand []
    else some { temp := c.globalState, conn := c }
  | .ready =>
    some { temp := if c.bundle || c.allIn c.remoteSdp .ready then .ready else c.globalState, conn := c }
  | .failed =>
    (SdpInfo.getSdp rand c.remoteSdp).toOption.map fun p =>
      { temp := .failed, msg := p.1, conn := { c with sending := false, remoteSdp := p.2 } }
  | _ => some { temp := c.globalState, conn := c }

def updateState (rand : ℕ → ℕ) (state : TransportState) (c : Signalling) : Option (Report × Signalling) :=
  if c.videoTransport.isNone && c.audioTransport.isNone then some ({}, c)
  else if c.globalState = .failed then some ({}, c)
  else (c.compute rand state).map fun r =>
    if c.globalState = r.temp then ({ candidates := r.candidates }, r.conn)
    else
      ({ notified := if c.connEventListener then some (r.temp, r.msg) else none, candidates := r.candidates },
        { r.conn with globalState := r.temp })

/-- The two transports. -/
inductive Which where
  | audio
  | video
deriving DecidableEq

def transport (c : Signalling) : Which → Option Transport
  | .audio => c.audioTransport
  | .video => c.videoTransport

def setState (which : Which) (state : TransportState) (c : Signalling) : Signalling :=
  match which with
  | .audio => { c with audioTransport := c.audioTransport.map ({ · with state }) }
  | .video => { c with videoTransport := c.videoTransport.map ({ · with state }) }

/-- A state is reported when it changes. -/
def updateTransportState (rand : ℕ → ℕ) (which : Which) (state : TransportState) (c : Signalling) :
    Option (Report × Signalling) :=
  if (c.transport which).all (·.state = state) then some ({}, c) else (c.setState which state).updateState rand state

/-- Reports, of which the state may have been written some time before, and what negotiation changes. -/
inductive Event where
  | updateTransportState (rand : ℕ → ℕ) (which : Which) (state : TransportState)
  | setState (which : Which) (state : TransportState)
  | updateState (rand : ℕ → ℕ) (state : TransportState)
  | negotiate (bundle : Bool) (remoteSdp localSdp : SdpInfo) (audioTransport videoTransport : Option Transport)

def step (c : Signalling) : Event → Option (Report × Signalling)
  | .updateTransportState rand which state => c.updateTransportState rand which state
  | .setState which state => some ({}, c.setState which state)
  | .updateState rand state => c.updateState rand state
  | .negotiate bundle remoteSdp localSdp audioTransport videoTransport =>
    some ({}, { c with bundle, remoteSdp, localSdp, audioTransport, videoTransport })

/-! ## One call -/

section Call
variable {rand : ℕ → ℕ} {state : TransportState} {c c' : Signalling} {r : Report}

def SameSetting (c c' : Signalling) : Prop :=
  c'.bundle = c.bundle ∧ c'.connEventListener = c.connEventListener ∧ c'.audioTransport = c.audioTransport ∧
    c'.videoTransport = c.videoTransport

/-- Each media of the remote description has a transport in the state. -/
def EachIn (c : Signalling) (state : TransportState) : Prop :=
  (c.remoteSdp.hasAudio = true → ∃ t, c.audioTransport = some t ∧ t.state = state) ∧
    (c.remoteSdp.hasVideo = true → ∃ t, c.videoTransport = some t ∧ t.state = state)

/-- What a new state tells of the transports, when each media has its own. -/
structure Justified (c : Signalling) : Prop where
  started : c.bundle = false → c.globalState = .started → c.EachIn .started
  ready : c.bundle = false → c.globalState = .ready → c.EachIn .ready

private theorem gathered_spec {candidates : List (MediaType × List CandidateInfo)} {d : Computed}
    (h : c.gathered rand candidates = some d) :
    SameSetting c d.conn ∧ d.conn.globalState = c.globalState ∧ (d.temp = c.globalState ∨ d.temp = .gathered) := by
  unfold gathered at h
  split_ifs at h
  · cases h
    exact ⟨⟨rfl, rfl, rfl, rfl⟩, rfl, Or.inl rfl⟩
  · obtain ⟨p, hp, rfl⟩ := Option.map_eq_some_iff.mp h
    obtain ⟨q, -, rfl⟩ := Option.map_eq_some_iff.mp hp
    exact ⟨⟨rfl, rfl, rfl, rfl⟩, rfl, Or.inr rfl⟩

private theorem eachIn_of_or (hb : c.bundle = false) (h : (c.bundle || c.allIn c.remoteSdp state) = true) :
    c.EachIn state := by
  rw [hb, Bool.false_or, allIn, Bool.and_eq_true] at h
  have hany : ∀ {present : Bool} {transport : Option Transport},
      (!present || transport.any (·.state = state)) = true → present = true → ∃ t, transport = some t ∧ t.state = state := by
    intro present transport hor hpresent
    rw [hpresent, Bool.not_true, Bool.false_or, Option.any_eq_true] at hor
    obtain ⟨t, ht, hstate⟩ := hor
    exact ⟨t, ht, of_decide_eq_true hstate⟩
  exact ⟨hany h.1, hany h.2⟩

/-- The state that is computed is the old one, or one that the transports justify. -/
theorem compute_spec {d : Computed} (h : c.compute rand state = some d) :
    SameSetting c d.conn ∧ d.conn.globalState = c.globalState ∧
      (d.temp = c.globalState ∨ Justified { d.conn with globalState := d.temp }) := by
  have hgathered : ∀ candidates, c.gathered rand candidates = some d → SameSetting c d.conn ∧
      d.conn.globalState = c.globalState ∧ (d.temp = c.globalState ∨ Justified { d.conn with globalState := d.temp }) := by
    intro candidates hd
    obtain ⟨hset, hstate, htemp⟩ := gathered_spec hd
    refine ⟨hset, hstate, htemp.imp_right fun hd' => ?_⟩
    rw [hd']
    exact ⟨nofun, nofun⟩
  cases state with
  | started =>
    cases h
    refine ⟨⟨rfl, rfl, rfl, rfl⟩, rfl, ?_⟩
    by_cases hall : (c.bundle || c.allIn c.remoteSdp .started) = true
    · simp only [if_pos hall]
      exact Or.inr ⟨fun hb _ => eachIn_of_or hb hall, fun _ => nofun⟩
    · exact Or.inl (if_neg hall)
  | gathered =>
    simp only [compute] at h
    split_ifs at h
    · obtain ⟨candidates, -, hd⟩ := Option.bind_eq_some_iff.mp h
      exact hgathered _ hd
    · exact hgathered _ h
    · cases h
      exact ⟨⟨rfl, rfl, rfl, rfl⟩, rfl, Or.inl rfl⟩
  | ready =>
    cases h
    refine ⟨⟨rfl, rfl, rfl, rfl⟩, rfl, ?_⟩
    by_cases hall : (c.bundle || c.allIn c.remoteSdp .ready) = true
    · simp only [if_pos hall]
      exact Or.inr ⟨fun _ => nofun, fun hb _ => eachIn_of_or hb hall⟩
    · exact Or.inl (if_neg hall)
  | failed =>
    obtain ⟨p, -, rfl⟩ := Option.map_eq_some_iff.mp h
    exact ⟨⟨rfl, rfl, rfl, rfl⟩, rfl, Or.inr ⟨fun _ => nofun, fun _ => nofun⟩⟩
  | _ =>
    cases h
    exact ⟨⟨rfl, rfl, rfl, rfl⟩, rfl, Or.inl rfl⟩

/-- What a call does to the state: nothing, or it moves on from a state that is not the failed one, and tells the
listener the new state. -/
inductive Moved (c : Signalling) (r : Report) (c' : Signalling) : Prop
  | idle (hstate : c'.globalState = c.globalState) (hnone : r.notified = none)
  | moves (hfailed : c.globalState ≠ .failed) (hne : c'.globalState ≠ c.globalState)
      (htold : r.notified.map Prod.fst = if c.connEventListener then some c'.globalState else none) (hjust : Justified c')

private theorem updateState_moved (h : c.updateState rand state = some (r, c')) : SameSetting c c' ∧ Moved c r c' := by
  unfold updateState at h
  by_cases hnull : (c.videoTransport.isNone && c.audioTransport.isNone) = true
  · rw [if_pos hnull] at h
    cases h
    exact ⟨⟨rfl, rfl, rfl, rfl⟩, .idle rfl rfl⟩
  rw [if_neg hnull] at h
  by_cases hfailed : c.globalState = .failed
  · rw [if_pos hfailed] at h
    cases h
    exact ⟨⟨rfl, rfl, rfl, rfl⟩, .idle rfl rfl⟩
  rw [if_neg hfailed] at h
  obtain ⟨d, hd, heq⟩ := Option.map_eq_some_iff.mp h
  obtain ⟨hset, hstate, htemp⟩ := compute_spec hd
  by_cases hsame : c.globalState = d.temp
  · rw [if_pos hsame] at heq
    cases heq
    exact ⟨hset, .idle hstate rfl⟩
  · rw [if_neg hsame] at heq
    cases heq
    refine ⟨hset, .moves hfailed (Ne.symm hsame) ?_ (htemp.resolve_left (Ne.symm hsame))⟩
    cases c.connEventListener <;> rfl

private theorem setState_keeps (which : Which) (state : TransportState) (c : Signalling) :
    (c.setState which state).globalState = c.globalState ∧
      (c.setState which state).connEventListener = c.connEventListener := by
  cases which <;> exact ⟨rfl, rfl⟩

/-- A step of any kind moves on as a call does. -/
theorem step_moved {e : Event} (h : c.step e = some (r, c')) :
    c'.connEventListener = c.connEventListener ∧ Moved c r c' := by
  cases e with
  | updateTransportState rand which state =>
    simp only [step, updateTransportState] at h
    split_ifs at h
    · cases h
      exact ⟨rfl, .idle rfl rfl⟩
    · obtain ⟨⟨-, hlistener, -⟩, hmoved⟩ := updateState_moved h
      obtain ⟨hstate, hset⟩ := setState_keeps which state c
      refine ⟨hlistener.trans hset, ?_⟩
      cases hmoved with
      | idle hsame hnone => exact .idle (hsame.trans hstate) hnone
      | moves hfailed hne htold hjust =>
        rw [hstate] at hfailed hne
        rw [hset] at htold
        exact .moves hfailed hne htold hjust
  | setState which state =>
    cases h
    obtain ⟨hstate, hset⟩ := setState_keeps which state c
    exact ⟨hset, .idle hstate rfl⟩
  | updateState rand state =>
    obtain ⟨⟨-, hlistener, -⟩, hmoved⟩ := updateState_moved h
    exact ⟨hlistener, hmoved⟩
  | negotiate =>
    cases h
    exact ⟨rfl, .idle rfl rfl⟩

end Call

/-! ## Runs -/

section Runs
variable {c c' : Signalling} {es : List Event} {rs : List Report}

/-- The states the listener is told, in their order. -/
def notifications (rs : List Report) : List WebRTCEvent := rs.filterMap fun r => r.notified.map Prod.fst

theorem notifications_cons (r : Report) (rs : List Report) :
    notifications (r :: rs) = (r.notified.map Prod.fst).toList ++ notifications rs := by
  unfold notifications
  rw [List.filterMap_cons]
  cases r.notified <;> rfl

/-- In the failed state the listener hears nothing any more. -/
theorem run_failed (hfailed : c.globalState = .failed) (h : run? step c es = some (rs, c')) :
    c'.globalState = .failed ∧ notifications rs = [] := by
  induction es generalizing c rs with
  | nil =>
    cases h
    exact ⟨hfailed, rfl⟩
  | cons e es ih =>
    obtain ⟨r, c₁, rs₁, h₁, h₂, rfl⟩ := run?_cons_eq_some.mp h
    cases (step_moved h₁).2 with
    | idle hstate hnone =>
      obtain ⟨hend, hrest⟩ := ih (hstate.trans hfailed) h₂
      refine ⟨hend, ?_⟩
      rw [notifications_cons, hnone, hrest]
      rfl
    | moves hne => exact absurd hfailed hne

theorem run_silent (hnone : c.connEventListener = false) (h : run? step c es = some (rs, c')) : notifications rs = [] := by
  induction es generalizing c rs with
  | nil =>
    cases h
    rfl
  | cons e es ih =>
    obtain ⟨r, c₁, rs₁, h₁, h₂, rfl⟩ := run?_cons_eq_some.mp h
    obtain ⟨hlistener, hmoved⟩ := step_moved h₁
    have htold : r.notified.map Prod.fst = none := by
      cases hmoved with
      | idle _ hidle => rw [hidle, Option.map_none]
      | moves _ _ htold _ => rw [htold, hnone, if_neg Bool.false_ne_true]
    rw [notifications_cons, htold, ih (hlistener.trans hnone) h₂]
    rfl

/-- Each state that is told is another one than the one before. -/
theorem run_changes (h : run? step c es = some (rs, c')) : (c.globalState :: notifications rs).IsChain (· ≠ ·) := by
  cases hlistener : c.connEventListener with
  | false =>
    rw [run_silent hlistener h]
    exact List.isChain_singleton _
  | true =>
    induction es generalizing c rs with
    | nil =>
      cases h
      exact List.isChain_singleton _
    | cons e es ih =>
      obtain ⟨r, c₁, rs₁, h₁, h₂, rfl⟩ := run?_cons_eq_some.mp h
      obtain ⟨hsame, hmoved⟩ := step_moved h₁
      have hrest := ih h₂ (hsame.trans hlistener)
      rw [notifications_cons]
      cases hmoved with
      | idle hstate hnone =>
        rw [hnone, ← hstate]
        exact hrest
      | moves _ hne htold _ =>
        rw [htold, hlistener, if_pos rfl]
        exact List.isChain_cons_cons.mpr ⟨hne.symm, hrest⟩

/-- The states that are told for the transports of each media are those of all of them. -/
theorem step_justified (c : Signalling) (e : Event) : ∀ r c₁, c.step e = some (r, c₁) → c₁.bundle = false →
    (∀ msg, r.notified = some (.ready, msg) → c₁.EachIn .ready) ∧
      (∀ msg, r.notified = some (.started, msg) → c₁.EachIn .started) := by
  intro r c₁ h hb
  cases (step_moved h).2 with
  | idle _ hnone =>
    rw [hnone]
    exact ⟨nofun, nofun⟩
  | moves _ _ htold hjust =>
    have hstate : ∀ {event msg}, r.notified = some (event, msg) → c₁.globalState = event := by
      intro event msg hmsg
      rw [hmsg] at htold
      split_ifs at htold
      · exact (Option.some.inj htold).symm
      · cases htold
    exact ⟨fun _ hmsg => hjust.ready hb (hstate hmsg), fun _ hmsg => hjust.started hb (hstate hmsg)⟩

/-- However the transports report, the failed state is kept in silence, no state is told twice in a row, and without a
bundle the connection is ready or started only when the transports of all media are. -/
theorem notifications_run (h : run? step c es = some (rs, c')) :
    (c.globalState = .failed → c'.globalState = .failed ∧ notifications rs = []) ∧
    (c.globalState :: notifications rs).IsChain (· ≠ ·) ∧
    Along step (fun c e => ∀ r c₁, c.step e = some (r, c₁) → c₁.bundle = false →
      (∀ msg, r.notified = some (.ready, msg) → c₁.EachIn .ready) ∧
        (∀ msg, r.notified = some (.started, msg) → c₁.EachIn .started)) c es :=
  ⟨fun hfailed => run_failed hfailed h, run_changes h, along_of_forall step_justified c es⟩

/-- Both media, each on its own transport. -/
def separateExample : Signalling :=
  let info : SdpInfo := { SdpInfo.new .sendRecv .sendRecv with hasAudio := true, hasVideo := true }
  let transport (t : MediaType) : Transport :=
    { mediaType := t, bundle := false, fingerprint := [], username := [], password := [] }
  { trickleEnabled := false, connEventListener := true, remoteSdp := info, localSdp := info
    audioTransport := some (transport .audioType), videoTransport := some (transport .videoType) }

theorem notifications_separateExample : ∃ rs c', run? step separateExample
      [.updateTransportState (fun _ => 0) .audio .ready, .updateTransportState (fun _ => 0) .video .ready,
       .updateTransportState (fun _ => 0) .video .failed, .updateState (fun _ => 0) .ready] = some (rs, c') ∧
    notifications rs = [.ready, .failed] ∧
    (separateExample.globalState :: notifications rs).IsChain (· ≠ ·) := by
  have hrun : (run? step separateExample
      [.updateTransportState (fun _ => 0) .audio .ready, .updateTransportState (fun _ => 0) .video .ready,
       .updateTransportState (fun _ => 0) .video .failed, .updateState (fun _ => 0) .ready]).map
      (fun p => notifications p.1) = some [.ready, .failed] := by decide +kernel
  obtain ⟨⟨rs, c'⟩, h, hrs⟩ := Option.map_eq_some_iff.mp hrun
  exact ⟨rs, c', h, hrs, (notifications_run h).2.1⟩

end Runs
end Signalling
end Sfup.Core
