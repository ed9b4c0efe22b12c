import Sfup.Core.DtlsStates

/-! What `write` of `DtlsTransport.cpp` gives to the network. A packet that went through no channel, or through one
without keys, is sent as well; what keeps it back is the order of the handshake, the state and ICE. -/
namespace Sfup.Core
open Sfup.Rtp Sfup.Transition

namespace SrtpChannel
variable {Session : Type} {lib : Libsrtp Session} {channel : SrtpChannel Session}

theorem active_setRtpParams {sendingKey receivingKey : Sdp.Str} :
    (channel.setRtpParams lib sendingKey receivingKey).2.active =
      ((channel.setRtpParams lib sendingKey receivingKey).1 || channel.active) := by
  unfold setRtpParams
  cases lib.create .sending sendingKey with
  | none => rfl
  | some send => cases lib.create .receiving receivingKey <;> rfl

end SrtpChannel

namespace DtlsTransport
variable {Session : Type} {lib : Libsrtp Session}

def srtpProtect (lib : Libsrtp Session) (rtcp : Bool) : Session → Buffer → ℕ × Buffer × Session :=
  if rtcp then lib.protectRtcp else lib.protect

/-- The buffer is the result of a successful call on a channel that has its keys, and the component and the channel are
those of its kind. -/
def Protected (lib : Libsrtp Session) (rtcpMux : Bool) (comp : ℕ) (buffer : Buffer)
    (protection : Option (Protection Session)) : Prop :=
  ∃ p session session', protection = some p ∧ p.channel.active = true ∧ p.channel.sendSession = some session ∧
    let rtcp := RtcpHeader.isRtcp p.packet.data 0
    srtpProtect lib rtcp session p.packet = (0, buffer, session') ∧
      comp = (if rtcp && !rtcpMux then 2 else 1) ∧ p.context = if rtcp && !rtcpMux then .rtcp else .rtp

/-- A handshake is completed once for each context, and not before ICE was ready. -/
def Admissible (t : DtlsTransport Session) : Event → Prop
  | .createChannel ctx _ _ => t.channel ctx = none ∧ IceState.ready.toNat ≤ t.nice.iceState.toNat
  | _ => True

/-- No handshake makes the transport ready while a `write` that needs `srtp_` and found it null is before its check of
the state. -/
def Apart (t : DtlsTransport Session) : Event → Prop
  | .completeHandshake => t.readyRtp = true → t.readyRtcp = true → ∀ packet, t.writing = .entered packet false →
    (RtcpHeader.isRtcp (t.copied packet) 0 && t.dtlsRtcp) = true
  | _ => True

/-! ## The invariant -/

def Active (t : DtlsTransport Session) (ctx : Context) : Prop :=
  ∃ channel, t.channel ctx = some channel ∧ channel.active = true

def PastIce (t : DtlsTransport Session) : Prop := IceState.ready.toNat ≤ t.nice.iceState.toNat

/-- What a `write` relies on where it is. -/
def Relies (lib : Libsrtp Session) (t : DtlsTransport Session) : Writing Session → Prop
  | .idle => True
  | .entered packet srtp => t.state = .ready → srtp = false →
    (RtcpHeader.isRtcp (t.copied packet) 0 && t.dtlsRtcp) = true
  | .checked comp channel _ => t.PastIce ∧
    let rtcp := RtcpHeader.isRtcp t.protectBuf 0
    comp = t.comp rtcp ∧ ∃ ctx, channel = some ctx ∧ ctx = (if rtcp && !t.rtcpMux then .rtcp else .rtp) ∧ t.Active ctx
  | .passed comp protection length => t.PastIce ∧
    (t.nice.iceState = .ready → Protected lib t.rtcpMux comp ⟨t.protectBuf, length⟩ protection)

/-- The flags tell of channels with keys, and a ready transport of the flags. -/
structure Guarded (lib : Libsrtp Session) (mux : Bool) (t : DtlsTransport Session) : Prop where
  rtcpMux : t.rtcpMux = mux
  dtlsRtcp : t.dtlsRtcp = !t.rtcpMux
  readyRtp : t.readyRtp = true → t.Active .rtp ∧ t.PastIce
  readyRtcp : t.readyRtcp = true → t.dtlsRtcp = true → t.Active .rtcp
  ready : t.state = .ready → t.readyRtp = true ∧ t.readyRtcp = true
  created : ∀ ctx sendingKey receivingKey, t.handshaking = .created ctx sendingKey receivingKey → t.PastIce
  writing : Relies lib t t.writing

/-! ## What other threads do to a `write` -/

/-- The channels keep their keys, ICE does not go back and the transport does not become ready. -/
structure Keeps (t t' : DtlsTransport Session) : Prop where
  rtcpMux : t'.rtcpMux = t.rtcpMux
  dtlsRtcp : t'.dtlsRtcp = t.dtlsRtcp
  active : ∀ ctx, t.Active ctx → t'.Active ctx
  iceState : t.nice.iceState.toNat ≤ t'.nice.iceState.toNat
  ready : t'.state = .ready → t.state = .ready

section Steps
variable {t t' : DtlsTransport Session} {r : Output Session × DtlsTransport Session} {ctx : Context} {mux : Bool}

theorem Keeps.pastIce (hk : Keeps t t') (h : t.PastIce) : t'.PastIce := h.trans hk.iceState

/-- ICE is not ready again once it was left. -/
theorem Keeps.iceState_ready (hk : Keeps t t') (h : t.PastIce) (hr : t'.nice.iceState = .ready) :
    t.nice.iceState = .ready := by
  have hle := hk.iceState
  rw [hr] at hle
  have hge : IceState.ready.toNat ≤ t.nice.iceState.toNat := h
  cases hi : t.nice.iceState <;> simp_all [IceState.toNat]

theorem Relies.keep {w : Writing Session} (h : Relies lib t w) (hk : Keeps t t') (hb : t'.protectBuf = t.protectBuf) :
    Relies lib t' w := by
  cases w with
  | idle => trivial
  | entered packet srtp =>
    intro hready hsrtp
    have hcopied : t'.copied packet = t.copied packet := by
      funext i
      simp only [copied, hb]
    rw [hcopied, hk.dtlsRtcp]
    exact h (hk.ready hready) hsrtp
  | checked comp channel length =>
    obtain ⟨hpast, hcomp, ctx, hchannel, hctx, hactive⟩ := h
    refine ⟨hk.pastIce hpast, ?_, ctx, hchannel, ?_, hk.active ctx hactive⟩
    · simp only [DtlsTransport.comp, hb, hk.rtcpMux] at hcomp ⊢
      exact hcomp
    · rw [hb, hk.rtcpMux]
      exact hctx
  | passed comp protection length =>
    obtain ⟨hpast, hprot⟩ := h
    refine ⟨hk.pastIce hpast, fun hr => ?_⟩
    rw [hb, hk.rtcpMux]
    exact hprot (hk.iceState_ready hpast hr)

/-- The rest of the invariant does not depend on the `write`. -/
theorem Guarded.keep (h : Guarded lib mux t) (hk : Keeps t t') (hrtp : t'.readyRtp = t.readyRtp)
    (hrtcp : t'.readyRtcp = t.readyRtcp) (hs : t'.handshaking = t.handshaking) (hw : Relies lib t' t'.writing) :
    Guarded lib mux t' := by
  refine ⟨hk.rtcpMux.trans h.rtcpMux, ?_, ?_, ?_, ?_, ?_, hw⟩
  · rw [hk.dtlsRtcp, hk.rtcpMux]
    exact h.dtlsRtcp
  · intro hflag
    obtain ⟨hactive, hpast⟩ := h.readyRtp (hrtp.symm.trans hflag)
    exact ⟨hk.active .rtp hactive, hk.pastIce hpast⟩
  · intro hflag hd
    exact hk.active .rtcp (h.readyRtcp (hrtcp.symm.trans hflag) (hk.dtlsRtcp.symm.trans hd))
  · intro hready
    rw [hrtp, hrtcp]
    exact h.ready (hk.ready hready)
  · intro ctx sendingKey receivingKey hc
    exact hk.pastIce (h.created ctx sendingKey receivingKey (hs.symm.trans hc))

/-! ## One step -/

private theorem active_setChannel_of_ne {channel : SrtpChannel Session} {ctx' : Context} (hne : ctx' ≠ ctx) :
    (t.setChannel ctx channel).Active ctx' ↔ t.Active ctx' := by
  cases ctx <;> cases ctx' <;> first | exact absurd rfl hne | exact Iff.rfl

theorem channel_setChannel {channel : SrtpChannel Session} : (t.setChannel ctx channel).channel ctx = some channel := by
  cases ctx <;> rfl

/-- A channel may take the place of one that had no keys, or of none. -/
theorem keeps_setChannel {channel : SrtpChannel Session} (h : t.Active ctx → channel.active = true) :
    Keeps t (t.setChannel ctx channel) := by
  have hactive : ∀ ctx', t.Active ctx' → (t.setChannel ctx channel).Active ctx' := by
    intro ctx' ha
    by_cases he : ctx' = ctx
    · subst he
      exact ⟨channel, channel_setChannel, h ha⟩
    · exact (active_setChannel_of_ne he).mpr ha
  cases ctx <;> exact ⟨rfl, rfl, hactive, Nat.le_refl _, id⟩

theorem flags_setChannel (t : DtlsTransport Session) (ctx : Context) (channel : SrtpChannel Session) :
    (t.setChannel ctx channel).readyRtp = t.readyRtp ∧ (t.setChannel ctx channel).readyRtcp = t.readyRtcp ∧
      (t.setChannel ctx channel).protectBuf = t.protectBuf ∧ (t.setChannel ctx channel).writing = t.writing ∧
        (t.setChannel ctx channel).handshaking = t.handshaking := by
  cases ctx <;> exact ⟨rfl, rfl, rfl, rfl, rfl⟩

theorem guarded_createChannel {clientKey serverKey : Sdp.Str} (h : Guarded lib mux t)
    (ha : Admissible t (.createChannel ctx clientKey serverKey))
    (hs : t.createChannel ctx clientKey serverKey = some r) : Guarded lib mux r.2 := by
  obtain ⟨-, -, sendingKey, receivingKey, rfl⟩ := createChannel_cases hs
  have hkeep : Keeps t (t.setChannel ctx ({} : SrtpChannel Session)) := by
    refine keeps_setChannel ?_
    rintro ⟨channel, hchannel, -⟩
    rw [ha.1] at hchannel
    cases hchannel
  obtain ⟨hrtp, hrtcp, hbuf, hwriting, hshake⟩ := flags_setChannel t ctx {}
  have hrelies : Relies lib (t.setChannel ctx {}) (t.setChannel ctx {}).writing := by
    rw [hwriting]
    exact h.writing.keep hkeep hbuf
  have hg := h.keep hkeep hrtp hrtcp hshake hrelies
  exact ⟨hg.rtcpMux, hg.dtlsRtcp, hg.readyRtp, hg.readyRtcp, hg.ready, fun _ _ _ _ => hkeep.pastIce ha.2, hg.writing⟩

private theorem guarded_setReady (h : Guarded lib mux t) (hactive : t.Active ctx) (hpast : t.PastIce) :
    Guarded lib mux (t.setReady ctx) := by
  cases ctx with
  | rtp =>
    refine ⟨h.rtcpMux, h.dtlsRtcp, fun _ => ⟨hactive, hpast⟩, h.readyRtcp, fun hr => ⟨rfl, (h.ready hr).2⟩, h.created, ?_⟩
    exact h.writing.keep ⟨rfl, rfl, fun _ => id, Nat.le_refl _, id⟩ rfl
  | rtcp =>
    refine ⟨h.rtcpMux, h.dtlsRtcp, h.readyRtp, fun _ _ => hactive, fun hr => ⟨(h.ready hr).1, rfl⟩, h.created, ?_⟩
    exact h.writing.keep ⟨rfl, rfl, fun _ => id, Nat.le_refl _, id⟩ rfl

private theorem guarded_setMuxReady (h : Guarded lib mux t) : Guarded lib mux (t.setMuxReady ctx) := by
  unfold setMuxReady
  split_ifs with hc
  · rw [Bool.and_eq_true, Bool.not_eq_true'] at hc
    refine ⟨h.rtcpMux, h.dtlsRtcp, h.readyRtp, fun _ hd => ?_, fun hr => ⟨(h.ready hr).1, rfl⟩, h.created, ?_⟩
    · exact absurd (hc.2.symm.trans hd) (by decide)
    · exact h.writing.keep ⟨rfl, rfl, fun _ => id, Nat.le_refl _, id⟩ rfl
  · exact h

theorem guarded_updateTransportState {state : TransportState} (h : Guarded lib mux t) (hs : state ≠ .ready) :
    Guarded lib mux (t.updateTransportState state).2 := by
  unfold updateTransportState
  split_ifs
  · exact h
  all_goals
    have hkeep : Keeps t { t with state } := ⟨rfl, rfl, fun _ => id, Nat.le_refl _, fun hr => absurd hr hs⟩
    exact h.keep hkeep rfl rfl rfl (h.writing.keep hkeep rfl)

theorem guarded_configureChannel (h : Guarded lib mux t) (hs : t.configureChannel lib = some r) : Guarded lib mux r.2 := by
  obtain ⟨ctx, sendingKey, receivingKey, channel, hcreated, hchannel, hr⟩ := configureChannel_cases hs
  have hkeep : Keeps t (t.setChannel ctx (channel.setRtpParams lib sendingKey receivingKey).2) := by
    refine keeps_setChannel ?_
    rintro ⟨channel', hchannel', hactive⟩
    obtain rfl := Option.some.inj (hchannel.symm.trans hchannel')
    rw [SrtpChannel.active_setRtpParams, hactive, Bool.or_true]
  obtain ⟨hrtp, hrtcp, hbuf, hwriting, hshake⟩ := flags_setChannel t ctx
    (channel.setRtpParams lib sendingKey receivingKey).2
  have hpast := hkeep.pastIce (h.created ctx sendingKey receivingKey hcreated)
  have hset : Guarded lib mux { t.setChannel ctx (channel.setRtpParams lib sendingKey receivingKey).2 with
      handshaking := .configured } := by
    have hg := h.keep hkeep hrtp hrtcp hshake (by rw [hwriting]; exact h.writing.keep hkeep hbuf)
    exact ⟨hg.rtcpMux, hg.dtlsRtcp, hg.readyRtp, hg.readyRtcp, hg.ready, fun _ _ _ hc => (by cases hc), hg.writing⟩
  rcases hr with ⟨hok, rfl⟩ | ⟨-, rfl⟩
  · refine guarded_setMuxReady (guarded_setReady hset ?_ hpast)
    refine ⟨_, channel_setChannel (t := t), ?_⟩
    rw [SrtpChannel.active_setRtpParams, hok, Bool.true_or]
  · exact guarded_setMuxReady (guarded_updateTransportState hset (by decide))

theorem guarded_completeHandshake (h : Guarded lib mux t) (ha : Apart t .completeHandshake)
    (hs : t.completeHandshake = some r) : Guarded lib mux r.2 := by
  obtain ⟨-, rfl⟩ := completeHandshake_cases hs
  have hidle : Guarded lib mux { t with handshaking := .idle } :=
    ⟨h.rtcpMux, h.dtlsRtcp, h.readyRtp, h.readyRtcp, h.ready, fun _ _ _ hc => (by cases hc), h.writing⟩
  split_ifs with hflags
  · rw [Bool.and_eq_true] at hflags
    unfold updateTransportState
    split_ifs
    · exact hidle
    all_goals
      refine ⟨h.rtcpMux, h.dtlsRtcp, h.readyRtp, h.readyRtcp, fun _ => hflags, fun _ _ _ hc => (by cases hc), ?_⟩
      have hw := h.writing
      cases hwriting : t.writing with
      | entered packet srtp =>
        rintro - rfl
        exact ha hflags.1 hflags.2 packet hwriting
      | _ =>
        rw [hwriting] at hw
        exact hw
  · exact hidle

theorem keeps_of_nice {nice : NiceConnection} (h : t.nice.iceState.toNat ≤ nice.iceState.toNat) :
    Keeps t { t with nice } :=
  ⟨rfl, rfl, fun _ => id, h, id⟩

theorem guarded_close (h : Guarded lib mux t) : Guarded lib mux t.close.2 := by
  have hmono := (NiceConnection.aggregates_close (c := { t.nice with listener := false })).1.mono
  simp only [close]
  split_ifs
  all_goals
    refine h.keep ?_ rfl rfl rfl (h.writing.keep ?_ rfl) <;>
      exact ⟨rfl, rfl, fun _ => id, hmono, fun hr => (by first | exact hr | cases hr)⟩

theorem guarded_updateIceState {state : IceState} (h : Guarded lib mux t) : Guarded lib mux (t.updateIceState state).2 := by
  have hkeep : ∀ rtpStarted rtcpStarted, Keeps t { t with rtpStarted, rtcpStarted } :=
    fun _ _ => ⟨rfl, rfl, fun _ => id, Nat.le_refl _, id⟩
  have hstopped : Guarded lib mux { t with running := false } :=
    h.keep ⟨rfl, rfl, fun _ => id, Nat.le_refl _, id⟩ rfl rfl rfl h.writing
  unfold updateIceState
  split_ifs
  · exact guarded_updateTransportState h (by decide)
  · exact guarded_updateTransportState h (by decide)
  · exact guarded_updateTransportState hstopped (by decide)
  · exact h.keep (hkeep _ _) rfl rfl rfl (h.writing.keep (hkeep _ _) rfl)
  · exact h

theorem guarded_onHandshakeFailed (h : Guarded lib mux t) : Guarded lib mux t.onHandshakeFailed.2 :=
  guarded_updateTransportState (h.keep ⟨rfl, rfl, fun _ => id, Nat.le_refl _, id⟩ rfl rfl rfl h.writing) (by decide)

private theorem guarded_setResends {n : ℕ} (h : Guarded lib mux t) : Guarded lib mux (t.setResends ctx n) := by
  cases ctx <;> exact h.keep ⟨rfl, rfl, fun _ => id, Nat.le_refl _, id⟩ rfl rfl rfl h.writing

theorem guarded_resend {cancelled : Bool} (h : Guarded lib mux t) : Guarded lib mux (t.resend ctx cancelled).2 := by
  unfold resend
  split_ifs
  · exact h
  · exact guarded_setResends h
  · exact guarded_setResends h
  · exact guarded_onHandshakeFailed (guarded_setResends h)

theorem guarded_enterWrite {packet : Buffer} (h : Guarded lib mux t) (hs : t.enterWrite packet = some r) :
    Guarded lib mux r.2 := by
  obtain rfl := enterWrite_cases hs
  refine h.keep ⟨rfl, rfl, fun _ => id, Nat.le_refl _, id⟩ rfl rfl rfl ?_
  intro hready hnull
  obtain ⟨channel, hchannel, -⟩ := (h.readyRtp (h.ready hready).1).1
  have hsome : t.srtp.isSome = true := Option.isSome_iff_exists.mpr ⟨channel, hchannel⟩
  exact absurd (hnull.symm.trans hsome) (by decide)

/-- In a ready transport the packet gets a channel that has its keys. -/
theorem guarded_checkWrite (h : Guarded lib mux t) (hs : t.checkWrite = some r) : Guarded lib mux r.2 := by
  obtain ⟨packet, srtp, hentered, ⟨-, rfl⟩ | ⟨hready, rfl⟩⟩ := checkWrite_cases hs
  · exact h.keep ⟨rfl, rfl, fun _ => id, Nat.le_refl _, id⟩ rfl rfl rfl trivial
  · refine h.keep ⟨rfl, rfl, fun _ => id, Nat.le_refl _, id⟩ rfl rfl rfl ?_
    obtain ⟨hrtp, hrtcp⟩ := h.ready hready
    obtain ⟨hactive, hpast⟩ := h.readyRtp hrtp
    have hw : Relies lib t (.entered packet srtp) := hentered ▸ h.writing
    refine ⟨hpast, rfl, ?_⟩
    simp only []
    generalize hk : RtcpHeader.isRtcp (t.copied packet) 0 = rtcp at hw
    by_cases hown : (rtcp && t.dtlsRtcp) = true
    · have hmux : (rtcp && !t.rtcpMux) = true := h.dtlsRtcp ▸ hown
      have hd := (Bool.and_eq_true _ _ ▸ hown : rtcp = true ∧ t.dtlsRtcp = true).2
      obtain ⟨channel, hchannel, hkeys⟩ := h.readyRtcp hrtcp hd
      have hsome : t.srtcp.isSome = true := Option.isSome_iff_exists.mpr ⟨channel, hchannel⟩
      refine ⟨.rtcp, ?_, (if_pos hmux).symm, channel, hchannel, hkeys⟩
      rw [chosen, if_pos hown, if_pos hsome]
    · have hmux : ¬ (rtcp && !t.rtcpMux) = true := h.dtlsRtcp ▸ hown
      refine ⟨.rtp, ?_, (if_neg hmux).symm, hactive⟩
      cases srtp with
      | true => rw [chosen, if_neg hown, if_pos rfl]
      | false =>
        refine absurd ?_ hown
        rw [← hk]
        exact hw hready rfl

/-- A successful call on a channel with keys. -/
theorem protect_spec {before after : SrtpChannel Session} {packet buffer : Buffer} {ok : Bool}
    (h : protect lib before packet = some (ok, buffer, after)) (hactive : before.active = true) :
    after.active = true ∧ (ok = true → ∃ session session', before.sendSession = some session ∧
      srtpProtect lib (RtcpHeader.isRtcp packet.data 0) session packet = (0, buffer, session')) := by
  have hcall : ∀ rtcp, before.sendSession.map (fun session => before.finish (srtpProtect lib rtcp session packet)) =
      some (ok, buffer, after) → after.active = true ∧ (ok = true → ∃ session session',
        before.sendSession = some session ∧ srtpProtect lib rtcp session packet = (0, buffer, session')) := by
    intro rtcp hmap
    obtain ⟨session, hsession, heq⟩ := Option.map_eq_some_iff.mp hmap
    obtain ⟨rfl, rfl, rfl⟩ := heq
    refine ⟨hactive, fun hok => ⟨session, (srtpProtect lib rtcp session packet).2.2, hsession, ?_⟩⟩
    rw [← of_decide_eq_true hok]
  unfold protect at h
  split_ifs at h with hrtcp
  · rw [hrtcp]
    exact hcall true h
  · rw [Bool.not_eq_true] at hrtcp
    rw [hrtcp]
    rw [SrtpChannel.protectRtp, if_pos hactive] at h
    exact hcall false h

theorem guarded_protectWrite (h : Guarded lib mux t) (hs : t.protectWrite lib = some r) : Guarded lib mux r.2 := by
  obtain ⟨comp, channel, length, hchecked, hr⟩ := protectWrite_cases hs
  have hw : Relies lib t (.checked comp channel length) := hchecked ▸ h.writing
  obtain ⟨hpast, hcomp, ctx, rfl, hctx, hactive⟩ := hw
  rcases hr with ⟨hnone, rfl⟩ | ⟨ctx', before, ok, buffer, after, hsome, hice, hbefore, hprotect, rfl⟩
  · refine h.keep ⟨rfl, rfl, fun _ => id, Nat.le_refl _, id⟩ rfl rfl rfl ?_
    simp only []
    split_ifs
    · exact ⟨hpast, fun hr => absurd hr (hnone.resolve_left nofun)⟩
    · trivial
  · obtain rfl := Option.some.inj hsome
    obtain ⟨channel, hchannel, hkeys⟩ := hactive
    obtain rfl := Option.some.inj (hbefore.symm.trans hchannel)
    obtain ⟨hafter, hcall⟩ := protect_spec hprotect hkeys
    have hkeep : Keeps t (t.setChannel ctx after) := keeps_setChannel fun _ => hafter
    obtain ⟨hrtp, hrtcp, -, -, hshake⟩ := flags_setChannel t ctx after
    refine h.keep ⟨hkeep.rtcpMux, hkeep.dtlsRtcp, hkeep.active, hkeep.iceState, hkeep.ready⟩ hrtp hrtcp hshake ?_
    simp only []
    split_ifs with hlong
    · rw [Bool.and_eq_true] at hlong
      obtain ⟨session, session', hsession, hstatus⟩ := hcall hlong.1
      refine ⟨hkeep.pastIce hpast, fun _ => ⟨_, session, session', rfl, hkeys, hsession, hstatus, ?_, ?_⟩⟩
      · rw [hkeep.rtcpMux]
        exact hcomp
      · rw [hkeep.rtcpMux]
        exact hctx
    · trivial

def Output.Safe (lib : Libsrtp Session) (rtcpMux : Bool) : Output Session → Prop
  | .sent comp buffer protection => Protected lib rtcpMux comp buffer protection
  | _ => True

theorem guarded_sendWrite (h : Guarded lib mux t) (hs : t.sendWrite = some r) :
    Guarded lib mux r.2 ∧ r.1.Safe lib mux := by
  obtain ⟨comp, protection, length, hpassed, rfl⟩ := sendWrite_cases hs
  refine ⟨h.keep ⟨rfl, rfl, fun _ => id, Nat.le_refl _, id⟩ rfl rfl rfl trivial, ?_⟩
  have hw : Relies lib t (.passed comp protection length) := hpassed ▸ h.writing
  simp only []
  split_ifs with hice
  · exact h.rtcpMux ▸ hw.2 hice
  · trivial

private theorem safe_updateTransportState {state : TransportState} : (t.updateTransportState state).1.Safe lib mux := by
  unfold updateTransportState
  split_ifs <;> trivial

/-- Only the last step of a `write` gives a packet to the network. -/
theorem safe_step {ev : Event} (hne : ev ≠ .sendWrite) (hs : step lib t ev = some r) :
    r.1.Safe lib mux := by
  cases ev with
  | nice ev =>
    obtain ⟨p, -, rfl⟩ := Option.map_eq_some_iff.mp hs
    trivial
  | updateIceState state =>
    obtain rfl := Option.some.inj hs
    unfold updateIceState
    split_ifs <;> first | exact safe_updateTransportState | trivial
  | createChannel ctx clientKey serverKey =>
    obtain ⟨-, -, sendingKey, receivingKey, rfl⟩ := createChannel_cases hs
    trivial
  | configureChannel =>
    obtain ⟨ctx, sendingKey, receivingKey, channel, -, -, ⟨-, rfl⟩ | ⟨-, rfl⟩⟩ := configureChannel_cases hs
    · trivial
    · exact safe_updateTransportState
  | completeHandshake =>
    obtain ⟨-, rfl⟩ := completeHandshake_cases hs
    split_ifs
    · exact safe_updateTransportState
    · trivial
  | onHandshakeFailed =>
    obtain rfl := Option.some.inj hs
    exact safe_updateTransportState
  | resend ctx cancelled =>
    simp only [step] at hs
    split_ifs at hs
    obtain rfl := Option.some.inj hs
    unfold resend
    split_ifs <;> first | exact safe_updateTransportState | trivial
  | close =>
    obtain rfl := Option.some.inj hs
    simp only [close]
    split_ifs <;> trivial
  | enterWrite packet =>
    obtain rfl := enterWrite_cases hs
    trivial
  | checkWrite =>
    obtain ⟨packet, srtp, -, ⟨-, rfl⟩ | ⟨-, rfl⟩⟩ := checkWrite_cases hs <;> trivial
  | protectWrite =>
    obtain ⟨comp, channel, length, -, ⟨-, rfl⟩ | ⟨ctx, before, ok, buffer, after, -, -, -, -, rfl⟩⟩ := protectWrite_cases hs
    · trivial
    · trivial
  | sendWrite => exact absurd rfl hne

theorem guarded_step {ev : Event} (h : Guarded lib mux t) (hc : Admissible t ev ∧ Apart t ev)
    (hs : step lib t ev = some r) : Guarded lib mux r.2 := by
  cases ev with
  | nice ev =>
    obtain ⟨p, hp, rfl⟩ := Option.map_eq_some_iff.mp hs
    have hkeep := keeps_of_nice (t := t) (NiceConnection.aggregates_step hp).1.mono
    exact h.keep hkeep rfl rfl rfl (h.writing.keep hkeep rfl)
  | updateIceState state =>
    obtain rfl := Option.some.inj hs
    exact guarded_updateIceState h
  | createChannel ctx clientKey serverKey => exact guarded_createChannel h hc.1 hs
  | configureChannel => exact guarded_configureChannel h hs
  | completeHandshake => exact guarded_completeHandshake h hc.2 hs
  | onHandshakeFailed =>
    obtain rfl := Option.some.inj hs
    exact guarded_onHandshakeFailed h
  | resend ctx cancelled =>
    simp only [step] at hs
    split_ifs at hs
    obtain rfl := Option.some.inj hs
    exact guarded_resend h
  | close =>
    obtain rfl := Option.some.inj hs
    exact guarded_close h
  | enterWrite packet => exact guarded_enterWrite h hs
  | checkWrite => exact guarded_checkWrite h hs
  | protectWrite => exact guarded_protectWrite h hs
  | sendWrite => exact (guarded_sendWrite h hs).1

end Steps
/-! ## Runs -/

section Runs
variable {t' : DtlsTransport Session} {evs : List Event} {outs : List (Output Session)}

private theorem guarded_new {rtcpMux isServer listener : Bool} {protectBuf : Mem} :
    Guarded lib rtcpMux (new rtcpMux isServer listener protectBuf) :=
  ⟨rfl, rfl, fun h => (by cases h), fun h => (by cases h), fun h => (by cases h), fun _ _ _ h => (by cases h), trivial⟩

/-- All that `write` gives to the network is protected, in every order of the steps of all calls in which no handshake
makes the transport ready between the read of `srtp_` and the check of the state in a `write`. -/
theorem sent_protected (rtcpMux isServer listener : Bool) (protectBuf : Mem)
    (h : Along (step lib) (fun t ev => Admissible t ev ∧ Apart t ev) (new rtcpMux isServer listener protectBuf) evs)
    (hrun : run? (step lib) (new rtcpMux isServer listener protectBuf) evs = some (outs, t')) :
    ∀ comp buffer protection, .sent comp buffer protection ∈ outs → Protected lib rtcpMux comp buffer protection := by
  intro comp buffer protection hmem
  refine run?_outputs (I := Guarded lib rtcpMux) (P := Output.Safe lib rtcpMux) ?_ guarded_new h hrun _ hmem
  intro t ev o t₁ hg hc hs
  refine ⟨guarded_step hg hc hs, ?_⟩
  by_cases hsend : ev = .sendWrite
  · subst hsend
    exact (guarded_sendWrite hg hs).2
  · exact safe_step hsend hs

/-- An RTP packet of 20 bytes. -/
def media : Buffer := ⟨fun i => if i = 0 then 0x80 else if i = 1 then 96 else 0, 20⟩

/-- ICE and the handshake of a transport with one component. -/
def handshake : List Event :=
  [.nice .start, .nice .gatheringDone, .nice (.componentReady 1), .updateIceState .ready, .createChannel .rtp [] [],
    .configureChannel, .completeHandshake]

/-- After the handshake the packet leaves with its tag. -/
theorem sent_protected_after : ∃ t' buffer protection, run? (step Libsrtp.tagging) (new true true true fun _ => 0)
    (handshake ++ [.enterWrite media, .checkWrite, .protectWrite, .sendWrite]) =
      some ([.quiet, .quiet, .quiet, .started false false, .quiet, .quiet, .reported .ready, .quiet, .quiet, .quiet,
        .sent 1 buffer protection], t') ∧ buffer.length = 30 ∧ Protected Libsrtp.tagging true 1 buffer protection := by
  have hrun : run? (step Libsrtp.tagging) (new true true true fun _ => 0)
      (handshake ++ [.enterWrite media, .checkWrite, .protectWrite, .sendWrite]) = some (_, _) := rfl
  refine ⟨_, _, _, rfl, rfl, sent_protected true true true (fun _ => 0) ?_ hrun _ _ _
    (by repeat first | exact List.Mem.head _ | apply List.Mem.tail)⟩
  refine Along.cons ⟨trivial, trivial⟩ rfl (Along.cons ⟨trivial, trivial⟩ rfl (Along.cons ⟨trivial, trivial⟩ rfl ?_))
  refine Along.cons ⟨trivial, trivial⟩ rfl (Along.cons ⟨⟨rfl, Nat.le_refl _⟩, trivial⟩ rfl ?_)
  refine Along.cons ⟨trivial, trivial⟩ rfl (Along.cons ⟨trivial, fun _ _ _ h => (by cases h)⟩ rfl ?_)
  refine Along.cons ⟨trivial, trivial⟩ rfl (Along.cons ⟨trivial, trivial⟩ rfl (Along.cons ⟨trivial, trivial⟩ rfl ?_))
  exact Along.cons ⟨trivial, trivial⟩ rfl trivial

/-- A `write` has read `srtp_` when the handshake is completed: it finds the transport ready, has no channel and sends
the packet as it is. -/
theorem not_sent_protected :
    Along (step Libsrtp.tagging) Admissible (new true true true fun _ => 0)
      (.enterWrite media :: handshake ++ [.checkWrite, .protectWrite, .sendWrite]) ∧
    ∃ t' buffer, run? (step Libsrtp.tagging) (new true true true fun _ => 0)
      (.enterWrite media :: handshake ++ [.checkWrite, .protectWrite, .sendWrite]) =
        some ([.quiet, .quiet, .quiet, .quiet, .started false false, .quiet, .quiet, .reported .ready, .quiet, .quiet,
          .sent 1 buffer none], t') ∧ buffer.length = 20 ∧ (∀ i, i < 20 → buffer.data i = media.data i) ∧
      ¬ Protected Libsrtp.tagging true 1 buffer none := by
  refine ⟨?_, _, _, rfl, rfl, fun i hi => if_pos hi, ?_⟩
  · refine Along.cons trivial rfl (Along.cons trivial rfl (Along.cons trivial rfl (Along.cons trivial rfl ?_)))
    refine Along.cons trivial rfl (Along.cons ⟨rfl, Nat.le_refl _⟩ rfl (Along.cons trivial rfl ?_))
    refine Along.cons trivial rfl (Along.cons trivial rfl (Along.cons trivial rfl ?_))
    exact Along.cons trivial rfl trivial
  · rintro ⟨p, session, session', hp, -⟩
    cases hp

end Runs
end DtlsTransport
end Sfup.Core
