import Sfup.Core.DtlsTransport

/-! The state of a `DtlsTransport` after a failure. Its only guard is that the new state is another one, and the flags
of the handshakes outlive a failure. -/
namespace Sfup.Core.DtlsTransport
open Sfup.Transition
variable {Session : Type} {lib : Libsrtp Session} {t t' : DtlsTransport Session} {o : Output Session} {ev : Event}

/-! ## What a step does to the state -/

section Steps
variable {state : TransportState} {r : Output Session × DtlsTransport Session}

theorem updateTransportState_state : (t.updateTransportState state).2.state = state := by
  unfold updateTransportState
  split_ifs with h
  · exact h.symm
  · rfl
  · rfl

private theorem updateTransportState_listener : (t.updateTransportState state).2.listener = t.listener := by
  unfold updateTransportState
  split_ifs <;> rfl

private theorem updateTransportState_reported {s : TransportState} :
    (t.updateTransportState state).1 = .reported s ↔ s = state ∧ state ≠ t.state ∧ t.listener = true := by
  unfold updateTransportState
  by_cases hs : state = t.state
  · simp [hs]
  · cases hl : t.listener <;> simp [hs, eq_comm]

/-- The state and the listener stay, and no state is reported. -/
structure Silent (t : DtlsTransport Session) (r : Output Session × DtlsTransport Session) : Prop where
  kept : r.2.state = t.state
  listener : r.2.listener = t.listener
  reported : ∀ s, r.1 ≠ .reported s

/-- The transport is given a state, perhaps with other fields. -/
structure Given (t : DtlsTransport Session) (state : TransportState) (r : Output Session × DtlsTransport Session) :
    Prop where
  given : r.2.state = state
  listener : r.2.listener = t.listener
  reported : ∀ s, r.1 = .reported s ↔ s = state ∧ state ≠ t.state ∧ t.listener = true

def given (lib : Libsrtp Session) (t : DtlsTransport Session) : Event → Option TransportState
  | .updateIceState .initial => if t.state = .started then none else some .started
  | .updateIceState .candidatesReceived => if t.state = .gathered then none else some .gathered
  | .updateIceState .failed => some .failed
  | .configureChannel =>
    match t.handshaking with
    | .created ctx sendingKey receivingKey =>
      if (t.channel ctx).all fun channel => (channel.setRtpParams lib sendingKey receivingKey).1 then none
      else some .failed
    | _ => none
  | .completeHandshake => if t.readyRtp && t.readyRtcp then some .ready else none
  | .onHandshakeFailed => some .failed
  | .resend ctx cancelled => if cancelled || decide (0 < t.resends ctx) then none else some .failed
  | _ => none

private theorem given_updateTransportState {t₁ : DtlsTransport Session} (hs : t₁.state = t.state)
    (hl : t₁.listener = t.listener) : Given t state (t₁.updateTransportState state) := by
  refine ⟨updateTransportState_state, updateTransportState_listener.trans hl, fun s => ?_⟩
  rw [updateTransportState_reported, hs, hl]

private theorem setChannel_state {ctx : Context} {channel : SrtpChannel Session} :
    (t.setChannel ctx channel).state = t.state ∧ (t.setChannel ctx channel).listener = t.listener := by
  cases ctx <;> exact ⟨rfl, rfl⟩

private theorem setReady_state {ctx : Context} :
    (t.setReady ctx).state = t.state ∧ (t.setReady ctx).listener = t.listener := by
  cases ctx <;> exact ⟨rfl, rfl⟩

private theorem setMuxReady_state {ctx : Context} :
    (t.setMuxReady ctx).state = t.state ∧ (t.setMuxReady ctx).listener = t.listener := by
  unfold setMuxReady
  split_ifs <;> exact ⟨rfl, rfl⟩

private theorem setResends_state {ctx : Context} {n : ℕ} :
    (t.setResends ctx n).state = t.state ∧ (t.setResends ctx n).listener = t.listener := by
  cases ctx <;> exact ⟨rfl, rfl⟩

/-- A step other than a `close` gives the transport that state, or leaves it alone. -/
theorem step_given (h : step lib t ev = some r) (hclose : ev ≠ .close) :
    (given lib t ev = none ∧ Silent t r) ∨ ∃ s, given lib t ev = some s ∧ Given t s r := by
  cases ev with
  | nice ev =>
    obtain ⟨p, -, rfl⟩ := Option.map_eq_some_iff.mp h
    exact Or.inl ⟨rfl, rfl, rfl, nofun⟩
  | updateIceState state =>
    obtain rfl := Option.some.inj h
    cases state with
    | initial =>
      by_cases hs : t.state = .started
      · exact Or.inl ⟨if_pos hs, by simp [updateIceState, hs, Silent.mk]⟩
      · exact Or.inr ⟨.started, if_neg hs, by simpa [updateIceState, hs] using given_updateTransportState rfl rfl⟩
    | candidatesReceived =>
      by_cases hs : t.state = .gathered
      · exact Or.inl ⟨if_pos hs, by simp [updateIceState, hs, Silent.mk]⟩
      · exact Or.inr ⟨.gathered, if_neg hs, by simpa [updateIceState, hs] using given_updateTransportState rfl rfl⟩
    | ready => exact Or.inl ⟨rfl, rfl, rfl, nofun⟩
    | finished => exact Or.inl ⟨rfl, rfl, rfl, nofun⟩
    | failed => exact Or.inr ⟨.failed, rfl, given_updateTransportState rfl rfl⟩
  | createChannel ctx clientKey serverKey =>
    obtain ⟨-, -, sendingKey, receivingKey, rfl⟩ := createChannel_cases h
    exact Or.inl ⟨rfl, setChannel_state.1, setChannel_state.2, nofun⟩
  | configureChannel =>
    obtain ⟨ctx, sendingKey, receivingKey, channel, hcreated, hchannel, ⟨hset, rfl⟩ | ⟨hset, rfl⟩⟩ :=
      configureChannel_cases h
    · refine Or.inl ⟨by simp [given, hcreated, hchannel, hset], ?_, ?_, nofun⟩
      · exact setMuxReady_state.1.trans (setReady_state.1.trans setChannel_state.1)
      · exact setMuxReady_state.2.trans (setReady_state.2.trans setChannel_state.2)
    · let t₁ := { t.setChannel ctx (channel.setRtpParams lib sendingKey receivingKey).2 with handshaking := .configured }
      have hgiven : Given t .failed (t₁.updateTransportState .failed) :=
        given_updateTransportState setChannel_state.1 setChannel_state.2
      refine Or.inr ⟨.failed, by simp [given, hcreated, hchannel, hset], ?_, ?_, hgiven.reported⟩
      · exact setMuxReady_state.1.trans hgiven.given
      · exact setMuxReady_state.2.trans hgiven.listener
  | completeHandshake =>
    obtain ⟨-, rfl⟩ := completeHandshake_cases h
    simp only [given]
    split_ifs
    · exact Or.inr ⟨.ready, rfl, given_updateTransportState rfl rfl⟩
    · exact Or.inl ⟨rfl, rfl, rfl, nofun⟩
  | onHandshakeFailed =>
    obtain rfl := Option.some.inj h
    exact Or.inr ⟨.failed, rfl, given_updateTransportState rfl rfl⟩
  | resend ctx cancelled =>
    simp only [step] at h
    split_ifs at h
    obtain rfl := Option.some.inj h
    cases cancelled with
    | true => exact Or.inl ⟨rfl, rfl, rfl, nofun⟩
    | false =>
      by_cases hleft : 0 < t.resends ctx
      · simp only [given, resend, hleft, decide_true, Bool.or_true, Bool.false_eq_true, if_false, if_true]
        exact Or.inl ⟨trivial, setResends_state.1, setResends_state.2, nofun⟩
      · simp only [given, resend, hleft, decide_false, Bool.or_false, Bool.false_eq_true, if_false]
        exact Or.inr ⟨.failed, rfl, given_updateTransportState setResends_state.1 setResends_state.2⟩
  | close => exact absurd rfl hclose
  | enterWrite packet =>
    obtain rfl := enterWrite_cases h
    exact Or.inl ⟨rfl, rfl, rfl, nofun⟩
  | checkWrite =>
    obtain ⟨packet, srtp, -, ⟨-, rfl⟩ | ⟨-, rfl⟩⟩ := checkWrite_cases h
    · exact Or.inl ⟨rfl, rfl, rfl, nofun⟩
    · exact Or.inl ⟨rfl, rfl, rfl, nofun⟩
  | protectWrite =>
    obtain ⟨comp, channel, length, -, ⟨-, rfl⟩ | ⟨ctx, before, ok, buffer, after, -, -, -, -, rfl⟩⟩ := protectWrite_cases h
    · exact Or.inl ⟨rfl, rfl, rfl, nofun⟩
    · exact Or.inl ⟨rfl, setChannel_state.1, setChannel_state.2, nofun⟩
  | sendWrite =>
    obtain ⟨comp, protection, length, -, rfl⟩ := sendWrite_cases h
    refine Or.inl ⟨rfl, rfl, rfl, fun s => ?_⟩
    simp only []
    split_ifs <;> exact nofun

theorem close_listener : t.close.2.listener = t.listener := by
  simp only [close]
  split_ifs <;> rfl

/-- Closing finishes the transport, or the exception of the ICE connection leaves it as it is. No state is reported. -/
theorem close_state : (t.close.2.state = .finished ∨ t.close.2.state = t.state) ∧ ∀ s, t.close.1 ≠ .reported s := by
  simp only [close]
  split_ifs
  · exact ⟨Or.inr rfl, nofun⟩
  · exact ⟨Or.inl rfl, nofun⟩

end Steps

/-! ## After a failure -/

/-- Keep beside the transport whether it ever failed. -/
def watch (lib : Libsrtp Session) (s : DtlsTransport Session × Bool) (ev : Event) :
    Option (Output Session × (DtlsTransport Session × Bool)) :=
  (step lib s.1 ev).map fun p => (p.1, (p.2, s.2 || decide (p.2.state = .failed)))

/-- A failed transport stays failed or is finished by a `close`, and once it failed no ready state is reported. -/
def Stays (lib : Libsrtp Session) (s : DtlsTransport Session × Bool) (ev : Event) : Prop :=
  ∀ o t', step lib s.1 ev = some (o, t') →
    (s.1.state = .failed → t'.state = .failed ∨ ev = .close ∧ t'.state = .finished) ∧
      (s.2 = true → o ≠ .reported .ready)

/-- No handshake is completed after a failure so that both flags are set, and ICE does not start over in a failed
transport. -/
def Settled (s : DtlsTransport Session × Bool) : Event → Prop
  | .completeHandshake => s.1.handshaking = .configured → s.1.readyRtp = true → s.1.readyRtcp = true →
    s.1.state ≠ .failed ∧ (s.2 = true → s.1.listener = false)
  | .updateIceState state => s.1.state = .failed → state ≠ .initial ∧ state ≠ .candidatesReceived
  | _ => True

/-- What is known of a failure. -/
structure Known (s : DtlsTransport Session × Bool) : Prop where
  failed : s.1.state = .failed → s.2 = true
  ready : s.2 = true → s.1.state = .ready → s.1.listener = false

section Runs
variable {s : DtlsTransport Session × Bool}

theorem stays_of_silent (h : given lib s.1 ev = none) (hclose : ev ≠ .close) : Stays lib s ev := by
  intro o t' hs
  obtain ⟨-, hsilent⟩ | ⟨state, hgiven, -⟩ := step_given hs hclose
  · exact ⟨fun hf => Or.inl (hsilent.kept.trans hf), fun _ => hsilent.reported .ready⟩
  · rw [h] at hgiven
    cases hgiven

theorem stays_of_failed (h : given lib s.1 ev = some .failed) (hclose : ev ≠ .close) : Stays lib s ev := by
  intro o t' hs
  obtain ⟨hnone, -⟩ | ⟨state, hgiven, hmoved⟩ := step_given hs hclose
  · rw [h] at hnone
    cases hnone
  · obtain rfl := Option.some.inj (h.symm.trans hgiven)
    refine ⟨fun _ => Or.inl hmoved.given, fun _ ho => ?_⟩
    have hready := ((hmoved.reported .ready).mp ho).1
    cases hready

/-- A state other than ready and failed is a change exactly in a failed transport. -/
theorem stays_iff_of_given {state : TransportState} (hstep : (step lib s.1 ev).isSome)
    (h : given lib s.1 ev = some state) (hclose : ev ≠ .close) (hf : state ≠ .failed) :
    Stays lib s ev ↔ s.1.state ≠ .failed ∧
      (s.2 = true → ¬ (state = .ready ∧ s.1.state ≠ .ready ∧ s.1.listener = true)) := by
  obtain ⟨⟨o, t'⟩, hs⟩ := Option.isSome_iff_exists.mp hstep
  obtain ⟨hnone, -⟩ | ⟨state', hgiven, hmoved⟩ := step_given hs hclose
  · rw [h] at hnone
    cases hnone
  · obtain rfl := Option.some.inj (h.symm.trans hgiven)
    have hreport : o = .reported .ready ↔ state = .ready ∧ s.1.state ≠ .ready ∧ s.1.listener = true := by
      rw [hmoved.reported]
      constructor
      · rintro ⟨rfl, hne, hl⟩
        exact ⟨rfl, hne.symm, hl⟩
      · rintro ⟨rfl, hne, hl⟩
        exact ⟨rfl, hne.symm, hl⟩
    constructor
    · intro hstays
      obtain ⟨hstate, hready⟩ := hstays o t' hs
      refine ⟨fun hfailed => ?_, fun h₂ hr => hready h₂ (hreport.mpr hr)⟩
      rcases hstate hfailed with hkept | ⟨hc, -⟩
      · exact hf (hmoved.given.symm.trans hkept)
      · exact hclose hc
    · rintro ⟨hstate, hready⟩ o₁ t₁ h₁
      obtain ⟨rfl, rfl⟩ := Prod.mk.inj (Option.some.inj (hs.symm.trans h₁))
      exact ⟨fun hfailed => absurd hfailed hstate, fun h₂ ho => hready h₂ (hreport.mp ho)⟩

/-- A state that is given to a transport that does not have it yet. -/
theorem stays_iff_of_unless {x : TransportState} (hstep : (step lib s.1 ev).isSome)
    (h : given lib s.1 ev = if s.1.state = x then none else some x) (hclose : ev ≠ .close) (hf : x ≠ .failed)
    (hr : x ≠ .ready) : Stays lib s ev ↔ s.1.state ≠ .failed := by
  by_cases hs : s.1.state = x
  · refine iff_of_true (stays_of_silent (h.trans (if_pos hs)) hclose) ?_
    rw [hs]
    exact hf
  · rw [stays_iff_of_given hstep (h.trans (if_neg hs)) hclose hf]
    exact ⟨fun hstays => hstays.1, fun hstate => ⟨hstate, fun _ hready => hr hready.1⟩⟩

private theorem stays_completeHandshake_iff (hK : Known s) :
    Stays lib s .completeHandshake ↔ Settled s .completeHandshake := by
  by_cases hconf : s.1.handshaking = .configured
  · have hstep : (step lib s.1 .completeHandshake).isSome := by simp [step, completeHandshake, hconf]
    by_cases hflags : s.1.readyRtp = true ∧ s.1.readyRtcp = true
    · have hready : given lib s.1 .completeHandshake = some .ready := if_pos (by simpa using hflags)
      rw [stays_iff_of_given hstep hready nofun (by decide)]
      simp only [Settled, hconf, hflags, forall_const, true_and, not_and]
      refine and_congr_right fun _ => forall_congr' fun h₂ => ?_
      rw [Bool.not_eq_true]
      exact ⟨fun h => (em (s.1.state = .ready)).elim (hK.ready h₂) h, fun h _ => h⟩
    · have hnone : given lib s.1 .completeHandshake = none := if_neg (by simpa using hflags)
      exact iff_of_true (stays_of_silent hnone nofun) fun _ hrtp hrtcp => absurd ⟨hrtp, hrtcp⟩ hflags
  · have hnone : step lib s.1 .completeHandshake = none := by
      cases hh : s.1.handshaking with
      | configured => exact absurd hh hconf
      | _ => simp only [step, completeHandshake, hh]
    refine iff_of_true (fun o t' hs => ?_) fun h => absurd h hconf
    rw [hnone] at hs
    cases hs

/-- One step keeps a failure exactly under the condition. -/
theorem stays_iff (hK : Known s) : Stays lib s ev ↔ Settled s ev := by
  cases ev with
  | completeHandshake => exact stays_completeHandshake_iff hK
  | updateIceState state =>
    cases state with
    | initial =>
      have hstays : Stays lib s (.updateIceState .initial) ↔ s.1.state ≠ .failed :=
        stays_iff_of_unless rfl (x := .started) rfl nofun (by decide) (by decide)
      simp [hstays, Settled]
    | candidatesReceived =>
      have hstays : Stays lib s (.updateIceState .candidatesReceived) ↔ s.1.state ≠ .failed :=
        stays_iff_of_unless rfl (x := .gathered) rfl nofun (by decide) (by decide)
      simp [hstays, Settled]
    | ready => exact iff_of_true (stays_of_silent rfl nofun) fun _ => ⟨nofun, nofun⟩
    | finished => exact iff_of_true (stays_of_silent rfl nofun) fun _ => ⟨nofun, nofun⟩
    | failed => exact iff_of_true (stays_of_failed rfl nofun) fun _ => ⟨nofun, nofun⟩
  | close =>
    refine iff_of_true (fun o t' hs => ?_) trivial
    obtain ⟨hstate, hquiet⟩ := close_state (t := s.1)
    rw [Option.some.inj hs] at hstate hquiet
    refine ⟨fun hf => ?_, fun _ => hquiet .ready⟩
    rcases hstate with hfin | hkept
    · exact Or.inr ⟨rfl, hfin⟩
    · exact Or.inl (hkept.trans hf)
  | configureChannel =>
    refine iff_of_true ?_ trivial
    by_cases hnone : given lib s.1 .configureChannel = none
    · exact stays_of_silent hnone nofun
    · refine stays_of_failed ?_ nofun
      simp only [given] at hnone ⊢
      split at hnone
      · split_ifs at hnone ⊢ with hset
        · exact absurd rfl hnone
        · rfl
      · exact absurd rfl hnone
  | onHandshakeFailed => exact iff_of_true (stays_of_failed rfl nofun) trivial
  | resend ctx cancelled =>
    refine iff_of_true ?_ trivial
    by_cases hleft : (cancelled || decide (0 < s.1.resends ctx)) = true
    · exact stays_of_silent (if_pos hleft) nofun
    · exact stays_of_failed (if_neg hleft) nofun
  | _ => exact iff_of_true (stays_of_silent rfl nofun) trivial

private theorem watch_eq_some {s' : DtlsTransport Session × Bool} (h : watch lib s ev = some (o, s')) :
    step lib s.1 ev = some (o, s'.1) ∧ s'.2 = (s.2 || decide (s'.1.state = .failed)) := by
  obtain ⟨p, hs, heq⟩ := Option.map_eq_some_iff.mp h
  cases heq
  exact ⟨hs, rfl⟩

private theorem known_watch {s' : DtlsTransport Session × Bool} (hK : Known s) (hstays : Stays lib s ev)
    (h : watch lib s ev = some (o, s')) : Known s' := by
  obtain ⟨hs, hflag⟩ := watch_eq_some h
  refine ⟨fun hf => by simp [hflag, hf], fun h₂ hready => ?_⟩
  have hbefore : s.2 = true := by simpa [hflag, hready] using h₂
  by_cases hclose : ev = .close
  · subst hclose
    obtain ⟨hstate, -⟩ := close_state (t := s.1)
    have hl := close_listener (t := s.1)
    rw [Option.some.inj hs] at hstate hl
    rcases hstate with hfin | hkept
    · rw [hready] at hfin
      cases hfin
    · rw [hl]
      exact hK.ready hbefore (hkept.symm.trans hready)
  · obtain ⟨-, hsilent⟩ | ⟨state, -, hmoved⟩ := step_given hs hclose
    · rw [hsilent.listener]
      exact hK.ready hbefore (hsilent.kept.symm.trans hready)
    · by_contra hl
      have hlistener : s.1.listener = true := by
        rw [← hmoved.listener]
        exact Bool.eq_true_of_not_eq_false hl
      have hne : state ≠ s.1.state := by
        intro heq
        have hfalse := hK.ready hbefore (heq.symm.trans (hmoved.given.symm.trans hready))
        exact absurd (hfalse.symm.trans hlistener) (by decide)
      have hs_ready : state = .ready := hmoved.given.symm.trans hready
      exact (hstays o s'.1 hs).2 hbefore ((hmoved.reported .ready).mpr ⟨hs_ready.symm, hne, hlistener⟩)

/-- In a run a failed transport stays failed, until it is closed, and reports no ready state any more, exactly if
after a failure no handshake is completed with both flags set and ICE does not start over. -/
theorem stays_along_iff (rtcpMux isServer listener : Bool) (protectBuf : Mem) (evs : List Event) :
    Along (watch lib) (Stays lib) (new rtcpMux isServer listener protectBuf, false) evs ↔
      Along (watch lib) Settled (new rtcpMux isServer listener protectBuf, false) evs := by
  apply along_iff (I := Known)
  · intro s ev hK
    exact stays_iff hK
  · intro s ev o s' hK hstays h
    exact known_watch hK hstays h
  · exact ⟨fun h => (by cases h), fun h => (by cases h)⟩

/-- The resender gives up, and the last flight of the handshake that it waited for comes after all. -/
theorem not_stays_late : ¬ Along (watch Libsrtp.tagging) (Stays Libsrtp.tagging) (new true true true fun _ => 0, false)
    [.nice .start, .nice .gatheringDone, .updateIceState .candidatesReceived, .nice (.componentReady 1),
      .updateIceState .ready, .onHandshakeFailed, .createChannel .rtp [] [], .configureChannel, .completeHandshake] := by
  intro h
  have hready := ((((((((h.2 _ _ rfl).2 _ _ rfl).2 _ _ rfl).2 _ _ rfl).2 _ _ rfl).2 _ _ rfl).2 _ _ rfl).2 _ _ rfl).1
  exact (hready (.reported .ready) _ rfl).2 rfl rfl

end Runs
end Sfup.Core.DtlsTransport
