import Sfup.Client.Receiving

/-! What has to come before the callbacks of a channel, over every sequence of calls and every stream. -/
namespace Sfup.Client

def Event.isTraffic : Event → Bool
  | onJoinedChannel .. | onMessageFromChannel .. | onLeaveChannel .. => true
  | _ => false

/-- An event of the given kind since the last `SignOut`. -/
def Since (grants : Event → Prop) (es : List Event) : Prop :=
  ∃ before g after, es = before ++ g :: after ∧ grants g ∧ Event.signOut ∉ after

/-- No callback of a channel without an event of the given kind since the last `SignOut`. -/
def OnlyAfter (grants : Event → Prop) (es : List Event) : Prop :=
  ∀ before e after, es = before ++ e :: after → e.isTraffic = true → Since grants before

/-- The end of `HandlePacketLoginSuccess`. -/
def LoginSuccess (e : Event) : Prop := e = .onSignedIn

/-- The end of `HandlePacketLoginSuccess`, or a status packet whose state field holds 3. -/
def Admits (e : Event) : Prop :=
  LoginSuccess e ∨ ∃ fields, e = .handlePacket 0 fields ∧ fields.take 4 = [0, 0, 0, 3]

section Trace

variable {grants : Event → Prop} {es es' : List Event} {e : Event}

theorem Since.append (h : Since grants es) (hs : Event.signOut ∉ es') : Since grants (es ++ es') := by
  obtain ⟨before, g, after, rfl, hg, ha⟩ := h
  refine ⟨before, g, after ++ es', by simp, hg, ?_⟩
  rw [List.mem_append, not_or]
  exact ⟨ha, hs⟩

theorem Since.snoc (h : grants e) : Since grants (es ++ [e]) := ⟨es, e, [], rfl, h, List.not_mem_nil⟩

theorem OnlyAfter.snoc (h : OnlyAfter grants es) (he : e.isTraffic = true → Since grants es) :
    OnlyAfter grants (es ++ [e]) := by
  intro before x after heq hx
  rcases List.eq_nil_or_concat after with rfl | ⟨after', y, rfl⟩
  · obtain ⟨rfl, hlast⟩ := List.append_inj_left' heq rfl, List.append_inj_right' heq rfl
    obtain rfl := List.singleton_inj.mp hlast
    exact he hx
  · rw [List.concat_eq_append, ← List.cons_append, ← List.append_assoc] at heq
    exact h before x after' (List.append_inj_left' heq rfl) hx

theorem OnlyAfter.append (h : OnlyAfter grants es) (hes : ∀ e ∈ es', e.isTraffic = false) :
    OnlyAfter grants (es ++ es') := by
  induction es' generalizing es with
  | nil => rwa [List.append_nil]
  | cons e es' ih =>
    rw [List.append_cons]
    refine ih (h.snoc fun he => ?_) fun x hx => hes x (List.mem_cons_of_mem _ hx)
    rw [hes e List.mem_cons_self] at he
    cases he

end Trace

/-- What holds of a session between two packets. -/
structure Admitted (s : Session) : Prop where
  keyed : s.isEncrypted = true → s.decryptor.isSome
  state : s.state = 1 ∨ s.state = 2 ∨ s.state = 3 ∨ s.state = 255
  working : s.state = 3 → Since Admits s.events
  traffic : OnlyAfter Admits s.events

namespace Admitted

variable {P : Platform} {s s' : Session} {e : Event}

theorem emit (h : Admitted s) (he : e.isTraffic = true → s.state = 3) (hs : e ≠ .signOut) :
    Admitted (s.emit e) where
  keyed := h.keyed
  state := h.state
  working h3 := (h.working h3).append (by simpa using hs.symm)
  traffic := h.traffic.snoc fun ht => h.working (he ht)

/-- Sending adds neither traffic nor a `SignOut`. -/
theorem sends_of (h : Admitted s) (hstate : s'.state = s.state)
    (hkey : s'.isEncrypted = true → s'.decryptor.isSome)
    (hevents : ∃ es, s'.events = s.events ++ es ∧ ∀ e ∈ es, e.isSending = true) : Admitted s' := by
  obtain ⟨es, he, hes⟩ := hevents
  refine ⟨hkey, hstate ▸ h.state, fun h3 => ?_, ?_⟩
  · rw [he]
    refine (h.working (hstate ▸ h3)).append fun hmem => ?_
    cases hes _ hmem
  · rw [he]
    refine h.traffic.append fun e hmem => ?_
    have hsend := hes e hmem
    cases e <;> first | rfl | cases hsend

theorem sends (h : Admitted s) (hs : Session.Sends s s') : Admitted s' :=
  h.sends_of hs.state (by rw [hs.isEncrypted, hs.decryptor]; exact h.keyed) hs.events

theorem signOut (h : Admitted s) : Admitted s.signOut where
  keyed he := by cases he
  state := .inl rfl
  working h3 := by cases h3
  traffic := h.traffic.snoc fun he => by cases he

/-- The state becomes 3 only when `HandlePacketLoginSuccess` or a status packet says so. -/
theorem reaction {t : UInt32} {fields : List UInt8} {left : Bool}
    (h : Admitted s) (hr : Session.Reaction t fields (s.emit (.handlePacket t fields)) left s') :
    Admitted s' := by
  have h₀ : Admitted (s.emit (.handlePacket t fields)) := h.emit (fun ht => by cases ht) (by simp)
  generalize hs₀ : s.emit (.handlePacket t fields) = s₀ at h₀ hr
  cases hr with
  | ignored => exact h₀
  | unknown => exact h₀.emit (fun ht => by cases ht) (by simp)
  | halted => exact ⟨h₀.keyed, .inr (.inr (.inr rfl)), (fun h3 => by cases h3), h₀.traffic⟩
  | sent hs => exact h₀.sends hs
  | status ht hstate state hlow hhigh hfield hs =>
    suffices h₁ : Admitted { s₀ with state } from h₁.sends hs
    refine ⟨h₀.keyed, ?_, fun h3 => ?_, h₀.traffic⟩
    · show state = 1 ∨ state = 2 ∨ state = 3 ∨ state = 255
      have hnat : state.toNat = 1 ∨ state.toNat = 2 ∨ state.toNat = 3 := by omega
      rcases hnat with hn | hn | hn
      · exact .inl (UInt32.toNat_inj.mp hn)
      · exact .inr (.inl (UInt32.toNat_inj.mp hn))
      · exact .inr (.inr (.inl (UInt32.toNat_inj.mp hn)))
    · have hst : state = 3 := h3
      subst hs₀ hst ht
      refine Since.snoc (.inr ⟨fields, rfl, ?_⟩)
      have hfield' : (fields ++ [0]).take 4 = [0, 0, 0, 3] := hfield
      match fields, hfield' with
      | [a, b, c], hf => cases hf
      | a :: b :: c :: d :: rest, hf => simpa using hf
  | keyed hstate hkey hevents =>
    refine h₀.sends_of hstate (fun he => ?_) hevents
    rcases hkey with ⟨hi, hd⟩ | hd
    · rw [hd]
      exact h₀.keyed (hi ▸ he)
    · exact hd
  | signedIn clientID hs =>
    suffices h₁ : Admitted ({ s₀ with clientID, state := 3 }.emit .onSignedIn) from h₁.sends hs
    refine ⟨h₀.keyed, .inr (.inr (.inl rfl)), fun _ => Since.snoc (.inl rfl), ?_⟩
    exact h₀.traffic.snoc fun he => by cases he
  | joined hstate room => exact h₀.emit (fun _ => hstate) (by simp)
  | message hstate room fromID msg => exact h₀.emit (fun _ => hstate) (by simp)
  | stayed => exact ⟨h₀.keyed, h₀.state, h₀.working, h₀.traffic⟩
  | loginError => exact (h₀.emit (fun he => by cases he) (by simp)).signOut
  | left hstate room =>
    have h₁ := (h₀.emit (e := .onLeaveChannel room) (fun _ => hstate) (by simp)).signOut
    exact ⟨h₁.keyed, h₁.state, h₁.working, h₁.traffic⟩

theorem step {body : List UInt8} (h : Admitted s) (hb : body.length ≤ 16384) (hs : s.step P body = some s') :
    Admitted s' := by
  have hT : body.length + 2 < sizeT := by unfold sizeT; omega
  cases hv : P.varInt body with
  | none =>
    rw [(Session.step_of_none hT hv hs).1]
    exact h
  | some p =>
    obtain ⟨s₁, hr, rfl | rfl⟩ := Session.step_reaction hT hv hs
    · exact h.reaction hr
    · exact (h.reaction hr).emit (fun ht => by cases ht) (by simp)

theorem invariant (P : Platform) : SessionInvariant P Admitted where
  step := step
  sends := sends
  full h := h.emit (fun ht => by cases ht) (by simp)
  decryptor _ h := ⟨fun _ => rfl, h.state, h.working, h.traffic⟩
  connect _ _ h := ⟨h.keyed, h.state, h.working, h.traffic⟩
  signOut := signOut

theorem new (P : Platform) (aUserName : AString) : Admitted (ConnectionClient.new P aUserName).toSession where
  keyed he := by cases he
  state := .inl rfl
  working h3 := by cases h3
  traffic before e after heq := by cases before <;> cases heq

end Admitted

namespace ConnectionClient

/-- Whatever is received and in whatever chunks, a callback of a channel comes after the login or after a
status packet that skips it, since the last `SignOut`; and the state is one of four. -/
theorem traffic_onlyAfter_admits {P : Platform} {aUserName : AString} {c : ConnectionClient}
    (h : c.Reachable P aUserName) :
    OnlyAfter Admits c.events ∧ (c.state = 1 ∨ c.state = 2 ∨ c.state = 3 ∨ c.state = 255) := by
  have hc := ((Admitted.invariant P).reachable (Admitted.new P aUserName) h).2
  exact ⟨hc.traffic, hc.state⟩

theorem reachable_dataReceived {P : Platform} {aUserName : AString} {aData : List UInt8} {c : ConnectionClient}
    (h : (new P aUserName).dataReceived P aData = some c) : c.Reachable P aUserName :=
  ⟨[.dataReceived aData], [()], by simp [Transition.run?, exec, h]⟩

/-- A status packet that asks for the login, the login and the answer to the join. -/
theorem traffic_onlyAfter_admits_join : ∃ c : ConnectionClient, c.Reachable Platform.zero [] ∧
    .onJoinedChannel [] ∈ c.events ∧ OnlyAfter Admits c.events ∧
      (c.state = 1 ∨ c.state = 2 ∨ c.state = 3 ∨ c.state = 255) := by
  have h : ((new Platform.zero []).dataReceived Platform.zero
      [8, 0, 0, 0, 0, 2, 0, 0, 0, 2, 3, 7, 3, 1, 0, 1]).map (·.events) =
      some [.handlePacket 0 [0, 0, 0, 2, 0, 0, 0], .sendData [1], .send [1], .sendData [0], .send [0],
        .handlePacket 3 [7], .onSignedIn, .sendData [2], .send [2], .sendData [1, 0], .send [1, 0],
        .handlePacket 1 [0, 1], .onJoinedChannel []] := by
    decide +kernel
  obtain ⟨c, hc, he⟩ := Option.map_eq_some_iff.mp h
  have hr := reachable_dataReceived hc
  exact ⟨c, hr, by simp [he], traffic_onlyAfter_admits hr⟩

/-- A status packet that names state 3, and a join that is answered without a login. -/
theorem not_onlyAfter_loginSuccess : ¬∀ c : ConnectionClient, c.Reachable Platform.zero [] →
    OnlyAfter LoginSuccess c.events ∧ (c.state = 1 ∨ c.state = 2 ∨ c.state = 3 ∨ c.state = 255) := by
  intro hall
  have h : ((new Platform.zero []).dataReceived Platform.zero
      [8, 0, 0, 0, 0, 3, 0, 0, 0, 3, 1, 0, 1]).map (·.events) =
      some ([.handlePacket 0 [0, 0, 0, 3, 0, 0, 0], .sendData [1], .send [1], .sendData [0], .send [0],
        .handlePacket 1 [0, 1]] ++ .onJoinedChannel [] :: []) := by
    decide +kernel
  obtain ⟨c, hc, he⟩ := Option.map_eq_some_iff.mp h
  obtain ⟨before, g, after, heq, hg, -⟩ := (hall c (reachable_dataReceived hc)).1 _ _ _ he rfl
  have hmem : Event.onSignedIn ∈ before ++ g :: after := by
    rw [show g = .onSignedIn from hg]
    simp
  rw [← heq] at hmem
  simp at hmem

end ConnectionClient

end Sfup.Client
