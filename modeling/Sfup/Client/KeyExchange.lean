import Sfup.Client.Receiving

/-! The key exchange of `SendEncryptionKeyResponse`, over runs of a connection: which pair of cryptors is in place, and
whose secret the server was sent last. -/
namespace Sfup.Client

namespace Session

variable (P : Platform)

/-- What `HandlePacketLoginEncryptionKeyRequest` reads: the public key and the nonce that are answered, if any. -/
def keyRequest (bb : ByteBuffer) : Option (Option (AString × UInt32) × ByteBuffer) :=
  handleRead (bb.readVarUTF8String P) none fun _serverID bb =>
  handleRead bb.readBEInt16 none fun keyLen bb => do
    assert (0 ≤ keyLen)
    let (buffer, bb) ← bb.readBuf keyLen.toUInt16.toNat
    let buffer := buffer.getD (List.replicate keyLen.toUInt16.toNat 0)
    handleRead bb.readBEInt16 none fun nonceLen bb =>
      handleRead bb.readBEInt32 none fun nonce bb =>
        if nonceLen ≠ 4 then some (none, bb) else some (some (buffer, nonce.toUInt32), bb)

def requested (s : Session) (body : List UInt8) : Option (AString × UInt32) := do
  let (t, fields) ← P.varInt body
  assert (s.state.toNat = 2 ∧ t.toNat = 1)
  (← keyRequest P (P.fieldBuffer body fields)).1

/-- The cryptors have processed some bytes, and the rest of what the key exchange sets is as it was. -/
structure Advances (s s' : Session) : Prop where
  encryptCalls : s'.encryptCalls = s.encryptCalls
  isEncrypted : s'.isEncrypted = s.isEncrypted
  encryptor : ∀ c, s.encryptor = some c → ∃ data, s'.encryptor = some (c.encrypt P data).2
  decryptor : ∀ c, s.decryptor = some c → ∃ data, s'.decryptor = some (c.decrypt P data).2

def KeepsKeys (s s' : Session) : Prop :=
  Advances P s s' ∨ s'.encryptCalls = s.encryptCalls ∧ s'.isEncrypted = false

/-- Both cryptors were initialised with a secret as the key and the register. -/
structure InitialisedWith (secret : List UInt8) (s : Session) : Prop where
  encryptor : ∃ data, s.encryptor = some (AesCfb128.encrypt P ⟨secret, secret⟩ data).2
  decryptor : ∃ data, s.decryptor = some (AesCfb128.decrypt P ⟨secret, secret⟩ data).2

variable {P} {s s' s'' : Session}

theorem encrypt_append (c : AesCfb128) (xs ys : List UInt8) :
    (c.encrypt P (xs ++ ys)).2 = ((c.encrypt P xs).2.encrypt P ys).2 := by
  simp only [AesCfb128.encrypt_eq_run, Transition.run_append]

theorem decrypt_append (c : AesCfb128) (xs ys : List UInt8) :
    (c.decrypt P (xs ++ ys)).2 = ((c.decrypt P xs).2.decrypt P ys).2 := by
  simp only [AesCfb128.decrypt_eq_run, Transition.run_append]

namespace Advances

theorem of_eq (hcalls : s'.encryptCalls = s.encryptCalls) (hflag : s'.isEncrypted = s.isEncrypted)
    (henc : s'.encryptor = s.encryptor) (hdec : s'.decryptor = s.decryptor) : Advances P s s' :=
  ⟨hcalls, hflag, fun _ hc => ⟨[], henc.trans hc⟩, fun _ hc => ⟨[], hdec.trans hc⟩⟩

theorem refl (s : Session) : Advances P s s := .of_eq rfl rfl rfl rfl

theorem trans (h : Advances P s s') (h' : Advances P s' s'') : Advances P s s'' := by
  refine ⟨h'.encryptCalls.trans h.encryptCalls, h'.isEncrypted.trans h.isEncrypted, fun c hc => ?_, fun c hc => ?_⟩
  · obtain ⟨xs, hxs⟩ := h.encryptor c hc
    obtain ⟨ys, hys⟩ := h'.encryptor _ hxs
    exact ⟨xs ++ ys, by rw [hys, encrypt_append]⟩
  · obtain ⟨xs, hxs⟩ := h.decryptor c hc
    obtain ⟨ys, hys⟩ := h'.decryptor _ hxs
    exact ⟨xs ++ ys, by rw [hys, decrypt_append]⟩

theorem emit (s : Session) (e : Event) : Advances P s (s.emit e) := .of_eq rfl rfl rfl rfl

theorem keptBySending : KeptBySending P (Advances P) where
  refl := .refl
  trans := .trans
  emit s e _ := .emit s e
  outPacketBuffer _ _ := .of_eq rfl rfl rfl rfl
  encrypt s c data hc := by
    refine ⟨rfl, rfl, fun c' hc' => ⟨data, ?_⟩, fun c' hc' => ⟨[], hc'⟩⟩
    rw [Option.some.inj (hc'.symm.trans hc)]

theorem initialisedWith {secret : List UInt8} (h : Advances P s s') (hs : InitialisedWith P secret s) :
    InitialisedWith P secret s' := by
  obtain ⟨⟨xs, hxs⟩, ys, hys⟩ := hs
  obtain ⟨xs', hxs'⟩ := h.encryptor _ hxs
  obtain ⟨ys', hys'⟩ := h.decryptor _ hys
  exact ⟨⟨xs ++ xs', by rw [hxs', encrypt_append]⟩, ys ++ ys', by rw [hys', decrypt_append]⟩

end Advances

namespace KeepsKeys

theorem of_advances (h : Advances P s s') : KeepsKeys P s s' := .inl h

theorem then_advances (h : KeepsKeys P s s') (h' : Advances P s' s'') : KeepsKeys P s s'' := by
  rcases h with h | ⟨hcalls, hflag⟩
  · exact .inl (h.trans h')
  · exact .inr ⟨h'.encryptCalls.trans hcalls, h'.isEncrypted.trans hflag⟩

theorem after_advances (h : Advances P s s') (h' : KeepsKeys P s' s'') : KeepsKeys P s s'' := by
  rcases h' with h' | ⟨hcalls, hflag⟩
  · exact .inl (h.trans h')
  · exact .inr ⟨hcalls.trans h.encryptCalls, hflag⟩

theorem signOut (s : Session) : KeepsKeys P s s.signOut := .inr ⟨rfl, rfl⟩

end KeepsKeys

/-! ## The handlers -/

variable {bb bb' : ByteBuffer} {t : UInt32} {key : AString} {nonce : UInt32}

private theorem sendPacket_then {s₀ : Session} {out : List Field}
    (h : (do let s ← sendPacket P s₀ t out; return (s, bb)) = some (s', bb')) (h₀ : Advances P s s₀) :
    KeepsKeys P s s' := by
  obtain ⟨s₁, h₁, h⟩ := Option.bind_eq_some_iff.mp h
  obtain ⟨rfl, -⟩ := Prod.mk.inj (Option.some.inj h)
  exact .of_advances (h₀.trans (Advances.keptBySending.sendPacket h₁))

theorem keepsKeys_handleRead {α : Type} {read : Option (Option α × ByteBuffer)}
    {next : α → ByteBuffer → Option (Session × ByteBuffer)}
    (hnext : ∀ var bb s' bb', next var bb = some (s', bb') → KeepsKeys P s s')
    (h : handleRead read s next = some (s', bb')) : KeepsKeys P s s' :=
  handleRead_post (.of_advances (.refl s)) hnext h

theorem keepsKeys_statusRequest (h : handlePacketStatusRequest P s bb = some (s', bb')) : KeepsKeys P s s' := by
  refine keepsKeys_handleRead (fun state _ _ _ h => ?_) h
  refine keepsKeys_handleRead (fun _ _ _ _ h => ?_) h
  refine keepsKeys_handleRead (fun _ _ _ _ h => ?_) h
  refine keepsKeys_handleRead (fun _ _ _ _ h => ?_) h
  split_ifs at h
  · obtain ⟨rfl, -⟩ := Prod.mk.inj (Option.some.inj h)
    exact .of_advances (.refl _)
  · exact sendPacket_then h (.of_eq rfl rfl rfl rfl)

theorem keepsKeys_loginAllow (h : handlePacketLoginAllow P s bb = some (s', bb')) : KeepsKeys P s s' :=
  sendPacket_then h (.refl s)

theorem keepsKeys_loginSuccess (h : handlePacketLoginSuccess P s bb = some (s', bb')) : KeepsKeys P s s' := by
  refine keepsKeys_handleRead (fun clientID _ _ _ h => ?_) h
  exact sendPacket_then h (.of_eq rfl rfl rfl rfl)

theorem keepsKeys_keepAlive (h : handlePacketKeepAlive P s bb = some (s', bb')) : KeepsKeys P s s' := by
  refine keepsKeys_handleRead (fun keepAliveID _ _ _ h => ?_) h
  exact sendPacket_then h (.refl s)

theorem keepsKeys_roomJoin (h : handlePacketRoomJoin P s bb = some (s', bb')) : KeepsKeys P s s' := by
  refine keepsKeys_handleRead (fun channel _ _ _ h => ?_) h
  refine keepsKeys_handleRead (fun ret _ _ _ h => ?_) h
  obtain ⟨rfl, -⟩ := Prod.mk.inj (Option.some.inj h)
  split_ifs
  · exact .of_advances (.emit s _)
  · exact .of_advances (.refl s)

theorem keepsKeys_channelMsg (h : handlePacketChannelMsg P s bb = some (s', bb')) : KeepsKeys P s s' := by
  refine keepsKeys_handleRead (fun channel _ _ _ h => ?_) h
  refine keepsKeys_handleRead (fun fromID _ _ _ h => ?_) h
  refine keepsKeys_handleRead (fun msg _ _ _ h => ?_) h
  obtain ⟨rfl, -⟩ := Prod.mk.inj (Option.some.inj h)
  exact .of_advances (.emit s _)

theorem handleRead_bind {σ τ α : Type} {read : Option (Option α × ByteBuffer)} {s : σ} {r : τ}
    {next : α → ByteBuffer → Option (σ × ByteBuffer)} {next' : α → ByteBuffer → Option (τ × ByteBuffer)}
    {f : τ × ByteBuffer → Option (σ × ByteBuffer)} (hr : ∀ bb, f (r, bb) = some (s, bb))
    (hnext : ∀ var bb, next var bb = (next' var bb).bind f) :
    handleRead read s next = (handleRead read r next').bind f := by
  unfold handleRead
  cases read with
  | none => rfl
  | some p =>
    obtain ⟨var, bb⟩ := p
    cases var with
    | none => exact (hr bb).symm
    | some var => exact hnext var bb

def answer (P : Platform) (s : Session) (r : Option (AString × UInt32) × ByteBuffer) : Option (Session × ByteBuffer) :=
  match r.1 with
  | none => some (s, r.2)
  | some (key, nonce) => (sendEncryptionKeyResponse P s key nonce).map fun s' => (s', r.2)

theorem handlePacketLoginEncryptionKeyRequest_eq (s : Session) (bb : ByteBuffer) :
    handlePacketLoginEncryptionKeyRequest P s bb = (keyRequest P bb).bind (answer P s) := by
  have hnone (bb : ByteBuffer) : answer P s (none, bb) = some (s, bb) := rfl
  refine handleRead_bind hnone fun _ bb => handleRead_bind hnone fun keyLen bb => ?_
  unfold assert
  split_ifs with hlen
  · cases hbuf : bb.readBuf keyLen.toUInt16.toNat with
    | none => rfl
    | some p =>
      obtain ⟨buffer, bb⟩ := p
      refine handleRead_bind hnone fun nonceLen bb => handleRead_bind hnone fun nonce bb => ?_
      by_cases hnonce : nonceLen ≠ 4
      · simp [hnonce, answer]
      · simp only [hnonce, if_false, answer, Option.bind_some]
        cases sendEncryptionKeyResponse P s (buffer.getD (List.replicate keyLen.toUInt16.toNat 0)) nonce.toUInt32 <;> rfl
  · rfl

end Session

namespace ConnectionClient

variable {P : Platform} {c c' : ConnectionClient} {bb bb' : ByteBuffer} {t : UInt32}

private theorem keepsKeys_errorCode (h : handlePacketErrorCode c bb = some (c', bb')) :
    Session.KeepsKeys P c.toSession c'.toSession := by
  refine handleRead_post (Q := fun c' => Session.KeepsKeys P c.toSession c'.toSession) (.of_advances (.refl _)) ?_ h
  intro _ _ c' _ h
  obtain ⟨rfl, -⟩ := Prod.mk.inj (Option.some.inj h)
  exact .after_advances (.emit _ _) (.signOut _)

private theorem keepsKeys_roomLeft (h : handlePacketRoomLeft P c bb = some (c', bb')) :
    Session.KeepsKeys P c.toSession c'.toSession := by
  refine handleRead_post (Q := fun c' => Session.KeepsKeys P c.toSession c'.toSession) (.of_advances (.refl _)) ?_ h
  intro channel _ c' _ h
  refine handleRead_post (Q := fun c' => Session.KeepsKeys P c.toSession c'.toSession) (.of_advances (.refl _)) ?_ h
  intro ret _ c' _ h
  obtain ⟨rfl, -⟩ := Prod.mk.inj (Option.some.inj h)
  split_ifs
  · exact .then_advances (.after_advances (.emit _ _) (.signOut _)) (.of_eq rfl rfl rfl rfl)
  · exact .of_advances (.of_eq rfl rfl rfl rfl)

/-- Every handler but that of a key request keeps the keys. -/
theorem keepsKeys_handler (h : handler P c bb t = some (some (c', bb')))
    (hother : ¬ (c.state.toNat = 2 ∧ t.toNat = 1)) : Session.KeepsKeys P c.toSession c'.toSession := by
  unfold handler at h
  split at h
  case h_1 => exact Session.keepsKeys_statusRequest (onSession_eq (Option.some.inj h))
  case h_2 => exact keepsKeys_errorCode (Option.some.inj h)
  case h_3 hs ht => exact absurd ⟨hs, ht⟩ hother
  case h_4 => exact Session.keepsKeys_loginAllow (onSession_eq (Option.some.inj h))
  case h_5 => exact Session.keepsKeys_loginSuccess (onSession_eq (Option.some.inj h))
  case h_6 => exact Session.keepsKeys_keepAlive (onSession_eq (Option.some.inj h))
  case h_7 => exact Session.keepsKeys_roomJoin (onSession_eq (Option.some.inj h))
  case h_8 => exact Session.keepsKeys_channelMsg (onSession_eq (Option.some.inj h))
  case h_9 => exact keepsKeys_roomLeft (Option.some.inj h)
  case h_10 => exact keepsKeys_errorCode (Option.some.inj h)
  case h_11 => cases h

theorem keepsKeys_handlePacket {ok : Bool} (h : handlePacket P c bb t = some (ok, c', bb'))
    (hother : ¬ (c.state.toNat = 2 ∧ t.toNat = 1)) : Session.KeepsKeys P c.toSession c'.toSession := by
  unfold handlePacket at h
  cases ho : handler P c bb t with
  | some o =>
    rw [ho] at h
    obtain ⟨⟨c₁, bb₁⟩, rfl, h⟩ := Option.bind_eq_some_iff.mp h
    obtain ⟨-, h⟩ := Prod.mk.inj (Option.some.inj h)
    obtain ⟨rfl, -⟩ := Prod.mk.inj h
    exact keepsKeys_handler ho hother
  | none =>
    rw [ho] at h
    dsimp only at h
    split_ifs at h
    all_goals
      obtain ⟨-, h⟩ := Prod.mk.inj (Option.some.inj h)
      obtain ⟨rfl, -⟩ := Prod.mk.inj h
      exact .of_advances (.of_eq rfl rfl rfl rfl)

theorem answer_of_handlePacket {ok : Bool} (h : handlePacket P c bb t = some (ok, c', bb'))
    (hkey : c.state.toNat = 2 ∧ t.toNat = 1) :
    ∃ r, Session.keyRequest P bb = some r ∧ Session.answer P c.toSession r = some (c'.toSession, bb') := by
  have hhandler : handler P c bb t = some (c.onSession (c.handlePacketLoginEncryptionKeyRequest P bb)) := by
    unfold handler
    rw [hkey.1, hkey.2]
    rfl
  rw [handlePacket, hhandler] at h
  obtain ⟨⟨c₁, bb₁⟩, h₁, h⟩ := Option.bind_eq_some_iff.mp h
  obtain ⟨-, h⟩ := Prod.mk.inj (Option.some.inj h)
  obtain ⟨rfl, rfl⟩ := Prod.mk.inj h
  have hrequest := onSession_eq h₁
  rw [Session.handlePacketLoginEncryptionKeyRequest_eq] at hrequest
  exact Option.bind_eq_some_iff.mp hrequest

end ConnectionClient

/-! ## One packet -/

namespace Session

variable {P : Platform} {s s' : Session} {body : List UInt8} {key : AString} {nonce : UInt32}

def withCryptors (P : Platform) (s : Session) : Session :=
  { s with
    encryptor := some ⟨P.sharedSecret, P.sharedSecret⟩
    decryptor := some ⟨P.sharedSecret, P.sharedSecret⟩
    encryptCalls := s.encryptCalls + 2 }

/-- The secret can be encrypted with the public key. -/
def SecretEncrypts (P : Platform) (s : Session) (key : AString) : Prop :=
  (P.encrypt s.encryptCalls key P.sharedSecret).isSome = true

/-- The nonce can be encrypted in the call after that. -/
def NonceEncrypts (P : Platform) (s : Session) (key : AString) (nonce : UInt32) : Prop :=
  (P.encrypt (s.encryptCalls + 1) key (hostBytes nonce)).isSome = true

theorem response_of_not_secret (h : ¬ SecretEncrypts P s key) :
    sendEncryptionKeyResponse P s key nonce = some { s with encryptCalls := s.encryptCalls + 1 } := by
  have hnone : P.encrypt s.encryptCalls key P.sharedSecret = none := by simpa [SecretEncrypts] using h
  simp [sendEncryptionKeyResponse, hnone]

theorem response_of_not_nonce (h : SecretEncrypts P s key) (h' : ¬ NonceEncrypts P s key nonce) :
    sendEncryptionKeyResponse P s key nonce = some (withCryptors P s) := by
  obtain ⟨secret, hsome⟩ := Option.isSome_iff_exists.mp h
  have hnone : P.encrypt (s.encryptCalls + 1) key (hostBytes nonce) = none := by simpa [NonceEncrypts] using h'
  simp [sendEncryptionKeyResponse, hsome, hnone, withCryptors]

theorem response_of_nonce (h : SecretEncrypts P s key) (h' : NonceEncrypts P s key nonce)
    (hs : sendEncryptionKeyResponse P s key nonce = some s') :
    ∃ s₁ fields, sendPacket P (withCryptors P s) 0x01 fields = some s₁ ∧ s' = { s₁ with isEncrypted := true } := by
  obtain ⟨secret, hsecret⟩ := Option.isSome_iff_exists.mp h
  obtain ⟨answer, hanswer⟩ := Option.isSome_iff_exists.mp h'
  simp only [sendEncryptionKeyResponse, hsecret, hanswer] at hs
  obtain ⟨s₁, h₁, hs⟩ := Option.bind_eq_some_iff.mp hs
  exact ⟨s₁, _, h₁, (Option.some.inj hs).symm⟩

private theorem events_sendData {data : List UInt8} (h : s.sendData P data = some s') :
    ∃ es, s'.events = s.events ++ .sendData data :: es := by
  unfold sendData at h
  dsimp only at h
  split_ifs at h
  · obtain ⟨es, he, -⟩ := (Sends.keptBySending.encryptLoop h).events
    exact ⟨es, by rw [he, emit, List.append_assoc]; rfl⟩
  · rw [← Option.some.inj h]
    exact ⟨[.send data], by simp [emit]⟩

theorem events_sendPacket {t : UInt32} {fields : List Field} (h : s.sendPacket P t fields = some s') :
    ∃ es, s'.events = s.events ++ es ∧ es.any Event.isSending = true := by
  unfold sendPacket at h
  obtain ⟨s₁, h₁, h⟩ := Option.bind_eq_some_iff.mp h
  obtain ⟨s₂, h₂, h⟩ := Option.bind_eq_some_iff.mp h
  obtain ⟨len, data, s₃, s₄, out, h₃, h₄, rfl⟩ := destroy_cases h
  obtain ⟨es₁, he₁, -⟩ := ((Sends.keptBySending (P := P)).new h₁).events
  obtain ⟨es₂, he₂, -⟩ := ((Sends.keptBySending (P := P)).writes h₂).events
  obtain ⟨es₃, he₃⟩ := events_sendData h₃
  obtain ⟨es₄, he₄⟩ := events_sendData h₄
  refine ⟨es₁ ++ es₂ ++ .sendData len :: es₃ ++ .sendData data :: es₄, ?_, ?_⟩
  · show s₄.events = _
    simp [he₄, he₃, he₂, he₁]
  · simp [Event.isSending]

/-- A packet keeps the keys, or it is a key request that is answered; what is reported before and after does not
matter. -/
theorem step_keys (hb : body.length + 2 < sizeT) (hs : s.step P body = some s') :
    requested P s body = none ∧ KeepsKeys P s s' ∨
      ∃ key nonce e s₁, requested P s body = some (key, nonce) ∧ e.isSending = false ∧
        sendEncryptionKeyResponse P (s.emit e) key nonce = some s₁ ∧
          (s' = s₁ ∨ ∃ e', e'.isSending = false ∧ s' = s₁.emit e') := by
  cases hv : P.varInt body with
  | none =>
    obtain ⟨rfl, -⟩ := step_of_none hb hv hs
    exact Or.inl ⟨by rw [requested, hv]; rfl, .of_advances (.refl _)⟩
  | some p =>
    obtain ⟨t, fields⟩ := p
    obtain ⟨⟨again, c⟩, h, rfl⟩ := Option.map_eq_some_iff.mp hs
    rw [ConnectionClient.handleBody_some hb hv] at h
    obtain ⟨⟨ok, c₁, bb⟩, h₁, h⟩ := Option.bind_eq_some_iff.mp h
    have hreport : c = c₁ ∨ c.toSession = c₁.toSession.emit (.packetError t) := by
      dsimp only at h
      split_ifs at h with hok
      · obtain ⟨-, rfl⟩ := Prod.mk.inj (Option.some.inj h)
        exact Or.inl rfl
      · obtain ⟨n, -, h⟩ := Option.bind_eq_some_iff.mp h
        split_ifs at h
        · obtain ⟨-, rfl⟩ := Prod.mk.inj (Option.some.inj h)
          exact Or.inr rfl
        · obtain ⟨-, rfl⟩ := Prod.mk.inj (Option.some.inj h)
          exact Or.inl rfl
    have hkept (hk : KeepsKeys P s c₁.toSession) : KeepsKeys P s c.toSession := by
      rcases hreport with rfl | he
      · exact hk
      · rw [he]
        exact hk.then_advances (.emit _ _)
    by_cases hkey : s.state.toNat = 2 ∧ t.toNat = 1
    · obtain ⟨r, hr, ha⟩ := ConnectionClient.answer_of_handlePacket h₁ hkey
      have hreq : requested P s body = r.1 := by
        simp [requested, hv, hr, hkey, assert]
      obtain ⟨r₁, bb₁⟩ := r
      cases r₁ with
      | none =>
        obtain ⟨he, -⟩ := Prod.mk.inj (Option.some.inj ha)
        exact Or.inl ⟨hreq, hkept (he ▸ .of_advances (.emit s _))⟩
      | some q =>
        obtain ⟨key, nonce⟩ := q
        obtain ⟨s₁, hs₁, he⟩ := Option.map_eq_some_iff.mp ha
        obtain ⟨rfl, -⟩ := Prod.mk.inj he
        refine Or.inr ⟨key, nonce, _, _, hreq, rfl, hs₁, ?_⟩
        rcases hreport with rfl | he
        · exact Or.inl rfl
        · exact Or.inr ⟨_, rfl, he⟩
    · have hreq : requested P s body = none := by
        simp [requested, hv, hkey, assert]
      have hk := ConnectionClient.keepsKeys_handlePacket h₁ hkey
      exact Or.inl ⟨hreq, hkept (.after_advances (.emit s _) hk)⟩

end Session

/-! ## Runs -/

/-- A session, beside how many pairs of cryptors have been made, of which the last one may be in place, and the number
of the pair whose secret was sent last. -/
structure Observed where
  session : Session
  made : ℕ := 0
  sent : ℕ := 0

/-- What happens to a session between two looks at it. -/
inductive Action where
  | packet (body : List UInt8)
  | decrypt (aData : List UInt8)
  | full
  | send (aPacketType : UInt32) (fields : List Field)
  | connect (bConnect : Bool) (rChannel : AString)
  | signOut

namespace Session

def sentSince (s s' : Session) : Bool := (s'.events.drop s.events.length).any Event.isSending

def act (P : Platform) (s : Session) : Action → Option Session
  | .packet body => if body.length ≤ 16384 then s.step P body else none
  | .decrypt aData => s.decryptor.map fun c => { s with decryptor := some (c.decrypt P aData).2 }
  | .full => some (s.emit .packetBufferFull)
  | .send aPacketType fields => s.sendPacket P aPacketType fields
  | .connect bConnect rChannel => some { s with bConnect, rChannel }
  | .signOut => some s.signOut

theorem sentSince_of_append {s s' : Session} {es : List Event} (h : s'.events = s.events ++ es) :
    sentSince s s' = es.any Event.isSending := by
  rw [sentSince, h, List.drop_left]

end Session

namespace Observed

open Session Transition

variable (P : Platform)

def new (aUserName : AString) : Observed := { session := (ConnectionClient.new P aUserName).toSession }

/-- The second call of `Encrypt` comes behind the cryptors. -/
def observe (o : Observed) (s' : Session) : Observed :=
  if s'.encryptCalls = o.session.encryptCalls + 2 then
    { session := s', made := o.made + 1, sent := if sentSince o.session s' then o.made + 1 else o.sent }
  else { o with session := s' }

/-- A call of `SendEncryptionKeyResponse`. -/
def respond (o : Observed) (key : AString) (nonce : UInt32) : Option Observed :=
  (sendEncryptionKeyResponse P o.session key nonce).map o.observe

def step (o : Observed) (a : Action) : Option (Unit × Observed) :=
  (o.session.act P a).map fun s' => ((), o.observe s')

/-- The same cryptors are in place, encryption is on or off as before, and nothing is sent. -/
structure Unchanged (o o' : Observed) : Prop where
  made : o'.made = o.made
  encryptor : o'.session.encryptor = o.session.encryptor
  decryptor : o'.session.decryptor = o.session.decryptor
  isEncrypted : o'.session.isEncrypted = o.session.isEncrypted
  events : o'.session.events = o.session.events

/-- If the secret or the nonce cannot be encrypted, nothing is changed. -/
def AllOrNothing (o : Observed) (key : AString) (nonce : UInt32) : Prop :=
  ¬ SecretEncrypts P o.session key ∨ ¬ NonceEncrypts P o.session key nonce →
    ∃ o', o.respond P key nonce = some o' ∧ Unchanged o o'

/-- On an encrypted connection both cryptors are there, initialised with the same secret, and are the ones whose secret
was sent last. -/
def Agree (o : Observed) : Prop :=
  o.session.isEncrypted = true → (∃ secret, InitialisedWith P secret o.session) ∧ o.made = o.sent

/-- If a packet asks for a key while encryption is on and is answered, then the nonce can be encrypted if the secret
can. -/
def Answerable (o : Observed) (a : Action) : Prop :=
  ∀ body key nonce, a = .packet body → (o.session.act P a).isSome = true →
    requested P o.session body = some (key, nonce) → o.session.isEncrypted = true →
    SecretEncrypts P o.session key → NonceEncrypts P o.session key nonce

variable {P} {o o' : Observed} {s' : Session} {a : Action} {key : AString} {nonce : UInt32}

private theorem observe_of_eq (h : s'.encryptCalls = o.session.encryptCalls) :
    o.observe s' = { o with session := s' } := by
  rw [observe, if_neg (by omega)]

theorem observe_of_made (h : s'.encryptCalls = o.session.encryptCalls + 2) : o.observe s' =
    { session := s', made := o.made + 1, sent := if sentSince o.session s' then o.made + 1 else o.sent } := by
  rw [observe, if_pos h]

/-- One call changes nothing when it fails exactly if it does not fail behind the cryptors. -/
theorem allOrNothing_iff :
    AllOrNothing P o key nonce ↔ (SecretEncrypts P o.session key → NonceEncrypts P o.session key nonce) := by
  by_cases hsecret : SecretEncrypts P o.session key
  · by_cases hnonce : NonceEncrypts P o.session key nonce
    · exact iff_of_true (fun h => absurd h (by simp [hsecret, hnonce])) fun _ => hnonce
    · refine iff_of_false (fun h => ?_) fun h => hnonce (h hsecret)
      obtain ⟨o', hrespond, hsame⟩ := h (Or.inr hnonce)
      have hmade : (o.observe (withCryptors P o.session)).made = o.made + 1 := by
        rw [observe_of_made rfl]
      rw [respond, response_of_not_nonce hsecret hnonce] at hrespond
      obtain rfl := Option.some.inj hrespond
      have hkept := hsame.made
      omega
  · refine iff_of_true (fun _ => ?_) fun h => absurd h hsecret
    refine ⟨{ o with session := { o.session with encryptCalls := o.session.encryptCalls + 1 } }, ?_, ?_⟩
    · rw [respond, response_of_not_secret hsecret, Option.map_some, observe, if_neg (by simp)]
    · exact ⟨rfl, rfl, rfl, rfl, rfl⟩

theorem agree_of_keepsKeys (h : KeepsKeys P o.session s') (hagree : Agree P o) : Agree P (o.observe s') := by
  intro henc
  rcases h with h | ⟨hcalls, hflag⟩
  · rw [observe_of_eq h.encryptCalls] at henc ⊢
    obtain ⟨⟨secret, hinit⟩, hsame⟩ := hagree (h.isEncrypted ▸ henc)
    exact ⟨⟨secret, h.initialisedWith hinit⟩, hsame⟩
  · rw [observe_of_eq hcalls] at henc
    rw [hflag] at henc
    cases henc

/-- An answer keeps the agreement exactly if it is not one that stops behind the cryptors while encryption is on. What is
reported before and behind the answer is `es`. -/
theorem agree_response_iff {e : Event} {s₁ : Session} (es : List Event) (hagree : Agree P o)
    (he : e.isSending = false) (hes : es.any Event.isSending = false)
    (hs₁ : sendEncryptionKeyResponse P (o.session.emit e) key nonce = some s₁) (h : Advances P s₁ s')
    (hevents : s'.events = s₁.events ++ es) :
    Agree P (o.observe s') ↔
      (o.session.isEncrypted = true → SecretEncrypts P o.session key → NonceEncrypts P o.session key nonce) := by
  by_cases hsecret : SecretEncrypts P o.session key
  · by_cases hnonce : NonceEncrypts P o.session key nonce
    · refine iff_of_true (fun _ => ?_) fun _ _ => hnonce
      obtain ⟨s₂, fields, hsend, rfl⟩ := response_of_nonce (P := P) (s := o.session.emit e) hsecret hnonce hs₁
      have hadvances := Advances.keptBySending.sendPacket hsend
      obtain ⟨es', hes', hany⟩ := events_sendPacket hsend
      have hcalls : s'.encryptCalls = o.session.encryptCalls + 2 := h.encryptCalls.trans hadvances.encryptCalls
      have hsent : sentSince o.session s' = true := by
        have happend : s'.events = o.session.events ++ (e :: es' ++ es) := by
          rw [hevents, hes']
          simp [withCryptors, emit]
        rw [sentSince_of_append happend, List.any_append, List.any_cons, hany, Bool.or_true, Bool.true_or]
      rw [observe_of_made hcalls, hsent]
      have hinit : InitialisedWith P P.sharedSecret (withCryptors P (o.session.emit e)) := ⟨⟨[], rfl⟩, [], rfl⟩
      have hinit₂ := hadvances.initialisedWith hinit
      exact ⟨⟨P.sharedSecret, h.initialisedWith ⟨hinit₂.encryptor, hinit₂.decryptor⟩⟩, rfl⟩
    · rw [response_of_not_nonce (P := P) (s := o.session.emit e) hsecret hnonce] at hs₁
      obtain rfl := Option.some.inj hs₁
      have hsent : sentSince o.session s' = false := by
        have happend : s'.events = o.session.events ++ (e :: es) := by
          rw [hevents]
          simp [withCryptors, emit]
        rw [sentSince_of_append happend, List.any_cons, he, hes, Bool.or_false]
      have hflag : s'.isEncrypted = o.session.isEncrypted := h.isEncrypted
      rw [observe_of_made h.encryptCalls, hsent]
      constructor
      · intro h' henc
        have hsame : o.made + 1 = o.sent := (h' (hflag.trans henc)).2
        have hbefore := (hagree henc).2
        omega
      · intro hoff henc
        exact absurd (hoff (hflag.symm.trans henc) hsecret) hnonce
  · refine iff_of_true (fun henc => ?_) fun _ hs => absurd hs hsecret
    rw [response_of_not_secret (P := P) (s := o.session.emit e) hsecret] at hs₁
    obtain rfl := Option.some.inj hs₁
    have hcalls : s'.encryptCalls = o.session.encryptCalls + 1 := h.encryptCalls
    rw [observe, if_neg (by omega)] at henc ⊢
    obtain ⟨⟨secret, hinit⟩, hsame⟩ := hagree (h.isEncrypted.symm.trans henc)
    exact ⟨⟨secret, h.initialisedWith ⟨hinit.encryptor, hinit.decryptor⟩⟩, hsame⟩

private theorem agree_packet_iff {body : List UInt8} (hagree : Agree P o) (hb : body.length + 2 < sizeT)
    (hs : o.session.step P body = some s') :
    Agree P (o.observe s') ↔ ∀ key nonce, requested P o.session body = some (key, nonce) →
      o.session.isEncrypted = true → SecretEncrypts P o.session key → NonceEncrypts P o.session key nonce := by
  rcases step_keys hb hs with ⟨hnone, hkeeps⟩ | ⟨key, nonce, e, s₁, hreq, he, hs₁, hreport⟩
  · refine iff_of_true (agree_of_keepsKeys hkeeps hagree) fun key nonce h => ?_
    rw [hnone] at h
    cases h
  · have hanswer : Agree P (o.observe s') ↔
        (o.session.isEncrypted = true → SecretEncrypts P o.session key → NonceEncrypts P o.session key nonce) := by
      rcases hreport with rfl | ⟨e', he', rfl⟩
      · exact agree_response_iff [] hagree he rfl hs₁ (.refl _) (List.append_nil _).symm
      · exact agree_response_iff [e'] hagree he (by rw [List.any_cons, he']; rfl) hs₁ (.emit _ _) rfl
    rw [hanswer, hreq]
    constructor
    · intro h key' nonce' heq
      cases heq
      exact h
    · intro h
      exact h key nonce rfl

/-- One action keeps the agreement exactly if it is answerable. -/
theorem agree_step_iff {u : Unit} (hagree : Agree P o) (hs : o.step P a = some (u, o')) :
    Agree P o' ↔ Answerable P o a := by
  obtain ⟨s', hact, ho⟩ := Option.map_eq_some_iff.mp hs
  obtain ⟨-, rfl⟩ := Prod.mk.inj ho
  cases a with
  | packet body =>
    have hhandled : (o.session.act P (.packet body)).isSome = true := by
      rw [hact]
      rfl
    rw [act] at hact
    split_ifs at hact with hlen
    have hb : body.length + 2 < sizeT := by
      unfold sizeT
      omega
    rw [agree_packet_iff hagree hb hact]
    constructor
    · intro h body' key nonce hbody _ hreq
      obtain rfl := Action.packet.inj hbody
      exact h key nonce hreq
    · intro h key nonce hreq
      exact h body key nonce rfl hhandled hreq
  | decrypt aData =>
    refine iff_of_true (agree_of_keepsKeys ?_ hagree) nofun
    obtain ⟨c, hc, rfl⟩ := Option.map_eq_some_iff.mp hact
    refine .of_advances ⟨rfl, rfl, fun c' hc' => ⟨[], hc'⟩, fun c' hc' => ⟨aData, ?_⟩⟩
    rw [Option.some.inj (hc'.symm.trans hc)]
  | full =>
    refine iff_of_true (agree_of_keepsKeys ?_ hagree) nofun
    obtain rfl := Option.some.inj hact
    exact .of_advances (.emit _ _)
  | send aPacketType fields =>
    exact iff_of_true (agree_of_keepsKeys (.of_advances (Advances.keptBySending.sendPacket hact)) hagree) nofun
  | connect bConnect rChannel =>
    refine iff_of_true (agree_of_keepsKeys ?_ hagree) nofun
    obtain rfl := Option.some.inj hact
    exact .of_advances (.of_eq rfl rfl rfl rfl)
  | signOut =>
    refine iff_of_true (agree_of_keepsKeys ?_ hagree) nofun
    obtain rfl := Option.some.inj hact
    exact .signOut _

private theorem agree_new (P : Platform) (aUserName : AString) : Agree P (new P aUserName) := nofun

end Observed

/-- Every state of a connection is one that some actions lead to. -/
theorem ConnectionClient.observed_of_reachable {P : Platform} {aUserName : AString} {c : ConnectionClient}
    (h : c.Reachable P aUserName) : ∃ actions us o,
      Transition.run? (Observed.step P) (.new P aUserName) actions = some (us, o) ∧ o.session = c.toSession := by
  have hthen {s s' : Session} {a : Action}
      (hs : ∃ actions us o, Transition.run? (Observed.step P) (.new P aUserName) actions = some (us, o) ∧ o.session = s)
      (ha : s.act P a = some s') : ∃ actions us o,
        Transition.run? (Observed.step P) (.new P aUserName) actions = some (us, o) ∧ o.session = s' := by
    obtain ⟨actions, us, o, hrun, rfl⟩ := hs
    have hstep : o.step P a = some ((), o.observe s') := by rw [Observed.step, ha]; rfl
    refine ⟨actions ++ [a], us ++ [()], o.observe s', Transition.run?_concat hrun hstep, ?_⟩
    unfold Observed.observe
    split_ifs <;> rfl
  have hclosed : SessionClosed P fun s => ∃ actions us o,
      Transition.run? (Observed.step P) (.new P aUserName) actions = some (us, o) ∧ o.session = s :=
    { step := fun {_ _ body} hs hb hstep => hthen (a := .packet body) hs ((if_pos hb).trans hstep)
      sendPacket := fun {_ _ t fields} hs hsend => hthen (a := .send t fields) hs hsend
      full := fun hs => hthen (a := .full) hs rfl
      decrypt := fun {_ _} aData hs hd => hthen (a := .decrypt aData) hs (by rw [Session.act, hd]; rfl)
      connect := fun bConnect rChannel hs => hthen (a := .connect bConnect rChannel) hs rfl
      signOut := fun hs => hthen (a := .signOut) hs rfl }
  exact (hclosed.reachable ⟨[], [], .new P aUserName, rfl, rfl⟩ h).2

namespace Observed

open Session Transition

/-- A call changes nothing when it fails, exactly if the nonce can be encrypted behind the secret; and along a run the
cryptors of an encrypted connection are those whose secret was sent last, exactly if that is so for every key that is
asked for while encryption is on. -/
theorem keyExchange_iff (P : Platform) (aUserName : AString) :
    (∀ o key nonce, AllOrNothing P o key nonce ↔
      (SecretEncrypts P o.session key → NonceEncrypts P o.session key nonce)) ∧
    ∀ actions, Always (step P) (Agree P) (new P aUserName) actions ↔
      Along (step P) (Answerable P) (new P aUserName) actions := by
  refine ⟨fun o key nonce => allOrNothing_iff, fun actions => ?_⟩
  apply always_iff_along (I := fun _ => True)
  · intro o a u o' _ hagree hs
    exact agree_step_iff hagree hs
  · intro o a hs body key nonce _ hhandled
    rw [step, Option.map_eq_none_iff] at hs
    rw [hs] at hhandled
    cases hhandled
  · intros
    trivial
  · trivial
  · exact agree_new P aUserName

/-- A platform on which one call of `Encrypt` fails. -/
def failing (call : ℕ) : Platform :=
  { Platform.zero with
    encrypt := fun n _ _ => if n = call then none else some (Vector.replicate 128 0)
    aes := fun _ _ => List.replicate 16 0 }

/-- A status packet that asks for the login, and a key request. -/
def askLogin : Action := .packet [0, 0, 0, 0, 2, 0, 0, 0]

def askKey : Action := .packet [1, 0, 0, 0, 0, 4, 0, 0, 0, 0]

/-- If the nonce of a first exchange cannot be encrypted, the cryptors are there all the same; and if that of a second
one cannot, the cryptors in place are not those of the secret that was sent. -/
theorem not_keyExchange : ¬ AllOrNothing (failing 1) (new (failing 1) []) [] 0 ∧
    ¬ Always (step (failing 3)) (Agree (failing 3)) (new (failing 3) []) [askLogin, askKey, askKey] := by
  constructor
  · intro h
    exact Bool.false_ne_true (allOrNothing_iff.mp h rfl)
  · intro h
    have hrun : (run? (step (failing 3)) (new (failing 3) []) [askLogin, askKey, askKey]).map
        (fun r => (r.2.session.isEncrypted, r.2.made, r.2.sent)) = some (true, 2, 1) := by decide +kernel
    obtain ⟨⟨us, o⟩, hr, ho⟩ := Option.map_eq_some_iff.mp hrun
    obtain ⟨henc, ho⟩ := Prod.mk.inj ho
    obtain ⟨hmade, hsent⟩ := Prod.mk.inj ho
    have hsame : o.made = o.sent := (h.run hr henc).2
    rw [show o.made = 2 from hmade, show o.sent = 1 from hsent] at hsame
    exact absurd hsame (by decide)

end Observed

end Sfup.Client
