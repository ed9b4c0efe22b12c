import Sfup.Client.ConnectionClient

/-! What the packet handlers can do: which packets they take, that only `SignOut` reaches the
received data, and that none of them reports to the receive loop's own events. -/
namespace Sfup.Client

def Event.isFraming : Event → Bool
  | handlePacket .. | packetBufferFull => true
  | _ => false

def Event.isSending : Event → Bool
  | sendData .. | send .. => true
  | _ => false

namespace Session

def framing (s : Session) : List Event := s.events.filter Event.isFraming

theorem framing_emit_of_false (s : Session) {e : Event} (he : e.isFraming = false) :
    (s.emit e).framing = s.framing := by
  simp [framing, emit, List.filter_append, he]

theorem framing_emit_of_true (s : Session) {e : Event} (he : e.isFraming = true) :
    (s.emit e).framing = s.framing ++ [e] := by
  simp [framing, emit, List.filter_append, he]

end Session

/-- A failed read keeps the state, and anything the rest keeps is kept by the whole. -/
theorem handleRead_post {σ α : Type} {Q : σ → Prop} {read : Option (Option α × ByteBuffer)} {s : σ}
    {next : α → ByteBuffer → Option (σ × ByteBuffer)} (hs : Q s)
    (hnext : ∀ var bb s' bb', next var bb = some (s', bb') → Q s') {s' : σ} {bb' : ByteBuffer}
    (h : handleRead read s next = some (s', bb')) : Q s' := by
  unfold handleRead at h
  obtain ⟨⟨var, bb⟩, -, h⟩ := Option.bind_eq_some_iff.mp h
  cases var with
  | none =>
    obtain ⟨rfl, -⟩ := Prod.mk.inj (Option.some.inj h)
    exact hs
  | some var => exact hnext var bb s' bb' h

namespace Session

variable {P : Platform} {s s' : Session}

theorem framing_handleRead {α : Type} {read : Option (Option α × ByteBuffer)}
    {next : α → ByteBuffer → Option (Session × ByteBuffer)}
    (hnext : ∀ var bb s' bb', next var bb = some (s', bb') → s'.framing = s.framing) {bb' : ByteBuffer}
    (h : handleRead read s next = some (s', bb')) : s'.framing = s.framing :=
  handleRead_post (Q := fun s' => s'.framing = s.framing) rfl hnext h

/-- The length and then the packet are sent, and the buffer is emptied. -/
theorem destroy_cases (h : Packetizer.destroy P s = some s') : ∃ len data s₁ s₂ out,
    s.sendData P len = some s₁ ∧ s₁.sendData P data = some s₂ ∧ s' = { s₂ with outPacketBuffer := out } := by
  unfold Packetizer.destroy at h
  obtain ⟨used, -, h⟩ := Option.bind_eq_some_iff.mp h
  obtain ⟨⟨ok, len⟩, -, h⟩ := Option.bind_eq_some_iff.mp h
  obtain ⟨⟨data, len⟩, -, h⟩ := Option.bind_eq_some_iff.mp h
  obtain ⟨s₁, h₁, h⟩ := Option.bind_eq_some_iff.mp h
  obtain ⟨-, -, h⟩ := Option.bind_eq_some_iff.mp h
  obtain ⟨⟨data', out⟩, -, h⟩ := Option.bind_eq_some_iff.mp h
  obtain ⟨s₂, h₂, h⟩ := Option.bind_eq_some_iff.mp h
  obtain ⟨out', -, h⟩ := Option.bind_eq_some_iff.mp h
  exact ⟨_, _, s₁, s₂, out', h₁, h₂, (Option.some.inj h).symm⟩

/-- A relation between the sessions before and after each part of sending. -/
structure KeptBySending (P : Platform) (R : Session → Session → Prop) : Prop where
  refl : ∀ s : Session, R s s
  trans : ∀ {s s' s'' : Session}, R s s' → R s' s'' → R s s''
  emit : ∀ (s : Session) {e : Event}, e.isSending = true → R s (s.emit e)
  outPacketBuffer : ∀ (s : Session) (b : ByteBuffer), R s { s with outPacketBuffer := b }
  encrypt : ∀ (s : Session) {c : AesCfb128} (data : List UInt8), s.encryptor = some c →
    R s { s with encryptor := some (c.encrypt P data).2 }

namespace KeptBySending

variable {R : Session → Session → Prop}

theorem encryptLoop (hR : KeptBySending P R) {fuel : ℕ} {data : List UInt8}
    (h : s.encryptLoop P fuel data = some s') : R s s' := by
  induction fuel generalizing s data with
  | zero =>
    cases data with
    | nil =>
      obtain rfl : s = s' := by simpa [Session.encryptLoop] using h
      exact hR.refl s
    | cons x xs => simp [Session.encryptLoop] at h
  | succ fuel ih =>
    cases data with
    | nil =>
      obtain rfl : s = s' := by simpa [Session.encryptLoop] using h
      exact hR.refl s
    | cons x xs =>
      rw [Session.encryptLoop] at h
      · obtain ⟨c, hc, h⟩ := Option.bind_eq_some_iff.mp h
        have hsend : R { s with encryptor := some (c.encrypt P ((x :: xs).take 8192)).2 } _ :=
          hR.trans (hR.emit _ (e := .send (c.encrypt P ((x :: xs).take 8192)).1) rfl) (ih h)
        exact hR.trans (hR.encrypt s _ hc) hsend
      · simp

theorem sendData (hR : KeptBySending P R) {data : List UInt8} (h : s.sendData P data = some s') : R s s' := by
  unfold Session.sendData at h
  dsimp only at h
  split_ifs at h
  · exact hR.trans (hR.emit s rfl) (hR.encryptLoop h)
  · rw [← Option.some.inj h]
    exact hR.trans (hR.emit s rfl) (hR.emit _ rfl)

theorem write (hR : KeptBySending P R) {f : Field} (h : Packetizer.write s f = some s') : R s s' := by
  unfold Packetizer.write at h
  obtain ⟨⟨ok, out⟩, -, h⟩ := Option.bind_eq_some_iff.mp h
  obtain ⟨-, -, h⟩ := Option.bind_eq_some_iff.mp h
  rw [← Option.some.inj h]
  exact hR.outPacketBuffer s out

theorem writes (hR : KeptBySending P R) {fields : List Field} (h : fields.foldlM Packetizer.write s = some s') :
    R s s' := by
  induction fields generalizing s with
  | nil =>
    rw [← Option.some.inj h]
    exact hR.refl s
  | cons f fields ih =>
    rw [List.foldlM_cons] at h
    obtain ⟨s₁, h₁, h⟩ := Option.bind_eq_some_iff.mp h
    exact hR.trans (hR.write h₁) (ih h)

theorem destroy (hR : KeptBySending P R) (h : Packetizer.destroy P s = some s') : R s s' := by
  obtain ⟨len, data, s₁, s₂, out, h₁, h₂, rfl⟩ := destroy_cases h
  exact hR.trans (hR.sendData h₁) (hR.trans (hR.sendData h₂) (hR.outPacketBuffer s₂ out))

theorem new (hR : KeptBySending P R) {t : UInt32} (h : Packetizer.new s t = some s') : R s s' := by
  unfold Packetizer.new at h
  obtain ⟨⟨ok, out⟩, -, h⟩ := Option.bind_eq_some_iff.mp h
  rw [← Option.some.inj h]
  exact hR.outPacketBuffer s out

theorem sendPacket (hR : KeptBySending P R) {t : UInt32} {fields : List Field}
    (h : s.sendPacket P t fields = some s') : R s s' := by
  unfold Session.sendPacket at h
  obtain ⟨s₁, h₁, h⟩ := Option.bind_eq_some_iff.mp h
  obtain ⟨s₂, h₂, h⟩ := Option.bind_eq_some_iff.mp h
  exact hR.trans (hR.new h₁) (hR.trans (hR.writes h₂) (hR.destroy h))

end KeptBySending

private theorem framing_keptBySending : KeptBySending P fun s s' => s'.framing = s.framing where
  refl _ := rfl
  trans h h' := h'.trans h
  emit s e he := framing_emit_of_false s (by cases e <;> first | rfl | cases he)
  outPacketBuffer _ _ := rfl
  encrypt _ _ _ _ := rfl

theorem framing_sendPacket {t : UInt32} {fields : List Field} (h : sendPacket P s t fields = some s') :
    s'.framing = s.framing := framing_keptBySending.sendPacket h

private theorem framing_sendPacket_bind {s₀ : Session} {t : UInt32} {fields : List Field}
    {bb bb' : ByteBuffer}
    (h : (do let s ← sendPacket P s₀ t fields; return (s, bb)) = some (s', bb')) :
    s'.framing = s₀.framing := by
  obtain ⟨s₁, h₁, h⟩ := Option.bind_eq_some_iff.mp h
  obtain ⟨rfl, -⟩ := Prod.mk.inj (Option.some.inj h)
  exact framing_sendPacket h₁

private theorem framing_sendEncryptionKeyResponse {key : AString} {nonce : UInt32}
    (h : sendEncryptionKeyResponse P s key nonce = some s') : s'.framing = s.framing := by
  unfold sendEncryptionKeyResponse at h
  dsimp only at h
  split at h
  · split at h
    · obtain ⟨s₁, h₁, h⟩ := Option.bind_eq_some_iff.mp h
      rw [← Option.some.inj h]
      have hq := framing_sendPacket h₁
      exact hq
    · rw [← Option.some.inj h]
      rfl
  · rw [← Option.some.inj h]
    rfl

theorem framing_handlePacketStatusRequest {bb bb' : ByteBuffer}
    (h : handlePacketStatusRequest P s bb = some (s', bb')) : s'.framing = s.framing := by
  refine framing_handleRead (fun state _ _ _ h => ?_) h
  refine framing_handleRead (fun _ _ _ _ h => ?_) h
  refine framing_handleRead (fun _ _ _ _ h => ?_) h
  refine framing_handleRead (fun _ _ _ _ h => ?_) h
  split_ifs at h
  · obtain ⟨rfl, -⟩ := Prod.mk.inj (Option.some.inj h)
    rfl
  · exact (framing_sendPacket_bind h).trans rfl

theorem framing_handlePacketLoginEncryptionKeyRequest {bb bb' : ByteBuffer}
    (h : handlePacketLoginEncryptionKeyRequest P s bb = some (s', bb')) : s'.framing = s.framing := by
  refine framing_handleRead (fun _ _ _ _ h => ?_) h
  refine framing_handleRead (fun _ _ _ _ h => ?_) h
  obtain ⟨-, -, h⟩ := Option.bind_eq_some_iff.mp h
  obtain ⟨⟨buffer, bb⟩, -, h⟩ := Option.bind_eq_some_iff.mp h
  refine framing_handleRead (fun _ _ _ _ h => ?_) h
  refine framing_handleRead (fun _ _ _ _ h => ?_) h
  split_ifs at h
  · obtain ⟨rfl, -⟩ := Prod.mk.inj (Option.some.inj h)
    rfl
  · obtain ⟨s₁, h₁, h⟩ := Option.bind_eq_some_iff.mp h
    obtain ⟨rfl, -⟩ := Prod.mk.inj (Option.some.inj h)
    exact framing_sendEncryptionKeyResponse h₁

theorem framing_handlePacketLoginAllow {bb bb' : ByteBuffer}
    (h : handlePacketLoginAllow P s bb = some (s', bb')) : s'.framing = s.framing := by
  exact framing_sendPacket_bind h

theorem framing_handlePacketLoginSuccess {bb bb' : ByteBuffer}
    (h : handlePacketLoginSuccess P s bb = some (s', bb')) : s'.framing = s.framing := by
  refine framing_handleRead (fun id _ _ _ h => ?_) h
  exact (framing_sendPacket_bind h).trans (framing_emit_of_false _ rfl)

theorem framing_handlePacketKeepAlive {bb bb' : ByteBuffer}
    (h : handlePacketKeepAlive P s bb = some (s', bb')) : s'.framing = s.framing := by
  refine framing_handleRead (fun _ _ _ _ h => ?_) h
  exact framing_sendPacket_bind h

theorem framing_handlePacketRoomJoin {bb bb' : ByteBuffer}
    (h : handlePacketRoomJoin P s bb = some (s', bb')) : s'.framing = s.framing := by
  refine framing_handleRead (fun _ _ _ _ h => ?_) h
  refine framing_handleRead (fun _ _ _ _ h => ?_) h
  obtain ⟨rfl, -⟩ := Prod.mk.inj (Option.some.inj h)
  split_ifs
  · rw [framing_emit_of_false _ rfl]
  · rfl

theorem framing_handlePacketChannelMsg {bb bb' : ByteBuffer}
    (h : handlePacketChannelMsg P s bb = some (s', bb')) : s'.framing = s.framing := by
  refine framing_handleRead (fun _ _ _ _ h => ?_) h
  refine framing_handleRead (fun _ _ _ _ h => ?_) h
  refine framing_handleRead (fun _ _ _ _ h => ?_) h
  obtain ⟨rfl, -⟩ := Prod.mk.inj (Option.some.inj h)
  rw [framing_emit_of_false _ rfl]

theorem framing_signOut (s : Session) : s.signOut.framing = s.framing :=
  framing_emit_of_false _ rfl

end Session

def known (state aPacketType : UInt32) : Bool :=
  (state.toNat, aPacketType.toNat) ∈
    [(1, 0x00), (2, 0x00), (2, 0x01), (2, 0x02), (2, 0x03), (3, 0x00), (3, 0x01), (3, 0x02), (3, 0x09),
      (3, 0x40)]

def readsErrorCode (bb : ByteBuffer) : Bool :=
  match bb.readBEInt32 with
  | some (some _, _) => true
  | _ => false

def readsLeave (P : Platform) (bb : ByteBuffer) : Bool :=
  match bb.readVarUTF8String P with
  | some (some _, bb) =>
    match bb.readVarInt32 P with
    | some (some ret, _) => ret != 0
    | _ => false
  | _ => false

/-- Whether the handler of a packet reaches `SignOut`. -/
def signsOut (P : Platform) (state : UInt32) (bb : ByteBuffer) (aPacketType : UInt32) : Bool :=
  match state.toNat, aPacketType.toNat with
  | 2, 0x00 => readsErrorCode bb
  | 3, 0x40 => readsErrorCode bb
  | 3, 0x09 => readsLeave P bb
  | _, _ => false

theorem known_of_signsOut {P : Platform} {state t : UInt32} {bb : ByteBuffer}
    (h : signsOut P state bb t = true) : known state t = true := by
  unfold signsOut at h
  split at h
  case h_4 => cases h
  all_goals simp_all [known]

namespace ConnectionClient

variable {P : Platform}

def swapReceived (r : ByteBuffer) (p : ConnectionClient × ByteBuffer) : ConnectionClient × ByteBuffer :=
  ({ p.1 with receivedData := r }, p.2)

private theorem onSession_swap (s : Session) (r r₀ : ByteBuffer) (o : Option (Session × ByteBuffer)) :
    onSession ⟨s, r⟩ o = (onSession ⟨s, r₀⟩ o).map (swapReceived r) := by
  cases o <;> rfl

private theorem handlePacketErrorCode_swap (s : Session) (r r₀ bb : ByteBuffer) :
    handlePacketErrorCode ⟨s, r⟩ bb = (handlePacketErrorCode ⟨s, r₀⟩ bb).map
      (swapReceived (if readsErrorCode bb then r.clearAll else r)) := by
  unfold handlePacketErrorCode handleRead readsErrorCode
  cases bb.readBEInt32 with
  | none => rfl
  | some p =>
    obtain ⟨reason, bb⟩ := p
    cases reason <;> rfl

private theorem handlePacketRoomLeft_swap (s : Session) (r r₀ bb : ByteBuffer) :
    handlePacketRoomLeft P ⟨s, r⟩ bb = (handlePacketRoomLeft P ⟨s, r₀⟩ bb).map
      (swapReceived (if readsLeave P bb then r.clearAll else r)) := by
  rcases h₁ : bb.readVarUTF8String P with _ | ⟨_ | channel, bb₁⟩
  · simp [handlePacketRoomLeft, handleRead, readsLeave, h₁]
  · simp [handlePacketRoomLeft, handleRead, readsLeave, h₁, swapReceived]
  rcases h₂ : bb₁.readVarInt32 P with _ | ⟨_ | ret, bb₂⟩
  · simp [handlePacketRoomLeft, handleRead, readsLeave, h₁, h₂]
  · simp [handlePacketRoomLeft, handleRead, readsLeave, h₁, h₂, swapReceived]
  by_cases hret : ret = 0
  · simp [handlePacketRoomLeft, handleRead, readsLeave, h₁, h₂, swapReceived, hret]
  · simp [handlePacketRoomLeft, handleRead, readsLeave, h₁, h₂, swapReceived, hret, signOut]

/-- The handlers do the same whatever has been received, and leave it alone or clear it. -/
theorem handler_swap (s : Session) (r r₀ bb : ByteBuffer) (t : UInt32) :
    handler P ⟨s, r⟩ bb t = (handler P ⟨s, r₀⟩ bb t).map fun o =>
      o.map (swapReceived (if signsOut P s.state bb t then r.clearAll else r)) := by
  unfold handler signsOut
  dsimp only
  split
  case h_2 | h_10 => simp [*, handlePacketErrorCode_swap s r r₀ bb]
  case h_9 => simp [*, handlePacketRoomLeft_swap s r r₀ bb]
  case h_11 => rfl
  all_goals simp [*, onSession_swap s r r₀]

theorem handler_isSome (c : ConnectionClient) (bb : ByteBuffer) (t : UInt32) :
    (handler P c bb t).isSome = known c.state t := by
  unfold handler known
  split
  case h_11 => simp; grind
  all_goals simp_all

private theorem framing_onSession {c c' : ConnectionClient} {bb' : ByteBuffer} {o : Option (Session × ByteBuffer)}
    (ho : ∀ s' bb', o = some (s', bb') → s'.framing = c.framing)
    (h : onSession c o = some (c', bb')) : c'.framing = c.framing := by
  obtain ⟨⟨s', bb⟩, hs, h⟩ := Option.bind_eq_some_iff.mp h
  obtain ⟨rfl, -⟩ := Prod.mk.inj (Option.some.inj h)
  exact ho s' bb hs

theorem framing_signOut (c : ConnectionClient) {e : Event} (he : e.isFraming = false) :
    (signOut { c with toSession := c.emit e }).framing = c.framing :=
  (Session.framing_signOut _).trans (Session.framing_emit_of_false _ he)

private theorem framing_handlePacketErrorCode {c c' : ConnectionClient} {bb bb' : ByteBuffer}
    (h : handlePacketErrorCode c bb = some (c', bb')) : c'.framing = c.framing := by
  refine handleRead_post (Q := fun c' : ConnectionClient => c'.framing = c.framing) rfl ?_ h
  intro _ bb c₁ bb₁ h
  obtain ⟨rfl, -⟩ := Prod.mk.inj (Option.some.inj h)
  exact framing_signOut c rfl

private theorem framing_handlePacketRoomLeft {c c' : ConnectionClient} {bb bb' : ByteBuffer}
    (h : handlePacketRoomLeft P c bb = some (c', bb')) : c'.framing = c.framing := by
  refine handleRead_post (Q := fun c' : ConnectionClient => c'.framing = c.framing) rfl ?_ h
  intro channel bb c₁ bb₁ h
  refine handleRead_post (Q := fun c' : ConnectionClient => c'.framing = c.framing) rfl ?_ h
  intro ret bb c₂ bb₂ h
  obtain ⟨rfl, -⟩ := Prod.mk.inj (Option.some.inj h)
  by_cases hret : ret = 0
  · simp only [hret, ne_eq, not_true_eq_false, if_false]
    rfl
  · simp only [ne_eq, hret, not_false_eq_true, if_true]
    exact framing_signOut c rfl

theorem framing_handler {c c' : ConnectionClient} {bb bb' : ByteBuffer} {t : UInt32}
    (h : handler P c bb t = some (some (c', bb'))) : c'.framing = c.framing := by
  unfold handler at h
  split at h
  case h_1 => exact framing_onSession (fun _ _ => Session.framing_handlePacketStatusRequest) (Option.some.inj h)
  case h_3 =>
    exact framing_onSession (fun _ _ => Session.framing_handlePacketLoginEncryptionKeyRequest) (Option.some.inj h)
  case h_4 => exact framing_onSession (fun _ _ => Session.framing_handlePacketLoginAllow) (Option.some.inj h)
  case h_5 => exact framing_onSession (fun _ _ => Session.framing_handlePacketLoginSuccess) (Option.some.inj h)
  case h_6 => exact framing_onSession (fun _ _ => Session.framing_handlePacketKeepAlive) (Option.some.inj h)
  case h_7 => exact framing_onSession (fun _ _ => Session.framing_handlePacketRoomJoin) (Option.some.inj h)
  case h_8 => exact framing_onSession (fun _ _ => Session.framing_handlePacketChannelMsg) (Option.some.inj h)
  case h_9 => exact framing_handlePacketRoomLeft (Option.some.inj h)
  case h_2 | h_10 => exact framing_handlePacketErrorCode (Option.some.inj h)
  case h_11 => cases h

/-- `HandlePacket` on any received data, by what it does with other data. -/
theorem handlePacket_swap (s : Session) (r r₀ bb : ByteBuffer) (t : UInt32) :
    handlePacket P ⟨s, r⟩ bb t = (handlePacket P ⟨s, r₀⟩ bb t).map fun p =>
      (known s.state t, swapReceived (if signsOut P s.state bb t then r.clearAll else r) p.2) := by
  have hk := handler_isSome (P := P) ⟨s, r₀⟩ bb t
  have hsw := handler_swap (P := P) s r r₀ bb t
  unfold handlePacket
  cases ho : handler P ⟨s, r₀⟩ bb t with
  | none =>
    rw [ho] at hk hsw
    have hn : signsOut P s.state bb t = false := by
      cases hs : signsOut P s.state bb t with
      | false => rfl
      | true => rw [known_of_signsOut hs] at hk; cases hk
    rw [hsw]
    simp only [Option.map_none, hn, ← hk, Option.isSome_none, Bool.false_eq_true, if_false]
    split_ifs <;> rfl
  | some o =>
    rw [ho] at hk hsw
    rw [hsw]
    simp only [Option.isSome_some] at hk
    rw [← hk]
    cases o <;> rfl

theorem handlePacket_known {c c' : ConnectionClient} {bb bb' : ByteBuffer} {t : UInt32} {ok : Bool}
    (h : handlePacket P c bb t = some (ok, c', bb')) : ok = known c.state t := by
  have hsw := handlePacket_swap (P := P) c.toSession c.receivedData c.receivedData bb t
  rw [h] at hsw
  exact (Prod.mk.inj (Option.some.inj hsw)).1

theorem framing_handlePacket {c c' : ConnectionClient} {bb bb' : ByteBuffer} {t : UInt32} {ok : Bool}
    (h : handlePacket P c bb t = some (ok, c', bb')) : c'.framing = c.framing := by
  unfold handlePacket at h
  cases ho : handler P c bb t with
  | none =>
    rw [ho] at h
    dsimp only at h
    split_ifs at h
    all_goals
      obtain ⟨-, h⟩ := Prod.mk.inj (Option.some.inj h)
      obtain ⟨rfl, -⟩ := Prod.mk.inj h
    · exact Session.framing_emit_of_false _ rfl
    · rfl
  | some o =>
    rw [ho] at h
    obtain ⟨⟨c₁, bb₁⟩, rfl, h⟩ := Option.bind_eq_some_iff.mp h
    obtain ⟨-, h⟩ := Prod.mk.inj (Option.some.inj h)
    obtain ⟨rfl, -⟩ := Prod.mk.inj h
    exact framing_handler ho

end ConnectionClient

end Sfup.Client
