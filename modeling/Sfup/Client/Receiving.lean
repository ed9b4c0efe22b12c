import Sfup.Client.Cipher
import Sfup.Client.Reactions

/-! The life of a connection: `DataReceived` and the other calls its owner makes, and the receive loop
over a list of bytes in place of the ring buffer. -/
namespace Sfup.Client

namespace ConnectionClient

variable (P : Platform)

/-- One turn of the loop of `DataReceived`, which decrypts at most `sizeof(Decrypted)` bytes. Without a
decryptor it follows a null pointer. -/
def turn (c : ConnectionClient) (aData : List UInt8) : Option ConnectionClient := do
  let decryptor ← c.decryptor
  let (decrypted, decryptor) := decryptor.decrypt P aData
  addReceivedData P { c with decryptor := some decryptor } decrypted

/-- The loop of `DataReceived` on an encrypted connection. `m_IsEncrypted` is not looked at again. -/
def decryptLoop : ℕ → ConnectionClient → List UInt8 → Option ConnectionClient
  | _, c, [] => some c
  | 0, _, _ :: _ => none
  | fuel + 1, c, data => do
    let c ← c.turn P (data.take 512)
    decryptLoop fuel c (data.drop 512)

def dataReceived (c : ConnectionClient) (aData : List UInt8) : Option ConnectionClient :=
  if c.isEncrypted then decryptLoop P aData.length c aData else addReceivedData P c aData

/-- The characters of a literal. -/
def text (s : String) : AString := s.toList.map fun ch => UInt8.ofNat ch.toNat

/-- `OnConnect` asks for the login state next. -/
def onConnect (c : ConnectionClient) : Option ConnectionClient := do
  let s ← Session.sendPacket P { c.toSession with bConnect := true } 0x00
    [.string (text "mcu"), .string (text "127.0.0.1"), .beInt32 6666, .beInt32 2]
  return { c with toSession := s }

def onClose (c : ConnectionClient) : ConnectionClient := { c with bConnect := false }

/-- `JoinChannel`; opening the socket changes nothing that is kept here. -/
def joinChannel (c : ConnectionClient) (room : AString) : ConnectionClient := { c with rChannel := room }

def leaveChannel (c : ConnectionClient) (room : AString) : Option ConnectionClient := do
  let s ← c.sendPacket P 0x09 [.string room]
  return { c with toSession := s }

def sendToChannel (c : ConnectionClient) (room : AString) (aClientID : UInt32) (aMsg : AString) :
    Option ConnectionClient := do
  let s ← c.sendPacket P 0x02 [.string room, .varInt32 aClientID, .string aMsg]
  return { c with toSession := s }

/-- What the owner of a connection and the network do with it. -/
inductive Op where
  | joinChannel (room : AString)
  | onConnect
  | dataReceived (aData : List UInt8)
  | sendToChannel (room : AString) (aClientID : UInt32) (aMsg : AString)
  | leaveChannel (room : AString)
  | onClose
  | signOut

def exec (c : ConnectionClient) : Op → Option (Unit × ConnectionClient)
  | .joinChannel room => some ((), c.joinChannel room)
  | .onConnect => (c.onConnect P).map ((), ·)
  | .dataReceived aData => (c.dataReceived P aData).map ((), ·)
  | .sendToChannel room aClientID aMsg => (c.sendToChannel P room aClientID aMsg).map ((), ·)
  | .leaveChannel room => (c.leaveChannel P room).map ((), ·)
  | .onClose => some ((), c.onClose)
  | .signOut => some ((), c.signOut)

/-- A state that some sequence of calls leads to. -/
def Reachable (aUserName : AString) (c : ConnectionClient) : Prop :=
  ∃ ops rs, Transition.run? (exec P) (.new P aUserName) ops = some (rs, c)

end ConnectionClient

namespace Session

variable (P : Platform)

/-- The receive loop over the bytes that are pending. The flag says whether a handler has signed the
client out, which ends the loop. -/
def receive : ℕ → Session → List UInt8 → Option (Bool × Session × List UInt8)
  | 0, _, _ => none
  | fuel + 1, s, pending =>
    match P.frame pending with
    | none => some (false, s, pending)
    | some (body, rest) => do
      let s' ← s.step P body
      if s.leaves P body then return (true, s', [])
      if s.accepts P body then receive fuel s' rest else return (false, s', rest)

/-- `AddReceivedData` on the bytes that are pending. -/
def feed (s : Session) (pending aData : List UInt8) : Option (Bool × Session × List UInt8) :=
  if 16384 < pending.length + aData.length then some (false, s.emit .packetBufferFull, pending)
  else receive P 16385 s (pending ++ aData)

end Session

namespace ConnectionClient

variable {P : Platform} {c : ConnectionClient} {pending : List UInt8}

abbrev Yields (o : Option ConnectionClient) (r : Option (Bool × Session × List UInt8)) : Prop :=
  match r with
  | none => o = none
  | some (_, s, pending) => ∃ b : ByteBuffer, o = some ⟨s, b⟩ ∧ b.Rep 16384 [] pending

private theorem leaves_accepts {s : Session} {body : List UInt8} (h : s.leaves P body = true) :
    s.accepts P body = true := by
  unfold Session.leaves at h
  unfold Session.accepts
  cases hv : P.varInt body with
  | none => rw [hv] at h; cases h
  | some p =>
    rw [hv] at h
    exact known_of_signsOut h

/-- The ring buffer does what the list of pending bytes does. -/
theorem receiveLoop_yields {fuel : ℕ} (hp : c.Pending pending) (hfuel : pending.length < fuel) :
    Yields (receiveLoop P fuel c) (c.receive P fuel pending) := by
  induction fuel generalizing c pending with
  | zero => omega
  | succ fuel ih =>
    rw [Session.receive]
    cases hf : P.frame pending with
    | none => exact ⟨c.receivedData, receiveLoop_idle hp hf, hp⟩
    | some p =>
      obtain ⟨body, rest⟩ := p
      have hlen := P.frame_length_lt hf
      have hfits : pending.length ≤ 16384 := by simpa using hp.fits
      obtain ⟨b, hb, hloop⟩ := receiveLoop_packet fuel hp (by unfold sizeT; omega) hf
      have hsize : body.length + 2 < sizeT := by
        unfold sizeT
        omega
      rw [Session.handleBody_eq hsize b] at hloop
      rw [hloop]
      cases hs : c.step P body with
      | none => simp [Yields, hs]
      | some s' =>
        simp only [hs, Option.map_some, Option.bind_some, Option.bind_eq_bind, Option.pure_def]
        cases hl : c.leaves P body with
        | true =>
          have hpos : fuel - 1 + 1 = fuel := by omega
          have hidle : receiveLoop P fuel ⟨s', b.clearAll⟩ = some ⟨s', b.clearAll⟩ := by
            rw [← hpos]
            exact receiveLoop_idle hb.clearAll rfl
          simp only [leaves_accepts hl, if_true]
          exact ⟨b.clearAll, hidle, hb.clearAll⟩
        | false =>
          simp only [Bool.false_eq_true, if_false]
          cases ha : c.accepts P body with
          | true =>
            simp only [if_true]
            exact ih (c := ⟨s', b⟩) hb (by omega)
          | false =>
            simp only [Bool.false_eq_true, if_false]
            exact ⟨b, rfl, hb⟩

/-- `AddReceivedData` refines its model on lists. -/
theorem addReceivedData_yields (hp : c.Pending pending) (aData : List UInt8) :
    Yields (addReceivedData P c aData) (c.feed P pending aData) := by
  unfold Session.feed
  split_ifs with hx
  · exact ⟨c.receivedData, addReceivedData_full hp hx, hp⟩
  · have hfit : ([] : List UInt8).length + pending.length + aData.length ≤ 16384 := by
      simpa using hx
    have hs : (c.receivedData.stored aData).Rep 16384 [] (pending ++ aData) := hp.store hfit
    have h := receiveLoop_yields (P := P) (c := { c with receivedData := c.receivedData.stored aData }) hs
      (show (pending ++ aData).length < 16385 by rw [List.length_append]; omega)
    have hcall : addReceivedData P c aData =
        receiveLoop P 16385 { c with receivedData := c.receivedData.stored aData } := by
      simp [addReceivedData, hp.write_of_le hfit, show c.receivedData.bufferSize = 16385 from hp.bufferSize]
    rw [hcall]
    exact h

end ConnectionClient

/-- What every packet, every call that only sends and every change of the cryptors keeps. -/
structure SessionInvariant (P : Platform) (I : Session → Prop) : Prop where
  step : ∀ {s s' : Session} {body : List UInt8}, I s → body.length ≤ 16384 → s.step P body = some s' → I s'
  sends : ∀ {s s' : Session}, I s → Session.Sends s s' → I s'
  full : ∀ {s : Session}, I s → I (s.emit .packetBufferFull)
  decryptor : ∀ {s : Session} (d : AesCfb128), I s → I { s with decryptor := some d }
  connect : ∀ {s : Session} (bConnect : Bool) (rChannel : AString), I s → I { s with bConnect, rChannel }
  signOut : ∀ {s : Session}, I s → I s.signOut

/-- What every packet, every call that sends and every byte that is decrypted keeps. -/
structure SessionClosed (P : Platform) (I : Session → Prop) : Prop where
  step : ∀ {s s' : Session} {body : List UInt8}, I s → body.length ≤ 16384 → s.step P body = some s' → I s'
  sendPacket : ∀ {s s' : Session} {t : UInt32} {fields : List Field}, I s → s.sendPacket P t fields = some s' → I s'
  full : ∀ {s : Session}, I s → I (s.emit .packetBufferFull)
  decrypt : ∀ {s : Session} {d : AesCfb128} (aData : List UInt8), I s → s.decryptor = some d →
    I { s with decryptor := some (d.decrypt P aData).2 }
  connect : ∀ {s : Session} (bConnect : Bool) (rChannel : AString), I s → I { s with bConnect, rChannel }
  signOut : ∀ {s : Session}, I s → I s.signOut

/-- The connection has a receive buffer that stands for some bytes, and a session with the invariant. -/
def SessionInvariant.Holds (I : Session → Prop) (c : ConnectionClient) : Prop :=
  (∃ pending, c.Pending pending) ∧ I c.toSession

namespace SessionClosed

open SessionInvariant (Holds)

variable {P : Platform} {I : Session → Prop}

theorem receive (hI : SessionClosed P I) {fuel : ℕ} {s s' : Session} {pending pending' : List UInt8}
    {left : Bool} (h : I s) (hp : pending.length ≤ 16384)
    (hr : s.receive P fuel pending = some (left, s', pending')) : I s' := by
  induction fuel generalizing s pending with
  | zero => cases hr
  | succ fuel ih =>
    rw [Session.receive] at hr
    cases hf : P.frame pending with
    | none =>
      rw [hf] at hr
      obtain ⟨-, hr⟩ := Prod.mk.inj (Option.some.inj hr)
      obtain ⟨rfl, -⟩ := Prod.mk.inj hr
      exact h
    | some p =>
      obtain ⟨body, rest⟩ := p
      have hlen := P.frame_length_lt hf
      rw [hf] at hr
      obtain ⟨s₁, hs, hr⟩ := Option.bind_eq_some_iff.mp hr
      have h₁ := hI.step h (by omega) hs
      split_ifs at hr
      · obtain ⟨-, hr⟩ := Prod.mk.inj (Option.some.inj hr)
        obtain ⟨rfl, -⟩ := Prod.mk.inj hr
        exact h₁
      · exact ih h₁ (by omega) hr
      · obtain ⟨-, hr⟩ := Prod.mk.inj (Option.some.inj hr)
        obtain ⟨rfl, -⟩ := Prod.mk.inj hr
        exact h₁

theorem feed (hI : SessionClosed P I) {s s' : Session} {pending aData pending' : List UInt8} {left : Bool}
    (h : I s) (hf : s.feed P pending aData = some (left, s', pending')) : I s' := by
  unfold Session.feed at hf
  split_ifs at hf with hx
  · obtain ⟨-, hf⟩ := Prod.mk.inj (Option.some.inj hf)
    obtain ⟨rfl, -⟩ := Prod.mk.inj hf
    exact hI.full h
  · exact hI.receive h (by rw [List.length_append]; omega) hf

theorem addReceivedData (hI : SessionClosed P I) {c c' : ConnectionClient} {aData : List UInt8}
    (h : Holds I c) (hc : c.addReceivedData P aData = some c') : Holds I c' := by
  obtain ⟨⟨pending, hp⟩, h⟩ := h
  have hy := ConnectionClient.addReceivedData_yields (P := P) hp aData
  cases hf : c.feed P pending aData with
  | none =>
    rw [hf] at hy
    rw [show c.addReceivedData P aData = none from hy] at hc
    cases hc
  | some r =>
    obtain ⟨left, s', pending'⟩ := r
    rw [hf] at hy
    obtain ⟨b, hb, hr⟩ := hy
    obtain rfl := Option.some.inj (hb.symm.trans hc)
    exact ⟨⟨pending', hr⟩, hI.feed h hf⟩

theorem turn (hI : SessionClosed P I) {c c' : ConnectionClient} {aData : List UInt8} (h : Holds I c)
    (hc : c.turn P aData = some c') : Holds I c' := by
  obtain ⟨d, hd, hc⟩ := Option.bind_eq_some_iff.mp hc
  exact hI.addReceivedData (c := { c with decryptor := some (d.decrypt P aData).2 })
    ⟨h.1, hI.decrypt aData h.2 hd⟩ hc

theorem decryptLoop (hI : SessionClosed P I) {fuel : ℕ} {c c' : ConnectionClient} {data : List UInt8}
    (h : Holds I c) (hc : ConnectionClient.decryptLoop P fuel c data = some c') : Holds I c' := by
  induction fuel generalizing c data with
  | zero =>
    cases data with
    | nil =>
      obtain rfl : c = c' := by simpa [ConnectionClient.decryptLoop] using hc
      exact h
    | cons x xs => simp [ConnectionClient.decryptLoop] at hc
  | succ fuel ih =>
    cases data with
    | nil =>
      obtain rfl : c = c' := by simpa [ConnectionClient.decryptLoop] using hc
      exact h
    | cons x xs =>
      rw [ConnectionClient.decryptLoop] at hc
      · obtain ⟨c₁, h₁, hc⟩ := Option.bind_eq_some_iff.mp hc
        exact ih (hI.turn h h₁) hc
      · simp

theorem dataReceived (hI : SessionClosed P I) {c c' : ConnectionClient} {aData : List UInt8} (h : Holds I c)
    (hc : c.dataReceived P aData = some c') : Holds I c' := by
  unfold ConnectionClient.dataReceived at hc
  split_ifs at hc
  · exact hI.decryptLoop h hc
  · exact hI.addReceivedData h hc

/-- Every call keeps the invariant. -/
theorem exec (hI : SessionClosed P I) {c c' : ConnectionClient} {op : ConnectionClient.Op} {r : Unit}
    (h : Holds I c) (hc : c.exec P op = some (r, c')) : Holds I c' := by
  cases op with
  | joinChannel room =>
    obtain ⟨-, rfl⟩ := Prod.mk.inj (Option.some.inj hc)
    exact ⟨h.1, hI.connect c.bConnect room h.2⟩
  | onClose =>
    obtain ⟨-, rfl⟩ := Prod.mk.inj (Option.some.inj hc)
    exact ⟨h.1, hI.connect false c.rChannel h.2⟩
  | signOut =>
    obtain ⟨-, rfl⟩ := Prod.mk.inj (Option.some.inj hc)
    obtain ⟨⟨pending, hp⟩, h⟩ := h
    exact ⟨⟨[], hp.clearAll⟩, hI.signOut h⟩
  | dataReceived aData =>
    obtain ⟨c₁, h₁, hc⟩ := Option.map_eq_some_iff.mp hc
    obtain ⟨-, rfl⟩ := Prod.mk.inj hc
    exact hI.dataReceived h h₁
  | onConnect =>
    obtain ⟨c₁, h₁, hc⟩ := Option.map_eq_some_iff.mp hc
    obtain ⟨-, rfl⟩ := Prod.mk.inj hc
    obtain ⟨s, hs, h₁⟩ := Option.bind_eq_some_iff.mp h₁
    obtain rfl := Option.some.inj h₁
    exact ⟨h.1, hI.sendPacket (hI.connect true c.rChannel h.2) hs⟩
  | sendToChannel room aClientID aMsg =>
    obtain ⟨c₁, h₁, hc⟩ := Option.map_eq_some_iff.mp hc
    obtain ⟨-, rfl⟩ := Prod.mk.inj hc
    obtain ⟨s, hs, h₁⟩ := Option.bind_eq_some_iff.mp h₁
    obtain rfl := Option.some.inj h₁
    exact ⟨h.1, hI.sendPacket h.2 hs⟩
  | leaveChannel room =>
    obtain ⟨c₁, h₁, hc⟩ := Option.map_eq_some_iff.mp hc
    obtain ⟨-, rfl⟩ := Prod.mk.inj hc
    obtain ⟨s, hs, h₁⟩ := Option.bind_eq_some_iff.mp h₁
    obtain rfl := Option.some.inj h₁
    exact ⟨h.1, hI.sendPacket h.2 hs⟩

theorem reachable (hI : SessionClosed P I) {aUserName : AString}
    (hnew : I (ConnectionClient.new P aUserName).toSession) {c : ConnectionClient}
    (hc : c.Reachable P aUserName) : Holds I c := by
  obtain ⟨ops, rs, hr⟩ := hc
  have hstart : Holds I (.new P aUserName) := ⟨⟨[], ByteBuffer.rep_new (by decide) _⟩, hnew⟩
  exact Transition.run?_invariant (fun _ _ _ _ h _ hc => hI.exec h hc) hstart
    (Transition.along_of_forall (fun _ _ => trivial) _ _) hr

end SessionClosed

namespace SessionInvariant

variable {P : Platform} {I : Session → Prop}

theorem closed (hI : SessionInvariant P I) : SessionClosed P I where
  step := hI.step
  sendPacket h hs := hI.sends h (Session.sendPacket_sends hs)
  full := hI.full
  decrypt _ h _ := hI.decryptor _ h
  connect := hI.connect
  signOut := hI.signOut

theorem reachable (hI : SessionInvariant P I) {aUserName : AString}
    (hnew : I (ConnectionClient.new P aUserName).toSession) {c : ConnectionClient}
    (hc : c.Reachable P aUserName) : Holds I c := hI.closed.reachable hnew hc

end SessionInvariant

end Sfup.Client
