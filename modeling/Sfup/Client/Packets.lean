import Sfup.Client.Framing

/-! Packets from `cPacketizer` to `HandlePacket`: what is written, what `SendData` gets, and what the
receive loop makes of it on the other side. -/
namespace Sfup.Client

namespace ByteBuffer.Rep

variable {b : ByteBuffer} {size : ℕ} {read unread : List UInt8}

/-- A write that goes well and appends `bytes`. -/
abbrev Appends (read unread bytes : List UInt8) (size : ℕ) (o : Option (Bool × ByteBuffer)) : Prop :=
  ∃ b', o = some (true, b') ∧ Rep b' size read (unread ++ bytes)

theorem writeBE (h : Rep b size read unread) {n : ℕ} (val : ℕ)
    (hn : read.length + unread.length + n ≤ size) :
    Appends read unread (BigEndian.encode n val) size (b.writeBE n val) := by
  have hl : read.length + unread.length + (BigEndian.encode n val).length ≤ size := by
    rwa [BigEndian.length_encode]
  refine ⟨_, ?_, h.store hl⟩
  simp [ByteBuffer.writeBE, h.checkValid, h.canWriteBytes, hn, h.writeBuf_of_le hl]

theorem writeVarInt32 (h : Rep b size read unread) {v : UInt32}
    (hn : read.length + unread.length + (Varint.encode v.toNat).length ≤ size) :
    Appends read unread (Varint.encode v.toNat) size (b.writeVarInt32 v) := by
  refine ⟨_, ?_, h.store hn⟩
  simp [ByteBuffer.writeVarInt32, h.checkValid, ByteBuffer.varIntBytes_uint32, h.writeBuf_of_le hn]

theorem writeVarUTF8String (h : Rep b size read unread) {v : AString}
    (hn : read.length + unread.length + (Varint.encode v.length ++ v).length ≤ size) :
    Appends read unread (Varint.encode v.length ++ v) size (b.writeVarUTF8String v) := by
  have hT : size + 1 < 2 ^ 32 := h.bound
  rw [List.length_append] at hn
  have hpos := List.length_pos_iff.mpr (Varint.encode_ne_nil v.length)
  have hlen : (UInt32.ofNat v.length).toNat = v.length := by
    rw [UInt32.toNat_ofNat', Nat.mod_eq_of_lt (by omega)]
  have hput : read.length + unread.length + sizeAdd v.length 1 ≤ size := by
    rw [sizeAdd_of_lt (by unfold sizeT; omega)]
    omega
  obtain ⟨b₁, h₁, hr₁⟩ := h.writeVarInt32 (v := UInt32.ofNat v.length) (by rw [hlen]; omega)
  rw [hlen] at hr₁
  have hfit : read.length + (unread ++ Varint.encode v.length).length + v.length ≤ size := by
    rw [List.length_append]
    omega
  refine ⟨_, ?_, by rw [← List.append_assoc]; exact hr₁.store hfit⟩
  simp [ByteBuffer.writeVarUTF8String, h.checkValid, h.canWriteBytes, hput, h₁, hr₁.writeBuf_of_le hfit]

end ByteBuffer.Rep

namespace Field

/-- The bytes of a field on the wire. -/
def bytes : Field → List UInt8
  | bool v => [if v then 1 else 0]
  | beUInt8 v => BigEndian.encode 1 v.toNat
  | beInt8 v | byteAngle v => BigEndian.encode 1 v.toUInt8.toNat
  | beInt16 v | beUInt16 v => BigEndian.encode 2 v.toUInt16.toNat
  | beInt32 v | fpInt v => BigEndian.encode 4 v.toUInt32.toNat
  | beUInt32 v | beFloat v => BigEndian.encode 4 v.toNat
  | beInt64 v => BigEndian.encode 8 v.toUInt64.toNat
  | beUInt64 v | beDouble v => BigEndian.encode 8 v.toNat
  | varInt32 v => Varint.encode v.toNat
  | string v => Varint.encode v.length ++ v
  | buf v => v
  | position64 x y z => BigEndian.encode 8 (ByteBuffer.position64 x y z).toNat
  | uuid v => if v.length = 32 then uuidBytes v else []

variable {b : ByteBuffer} {size : ℕ} {read unread : List UInt8}

theorem uuid_appends {vals : List UInt8} (h : b.Rep size read unread)
    (hn : read.length + unread.length + vals.length ≤ size) :
    ByteBuffer.Rep.Appends read unread vals size (vals.foldlM (fun (ok, b) val => do
      let (res, b) ← b.writeBE 1 val.toNat
      return (ok && res, b)) (true, b)) := by
  induction vals generalizing b unread with
  | nil => exact ⟨b, rfl, by simpa using h⟩
  | cons val vals ih =>
    rw [List.length_cons] at hn
    obtain ⟨b₁, h₁, hr₁⟩ := h.writeBE (n := 1) val.toNat (by omega)
    have hbyte : BigEndian.encode 1 val.toNat = [val] := by simp [BigEndian.encode]
    rw [hbyte] at hr₁
    obtain ⟨b₂, h₂, hr₂⟩ := ih hr₁ (by rw [List.length_append, List.length_singleton]; omega)
    refine ⟨b₂, ?_, by rw [List.append_cons]; exact hr₂⟩
    simpa [List.foldlM_cons, h₁] using h₂

/-- Every `Write…` call that fits appends the bytes of its field. -/
theorem write_appends (f : Field) (h : b.Rep size read unread)
    (hn : read.length + unread.length + f.bytes.length ≤ size) :
    ByteBuffer.Rep.Appends read unread f.bytes size (f.write b) := by
  cases f with
  | bool v => exact ⟨_, by simp [write, ByteBuffer.writeBool, h.checkValid]; exact h.write_of_le hn, h.store hn⟩
  | varInt32 v => exact h.writeVarInt32 hn
  | string v => exact h.writeVarUTF8String hn
  | buf v => exact ⟨_, h.write_of_le hn, h.store hn⟩
  | position64 x y z =>
    obtain ⟨b', hb, hr⟩ := h.writeBE (n := 8) (ByteBuffer.position64 x y z).toNat (by simpa [bytes] using hn)
    exact ⟨b', by simp [write, ByteBuffer.writePosition64, h.checkValid, hb], hr⟩
  | uuid v =>
    by_cases hv : v.length = 32
    · simp only [bytes, write, writeUUID, ne_eq, hv, not_true_eq_false, if_false] at hn ⊢
      exact uuid_appends h hn
    · simp only [bytes, write, writeUUID, ne_eq, hv, not_false_eq_true, if_true] at hn ⊢
      exact ⟨b, rfl, by simpa using h⟩
  | _ => exact h.writeBE _ (by simpa [bytes] using hn)

end Field

namespace Session

variable {P : Platform} {s : Session}

/-- The arguments of the calls of `SendData` so far. -/
def sent (s : Session) : List (List UInt8) :=
  s.events.filterMap fun
    | .sendData aData => some aData
    | _ => none

/-- `m_OutPacketBuffer` holds `payload`, and an encrypted connection has its encryptor. -/
structure Composes (s : Session) (payload : List UInt8) : Prop where
  out : s.outPacketBuffer.Rep 16384 [] payload
  encryptor : s.isEncrypted = true → s.encryptor.isSome

private theorem encryptLoop_spec {fuel : ℕ} {data : List UInt8} (hs : s.encryptor.isSome)
    (hf : data.length ≤ fuel) :
    ∃ s', encryptLoop P fuel s data = some s' ∧ s'.outPacketBuffer = s.outPacketBuffer ∧
      s'.encryptor.isSome ∧ s'.sent = s.sent := by
  induction fuel generalizing s data with
  | zero =>
    obtain rfl : data = [] := List.eq_nil_of_length_eq_zero (Nat.le_zero.mp hf)
    exact ⟨s, by simp [encryptLoop], rfl, hs, rfl⟩
  | succ fuel ih =>
    cases data with
    | nil => exact ⟨s, by simp [encryptLoop], rfl, hs, rfl⟩
    | cons x xs =>
      obtain ⟨e, he⟩ := Option.isSome_iff_exists.mp hs
      let r := e.encrypt P ((x :: xs).take 8192)
      have hd : ((x :: xs).drop 8192).length ≤ fuel := by
        rw [List.length_drop]
        simp only [List.length_cons] at hf ⊢
        omega
      obtain ⟨s', h', ho, hs', hsent⟩ := ih (s := { s with encryptor := some r.2 }.emit (.send r.1)) rfl hd
      refine ⟨s', ?_, ho, hs', hsent.trans ?_⟩
      · rw [encryptLoop]
        · simp only [he, Option.bind_eq_bind, Option.bind_some]
          exact h'
        · simp
      · simp [sent, emit]

private theorem sendData_spec {payload : List UInt8} (h : s.Composes payload) (data : List UInt8) :
    ∃ s', s.sendData P data = some s' ∧ s'.Composes payload ∧ s'.sent = s.sent ++ [data] := by
  have hemit : (s.emit (.sendData data)).sent = s.sent ++ [data] := by simp [sent, emit]
  cases he : s.isEncrypted with
  | false =>
    refine ⟨(s.emit (.sendData data)).emit (.send data), ?_, ⟨h.out, h.encryptor⟩, ?_⟩
    · simp [sendData, emit, he]
    · rw [← hemit]
      simp [sent, emit]
  | true =>
    obtain ⟨s', h', ho, hs', hsent⟩ := encryptLoop_spec (P := P) (s := s.emit (.sendData data))
      (h.encryptor he) (le_refl data.length)
    refine ⟨s', ?_, ⟨ho ▸ h.out, fun _ => hs'⟩, hsent.trans hemit⟩
    simpa [sendData, show (s.emit (.sendData data)).isEncrypted = true from he] using h'

theorem new_spec (h : s.Composes []) (t : UInt32) :
    ∃ s', Packetizer.new s t = some s' ∧ s'.Composes (Varint.encode t.toNat) ∧ s'.sent = s.sent := by
  have ht := t.toNat_lt
  have hl : (Varint.encode t.toNat).length ≤ 5 := Varint.length_encode_le (by omega)
  obtain ⟨out, ho, hr⟩ := h.out.writeVarInt32 (v := t) (by simp only [List.length_nil]; omega)
  exact ⟨{ s with outPacketBuffer := out }, by simp [Packetizer.new, ho], ⟨hr, h.encryptor⟩, rfl⟩

theorem writes_spec {payload : List UInt8} {fields : List Field} (h : s.Composes payload)
    (hn : payload.length + (fields.flatMap Field.bytes).length ≤ 16384) :
    ∃ s', fields.foldlM Packetizer.write s = some s' ∧
      s'.Composes (payload ++ fields.flatMap Field.bytes) ∧ s'.sent = s.sent := by
  induction fields generalizing s payload with
  | nil => exact ⟨s, rfl, by simpa using h, rfl⟩
  | cons f fields ih =>
    rw [List.flatMap_cons, List.length_append] at hn
    obtain ⟨out, ho, hr⟩ := f.write_appends h.out (by simp only [List.length_nil]; omega)
    obtain ⟨s', h', hc, hsent⟩ := ih (s := { s with outPacketBuffer := out }) ⟨hr, h.encryptor⟩
      (by rw [List.length_append]; omega)
    refine ⟨s', ?_, by rw [List.flatMap_cons, ← List.append_assoc]; exact hc, hsent⟩
    rw [List.foldlM_cons]
    simpa [Packetizer.write, ho] using h'

/-- The destructor sends the length and the packet, and leaves the buffer empty. -/
theorem destroy_spec {payload : List UInt8} (h : s.Composes payload) :
    ∃ s', Packetizer.destroy P s = some s' ∧ s'.Composes [] ∧
      s'.sent = s.sent ++ [Varint.encode payload.length, payload] := by
  have hfits : payload.length ≤ 16384 := by simpa using h.out.fits
  have hlen : (UInt32.ofNat payload.length).toNat = payload.length := by
    rw [UInt32.toNat_ofNat', Nat.mod_eq_of_lt (by omega)]
  have hl : (Varint.encode payload.length).length ≤ 5 := Varint.length_encode_le (by omega)
  have hnew : (ByteBuffer.new 20 P.fresh).Rep 20 [] [] := ByteBuffer.rep_new (by decide) _
  obtain ⟨lenBuffer, hw, hr⟩ := hnew.writeVarInt32 (v := UInt32.ofNat payload.length)
    (by rw [hlen]; simp only [List.length_nil]; omega)
  rw [hlen, List.nil_append] at hr
  obtain ⟨s₁, h₁, hc₁, hsent₁⟩ := sendData_spec (P := P) h (Varint.encode payload.length)
  obtain ⟨s₂, h₂, hc₂, hsent₂⟩ := sendData_spec (P := P) hc₁ payload
  have hread := hc₁.out.advance (n := payload.length) le_rfl
  rw [List.drop_length] at hread
  refine ⟨{ s₂ with outPacketBuffer := _ }, ?_, ⟨hread.commit, hc₂.encryptor⟩, ?_⟩
  · have hused : s.outPacketBuffer.getUsedSpace = some payload.length := by
      simpa using h.out.getUsedSpace
    simp [Packetizer.destroy, hused, hw, hr.readAll, h₁, (hr.advance le_rfl).commitRead, hc₁.out.readAll, h₂,
      hread.commitRead]
  · show s₂.sent = _
    rw [hsent₂, hsent₁, List.append_assoc]
    rfl

end Session

/-- A packet to be sent: its type and the `Write…` calls made for it. -/
structure Packet where
  type : UInt32
  fields : List Field

namespace Packet

/-- What the handler on the other side gets to read. -/
def body (p : Packet) : List UInt8 := p.fields.flatMap Field.bytes

def payload (p : Packet) : List UInt8 := Varint.encode p.type.toNat ++ p.body

/-- The two calls of `SendData`. -/
def calls (p : Packet) : List (List UInt8) := [Varint.encode p.payload.length, p.payload]

end Packet

namespace Session

variable {P : Platform} {s : Session}

/-- Packets sent one after another. -/
def sendAll (P : Platform) (s : Session) (packets : List Packet) : Option Session :=
  packets.foldlM (fun s p => sendPacket P s p.type p.fields) s

private theorem sendPacket_spec (h : s.Composes []) {p : Packet} (hp : p.payload.length ≤ 16384) :
    ∃ s', sendPacket P s p.type p.fields = some s' ∧ s'.Composes [] ∧ s'.sent = s.sent ++ p.calls := by
  unfold Packet.payload at hp
  rw [List.length_append] at hp
  obtain ⟨s₁, h₁, hc₁, hsent₁⟩ := new_spec h p.type
  obtain ⟨s₂, h₂, hc₂, hsent₂⟩ := writes_spec hc₁ hp
  obtain ⟨s₃, h₃, hc₃, hsent₃⟩ := destroy_spec (P := P) hc₂
  refine ⟨s₃, by simp [sendPacket, h₁, h₂, h₃], hc₃, ?_⟩
  rw [hsent₃, hsent₂, hsent₁]
  rfl

theorem sendAll_spec (h : s.Composes []) {packets : List Packet}
    (hp : ∀ p ∈ packets, p.payload.length ≤ 16384) :
    ∃ s', sendAll P s packets = some s' ∧ s'.Composes [] ∧
      s'.sent = s.sent ++ packets.flatMap Packet.calls := by
  induction packets generalizing s with
  | nil => exact ⟨s, rfl, h, by simp⟩
  | cons p packets ih =>
    obtain ⟨s₁, h₁, hc₁, hsent₁⟩ := sendPacket_spec (P := P) h (hp p (List.mem_cons_self ..))
    obtain ⟨s₂, h₂, hc₂, hsent₂⟩ := ih hc₁ fun q hq => hp q (List.mem_cons_of_mem _ hq)
    refine ⟨s₂, by simpa [sendAll, List.foldlM_cons, h₁] using h₂, hc₂, ?_⟩
    rw [hsent₂, hsent₁, List.flatMap_cons, List.append_assoc]

end Session

namespace Packet

variable (P : Platform)

theorem payload_ne_nil (p : Packet) : p.payload ≠ [] := by
  simp [payload, Varint.encode_ne_nil]

theorem varInt_payload (p : Packet) : P.varInt p.payload = some (p.type, p.body) :=
  P.varInt_encode p.type p.body

theorem varInt_length {n : ℕ} (hn : n < 2 ^ 32) (t : List UInt8) :
    P.varInt (Varint.encode n ++ t) = some (UInt32.ofNat n, t) := by
  have h := P.varInt_encode (UInt32.ofNat n) t
  rwa [UInt32.toNat_ofNat', Nat.mod_eq_of_lt hn] at h

theorem frame_calls {p : Packet} (hp : p.payload.length ≤ 16384) (t : List UInt8) :
    P.frame (Varint.encode p.payload.length ++ (p.payload ++ t)) = some (p.payload, t) := by
  refine P.frame_eq_some.mpr ⟨UInt32.ofNat p.payload.length, varInt_length P (by omega) _, ?_⟩
  rw [UInt32.toNat_ofNat', Nat.mod_eq_of_lt (by omega)]

/-- The bytes on the wire. -/
def wire (packets : List Packet) : List UInt8 := (packets.flatMap calls).flatten

theorem wire_cons (p : Packet) (packets : List Packet) :
    wire (p :: packets) = Varint.encode p.payload.length ++ (p.payload ++ wire packets) := by
  simp [wire, calls]

theorem packets_wire {packets : List Packet} (hp : ∀ p ∈ packets, p.payload.length ≤ 16384) :
    P.packets (wire packets) = packets.map fun p => (p.type, p.body) := by
  induction packets with
  | nil => exact P.packets_of_none rfl
  | cons p packets ih =>
    rw [wire_cons, P.packets_of_some (frame_calls P (hp p (List.mem_cons_self ..)) _),
      varInt_payload, ih fun q hq => hp q (List.mem_cons_of_mem _ hq)]
    rfl

end Packet

/-- No `HandlePacket` call ends the program. -/
def Returns (P : Platform) : Session → List Packet → Prop
  | _, [] => True
  | s, p :: packets => ∃ s', s.step P p.payload = some s' ∧ Returns P s' packets

namespace ConnectionClient

variable {P : Platform}

theorem addReceivedData_idle {c : ConnectionClient} {pending x : List UInt8} (hp : c.Pending pending)
    (hx : pending.length + x.length ≤ 16384) (hf : P.frame (pending ++ x) = none) :
    ∃ c', addReceivedData P c x = some c' ∧ c'.toSession = c.toSession ∧ c'.Pending (pending ++ x) := by
  have hfit : ([] : List UInt8).length + pending.length + x.length ≤ 16384 := by simpa using hx
  have hs := hp.store hfit
  refine ⟨{ c with receivedData := c.receivedData.stored x }, ?_, rfl, hs⟩
  simp only [addReceivedData, hp.write_of_le hfit, Option.bind_eq_bind, Option.bind_some, hs.bufferSize]
  exact receiveLoop_idle hs hf

/-- A chunk that completes one packet and holds nothing after it. -/
theorem addReceivedData_last {c : ConnectionClient} {s' : Session} {pending x body : List UInt8}
    (hp : c.Pending pending) (hx : pending.length + x.length ≤ 16384)
    (hf : P.frame (pending ++ x) = some (body, [])) (hs : c.step P body = some s') :
    ∃ c', addReceivedData P c x = some c' ∧ c'.toSession = s' ∧ c'.Pending [] := by
  have hfit : ([] : List UInt8).length + pending.length + x.length ≤ 16384 := by simpa using hx
  have hst := hp.store hfit
  have hlen := P.frame_length_lt hf
  rw [List.length_append] at hlen
  obtain ⟨r, hr, hloop⟩ := receiveLoop_packet (P := P) 16384
    (c := { c with receivedData := c.receivedData.stored x }) hst (by unfold sizeT; omega) hf
  have hsize : body.length + 2 < sizeT := by unfold sizeT; omega
  have hb := Session.handleBody_eq (P := P) (s := c.toSession) hsize r
  rw [hs, Option.map_some] at hb
  have hp' : (if c.leaves P body then r.clearAll else r).Rep 16384 [] [] := by
    split_ifs
    · exact hr.clearAll
    · exact hr
  refine ⟨⟨s', if c.leaves P body then r.clearAll else r⟩, ?_, rfl, hp'⟩
  simp only [addReceivedData, hp.write_of_le hfit, Option.bind_eq_bind, Option.bind_some, hst.bufferSize]
  refine hloop.trans ?_
  rw [hb, Option.bind_some]
  cases c.accepts P body with
  | false => rfl
  | true => exact receiveLoop_idle hp' rfl

/-- The two chunks of one packet. -/
theorem addAll_calls {c : ConnectionClient} {s' : Session} {p : Packet} (hc : c.Pending [])
    (hp : p.payload.length ≤ 16382) (hs : c.step P p.payload = some s') :
    ∃ c', addAll P c p.calls = some c' ∧ c'.toSession = s' ∧ c'.Pending [] := by
  have hl : (Varint.encode p.payload.length).length ≤ 2 := Varint.length_encode_le (by omega)
  have hpos := List.length_pos_iff.mpr p.payload_ne_nil
  have hv := Packet.varInt_length P (n := p.payload.length) (by omega) []
  rw [List.append_nil] at hv
  have hnone : P.frame ([] ++ Varint.encode p.payload.length) = none := by
    rw [List.nil_append]
    cases hf : P.frame (Varint.encode p.payload.length) with
    | none => rfl
    | some q =>
      obtain ⟨n, hn, hlen⟩ := P.frame_eq_some.mp (show _ = some (q.1, q.2) from hf)
      rw [hv] at hn
      obtain ⟨hn, hq⟩ := Prod.mk.inj (Option.some.inj hn)
      rw [(List.append_eq_nil_iff.mp hq.symm).1, ← hn, UInt32.toNat_ofNat', Nat.mod_eq_of_lt (by omega)] at hlen
      simp at hlen
      omega
  obtain ⟨c₁, h₁, ht₁, hp₁⟩ := addReceivedData_idle hc (by simp only [List.length_nil]; omega) hnone
  rw [List.nil_append] at hp₁
  have hf := Packet.frame_calls P (p := p) (by omega) []
  rw [List.append_nil] at hf
  obtain ⟨c₂, h₂, ht₂, hp₂⟩ := addReceivedData_last hp₁ (x := p.payload) (by omega) hf (ht₁ ▸ hs)
  exact ⟨c₂, by simp [addAll, Packet.calls, h₁, h₂], ht₂, hp₂⟩

/-- One call of `AddReceivedData` for each call of `SendData`. -/
theorem addAll_flatMap_calls {c : ConnectionClient} {packets : List Packet} (hc : c.Pending [])
    (hp : ∀ p ∈ packets, p.payload.length ≤ 16382) (hr : Returns P c.toSession packets) :
    ∃ c', addAll P c (packets.flatMap Packet.calls) = some c' ∧ c'.Pending [] ∧
      c'.framing = c.framing ++ packets.map fun p => Event.handlePacket p.type p.body := by
  induction packets generalizing c with
  | nil => exact ⟨c, rfl, hc, by simp⟩
  | cons p packets ih =>
    obtain ⟨s', hs, hr⟩ := hr
    have hp0 := hp p (List.mem_cons_self ..)
    obtain ⟨c₁, h₁, ht₁, hc₁⟩ := addAll_calls hc hp0 hs
    obtain ⟨c₂, h₂, hc₂, hfr₂⟩ := ih hc₁ (fun q hq => hp q (List.mem_cons_of_mem _ hq)) (ht₁ ▸ hr)
    refine ⟨c₂, ?_, hc₂, ?_⟩
    · rw [List.flatMap_cons, addAll, List.foldlM_append]
      exact (congrArg (· >>= _) h₁).trans h₂
    · have hfr := Session.framing_step (P := P) (by unfold sizeT; omega) hs
      rw [Packet.varInt_payload] at hfr
      rw [hfr₂, ht₁, hfr]
      simp

/-- A stream one byte longer than the receive buffer that is one packet: whatever the chunks, the
last one does not fit and no packet is ever complete. -/
theorem addAll_tooLong {c : ConnectionClient} {pending : List UInt8} {chunks : List (List UInt8)}
    (hp : c.Pending pending) (hne : ∀ x ∈ chunks, x ≠ [])
    (hlen : (pending ++ chunks.flatten).length = 16385)
    (hf : ∀ k < 16385, P.frame ((pending ++ chunks.flatten).take k) = none) :
    ∃ c', addAll P c chunks = some c' ∧ c'.handled = c.handled := by
  induction chunks generalizing c pending with
  | nil => exact ⟨c, rfl, rfl⟩
  | cons x chunks ih =>
    rw [List.flatten_cons] at hlen hf
    by_cases hx : pending.length + x.length ≤ 16384
    · have hk := hf (pending.length + x.length) (by omega)
      rw [← List.append_assoc, ← List.length_append, List.take_left] at hk
      obtain ⟨c₁, h₁, ht₁, hp₁⟩ := addReceivedData_idle hp hx hk
      rw [← List.append_assoc] at hlen hf
      obtain ⟨c₂, h₂, hh₂⟩ := ih hp₁ (fun y hy => hne y (List.mem_cons_of_mem _ hy)) hlen hf
      refine ⟨c₂, by simpa [addAll, List.foldlM_cons, h₁] using h₂, hh₂.trans ?_⟩
      simp only [handled, ht₁]
    · have h₁ := addReceivedData_full (P := P) hp (Nat.not_le.mp hx)
      have hnil : chunks = [] := by
        cases chunks with
        | nil => rfl
        | cons y ys =>
          have hy := List.length_pos_iff.mpr (hne y (by simp))
          simp only [List.flatten_cons, List.length_append] at hlen
          omega
      subst hnil
      refine ⟨{ c with toSession := c.emit .packetBufferFull }, by simp [addAll, h₁], ?_⟩
      simp [handled, Session.emit]

end ConnectionClient

/-- Some way of cutting what was sent makes every receiver hand over the packets, in order. -/
def Recovers (P : Platform) (packets : List Packet) : Prop :=
  ∀ c : ConnectionClient, c.Pending [] → Returns P c.toSession packets →
    ∃ chunks : List (List UInt8), (∀ x ∈ chunks, x ≠ []) ∧ chunks.flatten = Packet.wire packets ∧
      ∃ c', c.addAll P chunks = some c' ∧ c'.handled = c.handled ++ packets.map fun p => (p.type, p.body)

/-- What `SendData` gets is the packets with their lengths, and the output buffer is empty after
each one. A receiver called once for each call of `SendData` hands over the same packets if none is
longer than 16382 bytes, and one called with any other chunks if nothing breaks its loop off. -/
theorem send_receive {P : Platform} {s : Session} {packets : List Packet} (hs : s.Composes [])
    (hp : ∀ p ∈ packets, p.payload.length ≤ 16384) :
    (∀ pre, pre <+: packets → ∃ s', s.sendAll P pre = some s' ∧ s'.Composes [] ∧
      s'.sent = s.sent ++ pre.flatMap fun p => [Varint.encode p.payload.length, p.payload]) ∧
    ((∀ p ∈ packets, p.payload.length ≤ 16382) → ∀ c : ConnectionClient, c.Pending [] →
      Returns P c.toSession packets → ∃ c', c.addAll P (packets.flatMap Packet.calls) = some c' ∧
        c'.Pending [] ∧ c'.handled = c.handled ++ packets.map fun p => (p.type, p.body)) ∧
    ∀ c : ConnectionClient, c.Pending [] → Unbroken P c.toSession (Packet.wire packets) →
      c.Delivers P (Packet.wire packets) (c.handled ++ packets.map fun p => (p.type, p.body)) := by
  refine ⟨?_, ?_, ?_⟩
  · intro pre hpre
    exact Session.sendAll_spec hs fun p hmem => hp p (hpre.subset hmem)
  · intro hshort c hc hr
    obtain ⟨c', h, hc', hfr⟩ := ConnectionClient.addAll_flatMap_calls hc hshort hr
    refine ⟨c', h, hc', ConnectionClient.handled_of_framing ?_⟩
    rw [hfr, List.map_map]
    rfl
  · rintro c hc hu chunks - hflat hfull
    obtain ⟨c', h, hfr, hidle⟩ := ConnectionClient.addAll_unbroken hc rfl
      (by rw [hflat]; exact hu) hfull
    refine ⟨c', h, ConnectionClient.handled_of_framing ?_, hidle⟩
    rw [hfr, hflat, List.nil_append, Packet.packets_wire P hp]

/-- An answer to a join and a message in the channel. -/
def message : List Packet := [⟨1, [.string [97], .varInt32 1]⟩, ⟨2, [.varInt32 300, .string [97], .string [104, 105]]⟩]

/-- A new connection that has signed in. -/
def signedIn : ConnectionClient := { ConnectionClient.new Platform.zero [] with state := 3 }

private theorem payloads_message : message.map Packet.payload = [[1, 1, 97, 1], [2, 172, 2, 1, 97, 2, 104, 105]] := by
  simp [message, Packet.payload, Packet.body, Field.bytes, Varint.encode]

private theorem calls_message :
    message.flatMap Packet.calls = [[4], [1, 1, 97, 1], [8], [2, 172, 2, 1, 97, 2, 104, 105]] := by
  have hcalls : message.flatMap Packet.calls =
      (message.map Packet.payload).flatMap fun bytes => [Varint.encode bytes.length, bytes] := by
    rw [List.flatMap_map]
    rfl
  have hencode : Varint.encode 4 = [4] ∧ Varint.encode 8 = [8] := by
    constructor <;>
      · rw [Varint.encode]
        rfl
  simp only [hcalls, payloads_message, List.flatMap_cons, List.flatMap_nil, List.length_cons, List.length_nil,
    Nat.reduceAdd, hencode, List.cons_append, List.nil_append]

private theorem wire_message : Packet.wire message = [4, 1, 1, 97, 1, 8, 2, 172, 2, 1, 97, 2, 104, 105] := by
  rw [Packet.wire, calls_message]
  rfl

private theorem handed_message :
    message.map (fun p => (p.type, p.body)) = [(1, [1, 97, 1]), (2, [172, 2, 1, 97, 2, 104, 105])] := by
  simp [message, Packet.body, Field.bytes, Varint.encode]

/-- The handlers of both packets return, and neither of them breaks the receive loop off. -/
theorem unbroken_message : Returns Platform.zero signedIn.toSession message ∧
    Unbroken Platform.zero signedIn.toSession (Packet.wire message) := by
  have hrun : ((signedIn.step Platform.zero [1, 1, 97, 1]).bind fun r =>
      (r.step Platform.zero [2, 172, 2, 1, 97, 2, 104, 105]).map fun _ =>
        (r.accepts Platform.zero [2, 172, 2, 1, 97, 2, 104, 105],
          r.leaves Platform.zero [2, 172, 2, 1, 97, 2, 104, 105])) = some (true, false) := by rfl
  obtain ⟨s₁, h₁, hrun⟩ := Option.bind_eq_some_iff.mp hrun
  obtain ⟨s₂, h₂, hboth⟩ := Option.map_eq_some_iff.mp hrun
  obtain ⟨ha, hleave⟩ := Prod.mk.inj hboth
  obtain ⟨hpay, hpay'⟩ := List.cons_eq_cons.mp payloads_message
  constructor
  · exact ⟨s₁, hpay ▸ h₁, s₂, List.head_eq_of_cons_eq hpay' ▸ h₂, trivial⟩
  · have hsecond : Unbroken Platform.zero s₁ [8, 2, 172, 2, 1, 97, 2, 104, 105] :=
      .packet (by rfl) h₂ (fun h => absurd (ha.symm.trans h) (by decide))
        (fun h => absurd (hleave.symm.trans h) (by decide)) (.done (by rfl))
    rw [wire_message]
    exact .packet (by rfl) h₁ (fun h => by cases h) (fun h => by cases h) hsecond

/-- The packets sent by one side and received by another: in the calls of the sender, in one chunk, and in three that
cut through the packets. -/
theorem send_receive_message : ∃ (s : Session) (c : ConnectionClient) (packets : List Packet),
    s.Composes [] ∧ c.Pending [] ∧ packets.map (fun p => (p.type, p.body)) =
      [(1, [1, 97, 1]), (2, [172, 2, 1, 97, 2, 104, 105])] ∧
    (∃ s', s.sendAll Platform.zero packets = some s' ∧ s'.Composes [] ∧
      s'.sent = s.sent ++ [[4], [1, 1, 97, 1], [8], [2, 172, 2, 1, 97, 2, 104, 105]]) ∧
    ∀ chunks ∈ [[[4], [1, 1, 97, 1], [8], [2, 172, 2, 1, 97, 2, 104, 105]],
        [[4, 1, 1, 97, 1, 8, 2, 172, 2, 1, 97, 2, 104, 105]], [[4, 1], [1, 97, 1, 8, 2, 172], [2, 1, 97, 2, 104, 105]]],
      ∃ c', c.addAll Platform.zero chunks = some c' ∧
        c'.handled = c.handled ++ [(1, [1, 97, 1]), (2, [172, 2, 1, 97, 2, 104, 105])] := by
  have hs : (ConnectionClient.new Platform.zero []).toSession.Composes [] :=
    ⟨ByteBuffer.rep_new (by decide) _, fun h => by cases h⟩
  have hc : signedIn.Pending [] := ByteBuffer.rep_new (by decide) _
  have hl : ∀ p ∈ message, p.payload.length ≤ 16382 := by
    rw [← List.forall_mem_map (P := fun bytes : List UInt8 => bytes.length ≤ 16382), payloads_message]
    decide
  obtain ⟨hreturns, hu⟩ := unbroken_message
  obtain ⟨hsend, hreceive, hany⟩ := send_receive (P := Platform.zero) hs fun p hp => (hl p hp).trans (by decide)
  refine ⟨_, signedIn, message, hs, hc, handed_message, ?_, fun chunks hchunks => ?_⟩
  · obtain ⟨s', hs', hcomposes, hsent⟩ := hsend _ List.prefix_rfl
    exact ⟨s', hs', hcomposes, hsent.trans (congrArg _ calls_message)⟩
  · rw [← handed_message]
    simp only [List.mem_cons, List.not_mem_nil, or_false] at hchunks
    obtain rfl | hcut := hchunks
    · obtain ⟨c', h, -, hh⟩ := hreceive hl signedIn hc hreturns
      rw [calls_message] at h
      exact ⟨c', h, hh⟩
    · have hflat : chunks.flatten = Packet.wire message := by
        rw [wire_message]
        rcases hcut with rfl | rfl <;> rfl
      have hlen : chunks.flatten.length ≤ 16384 := by
        rw [hflat, wire_message]
        decide
      have hfull : signedIn.NeverFull Platform.zero chunks :=
        ConnectionClient.neverFull_of_length_le hc (hflat ▸ hu) hlen List.not_mem_nil
      obtain ⟨c', h, hh, -⟩ := hany signedIn hc hu chunks (by rcases hcut with rfl | rfl <;> simp) hflat hfull
      exact ⟨c', h, hh⟩

/-- A packet of type 0 that holds `n` zeros. -/
def zeros (n : ℕ) : Packet := ⟨0, [.buf (List.replicate n 0)]⟩

private theorem length_zeros (n : ℕ) : (zeros n).payload.length = n + 1 := by
  have h : Varint.encode 0 = [0] := by rw [Varint.encode]; rfl
  simp [zeros, Packet.payload, Packet.body, Field.bytes, h]

/-- The longest packets do not fit the receive buffer together with their length. -/
theorem not_recovers_zeros :
    (∀ p ∈ [zeros 16382], p.payload.length ≤ 16384) ∧ ¬Recovers Platform.zero [zeros 16382] := by
  generalize hz : zeros 16382 = z
  have hl : z.payload.length = 16383 := hz ▸ length_zeros 16382
  refine ⟨by simp [hl], fun h => ?_⟩
  let c : ConnectionClient := { ConnectionClient.new Platform.zero [] with state := 255 }
  have hstate : c.accepts Platform.zero z.payload = false := by
    rw [Session.accepts, Packet.varInt_payload, ← hz]
    rfl
  obtain ⟨s', hs⟩ := Session.step_unknown (by unfold sizeT; omega) hstate
  obtain ⟨chunks, hne, hflat, c', hrun, hh⟩ := h c (ByteBuffer.rep_new (by decide) _) ⟨s', hs, trivial⟩
  have henc : (Varint.encode 16383).length = 2 := by
    rw [Varint.encode, if_neg (by decide), Varint.encode, if_pos (by decide)]
    rfl
  have hwire : (Packet.wire [z]).length = 16385 := by
    rw [Packet.wire_cons, hl, List.length_append, List.length_append, henc, hl]
    simp [Packet.wire]
  have hnone : ∀ k < 16385, Platform.zero.frame ((Packet.wire [z]).take k) = none := by
    intro k hk
    cases hf : Platform.zero.frame ((Packet.wire [z]).take k) with
    | none => rfl
    | some q =>
      have ha := Platform.zero.frame_append hf ((Packet.wire [z]).drop k)
      rw [List.take_append_drop, Packet.wire_cons, Packet.frame_calls _ (by omega)] at ha
      have hd := congrArg List.length (Prod.mk.inj (Option.some.inj ha)).2
      rw [← Packet.wire_cons, List.length_append, List.length_drop, hwire] at hd
      simp [Packet.wire] at hd
      omega
  rw [← hflat] at hwire hnone
  have hp : c.Pending [] := ByteBuffer.rep_new (by decide) _
  obtain ⟨c₁, h₁, hh₁⟩ := ConnectionClient.addAll_tooLong (P := Platform.zero) hp hne hwire hnone
  obtain rfl := Option.some.inj (hrun.symm.trans h₁)
  rw [hh₁] at hh
  simp at hh

end Sfup.Client
