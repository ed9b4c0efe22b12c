import Sfup.Client.Conductor

/-! When the table of peer connections stays consistent. The history beside the conductor keeps which
connection a `publisher` message has made, so that a later message can be said to remove that one. -/
namespace Sfup.Client.Conductor

open ConnectionClient (text)

/-- The sender and the identity in a message of a given type that `OnMessageFromChannel` gets to. -/
def named (W : Webrtc) (type : MessageType) : Event → Option (UInt32 × Int32)
  | .onMessageFromChannel aFromID aMsg =>
    if W.debug = true ∧ aMsg = [] ∨ aMsg = text "BYE" then none
    else (W.parse aMsg).bind fun m =>
      if MessageType.ofText m.type = type then m.clientID.map (aFromID, ·) else none
  | _ => none

def makes (W : Webrtc) (s : Conductor) (ev : Event) : Option UInt32 :=
  match ev with
  | .onJoinedChannel => some s.clientID
  | ev => (named W .publisher ev).map (·.1)

/-- The connection that the last `publisher` message of a sender with an identity has made. -/
abbrev History := UInt32 × Int32 → Option ℕ

def nextConnection (W : Webrtc) (s : Conductor) : Option ℕ := if W.factory s.calls then some s.calls else none

def note (W : Webrtc) (s : Conductor) (h : History) (ev : Event) : History :=
  match named W .publisher ev with
  | some key => Function.update h key (s.nextConnection W)
  | none => h

def step (W : Webrtc) (p : Conductor × History) (ev : Event) : Option (Unit × (Conductor × History)) :=
  (p.1.exec W ev).toOption.map fun s => ((), (s, note W p.1 p.2 ev))

def Consistent (s : Conductor) : Prop :=
  ∀ id connection, s.peerConnections.find? id = some connection →
    connection.isSome ∧ (s.pcObservers.find? id).isSome

def Removes (s s' : Conductor) (connection : Option ℕ) : Prop :=
  ∀ id, s'.peerConnections.find? id =
    if connection.isSome ∧ s.peerConnections.find? id = some connection then none else s.peerConnections.find? id

/-- An event follows no null pointer and leaves a consistent table, and if it is an `unpublisher` or `offline`
message it removes the connection of the last `publisher` message with the same sender and identity. -/
def Right (W : Webrtc) (p : Conductor × History) (ev : Event) : Prop :=
  p.1.exec W ev ≠ .error .nullPointer ∧
    ∀ s', p.1.exec W ev = .ok s' →
      Consistent s' ∧ ∀ key, named W .leaving ev = some key → Removes p.1 s' (p.2 key)

/-- The factory gives a connection whenever an event gets to it, and what is kept under the identity in an
`unpublisher` or `offline` message (everything, for the client's own) is the connection of the last `publisher`
message with the same sender and identity. -/
structure Meets (W : Webrtc) (p : Conductor × History) (ev : Event) : Prop where
  factory : ∀ id, makes W p.1 ev = some id → (W.debug = true → p.1.peerConnections.find? id.toNat = none) →
    W.factory p.1.calls = true
  leaving : ∀ f c, named W .leaving ev = some (f, c) →
    if c.toUInt32 = p.1.clientID then
      ∀ id connection, p.1.peerConnections.find? id = some connection → connection = p.2 (f, c)
    else if c.toUInt32 = f then
      ∀ connection, p.1.peerConnections.find? f.toNat = some connection → connection = p.2 (f, c)
    else p.1.peerConnections.find? c.toUInt32.toNat = none ∧ p.1.peerConnections.find? f.toNat ≠ some (p.2 (f, c))

section Steps
variable {W : Webrtc} {s s' : Conductor} {ev : Event} {f : UInt32} {c : Int32}

/-- Nothing but observers is added. -/
structure Keeps (s s' : Conductor) : Prop where
  table : ∀ id, s'.peerConnections.find? id = s.peerConnections.find? id
  calls : s'.calls = s.calls
  observers : ∀ id, (s.pcObservers.find? id).isSome → (s'.pcObservers.find? id).isSome

/-- The answer of the factory is kept under the identity. -/
structure Creates (W : Webrtc) (s s' : Conductor) (id : UInt32) : Prop where
  table : ∀ id', s'.peerConnections.find? id' =
    if id.toNat = id' then some (s.nextConnection W) else s.peerConnections.find? id'
  calls : s'.calls = s.calls + 1
  observer : (s'.pcObservers.find? id.toNat).isSome
  observers : ∀ id', (s.pcObservers.find? id').isSome → (s'.pcObservers.find? id').isSome

/-- What is kept under the identities in the set is removed. -/
structure Drops (s s' : Conductor) (ids : Set ℕ) : Prop where
  gone : ∀ id ∈ ids, s'.peerConnections.find? id = none
  table : ∀ id ∉ ids, s'.peerConnections.find? id = s.peerConnections.find? id
  calls : s'.calls = s.calls
  observers : ∀ id ∉ ids, (s.pcObservers.find? id).isSome → (s'.pcObservers.find? id).isSome

theorem Keeps.refl (s : Conductor) : Keeps s s := ⟨fun _ => rfl, rfl, fun _ h => h⟩

theorem keeps_setRender (s : Conductor) (id : ℕ) : Keeps s (s.setRender id) :=
  ⟨fun _ => rfl, rfl, fun id' h => OrdMap.find?_touch_isSome _ id id' false h⟩

theorem Keeps.trans {s₁ s₂ s₃ : Conductor} (h : Keeps s₁ s₂) (h' : Keeps s₂ s₃) : Keeps s₁ s₃ :=
  ⟨fun id => (h'.table id).trans (h.table id), h'.calls.trans h.calls,
    fun id hs => h'.observers id (h.observers id hs)⟩

theorem Creates.keeps {id : UInt32} {s₁ s₂ s₃ : Conductor} (h : Creates W s₁ s₂ id) (h' : Keeps s₂ s₃) :
    Creates W s₁ s₃ id :=
  ⟨fun id' => (h'.table id').trans (h.table id'), h'.calls.trans h.calls, h'.observers _ h.observer,
    fun id' hs => h'.observers id' (h.observers id' hs)⟩

/-- What `CreatePeerConnection` has stored before it comes to the stream. -/
def stored (W : Webrtc) (s : Conductor) (id : UInt32) : Conductor :=
  { s with
    peerConnections := (s.peerConnections.touch id.toNat none).set id.toNat (s.nextConnection W)
    pcObservers := s.pcObservers.set id.toNat true
    calls := s.calls + 1 }

private theorem creates_stored (W : Webrtc) (s : Conductor) (id : UInt32) (activeStream : Bool) :
    Creates W s { s.stored W id with activeStream } id where
  table id' := by
    simp only [stored, OrdMap.find?_set, OrdMap.find?_touch]
    split_ifs <;> rfl
  calls := rfl
  observer := by simp [stored]
  observers id' h := by
    simp only [stored, OrdMap.find?_set]
    split_ifs
    · rfl
    · exact h

theorem nextConnection_isSome : (s.nextConnection W).isSome = W.factory s.calls := by
  unfold nextConnection
  cases W.factory s.calls <;> rfl

/-- The `ASSERT` of `CreatePeerConnection` ends the program. -/
def Clashes (W : Webrtc) (s : Conductor) (id : UInt32) : Prop :=
  W.debug = true ∧ (s.peerConnections.touch id.toNat none).find? id.toNat ≠ some none

theorem clashes_iff (hs : Consistent s) :
    Clashes W s f ↔ W.debug = true ∧ s.peerConnections.find? f.toNat ≠ none := by
  unfold Clashes
  rw [OrdMap.find?_touch, if_pos rfl]
  cases hf : s.peerConnections.find? f.toNat with
  | none => simp
  | some connection =>
    obtain ⟨k, rfl⟩ := Option.isSome_iff_exists.mp (hs _ _ hf).1
    simp

/-- The three ends of `CreatePeerConnection`. -/
theorem createPeerConnection_cases (W : Webrtc) (s : Conductor) (id : UInt32) :
    (s.createPeerConnection W id = .error .assertion ∧ Clashes W s id) ∨
    (s.createPeerConnection W id = .error .nullPointer ∧ ¬Clashes W s id ∧ W.factory s.calls = false) ∨
    ∃ ok s', s.createPeerConnection W id = .ok (ok, s') ∧ ¬Clashes W s id ∧ Creates W s s' id := by
  by_cases hc : Clashes W s id
  · exact .inl ⟨if_pos hc, hc⟩
  · have heq : s.createPeerConnection W id =
        if id = s.clientID then do
          follow (s.nextConnection W)
          return (true, { s.stored W id with activeStream := true })
        else .ok ((s.nextConnection W).isSome, s.stored W id) := if_neg hc
    by_cases hid : id = s.clientID
    · rw [if_pos hid, nextConnection] at heq
      cases hf : W.factory s.calls with
      | false =>
        rw [hf] at heq
        exact .inr (.inl ⟨heq, hc, rfl⟩)
      | true =>
        rw [hf] at heq
        exact .inr (.inr ⟨_, _, heq, hc, creates_stored W s id true⟩)
    · rw [if_neg hid] at heq
      exact .inr (.inr ⟨_, _, heq, hc, creates_stored W s id s.activeStream⟩)

theorem follow_eq_ok {connection : Option ℕ} (h : connection.isSome) : follow connection = .ok () := by
  obtain ⟨k, rfl⟩ := Option.isSome_iff_exists.mp h
  rfl

/-- The loop over the table comes to its end if no entry holds a null pointer. -/
theorem foldlM_closeTurn {entries : List (ℕ × Option ℕ)} (h : ∀ entry ∈ entries, entry.2.isSome) (s : Conductor) :
    ∃ s', entries.foldlM closeTurn s = .ok s' ∧ Keeps s s' := by
  induction entries generalizing s with
  | nil => exact ⟨s, rfl, Keeps.refl s⟩
  | cons entry entries ih =>
    obtain ⟨he, hes⟩ := List.forall_mem_cons.mp h
    obtain ⟨s', hs', hk⟩ := ih hes (s.setRender entry.1)
    refine ⟨s', ?_, (keeps_setRender s entry.1).trans hk⟩
    rw [List.foldlM_cons, closeTurn, follow_eq_ok he]
    exact hs'

/-- The identities whose connections `DeletePeerConnection` closes. -/
def closed (s : Conductor) (id : UInt32) : Set ℕ := if id = s.clientID then Set.univ else {id.toNat}

theorem deletePeerConnection_drops (hs : Consistent s) (id : UInt32) :
    ∃ s', s.deletePeerConnection id = .ok s' ∧ Drops s s' (s.closed id) := by
  unfold deletePeerConnection closed
  by_cases hid : id = s.clientID
  · simp only [if_pos hid]
    obtain ⟨s₁, h₁, hk⟩ := foldlM_closeTurn
      (fun entry he => (hs _ _ (OrdMap.find?_eq_some_iff.mpr he)).1) { s with activeStream := false }
    refine ⟨{ s₁ with peerConnections := .empty, pcObservers := .empty }, by rw [h₁]; rfl, fun id _ => rfl,
      fun id h => absurd (Set.mem_univ id) h, hk.calls, fun id h => absurd (Set.mem_univ id) h⟩
  · simp only [if_neg hid]
    refine ⟨{ s with peerConnections := s.peerConnections.erase id.toNat
                     pcObservers := s.pcObservers.erase id.toNat }, ?_, ?_, ?_, rfl, ?_⟩
    · cases hheld : s.peerConnections.find? id.toNat with
      | none => rfl
      | some held => simp only [follow_eq_ok (hs _ _ hheld).1]; rfl
    · rintro _ rfl
      rw [OrdMap.find?_erase, if_pos rfl]
    · intro id' h
      rw [OrdMap.find?_erase, if_neg (Ne.symm h)]
    · intro id' h hs'
      rwa [OrdMap.find?_erase, if_neg (Ne.symm h)]

theorem Drops.keeps {ids : Set ℕ} {s₁ s₂ s₃ : Conductor} (h : Keeps s₁ s₂) (h' : Drops s₂ s₃ ids) :
    Drops s₁ s₃ ids :=
  ⟨h'.gone, fun id hid => (h'.table id hid).trans (h.table id), h'.calls.trans h.calls,
    fun id hid hs => h'.observers id hid (h.observers id hs)⟩

end Steps

section Consistency
variable {W : Webrtc} {s s' : Conductor} {ids : Set ℕ} {f : UInt32}

theorem Consistent.keeps (hs : Consistent s) (h : Keeps s s') : Consistent s' := by
  intro id connection hc
  rw [h.table] at hc
  exact ⟨(hs id connection hc).1, h.observers id (hs id connection hc).2⟩

theorem Drops.find?_eq_some {id : ℕ} {connection : Option ℕ} (hd : Drops s s' ids)
    (hc : s'.peerConnections.find? id = some connection) :
    id ∉ ids ∧ s.peerConnections.find? id = some connection := by
  have hid : id ∉ ids := by
    intro hid
    rw [hd.gone id hid] at hc
    cases hc
  exact ⟨hid, hd.table id hid ▸ hc⟩

theorem Consistent.drops (hs : Consistent s) (h : Drops s s' ids) : Consistent s' := by
  intro id connection hc
  obtain ⟨hid, hc⟩ := h.find?_eq_some hc
  exact ⟨(hs id connection hc).1, h.observers id hid (hs id connection hc).2⟩

theorem Consistent.creates_iff (hs : Consistent s) (h : Creates W s s' f) :
    Consistent s' ↔ W.factory s.calls = true := by
  rw [← nextConnection_isSome]
  constructor
  · intro hs'
    exact (hs' f.toNat _ (by rw [h.table, if_pos rfl])).1
  · intro hf id connection hc
    rw [h.table] at hc
    split_ifs at hc with hid
    · cases hc
      exact ⟨hf, hid ▸ h.observer⟩
    · exact ⟨(hs id connection hc).1, h.observers id (hs id connection hc).2⟩

end Consistency

section Events
variable {W : Webrtc} {s s' : Conductor} {ev : Event} {type : MessageType} {f : UInt32} {c : Int32}

theorem named_eq_some (h : named W type ev = some (f, c)) :
    ∃ aMsg m, ev = .onMessageFromChannel f aMsg ∧ (W.debug = true → aMsg ≠ []) ∧ aMsg ≠ text "BYE" ∧
      W.parse aMsg = some m ∧ MessageType.ofText m.type = type ∧ m.clientID = some c := by
  unfold named at h
  split at h
  · rename_i aFromID aMsg
    split_ifs at h with hskip
    obtain ⟨m, hm, h⟩ := Option.bind_eq_some_iff.mp h
    split_ifs at h with ht
    obtain ⟨c', hc, h⟩ := Option.map_eq_some_iff.mp h
    cases h
    exact ⟨aMsg, m, rfl, fun hd he => hskip (.inl ⟨hd, he⟩), fun he => hskip (.inr he), hm, ht, hc⟩
  · cases h

theorem named_unique {type' : MessageType} {key key' : UInt32 × Int32} (h : named W type ev = some key)
    (h' : named W type' ev = some key') : type = type' := by
  obtain ⟨aMsg, m, rfl, -, -, hm, ht, -⟩ := named_eq_some h
  obtain ⟨aMsg', m', he, -, -, hm', ht', -⟩ := named_eq_some h'
  obtain ⟨-, rfl⟩ := Event.onMessageFromChannel.inj he
  cases hm.symm.trans hm'
  exact ht.symm.trans ht'

theorem onMessageFromChannel_eq_onObject {aMsg : AString} {m : JMessage} (hd : W.debug = true → aMsg ≠ [])
    (hb : aMsg ≠ text "BYE") (hm : W.parse aMsg = some m) (f : UInt32) :
    s.exec W (.onMessageFromChannel f aMsg) = s.onObject W f m := by
  rw [exec, onMessageFromChannel, if_neg fun h => hd h.1 h.2, if_neg hb, hm]

private theorem exec_publisher (h : named W .publisher ev = some (f, c)) :
    s.exec W ev = do
      let (ok, s) ← s.createPeerConnection W f
      return if ok then s.setRender f.toNat else s := by
  obtain ⟨aMsg, m, rfl, hd, hb, hm, ht, hc⟩ := named_eq_some h
  rw [onMessageFromChannel_eq_onObject hd hb hm, onObject, ht, hc]

theorem exec_leaving (h : named W .leaving ev = some (f, c)) :
    s.exec W ev = (s.setRender f.toNat).deletePeerConnection c.toUInt32 := by
  obtain ⟨aMsg, m, rfl, hd, hb, hm, ht, hc⟩ := named_eq_some h
  rw [onMessageFromChannel_eq_onObject hd hb hm, onObject, ht, hc]

/-- What follows the call of `CreatePeerConnection` changes none of its three ends. -/
theorem exec_makes_cases {id : UInt32} (h : makes W s ev = some id) :
    (s.exec W ev = .error .assertion ∧ Clashes W s id) ∨
    (s.exec W ev = .error .nullPointer ∧ ¬Clashes W s id ∧ W.factory s.calls = false) ∨
    ∃ s', s.exec W ev = .ok s' ∧ ¬Clashes W s id ∧ Creates W s s' id := by
  have heq : ∃ id' : Conductor → ℕ, s.exec W ev = do
      let (ok, s) ← s.createPeerConnection W id
      return if ok then s.setRender (id' s) else s := by
    unfold makes at h
    split at h
    · cases h
      exact ⟨fun s => s.clientID.toNat, rfl⟩
    · obtain ⟨⟨f, c⟩, hn, rfl⟩ := Option.map_eq_some_iff.mp h
      exact ⟨fun _ => f.toNat, exec_publisher hn⟩
  obtain ⟨id', heq⟩ := heq
  obtain ⟨hc, hcl⟩ | ⟨hc, hcl⟩ | ⟨ok, s', hc, hcl, hcr⟩ := createPeerConnection_cases W s id
  · rw [hc] at heq
    exact .inl ⟨heq, hcl⟩
  · rw [hc] at heq
    exact .inr (.inl ⟨heq, hcl⟩)
  · rw [hc] at heq
    refine .inr (.inr ⟨_, heq, hcl, ?_⟩)
    split
    · exact hcr.keeps (keeps_setRender s' _)
    · exact hcr

private theorem onDescription_keeps (hs : Consistent s) (f : UInt32) (m : JMessage) :
    ∃ s', s.onDescription W f m = .ok s' ∧ Keeps s s' := by
  unfold onDescription
  split
  · rename_i isOffer connection hc
    rw [follow_eq_ok (hs _ _ hc).1]
    refine ⟨_, rfl, ?_⟩
    split
    · exact keeps_setRender s f.toNat
    · exact Keeps.refl s
  · exact ⟨s, rfl, Keeps.refl s⟩

private theorem onCandidate_keeps (hs : Consistent s) (f : UInt32) (m : JMessage) : s.onCandidate W f m = .ok s := by
  unfold onCandidate
  split
  · rename_i hc
    rw [follow_eq_ok (hs _ _ hc).1]
    split <;> rfl
  · rfl

/-- A message that names no identity, or is of another type, changes no entry. -/
theorem onObject_keeps {m : JMessage} (hs : Consistent s)
    (hp : MessageType.ofText m.type = .publisher → m.clientID = none)
    (hl : MessageType.ofText m.type = .leaving → m.clientID = none) (f : UInt32) :
    ∃ s', s.onObject W f m = .ok s' ∧ Keeps s s' := by
  unfold onObject
  cases ht : MessageType.ofText m.type with
  | online => exact ⟨s, rfl, Keeps.refl s⟩
  | publisher =>
    rw [hp ht]
    exact ⟨s, rfl, Keeps.refl s⟩
  | leaving =>
    rw [hl ht]
    exact ⟨_, rfl, keeps_setRender s f.toNat⟩
  | description => exact onDescription_keeps hs f m
  | candidate => exact ⟨s, onCandidate_keeps hs f m, Keeps.refl s⟩

private theorem named_eq_none {aMsg : AString} {m : JMessage} (hd : ¬(W.debug = true ∧ aMsg = []))
    (hb : aMsg ≠ text "BYE") (hm : W.parse aMsg = some m) (h : named W type (.onMessageFromChannel f aMsg) = none)
    (ht : MessageType.ofText m.type = type) : m.clientID = none := by
  rw [named, if_neg (not_or.mpr ⟨hd, hb⟩), hm, Option.bind_some, if_pos ht] at h
  exact Option.map_eq_none_iff.mp h

private theorem onMessageFromChannel_keeps {aMsg : AString} (hs : Consistent s)
    (hp : named W .publisher (.onMessageFromChannel f aMsg) = none)
    (hl : named W .leaving (.onMessageFromChannel f aMsg) = none) :
    s.onMessageFromChannel W f aMsg = .error .assertion ∨
      ∃ s', s.onMessageFromChannel W f aMsg = .ok s' ∧ Keeps s s' := by
  unfold onMessageFromChannel
  split_ifs with hd hb
  · exact .inl rfl
  · exact .inr ⟨s, rfl, Keeps.refl s⟩
  · cases hm : W.parse aMsg with
    | none => exact .inr ⟨s, rfl, Keeps.refl s⟩
    | some m => exact .inr (onObject_keeps hs (named_eq_none hd hb hm hp) (named_eq_none hd hb hm hl) f)

/-- What an event does that neither makes a connection nor is an `unpublisher` or `offline` message. -/
theorem exec_cases (hs : Consistent s) (hm : makes W s ev = none) (hl : named W .leaving ev = none) :
    s.exec W ev = .error .assertion ∨ ∃ s', s.exec W ev = .ok s' ∧ (Keeps s s' ∨ Drops s s' Set.univ) := by
  cases ev with
  | onSignedIn clientID => exact .inr ⟨_, rfl, .inl ⟨fun _ => rfl, rfl, fun _ h => h⟩⟩
  | onLoginError => exact .inr ⟨_, rfl, .inl ⟨fun _ => rfl, rfl, fun _ h => h⟩⟩
  | onJoinedChannel => cases hm
  | onLeaveChannel =>
    obtain ⟨s₁, h₁, hd⟩ := deletePeerConnection_drops hs s.clientID
    rw [closed, if_pos rfl] at hd
    refine .inr ⟨s₁.signOut, ?_, .inr ⟨hd.gone, hd.table, hd.calls, hd.observers⟩⟩
    rw [exec, onLeaveChannel, h₁]
    rfl
  | onMessageFromChannel f aMsg =>
    have hp := Option.map_eq_none_iff.mp hm
    exact (onMessageFromChannel_keeps hs hp hl).imp_right fun ⟨s', he, hk⟩ => ⟨s', he, .inl hk⟩

end Events

section Runs
variable {W : Webrtc} {s s' : Conductor} {h : History} {ev : Event} {f : UInt32} {c : Int32} {ids : Set ℕ}

/-- No number is given twice, and the connection of a publisher can only be kept under its sender. -/
structure Invariant (p : Conductor × History) : Prop where
  consistent : Consistent p.1
  fresh : ∀ id k, p.1.peerConnections.find? id = some (some k) → k < p.1.calls
  noted : ∀ key k, p.2 key = some k → k < p.1.calls
  sender : ∀ f c k id, p.2 (f, c) = some k → p.1.peerConnections.find? id = some (some k) → id = f.toNat

theorem Invariant.init : Invariant (new, fun _ => none) where
  consistent := fun id connection h => by cases h
  fresh := fun id k h => by cases h
  noted := fun key k h => by cases h
  sender := fun f c k id h => by cases h

theorem Invariant.keeps (hI : Invariant (s, h)) (hk : Keeps s s') : Invariant (s', h) where
  consistent := hI.consistent.keeps hk
  fresh id k hc := by
    rw [hk.table] at hc
    exact hk.calls ▸ hI.fresh id k hc
  noted key k hn := hk.calls ▸ hI.noted key k hn
  sender f c k id hn hc := by
    rw [hk.table] at hc
    exact hI.sender f c k id hn hc

theorem Invariant.drops (hI : Invariant (s, h)) (hd : Drops s s' ids) : Invariant (s', h) where
  consistent := hI.consistent.drops hd
  fresh id k hc := hd.calls ▸ hI.fresh id k (hd.find?_eq_some hc).2
  noted key k hn := hd.calls ▸ hI.noted key k hn
  sender f c k id hn hc := hI.sender f c k id hn (hd.find?_eq_some hc).2

/-- The entry of a number is the new one exactly if the number is the next one. -/
theorem Creates.find?_eq_some {id k : ℕ} (hc : Creates W s s' f)
    (h : s'.peerConnections.find? id = some (some k)) :
    (id = f.toNat ∧ k = s.calls) ∨ s.peerConnections.find? id = some (some k) := by
  rw [hc.table] at h
  split_ifs at h with hid
  · unfold nextConnection at h
    split_ifs at h
    · cases h
      exact .inl ⟨hid.symm, rfl⟩
    · cases h
  · exact .inr h

theorem Invariant.creates (hI : Invariant (s, h)) (hf : W.factory s.calls = true) (hc : Creates W s s' f) :
    Invariant (s', h) where
  consistent := (hI.consistent.creates_iff hc).mpr hf
  fresh id k hk := by
    rw [hc.calls]
    obtain ⟨-, rfl⟩ | hk := hc.find?_eq_some hk
    · exact Nat.lt_succ_self _
    · exact Nat.lt_succ_of_lt (hI.fresh id k hk)
  noted key k hn := by
    rw [hc.calls]
    exact Nat.lt_succ_of_lt (hI.noted key k hn)
  sender f' c k id hn hk := by
    obtain ⟨-, rfl⟩ | hk := hc.find?_eq_some hk
    · exact absurd (hI.noted _ _ hn) (lt_irrefl _)
    · exact hI.sender f' c k id hn hk

theorem Invariant.publishes (hI : Invariant (s, h)) (hf : W.factory s.calls = true) (hc : Creates W s s' f)
    (c : Int32) : Invariant (s', Function.update h (f, c) (s.nextConnection W)) where
  consistent := (hI.creates hf hc).consistent
  fresh := (hI.creates hf hc).fresh
  noted key k hn := by
    simp only [Function.update_apply, nextConnection, if_pos hf] at hn
    split_ifs at hn
    · cases hn
      exact hc.calls ▸ Nat.lt_succ_self _
    · exact (hI.creates hf hc).noted key k hn
  sender f' c' k id hn hk := by
    simp only [Function.update_apply, nextConnection, if_pos hf] at hn
    split_ifs at hn with hkey
    · cases hkey
      cases hn
      obtain ⟨hid, -⟩ | hk := hc.find?_eq_some hk
      · exact hid
      · exact absurd (hI.fresh id _ hk) (lt_irrefl _)
    · exact (hI.creates hf hc).sender f' c' k id hn hk

theorem exec_leaving_drops (hs : Consistent s) (hl : named W .leaving ev = some (f, c)) :
    ∃ s', s.exec W ev = .ok s' ∧ Drops s s' (s.closed c.toUInt32) := by
  have hr := keeps_setRender s f.toNat
  obtain ⟨s', h', hd⟩ := deletePeerConnection_drops (hs.keeps hr) c.toUInt32
  exact ⟨s', (exec_leaving hl).trans h', Drops.keeps hr hd⟩

theorem makes_eq_none_of_leaving {key : UInt32 × Int32} (hl : named W .leaving ev = some key) :
    makes W s ev = none := by
  unfold makes
  split
  · cases hl
  · refine Option.map_eq_none_iff.mpr (Option.eq_none_iff_forall_ne_some.mpr fun key' hp => ?_)
    cases named_unique hp hl

private theorem note_of_makes (h : History) {id : UInt32} (hm : makes W s ev = some id) :
    note W s h ev = h ∨ ∃ c, note W s h ev = Function.update h (id, c) (s.nextConnection W) := by
  unfold makes at hm
  split at hm
  · exact .inl rfl
  · obtain ⟨⟨f, c⟩, hn, rfl⟩ := Option.map_eq_some_iff.mp hm
    exact .inr ⟨c, by rw [note, hn]⟩

private theorem note_of_makes_none (h : History) (hm : makes W s ev = none) : note W s h ev = h := by
  unfold makes at hm
  split at hm
  · rfl
  · rw [note, Option.map_eq_none_iff.mp hm]

theorem Invariant.step (hI : Invariant (s, h)) (hr : Right W (s, h) ev) (he : s.exec W ev = .ok s') :
    Invariant (s', note W s h ev) := by
  cases hm : makes W s ev with
  | some id =>
    obtain ⟨hc, -⟩ | ⟨hc, -⟩ | ⟨s₁, h₁, -, hc⟩ := exec_makes_cases hm
    · cases hc.symm.trans he
    · cases hc.symm.trans he
    · cases he.symm.trans h₁
      have hf := (hI.consistent.creates_iff hc).mp (hr.2 s' he).1
      obtain hn | ⟨c, hn⟩ := note_of_makes h hm
      · rw [hn]
        exact hI.creates hf hc
      · rw [hn]
        exact hI.publishes hf hc c
  | none =>
    rw [note_of_makes_none h hm]
    cases hl : named W .leaving ev with
    | some key =>
      obtain ⟨s₁, h₁, hd⟩ := exec_leaving_drops (c := key.2) hI.consistent hl
      cases he.symm.trans h₁
      exact hI.drops hd
    | none =>
      obtain h₁ | ⟨s₁, h₁, hk | hd⟩ := exec_cases hI.consistent hm hl
      · cases he.symm.trans h₁
      · cases he.symm.trans h₁
        exact hI.keeps hk
      · cases he.symm.trans h₁
        exact hI.drops hd

/-- An event removes a connection exactly if the entries it drops are those that hold the connection. -/
theorem removes_iff {connection : Option ℕ} (hs : Consistent s) (hd : Drops s s' ids) :
    Removes s s' connection ↔
      ∀ id held, s.peerConnections.find? id = some held → (id ∈ ids ↔ held = connection) := by
  refine forall_congr' fun id => ?_
  cases hheld : s.peerConnections.find? id with
  | none =>
    have hnone : s'.peerConnections.find? id = none := by
      by_cases hid : id ∈ ids
      · exact hd.gone id hid
      · rw [hd.table id hid, hheld]
    simp [hnone]
  | some held =>
    have hsome := (hs id held hheld).1
    simp only [Option.some.injEq, forall_eq']
    by_cases hid : id ∈ ids
    · rw [hd.gone id hid]
      by_cases hc : held = connection
      · simp [hid, ← hc, hsome]
      · simp [hid, hc]
    · rw [hd.table id hid, hheld]
      by_cases hc : held = connection
      · simp [hid, ← hc, hsome]
      · simp [hid, hc]

/-- The connection of a publisher is at most kept under its sender, so the three cases are the only ones. -/
theorem closed_iff (hI : Invariant (s, h)) (f : UInt32) (c : Int32) :
    (∀ id held, s.peerConnections.find? id = some held → (id ∈ s.closed c.toUInt32 ↔ held = h (f, c))) ↔
      if c.toUInt32 = s.clientID then
        ∀ id connection, s.peerConnections.find? id = some connection → connection = h (f, c)
      else if c.toUInt32 = f then
        ∀ connection, s.peerConnections.find? f.toNat = some connection → connection = h (f, c)
      else s.peerConnections.find? c.toUInt32.toNat = none ∧ s.peerConnections.find? f.toNat ≠ some (h (f, c)) := by
  have hsender : ∀ id held, s.peerConnections.find? id = some held → held = h (f, c) → id = f.toNat := by
    intro id held hheld heq
    obtain ⟨k, rfl⟩ := Option.isSome_iff_exists.mp (hI.consistent id held hheld).1
    exact hI.sender f c k id heq.symm hheld
  unfold closed
  split_ifs with hown hself
  · simp
  · rw [hself]
    constructor
    · intro hall held hheld
      exact (hall _ _ hheld).mp rfl
    · intro hall id held hheld
      refine ⟨?_, hsender id held hheld⟩
      rintro rfl
      exact hall held hheld
  · have hne : c.toUInt32.toNat ≠ f.toNat := fun h => hself (UInt32.toNat_inj.mp h)
    constructor
    · intro hall
      refine ⟨Option.eq_none_iff_forall_ne_some.mpr fun held hheld => ?_, fun hheld => ?_⟩
      · exact hne (hsender _ _ hheld ((hall _ _ hheld).mp rfl))
      · exact hne ((hall _ _ hheld).mpr rfl).symm
    · rintro ⟨hnone, hf⟩ id held hheld
      constructor
      · rintro rfl
        rw [hnone] at hheld
        cases hheld
      · intro heq
        exact absurd (heq ▸ hsender id held hheld heq ▸ hheld) hf

private theorem right_iff_meets_of_makes {id : UInt32} (hI : Invariant (s, h)) (hm : makes W s ev = some id) :
    Right W (s, h) ev ↔ Meets W (s, h) ev := by
  have hl : ∀ key, named W .leaving ev ≠ some key := by
    intro key hl
    cases hm.symm.trans (makes_eq_none_of_leaving hl)
  have hright : Right W (s, h) ev ↔ (¬Clashes W s id → W.factory s.calls = true) := by
    unfold Right
    obtain ⟨he, hc⟩ | ⟨he, hc, hf⟩ | ⟨s', he, hc, hcr⟩ := exec_makes_cases hm
    · simp [he, hc]
    · simp [he, hc, hf]
    · simp [he, hc, hl, hI.consistent.creates_iff hcr]
  have hclash : ¬Clashes W s id ↔ (W.debug = true → s.peerConnections.find? id.toNat = none) := by
    rw [clashes_iff hI.consistent, not_and, not_ne_iff]
  rw [hright, hclash]
  constructor
  · intro hf
    refine ⟨fun id' hm' => ?_, fun f c hkey => absurd hkey (hl _)⟩
    cases hm.symm.trans hm'
    exact hf
  · exact fun hM => hM.factory id hm

private theorem right_iff_meets_of_leaving (hI : Invariant (s, h)) (hl : named W .leaving ev = some (f, c)) :
    Right W (s, h) ev ↔ Meets W (s, h) ev := by
  obtain ⟨s', he, hd⟩ := exec_leaving_drops hI.consistent hl
  have hiff := (removes_iff hI.consistent hd).trans (closed_iff hI f c)
  constructor
  · intro hr
    refine ⟨fun id hm => ?_, fun f' c' hkey => ?_⟩
    · cases hm.symm.trans (makes_eq_none_of_leaving hl)
    · cases hl.symm.trans hkey
      exact hiff.mp ((hr.2 s' he).2 _ hl)
  · intro hM
    refine ⟨fun hnull => (nomatch he.symm.trans hnull), fun s₁ h₁ => ?_⟩
    cases he.symm.trans h₁
    refine ⟨hI.consistent.drops hd, fun key hkey => ?_⟩
    cases hl.symm.trans hkey
    exact hiff.mpr (hM.leaving f c hl)

theorem right_iff_meets (hI : Invariant (s, h)) (ev : Event) : Right W (s, h) ev ↔ Meets W (s, h) ev := by
  cases hm : makes W s ev with
  | some id => exact right_iff_meets_of_makes hI hm
  | none =>
    cases hl : named W .leaving ev with
    | some key => exact right_iff_meets_of_leaving (f := key.1) (c := key.2) hI hl
    | none =>
      have hmeets : Meets W (s, h) ev :=
        ⟨fun id hm' => (nomatch hm.symm.trans hm'), fun f c hkey => (nomatch hl.symm.trans hkey)⟩
      refine iff_of_true ?_ hmeets
      unfold Right
      obtain he | ⟨s', he, hk | hd⟩ := exec_cases hI.consistent hm hl
      · simp [he]
      · simp [he, hl, hI.consistent.keeps hk]
      · simp [he, hl, hI.consistent.drops hd]

/-- In a run of the conductor every event is right exactly if every event meets the condition. -/
theorem along_right_iff_meets (W : Webrtc) (evs : List Event) :
    Transition.Along (step W) (Right W) (new, fun _ => none) evs ↔
      Transition.Along (step W) (Meets W) (new, fun _ => none) evs := by
  refine Transition.along_iff (I := Invariant) (fun p ev hI => right_iff_meets hI ev) ?_ Invariant.init evs
  intro p ev r p' hI hr hstep
  cases he : p.1.exec W ev with
  | error fault =>
    rw [step, he] at hstep
    cases hstep
  | ok s' =>
    rw [step, he] at hstep
    cases hstep
    exact hI.step hr he

/-- A message that says that client 7 publishes, or that it no longer does. -/
def sampleMessage (type : String) : AString := text ("\x7b\"clientID\":7,\"type\":\"" ++ type ++ "\"\x7d")

def sampleWebrtc (factory : ℕ → Bool) : Webrtc where
  debug := false
  parse aMsg :=
    if aMsg = sampleMessage "publisher" then some ⟨text "publisher", some 7, none, none, none, none⟩
    else if aMsg = sampleMessage "unpublisher" then some ⟨text "unpublisher", some 7, none, none, none, none⟩
    else none
  factory := factory
  sessionDescription _ _ := none
  iceCandidate _ _ _ := false

/-- A null pointer is kept when the factory fails, and what the message of sender 5 about client 7 has made is
not removed by the next one. -/
theorem not_along_right_publisher :
    (¬Transition.Along (step (sampleWebrtc fun _ => false)) (Right (sampleWebrtc fun _ => false))
      (new, fun _ => none) [.onMessageFromChannel 5 (sampleMessage "publisher")]) ∧
    ¬Transition.Along (step (sampleWebrtc fun _ => true)) (Right (sampleWebrtc fun _ => true)) (new, fun _ => none)
      [.onMessageFromChannel 5 (sampleMessage "publisher"), .onMessageFromChannel 5 (sampleMessage "unpublisher")] := by
  constructor
  · rintro ⟨hr, -⟩
    have hm : makes (sampleWebrtc fun _ => false) new (.onMessageFromChannel 5 (sampleMessage "publisher")) = some 5 := by
      decide +kernel
    exact Bool.false_ne_true (((right_iff_meets Invariant.init _).mp hr).factory 5 hm fun _ => rfl)
  · rintro ⟨-, hrest⟩
    have hkept : (step (sampleWebrtc fun _ => true) (new, fun _ => none)
        (.onMessageFromChannel 5 (sampleMessage "publisher"))).map (fun q =>
          (q.2.1.peerConnections.find? 5, q.2.2 (5, 7), (q.2.1.exec (sampleWebrtc fun _ => true)
            (.onMessageFromChannel 5 (sampleMessage "unpublisher"))).toOption.map (·.peerConnections.find? 5))) =
        some (some (some 0), some 0, some (some (some 0))) := by decide +kernel
    have hl : named (sampleWebrtc fun _ => true) .leaving (.onMessageFromChannel 5 (sampleMessage "unpublisher")) =
        some (5, 7) := by decide +kernel
    obtain ⟨⟨r, p₁⟩, h₁, hkept⟩ := Option.map_eq_some_iff.mp hkept
    obtain ⟨hheld, hkept⟩ := Prod.mk.inj hkept
    obtain ⟨hnoted, hkept⟩ := Prod.mk.inj hkept
    obtain ⟨⟨-, hright⟩, -⟩ := hrest r p₁ h₁
    cases he : p₁.1.exec (sampleWebrtc fun _ => true)
        (.onMessageFromChannel 5 (sampleMessage "unpublisher")) with
    | error fault =>
      rw [he] at hkept
      cases hkept
    | ok s₂ =>
      rw [he] at hkept
      have hgone := (hright s₂ he).2 _ hl 5
      rw [hheld, hnoted] at hgone
      cases (Option.some.inj hkept).symm.trans hgone

end Runs

end Sfup.Client.Conductor
