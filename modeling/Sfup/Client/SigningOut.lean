import Sfup.Client.Login

/-! `SignOut` called by a handler in the middle of `DataReceived`: what the loop over the slices of a chunk
still does with the decryptor, and which packets are still handled. -/
namespace Sfup.Client

def Event.isHandlePacket : Event → Bool
  | handlePacket .. => true
  | _ => false

/-- Behind a `SignOut` no packet is handled. -/
def Quiet (es : List Event) : Prop :=
  ∀ before after, es = before ++ .signOut :: after → ∀ e ∈ after, e.isHandlePacket = false

namespace Quiet

variable {es es' : List Event}

theorem of_not_mem (h : Event.signOut ∉ es) : Quiet es := by
  rintro before after rfl
  simp at h

theorem append (h : Event.signOut ∉ es) (h' : Quiet es') : Quiet (es ++ es') := by
  intro before after heq
  rcases List.append_eq_append_iff.mp heq with ⟨mid, rfl, hes'⟩ | ⟨mid, rfl, hcons⟩
  · exact h' mid after hes'
  · cases mid with
    | nil => exact h' [] after (by simpa using hcons.symm)
    | cons e mid =>
      obtain ⟨rfl, -⟩ := List.cons_eq_cons.mp hcons
      simp at h

theorem signOut_cons (h : Event.signOut ∉ es) (hes : ∀ e ∈ es, e.isHandlePacket = false) :
    Quiet (.signOut :: es) := by
  intro before after heq
  cases before with
  | nil =>
    obtain ⟨-, rfl⟩ := List.cons_eq_cons.mp heq
    exact hes
  | cons e before =>
    obtain ⟨-, rfl⟩ := List.cons_eq_cons.mp heq
    simp at h

theorem snoc {e : Event} (h : Quiet es) (hs : e ≠ .signOut) (he : e.isHandlePacket = false) :
    Quiet (es ++ [e]) := by
  intro before after heq
  rcases List.eq_nil_or_concat after with rfl | ⟨after', x, rfl⟩
  · exact absurd (List.singleton_inj.mp (List.append_inj_right' heq rfl)) hs
  · rw [List.concat_eq_append, ← List.cons_append, ← List.append_assoc] at heq
    obtain rfl := List.singleton_inj.mp (List.append_inj_right' heq rfl)
    intro y hy
    rcases List.mem_append.mp (List.concat_eq_append ▸ hy) with hy | hy
    · exact h before after' (List.append_inj_left' heq rfl) y hy
    · rw [List.mem_singleton.mp hy]
      exact he

end Quiet

/-- What a call adds to the events: a `SignOut` exactly if the flag says so, and no packet behind it. The
decryptor stays without one. -/
structure Adds (s : Session) (left : Bool) (s' : Session) : Prop where
  events : ∃ es, s'.events = s.events ++ es ∧ (left = true ↔ Event.signOut ∈ es) ∧ Quiet es
  decryptor : left = false → s.decryptor.isSome → s'.decryptor.isSome

namespace Adds

variable {P : Platform} {s s' s'' : Session} {t : UInt32} {fields body : List UInt8} {left : Bool}

theorem of_not_mem {es : List Event} (he : s'.events = s.events ++ es) (hs : Event.signOut ∉ es)
    (hd : s.decryptor.isSome → s'.decryptor.isSome) : Adds s false s' :=
  ⟨⟨es, he, by simpa using hs, .of_not_mem hs⟩, fun _ => hd⟩

theorem refl (s : Session) : Adds s false s := of_not_mem (List.append_nil _).symm List.not_mem_nil id

theorem emit (s : Session) {e : Event} (hs : e ≠ .signOut) : Adds s false (s.emit e) := by
  have he : (s.emit e).events = s.events ++ [e] := rfl
  exact of_not_mem he (by simpa using hs.symm) id

theorem trans (h : Adds s false s') (h' : Adds s' left s'') : Adds s left s'' := by
  obtain ⟨es, he, hiff, -⟩ := h.events
  obtain ⟨es', he', hiff', hq⟩ := h'.events
  have hn : Event.signOut ∉ es := fun hmem => Bool.false_ne_true (hiff.mpr hmem)
  refine ⟨⟨es ++ es', by rw [he', he, List.append_assoc], ?_, hq.append hn⟩, ?_⟩
  · rw [List.mem_append, hiff']
    exact ⟨.inr, fun hmem => hmem.resolve_left hn⟩
  · exact fun hl hd => h'.decryptor hl (h.decryptor rfl hd)

theorem snoc (h : Adds s left s') {e : Event} (hs : e ≠ .signOut) (he : e.isHandlePacket = false) :
    Adds s left (s'.emit e) := by
  obtain ⟨es, heq, hiff, hq⟩ := h.events
  refine ⟨⟨es ++ [e], by rw [Session.emit, heq, List.append_assoc], ?_, hq.snoc hs he⟩, h.decryptor⟩
  simp [hiff, hs.symm]

private theorem of_sends (h : Session.Sends s s') : Adds s false s' := by
  obtain ⟨es, he, hes⟩ := h.events
  refine of_not_mem he (fun hmem => ?_) fun hd => by rwa [h.decryptor]
  cases hes _ hmem

theorem signOut (s : Session) : Adds s true s.signOut := by
  refine ⟨⟨[.signOut], rfl, by simp, ?_⟩, fun h => by cases h⟩
  exact Quiet.signOut_cons List.not_mem_nil (by simp)

/-- A handler signs the client out exactly if the flag of its reaction says so. -/
theorem of_reaction (h : Session.Reaction t fields s left s') : Adds s left s' := by
  cases h with
  | ignored => exact refl s
  | unknown => exact emit s (by simp)
  | halted => exact of_not_mem (List.append_nil _).symm List.not_mem_nil id
  | sent hs => exact of_sends hs
  | status ht hstate state hlow hhigh hfield hs =>
    have h₁ : Adds s false { s with state } := of_not_mem (List.append_nil _).symm List.not_mem_nil id
    exact h₁.trans (of_sends hs)
  | keyed hstate hkey hevents =>
    obtain ⟨es, he, hes⟩ := hevents
    refine of_not_mem he (fun hmem => by cases hes _ hmem) fun hd => ?_
    rcases hkey with ⟨-, hk⟩ | hk
    · rwa [hk]
    · exact hk
  | signedIn clientID hs =>
    have he : ({ s with clientID, state := 3 }.emit .onSignedIn).events = s.events ++ [.onSignedIn] := rfl
    have h₁ : Adds s false ({ s with clientID, state := 3 }.emit .onSignedIn) := of_not_mem he (by simp) id
    exact h₁.trans (of_sends hs)
  | joined => exact emit s (by simp)
  | message => exact emit s (by simp)
  | stayed => exact of_not_mem (List.append_nil _).symm List.not_mem_nil id
  | loginError => exact (emit s (by simp)).trans (signOut _)
  | left hstate room =>
    have h₁ := (emit s (e := .onLeaveChannel room) (by simp)).trans (signOut _)
    exact ⟨h₁.events, fun h => by cases h⟩

theorem step (hb : body.length ≤ 16384) (hs : s.step P body = some s') : Adds s (s.leaves P body) s' := by
  have hT : body.length + 2 < sizeT := by unfold sizeT; omega
  cases hv : P.varInt body with
  | none =>
    obtain ⟨rfl, hl⟩ := Session.step_of_none hT hv hs
    rw [hl]
    exact refl _
  | some p =>
    obtain ⟨s₁, hr, rfl | rfl⟩ := Session.step_reaction hT hv hs
    · exact (emit s (by simp)).trans (of_reaction hr)
    · exact ((emit s (by simp)).trans (of_reaction hr)).snoc (by simp) rfl

theorem receive {fuel : ℕ} {pending pending' : List UInt8} (hp : pending.length ≤ 16384)
    (hr : s.receive P fuel pending = some (left, s', pending')) : Adds s left s' := by
  induction fuel generalizing s pending with
  | zero => cases hr
  | succ fuel ih =>
    rw [Session.receive] at hr
    cases hf : P.frame pending with
    | none =>
      obtain ⟨rfl, rfl, -⟩ : false = left ∧ s = s' ∧ pending = pending' := by simpa [hf] using hr
      exact refl _
    | some p =>
      obtain ⟨body, rest⟩ := p
      have hlen := P.frame_length_lt hf
      rw [hf] at hr
      obtain ⟨s₁, hs, hr⟩ := Option.bind_eq_some_iff.mp hr
      have h₁ := step (by omega) hs
      split_ifs at hr with hl
      · obtain ⟨rfl, rfl, -⟩ : true = left ∧ s₁ = s' ∧ [] = pending' := by simpa using hr
        exact hl ▸ h₁
      · rw [Bool.not_eq_true] at hl
        exact (hl ▸ h₁).trans (ih (by omega) hr)
      · rw [Bool.not_eq_true] at hl
        obtain ⟨rfl, rfl, -⟩ : false = left ∧ s₁ = s' ∧ rest = pending' := by simpa using hr
        exact hl ▸ h₁

theorem feed {pending aData pending' : List UInt8} (hf : s.feed P pending aData = some (left, s', pending')) :
    Adds s left s' := by
  unfold Session.feed at hf
  split_ifs at hf with hx
  · obtain ⟨rfl, rfl, -⟩ : false = left ∧ s.emit .packetBufferFull = s' ∧ pending = pending' := by
      simpa using hf
    exact emit s (by simp)
  · exact receive (by rw [List.length_append]; omega) hf

end Adds

def Session.feedEncrypted (P : Platform) (s : Session) (pending aData : List UInt8) :
    Option (Bool × Session × List UInt8) := do
  let decryptor ← s.decryptor
  let (decrypted, decryptor) := decryptor.decrypt P aData
  { s with decryptor := some decryptor }.feed P pending decrypted

/-- A packet completed by a slice that is not the last one makes its handler sign the client out. -/
inductive LeavesEarly (P : Platform) : Session → List UInt8 → List UInt8 → Prop
  | now {s s' : Session} {pending pending' data : List UInt8} (hmore : 512 < data.length)
      (h : s.feedEncrypted P pending (data.take 512) = some (true, s', pending')) : LeavesEarly P s pending data
  | later {s s' : Session} {pending pending' data : List UInt8}
      (h : s.feedEncrypted P pending (data.take 512) = some (false, s', pending'))
      (hrest : LeavesEarly P s' pending' (data.drop 512)) : LeavesEarly P s pending data

/-- Only a chunk of more than one slice can do so. -/
theorem LeavesEarly.length {P : Platform} {s : Session} {pending data : List UInt8}
    (h : LeavesEarly P s pending data) : 512 < data.length := by
  induction h with
  | now hmore => exact hmore
  | later _ _ ih =>
    rw [List.length_drop] at ih
    omega

theorem Adds.feedEncrypted {P : Platform} {s s' : Session} {pending aData pending' : List UInt8} {left : Bool}
    (h : s.feedEncrypted P pending aData = some (left, s', pending')) : Adds s left s' := by
  obtain ⟨d, -, h⟩ := Option.bind_eq_some_iff.mp h
  have hf : Adds { s with decryptor := some (d.decrypt P aData).2 } left s' := Adds.feed h
  exact ⟨hf.events, fun hl _ => hf.decryptor hl rfl⟩

namespace ConnectionClient

section

variable (P : Platform)

/-- The loop of `DataReceived` comes from one client and the bytes left over to another. -/
inductive Turns : ConnectionClient → List UInt8 → ConnectionClient → List UInt8 → Prop
  | here (c : ConnectionClient) (data : List UInt8) : Turns c data c data
  | next {c c₁ c₂ : ConnectionClient} {data rest : List UInt8} (hne : data ≠ [])
      (h : c.turn P (data.take 512) = some c₁) (ht : Turns c₁ (data.drop 512) c₂ rest) : Turns c data c₂ rest

/-- `DataReceived` copes with a handler that signs out: wherever its loop calls `ProcessData` there is a
decryptor and no `SignOut` has come in this chunk, and no packet is handled after one. -/
structure SafeSignOut (c : ConnectionClient) (aData : List UInt8) : Prop where
  decrypts : c.isEncrypted = true → ∀ c₁ rest, Turns P c aData c₁ rest → rest ≠ [] →
    c₁.decryptor.isSome ∧ ∃ es, c₁.events = c.events ++ es ∧ Event.signOut ∉ es
  handles : ∀ c', c.dataReceived P aData = some c' → ∃ es, c'.events = c.events ++ es ∧ Quiet es

end

variable {P : Platform} {c c' : ConnectionClient} {pending data rest : List UInt8}

theorem turn_yields (hp : c.Pending pending) (aData : List UInt8) :
    Yields (c.turn P aData) (c.feedEncrypted P pending aData) := by
  unfold turn Session.feedEncrypted
  cases hd : c.decryptor with
  | none => simp [Yields]
  | some d =>
    exact addReceivedData_yields (c := { c with decryptor := some (d.decrypt P aData).2 }) hp _

theorem turn_cases (hp : c.Pending pending) {aData : List UInt8} (h : c.turn P aData = some c') :
    ∃ left pending', c.feedEncrypted P pending aData = some (left, c'.toSession, pending') ∧ c'.Pending pending' := by
  have hy := turn_yields (P := P) hp aData
  cases hf : c.feedEncrypted P pending aData with
  | none =>
    rw [hf] at hy
    rw [show c.turn P aData = none from hy] at h
    cases h
  | some r =>
    obtain ⟨left, s', pending'⟩ := r
    rw [hf] at hy
    obtain ⟨b, hb, hr⟩ := hy
    obtain rfl := Option.some.inj (hb.symm.trans h)
    exact ⟨left, pending', rfl, hr⟩

theorem turns_nil (h : Turns P c [] c' rest) : c' = c ∧ rest = [] := by
  cases h with
  | here => exact ⟨rfl, rfl⟩
  | next hne => exact absurd rfl hne

theorem drop_ne_nil (h : data.drop 512 ≠ []) : 512 < data.length := by
  by_contra hle
  exact h (List.drop_of_length_le (Nat.not_lt.mp hle))

/-- Without an early `SignOut` the decryptor is there at every turn. -/
theorem decrypts_of_not_leavesEarly (hp : c.Pending pending) (hd : c.decryptor.isSome)
    (hn : ¬LeavesEarly P c.toSession pending data) (ht : Turns P c data c' rest) (hrest : rest ≠ []) :
    c'.decryptor.isSome ∧ ∃ es, c'.events = c.events ++ es ∧ Event.signOut ∉ es := by
  induction ht generalizing pending with
  | here c data => exact ⟨hd, [], (List.append_nil _).symm, List.not_mem_nil⟩
  | @next c c₁ c₂ data rest hne h ht ih =>
    obtain ⟨left, pending', hf, hp'⟩ := turn_cases hp h
    have hmore : 512 < data.length := by
      apply drop_ne_nil
      intro hnil
      rw [hnil] at ht
      exact hrest (turns_nil ht).2
    cases left with
    | true => exact absurd (.now hmore hf) hn
    | false =>
      have ha := Adds.feedEncrypted hf
      obtain ⟨es, he, hiff, -⟩ := ha.events
      obtain ⟨hd', es', he', hs'⟩ := ih hp' (ha.decryptor rfl hd) (fun hl => hn (.later hf hl)) hrest
      refine ⟨hd', es ++ es', by rw [he', he, List.append_assoc], ?_⟩
      rw [List.mem_append, not_or]
      exact ⟨fun hmem => Bool.false_ne_true (hiff.mpr hmem), hs'⟩

theorem decryptLoop_quiet {fuel : ℕ} (hp : c.Pending pending) (hn : ¬LeavesEarly P c.toSession pending data)
    (h : decryptLoop P fuel c data = some c') : ∃ es, c'.events = c.events ++ es ∧ Quiet es := by
  induction fuel generalizing c pending data with
  | zero =>
    cases data with
    | nil =>
      obtain rfl : c = c' := by simpa [decryptLoop] using h
      exact ⟨[], (List.append_nil _).symm, .of_not_mem List.not_mem_nil⟩
    | cons x xs => simp [decryptLoop] at h
  | succ fuel ih =>
    cases data with
    | nil =>
      obtain rfl : c = c' := by simpa [decryptLoop] using h
      exact ⟨[], (List.append_nil _).symm, .of_not_mem List.not_mem_nil⟩
    | cons x xs =>
      rw [decryptLoop] at h
      · obtain ⟨c₁, h₁, h⟩ := Option.bind_eq_some_iff.mp h
        obtain ⟨left, pending', hf, hp'⟩ := turn_cases hp h₁
        obtain ⟨es, he, hiff, hq⟩ := (Adds.feedEncrypted hf).events
        cases left with
        | false =>
          obtain ⟨es', he', hq'⟩ := ih hp' (fun hl => hn (.later hf hl)) h
          refine ⟨es ++ es', by rw [he', he, List.append_assoc], hq'.append fun hmem => ?_⟩
          exact Bool.false_ne_true (hiff.mpr hmem)
        | true =>
          -- the slice that signs out is the last one
          have hnil : (x :: xs).drop 512 = [] := by
            by_contra hne
            exact hn (.now (drop_ne_nil hne) hf)
          rw [hnil] at h
          obtain rfl : c₁ = c' := by cases fuel <;> simpa [decryptLoop] using h
          exact ⟨es, he, hq⟩
      · simp

/-- An early `SignOut` is followed by another turn of the loop. -/
theorem turns_of_leavesEarly {s : Session} (hl : LeavesEarly P s pending data) (hs : c.toSession = s)
    (hp : c.Pending pending) :
    ∃ c₁ rest es, Turns P c data c₁ rest ∧ rest ≠ [] ∧ c₁.events = c.events ++ es ∧ Event.signOut ∈ es := by
  induction hl generalizing c with
  | @now s s' pending pending' data hmore hf =>
    subst hs
    have hy := turn_yields (P := P) hp (data.take 512)
    rw [hf] at hy
    obtain ⟨b, hb, -⟩ := hy
    obtain ⟨es, he, hiff, -⟩ := (Adds.feedEncrypted hf).events
    refine ⟨_, _, es, .next (List.ne_nil_of_length_pos (by omega)) hb (.here _ _), ?_, he, hiff.mp rfl⟩
    exact List.ne_nil_of_length_pos (by rw [List.length_drop]; omega)
  | @later s s' pending pending' data hf hrest ih =>
    subst hs
    have hy := turn_yields (P := P) hp (data.take 512)
    rw [hf] at hy
    obtain ⟨b, hb, hr⟩ := hy
    obtain ⟨es, he, -⟩ := (Adds.feedEncrypted hf).events
    obtain ⟨c₁, rest, es', ht, hne, he', hmem⟩ := ih (c := ⟨s', b⟩) rfl hr
    have hdata : data ≠ [] := by
      rintro rfl
      exact hne (turns_nil ht).2
    refine ⟨c₁, rest, es ++ es', .next hdata hb ht, hne, ?_, List.mem_append_right _ hmem⟩
    rw [he', he, List.append_assoc]

/-- From every state that calls lead to and for every chunk, `DataReceived` copes with handlers that sign
out exactly if none does so before the last slice of an encrypted chunk. -/
theorem safeSignOut_iff {aUserName : AString} (h : c.Reachable P aUserName) (hp : c.Pending pending)
    (aData : List UInt8) :
    SafeSignOut P c aData ↔ ¬(c.isEncrypted = true ∧ LeavesEarly P c.toSession pending aData) := by
  have hkeyed := ((Admitted.invariant P).reachable (Admitted.new P aUserName) h).2.keyed
  constructor
  · rintro hsafe ⟨he, hl⟩
    obtain ⟨c₁, rest, es, ht, hne, hev, hmem⟩ := turns_of_leavesEarly hl rfl hp
    obtain ⟨-, es', hev', hn⟩ := hsafe.decrypts he c₁ rest ht hne
    rw [hev] at hev'
    exact hn (List.append_cancel_left hev' ▸ hmem)
  · intro hcond
    refine ⟨fun he c₁ rest ht hne => ?_, fun c' hc => ?_⟩
    · exact decrypts_of_not_leavesEarly hp (hkeyed he) (fun hl => hcond ⟨he, hl⟩) ht hne
    · unfold dataReceived at hc
      split_ifs at hc with he
      · exact decryptLoop_quiet hp (fun hl => hcond ⟨he, hl⟩) hc
      · have hy := addReceivedData_yields (P := P) hp aData
        cases hf : c.feed P pending aData with
        | none =>
          rw [hf] at hy
          rw [show addReceivedData P c aData = none from hy] at hc
          cases hc
        | some r =>
          obtain ⟨left, s', pending'⟩ := r
          rw [hf] at hy
          obtain ⟨b, hb, -⟩ := hy
          obtain rfl := Option.some.inj (hb.symm.trans hc)
          obtain ⟨es, hev, -, hq⟩ := (Adds.feed hf).events
          exact ⟨es, hev, hq⟩

/-- A platform whose key exchange succeeds and whose block cipher gives zeros. -/
def keyed : Platform :=
  { Platform.zero with
    encrypt := fun _ _ _ => some (Vector.replicate 128 0)
    aes := fun _ _ => List.replicate 16 0 }

def keyExchange : List UInt8 := [8, 0, 0, 0, 0, 2, 0, 0, 0, 10, 1, 0, 0, 0, 0, 4, 0, 0, 0, 0]

def errorChunk : List UInt8 := [5, 0, 0, 0, 0, 1] ++ List.replicate 507 0

theorem turn_keyed : (((new keyed []).dataReceived keyed keyExchange).bind fun c =>
    (c.turn keyed (errorChunk.take 512)).map fun c₁ => (c.isEncrypted, c₁.decryptor)) = some (true, none) := by
  decide +kernel

/-- After a key exchange, a chunk that is just an error packet is safe. -/
theorem safeSignOut_iff_keyed : ∃ (c : ConnectionClient) (pending : List UInt8), c.Reachable keyed [] ∧
    c.Pending pending ∧ c.isEncrypted = true ∧ SafeSignOut keyed c [5, 0, 0, 0, 0, 1] := by
  obtain ⟨c, hc, h⟩ := Option.bind_eq_some_iff.mp turn_keyed
  obtain ⟨c₁, -, h⟩ := Option.map_eq_some_iff.mp h
  have he : c.isEncrypted = true := congrArg Prod.fst h
  have hr := reachable_dataReceived hc
  obtain ⟨pending, hp⟩ := ((Admitted.invariant keyed).reachable (Admitted.new keyed []) hr).1
  refine ⟨c, pending, hr, hp, he, (safeSignOut_iff hr hp _).mpr fun hl => ?_⟩
  exact absurd hl.2.length (by decide)

/-- The second slice of the chunk finds no decryptor. -/
theorem not_safeSignOut_errorCode : ¬∀ (c : ConnectionClient) (aData : List UInt8), c.Reachable keyed [] →
    SafeSignOut keyed c aData := by
  intro hall
  obtain ⟨c, hc, h⟩ := Option.bind_eq_some_iff.mp turn_keyed
  obtain ⟨c₁, hturn, h⟩ := Option.map_eq_some_iff.mp h
  obtain ⟨he, hd⟩ := Prod.mk.inj h
  have hlen : errorChunk.length = 513 := by rw [errorChunk, List.length_append, List.length_replicate]; rfl
  have hne : errorChunk.drop 512 ≠ [] := List.ne_nil_of_length_pos (by rw [List.length_drop, hlen]; decide)
  have hsafe := (hall c errorChunk (reachable_dataReceived hc)).decrypts he c₁ (errorChunk.drop 512)
    (.next (List.ne_nil_of_length_pos (by rw [hlen]; decide)) hturn (.here _ _)) hne
  rw [hd] at hsafe
  exact absurd hsafe.1 (by simp)

end ConnectionClient

end Sfup.Client
