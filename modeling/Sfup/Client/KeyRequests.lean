import Sfup.Client.KeyExchange

/-! The key requests of `HandlePacketLoginEncryptionKeyRequest`, by the bytes of the packet: which key it hands to
`SendEncryptionKeyResponse`, and whether the packet holds that key. -/
namespace Sfup.Client

namespace ByteBuffer.Rep

variable {b : ByteBuffer} {size n : ℕ} {read unread : List UInt8}

theorem readBE_of_le (h : Rep b size read unread) (hn : n ≤ unread.length) :
    b.readBE n = some (some (BigEndian.value (unread.take n)), b.advanced n) := by
  simp [ByteBuffer.readBE, h.needBytes_of_le hn]

theorem readBE_of_gt (h : Rep b size read unread) (hn : unread.length < n) : b.readBE n = some (none, b) := by
  simp [ByteBuffer.readBE, h.needBytes_of_gt hn]

end ByteBuffer.Rep

namespace Session

variable (P : Platform)

/-- A key of `keyLen` bytes and the nonce behind it. A key that is not there leaves the buffer where it is. -/
def keyAndNonce (keyLen : ℕ) (s : List UInt8) : Option (Option (AString × UInt32)) :=
  let key := if keyLen ≤ s.length then s.take keyLen else List.replicate keyLen 0
  let s := if keyLen ≤ s.length then s.drop keyLen else s
  if s.length < 6 ∨ BigEndian.value (s.take 2) ≠ 4 then some none
  else some (some (key, UInt32.ofNat (BigEndian.value ((s.drop 2).take 4))))

/-- The key and the nonce that are handed on, by the bytes of the buffer. `none` is an allocation of a negative size. -/
def keyRequestOf (s : List UInt8) : Option (Option (AString × UInt32)) :=
  match P.varInt s with
  | none => some none
  | some (len, r) =>
    if r.length < len.toNat + 2 then some none
    else if 2 ^ 15 ≤ BigEndian.value ((r.drop len.toNat).take 2) then none
    else keyAndNonce (BigEndian.value ((r.drop len.toNat).take 2)) (r.drop (len.toNat + 2))

/-- The packet holds, behind the server id, the length of the key, the key, the number 4 and the nonce. -/
def HoldsKey (fields key : List UInt8) (nonce : UInt32) : Prop :=
  ∃ len serverID rest, P.varInt fields = some (len, serverID ++ (BigEndian.encode 2 key.length ++ (key ++
      (BigEndian.encode 2 4 ++ (BigEndian.encode 4 nonce.toNat ++ rest))))) ∧
    serverID.length = len.toNat ∧ key.length < 2 ^ 15

/-- The handler returns without a call of `SendEncryptionKeyResponse`, or calls it with a key and a nonce that the
packet holds. -/
def AsksForKey (s : Session) (bb : ByteBuffer) (fields : List UInt8) : Prop :=
  ∃ r, keyRequest P bb = some r ∧ handlePacketLoginEncryptionKeyRequest P s bb = answer P s r ∧
    ∀ key nonce, r.1 = some (key, nonce) → HoldsKey P fields key nonce

/-- The length of the key is not negative. If so many bytes follow, the nonce does not end with the extra NUL; and if
not, the bytes in the place of the key are not a 4 and a nonce. -/
def KeyIsThere (fields : List UInt8) : Prop :=
  ∀ len serverID hi lo t, P.varInt (fields ++ [0]) = some (len, serverID ++ hi :: lo :: t) →
    serverID.length = len.toNat →
      BigEndian.value [hi, lo] < 2 ^ 15 ∧
      (BigEndian.value [hi, lo] ≤ t.length → (t.drop (BigEndian.value [hi, lo])).take 2 = [0, 4] →
        (t.drop (BigEndian.value [hi, lo])).length ≠ 6) ∧
      (t.length < BigEndian.value [hi, lo] → t.take 2 = [0, 4] → t.length < 6)

variable {P} {s : Session} {bb : ByteBuffer} {size : ℕ} {read unread fields key : List UInt8} {nonce : UInt32}

theorem value_take_lt {n : ℕ} (h : n ≤ unread.length) : BigEndian.value (unread.take n) < 256 ^ n := by
  have hlt := BigEndian.value_lt (unread.take n)
  rwa [List.length_take, min_eq_left h] at hlt

theorem int16_nonneg_iff {n : ℕ} (h : n < 2 ^ 16) : 0 ≤ (UInt16.ofNat n).toInt16 ↔ n < 2 ^ 15 := by
  have hbits : (UInt16.ofNat n).toInt16.toBitVec.toNat = n := by simpa using h
  rw [Int16.le_iff_toInt_le, ← Int16.toInt_toBitVec (UInt16.ofNat n).toInt16, BitVec.toInt_eq_toNat_cond, hbits]
  simp only [Int16.toInt_zero]
  split_ifs <;> omega

theorem int16_eq_four_iff {n : ℕ} (h : n < 2 ^ 16) : (UInt16.ofNat n).toInt16 = 4 ↔ n = 4 := by
  have hn : (UInt16.ofNat n).toNat = n := UInt16.toNat_ofNat_of_lt' h
  constructor
  · intro h4
    rw [← hn, ← UInt16.toUInt16_toInt16 (UInt16.ofNat n), h4]
    rfl
  · rintro rfl
    rfl

section Reads
variable {σ : Type} {state : σ}

theorem handleRead_int16 (h : bb.Rep size read unread) (next : Int16 → ByteBuffer → Option (σ × ByteBuffer)) :
    handleRead bb.readBEInt16 state next = if 2 ≤ unread.length then
      next (UInt16.ofNat (BigEndian.value (unread.take 2))).toInt16 (bb.advanced 2) else some (state, bb) := by
  split_ifs with hn
  · simp [handleRead, ByteBuffer.readBEInt16, h.readBE_of_le hn, -UInt16.toInt16_ofNat']
  · simp [handleRead, ByteBuffer.readBEInt16, h.readBE_of_gt (not_le.mp hn)]

private theorem handleRead_int32 (h : bb.Rep size read unread) (next : Int32 → ByteBuffer → Option (σ × ByteBuffer)) :
    handleRead bb.readBEInt32 state next = if 4 ≤ unread.length then
      next (UInt32.ofNat (BigEndian.value (unread.take 4))).toInt32 (bb.advanced 4) else some (state, bb) := by
  split_ifs with hn
  · simp [handleRead, ByteBuffer.readBEInt32, h.readBE_of_le hn, -UInt32.toInt32_ofNat']
  · simp [handleRead, ByteBuffer.readBEInt32, h.readBE_of_gt (not_le.mp hn)]

theorem handleRead_string (h : bb.Rep size read unread) (next : AString → ByteBuffer → Option (σ × ByteBuffer)) :
    (P.varInt unread = none → ∃ bb', handleRead (bb.readVarUTF8String P) state next = some (state, bb')) ∧
    ∀ len r, P.varInt unread = some (len, r) →
      (r.length < len.toNat → ∃ bb', handleRead (bb.readVarUTF8String P) state next = some (state, bb')) ∧
      (len.toNat ≤ r.length → ∃ bb' read', bb'.Rep size read' (r.drop len.toNat) ∧
        handleRead (bb.readVarUTF8String P) state next = next (r.take len.toNat) bb') := by
  refine ⟨fun hnone => ?_, fun len r hsome => ⟨fun hlt => ?_, fun hle => ?_⟩⟩
  · exact ⟨_, by simp [handleRead, ByteBuffer.readVarUTF8String, h.checkValid, h.readVarInt_none hnone]; rfl⟩
  · obtain ⟨hread, g, hg, hr⟩ := h.readVarInt_some hsome
    exact ⟨_, by simp [handleRead, ByteBuffer.readVarUTF8String, h.checkValid, hread, hr.readString_of_gt hlt]; rfl⟩
  · obtain ⟨hread, g, hg, hr⟩ := h.readVarInt_some hsome
    refine ⟨_, _, hr.advance hle, ?_⟩
    simp [handleRead, ByteBuffer.readVarUTF8String, h.checkValid, hread, hr.readString_of_le hle]

theorem nonce_of_rep (h : bb.Rep size read unread) :
    (handleRead bb.readBEInt16 none fun nonceLen bb => handleRead bb.readBEInt32 none fun nonce bb =>
      if nonceLen ≠ 4 then some (none, bb) else some (some (key, nonce.toUInt32), bb)).map Prod.fst =
      if unread.length < 6 ∨ BigEndian.value (unread.take 2) ≠ 4 then some none
      else some (some (key, UInt32.ofNat (BigEndian.value ((unread.drop 2).take 4)))) := by
  rw [handleRead_int16 h]
  by_cases h2 : 2 ≤ unread.length
  · have hfour := int16_eq_four_iff (value_take_lt h2)
    rw [if_pos h2, handleRead_int32 (h.advance h2)]
    have hdrop : (unread.drop 2).length = unread.length - 2 := List.length_drop
    by_cases h4 : 4 ≤ (unread.drop 2).length
    · rw [if_pos h4]
      by_cases hv : BigEndian.value (unread.take 2) = 4
      · rw [if_neg (not_not.mpr (hfour.mpr hv)), if_neg (not_or.mpr ⟨by omega, not_not.mpr hv⟩)]
        rfl
      · rw [if_pos fun h => hv (hfour.mp h), if_pos (Or.inr hv)]
        rfl
    · rw [if_neg h4, if_pos (Or.inl (by omega))]
      rfl
  · rw [if_neg h2, if_pos (Or.inl (by omega))]
    rfl

/-- The reads behind the server id. -/
theorem key_of_rep (h : bb.Rep size read unread) :
    (handleRead bb.readBEInt16 none fun keyLen bb => do
      assert (0 ≤ keyLen)
      let (buffer, bb) ← bb.readBuf keyLen.toUInt16.toNat
      let buffer := buffer.getD (List.replicate keyLen.toUInt16.toNat 0)
      handleRead bb.readBEInt16 none fun nonceLen bb =>
        handleRead bb.readBEInt32 none fun nonce bb =>
          if nonceLen ≠ 4 then some (none, bb) else some (some (buffer, nonce.toUInt32), bb)).map Prod.fst =
      if unread.length < 2 then some none
      else if 2 ^ 15 ≤ BigEndian.value (unread.take 2) then none
      else keyAndNonce (BigEndian.value (unread.take 2)) (unread.drop 2) := by
  rw [handleRead_int16 h]
  by_cases h2 : 2 ≤ unread.length
  · have hlt : BigEndian.value (unread.take 2) < 2 ^ 16 := value_take_lt h2
    have hn : (UInt16.ofNat (BigEndian.value (unread.take 2))).toInt16.toUInt16.toNat =
        BigEndian.value (unread.take 2) := UInt16.toNat_ofNat_of_lt' hlt
    have hadv := h.advance h2
    rw [if_pos h2, if_neg (by omega), hn]
    by_cases hneg : 2 ^ 15 ≤ BigEndian.value (unread.take 2)
    · rw [assert_neg fun h => absurd ((int16_nonneg_iff hlt).mp h) (by omega), if_pos hneg]
      rfl
    · rw [assert_pos ((int16_nonneg_iff hlt).mpr (by omega)), if_neg hneg, keyAndNonce]
      by_cases hlen : BigEndian.value (unread.take 2) ≤ (unread.drop 2).length
      · simp only [hadv.readBuf_of_le hlen, if_pos hlen, Option.bind_eq_bind, Option.bind_some, Option.getD_some]
        exact nonce_of_rep (hadv.advance hlen)
      · simp only [hadv.readBuf_of_gt (not_le.mp hlen), if_neg hlen, Option.bind_eq_bind, Option.bind_some,
          Option.getD_none]
        exact nonce_of_rep hadv
  · rw [if_neg h2, if_pos (by omega)]
    rfl

/-- What the handler reads is determined by the bytes of its buffer. -/
theorem keyRequest_of_rep (h : bb.Rep size read unread) : (keyRequest P bb).map Prod.fst = keyRequestOf P unread := by
  rw [keyRequest, keyRequestOf]
  cases hv : P.varInt unread with
  | none =>
    obtain ⟨bb', hbb'⟩ := (handleRead_string h _).1 hv
    rw [hbb']
    rfl
  | some p =>
    obtain ⟨len, r⟩ := p
    obtain ⟨hshort, hlong⟩ := (handleRead_string h _).2 len r hv
    by_cases hlen : len.toNat ≤ r.length
    · obtain ⟨bb', read', hr, hbb'⟩ := hlong hlen
      have hdrop : (r.drop len.toNat).length = r.length - len.toNat := List.length_drop
      rw [hbb', key_of_rep hr, List.drop_drop]
      dsimp only
      by_cases h2 : r.length < len.toNat + 2
      · rw [if_pos (by omega), if_pos h2]
      · rw [if_neg (by omega), if_neg h2]
    · obtain ⟨bb', hbb'⟩ := hshort (by omega)
      rw [hbb']
      dsimp only
      rw [if_pos (by omega)]
      rfl

end Reads

theorem asksForKey_iff_of_rep (h : bb.Rep size read (fields ++ [0])) : AsksForKey P s bb fields ↔
    ∃ o, keyRequestOf P (fields ++ [0]) = some o ∧
      ∀ key nonce, o = some (key, nonce) → HoldsKey P fields key nonce := by
  rw [← keyRequest_of_rep h]
  constructor
  · rintro ⟨r, hr, -, hholds⟩
    exact ⟨r.1, by rw [hr]; rfl, hholds⟩
  · rintro ⟨o, ho, hholds⟩
    obtain ⟨r, hr, rfl⟩ := Option.map_eq_some_iff.mp ho
    exact ⟨r, hr, by rw [handlePacketLoginEncryptionKeyRequest_eq, hr, Option.bind_some], hholds⟩

section Bytes
variable {len : UInt32} {serverID t : List UInt8} {hi lo : UInt8}

/-- A nonce that ends before the extra NUL is one of the packet. -/
theorem holdsKey_of_le (hv : P.varInt (fields ++ [0]) = some (len, serverID ++ hi :: lo :: t))
    (hid : serverID.length = len.toNat) (hneg : BigEndian.value [hi, lo] < 2 ^ 15)
    (hkey : BigEndian.value [hi, lo] ≤ t.length) (hlen : 6 < (t.drop (BigEndian.value [hi, lo])).length)
    (hfour : BigEndian.value ((t.drop (BigEndian.value [hi, lo])).take 2) = 4) :
    HoldsKey P fields (t.take (BigEndian.value [hi, lo]))
      (UInt32.ofNat (BigEndian.value (((t.drop (BigEndian.value [hi, lo])).drop 2).take 4))) := by
  set key := t.take (BigEndian.value [hi, lo]) with hkeydef
  have hkeylen : key.length = BigEndian.value [hi, lo] := by rw [hkeydef, List.length_take, min_eq_left hkey]
  -- the extra NUL is the last byte behind the nonce
  obtain ⟨u, hu⟩ : [0] <:+ t.drop (BigEndian.value [hi, lo]) := by
    obtain ⟨⟨g, r⟩, hsplit, he⟩ := Option.map_eq_some_iff.mp hv
    obtain ⟨-, rfl⟩ := Prod.mk.inj he
    have hsuffix : t.drop (BigEndian.value [hi, lo]) <:+ fields ++ [0] := by
      rw [Varint.split_eq_append hsplit]
      refine (List.drop_suffix _ t).trans ⟨g ++ (serverID ++ [hi, lo]), by simp⟩
    exact List.suffix_of_suffix_length_le (List.suffix_append fields [0]) hsuffix (by rw [List.length_singleton]; omega)
  rw [← hu] at hlen hfour ⊢
  have hparts : hi :: lo :: t = BigEndian.encode 2 key.length ++ (key ++ u) ++ [0] := by
    have hlenbytes := BigEndian.encode_value [hi, lo]
    rw [List.length_cons, List.length_singleton] at hlenbytes
    rw [hkeylen, hlenbytes, List.append_assoc, List.append_assoc, hu, List.take_append_drop]
    rfl
  rw [hparts, ← List.append_assoc] at hv
  have hu6 : 6 ≤ u.length := by
    rw [List.length_append, List.length_singleton] at hlen
    omega
  rw [List.take_append_of_le_length (by omega)] at hfour
  rw [List.drop_append_of_le_length (by omega), List.take_append_of_le_length (by rw [List.length_drop]; omega)]
  have htwo := BigEndian.encode_value (u.take 2)
  have hnonce := BigEndian.encode_value ((u.drop 2).take 4)
  rw [hfour, List.length_take, min_eq_left (by omega)] at htwo
  rw [List.length_take, List.length_drop, min_eq_left (by omega)] at hnonce
  refine ⟨len, serverID, u.drop 6, ?_, hid, by omega⟩
  have hval : BigEndian.value ((u.drop 2).take 4) < 2 ^ 32 := value_take_lt (by rw [List.length_drop]; omega)
  have hrest : u.drop 6 = (u.drop 2).drop 4 := by rw [List.drop_drop]
  rw [P.varInt_of_append hv, htwo, UInt32.toNat_ofNat_of_lt' hval, hnonce, hrest, List.take_append_drop,
    List.take_append_drop]

theorem of_holdsKey (hv : P.varInt (fields ++ [0]) = some (len, serverID ++ hi :: lo :: t))
    (hid : serverID.length = len.toNat) (h : HoldsKey P fields key nonce) :
    BigEndian.value [hi, lo] ≤ t.length ∧ 6 < (t.drop (BigEndian.value [hi, lo])).length := by
  obtain ⟨len', serverID', rest, hv', hid', hkey⟩ := h
  have happ := hv.symm.trans (P.varInt_append hv' [0])
  obtain ⟨rfl, hfields⟩ := Prod.mk.inj (Option.some.inj happ)
  rw [List.append_assoc] at hfields
  have hrest := List.append_inj_right hfields (hid.trans hid'.symm)
  rw [List.append_assoc] at hrest
  obtain ⟨hlen, ht⟩ : [hi, lo] = BigEndian.encode 2 key.length ∧
      t = key ++ (BigEndian.encode 2 4 ++ (BigEndian.encode 4 nonce.toNat ++ rest)) ++ [0] :=
    List.append_inj hrest (by simp)
  rw [hlen, BigEndian.value_encode_of_lt (by omega), ht]
  simp only [List.append_assoc, List.drop_left, List.length_append, BigEndian.length_encode, List.length_singleton]
  omega

theorem keyRequestOf_of_eq {s : List UInt8} (hv : P.varInt s = some (len, serverID ++ hi :: lo :: t))
    (hid : serverID.length = len.toNat) : keyRequestOf P s =
      if 2 ^ 15 ≤ BigEndian.value [hi, lo] then none else keyAndNonce (BigEndian.value [hi, lo]) t := by
  have hlen : ¬ (serverID ++ hi :: lo :: t).length < len.toNat + 2 := by simp [hid]
  have hdrop : (serverID ++ hi :: lo :: t).drop (len.toNat + 2) = t := by
    rw [← hid, List.drop_length_add_append]
    rfl
  have htake : (serverID ++ hi :: lo :: t).drop len.toNat = hi :: lo :: t := by rw [← hid, List.drop_left]
  simp only [keyRequestOf, hv, if_neg hlen, hdrop, htake]
  rfl

theorem keyRequestOf_of_short {s : List UInt8}
    (h : ∀ len serverID hi lo t, P.varInt s = some (len, serverID ++ hi :: lo :: t) → serverID.length ≠ len.toNat) :
    keyRequestOf P s = some none := by
  rw [keyRequestOf]
  cases hv : P.varInt s with
  | none => rfl
  | some p =>
    obtain ⟨len, r⟩ := p
    by_cases hlen : r.length < len.toNat + 2
    · exact if_pos hlen
    · obtain ⟨hi, lo, t, ht⟩ : ∃ hi lo t, r.drop len.toNat = hi :: lo :: t := by
        match hr : r.drop len.toNat with
        | hi :: lo :: t => exact ⟨hi, lo, t, rfl⟩
        | [_] | [] =>
          have := congrArg List.length hr
          simp at this
          omega
      refine absurd ?_ (h len (r.take len.toNat) hi lo t ?_)
      · rw [List.length_take]
        omega
      · rw [hv, ← ht, List.take_append_drop]

theorem keyIsThere_iff_of_eq (hv : P.varInt (fields ++ [0]) = some (len, serverID ++ hi :: lo :: t))
    (hid : serverID.length = len.toNat) : KeyIsThere P fields ↔
      BigEndian.value [hi, lo] < 2 ^ 15 ∧
      (BigEndian.value [hi, lo] ≤ t.length → (t.drop (BigEndian.value [hi, lo])).take 2 = [0, 4] →
        (t.drop (BigEndian.value [hi, lo])).length ≠ 6) ∧
      (t.length < BigEndian.value [hi, lo] → t.take 2 = [0, 4] → t.length < 6) := by
  refine ⟨fun h => h len serverID hi lo t hv hid, fun h len' serverID' hi' lo' t' hv' hid' => ?_⟩
  obtain ⟨rfl, hr⟩ := Prod.mk.inj (Option.some.inj (hv.symm.trans hv'))
  have hrest := List.append_inj_right hr (hid.trans hid'.symm)
  obtain ⟨hhi, htail⟩ := List.cons.inj hrest
  obtain ⟨hlo, ht⟩ := List.cons.inj htail
  rwa [← hhi, ← hlo, ← ht]

theorem value_eq_four_iff (h : 2 ≤ unread.length) :
    BigEndian.value (unread.take 2) = 4 ↔ unread.take 2 = [0, 4] := by
  constructor
  · intro hv
    have he := BigEndian.encode_value (unread.take 2)
    rw [hv, List.length_take, min_eq_left h] at he
    exact he.symm
  · intro hv
    rw [hv]
    rfl

/-- A key that is there is held by the packet, unless the nonce ends with the extra NUL. -/
theorem keyAndNonce_of_le (hv : P.varInt (fields ++ [0]) = some (len, serverID ++ hi :: lo :: t))
    (hid : serverID.length = len.toNat) (hlt : BigEndian.value [hi, lo] < 2 ^ 15)
    (hkey : BigEndian.value [hi, lo] ≤ t.length) :
    (∃ o, keyAndNonce (BigEndian.value [hi, lo]) t = some o ∧ ∀ key nonce, o = some (key, nonce) →
      HoldsKey P fields key nonce) ↔
    ((t.drop (BigEndian.value [hi, lo])).take 2 = [0, 4] → (t.drop (BigEndian.value [hi, lo])).length ≠ 6) := by
  simp only [keyAndNonce, if_pos hkey]
  split_ifs with hnone
  · refine iff_of_true ⟨none, rfl, fun _ _ h => nomatch h⟩ fun hfour hsix => ?_
    have hvalue := (value_eq_four_iff (by omega)).mpr hfour
    exact hnone.elim (by omega) fun hne => hne hvalue
  · obtain ⟨hsix, hfour⟩ := not_or.mp hnone
    have hvalue := not_not.mp hfour
    constructor
    · rintro ⟨o, ho, hholds⟩
      have hheld := hholds _ _ (Option.some.inj ho).symm
      have hlong := (of_holdsKey hv hid hheld).2
      omega
    · intro hthere
      have hne := hthere ((value_eq_four_iff (by omega)).mp hvalue)
      refine ⟨_, rfl, fun key nonce h => ?_⟩
      obtain ⟨rfl, rfl⟩ := Prod.mk.inj (Option.some.inj h)
      exact holdsKey_of_le hv hid hlt hkey (by omega) hvalue

/-- A key that is not there is not handed on only if the bytes in its place do not pass for a 4 and a nonce. -/
theorem keyAndNonce_of_gt (hv : P.varInt (fields ++ [0]) = some (len, serverID ++ hi :: lo :: t))
    (hid : serverID.length = len.toNat) (hkey : t.length < BigEndian.value [hi, lo]) :
    (∃ o, keyAndNonce (BigEndian.value [hi, lo]) t = some o ∧ ∀ key nonce, o = some (key, nonce) →
      HoldsKey P fields key nonce) ↔ (t.take 2 = [0, 4] → t.length < 6) := by
  simp only [keyAndNonce, if_neg (not_le.mpr hkey)]
  split_ifs with hnone
  · refine iff_of_true ⟨none, rfl, fun _ _ h => nomatch h⟩ fun hfour => ?_
    by_contra hsix
    have hvalue := (value_eq_four_iff (by omega)).mpr hfour
    exact hnone.elim (by omega) fun hne => hne hvalue
  · obtain ⟨hsix, hfour⟩ := not_or.mp hnone
    refine iff_of_false (fun ⟨o, ho, hholds⟩ => ?_) fun h => ?_
    · have hheld := hholds _ _ (Option.some.inj ho).symm
      have hthere := (of_holdsKey hv hid hheld).1
      omega
    · exact hsix (h ((value_eq_four_iff (by omega)).mp (not_not.mp hfour)))

end Bytes

/-- The handler hands on what the packet holds, or nothing, exactly if the key is there. -/
theorem asksForKey_iff (s : Session) (h : bb.Rep size read (fields ++ [0])) :
    AsksForKey P s bb fields ↔ KeyIsThere P fields := by
  rw [asksForKey_iff_of_rep h]
  by_cases hshort : ∀ len serverID hi lo t, P.varInt (fields ++ [0]) = some (len, serverID ++ hi :: lo :: t) →
      serverID.length ≠ len.toNat
  · rw [keyRequestOf_of_short hshort]
    refine iff_of_true ⟨none, rfl, fun _ _ h => nomatch h⟩ fun len serverID hi lo t hv hid => ?_
    exact absurd hid (hshort len serverID hi lo t hv)
  · push Not at hshort
    obtain ⟨len, serverID, hi, lo, t, hv, hid⟩ := hshort
    have hparts := keyIsThere_iff_of_eq hv hid
    rw [hparts, keyRequestOf_of_eq hv hid]
    by_cases hneg : 2 ^ 15 ≤ BigEndian.value [hi, lo]
    · rw [if_pos hneg]
      exact iff_of_false (fun ⟨o, ho, _⟩ => nomatch ho) fun h => absurd h.1 (not_lt.mpr hneg)
    · have hlt := not_le.mp hneg
      rw [if_neg hneg]
      rcases Nat.lt_or_ge t.length (BigEndian.value [hi, lo]) with hkey | hkey
      · rw [keyAndNonce_of_gt hv hid hkey]
        exact ⟨fun h => ⟨hlt, fun hle => absurd hle (not_le.mpr hkey), fun _ => h⟩, fun h => h.2.2 hkey⟩
      · rw [keyAndNonce_of_le hv hid hlt hkey]
        exact ⟨fun h => ⟨hlt, fun _ => h, fun hgt => absurd hgt (not_lt.mpr hkey)⟩, fun h => h.2.1 hkey⟩

theorem asksForKey_three : ∃ bb : ByteBuffer, bb.Rep 16 [] ([2, 83, 84, 0, 3, 7, 8, 9, 0, 4, 1, 2, 3, 4] ++ [0]) ∧
    AsksForKey Platform.zero (ConnectionClient.new Platform.zero []).toSession bb
      [2, 83, 84, 0, 3, 7, 8, 9, 0, 4, 1, 2, 3, 4] := by
  obtain ⟨bb, hbb⟩ : ∃ bb : ByteBuffer, bb.Rep 16 [] ([2, 83, 84, 0, 3, 7, 8, 9, 0, 4, 1, 2, 3, 4] ++ [0]) :=
    ByteBuffer.exists_rep (by decide) (by decide)
  have hv : Platform.zero.varInt ([2, 83, 84, 0, 3, 7, 8, 9, 0, 4, 1, 2, 3, 4] ++ [0]) =
      some (2, [83, 84] ++ 0 :: 3 :: [7, 8, 9, 0, 4, 1, 2, 3, 4, 0]) := by decide
  have hthere : KeyIsThere Platform.zero [2, 83, 84, 0, 3, 7, 8, 9, 0, 4, 1, 2, 3, 4] :=
    (keyIsThere_iff_of_eq hv rfl).mpr ⟨by decide, by decide, by decide⟩
  exact ⟨bb, hbb, (asksForKey_iff _ hbb).mpr hthere⟩

/-- A key of 100 bytes that is not there: a number 4 and a nonce stand in its place. -/
theorem not_asksForKey : ¬ ∀ (P : Platform) (s : Session) (bb : ByteBuffer) (size : ℕ) (read fields : List UInt8),
    bb.Rep size read (fields ++ [0]) → AsksForKey P s bb fields := by
  intro hall
  obtain ⟨bb, hbb⟩ : ∃ bb : ByteBuffer, bb.Rep 16 [] ([0, 0, 100, 0, 4, 1, 2, 3, 4] ++ [0]) :=
    ByteBuffer.exists_rep (by decide) (by decide)
  have hasks := hall Platform.zero (ConnectionClient.new Platform.zero []).toSession _ _ _ _ hbb
  obtain ⟨o, ho, hholds⟩ := (asksForKey_iff_of_rep hbb).mp hasks
  have hcall : keyRequestOf Platform.zero [0, 0, 100, 0, 4, 1, 2, 3, 4, 0] =
      some (some (List.replicate 100 0, 0x01020304)) := by decide
  have hv : Platform.zero.varInt ([0, 0, 100, 0, 4, 1, 2, 3, 4] ++ [0]) =
      some (0, [] ++ 0 :: 100 :: [0, 4, 1, 2, 3, 4, 0]) := by decide
  have hheld := hholds _ _ (Option.some.inj (ho.symm.trans hcall))
  exact absurd (of_holdsKey hv rfl hheld).1 (by decide)

end Session

end Sfup.Client
