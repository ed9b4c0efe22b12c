import Sfup.Sdp.Branches

/-! What each line that `getSdp` writes does to the parameters of the session when it is read. -/
namespace Sfup.Sdp.Parser
open SdpInfo

/-- No letter of the text is one of `cs`. -/
def Free (cs w : Str) : Prop := ∀ c ∈ w, c ∉ cs

instance {cs w : Str} : Decidable (Free cs w) := List.decidableBAll (· ∉ cs) w

def Plain : Str → Prop := Free [' ', ':', '\r', '\n']

def Clean : Str → Prop := Free [' ', '\r', '\n']

namespace View

def setMedia (mtype : MediaType) (v : View) : View := { v with mtype }

def setDirection (d : StreamDirection) (v : View) : View :=
  if v.mtype = .audioType then { v with audioDirection := d } else { v with videoDirection := d }

def setFingerprint (fingerprint : Str) (v : View) : Option View :=
  if fingerprint.isEmpty then none else some { v with fingerprint }

def addGroup (ids : List Str) (v : View) : View :=
  { v with isBundle := true, bundleTags := v.bundleTags ++ ids.map fun id => ⟨id, .other⟩ }

def setUser (username : Str) (v : View) : View :=
  if v.mtype = .audioType then { v with audioUsername := username } else { v with videoUsername := username }

def setPass (password : Str) (v : View) : View :=
  if v.mtype = .audioType then { v with audioPassword := password } else { v with videoPassword := password }

def setMid (id : Str) (v : View) : Option View :=
  if id.isEmpty ∨ v.isBundle = false then some v
  else if v.bundleTags.length < 256 then some { v with bundleTags := v.bundleTags.map (setTagType id v.mtype) }
  else none

def addCrypto (c : CryptoInfo) (v : View) : Option View :=
  if c.keyParams.isEmpty then none
  else some { v with cryptos := v.cryptos ++ [{ c with tag := 0, mediaType := v.mtype }] }

def addExtMap (e : ExtMap) (v : View) : Option View :=
  if e.uri.isEmpty then none
  else some { v with extMaps := v.extMaps ++ [⟨strtoul (dec e.value.toNat), e.uri.dropLast, v.mtype⟩] }

def addFeedback (feedback : Str) (v : View) : View := { v with readable := v.readable && !feedback.isEmpty }

end View

/-- The line stays one line in a text, takes no branch but `b`, and does to the view what `f` says. -/
structure Reads (line : Str) (b : Branch) (f : View → Option View) : Prop where
  no_break : '\n' ∉ line
  source : SsrcReadable line
  takes : Takes line b
  simulates : Simulates view (processLine · line) f

section Texts
variable {w v ds cs : Str} {n : ℕ} {z : ℤ}

theorem Free.mono (h : Free cs w) (hs : ds ⊆ cs) : Free ds w := fun c hc hd => h c hc (hs hd)

theorem Free.append (hw : Free cs w) (hv : Free cs v) : Free cs (w ++ v) :=
  fun c hc => (List.mem_append.mp hc).elim (hw c) (hv c)

theorem Free.not_contains (h : Free cs w) : ∀ c ∈ w, ¬ cs.contains c :=
  fun c hc hd => h c hc (List.contains_iff_mem.mp hd)

theorem Plain.clean (h : Plain w) : Clean w := Free.mono h (by decide)

theorem Clean.no_break (h : Clean w) : '\n' ∉ w := fun hw => h _ hw (by decide)

theorem Plain.no_break (h : Plain w) : '\n' ∉ w := h.clean.no_break

theorem free_dec (h : cs.any Char.isDigit = false) : Free cs (dec n) := by
  intro c hc hcs
  have hdigit : c.isDigit = true := Nat.isDigit_of_mem_toDigits (by decide) (by decide) hc
  exact absurd hdigit (by simpa using List.any_eq_false.mp h c hcs)

theorem free_decInt (h : cs.any Char.isDigit = false) (hm : '-' ∉ cs) : Free cs (decInt z) := by
  unfold decInt
  split_ifs
  · intro c hc hcs
    rcases List.mem_cons.mp hc with rfl | hc
    · exact hm hcs
    · exact free_dec h c hc hcs
  · exact free_dec h

theorem plain_dec : Plain (dec n) := free_dec (by decide)

theorem plain_decInt : Plain (decInt z) := free_decInt (by decide) (by decide)

theorem dec_ne_nil : dec n ≠ [] := Nat.toDigits_ne_nil

theorem spares_dec {bs : List Branch} : Spares bs (dec n) := by
  have h : Free ['='] (dec n) := free_dec (by decide)
  exact spares_of_not_mem fun hw => h _ hw (by decide)

theorem spares_decInt {bs : List Branch} : Spares bs (decInt z) := by
  have h : Free ['='] (decInt z) := free_decInt (by decide) (by decide)
  exact spares_of_not_mem fun hw => h _ hw (by decide)

end Texts

section Heads
variable {h w ds : Str} {b : Branch} {f : View → Option View}

/-- The start of a line with a value: a name without delimiters and a colon. It takes one branch. -/
structure Head (h : Str) (b : Branch) : Prop where
  colon : h.dropLast ++ [':'] = h
  plain : Plain h.dropLast
  takes : Takes h b
  found : ∀ m ∈ b.markers, m <:+: h

/-- The names that `getSdp` writes. Those that no branch reads go with one that leaves the view. -/
def heads : List (Str × Branch) :=
  [("a=group:".toList, .group), ("a=msid-semantic:".toList, .rtcpMux), ("a=candidate:".toList, .candidate),
   ("a=ice-ufrag:".toList, .user), ("a=ice-pwd:".toList, .pass), ("a=fingerprint:".toList, .fingerprint),
   ("a=extmap:".toList, .extMap), ("a=mid:".toList, .mid), ("a=crypto:".toList, .crypto),
   ("a=rtpmap:".toList, .rtpmap), ("a=rtcp-fb:".toList, .feedback), ("a=fmtp:".toList, .fmtp),
   ("a=ssrc:".toList, .ssrc)]

theorem head_of_mem (hx : (h, b) ∈ heads) : Head h b := by
  have hall : ∀ x ∈ heads, x.1.dropLast ++ [':'] = x.1 ∧ Free [' ', ':', '\r', '\n'] x.1.dropLast ∧
      Takes x.1 x.2 ∧ ∀ m ∈ x.2.markers, m <:+: x.1 := by decide +kernel
  obtain ⟨hc, hp, ht, hf⟩ := hall (h, b) hx
  exact ⟨hc, hp, ht, hf⟩

theorem head_group : Head "a=group:".toList .group := head_of_mem List.mem_cons_self

theorem head_msid : Head "a=msid-semantic:".toList .rtcpMux :=
  head_of_mem (by simp only [heads, List.mem_cons, true_or, or_true])

theorem head_candidate : Head "a=candidate:".toList .candidate :=
  head_of_mem (by simp only [heads, List.mem_cons, true_or, or_true])

theorem head_user : Head "a=ice-ufrag:".toList .user :=
  head_of_mem (by simp only [heads, List.mem_cons, true_or, or_true])

theorem head_pass : Head "a=ice-pwd:".toList .pass :=
  head_of_mem (by simp only [heads, List.mem_cons, true_or, or_true])

theorem head_fingerprint : Head "a=fingerprint:".toList .fingerprint :=
  head_of_mem (by simp only [heads, List.mem_cons, true_or, or_true])

theorem head_extMap : Head "a=extmap:".toList .extMap :=
  head_of_mem (by simp only [heads, List.mem_cons, true_or, or_true])

theorem head_mid : Head "a=mid:".toList .mid :=
  head_of_mem (by simp only [heads, List.mem_cons, true_or, or_true])

theorem head_crypto : Head "a=crypto:".toList .crypto :=
  head_of_mem (by simp only [heads, List.mem_cons, true_or, or_true])

theorem head_rtpmap : Head "a=rtpmap:".toList .rtpmap :=
  head_of_mem (by simp only [heads, List.mem_cons, true_or, or_true])

theorem head_feedback : Head "a=rtcp-fb:".toList .feedback :=
  head_of_mem (by simp only [heads, List.mem_cons, true_or, or_true])

theorem head_fmtp : Head "a=fmtp:".toList .fmtp :=
  head_of_mem (by simp only [heads, List.mem_cons, true_or, or_true])

theorem head_ssrc : Head "a=ssrc:".toList .ssrc :=
  head_of_mem (by simp only [heads, List.mem_cons, true_or, or_true])

theorem Head.append (hh : Head h b) (w : Str) : h ++ w = h.dropLast ++ ':' :: w := by
  rw [List.append_cons, hh.colon]

theorem Head.found_append (hh : Head h b) {m : Str} (hm : m ∈ b.markers) : m <:+: h ++ w :=
  (hh.found m hm).trans List.infix_append_left

theorem Head.split (hh : Head h b) (hf : Free ds h.dropLast) (hd : ':' ∈ ds) (k : ℕ) (w : Str) :
    splitOneOf (h ++ w) ds k = h.dropLast :: Text.split ds.contains (limit k 1) w := by
  have hn : limit k 0 ≠ some 0 := by
    unfold limit
    split_ifs with hk
    · simp
    · simpa using hk
  have hl : (limit k 0).map (· - 1) = limit k 1 := by
    unfold limit
    split_ifs <;> rfl
  rw [splitOneOf_eq, hh.append, Text.split_append_delim hn hf.not_contains (List.contains_iff_mem.mpr hd), hl]

theorem Head.ssrcReadable (hh : Head h b) (hw : w ≠ []) : SsrcReadable (h ++ w) := by
  intro _
  rw [hh.append, splitOneOf_eq]
  exact Text.two_le_length_split (by decide) (by decide) hw

theorem Head.no_break_append (hh : Head h b) (hn : '\n' ∉ w) : '\n' ∉ h ++ w := by
  rw [hh.append]
  simp [hn, hh.plain.no_break]

theorem Head.takes_append (hh : Head h b) (ht : Takes w b) : Takes (h ++ w) b := by
  rw [hh.append]
  apply Spares.append_colon _ ht
  rw [hh.colon]
  exact hh.takes

theorem Head.reads (hh : Head h b) (hw : w ≠ []) (hn : '\n' ∉ w) (ht : Takes w b)
    (hb : Simulates view (b.run (h ++ w)) f) : Reads (h ++ w) b f :=
  ⟨hh.no_break_append hn, hh.ssrcReadable hw, hh.takes_append ht,
    simulates_processLine (hh.ssrcReadable hw) (hh.takes_append ht) hb⟩

end Heads

section Credentials
variable {h w : Str} {b : Branch}

theorem Head.value (hh : Head h b) (hw : w ≠ []) : splitOneOf (h ++ w) [':'] 1 = [h.dropLast, w] := by
  rw [hh.split (Free.mono hh.plain (by decide)) (by decide)]
  show _ :: Text.split _ (some 0) w = _
  rw [Text.split_zero, if_neg (by simpa using hw)]

theorem credential_value (hh : Head h b) (hw : Plain w) (hne : w ≠ []) : credential (h ++ w) = .ok w := by
  have hr : splitOneOf w ['\r'] 1 = [w] := by
    rw [splitOneOf_eq, Text.split_free _ (Free.mono hw (by decide)).not_contains, if_neg (by simpa using hne)]
  rw [credential, hh.value hne]
  show part (splitOneOf w ['\r'] 1) 0 = .ok w
  rw [hr]
  rfl

theorem reads_user (hw : Plain w) (hne : w ≠ []) (ht : Takes w .user) :
    Reads (userLine w) .user fun v => some (v.setUser w) := by
  have hh := head_user
  apply hh.reads hne hw.no_break ht
  simp only [Branch.run, userBranch]
  apply simulates_found (hh.found_append List.mem_cons_self)
  intro st
  rw [credential_value hh hw hne]
  exact congrArg some (apply_ite view _ _ _)

theorem reads_pass (hw : Plain w) (hne : w ≠ []) (ht : Takes w .pass) :
    Reads (passLine w) .pass fun v => some (v.setPass w) := by
  have hh := head_pass
  apply hh.reads hne hw.no_break ht
  simp only [Branch.run, passBranch]
  apply simulates_found (hh.found_append List.mem_cons_self)
  intro st
  rw [credential_value hh hw hne]
  exact congrArg some (apply_ite view _ _ _)

theorem fingerprintLine_eq : fingerprintLine w = "a=fingerprint:".toList ++ Text.joined "sha-256".toList [(' ', w)] := by
  unfold fingerprintLine Text.joined
  simp only [String.reduceToList, List.flatMap_cons, List.flatMap_nil, List.append_nil, List.cons_append,
    List.nil_append]

private theorem fingerprintValue_line (hw : Clean w) : fingerprintValue (fingerprintLine w) =
    part ("sha-256".toList :: Text.dropEmpty [w]) 1 := by
  have hh := head_fingerprint
  have hne : Text.joined "sha-256".toList [(' ', w)] ≠ [] := Text.joined_ne_nil
  have hfree : Free [' '] w := Free.mono hw (by decide)
  rw [fingerprintLine_eq, fingerprintValue, hh.value hne]
  show part (splitOneOf (Text.joined "sha-256".toList [(' ', w)]) [' '] 0) 1 = _
  rw [splitOneOf_eq, Text.split_joined (by simp [limit]) (Free.not_contains (by decide)) (by simp)
    (by simpa using hfree.not_contains)]
  rfl

theorem reads_fingerprint (hw : Clean w) (ht : Takes w .fingerprint) :
    Reads (fingerprintLine w) .fingerprint (View.setFingerprint w) := by
  have hh := head_fingerprint
  have htakes : Takes (Text.joined "sha-256".toList [(' ', w)]) .fingerprint := by
    simpa [Text.joined] using (spares_of_not_mem (show '=' ∉ "sha-256".toList by decide)).append_blank ht
  have hvalue := fingerprintValue_line hw
  rw [fingerprintLine_eq] at hvalue ⊢
  apply hh.reads Text.joined_ne_nil (by simpa [Text.joined] using hw.no_break) htakes
  simp only [Branch.run, fingerprintBranch]
  apply simulates_found (hh.found_append List.mem_cons_self)
  intro st
  rw [hvalue]
  cases w <;> rfl

end Credentials

section Bundle
variable {w : Str} {ids : List Str} {t : BundleTag}

theorem spares_joined {bs : List Branch} {ws : List (Char × Str)} (hd : ∀ x ∈ ws, x.1 = ' ' ∨ x.1 = '/')
    (hw : Spares bs w) (hws : ∀ x ∈ ws, Spares bs x.2) : Spares bs (Text.joined w ws) := by
  induction ws generalizing w with
  | nil => simpa [Text.joined] using hw
  | cons x ws ih =>
    have hrest := ih (fun y hy => hd y (List.mem_cons_of_mem _ hy)) (hws x List.mem_cons_self)
      (fun y hy => hws y (List.mem_cons_of_mem _ hy))
    rw [Text.joined_cons]
    rcases hd x List.mem_cons_self with h | h
    · rw [h]
      exact hw.append_blank hrest
    · rw [h]
      exact hw.append_slash hrest

theorem joined_no_break {ws : List (Char × Str)} (hd : ∀ x ∈ ws, x.1 ≠ '\n') (hw : '\n' ∉ w)
    (hws : ∀ x ∈ ws, '\n' ∉ x.2) : '\n' ∉ Text.joined w ws := by
  simp only [Text.joined, List.mem_append, List.mem_flatMap, List.mem_cons, not_or, not_exists, not_and]
  exact ⟨hw, fun x hx => ⟨(hd x hx).symm, hws x hx⟩⟩

theorem groupLine_eq : groupLine (ids.map (' ' :: ·)) =
    "a=group:".toList ++ Text.joined "BUNDLE".toList (ids.map (Prod.mk ' ')) := by
  unfold groupLine Text.joined
  simp only [String.reduceToList, List.cons_append, List.nil_append, List.flatMap_map, ← List.flatMap_def]

def groupIds (ids : List Str) : List Str :=
  (splitOneOf (groupLine (ids.map (' ' :: ·))) [':', ' ', ' ', '\r', '\n'] 10).drop 2

private theorem splitOneOf_groupLine (ids : List Str) :
    splitOneOf (groupLine (ids.map (' ' :: ·))) [':', ' ', ' ', '\r', '\n'] 10 =
    "a=group:".toList.dropLast :: "BUNDLE".toList :: groupIds ids := by
  have hh := head_group
  unfold groupIds
  rw [groupLine_eq, hh.split (Free.mono hh.plain (by decide)) (by decide)]
  cases ids with
  | nil => decide
  | cons id ids =>
    have hb : Free [':', ' ', ' ', '\r', '\n'] "BUNDLE".toList := by decide
    rw [List.map_cons, Text.joined_cons, Text.split_append_delim (by decide) hb.not_contains rfl]
    rfl

theorem groupIds_eq (hlen : ids.length ≤ 8) (hp : ∀ id ∈ ids, Plain id) : groupIds ids = Text.dropEmpty ids := by
  have hh := head_group
  have hfree : ∀ id ∈ ids, Free [':', ' ', ' ', '\r', '\n'] id := fun id hid => Free.mono (hp id hid) (by decide)
  have hids : (ids.map (Prod.mk ' ')).map Prod.snd = ids := by simp [Function.comp_def]
  unfold groupIds
  rw [groupLine_eq, hh.split (Free.mono hh.plain (by decide)) (by decide), Text.split_joined, hids,
    Text.dropEmpty_cons (by decide)]
  · rfl
  · intro k hk
    have : 9 = k := Option.some.inj hk
    rw [List.length_map]
    omega
  · exact Free.not_contains (by decide)
  · simp
  · intro x hx
    obtain ⟨id, hid, rfl⟩ := List.mem_map.mp hx
    exact (hfree id hid).not_contains

theorem reads_group (hn : ∀ id ∈ ids, '\n' ∉ id) (ht : ∀ id ∈ ids, Takes id .group) :
    Reads (groupLine (ids.map (' ' :: ·))) .group fun v => some (v.addGroup (groupIds ids)) := by
  have hh := head_group
  have htakes : Takes (Text.joined "BUNDLE".toList (ids.map (Prod.mk ' '))) .group :=
    spares_joined (by simp) (spares_of_not_mem (by decide)) (by simpa using ht)
  have hs := splitOneOf_groupLine ids
  rw [groupLine_eq] at hs ⊢
  apply hh.reads (by simp [Text.joined]) (joined_no_break (by simp) (by decide) _) htakes
  · simp only [Branch.run, groupBranch]
    apply simulates_found (hh.found_append List.mem_cons_self)
    intro st
    simp only [hs]
    rfl
  · simpa using hn

private theorem simulates_mid (hp : Plain t.id) : Simulates view (midBranch (midLine t)) (View.setMid t.id) := by
  have hh := head_mid
  have hfree : Free [':', ' ', '\r', '\n'] t.id := Free.mono hp (by decide)
  have hs : splitOneOf (midLine t) [':', ' ', '\r', '\n'] 4 =
      "a=mid:".toList.dropLast :: if t.id.isEmpty then [] else [t.id] := by
    unfold midLine
    rw [hh.split (Free.mono hh.plain (by decide)) (by decide), Text.split_free _ hfree.not_contains]
  apply simulates_found (hh.found_append List.mem_cons_self)
  intro st
  simp only [hs]
  by_cases hid : t.id.isEmpty
  · have hr : View.setMid t.id st.view = some st.view := if_pos (Or.inl hid)
    rw [hr, if_pos hid, if_neg (by simp)]
    rfl
  by_cases hb : st.info.isBundle = true
  · have hr : View.setMid t.id st.view = if st.info.bundleTags.length < 256 then
        some { st.view with bundleTags := st.info.bundleTags.map (setTagType t.id st.mtype) } else none :=
      if_neg fun h => h.elim hid fun h => absurd (hb.symm.trans h) (by decide)
    rw [hr, if_neg hid, if_pos ⟨by simp, hb⟩]
    show Option.map view (Except.toOption (uint8Loop st.info.bundleTags (fun t' => [setTagType t.id st.mtype t']) >>=
      fun bundleTags => pure { st with info.bundleTags := bundleTags })) = _
    rw [uint8Loop, ← List.map_eq_flatMap]
    split_ifs <;> rfl
  · have hr : View.setMid t.id st.view = some st.view := if_pos (Or.inr (Bool.eq_false_iff.mpr hb))
    rw [hr, if_neg fun h => hb h.2]
    rfl

theorem reads_mid (hp : Plain t.id) (ht : Takes t.id .mid) : Reads (midLine t) .mid (View.setMid t.id) := by
  by_cases hne : t.id = []
  · have hs : SsrcReadable "a=mid:".toList := fun hf => absurd hf (by decide)
    have hb := simulates_mid hp
    unfold midLine at hb ⊢
    rw [hne, List.append_nil] at hb ⊢
    exact ⟨by decide, hs, head_mid.takes, simulates_processLine hs head_mid.takes hb⟩
  · exact head_mid.reads hne hp.no_break ht (simulates_mid hp)

end Bundle

section Media
variable {c : CryptoInfo} {e : ExtMap}

private theorem cryptoLine_eq : cryptoLine c = "a=crypto:".toList ++
    Text.joined (decInt c.tag) [(' ', c.cipherSuite), (' ', "inline".toList), (':', c.keyParams)] := by
  unfold cryptoLine Text.joined
  simp only [String.reduceToList, List.flatMap_cons, List.flatMap_nil, List.append_assoc, List.append_nil,
    List.cons_append, List.nil_append]

theorem reads_crypto (hs : Plain c.cipherSuite) (hk : Plain c.keyParams) (hts : Takes c.cipherSuite .crypto)
    (htk : Takes c.keyParams .crypto) : Reads (cryptoLine c) .crypto (View.addCrypto c) := by
  have hh := head_crypto
  have hsplit : splitOneOf (cryptoLine c) [' ', ':'] 0 = "a=crypto:".toList.dropLast :: decInt c.tag ::
      c.cipherSuite :: "inline".toList :: Text.dropEmpty [c.keyParams] := by
    have hfree : ∀ w : Str, Plain w → Free [' ', ':'] w := fun w hw => Free.mono hw (by decide)
    rw [cryptoLine_eq, hh.split (Free.mono hh.plain (by decide)) (by decide),
      Text.split_joined (by simp [limit]) (hfree _ plain_decInt).not_contains (by simp)]
    · rfl
    · simp only [List.mem_cons, List.not_mem_nil, or_false, forall_eq_or_imp, forall_eq]
      exact ⟨(hfree _ hs).not_contains, Free.not_contains (by decide), (hfree _ hk).not_contains⟩
  have htakes : Takes (Text.joined (decInt c.tag)
      [(' ', c.cipherSuite), (' ', "inline".toList), (':', c.keyParams)]) .crypto := by
    have hinline : Takes ("inline".toList ++ ':' :: c.keyParams) .crypto :=
      Spares.append_colon (spares_of_not_mem (by decide)) htk
    rw [Text.joined_cons, Text.joined_cons, Text.joined_cons, Text.joined, List.flatMap_nil, List.append_nil]
    exact spares_decInt.append_blank (hts.append_blank hinline)
  have hbreak : '\n' ∉ Text.joined (decInt c.tag)
      [(' ', c.cipherSuite), (' ', "inline".toList), (':', c.keyParams)] := by
    apply joined_no_break (by simp) plain_decInt.no_break
    simp only [List.mem_cons, List.not_mem_nil, or_false, forall_eq_or_imp, forall_eq]
    exact ⟨hs.no_break, by decide, hk.no_break⟩
  rw [cryptoLine_eq] at hsplit ⊢
  apply hh.reads Text.joined_ne_nil hbreak htakes
  simp only [Branch.run, cryptoBranch]
  apply simulates_found (hh.found_append List.mem_cons_self)
  intro st
  simp only [hsplit, View.addCrypto]
  cases c.keyParams <;> rfl

private theorem extMapLine_eq :
    extMapLine e = "a=extmap:".toList ++ Text.joined (dec e.value.toNat) [(' ', e.uri)] := by
  unfold extMapLine Text.joined
  rw [List.flatMap_singleton, List.append_assoc]

private theorem splitOneOf_extMapLine : splitOneOf (extMapLine e) [' ', ':', '='] 3 =
    "a".toList :: "extmap".toList :: dec e.value.toNat :: if e.uri.isEmpty then [] else [e.uri] := by
  have hline : extMapLine e =
      "a".toList ++ '=' :: ("extmap".toList ++ ':' :: (dec e.value.toNat ++ ' ' :: e.uri)) := by
    unfold extMapLine
    simp only [String.reduceToList, List.cons_append, List.nil_append]
  have hdec : Free [' ', ':', '='] (dec e.value.toNat) := free_dec (by decide)
  rw [hline, splitOneOf_eq, Text.split_append_delim (by decide) (Free.not_contains (by decide)) (by decide),
    Text.split_append_delim (by decide) (Free.not_contains (by decide)) (by decide),
    Text.split_append_delim (by decide) hdec.not_contains (by decide)]
  exact congrArg (fun x => "a".toList :: "extmap".toList :: dec e.value.toNat :: x) (Text.split_zero e.uri)

theorem reads_extMap (hn : '\n' ∉ e.uri) (ht : Takes e.uri .extMap) :
    Reads (extMapLine e) .extMap (View.addExtMap e) := by
  have hh := head_extMap
  have hsplit := splitOneOf_extMapLine (e := e)
  rw [extMapLine_eq] at hsplit ⊢
  apply hh.reads Text.joined_ne_nil (joined_no_break (by simp) plain_dec.no_break (by simpa using hn))
    (spares_joined (by simp) spares_dec (by simpa using ht))
  simp only [Branch.run, extMapBranch]
  apply simulates_found (hh.found_append List.mem_cons_self)
  intro st
  simp only [hsplit]
  by_cases huri : e.uri.isEmpty
  · have hr : View.addExtMap e st.view = none := if_pos huri
    rw [hr, if_pos huri]
    rfl
  · have hr : View.addExtMap e st.view = some { st.view with
        extMaps := st.info.extMapVector ++ [⟨strtoul (dec e.value.toNat), e.uri.dropLast, st.mtype⟩] } := if_neg huri
    rw [hr, if_neg huri, List.dropLast_eq_take]
    rfl

end Media

section Codecs
variable {rtp : RtpMap} {w : Str} {x : Str × Str}

private theorem view_addCodec (st : Parser) (pt clock : UInt32) (name : Str) :
    view (addCodec pt name clock st) = view st := by
  rw [addCodec_eq ⟨pt, name, clock⟩]
  cases internalOf ⟨pt, name, clock⟩ <;> rfl

theorem simulates_rtpmapBranch {line : Str} (h : 4 ≤ (splitOneOf line [' ', ':', '/', '\n'] 4).length) :
    Simulates view (rtpmapBranch line) some := by
  apply simulates_onFound
  intro _ st
  have h₁ := part_of_lt (show 1 < (splitOneOf line [' ', ':', '/', '\n'] 4).length by omega)
  have h₂ := part_of_lt (show 2 < (splitOneOf line [' ', ':', '/', '\n'] 4).length by omega)
  have h₃ := part_of_lt (show 3 < (splitOneOf line [' ', ':', '/', '\n'] 4).length by omega)
  simp only [h₁, h₂, h₃]
  exact congrArg some (view_addCodec st _ _ _)

theorem reads_codec (hp : Plain w) (ht : Takes w .rtpmap) (pt : ℤ) (n : ℕ) (ns : List ℕ) :
    Reads ("a=rtpmap:".toList ++ Text.joined (decInt pt) ((' ', w) :: (n :: ns).map fun n => ('/', dec n))) .rtpmap some := by
  have hh := head_rtpmap
  have hbreak : ∀ x ∈ (' ', w) :: (n :: ns).map fun n => ('/', dec n), '\n' ∉ x.2 := by
    simpa using ⟨hp.no_break, plain_dec.no_break, fun n _ => plain_dec.no_break⟩
  have htakes : ∀ x ∈ (' ', w) :: (n :: ns).map fun n => ('/', dec n), Takes x.2 .rtpmap := by
    simpa using ⟨ht, spares_dec, fun n _ => spares_dec⟩
  apply hh.reads Text.joined_ne_nil (joined_no_break (by simp) plain_decInt.no_break hbreak)
    (spares_joined (by simp) spares_decInt htakes)
  apply simulates_rtpmapBranch
  have hpt : Free [' ', ':', '/', '\n'] (decInt pt) := free_decInt (by decide) (by decide)
  have hrest : Text.joined (dec n) (ns.map fun n => ('/', dec n)) ≠ [] := by simp [Text.joined, dec_ne_nil]
  rw [hh.split (by decide) (by decide), Text.joined_cons, List.map_cons, Text.joined_cons,
    Text.split_append_delim (by decide) hpt.not_contains rfl]
  exact Nat.add_le_add_right (Text.two_le_length_split (by decide) rfl hrest) 2

theorem reads_audioRtpmap (hp : Plain rtp.encodingName) (ht : Takes rtp.encodingName .rtpmap) (n : ℕ) :
    Reads (rtpmapLine rtp ++ '/' :: dec n) .rtpmap some := by
  have h := reads_codec hp ht (toInt rtp.payloadType) rtp.clockRate.toNat [n]
  unfold rtpmapLine
  simpa [Text.joined] using h

theorem reads_rtpmap (hp : Plain rtp.encodingName) (ht : Takes rtp.encodingName .rtpmap) :
    Reads (rtpmapLine rtp) .rtpmap some := by
  have h := reads_codec hp ht (toInt rtp.payloadType) rtp.clockRate.toNat []
  unfold rtpmapLine
  simpa [Text.joined] using h

theorem feedbackLine_eq : feedbackLine rtp w =
    "a=rtcp-fb:".toList ++ Text.joined (decInt (toInt rtp.payloadType)) [(' ', w)] := by
  unfold feedbackLine Text.joined
  rw [List.flatMap_singleton, List.append_assoc]

theorem splitOneOf_feedbackLine : splitOneOf (feedbackLine rtp w) [' ', ':'] 2 =
    "a=rtcp-fb:".toList.dropLast :: decInt (toInt rtp.payloadType) :: if w.isEmpty then [] else [w] := by
  have hh := head_feedback
  have hfree : Free [' ', ':'] (decInt (toInt rtp.payloadType)) := free_decInt (by decide) (by decide)
  rw [feedbackLine_eq, hh.split (Free.mono hh.plain (by decide)) (by decide), Text.joined_cons,
    Text.split_append_delim (by decide) hfree.not_contains rfl, Text.joined, List.flatMap_nil, List.append_nil]
  show _ :: _ :: Text.split _ (some 0) w = _
  rw [Text.split_zero]

theorem reads_feedback (hn : '\n' ∉ w) (ht : Takes w .feedback) :
    Reads (feedbackLine rtp w) .feedback fun v => some (v.addFeedback w) := by
  have hh := head_feedback
  have hlen : decide (3 ≤ (splitOneOf (feedbackLine rtp w) [' ', ':'] 2).length) = !w.isEmpty := by
    rw [splitOneOf_feedbackLine]
    cases w <;> rfl
  rw [feedbackLine_eq] at hlen ⊢
  apply hh.reads Text.joined_ne_nil (joined_no_break (by simp) plain_decInt.no_break (by simpa using hn))
    (spares_joined (by simp) spares_decInt (by simpa using ht))
  simp only [Branch.run, feedbackBranch]
  apply simulates_found (hh.found_append List.mem_cons_self)
  intro st
  simp only [Except.toOption, Option.map_some, view, View.addFeedback, List.all_append, List.all_cons, List.all_nil,
    Bool.and_true, hlen]

theorem reads_fmtp (hn : '\n' ∉ formatWord x) (ht : Takes (formatWord x) .fmtp) : Reads (fmtpLine rtp x) .fmtp some := by
  have hh := head_fmtp
  have hline : fmtpLine rtp x =
      "a=fmtp:".toList ++ Text.joined (decInt (toInt rtp.payloadType)) [(' ', formatWord x)] := by
    unfold fmtpLine Text.joined
    rw [List.flatMap_singleton, List.append_assoc]
  rw [hline]
  exact hh.reads Text.joined_ne_nil (joined_no_break (by simp) plain_decInt.no_break (by simpa using hn))
    (spares_joined (by simp) spares_decInt (by simpa using ht)) simulates_fmtpBranch

end Codecs

section Candidates
variable {c : CandidateInfo}

theorem processCandidate_ok {pieces : List Str} (h : 9 ≤ pieces.length)
    (hr : hostTypeOf pieces[8] = .srflx ∨ hostTypeOf pieces[8] = .relay → 13 ≤ pieces.length)
    (mtype : MediaType) (info : SdpInfo) :
    ∃ r cs, processCandidate pieces mtype info = .ok (r, { info with candidateVector := cs }) := by
  unfold processCandidate
  simp only [part_of_lt (show 1 < pieces.length by omega), part_of_lt (show 2 < pieces.length by omega),
    part_of_lt (show 3 < pieces.length by omega), part_of_lt (show 4 < pieces.length by omega),
    part_of_lt (show 5 < pieces.length by omega), part_of_lt (show 6 < pieces.length by omega),
    part_of_lt (show 7 < pieces.length by omega), part_of_lt (show 8 < pieces.length by omega), bind, Except.bind,
    pure, Except.pure]
  split_ifs with hproto htyp hrelay
  · exact ⟨false, info.candidateVector, rfl⟩
  · exact ⟨false, info.candidateVector, rfl⟩
  · have hlen := hr hrelay
    rw [part_of_lt (show 10 < pieces.length by omega), part_of_lt (show 12 < pieces.length by omega)]
    exact ⟨true, _, rfl⟩
  · exact ⟨true, _, rfl⟩

def candidateWords (c : CandidateInfo) : List (Char × Str) :=
  [(' ', dec c.componentId.toNat), (' ', c.netProtocol), (' ', dec c.priority.toNat), (' ', c.hostAddress),
    (' ', decInt c.hostPort), (' ', "typ".toList), (' ', hostTypeStr c.hostType)] ++
  ((if c.hostType = .srflx ∨ c.hostType = .relay then
    [(' ', "raddr".toList), (' ', c.rAddress), (' ', "rport".toList), (' ', decInt c.rPort)] else []) ++
  [(' ', "generation".toList), (' ', "0".toList)])

theorem length_candidateWords : (candidateWords c).length =
    if c.hostType = .srflx ∨ c.hostType = .relay then 13 else 9 := by
  unfold candidateWords
  split_ifs <;> rfl

theorem stringifyCandidate_eq : stringifyCandidate c =
    "a=candidate:".toList ++ Text.joined c.foundation (candidateWords c) := by
  unfold stringifyCandidate candidateWords Text.joined
  split_ifs <;>
    simp only [String.reduceToList, List.flatMap_cons, List.flatMap_nil, List.append_assoc, List.append_nil,
      List.cons_append, List.nil_append]

theorem forall_candidateWords {P : Str → Prop} (hd : ∀ n, P (dec n)) (hi : ∀ z, P (decInt z))
    (hfix : ∀ w ∈ ["typ".toList, "raddr".toList, "rport".toList, "generation".toList, "0".toList], P w)
    (ht : ∀ t, P (hostTypeStr t)) (hn : P c.netProtocol) (ha : P c.hostAddress)
    (hr : c.hostType = .srflx ∨ c.hostType = .relay → P c.rAddress) : ∀ x ∈ candidateWords c, P x.2 := by
  simp only [List.mem_cons, List.not_mem_nil, or_false, forall_eq_or_imp, forall_eq] at hfix
  obtain ⟨htyp, hraddr, hrport, hgen, hzero⟩ := hfix
  intro x hx
  simp only [candidateWords, List.mem_append, List.mem_cons, List.not_mem_nil, or_false] at hx
  rcases hx with (rfl | rfl | rfl | rfl | rfl | rfl | rfl) | hx | rfl | rfl
  · exact hd _
  · exact hn
  · exact hd _
  · exact ha
  · exact hi _
  · exact htyp
  · exact ht _
  · split_ifs at hx with hrelay
    · simp only [List.mem_cons, List.not_mem_nil, or_false] at hx
      rcases hx with rfl | rfl | rfl | rfl
      · exact hraddr
      · exact hr hrelay
      · exact hrport
      · exact hi _
    · cases hx
  · exact hgen
  · exact hzero

theorem candidateWords_blank : ∀ x ∈ candidateWords c, x.1 = ' ' := by
  intro x hx
  unfold candidateWords at hx
  split_ifs at hx <;>
    simp only [List.mem_append, List.mem_cons, List.not_mem_nil, or_false, List.nil_append] at hx <;>
    aesop

theorem splitOneOf_candidate (hf : Free [' ', ':'] c.foundation) (hws : ∀ x ∈ candidateWords c, Free [' ', ':'] x.2) :
    splitOneOf (stringifyCandidate c) [' ', ':'] 0 =
      "a=candidate:".toList.dropLast :: c.foundation :: (candidateWords c).map Prod.snd := by
  have hh := head_candidate
  have hkeep : Text.dropEmpty (c.foundation :: (candidateWords c).map Prod.snd) =
      c.foundation :: (candidateWords c).map Prod.snd := by
    unfold candidateWords
    cases c.hostType <;> rfl
  rw [stringifyCandidate_eq, hh.split (Free.mono hh.plain (by decide)) (by decide),
    Text.split_joined (by simp [limit]) hf.not_contains _ fun x hx => (hws x hx).not_contains, hkeep]
  intro x hx
  rw [candidateWords_blank x hx]
  rfl

theorem hostTypeOf_hostTypeStr (t : HostType) : hostTypeOf (hostTypeStr t) = t := by
  cases t <;> decide

/-- The strings of a candidate line hold no delimiter and no marker. -/
structure PlainCandidate (c : CandidateInfo) : Prop where
  plain : ∀ w ∈ [c.foundation, c.netProtocol, c.hostAddress, c.rAddress], Plain w
  takes : ∀ w ∈ [c.foundation, c.netProtocol, c.hostAddress], Takes w .candidate
  takesRelated : c.hostType = .srflx ∨ c.hostType = .relay → Takes c.rAddress .candidate

theorem PlainCandidate.words_plain (hc : PlainCandidate c) : ∀ x ∈ candidateWords c, Plain x.2 := by
  have hp := hc.plain
  simp only [List.mem_cons, List.not_mem_nil, or_false, forall_eq_or_imp, forall_eq] at hp
  obtain ⟨-, hn, ha, hr⟩ := hp
  have hfix : ∀ w ∈ ["typ".toList, "raddr".toList, "rport".toList, "generation".toList, "0".toList],
      Free [' ', ':', '\r', '\n'] w := by decide +kernel
  have ht : ∀ t, Free [' ', ':', '\r', '\n'] (hostTypeStr t) := by
    intro t
    cases t <;> decide +kernel
  exact forall_candidateWords (fun _ => plain_dec) (fun _ => plain_decInt) hfix ht hn ha fun _ => hr

theorem PlainCandidate.words_take (hc : PlainCandidate c) : ∀ x ∈ candidateWords c, Takes x.2 .candidate := by
  have hq := hc.takes
  simp only [List.mem_cons, List.not_mem_nil, or_false, forall_eq_or_imp, forall_eq] at hq
  obtain ⟨-, hn, ha⟩ := hq
  have hfix : ∀ w ∈ ["typ".toList, "raddr".toList, "rport".toList, "generation".toList, "0".toList],
      '=' ∉ w := by decide +kernel
  have ht : ∀ t, '=' ∉ hostTypeStr t := by
    intro t
    cases t <;> decide +kernel
  exact forall_candidateWords (fun _ => spares_dec) (fun _ => spares_decInt)
    (fun w hw => spares_of_not_mem (hfix w hw)) (fun t => spares_of_not_mem (ht t)) hn ha hc.takesRelated

theorem reads_candidate (hc : PlainCandidate c) : Reads (stringifyCandidate c) .candidate some := by
  have hh := head_candidate
  have hf : Plain c.foundation := hc.plain _ List.mem_cons_self
  have hfree : ∀ w : Str, Plain w → Free [' ', ':'] w := fun w hw => Free.mono hw (by decide)
  have hsplit := splitOneOf_candidate (hfree _ hf) fun x hx => hfree _ (hc.words_plain x hx)
  have hlen : 9 ≤ ("a=candidate:".toList.dropLast :: c.foundation :: (candidateWords c).map Prod.snd).length := by
    rw [List.length_cons, List.length_cons, List.length_map, length_candidateWords]
    split_ifs <;> omega
  have hrelay : c.hostType = .srflx ∨ c.hostType = .relay →
      13 ≤ ("a=candidate:".toList.dropLast :: c.foundation :: (candidateWords c).map Prod.snd).length := by
    intro h
    rw [List.length_cons, List.length_cons, List.length_map, length_candidateWords, if_pos h]
    omega
  have hne : Text.joined c.foundation (candidateWords c) ≠ [] := Text.joined_ne_nil
  rw [stringifyCandidate_eq] at hsplit ⊢
  apply hh.reads hne
    (joined_no_break _ hf.no_break fun x hx => (hc.words_plain x hx).no_break)
    (spares_joined (fun x hx => Or.inl (candidateWords_blank x hx)) (hc.takes _ List.mem_cons_self) hc.words_take)
  · have htype : hostTypeOf (hostTypeStr c.hostType) = .srflx ∨ hostTypeOf (hostTypeStr c.hostType) = .relay →
        13 ≤ ("a=candidate:".toList.dropLast :: c.foundation :: (candidateWords c).map Prod.snd).length := by
      rw [hostTypeOf_hostTypeStr]
      exact hrelay
    simp only [Branch.run, candidateBranch]
    apply simulates_onFound
    intro _ st
    obtain ⟨r, cs, hr⟩ := processCandidate_ok hlen htype st.mtype st.info
    simp only [hsplit, hr]
    rfl
  · intro x hx
    rw [candidateWords_blank x hx]
    decide

end Candidates

section Fixed
variable {line w : Str} {b : Branch} {f : View → Option View}

def fixedLines : List Str :=
  ["v=0".toList, "o=- 0 0 IN IP4 127.0.0.1".toList, "s=LicodeMCU".toList, "t=0 0".toList,
   "c=IN IP4 0.0.0.0".toList, "a=rtcp:1 IN IP4 0.0.0.0".toList, "a=rtcp-mux".toList, "a=maxptime:60".toList]

theorem reads_fixed (h : line ∈ fixedLines) : Reads line .rtcpMux some := by
  have hall : ∀ l ∈ fixedLines, '\n' ∉ l ∧ ¬ Marker.ssrctag <:+: l ∧ Takes l .rtcpMux := by decide +kernel
  obtain ⟨hn, hs, ht⟩ := hall line h
  have hsource : SsrcReadable line := fun hf => absurd hf hs
  exact ⟨hn, hsource, ht, simulates_processLine hsource ht (simulates_onFound fun _ _ => rfl)⟩

theorem reads_direction (d : StreamDirection) : Reads (directionLine d) .direction fun v => some (v.setDirection d) := by
  have hall : ∀ d : StreamDirection, '\n' ∉ directionLine d ∧ ¬ Marker.ssrctag <:+: directionLine d ∧
      Takes (directionLine d) .direction := by
    intro d
    cases d <;> decide +kernel
  obtain ⟨hn, hs, ht⟩ := hall d
  have hsource : SsrcReadable (directionLine d) := fun hf => absurd hf hs
  refine ⟨hn, hsource, ht, simulates_processLine hsource ht fun st => ?_⟩
  have hview : view (setDirection d st) = (view st).setDirection d := apply_ite view _ _ _
  have hbranch : directionBranch (directionLine d) st = .ok (setDirection d st) := by
    cases d with
    | sendRecv => exact (if_neg (by decide)).trans ((if_neg (by decide)).trans (if_pos (by decide)))
    | sendOnly => exact (if_neg (by decide)).trans (if_pos (by decide))
    | recvOnly => exact if_pos (by decide)
  rw [Branch.run, hbranch, ← hview]
  rfl

private theorem mediaLine_eq (start : Str) (profile : Profile) (payloads : List RtpMap) (codecs : ℤ) :
    ∃ w, mediaLine start profile payloads codecs = start ++ ' ' :: w ∧ Free ['=', '\n'] w := by
  have hnumbers : Free ['=', '\n'] ((payloads.zipIdx 1).flatMap fun x =>
      dec x.1.payloadType.toNat ++ if (x.2 : ℤ) < codecs then " ".toList else []) := by
    intro c hc
    obtain ⟨x, -, hx⟩ := List.mem_flatMap.mp hc
    rcases List.mem_append.mp hx with hx | hx
    · exact free_dec (by decide) c hx
    · split_ifs at hx
      · have hblank : Free ['=', '\n'] " ".toList := by decide
        exact hblank c hx
      · cases hx
  unfold mediaLine
  split_ifs
  · refine ⟨"UDP/TLS/RTP/SAVPF ".toList ++ _, ?_, Free.append (by decide) hnumbers⟩
    simp only [String.reduceToList, List.append_assoc, List.cons_append, List.nil_append]
  · refine ⟨"RTP/AVPF ".toList ++ _, ?_, Free.append (by decide) hnumbers⟩
    simp only [String.reduceToList, List.append_assoc, List.cons_append, List.nil_append]

theorem reads_media {start marker : Str} {act : Parser → Except Fault Parser} (hs : ¬ Marker.ssrctag <:+: start)
    (hn : '\n' ∉ start) (ht : Takes start b) (hb : ∀ line, b.run line = onFound marker line act)
    (hm : marker <:+: start) (hact : Simulates view act f) (profile : Profile) (payloads : List RtpMap) (codecs : ℤ) :
    Reads (mediaLine start profile payloads codecs) b f := by
  obtain ⟨w, hline, hw⟩ := mediaLine_eq start profile payloads codecs
  have hequal : '=' ∉ w := fun h => hw _ h (by decide)
  have hssrc : SsrcReadable (start ++ ' ' :: w) := by
    intro hf
    rcases (Text.infix_append_cons (show ' ' ∉ Marker.ssrctag.dropLast by decide)).mp hf with h | h
    · exact absurd (Text.infix_concat_of_not_mem (by decide) h) hs
    · exact absurd (h.subset (show '=' ∈ Marker.ssrctag by decide)) hequal
  have htakes := ht.append_blank (spares_of_not_mem hequal)
  rw [hline]
  refine ⟨by simpa [hn] using fun h => hw _ h (by decide), hssrc, htakes, simulates_processLine hssrc htakes ?_⟩
  rw [hb]
  exact simulates_found (hm.trans List.infix_append_left) hact

theorem reads_audioMedia (profile : Profile) (payloads : List RtpMap) (codecs : ℤ) :
    Reads (mediaLine "m=audio 1".toList profile payloads codecs) .audio fun v => some (v.setMedia .audioType) :=
  reads_media (by decide) (by decide) (b := .audio) (by decide +kernel) (fun _ => rfl) (by decide) (fun _ => rfl)
    profile payloads codecs

theorem reads_videoMedia (profile : Profile) (payloads : List RtpMap) (codecs : ℤ) :
    Reads (mediaLine "m=video 1".toList profile payloads codecs) .video fun v => some (v.setMedia .videoType) :=
  reads_media (by decide) (by decide) (b := .video) (by decide +kernel) (fun _ => rfl) (by decide) (fun _ => rfl)
    profile payloads codecs

theorem reads_msid (hw : Free ['=', '\n'] w) : Reads ("a=msid-semantic: WMS ".toList ++ w) .rtcpMux some := by
  have hline : "a=msid-semantic: WMS ".toList ++ w = "a=msid-semantic:".toList ++ (" WMS ".toList ++ w) := by
    simp only [String.reduceToList, List.cons_append, List.nil_append]
  have hfree : Free ['=', '\n'] (" WMS ".toList ++ w) := Free.append (by decide) hw
  rw [hline]
  exact head_msid.reads (by simp) (fun h => hfree _ h (by decide)) (spares_of_not_mem fun h => hfree _ h (by decide))
    (simulates_onFound fun _ _ => rfl)

private theorem reads_ssrc (hw : Free ['=', '\n'] w) (n : ℕ) : Reads ("a=ssrc:".toList ++ dec n ++ w) .ssrc some := by
  have hh := head_ssrc
  have hne : dec n ++ w ≠ [] := by simp [dec_ne_nil]
  have hfree : Free ['=', '\n'] (dec n ++ w) := Free.append (free_dec (by decide)) hw
  rw [List.append_assoc]
  exact hh.reads hne (fun h => hfree _ h (by decide)) (spares_of_not_mem fun h => hfree _ h (by decide))
    (simulates_ssrcBranch (hh.ssrcReadable hne))

theorem reads_ssrcLines {msidtemp label : Str} (hw : Free ['=', '\n'] msidtemp) (hl : Free ['=', '\n'] label)
    (ssrc : UInt32) (h : line ∈ ssrcLines ssrc msidtemp label) : Reads line .ssrc some := by
  unfold ssrcLines at h
  simp only [List.append_assoc, List.mem_cons, List.not_mem_nil, or_false] at h
  have hblank : Free ['=', '\n'] (' ' :: label) := Free.append (w := [' ']) (by decide) hl
  rcases h with rfl | rfl | rfl | rfl
  · simpa only [List.append_assoc] using reads_ssrc (w := " cname:o/i14u9pJrxRKAsu".toList) (by decide +kernel) _
  · simpa only [List.append_assoc] using
      reads_ssrc (Free.append (w := " msid:".toList) (by decide) (hw.append hblank)) _
  · simpa only [List.append_assoc] using reads_ssrc (Free.append (w := " mslabel:".toList) (by decide) hw) _
  · simpa only [List.append_assoc] using
      reads_ssrc (Free.append (w := " label:".toList) (by decide) (hw.append hl)) _

end Fixed

end Sfup.Sdp.Parser
