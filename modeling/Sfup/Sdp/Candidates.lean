import Sfup.Sdp.Codecs

/-! A candidate that `stringifyCandidate` writes is read back. -/
namespace Sfup.Sdp.Parser
open SdpInfo

/-- The values of an `int`. -/
def IsInt (z : ℤ) : Prop := -2 ^ 31 ≤ z ∧ z < 2 ^ 31

instance {z : ℤ} : Decidable (IsInt z) := inferInstanceAs (Decidable (_ ∧ _))

theorem toInt_strtoul_decInt {z : ℤ} (h : IsInt z) : toInt (strtoul (decInt z)) = z := by
  obtain ⟨n, rfl⟩ : ∃ n, toInt n = z := by
    refine ⟨UInt32.ofNat (z % 2 ^ 32).toNat, ?_⟩
    obtain ⟨hlo, hhi⟩ := h
    rw [toInt_eq, UInt32.toNat_ofNat']
    split_ifs <;> omega
  rw [strtoul_decInt]

theorem strtoul_toNat (n : UInt32) : strtoul (dec n.toNat) = n := by
  rw [strtoul_dec n.toNat_lt, UInt32.ofNat_toNat]

/-- A candidate over UDP whose words hold no delimiter. -/
structure Writable (c : CandidateInfo) : Prop where
  netProtocol : c.netProtocol = "udp".toList
  words : ∀ w ∈ [c.foundation, c.hostAddress, c.rAddress], Free [' ', ':'] w
  hostPort : IsInt c.hostPort
  rPort : IsInt c.rPort

/-- What a candidate line says of a candidate. -/
structure SameCandidate (c d : CandidateInfo) : Prop where
  foundation : d.foundation = c.foundation
  componentId : d.componentId = c.componentId
  netProtocol : d.netProtocol = c.netProtocol
  priority : d.priority = c.priority
  hostAddress : d.hostAddress = c.hostAddress
  hostPort : d.hostPort = c.hostPort
  hostType : d.hostType = c.hostType
  mediaType : d.mediaType = c.mediaType
  related : c.hostType = .srflx ∨ c.hostType = .relay → d.rAddress = c.rAddress ∧ d.rPort = c.rPort

section RoundTrip
variable {c : CandidateInfo}

theorem Writable.words_free (h : Writable c) : ∀ x ∈ candidateWords c, Free [' ', ':'] x.2 := by
  have hw := h.words
  simp only [List.mem_cons, List.not_mem_nil, or_false, forall_eq_or_imp, forall_eq] at hw
  obtain ⟨-, ha, hr⟩ := hw
  have hfix : ∀ w ∈ ["typ".toList, "raddr".toList, "rport".toList, "generation".toList, "0".toList],
      Free [' ', ':'] w := by decide +kernel
  have ht : ∀ t, Free [' ', ':'] (hostTypeStr t) := by
    intro t
    cases t <;> decide +kernel
  have hn : Free [' ', ':'] c.netProtocol := by
    rw [h.netProtocol]
    decide
  exact forall_candidateWords (fun _ => free_dec (by decide)) (fun _ => free_decInt (by decide) (by decide)) hfix ht hn
    ha fun _ => hr

/-- The line is split into its words, whose positions are those that `processCandidate` reads. -/
theorem processCandidate_stringifyCandidate (h : Writable c) (info : SdpInfo) :
    ∃ d, processCandidate (splitOneOf (stringifyCandidate c) [' ', ':'] 0) c.mediaType info =
      .ok (true, { info with candidateVector := info.candidateVector ++ [d] }) ∧ SameCandidate c d := by
  have hf : Free [' ', ':'] c.foundation := h.words _ List.mem_cons_self
  have hproto : ¬ (c.netProtocol ≠ "UDP".toList ∧ c.netProtocol ≠ "udp".toList) := fun hn => hn.2 h.netProtocol
  have hport := toInt_strtoul_decInt h.hostPort
  have hrport := toInt_strtoul_decInt h.rPort
  rw [splitOneOf_candidate hf h.words_free]
  by_cases hrelated : c.hostType = .srflx ∨ c.hostType = .relay
  · simp only [candidateWords, if_pos hrelated, List.map_cons, List.map_nil, List.cons_append,
      List.nil_append, processCandidate, part, List.getElem?_cons_succ, List.getElem?_cons_zero, hostTypeOf_hostTypeStr,
      strtoul_toNat, hport, hrport, bind, Except.bind, if_neg hproto, ne_eq, not_true_eq_false, if_false]
    exact ⟨_, rfl, ⟨rfl, rfl, rfl, rfl, rfl, rfl, rfl, rfl, fun _ => ⟨rfl, rfl⟩⟩⟩
  · simp only [candidateWords, if_neg hrelated, List.map_cons, List.map_nil, List.cons_append,
      List.nil_append, processCandidate, part, List.getElem?_cons_succ, List.getElem?_cons_zero, hostTypeOf_hostTypeStr,
      strtoul_toNat, hport, bind, Except.bind, if_neg hproto, ne_eq, not_true_eq_false, if_false]
    exact ⟨_, rfl, ⟨rfl, rfl, rfl, rfl, rfl, rfl, rfl, rfl, fun hr => absurd hr hrelated⟩⟩

/-- A relayed candidate with an address of version 4 and an empty foundation. -/
def relayExample : CandidateInfo :=
  { componentId := 1, foundation := [], netProtocol := "udp".toList, priority := 4294967295
    hostAddress := "10.0.0.1".toList, hostPort := 49462, rAddress := "138.4.0.2".toList, rPort := 53531
    hostType := .relay, mediaType := .videoType }

theorem processCandidate_relayExample : Writable relayExample ∧
    ∃ d, processCandidate (splitOneOf (stringifyCandidate relayExample) [' ', ':'] 0) .videoType
      (new .sendRecv .sendRecv) = .ok (true, { new .sendRecv .sendRecv with candidateVector := [d] }) ∧
      SameCandidate relayExample d := by
  have hw : Writable relayExample := ⟨rfl, by decide +kernel, by decide, by decide⟩
  exact ⟨hw, processCandidate_stringifyCandidate hw _⟩

end RoundTrip
end Sfup.Sdp.Parser
