import Sfup.Sdp.SdpInfo
import Sfup.Lib.Transition
import Mathlib.Data.List.Perm.Basic
import Mathlib.Algebra.Group.Nat.Defs

/-! `getCandidate` of `NiceConnection.cpp`, which announces the candidates that are new. libnice has a list for each
component, which grows at its end; the counter of what was announced is one for all components. -/
namespace Sfup.Core
open Sfup.Sdp Sfup.Transition

inductive NiceCandidateType where
  | host
  | serverReflexive
  | peerReflexive
  | relayed
deriving DecidableEq, Repr

/-- What is read of a candidate of libnice; the addresses as text. -/
structure NiceCandidate where
  type : NiceCandidateType
  addr : Str
  port : ℕ
  baseAddr : Str
  basePort : ℕ
  priority : UInt32
  componentId : UInt32
  foundation : Str

def NiceCandidate.ipv4 (cand : NiceCandidate) : Bool := !cand.addr.contains ':'

/-- The fields of a `NiceConnection` that `getCandidate` uses. -/
structure LocalCandidates where
  candsDelivered : ℕ := 0
  mediaType : MediaType
  ufrag : Str
  upass : Str
  listener : Bool

namespace LocalCandidates

def candInfo (c : LocalCandidates) (cand : NiceCandidate) : CandidateInfo :=
  let info : CandidateInfo :=
    { componentId := cand.componentId, foundation := cand.foundation, priority := cand.priority
      hostAddress := cand.addr, hostPort := cand.port, mediaType := c.mediaType, netProtocol := "udp".toList
      username := c.ufrag, password := c.upass }
  match cand.type with
  | .host => { info with hostType := .host }
  | .serverReflexive => { info with hostType := .srflx, rAddress := cand.baseAddr, rPort := cand.basePort }
  | .peerReflexive => { info with hostType := .prflx }
  | .relayed => { info with hostType := .relay, rAddress := cand.baseAddr, rPort := cand.basePort }

/-- Where a walk over a list of this length begins. The counter and the length of a list are 32-bit numbers. -/
def start (c : LocalCandidates) (length : ℕ) : ℕ := if c.candsDelivered ≤ length % 2 ^ 32 then c.candsDelivered else 0

def getCandidate (lcands : List NiceCandidate) (c : LocalCandidates) : List CandidateInfo × LocalCandidates :=
  let walked := lcands.drop (c.start lcands.length)
  (if c.listener then (walked.filter (·.ipv4)).map c.candInfo else [],
    { c with candsDelivered := (c.candsDelivered + walked.length) % 2 ^ 32 })

variable {c : LocalCandidates} {lcands : List NiceCandidate}

@[simp] theorem candInfo_getCandidate : (c.getCandidate lcands).2.candInfo = c.candInfo := rfl

theorem getCandidate_infos (h : c.listener = true) : (c.getCandidate lcands).1 =
    ((lcands.drop (c.start lcands.length)).filter (·.ipv4)).map c.candInfo := if_pos h

end LocalCandidates

/-! ## Gathering -/

/-- A connection beside the lists of libnice. For each component there is kept what was announced in its callbacks, and
how long its list was in the last one. -/
structure Gathering where
  conn : LocalCandidates
  lists : ℕ → List NiceCandidate := fun _ => []
  announced : ℕ → List CandidateInfo := fun _ => []
  seen : ℕ → ℕ := fun _ => 0

namespace Gathering

/-- A candidate is added, or the callback for a component comes. -/
inductive Event where
  | added (comp : ℕ) (cand : NiceCandidate)
  | newCandidate (comp : ℕ)

def step (s : Gathering) : Event → Option (List CandidateInfo × Gathering)
  | .added comp cand => some ([], { s with lists := Function.update s.lists comp (s.lists comp ++ [cand]) })
  | .newCandidate comp =>
    let r := s.conn.getCandidate (s.lists comp)
    some (r.1, { s with
      conn := r.2
      announced := Function.update s.announced comp (s.announced comp ++ r.1)
      seen := Function.update s.seen comp (s.lists comp).length })

/-- In each component the IPv4 candidates that a callback followed were announced, each once, and nothing else was. -/
def Once (s : Gathering) : Prop :=
  ∀ comp, (s.announced comp).Perm ((((s.lists comp).take (s.seen comp)).filter (·.ipv4)).map s.conn.candInfo)

/-- The walk takes in the IPv4 candidates that were not there in the last callback of the component, and no others. -/
def FromSeen (s : Gathering) : Event → Prop
  | .added _ _ => True
  | .newCandidate comp => ∀ i cand, (s.lists comp)[i]? = some cand → cand.ipv4 = true →
    (s.conn.start (s.lists comp).length ≤ i ↔ s.seen comp ≤ i)

/-! ## One walk -/

section Walk
variable {α : Type*} {p : α → Bool} {l : List α} {k n : ℕ}

private theorem filter_segment_eq_nil_iff (h : k ≤ n) : ((l.drop k).take (n - k)).filter p = [] ↔
    ∀ i x, l[i]? = some x → p x = true → k ≤ i → n ≤ i := by
  simp only [List.filter_eq_nil_iff, List.mem_iff_getElem?, List.getElem?_take, List.getElem?_drop]
  constructor
  · intro hnone i x hx hp hk
    by_contra hn
    refine hnone x ⟨i - k, ?_⟩ hp
    rw [if_pos (by omega), Nat.add_sub_cancel' hk, hx]
  · rintro hall x ⟨j, hj⟩ hp
    split_ifs at hj with hlt
    have hn := hall (k + j) x hj hp (by omega)
    omega

theorem filter_drop_of_le (h : k ≤ n) :
    (l.drop k).filter p = ((l.drop k).take (n - k)).filter p ++ (l.drop n).filter p := by
  have hdrop : (l.drop k).drop (n - k) = l.drop n := by rw [List.drop_drop, Nat.add_sub_cancel' h]
  rw [← hdrop, ← List.filter_append, List.take_append_drop]

/-- Two ends of a list have the same number of elements with a property exactly if none lies between. -/
theorem length_filter_drop_eq_iff : ((l.drop k).filter p).length = ((l.drop n).filter p).length ↔
    ∀ i x, l[i]? = some x → p x = true → (k ≤ i ↔ n ≤ i) := by
  have hle : ∀ {k n}, k ≤ n → (((l.drop k).filter p).length = ((l.drop n).filter p).length ↔
      ∀ i x, l[i]? = some x → p x = true → (k ≤ i ↔ n ≤ i)) := by
    intro k n h
    rw [filter_drop_of_le h, List.length_append, Nat.add_eq_right, List.length_eq_zero_iff, filter_segment_eq_nil_iff h]
    refine forall_congr' fun i => forall_congr' fun x => forall_congr' fun _ => forall_congr' fun _ => ?_
    exact ⟨fun hi => ⟨hi, h.trans⟩, Iff.mp⟩
  rcases Nat.le_total k n with h | h
  · exact hle h
  · rw [eq_comm, hle h]
    refine forall_congr' fun i => forall_congr' fun x => forall_congr' fun _ => forall_congr' fun _ => iff_comm

theorem filter_drop_eq_of_length (h : ((l.drop k).filter p).length = ((l.drop n).filter p).length) :
    (l.drop k).filter p = (l.drop n).filter p := by
  have hle : ∀ {k n}, k ≤ n → ((l.drop k).filter p).length = ((l.drop n).filter p).length →
      (l.drop k).filter p = (l.drop n).filter p := by
    intro k n h hlen
    rw [filter_drop_of_le h, List.length_append, Nat.add_eq_right, List.length_eq_zero_iff] at hlen
    rw [filter_drop_of_le h, hlen, List.nil_append]
  rcases Nat.le_total k n with hkn | hkn
  · exact hle hkn h
  · exact (hle hkn h.symm).symm

end Walk

/-! ## Runs -/

/-- There is a listener, and no list got shorter. -/
structure Growing (s : Gathering) : Prop where
  listener : s.conn.listener = true
  seen : ∀ comp, s.seen comp ≤ (s.lists comp).length

section Runs
variable {s s' : Gathering} {ev : Event} {infos : List CandidateInfo}

theorem growing_step (h : Growing s) (hs : step s ev = some (infos, s')) : Growing s' := by
  cases ev with
  | added comp cand =>
    cases hs
    refine ⟨h.listener, fun c => ?_⟩
    by_cases hc : c = comp
    · subst hc
      simpa using (h.seen c).trans (Nat.le_succ _)
    · simpa [Function.update_of_ne hc] using h.seen c
  | newCandidate comp =>
    cases hs
    refine ⟨h.listener, fun c => ?_⟩
    by_cases hc : c = comp
    · subst hc
      simp
    · simpa [Function.update_of_ne hc] using h.seen c

theorem once_added {comp : ℕ} {cand : NiceCandidate} (hg : Growing s) (h : Once s)
    (hs : step s (.added comp cand) = some (infos, s')) : Once s' := by
  cases hs
  intro c
  by_cases hc : c = comp
  · subst hc
    simpa [List.take_append_of_le_length (hg.seen c)] using h c
  · simpa [Function.update_of_ne hc] using h c

/-- What a walk announces completes the list exactly if it begins where the last one of the component ended. -/
theorem perm_walk_iff {comp : ℕ} (h : Once s) :
    (s.announced comp ++ (((s.lists comp).drop (s.conn.start (s.lists comp).length)).filter (·.ipv4)).map
      s.conn.candInfo).Perm (((s.lists comp).filter (·.ipv4)).map s.conn.candInfo) ↔
        FromSeen s (.newCandidate comp) := by
  have hsplit : (s.announced comp ++ (((s.lists comp).drop (s.seen comp)).filter (·.ipv4)).map s.conn.candInfo).Perm
      (((s.lists comp).filter (·.ipv4)).map s.conn.candInfo) := by
    refine ((h comp).append_right _).trans (List.Perm.of_eq ?_)
    rw [← List.map_append, ← List.filter_append, List.take_append_drop]
  constructor
  · intro hperm
    have hrest := (List.perm_append_left_iff _).mp (hperm.trans hsplit.symm)
    have hlen := hrest.length_eq
    rw [List.length_map, List.length_map] at hlen
    exact length_filter_drop_eq_iff.mp hlen
  · intro hfrom
    rw [filter_drop_eq_of_length (length_filter_drop_eq_iff.mpr hfrom)]
    exact hsplit

theorem once_newCandidate_iff {comp : ℕ} (hg : Growing s) (h : Once s)
    (hs : step s (.newCandidate comp) = some (infos, s')) : Once s' ↔ FromSeen s (.newCandidate comp) := by
  rw [← perm_walk_iff h]
  obtain ⟨rfl, rfl⟩ := Prod.mk.inj (Option.some.inj hs)
  constructor
  · intro honce
    simpa [LocalCandidates.getCandidate_infos hg.listener] using honce comp
  · intro hperm c
    by_cases hc : c = comp
    · subst hc
      simpa [LocalCandidates.getCandidate_infos hg.listener] using hperm
    · simpa [Function.update_of_ne hc] using h c

theorem always_iff_of_growing (hg : Growing s) (h : Once s) (evs : List Event) :
    Always step Once s evs ↔ Along step FromSeen s evs := by
  refine always_iff_along (I := Growing) ?_ ?_ (fun s ev infos s' => growing_step) hg h evs
  · intro s ev infos s' hg h hs
    cases ev with
    | added comp cand => exact iff_of_true (once_added hg h hs) trivial
    | newCandidate comp => exact once_newCandidate_iff hg h hs
  · intro s ev hs
    cases ev <;> cases hs

theorem growing_new {mediaType : MediaType} {ufrag upass : Str} :
    Growing { conn := { mediaType, ufrag, upass, listener := true } } := ⟨rfl, fun _ => Nat.le_refl 0⟩

theorem once_new {conn : LocalCandidates} : Once { conn } := fun _ => List.Perm.nil

/-- Each candidate is announced once after its callback, in every state of a run, exactly if all walks of the run begin
where the last one of their component ended, up to IPv6 candidates. -/
theorem always_once_iff (mediaType : MediaType) (ufrag upass : Str) (evs : List Event) :
    Always step Once { conn := { mediaType, ufrag, upass, listener := true } } evs ↔
      Along step FromSeen { conn := { mediaType, ufrag, upass, listener := true } } evs :=
  always_iff_of_growing growing_new once_new evs

def Event.comp : Event → ℕ
  | .added comp _ => comp
  | .newCandidate comp => comp

/-- With one component the counter is what its last callback saw. -/
theorem along_fromSeen_single {comp : ℕ} {evs : List Event} (hone : ∀ ev ∈ evs, ev.comp = comp)
    (hcount : s.conn.candsDelivered = s.seen comp) (hseen : s.seen comp ≤ (s.lists comp).length)
    (hfew : (s.lists comp).length + evs.length < 2 ^ 32) : Along step FromSeen s evs := by
  induction evs generalizing s with
  | nil => trivial
  | cons ev evs ih =>
    obtain ⟨rfl, hrest⟩ := List.forall_mem_cons.mp hone
    rw [List.length_cons] at hfew
    cases ev with
    | added comp cand =>
      refine Along.cons trivial rfl (ih hrest hcount ?_ ?_)
      · simpa [Event.comp] using Nat.le_succ_of_le hseen
      · simp only [Event.comp, Function.update_self, List.length_append, List.length_singleton] at hfew ⊢
        omega
    | newCandidate comp =>
      simp only [Event.comp] at hcount hseen hfew
      have hmod : (s.lists comp).length % 2 ^ 32 = (s.lists comp).length := Nat.mod_eq_of_lt (by omega)
      have hstart : s.conn.start (s.lists comp).length = s.seen comp := by
        rw [LocalCandidates.start, hmod, hcount, if_pos hseen]
      refine Along.cons (fun i cand _ _ => by rw [hstart]) rfl (ih hrest ?_ ?_ ?_)
      · simp only [Event.comp, Function.update_self, LocalCandidates.getCandidate, hstart, List.length_drop, hcount]
        rw [Nat.add_sub_cancel' hseen, hmod]
      · simp [Event.comp]
      · simp only [Event.comp]
        omega

/-- With rtcp-mux there is one component, and each candidate is announced once. -/
theorem always_once_single (mediaType : MediaType) (ufrag upass : Str) {comp : ℕ} {evs : List Event}
    (hone : ∀ ev ∈ evs, ev.comp = comp) (hfew : evs.length < 2 ^ 32) :
    Always step Once { conn := { mediaType, ufrag, upass, listener := true } } evs := by
  rw [always_iff_of_growing growing_new once_new]
  exact along_fromSeen_single hone rfl (Nat.le_refl 0) (by simpa using hfew)

def hostCandidate (comp : UInt32) : NiceCandidate :=
  { type := .host, addr := "10.0.0.1".toList, port := 5000, baseAddr := "10.0.0.1".toList, basePort := 5000
    priority := 1, componentId := comp, foundation := "1".toList }

/-- The first component has one candidate, and then the second one; it is not announced. -/
theorem not_once_two : ¬ Always step Once
    { conn := { mediaType := .videoType, ufrag := [], upass := [], listener := true } }
    [.added 1 (hostCandidate 1), .newCandidate 1, .added 2 (hostCandidate 2), .newCandidate 2] := by
  intro h
  have honce := (((h.2 _ _ rfl).2 _ _ rfl).2 _ _ rfl).2 _ _ rfl
  have hlen := (honce 2).length_eq
  revert hlen
  decide +kernel

end Runs
end Gathering
end Sfup.Core
