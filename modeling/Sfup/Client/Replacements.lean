import Sfup.Common.Replace

/-! The other helpers that replace all occurrences: `ReplaceAll` of `Client/ConnectionClient.cpp`, `replace_all` and
`replace_all_distinct` of `Client/func.cpp`. -/
namespace Sfup.Client
open Sfup.Common Sfup.Occurrences

/-- The loop of `ReplaceAll` and `replace_all`, which searches from the start each time. -/
def replaceAllLoop (oldValue newValue : List UInt8) : ℕ → List UInt8 → Option (List UInt8)
  | 0, _ => none
  | fuel + 1, str =>
    match find str oldValue 0 with
    | some pos => replaceAllLoop oldValue newValue fuel (replace str pos oldValue.length newValue)
    | none => some str

def ConnectionClient.replaceAll (str oldValue newValue : List UInt8) (fuel : ℕ) : Option (List UInt8) :=
  replaceAllLoop oldValue newValue fuel str

namespace Func

def replaceAll (str oldValue newValue : List UInt8) (fuel : ℕ) : Option (List UInt8) :=
  replaceAllLoop oldValue newValue fuel str

/-- The loop of `replace_all_distinct`. The position that it goes on from is one in the string, and so never `npos`. -/
def replaceAllDistinctLoop (oldValue newValue : List UInt8) : ℕ → List UInt8 → ℕ → Option (List UInt8)
  | 0, _, _ => none
  | fuel + 1, str, pos =>
    match find str oldValue pos with
    | some pos =>
      replaceAllDistinctLoop oldValue newValue fuel (replace str pos oldValue.length newValue) (pos + newValue.length)
    | none => some str

def replaceAllDistinct (str oldValue newValue : List UInt8) (fuel : ℕ) : Option (List UInt8) :=
  replaceAllDistinctLoop oldValue newValue fuel str 0

end Func

/-- All of them return, and two with each occurrence that a scan finds replaced once. -/
structure Replaces {n : List UInt8} (hn : n ≠ []) (w r : List UInt8) : Prop where
  replaceString : Gives (replaceString w n r) (scan hn r w)
  connectionClient : Returns (ConnectionClient.replaceAll w n r)
  replaceAll : Returns (Func.replaceAll w n r)
  replaceAllDistinct : Gives (Func.replaceAllDistinct w n r) (scan hn r w)

def Stops (n r : List UInt8) : Prop :=
  (¬ n <:+: r ∧ (¬ RightOverlap n r ∨ ¬ LeftOverlap n r)) ∨ (∃ c, r.count c < n.count c) ∨
    (r.length = n.length ∧ r ≠ n)

/-- What `ReplaceString` and `ReplaceAll` need: an occurrence does not begin in a replacement, nor in front of it. -/
def Separate {n : List UInt8} (hn : n ≠ []) (w r : List UInt8) : Prop :=
  (∀ q ∈ scanSplits hn r [] w, Inert n r q.2) ∧ (Stops n r ∨ ∀ q ∈ scanSplits hn r [] w, Inert n q.1 q.2)

variable {n r p w : List UInt8} {i fuel : ℕ}

theorem Stops.shrinks (hn : n ≠ []) (h : Stops n r) : Shrinks n r := by
  rcases h with ⟨hnr, hright | hleft⟩ | ⟨c, hc⟩ | ⟨hlen, hne⟩
  · exact shrinks_of_not_rightOverlap hn hnr hright
  · exact shrinks_of_not_leftOverlap hn hnr hleft
  · exact shrinks_of_count hc
  · exact shrinks_of_length_eq (by decide : 1 < 256) UInt8.toNat_lt (fun _ _ => UInt8.toNat.inj) hlen hne

/-! ## `ReplaceAll` -/

theorem replaceAllLoop_of_some (h : first n w = some i) :
    replaceAllLoop n r (fuel + 1) w = replaceAllLoop n r fuel (w.take i ++ (r ++ w.drop (i + n.length))) := by
  rw [replaceAllLoop, find_zero, h]
  rfl

theorem replaceAllLoop_of_none (h : first n w = none) : replaceAllLoop n r (fuel + 1) w = some w := by
  rw [replaceAllLoop, find_zero, h]

theorem replaceAllLoop_returns (h : Shrinks n r) (w : List UInt8) : Returns fun fuel => replaceAllLoop n r fuel w := by
  obtain ⟨μ, hμ⟩ := h
  induction hlen : μ w using Nat.strong_induction_on generalizing w with
  | _ k ih =>
    subst hlen
    cases hw : first n w with
    | none => exact ⟨w, 1, replaceAllLoop_of_none hw⟩
    | some i =>
      have hless := hμ (w.take i) (w.drop (i + n.length))
      rw [append_of_first hw] at hless
      obtain ⟨out, fuel, hout⟩ := ih _ hless _ rfl
      exact ⟨out, fuel + 1, (replaceAllLoop_of_some hw).trans hout⟩

/-- While no occurrence begins in the text in front, the search from the start finds what a scan finds. -/
theorem replaceAllLoop_eq_scan (hn : n ≠ []) (hp : Inert n p w)
    (h : ∀ q ∈ scanSplits hn r p w, Inert n q.1 q.2) :
    ∃ fuel, replaceAllLoop n r fuel (p ++ w) = some (p ++ scan hn r w) := by
  induction p, w using scanSplits.induct hn r with
  | case1 p w hw =>
    have hfirst := first_append_of_inert hp
    rw [hw, Option.map_none] at hfirst
    exact ⟨1, by rw [replaceAllLoop_of_none hfirst, scan_of_none hw]⟩
  | case2 p w i hw ih =>
    have hfirst := first_append_of_inert hp
    rw [hw, Option.map_some] at hfirst
    rw [scanSplits_of_some hw, List.forall_mem_cons] at h
    obtain ⟨hinert, hrest⟩ := h
    obtain ⟨fuel, hfuel⟩ := ih hinert hrest
    refine ⟨fuel + 1, ?_⟩
    rw [replaceAllLoop_of_some hfirst, scan_of_some hw, List.take_length_add_append, Nat.add_assoc,
      List.drop_length_add_append]
    simpa only [List.append_assoc] using hfuel

private theorem replaceAllLoop_eq_none (hnr : n <:+: r) (fuel : ℕ) (hw : n <:+: w) :
    replaceAllLoop n r fuel w = none := by
  induction fuel generalizing w with
  | zero => rfl
  | succ fuel ih =>
    obtain ⟨i, hi⟩ := exists_first hw
    rw [replaceAllLoop_of_some hi]
    exact ih ((hnr.trans (List.prefix_append r _).isInfix).trans (List.suffix_append _ _).isInfix)

/-- A replacement with the needle in it is found again and again. -/
theorem replaceAllLoop_returns_iff (hnr : n <:+: r) :
    (Returns fun fuel => replaceAllLoop n r fuel w) ↔ ¬ n <:+: w := by
  constructor
  · rintro ⟨out, fuel, hout⟩ hw
    have hnone := replaceAllLoop_eq_none hnr fuel hw
    cases hnone.symm.trans hout
  · intro hw
    exact ⟨w, 1, replaceAllLoop_of_none (first_eq_none_iff.mpr hw)⟩

/-! ## `replace_all_distinct` -/

/-- The search goes on behind the replacement, and finds what a scan finds. -/
theorem Func.replaceAllDistinctLoop_eq_scan (hn : n ≠ []) (p w : List UInt8) :
    ∃ fuel, Func.replaceAllDistinctLoop n r fuel (p ++ w) p.length = some (p ++ scan hn r w) := by
  induction p, w using scanSplits.induct hn r with
  | case1 p w hw =>
    refine ⟨1, ?_⟩
    rw [replaceAllDistinctLoop, find_append, hw, scan_of_none hw]
    rfl
  | case2 p w i hw ih =>
    have hi : i ≤ w.length := (Nat.le_add_right i _).trans (add_length_le_of_first hn hw)
    obtain ⟨fuel, hfuel⟩ := ih
    refine ⟨fuel + 1, ?_⟩
    rw [replaceAllDistinctLoop, find_append, hw, scan_of_some hw]
    simpa [replace_append, List.length_take_of_le hi, Nat.add_assoc] using hfuel

theorem Func.replaceAllDistinct_gives_scan (hn : n ≠ []) (w r : List UInt8) :
    Gives (Func.replaceAllDistinct w n r) (scan hn r w) :=
  Func.replaceAllDistinctLoop_eq_scan hn [] w

/-! ## When all of them do what is claimed -/

private theorem replaces_of_separate (hn : n ≠ []) (h : Separate hn w r) : Replaces hn w r := by
  obtain ⟨hinert, hends⟩ := h
  have hreturns : Returns fun fuel => replaceAllLoop n r fuel w := by
    rcases hends with hstops | hfronts
    · exact replaceAllLoop_returns (hstops.shrinks hn) w
    · obtain ⟨fuel, hfuel⟩ := replaceAllLoop_eq_scan hn (by simp [Inert]) hfronts
      exact ⟨_, fuel, hfuel⟩
  exact ⟨replaceString_gives_scan hn hinert, hreturns, hreturns, Func.replaceAllDistinct_gives_scan hn w r⟩

theorem separate_of_not_isInfix (hn : n ≠ []) (hw : ¬ n <:+: w) : Separate hn w r := by
  rw [Separate, scanSplits_of_none (first_eq_none_iff.mpr hw)]
  simp

private theorem separate_of_not_rightOverlap (hn : n ≠ []) (hnr : ¬ n <:+: r) (hover : ¬ RightOverlap n r)
    (w : List UInt8) : Separate hn w r :=
  ⟨fun q _ => inert_of_not_rightOverlap hnr hover q.2, .inl (.inl ⟨hnr, .inl hover⟩)⟩

theorem replaces_iff {n : List UInt8} (hn : n ≠ []) (r : List UInt8) :
    ((∀ w, Replaces hn w r) ↔ ¬ n <:+: r ∧ ¬ RightOverlap n r) ∧
      (n <:+: r → ∀ w, Replaces hn w r ↔ ¬ n <:+: w) ∧
      (∀ w, Separate hn w r → Replaces hn w r) ∧
      ∀ w, (Returns (replaceString w n r) ↔ ¬ (n <:+: r ∧ n <:+: w)) ∧
        Gives (Func.replaceAllDistinct w n r) (scan hn r w) := by
  refine ⟨⟨fun h => ?_, fun h w => ?_⟩, fun hnr w => ⟨fun h hw => ?_, fun hw => ?_⟩, fun w => ?_, fun w => ⟨?_, ?_⟩⟩
  · exact (replaceString_gives_scan_iff hn).mp fun w => (h w).replaceString
  · exact replaces_of_separate hn (separate_of_not_rightOverlap hn h.1 h.2 w)
  · exact (replaceString_returns_iff hn).mp ⟨_, h.replaceString⟩ ⟨hnr, hw⟩
  · exact replaces_of_separate hn (separate_of_not_isInfix hn hw)
  · exact replaces_of_separate hn
  · exact replaceString_returns_iff hn
  · exact Func.replaceAllDistinct_gives_scan hn w r

theorem replaces_ab_c : Replaces (List.cons_ne_nil 97 [98]) [97, 97, 98] [99] :=
  (replaces_iff (List.cons_ne_nil 97 [98]) [99]).1.mpr ⟨by decide, by decide⟩ [97, 97, 98]

/-- `a` is replaced by `aa` for ever. In `abb`, where `ab` is replaced by `a`, `ReplaceString` replaces twice. -/
theorem not_replaces : ¬ Returns (replaceString [97] [97] [97, 97]) ∧
    ¬ Returns (ConnectionClient.replaceAll [97] [97] [97, 97]) ∧ ¬ Returns (Func.replaceAll [97] [97] [97, 97]) ∧
      ¬ Gives (replaceString [97, 98, 98] [97, 98] [97]) (scan (List.cons_ne_nil 97 [98]) [97] [97, 98, 98]) := by
  have hin : [97] <:+: ([97, 97] : List UInt8) := by decide
  have hall : ¬ Returns fun fuel => replaceAllLoop [97] [97, 97] fuel [97] := fun h =>
    (replaceAllLoop_returns_iff hin).mp h List.infix_rfl
  refine ⟨fun h => ?_, hall, hall, fun h => ?_⟩
  · exact (replaceString_returns_iff (List.cons_ne_nil 97 [])).mp h ⟨hin, List.infix_rfl⟩
  · have htwice : Gives (replaceString [97, 98, 98] [97, 98] [97]) [97] := ⟨2, by decide⟩
    have hscan : scan (List.cons_ne_nil 97 [98]) [97] [97, 98, 98] = ([97, 98] : List UInt8) := by
      rw [scan_of_some (i := 0) (by decide), scan_of_none (by decide)]
      rfl
    rw [hscan] at h
    exact absurd (h.unique htwice fun _ _ => replaceString_mono) (by decide)

end Sfup.Client
