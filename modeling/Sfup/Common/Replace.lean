import Sfup.Lib.Occurrences

/-! `ReplaceString` of `Common/StringUtils.cpp`, and the two members of `std::string` that the replacing helpers
use. -/
namespace Sfup.Common
open Sfup.Occurrences

/-- `find(needle, pos)`: the first occurrence from `pos` on. `none` is `npos`. -/
def find (s needle : List UInt8) (pos : ℕ) : Option ℕ :=
  if pos ≤ s.length then (first needle (s.drop pos)).map (pos + ·) else none

/-- `replace(pos, count, str)`. -/
def replace (s : List UInt8) (pos count : ℕ) (str : List UInt8) : List UInt8 :=
  s.take pos ++ (str ++ s.drop (pos + count))

/-- The loop of `ReplaceString`, which searches on from the place of the match. `none` is out of fuel. -/
def replaceStringLoop (iNeedle iReplaceWith : List UInt8) : ℕ → List UInt8 → Option ℕ → Option (List UInt8)
  | _, iHayStack, none => some iHayStack
  | 0, _, some _ => none
  | fuel + 1, iHayStack, some pos1 =>
    let iHayStack := replace iHayStack pos1 iNeedle.length iReplaceWith
    replaceStringLoop iNeedle iReplaceWith fuel iHayStack (find iHayStack iNeedle pos1)

def replaceString (iHayStack iNeedle iReplaceWith : List UInt8) (fuel : ℕ) : Option (List UInt8) :=
  replaceStringLoop iNeedle iReplaceWith fuel iHayStack (find iHayStack iNeedle 0)

/-- The call ends with this result. -/
def Gives (call : ℕ → Option (List UInt8)) (out : List UInt8) : Prop := ∃ fuel, call fuel = some out

def Returns (call : ℕ → Option (List UInt8)) : Prop := ∃ out, Gives call out

section
variable {n r p w x v out out' : List UInt8} {i fuel : ℕ}

theorem find_append (p w n : List UInt8) : find (p ++ w) n p.length = (first n w).map (p.length + ·) := by
  rw [find, if_pos (by simp), List.drop_left]

theorem find_zero (w n : List UInt8) : find w n 0 = first n w := by
  simpa using find_append [] w n

theorem replace_append (p w : List UInt8) (i k : ℕ) (r : List UInt8) :
    replace (p ++ w) (p.length + i) k r = (p ++ w.take i) ++ (r ++ w.drop (i + k)) := by
  rw [replace, List.take_length_add_append, Nat.add_assoc, List.drop_length_add_append]

/-- A step of the loop: what is in front of the match is not looked at again. -/
theorem replaceStringLoop_of_some (hn : n ≠ []) (h : first n w = some i) :
    replaceStringLoop n r (fuel + 1) (p ++ w) (find (p ++ w) n p.length) =
      replaceStringLoop n r fuel ((p ++ w.take i) ++ (r ++ w.drop (i + n.length)))
        (find ((p ++ w.take i) ++ (r ++ w.drop (i + n.length))) n (p ++ w.take i).length) := by
  have hi : i ≤ w.length := (Nat.le_add_right i _).trans (add_length_le_of_first hn h)
  rw [find_append, h, Option.map_some, replaceStringLoop, replace_append, List.length_append,
    List.length_take_of_le hi]

theorem replaceStringLoop_of_none (h : first n w = none) :
    replaceStringLoop n r fuel (p ++ w) (find (p ++ w) n p.length) = some (p ++ w) := by
  rw [find_append, h]
  cases fuel <;> rfl

private theorem replaceStringLoop_mono {pos : Option ℕ} (h : replaceStringLoop n r fuel w pos = some out) :
    replaceStringLoop n r (fuel + 1) w pos = some out := by
  induction fuel generalizing w pos with
  | zero =>
    cases pos with
    | none => exact h
    | some pos1 => simp [replaceStringLoop] at h
  | succ fuel ih =>
    cases pos with
    | none => exact h
    | some pos1 => exact ih h

theorem replaceString_mono (h : replaceString w n r fuel = some out) : replaceString w n r (fuel + 1) = some out :=
  replaceStringLoop_mono h

theorem Gives.unique {call : ℕ → Option (List UInt8)} (h : Gives call out) (h' : Gives call out')
    (hmono : ∀ fuel out, call fuel = some out → call (fuel + 1) = some out) : out = out' := by
  obtain ⟨fuel, h⟩ := h
  obtain ⟨fuel', h'⟩ := h'
  have hle {k : ℕ} {out : List UInt8} (h : call k = some out) (d : ℕ) : call (k + d) = some out := by
    induction d with
    | zero => exact h
    | succ d ih => exact hmono _ _ ih
  have hboth := (hle h fuel').symm.trans ((congrArg call (Nat.add_comm fuel fuel')).trans (hle h' fuel))
  exact Option.some.inj hboth

/-! ## `ReplaceString` -/

/-- While no occurrence begins in a replacement, the loop finds what a scan finds. -/
theorem replaceStringLoop_eq_scan (hn : n ≠ []) (h : ∀ q ∈ scanSplits hn r p w, Inert n r q.2) :
    ∃ fuel, replaceStringLoop n r fuel (p ++ w) (find (p ++ w) n p.length) = some (p ++ scan hn r w) := by
  induction p, w using scanSplits.induct hn r with
  | case1 p w hw =>
    refine ⟨0, ?_⟩
    rw [replaceStringLoop_of_none hw, scan_of_none hw]
  | case2 p w i hw ih =>
    rw [scanSplits_of_some hw, List.forall_mem_cons] at h
    obtain ⟨hinert, hrest⟩ := h
    obtain ⟨fuel, hfuel⟩ := ih hrest
    refine ⟨fuel + 1, ?_⟩
    rw [find_append, List.length_append, List.append_assoc _ r] at hfuel
    rw [replaceStringLoop_of_some hn hw, find_append, first_append_of_inert hinert, Option.map_map, scan_of_some hw]
    simpa [Function.comp_def, Nat.add_assoc] using hfuel

theorem replaceString_gives_scan (hn : n ≠ []) (h : ∀ q ∈ scanSplits hn r [] w, Inert n r q.2) :
    Gives (replaceString w n r) (scan hn r w) := by
  simpa [Gives, replaceString] using replaceStringLoop_eq_scan hn h

/-- A match ends behind the text that has no occurrence, so that less is left. -/
theorem replaceStringLoop_returns (hn : n ≠ []) (hnr : ¬ n <:+: r) (p : List UInt8) (hx : ¬ n <:+: x) :
    ∃ fuel out, replaceStringLoop n r fuel (p ++ (x ++ v)) (find (p ++ (x ++ v)) n p.length) = some out := by
  induction hlen : v.length using Nat.strong_induction_on generalizing p x v with
  | _ k ih =>
    subst hlen
    cases hw : first n (x ++ v) with
    | none => exact ⟨0, _, replaceStringLoop_of_none hw⟩
    | some i =>
      have hend : x.length < i + n.length := by
        by_contra hle
        have hpre := first_isPrefix hw
        rw [List.drop_append_of_le_length (by omega)] at hpre
        have hin := List.prefix_of_prefix_length_le hpre (List.prefix_append _ v) (by rw [List.length_drop]; omega)
        exact hx (hin.isInfix.trans (List.drop_suffix i x).isInfix)
      have hle := add_length_le_of_first hn hw
      have hless : ((x ++ v).drop (i + n.length)).length < v.length := by
        rw [List.length_append] at hle
        rw [List.length_drop, List.length_append]
        omega
      obtain ⟨fuel, out, hfuel⟩ := ih _ hless (p ++ (x ++ v).take i) hnr rfl
      exact ⟨fuel + 1, out, (replaceStringLoop_of_some hn hw).trans hfuel⟩

private theorem replaceStringLoop_eq_none (hn : n ≠ []) (hnr : n <:+: r) (fuel : ℕ) (p : List UInt8) (hw : n <:+: w) :
    replaceStringLoop n r fuel (p ++ w) (find (p ++ w) n p.length) = none := by
  induction fuel generalizing p w with
  | zero =>
    obtain ⟨i, hi⟩ := exists_first hw
    rw [find_append, hi]
    rfl
  | succ fuel ih =>
    obtain ⟨i, hi⟩ := exists_first hw
    rw [replaceStringLoop_of_some hn hi]
    exact ih _ (hnr.trans (List.prefix_append r _).isInfix)

/-- A replacement with the needle in it is found again and again. -/
theorem replaceString_returns_iff (hn : n ≠ []) : Returns (replaceString w n r) ↔ ¬ (n <:+: r ∧ n <:+: w) := by
  constructor
  · rintro ⟨out, fuel, hout⟩ ⟨hnr, hw⟩
    have hnone := replaceStringLoop_eq_none hn hnr fuel [] hw
    rw [List.nil_append, List.length_nil] at hnone
    rw [replaceString, hnone] at hout
    cases hout
  · intro hnot
    by_cases hw : n <:+: w
    · obtain ⟨fuel, out, hout⟩ :=
        @replaceStringLoop_returns n r [] w hn (fun h => hnot ⟨h, hw⟩) [] (by simpa using hn)
      exact ⟨out, fuel, by simpa [replaceString] using hout⟩
    · refine ⟨w, 0, ?_⟩
      rw [replaceString, find_zero, first_eq_none_iff.mpr hw]
      rfl

/-- The result of `ReplaceString` is that of a scan for every haystack just when the needle is not in the replacement
and does not begin in it. -/
theorem replaceString_gives_scan_iff (hn : n ≠ []) :
    (∀ w, Gives (replaceString w n r) (scan hn r w)) ↔ ¬ n <:+: r ∧ ¬ RightOverlap n r := by
  constructor
  · intro h
    have hnr : ¬ n <:+: r := fun hnr => (replaceString_returns_iff hn).mp ⟨_, h n⟩ ⟨hnr, List.infix_rfl⟩
    refine ⟨hnr, fun hover => ?_⟩
    obtain ⟨x, y, z, hy, hr, hyz, hfirst⟩ := exists_first_of_rightOverlap hnr hover
    have hn0 : first n (n ++ z) = some 0 := first_eq_some (by simp) (by simp)
    have hscan : scan hn r (n ++ z) = x ++ n := by
      have hz : first n z = none := by
        rw [first_eq_none_iff, hyz]
        intro hin
        have hlen := hin.length_le
        have hpos := List.length_pos_iff.mpr hy
        rw [List.length_append] at hlen
        omega
      rw [scan_of_some hn0, Nat.zero_add, List.drop_left, scan_of_none hz, hr, hyz]
      simp
    -- the match that the replacement begins is replaced too
    have hgives : Gives (replaceString (n ++ z) n r) (x ++ r) := by
      have h1 := @replaceStringLoop_of_some n r [] (n ++ z) 0 1 hn hn0
      have h2 := @replaceStringLoop_of_some n r [] (r ++ z) x.length 0 hn hfirst
      have h3 := @replaceStringLoop_of_none n r x r 0 (first_eq_none_iff.mpr hnr)
      have htake : (r ++ z).take x.length = x := by rw [hr, List.append_assoc, List.take_left]
      have hdrop : (r ++ z).drop (x.length + n.length) = [] := by
        rw [hr, hyz, List.append_assoc, List.drop_length_add_append, List.drop_length]
      rw [Nat.zero_add, List.drop_left, List.take_zero] at h1
      rw [htake, hdrop, List.append_nil, List.nil_append] at h2
      exact ⟨2, h1.trans (h2.trans h3)⟩
    have heq := hgives.unique (hscan ▸ h (n ++ z)) fun _ _ => replaceString_mono
    exact hnr (List.append_cancel_left heq ▸ List.infix_rfl)
  · rintro ⟨hnr, hover⟩ w
    exact replaceString_gives_scan hn fun q _ => inert_of_not_rightOverlap hnr hover q.2

end
end Sfup.Common
