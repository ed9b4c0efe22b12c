import Sfup.Common.Split
import Mathlib.Data.List.Forall2

/-! `TrimString` and `StringSplitAndTrim` of `Common/StringUtils.cpp`. -/
namespace Sfup.Common

/-- `str[i] > 32`. A `char` from 128 on is negative, and the one behind the last is NUL. -/
def above32 (str : List UInt8) (i : ℕ) : Bool := 32 < (str.getD i 0).toInt8.toInt

def trimStart (str : List UInt8) : ℕ → ℕ → ℕ
  | 0, start => start
  | fuel + 1, start => if start < str.length ∧ ¬ above32 str start then trimStart str fuel (start + 1) else start

/-- The scan from the back, which begins behind the last character. `none` is a position that wraps around. -/
def trimEnd (str : List UInt8) (start : ℕ) : ℕ → Option ℕ
  | 0 => if start ≤ 0 ∧ ¬ above32 str 0 then none else some 0
  | last + 1 => if start ≤ last + 1 ∧ ¬ above32 str (last + 1) then trimEnd str start last else some (last + 1)

def trimString (str : List UInt8) : Option (List UInt8) :=
  let start := trimStart str str.length 0
  if start = str.length then some []
  else do
    let last ← trimEnd str start str.length
    return (str.drop start).take (last + 1 - start)

/-- The loop of `StringSplitAndTrim` from `prev` on. -/
def stringSplitAndTrimLoop (str delim : List UInt8) : ℕ → ℕ → Option (List (List UInt8))
  | 0, prev => if prev < str.length then return [← trimString (str.drop prev)] else return []
  | fuel + 1, prev =>
    match findFirstOf str delim prev with
    | some cutAt => do
      let piece ← trimString ((str.drop prev).take (cutAt - prev))
      return piece :: (← stringSplitAndTrimLoop str delim fuel (cutAt + 1))
    | none => if prev < str.length then return [← trimString (str.drop prev)] else return []

def stringSplitAndTrim (str delim : List UInt8) : Option (List (List UInt8)) :=
  stringSplitAndTrimLoop str delim str.length 0

/-! ## What is claimed of them -/

def blank (c : UInt8) : Bool := c.toNat ≤ 32

def passed (c : UInt8) : Bool := c.toInt8.toInt ≤ 32

def Trims (str : List UInt8) : Prop := ∃ r, trimString str = some r ∧ Text.Trimmed blank str r

/-- The pieces of `StringSplit`, each of them trimmed. -/
def SplitsAndTrims (str delim : List UInt8) : Prop :=
  ∃ pieces, stringSplitAndTrim str delim = some pieces ∧
    List.Forall₂ (Text.Trimmed blank) (stringSplit str delim) pieces

/-- The outermost bytes that are to be kept are ASCII. -/
def AsciiEnds (str : List UInt8) : Prop :=
  (∀ c ∈ str.find? (fun c => !blank c), c.toNat < 128) ∧ ∀ c ∈ str.reverse.find? (fun c => !blank c), c.toNat < 128

theorem passed_iff (c : UInt8) : passed c ↔ blank c ∨ 128 ≤ c.toNat := by
  have hc := c.toNat_lt
  have hcond : c.toInt8.toInt = if 2 * c.toNat < 2 ^ 8 then (c.toNat : ℤ) else c.toNat - (2 ^ 8 : ℕ) :=
    BitVec.toInt_eq_toNat_cond _
  rw [passed, blank, hcond, decide_eq_true_iff, decide_eq_true_iff]
  split_ifs <;> omega

/-! ## The scans -/

section
variable {str a r b : List UInt8} {i k start last fuel : ℕ}

theorem not_above32 (h : ∀ c ∈ str[i]?, passed c) : ¬ above32 str i := by
  rw [above32, List.getD_eq_getElem?_getD]
  cases hi : str[i]? with
  | none => decide
  | some c =>
    have hc := h c hi
    rw [passed, decide_eq_true_iff] at hc
    simpa using hc

theorem above32_of_not_passed {c : UInt8} (h : str[i]? = some c) (hc : ¬ passed c) : above32 str i := by
  rw [passed, decide_eq_true_iff] at hc
  rw [above32, List.getD_eq_getElem?_getD, h]
  simpa using hc

theorem trimStart_add (hk : k ≤ fuel) (hlen : start + k ≤ str.length) (h : ∀ j < k, ¬ above32 str (start + j)) :
    trimStart str fuel start = trimStart str (fuel - k) (start + k) := by
  induction k generalizing fuel start with
  | zero => rfl
  | succ k ih =>
    obtain ⟨fuel, rfl⟩ : ∃ f, fuel = f + 1 := ⟨fuel - 1, by omega⟩
    have hfirst : start < str.length ∧ ¬ above32 str start := ⟨by omega, h 0 (by omega)⟩
    have hrest : ∀ j < k, ¬ above32 str (start + 1 + j) := by
      intro j hj
      rw [Nat.add_assoc, Nat.add_comm 1]
      exact h (j + 1) (by omega)
    rw [trimStart, if_pos hfirst, ih (by omega) (by omega) hrest, Nat.add_sub_add_right, Nat.add_assoc, Nat.add_comm 1]

theorem trimStart_of_stop (h : ¬ (start < str.length ∧ ¬ above32 str start)) : trimStart str fuel start = start := by
  cases fuel with
  | zero => rfl
  | succ fuel => rw [trimStart, if_neg h]

private theorem trimEnd_of_above (h : above32 str last) : trimEnd str start last = some last := by
  cases last with
  | zero => rw [trimEnd, if_neg fun hstop => hstop.2 h]
  | succ last => rw [trimEnd, if_neg fun hstop => hstop.2 h]

/-- The scan stops at the last character above 32, and so does not wrap around. -/
theorem trimEnd_add (hstart : start ≤ last) (hlast : above32 str last)
    (h : ∀ j, last < j → j ≤ last + k → ¬ above32 str j) : trimEnd str start (last + k) = some last := by
  induction k with
  | zero => exact trimEnd_of_above hlast
  | succ k ih =>
    have hcond : start ≤ last + k + 1 ∧ ¬ above32 str (last + k + 1) := ⟨by omega, h _ (by omega) (by omega)⟩
    rw [← Nat.add_assoc, trimEnd, if_pos hcond]
    exact ih fun j hj hle => h j hj (by omega)

theorem trimString_of_forall (h : ∀ c ∈ str, passed c) : trimString str = some [] := by
  have hstart : trimStart str str.length 0 = str.length := by
    rw [trimStart_add le_rfl (Nat.zero_add _).le, Nat.zero_add]
    · exact trimStart_of_stop fun hstop => lt_irrefl _ hstop.1
    · exact fun j _ => not_above32 fun c hc => h c (List.mem_of_getElem? hc)
  rw [trimString, hstart, if_pos rfl]

private theorem trimString_append (ha : ∀ c ∈ a, passed c) (hb : ∀ c ∈ b, passed c) (hr : Text.Bare passed r)
    (hne : r ≠ []) :
    trimString (a ++ (r ++ b)) = some r := by
  have hpos := List.length_pos_iff.mpr hne
  have hlen : (a ++ (r ++ b)).length = a.length + (r.length - 1) + (b.length + 1) := by
    simp only [List.length_append]
    omega
  have hfront : ∀ j < a.length, ¬ above32 (a ++ (r ++ b)) (0 + j) := by
    intro j hj
    apply not_above32
    rw [Nat.zero_add, List.getElem?_append_left hj]
    exact fun c hc => ha c (List.mem_of_getElem? hc)
  have hfirst : above32 (a ++ (r ++ b)) (0 + a.length) := by
    obtain ⟨c, r, rfl⟩ := List.exists_cons_of_ne_nil hne
    exact above32_of_not_passed (by simp) (hr.1 c rfl)
  have hlast : above32 (a ++ (r ++ b)) (a.length + (r.length - 1)) := by
    have hget : (a ++ (r ++ b))[a.length + (r.length - 1)]? = r.getLast? := by
      rw [List.getElem?_append_right (by omega), Nat.add_sub_cancel_left, List.getElem?_append_left (by omega),
        List.getLast?_eq_getElem?]
    rw [List.getLast?_eq_some_getLast hne] at hget
    exact above32_of_not_passed hget (hr.2 _ (List.getLast?_eq_some_getLast hne))
  have hback : ∀ j, a.length + (r.length - 1) < j → j ≤ a.length + (r.length - 1) + (b.length + 1) →
      ¬ above32 (a ++ (r ++ b)) j := by
    intro j hj _
    apply not_above32
    rw [List.getElem?_append_right (by omega), List.getElem?_append_right (by omega)]
    exact fun c hc => hb c (List.mem_of_getElem? hc)
  have hstart : trimStart (a ++ (r ++ b)) (a ++ (r ++ b)).length 0 = a.length := by
    rw [trimStart_add (by omega) (by omega) hfront, trimStart_of_stop fun hstop => hstop.2 hfirst, Nat.zero_add]
  have hend : trimEnd (a ++ (r ++ b)) a.length (a ++ (r ++ b)).length = some (a.length + (r.length - 1)) := by
    rw [hlen]
    exact trimEnd_add (by omega) hlast hback
  have hne' : a.length ≠ (a ++ (r ++ b)).length := by omega
  have hcount : a.length + (r.length - 1) + 1 - a.length = r.length := by omega
  rw [trimString, hstart, if_neg hne', hend, Option.bind_eq_bind, Option.bind_some, hcount, List.drop_left,
    List.take_left]
  rfl

theorem trimString_eq (str : List UInt8) : trimString str = some (Text.trim passed str) := by
  obtain ⟨a, b, hs, ha, hb⟩ := (Text.trimmed_trim passed str).removed
  have hr := Text.bare_trim passed str
  generalize Text.trim passed str = r at hs hr ⊢
  subst hs
  by_cases hne : r = []
  · subst hne
    exact trimString_of_forall (by simpa using fun c hc => hc.elim (ha c) (hb c))
  · exact trimString_append ha hb hr hne

private theorem stringSplitAndTrimLoop_eq (delim : List UInt8) (fuel prev : ℕ) :
    stringSplitAndTrimLoop str delim fuel prev =
      some ((stringSplitLoop str delim fuel prev).map (Text.trim passed)) := by
  induction fuel generalizing prev with
  | zero =>
    rw [stringSplitAndTrimLoop, stringSplitLoop, trimString_eq]
    split_ifs <;> rfl
  | succ fuel ih =>
    rw [stringSplitAndTrimLoop, stringSplitLoop]
    cases findFirstOf str delim prev with
    | none =>
      rw [trimString_eq]
      dsimp only
      split_ifs <;> rfl
    | some cutAt =>
      dsimp only
      rw [trimString_eq, ih]
      rfl

private theorem stringSplitAndTrim_eq (str delim : List UInt8) :
    stringSplitAndTrim str delim = some ((stringSplit str delim).map (Text.trim passed)) :=
  stringSplitAndTrimLoop_eq delim str.length 0

end

theorem trimmed_iff_asciiEnds (str : List UInt8) :
    Text.Trimmed blank str (Text.trim passed str) ↔ AsciiEnds str := by
  have hpassed (s : List UInt8) : (∀ c ∈ s.find? (fun c => !blank c), ¬ passed c) ↔
      ∀ c ∈ s.find? (fun c => !blank c), c.toNat < 128 := by
    refine forall₂_congr fun c hc => ?_
    have hnot : blank c = false := by simpa using List.find?_some hc
    rw [passed_iff, hnot, ← not_le]
    simp
  rw [Text.trimmed_iff, eq_comm, Text.trim_eq_trim_iff fun c hc => (passed_iff c).mpr (.inl hc), Text.bare_trim_iff,
    hpassed, hpassed]
  rfl

private theorem trims_iff (str : List UInt8) : Trims str ↔ AsciiEnds str := by
  simp only [Trims, trimString_eq, Option.some.injEq, exists_eq_left', trimmed_iff_asciiEnds]

private theorem splitsAndTrims_iff (str delim : List UInt8) :
    SplitsAndTrims str delim ↔ ∀ piece ∈ stringSplit str delim, AsciiEnds piece := by
  simp only [SplitsAndTrims, stringSplitAndTrim_eq, Option.some.injEq, exists_eq_left', List.forall₂_map_right_iff,
    List.forall₂_same, trimmed_iff_asciiEnds]

/-- `TrimString` trims exactly the strings whose outermost bytes above 32 are ASCII, and `StringSplitAndTrim` those
with such pieces. -/
theorem trimString_iff (str delim : List UInt8) : (Trims str ↔ AsciiEnds str) ∧
    (SplitsAndTrims str delim ↔ ∀ piece ∈ stringSplit str delim, AsciiEnds piece) :=
  ⟨trims_iff str, splitsAndTrims_iff str delim⟩

/-- Of the two bytes of `é` nothing is left. -/
theorem not_trimString : ¬ ∀ str delim : List UInt8, Trims str ∧ SplitsAndTrims str delim := by
  intro hall
  obtain ⟨r, hr, htrimmed⟩ := (hall [0xC3, 0xA9] []).1
  have hcall : trimString [0xC3, 0xA9] = some [] := by decide
  have hbare : Text.Bare blank [0xC3, 0xA9] := by simp [Text.Bare, blank]
  obtain rfl := Option.some.inj (hcall.symm.trans hr)
  exact absurd (htrimmed.longest _ List.infix_rfl hbare) (by decide)

end Sfup.Common
