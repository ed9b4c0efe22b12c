import Sfup.Sdp.StringUtil

/-! `StringSplit`, `SplitOneOf` and `StringsConcat` of `Common/StringUtils.cpp`, over any type of characters. -/
namespace Sfup.Common

section
variable {α : Type}

def stringsConcat (aStrings : List (List α)) (aSeparator : α) : List α :=
  match aStrings with
  | [] => []
  | first :: rest => rest.foldl (fun res str => res ++ [aSeparator] ++ str) first

theorem rest_eq (str : List α) (prev : ℕ) : (if prev < str.length then [str.drop prev] else []) =
    if (str.drop prev).isEmpty then [] else [str.drop prev] := by
  simp only [List.isEmpty_iff, List.drop_eq_nil_iff, ← not_lt, ite_not]

theorem stringsConcat_eq (aStrings : List (List α)) (aSeparator : α) :
    stringsConcat aStrings aSeparator = [aSeparator].intercalate aStrings := by
  cases aStrings with
  | nil => rfl
  | cons first rest =>
    induction rest generalizing first with
    | nil => simp [stringsConcat]
    | cons str rest ih =>
      have hfirst : stringsConcat (first :: str :: rest) aSeparator =
          stringsConcat ((first ++ [aSeparator] ++ str) :: rest) aSeparator := rfl
      rw [hfirst, ih]
      cases rest <;> simp

variable [DecidableEq α]

/-- `find_first_of(delims, pos)`. `none` is `npos`. -/
def findFirstOf (str delims : List α) (pos : ℕ) : Option ℕ :=
  ((str.drop pos).findIdx? delims.contains).map (pos + ·)

/-- The loop of `StringSplit` from `prev` on. Each turn goes past a delimiter. -/
def stringSplitLoop (str delim : List α) : ℕ → ℕ → List (List α)
  | 0, prev => if prev < str.length then [str.drop prev] else []
  | fuel + 1, prev =>
    match findFirstOf str delim prev with
    | some cutAt => (str.drop prev).take (cutAt - prev) :: stringSplitLoop str delim fuel (cutAt + 1)
    | none => if prev < str.length then [str.drop prev] else []

def stringSplit (str delim : List α) : List (List α) := stringSplitLoop str delim str.length 0

/-- The loop of `SplitOneOf`, by what remains and the number of splits so far. Each turn takes a delimiter off. -/
def splitOneOfLoop (delims : List α) (maxSplits : ℕ) : ℕ → List α → ℕ → List (List α)
  | 0, remaining, _ => if 0 < remaining.length then [remaining] else []
  | fuel + 1, remaining, splits =>
    match if maxSplits = 0 ∨ splits < maxSplits then findFirstOf remaining delims 0 else none with
    | some pos => remaining.take pos :: splitOneOfLoop delims maxSplits fuel (remaining.drop (pos + 1)) (splits + 1)
    | none => if 0 < remaining.length then [remaining] else []

def splitOneOf (str delims : List α) (maxSplits : ℕ) : List (List α) :=
  splitOneOfLoop delims maxSplits str.length str 0

theorem findFirstOf_of_lt {str delims : List α} {pos : ℕ}
    (h : (str.drop pos).findIdx delims.contains < (str.drop pos).length) :
    findFirstOf str delims pos = some (pos + (str.drop pos).findIdx delims.contains) := by
  rw [findFirstOf, List.findIdx?_eq_some_iff_findIdx_eq.mpr ⟨h, rfl⟩, Option.map_some]

theorem findFirstOf_of_ge {str delims : List α} {pos : ℕ}
    (h : (str.drop pos).length ≤ (str.drop pos).findIdx delims.contains) : findFirstOf str delims pos = none := by
  rw [findFirstOf, List.findIdx?_eq_none_iff_findIdx_eq.mpr (le_antisymm List.findIdx_le_length h), Option.map_none]

private theorem stringSplitLoop_eq {str delim : List α} {fuel prev : ℕ} (h : (str.drop prev).length ≤ fuel) :
    stringSplitLoop str delim fuel prev = Text.split delim.contains none (str.drop prev) := by
  induction fuel generalizing prev with
  | zero =>
    rw [stringSplitLoop, rest_eq, List.length_eq_zero_iff.mp (Nat.le_zero.mp h), Text.split_nil]
    rfl
  | succ fuel ih =>
    rw [stringSplitLoop]
    rcases Nat.lt_or_ge ((str.drop prev).findIdx delim.contains) (str.drop prev).length with hcut | hfree
    · rw [findFirstOf_of_lt hcut, Text.split_of_findIdx_lt (by simp) hcut, Option.map_none, List.drop_drop]
      dsimp only
      rw [Nat.add_sub_cancel_left, Nat.add_assoc, ih]
      rw [List.length_drop] at h ⊢
      omega
    · rw [findFirstOf_of_ge hfree, Text.split_of_findIdx_ge none hfree]
      exact rest_eq str prev

private theorem stringSplit_eq (str delim : List α) : stringSplit str delim = Text.split delim.contains none str :=
  @stringSplitLoop_eq α _ str delim str.length 0 le_rfl

end

/-- At the characters of the session descriptions this is the splitter of `sfup-core/StringUtil.cpp`. -/
theorem splitOneOfLoop_eq (delims : Sdp.Str) (maxSplits fuel : ℕ) (remaining : Sdp.Str) (splits : ℕ) :
    splitOneOfLoop delims maxSplits fuel remaining splits =
      Sdp.splitOneOfLoop delims maxSplits fuel remaining splits := by
  have hrest (s : Sdp.Str) : (if 0 < s.length then [s] else []) = if s.isEmpty then [] else [s] := rest_eq s 0
  induction fuel generalizing remaining splits with
  | zero => exact hrest remaining
  | succ fuel ih =>
    rw [splitOneOfLoop, Sdp.splitOneOfLoop]
    by_cases hcut : (maxSplits = 0 ∨ splits < maxSplits) ∧ remaining.findIdx delims.contains < remaining.length
    · have hfirst : findFirstOf remaining delims 0 = some (0 + remaining.findIdx delims.contains) :=
        findFirstOf_of_lt hcut.2
      rw [if_pos hcut, if_pos hcut.1, hfirst, Nat.zero_add]
      dsimp only
      rw [ih]
    · have hnone : (if maxSplits = 0 ∨ splits < maxSplits then findFirstOf remaining delims 0 else none) = none := by
        split_ifs with hmore
        · exact findFirstOf_of_ge (not_lt.mp fun hlt => hcut ⟨hmore, hlt⟩)
        · rfl
      rw [if_neg hcut, hnone]
      exact hrest remaining

theorem splitOneOf_eq (str delims : Sdp.Str) (maxSplits : ℕ) :
    splitOneOf str delims maxSplits = Sdp.splitOneOf str delims maxSplits :=
  splitOneOfLoop_eq delims maxSplits str.length str 0

/-- The splitters give the same pieces, and these together lack only one delimiter at the end. -/
theorem splitters_agree (str delims : Sdp.Str) (c : Char) :
    stringSplit str delims = splitOneOf str delims 0 ∧ splitOneOf str delims 0 = Sdp.splitOneOf str delims 0 ∧
      stringsConcat (stringSplit str [c]) c = if str.getLast? = some c then str.dropLast else str := by
  refine ⟨?_, splitOneOf_eq str delims 0, ?_⟩
  · rw [stringSplit_eq, splitOneOf_eq, Sdp.splitOneOf_eq]
    rfl
  · have hset : ([c] : Sdp.Str).contains = (· == c) := by
      funext x
      simp [beq_eq_decide]
    rw [stringSplit_eq, stringsConcat_eq, hset, Text.intercalate_split]

end Sfup.Common
