import Sfup.Lib.Text
import Mathlib.Data.Nat.Digits.Defs

/-! Strings of the session descriptions: `stringutil::splitOneOf` of `StringUtil.cpp` and what the library
calls around it do. -/
namespace Sfup.Sdp

abbrev Str := List Char

/-- How a call can fail to return: a vector is read behind its end, or a loop with an 8-bit counter does not
reach the size of its vector. -/
inductive Fault
  | outOfRange
  | endless
  deriving DecidableEq

/-- The `while` loop, by what remains and the number of splits so far. Each turn takes a delimiter off. -/
def splitOneOfLoop (delims : Str) (maxSplits : ℕ) : ℕ → Str → ℕ → List Str
  | 0, remaining, _ => if remaining.isEmpty then [] else [remaining]
  | fuel + 1, remaining, splits =>
    let pos := remaining.findIdx delims.contains
    if (maxSplits = 0 ∨ splits < maxSplits) ∧ pos < remaining.length then
      remaining.take pos :: splitOneOfLoop delims maxSplits fuel (remaining.drop (pos + 1)) (splits + 1)
    else if remaining.isEmpty then [] else [remaining]

def splitOneOf (str delims : Str) (maxSplits : ℕ) : List Str :=
  splitOneOfLoop delims maxSplits str.length str 0

/-- The lines that `std::getline` gives one after the other. -/
def getlines (s : Str) : List Str := Text.split (· == '\n') none s

def part (parts : List Str) (i : ℕ) : Except Fault Str :=
  match parts[i]? with
  | some s => .ok s
  | none => .error .outOfRange

def dec (n : ℕ) : Str := Nat.toDigits 10 n

def decInt (n : ℤ) : Str := if n < 0 then '-' :: dec n.natAbs else dec n.natAbs

def isSpace (c : Char) : Bool := c == ' ' || (9 ≤ c.toNat && c.toNat ≤ 13)

/-- `strtoul` to base ten; an `unsigned long` has 32 bits. -/
def strtoul (s : Str) : UInt32 :=
  let (negative, s) := match s.dropWhile isSpace with
    | '-' :: s => (true, s)
    | '+' :: s => (false, s)
    | s => (false, s)
  let n := (s.takeWhile Char.isDigit).foldl (fun n c => 10 * n + (c.toNat - 48)) 0
  if 2 ^ 32 ≤ n then 0xffffffff else if negative then 0 - UInt32.ofNat n else UInt32.ofNat n

/-- What `c_str` shows of a string. -/
def cStr (s : Str) : Str := s.takeWhile (· != '\x00')

/-- The limit that a `maxSplits` stands for. -/
def limit (maxSplits splits : ℕ) : Option ℕ := if maxSplits = 0 then none else some (maxSplits - splits)

theorem splitOneOfLoop_eq {delims : Str} {maxSplits fuel splits : ℕ} {s : Str} (h : s.length ≤ fuel) :
    splitOneOfLoop delims maxSplits fuel s splits = Text.split delims.contains (limit maxSplits splits) s := by
  induction fuel generalizing s splits with
  | zero =>
    rw [List.length_eq_zero_iff.mp (Nat.le_zero.mp h)]
    simp [splitOneOfLoop]
  | succ fuel ih =>
    simp only [splitOneOfLoop]
    split_ifs with hmore hempty
    · obtain ⟨hlimit, hpos⟩ := hmore
      have hnext : (limit maxSplits splits).map (· - 1) = limit maxSplits (splits + 1) := by
        unfold limit
        split_ifs
        · rfl
        · simp [Nat.sub_sub]
      have hn : limit maxSplits splits ≠ some 0 := by
        unfold limit
        split_ifs
        · simp
        · rw [ne_eq, Option.some.injEq]
          omega
      rw [Text.split_of_findIdx_lt hn hpos, hnext, ih]
      rw [List.length_drop]
      omega
    · rw [List.isEmpty_iff.mp hempty, Text.split_nil]
    · by_cases hlimit : maxSplits = 0 ∨ splits < maxSplits
      · rw [Text.split_of_findIdx_ge _ (not_lt.mp fun hlt => hmore ⟨hlimit, hlt⟩), if_neg hempty]
      · have hzero : limit maxSplits splits = some 0 := by
          unfold limit
          rw [if_neg (by tauto), Nat.sub_eq_zero_of_le (by omega)]
        rw [hzero, Text.split_zero, if_neg hempty]

theorem splitOneOf_eq (str delims : Str) (maxSplits : ℕ) :
    splitOneOf str delims maxSplits = Text.split delims.contains (limit maxSplits 0) str :=
  splitOneOfLoop_eq le_rfl

end Sfup.Sdp
