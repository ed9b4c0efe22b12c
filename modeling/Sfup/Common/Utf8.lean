import Mathlib.Algebra.Order.BigOperators.Group.List
import Mathlib.Data.List.Basic
import Mathlib.Tactic.NormNum

/-! `RawBEToUTF8` of `Common/StringUtils.cpp`: units of 16 bits pass through a `short` before they are encoded. -/
namespace Sfup.Common

/-- `GetBEShort`. `none` is a read outside of the data. -/
def getBEShort (aMem : List UInt8) (i : ℕ) : Option Int16 := do
  let high ← aMem[i]?
  let low ← aMem[i + 1]?
  return (UInt16.ofNat (high.toNat <<< 8 ||| low.toNat)).toInt16

/-- `static_cast<char>`. -/
def toChar (c : ℤ) : UInt8 := UInt8.ofNat (c % 256).toNat

def unitToUTF8 (c : ℤ) : List UInt8 :=
  if c < 0x80 then [toChar c]
  else if c < 0x800 then [toChar (192 + c / 64), toChar (128 + c % 64)]
  else if c - 0xd800 < 0x800 then []
  else if c < 0x10000 then [toChar (224 + c / 4096), toChar (128 + (c / 64) % 64), toChar (128 + c % 64)]
  else if c < 0x110000 then
    [toChar (240 + c / 262144), toChar (128 + (c / 4096) % 64), toChar (128 + (c / 64) % 64), toChar (128 + c % 64)]
  else []

/-- The loop over the shorts from `i` on. -/
def rawBEToUTF8Loop (aRawData : List UInt8) : ℕ → ℕ → Option (List UInt8)
  | 0, _ => some []
  | count + 1, i => do
    let c ← getBEShort aRawData (i * 2)
    return unitToUTF8 c.toInt ++ (← rawBEToUTF8Loop aRawData count (i + 1))

def rawBEToUTF8 (aRawData : List UInt8) (aNumShorts : ℕ) : Option (List UInt8) := rawBEToUTF8Loop aRawData aNumShorts 0

/-! ## Units and texts -/

/-- A unit as it is sent, high byte first. -/
def beBytes (u : UInt16) : List UInt8 := [UInt8.ofNat (u.toNat / 256), UInt8.ofNat u.toNat]

def IsSurrogate (u : UInt16) : Prop := 0xD800 ≤ u.toNat ∧ u.toNat ≤ 0xDFFF

instance (u : UInt16) : Decidable (IsSurrogate u) := inferInstanceAs (Decidable (_ ∧ _))

def utf8 (u : UInt16) : List UInt8 := if IsSurrogate u then [] else String.utf8EncodeChar (Char.ofNat u.toNat)

def appended (u : UInt16) : List UInt8 := unitToUTF8 u.toInt16.toInt

/-- The encodings of the units outside of the surrogates come back, in order, and a unit is dropped exactly if it is
a surrogate. -/
def Converts (units : List UInt16) : Prop :=
  rawBEToUTF8 (units.flatMap beBytes) units.length = some (units.flatMap utf8) ∧
    ∀ u ∈ units, appended u = [] ↔ IsSurrogate u

theorem toInt_toInt16 (u : UInt16) :
    u.toInt16.toInt = if u.toNat < 0x8000 then (u.toNat : ℤ) else u.toNat - 0x10000 := by
  have hcond : u.toInt16.toInt = if 2 * u.toNat < 2 ^ 16 then (u.toNat : ℤ) else u.toNat - (2 ^ 16 : ℕ) :=
    BitVec.toInt_eq_toNat_cond _
  rw [hcond]
  split_ifs <;> omega

private theorem toChar_natCast (n : ℕ) : toChar n = UInt8.ofNat n := by
  have hmod : ((n : ℤ) % 256).toNat = n % 256 := by omega
  apply UInt8.toNat_inj.mp
  rw [toChar, hmod, UInt8.toNat_ofNat', UInt8.toNat_ofNat', Nat.mod_mod]

theorem toNat_ofNat_of_not_isSurrogate {u : UInt16} (h : ¬ IsSurrogate u) :
    (Char.ofNat u.toNat).val.toNat = u.toNat := by
  have hu := u.toNat_lt
  have hvalid : u.toNat.isValidChar := by
    unfold Nat.isValidChar
    unfold IsSurrogate at h
    omega
  rw [Char.ofNat, dif_pos hvalid]
  rfl

theorem not_isSurrogate_of_lt {u : UInt16} (h : u.toNat < 0x800) : ¬ IsSurrogate u := by
  unfold IsSurrogate
  omega

theorem appended_of_lt {u : UInt16} (h : u.toNat < 0x800) : appended u = utf8 u := by
  have hs := not_isSurrogate_of_lt h
  have hlast : (128 + (u.toNat : ℤ) % 64) = ((u.toNat % 64 + 128 : ℕ) : ℤ) := by omega
  have hfirst : (192 + (u.toNat : ℤ) / 64) = ((u.toNat / 64 % 32 + 192 : ℕ) : ℤ) := by omega
  rw [appended, toInt_toInt16, if_pos (by omega), utf8, if_neg hs, String.utf8EncodeChar,
    toNat_ofNat_of_not_isSurrogate hs, unitToUTF8]
  by_cases h7 : u.toNat ≤ 0x7f
  · rw [if_pos (by omega), if_pos h7, toChar_natCast]
  · rw [if_neg (by omega), if_pos (by omega), if_neg h7, if_pos (by omega), hfirst, hlast, toChar_natCast,
      toChar_natCast]

theorem appended_of_dropped {u : UInt16} (hlo : 0x800 ≤ u.toNat) (hhi : u.toNat < 0x8000) : appended u = [] := by
  have hsub : (u.toNat : ℤ) - 0xd800 < 0x800 := by omega
  rw [appended, toInt_toInt16, if_pos hhi, unitToUTF8, if_neg (by omega), if_neg (by omega), if_pos hsub]

/-- And the `short` itself is negative for these. -/
theorem length_appended_of_ge {u : UInt16} (h : 0x8000 ≤ u.toNat) : (appended u).length = 1 := by
  have hu := u.toNat_lt
  rw [appended, toInt_toInt16, if_neg (by omega), unitToUTF8, if_pos (by omega)]
  rfl

theorem utf8_ne_nil {u : UInt16} (h : ¬ IsSurrogate u) : utf8 u ≠ [] := by
  rw [utf8, if_neg h, String.utf8EncodeChar]
  split_ifs <;> simp

private theorem length_utf8_of_ge {u : UInt16} (h : 0x800 ≤ u.toNat) (hs : ¬ IsSurrogate u) : (utf8 u).length = 3 := by
  have hu := u.toNat_lt
  rw [utf8, if_neg hs, String.utf8EncodeChar, toNat_ofNat_of_not_isSurrogate hs, if_neg (by omega), if_neg (by omega),
    if_pos (by omega)]
  rfl

theorem length_appended_lt {u : UInt16} (h : 0x800 ≤ u.toNat) (hs : ¬ IsSurrogate u) :
    (appended u).length < (utf8 u).length := by
  rw [length_utf8_of_ge h hs]
  rcases Nat.lt_or_ge u.toNat 0x8000 with hlo | hhi
  · simp [appended_of_dropped h hlo]
  · simp [length_appended_of_ge hhi]

private theorem length_appended_le {u : UInt16} (hs : ¬ IsSurrogate u) : (appended u).length ≤ (utf8 u).length := by
  rcases Nat.lt_or_ge u.toNat 0x800 with hlt | hge
  · rw [appended_of_lt hlt]
  · exact (length_appended_lt hge hs).le

private theorem getBEShort_append (pre rest : List UInt8) (u : UInt16) :
    getBEShort (pre ++ (beBytes u ++ rest)) pre.length = some u.toInt16 := by
  have hu := u.toNat_lt
  have hhigh : (UInt8.ofNat (u.toNat / 256)).toNat = u.toNat / 256 := UInt8.toNat_ofNat_of_lt' (by
    rw [UInt8.size]
    omega)
  have hlow : (UInt8.ofNat u.toNat).toNat = u.toNat % 256 := UInt8.toNat_ofNat'
  have hword : (u.toNat / 256) <<< 8 ||| u.toNat % 256 = u.toNat := by
    rw [← Nat.shiftLeft_add_eq_or_of_lt (Nat.mod_lt _ (by decide)), Nat.shiftLeft_eq]
    omega
  have hfirst : (pre ++ (beBytes u ++ rest))[pre.length]? = some (UInt8.ofNat (u.toNat / 256)) := by simp [beBytes]
  have hsecond : (pre ++ (beBytes u ++ rest))[pre.length + 1]? = some (UInt8.ofNat u.toNat) := by simp [beBytes]
  simp only [getBEShort, hfirst, hsecond, Option.bind_eq_bind, Option.bind_some, hhigh, hlow, hword, UInt16.ofNat_toNat]
  rfl

private theorem rawBEToUTF8Loop_append (pre rest : List UInt8) (units : List UInt16) {i : ℕ} (hi : i * 2 = pre.length) :
    rawBEToUTF8Loop (pre ++ (units.flatMap beBytes ++ rest)) units.length i = some (units.flatMap appended) := by
  induction units generalizing pre i with
  | nil => rfl
  | cons u units ih =>
    have hget : getBEShort (pre ++ ((u :: units).flatMap beBytes ++ rest)) (i * 2) = some u.toInt16 := by
      rw [hi, List.flatMap_cons, List.append_assoc]
      exact getBEShort_append pre _ u
    have hrest := ih (pre ++ beBytes u) (i := i + 1) (by simp [beBytes]; omega)
    rw [List.append_assoc, ← List.append_assoc (beBytes u), ← List.flatMap_cons] at hrest
    simp only [List.length_cons, rawBEToUTF8Loop, hget, hrest]
    rfl

theorem rawBEToUTF8_flatMap (units : List UInt16) :
    rawBEToUTF8 (units.flatMap beBytes) units.length = some (units.flatMap appended) := by
  have h := rawBEToUTF8Loop_append [] [] units (i := 0) rfl
  rwa [List.nil_append, List.append_nil] at h

theorem lt_of_flatMap_eq {units : List UInt16} (hs : ∀ u ∈ units, ¬ IsSurrogate u)
    (h : units.flatMap appended = units.flatMap utf8) : ∀ u ∈ units, u.toNat < 0x800 := by
  intro u hu
  by_contra hge
  have hlt := length_appended_lt (Nat.not_lt.mp hge) (hs u hu)
  have hsum : (units.map fun u => (appended u).length).sum < (units.map fun u => (utf8 u).length).sum :=
    List.sum_lt_sum _ _ (fun v hv => length_appended_le (hs v hv)) ⟨u, hu, hlt⟩
  rw [← List.length_flatMap, ← List.length_flatMap, h] at hsum
  exact lt_irrefl _ hsum

theorem flatMap_appended_of_lt {units : List UInt16} (h : ∀ u ∈ units, u.toNat < 0x800) :
    units.flatMap appended = units.flatMap utf8 :=
  List.flatMap_congr fun u hu => appended_of_lt (h u hu)

/-- Characters below U+0800 are converted, and a sequence with any other unit is not. -/
theorem converts_iff_lt (units : List UInt16) : Converts units ↔ ∀ u ∈ units, u.toNat < 0x800 := by
  rw [Converts, rawBEToUTF8_flatMap, Option.some.injEq]
  constructor
  · intro h
    have hs : ∀ u ∈ units, ¬ IsSurrogate u := by
      intro u hu hsur
      have hnil := (h.2 u hu).mpr hsur
      have hlen := length_appended_of_ge (show 0x8000 ≤ u.toNat by unfold IsSurrogate at hsur; omega)
      simp [hnil] at hlen
    exact lt_of_flatMap_eq hs h.1
  · intro h
    refine ⟨flatMap_appended_of_lt h, fun u hu => ?_⟩
    have hs := not_isSurrogate_of_lt (h u hu)
    rw [appended_of_lt (h u hu)]
    exact iff_of_false (utf8_ne_nil hs) hs

end Sfup.Common
