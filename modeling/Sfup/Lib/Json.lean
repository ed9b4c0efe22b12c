import Mathlib.Data.List.Basic

/-! The part of the JSON grammar that has arrays, objects and strings without escapes. -/
namespace Sfup

inductive Json where
  | string (chars : List Char)
  | array (items : List Json)
  | object (members : List (List Char × Json))

namespace Json

def Plain (c : Char) : Prop := c ≠ '"' ∧ c ≠ '\\' ∧ 0x20 ≤ c.toNat

def Blank (text : List Char) : Prop := ∀ c ∈ text, c = ' ' ∨ c = '\t' ∨ c = '\n' ∨ c = '\r'

theorem plain_of_isAlphanum {c : Char} (h : c.isAlphanum) : Plain c := by
  have hlow : 48 ≤ c.toNat := by
    change ((decide (c.val ≥ 65 ∧ c.val ≤ 90) || (decide (c.val ≥ 97) && decide (c.val ≤ 122))) ||
      (decide (c.val ≥ 48) && decide (c.val ≤ 57))) = true at h
    simp only [Bool.or_eq_true, Bool.and_eq_true, decide_eq_true_eq, ge_iff_le, UInt32.le_iff_toNat_le,
      UInt32.reduceToNat] at h
    change 48 ≤ c.val.toNat
    omega
  refine ⟨?_, ?_, by omega⟩
  · rintro rfl
    exact absurd h (by decide)
  · rintro rfl
    exact absurd h (by decide)

variable {α : Type}

/-- A list of texts with a comma between any two, and white space around each. -/
inductive Separated (R : α → List Char → Prop) : List α → List Char → Prop
  | single {a : α} {text before after : List Char} (hb : Blank before) (h : R a text) (ha : Blank after) :
    Separated R [a] (before ++ text ++ after)
  | cons {a : α} {as : List α} {text before after rest : List Char} (hb : Blank before) (h : R a text)
    (ha : Blank after) (hrest : Separated R as rest) : Separated R (a :: as) (before ++ text ++ after ++ ',' :: rest)

section Lists
variable {R : α → List Char → Prop} {a : α} {as : List α} {text rest space : List Char}

theorem Blank.append {space' : List Char} (h : Blank space) (h' : Blank space') : Blank (space ++ space') :=
  List.forall_mem_append.mpr ⟨h, h'⟩

theorem Separated.blank (hb : Blank space) (h : Separated R as text) : Separated R as (space ++ text) := by
  cases h with
  | single hb' ha hafter =>
    rw [← List.append_assoc, ← List.append_assoc]
    exact .single (hb.append hb') ha hafter
  | cons hb' ha hafter hrest =>
    rw [← List.append_assoc, ← List.append_assoc, ← List.append_assoc]
    exact .cons (hb.append hb') ha hafter hrest

end Lists

end Json
end Sfup
