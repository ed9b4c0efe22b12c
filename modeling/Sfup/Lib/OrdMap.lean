import Mathlib.Order.Lex
import Mathlib.Data.List.Lex
import Mathlib.Order.Lattice

/-! Finite maps as lists of entries in the order of their keys, the order in which they are walked. -/
namespace Sfup

structure OrdMap (κ ν : Type*) [LinearOrder κ] where
  entries : List (κ × ν)
  sorted : entries.Pairwise fun a b => a.1 < b.1

namespace OrdMap

variable {κ ν : Type*} [LinearOrder κ]

def empty : OrdMap κ ν := ⟨[], List.Pairwise.nil⟩

def insertEntry (k : κ) (v : ν) : List (κ × ν) → List (κ × ν)
  | [] => [(k, v)]
  | e :: es => if k < e.1 then (k, v) :: e :: es else if e.1 < k then e :: insertEntry k v es else (k, v) :: es

variable {k : κ} {v : ν} {es : List (κ × ν)}

theorem mem_insertEntry {x : κ × ν} (h : x ∈ insertEntry k v es) : x = (k, v) ∨ x ∈ es := by
  induction es with
  | nil => exact Or.inl (List.mem_singleton.mp h)
  | cons e es ih =>
    unfold insertEntry at h
    split_ifs at h with hlt hgt
    · exact List.mem_cons.mp h
    · rcases List.mem_cons.mp h with rfl | h
      · exact Or.inr List.mem_cons_self
      · exact (ih h).imp_right (List.mem_cons_of_mem e)
    · exact (List.mem_cons.mp h).imp_right (List.mem_cons_of_mem e)

theorem sorted_insertEntry (hs : es.Pairwise fun a b => a.1 < b.1) :
    (insertEntry k v es).Pairwise fun a b => a.1 < b.1 := by
  induction es with
  | nil => exact List.pairwise_singleton _ _
  | cons e es ih =>
    obtain ⟨he, hes⟩ := List.pairwise_cons.mp hs
    unfold insertEntry
    split_ifs with hlt hgt
    · refine List.pairwise_cons.mpr ⟨fun x hx => ?_, hs⟩
      rcases List.mem_cons.mp hx with rfl | hx
      · exact hlt
      · exact hlt.trans (he x hx)
    · refine List.pairwise_cons.mpr ⟨fun x hx => ?_, ih hes⟩
      rcases mem_insertEntry hx with rfl | hx
      · exact hgt
      · exact he x hx
    · have hk : k = e.1 := le_antisymm (not_lt.mp hgt) (not_lt.mp hlt)
      subst hk
      exact List.pairwise_cons.mpr ⟨he, hes⟩

/-- Assign to the entry of the key, which is made if there is none. -/
def set (m : OrdMap κ ν) (k : κ) (v : ν) : OrdMap κ ν :=
  ⟨insertEntry k v m.entries, sorted_insertEntry m.sorted⟩

section Find

def findEntry (k : κ) (es : List (κ × ν)) : Option ν := (es.find? fun e => e.1 = k).map (·.2)

def find? (m : OrdMap κ ν) (k : κ) : Option ν := findEntry k m.entries

theorem findEntry_cons (k : κ) (e : κ × ν) (es : List (κ × ν)) :
    findEntry k (e :: es) = if e.1 = k then some e.2 else findEntry k es := by
  unfold findEntry
  rw [List.find?_cons]
  by_cases h : e.1 = k <;> simp [h]

theorem findEntry_insertEntry (k k' : κ) (v : ν) (es : List (κ × ν)) :
    findEntry k' (insertEntry k v es) = if k = k' then some v else findEntry k' es := by
  induction es with
  | nil => rw [insertEntry, findEntry_cons]
  | cons e es ih =>
    unfold insertEntry
    by_cases hlt : k < e.1
    · rw [if_pos hlt, findEntry_cons]
    · rw [if_neg hlt]
      by_cases hgt : e.1 < k
      · rw [if_pos hgt, findEntry_cons, findEntry_cons, ih]
        by_cases hk : k = k'
        · rw [if_pos hk, if_pos hk, if_neg (hk ▸ hgt.ne)]
        · rw [if_neg hk, if_neg hk]
      · have he : k = e.1 := le_antisymm (not_lt.mp hgt) (not_lt.mp hlt)
        rw [if_neg hgt, findEntry_cons, findEntry_cons, ← he]
        split_ifs <;> rfl

@[simp] theorem find?_set (m : OrdMap κ ν) (k k' : κ) (v : ν) :
    (m.set k v).find? k' = if k = k' then some v else m.find? k' :=
  findEntry_insertEntry k k' v m.entries

theorem find?_foldl_set {xs : List (κ × ν)} {m : OrdMap κ ν}
    (h : (xs.foldl (fun m x => m.set x.1 x.2) m).find? k = some v) : (k, v) ∈ xs ∨ m.find? k = some v := by
  induction xs generalizing m with
  | nil => exact .inr h
  | cons x xs ih =>
    rcases ih h with hmem | hset
    · exact .inl (List.mem_cons_of_mem x hmem)
    · rw [find?_set] at hset
      split_ifs at hset with hk
      · obtain rfl := hk
        obtain rfl := Option.some.inj hset
        exact .inl List.mem_cons_self
      · exact .inr hset

theorem find?_foldl_set_of_not_mem {xs : List (κ × ν)} {m : OrdMap κ ν} (h : k ∉ xs.map (·.1)) :
    (xs.foldl (fun m x => m.set x.1 x.2) m).find? k = m.find? k := by
  induction xs generalizing m with
  | nil => rfl
  | cons x xs ih =>
    rw [List.map_cons, List.mem_cons, not_or] at h
    rw [List.foldl_cons, ih h.2, find?_set, if_neg (Ne.symm h.1)]

theorem find?_foldl_set_isSome {xs : List (κ × ν)} {m : OrdMap κ ν} (h : k ∈ xs.map (·.1)) :
    ((xs.foldl (fun m x => m.set x.1 x.2) m).find? k).isSome := by
  induction xs generalizing m with
  | nil => cases h
  | cons x xs ih =>
    by_cases hk : k ∈ xs.map (·.1)
    · exact ih hk
    · rw [List.map_cons, List.mem_cons, or_iff_left hk] at h
      rw [List.foldl_cons, find?_foldl_set_of_not_mem hk, find?_set, if_pos h.symm]
      rfl

theorem find?_foldl_set_of_mem {xs : List (κ × ν)} {m : OrdMap κ ν} (hnd : (xs.map (·.1)).Nodup) (h : (k, v) ∈ xs) :
    (xs.foldl (fun m x => m.set x.1 x.2) m).find? k = some v := by
  induction xs generalizing m with
  | nil => cases h
  | cons x xs ih =>
    obtain ⟨hx, hnd⟩ := List.nodup_cons.mp hnd
    rcases List.mem_cons.mp h with rfl | h
    · rw [List.foldl_cons, find?_foldl_set_of_not_mem hx, find?_set, if_pos rfl]
    · exact ih hnd h

theorem find?_eq_some_iff {m : OrdMap κ ν} : m.find? k = some v ↔ (k, v) ∈ m.entries := by
  obtain ⟨es, hs⟩ := m
  unfold find?
  induction es with
  | nil => simp [findEntry]
  | cons e es ih =>
    obtain ⟨he, hes⟩ := List.pairwise_cons.mp hs
    rw [findEntry_cons, List.mem_cons]
    split_ifs with hk
    · constructor
      · intro h
        exact Or.inl (Prod.ext hk.symm (Option.some.inj h).symm)
      · rintro (rfl | h)
        · rfl
        · exact absurd hk (he _ h).ne
    · constructor
      · exact fun h => Or.inr ((ih hes).mp h)
      · rintro (rfl | h)
        · exact absurd rfl hk
        · exact (ih hes).mpr h

/-- Make an entry for the key if there is none. -/
def touch (m : OrdMap κ ν) (k : κ) (v : ν) : OrdMap κ ν := if (m.find? k).isSome then m else m.set k v

theorem find?_touch (m : OrdMap κ ν) (k k' : κ) (v : ν) :
    (m.touch k v).find? k' = if k = k' then some ((m.find? k).getD v) else m.find? k' := by
  unfold touch
  cases h : m.find? k with
  | none => simp
  | some w =>
    by_cases hk : k = k'
    · subst hk
      simp [h]
    · simp [hk]

theorem find?_touch_isSome (m : OrdMap κ ν) (k k' : κ) (v : ν) (h : (m.find? k').isSome) :
    ((m.touch k v).find? k').isSome := by
  rw [find?_touch]
  split_ifs
  · rfl
  · exact h

theorem touch_touch (m : OrdMap κ ν) (k : κ) (v w : ν) : (m.touch k v).touch k w = m.touch k v := by
  rw [touch, if_pos]
  rw [find?_touch, if_pos rfl]
  rfl

def erase (m : OrdMap κ ν) (k : κ) : OrdMap κ ν := ⟨m.entries.filter fun e => e.1 ≠ k, m.sorted.filter _⟩

theorem findEntry_filter (k k' : κ) (es : List (κ × ν)) :
    findEntry k' (es.filter fun e => e.1 ≠ k) = if k = k' then none else findEntry k' es := by
  induction es with
  | nil => simp [findEntry]
  | cons e es ih =>
    rw [List.filter_cons, findEntry_cons]
    by_cases he : e.1 = k
    · rw [if_neg (by simpa using he), ih, he]
      split_ifs <;> rfl
    · rw [if_pos (by simpa using he), findEntry_cons, ih]
      by_cases hk : k = k'
      · rw [if_pos hk, if_pos hk, if_neg (hk ▸ he)]
      · rw [if_neg hk, if_neg hk]

@[simp] theorem find?_erase (m : OrdMap κ ν) (k k' : κ) :
    (m.erase k).find? k' = if k = k' then none else m.find? k' :=
  findEntry_filter k k' m.entries

end Find

section Map
variable {ρ : Type*} {f : κ → ν → Option (ρ × ν)} {es' : List (κ × ν)} {rs : List ρ}

def mapEntriesM (f : κ → ν → Option (ρ × ν)) : List (κ × ν) → Option (List ρ × List (κ × ν))
  | [] => some ([], [])
  | e :: es => (f e.1 e.2).bind fun p => (mapEntriesM f es).map fun q => (p.1 :: q.1, (e.1, p.2) :: q.2)

omit [LinearOrder κ] in
theorem mapEntriesM_cons_eq_some {e : κ × ν} {p : List ρ × List (κ × ν)} :
    mapEntriesM f (e :: es) = some p ↔
      ∃ r v rs es', f e.1 e.2 = some (r, v) ∧ mapEntriesM f es = some (rs, es') ∧ p = (r :: rs, (e.1, v) :: es') := by
  rw [mapEntriesM, Option.bind_eq_some_iff]
  constructor
  · rintro ⟨⟨r, v⟩, hf, h⟩
    obtain ⟨⟨rs, es'⟩, hes, rfl⟩ := Option.map_eq_some_iff.mp h
    exact ⟨r, v, rs, es', hf, hes, rfl⟩
  · rintro ⟨r, v, rs, es', hf, hes, rfl⟩
    exact ⟨(r, v), hf, by rw [hes]; rfl⟩

omit [LinearOrder κ] in
theorem keys_mapEntriesM (h : mapEntriesM f es = some (rs, es')) : es'.map (·.1) = es.map (·.1) := by
  induction es generalizing rs es' with
  | nil =>
    cases h
    rfl
  | cons e es ih =>
    obtain ⟨r, v, rs, es₁, -, hes, hp⟩ := mapEntriesM_cons_eq_some.mp h
    cases hp
    rw [List.map_cons, List.map_cons, ih hes]

theorem sorted_mapEntriesM (hs : es.Pairwise fun a b => a.1 < b.1) (h : mapEntriesM f es = some (rs, es')) :
    es'.Pairwise fun a b => a.1 < b.1 := by
  rw [← List.pairwise_map (R := (· < ·))] at hs ⊢
  rwa [keys_mapEntriesM h]

def mapM (f : κ → ν → Option (ρ × ν)) (m : OrdMap κ ν) : Option (List ρ × OrdMap κ ν) :=
  match h : mapEntriesM f m.entries with
  | none => none
  | some (rs, es) => some (rs, ⟨es, sorted_mapEntriesM m.sorted h⟩)

theorem mapM_eq_some {m m' : OrdMap κ ν} (h : m.mapM f = some (rs, m')) :
    mapEntriesM f m.entries = some (rs, m'.entries) := by
  unfold mapM at h
  split at h
  · cases h
  · rename_i hes
    cases h
    exact hes

omit [LinearOrder κ] in
theorem mapEntriesM_isSome_iff : (mapEntriesM f es).isSome ↔ ∀ e ∈ es, (f e.1 e.2).isSome := by
  induction es with
  | nil => simp [mapEntriesM]
  | cons e es ih =>
    rw [List.forall_mem_cons, ← ih, mapEntriesM]
    cases f e.1 e.2 with
    | none => simp
    | some p => cases mapEntriesM f es <;> simp

theorem mapM_isSome_iff {m : OrdMap κ ν} : (m.mapM f).isSome ↔ ∀ e ∈ m.entries, (f e.1 e.2).isSome := by
  rw [← mapEntriesM_isSome_iff]
  unfold mapM
  split
  · rename_i h
    simp [h]
  · rename_i h
    simp [h]

theorem findEntry_mapEntriesM (h : mapEntriesM f es = some (rs, es')) (hv : findEntry k es = some v) :
    ∃ r v', f k v = some (r, v') ∧ r ∈ rs ∧ findEntry k es' = some v' := by
  induction es generalizing rs es' with
  | nil => cases hv
  | cons e es ih =>
    obtain ⟨r, w, rs, es₁, hf, hes, hp⟩ := mapEntriesM_cons_eq_some.mp h
    cases hp
    rw [findEntry_cons] at hv
    split_ifs at hv with hk
    · cases hv
      subst hk
      exact ⟨r, w, hf, List.mem_cons_self, by rw [findEntry_cons, if_pos rfl]⟩
    · obtain ⟨r', v', hf', hr', hv'⟩ := ih hes hv
      exact ⟨r', v', hf', List.mem_cons_of_mem _ hr', by rw [findEntry_cons, if_neg hk, hv']⟩

theorem find?_mapM {m m' : OrdMap κ ν} (h : m.mapM f = some (rs, m')) (hv : m.find? k = some v) :
    ∃ r v', f k v = some (r, v') ∧ r ∈ rs ∧ m'.find? k = some v' :=
  findEntry_mapEntriesM (mapM_eq_some h) hv

omit [LinearOrder κ] in
theorem mem_outputs_mapEntriesM (h : mapEntriesM f es = some (rs, es')) {r : ρ} (hr : r ∈ rs) :
    ∃ e ∈ es, ∃ v', f e.1 e.2 = some (r, v') := by
  induction es generalizing rs es' with
  | nil =>
    cases h
    cases hr
  | cons e es ih =>
    obtain ⟨r', w, rs, es₁, hf, hes, hp⟩ := mapEntriesM_cons_eq_some.mp h
    cases hp
    rcases List.mem_cons.mp hr with rfl | hr
    · exact ⟨e, List.mem_cons_self, w, hf⟩
    · obtain ⟨e', he', v', hf'⟩ := ih hes hr
      exact ⟨e', List.mem_cons_of_mem e he', v', hf'⟩

theorem mem_outputs_mapM {m m' : OrdMap κ ν} (h : m.mapM f = some (rs, m')) {r : ρ} (hr : r ∈ rs) :
    ∃ e ∈ m.entries, ∃ v', f e.1 e.2 = some (r, v') :=
  mem_outputs_mapEntriesM (mapM_eq_some h) hr

end Map

end OrdMap
end Sfup
