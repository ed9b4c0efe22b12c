import Mathlib.Order.Basic
import Mathlib.Data.Nat.Init
import Mathlib.Data.Int.Init

/-! Loops that hand what is left of an input to somebody else, who says how much of it was used. -/
namespace Sfup.Drain

variable {α σ ρ : Type*}

/-- The answers after the first one. -/
def rest (answers : ℕ → α) : ℕ → α := fun n => answers (n + 1)

/-- `while (size > 0)`: an answer ends the loop with a result, or leaves a state, and what was used is taken
off. Without a result the loop leaves its last state. -/
def loop (turn : σ → α → ρ ⊕ σ) (used : α → ℤ) : ℕ → (ℕ → α) → ℤ → σ → Option (ρ ⊕ σ)
  | 0, _, size, s => if 0 < size then none else some (.inr s)
  | fuel + 1, answers, size, s =>
    if 0 < size then
      match turn s (answers 0) with
      | .inl r => some (.inl r)
      | .inr s => loop turn used fuel (rest answers) (size - used (answers 0)) s
    else some (.inr s)

/-- The call with number `k` is made: there is something left, and no answer before it has ended the loop. -/
def Asked (stops : α → Prop) (used : α → ℤ) : (ℕ → α) → ℤ → ℕ → Prop
  | _, size, 0 => 0 < size
  | answers, size, k + 1 =>
    0 < size ∧ ¬ stops (answers 0) ∧ Asked stops used (rest answers) (size - used (answers 0)) k

variable {turn : σ → α → ρ ⊕ σ} {used : α → ℤ} {stops : α → Prop} {answers : ℕ → α} {size : ℤ} {s : σ}

theorem loop_of_le (fuel : ℕ) (h : size ≤ 0) : loop turn used fuel answers size s = some (.inr s) := by
  cases fuel <;> exact if_neg (Int.not_lt.mpr h)

theorem Asked.pos {k : ℕ} (h : Asked stops used answers size k) : 0 < size := by
  cases k with
  | zero => exact h
  | succ k => exact h.1

theorem Asked.succ {k : ℕ} (h : Asked stops used answers size k) (hstops : ¬ stops (answers k))
    (hused : used (answers k) ≤ 0) : Asked stops used answers size (k + 1) := by
  induction k generalizing answers size with
  | zero =>
    have hpos : 0 < size := h
    exact ⟨hpos, hstops, show 0 < size - used (answers 0) by omega⟩
  | succ k ih => exact ⟨h.1, h.2.1, ih h.2.2 hstops hused⟩

/-- The loop ends exactly if some call is not made. -/
theorem exists_loop_iff (hturn : ∀ s a, (turn s a).isLeft = true ↔ stops a) :
    (∃ fuel, (loop turn used fuel answers size s).isSome) ↔ ∃ k, ¬ Asked stops used answers size k := by
  constructor
  · rintro ⟨fuel, h⟩
    induction fuel generalizing answers size s with
    | zero =>
      refine ⟨0, fun hpos => ?_⟩
      rw [loop, if_pos (show 0 < size from hpos)] at h
      cases h
    | succ fuel ih =>
      by_cases hpos : 0 < size
      · rw [loop, if_pos hpos] at h
        cases ht : turn s (answers 0) with
        | inl r =>
          have hstops : stops (answers 0) := (hturn s _).mp (by rw [ht]; rfl)
          exact ⟨1, fun hasked => hasked.2.1 hstops⟩
        | inr s' =>
          rw [ht] at h
          obtain ⟨k, hk⟩ := ih h
          exact ⟨k + 1, fun hasked => hk hasked.2.2⟩
      · exact ⟨0, hpos⟩
  · rintro ⟨k, h⟩
    induction k generalizing answers size s with
    | zero => exact ⟨0, by rw [loop_of_le 0 (Int.not_lt.mp h)]; rfl⟩
    | succ k ih =>
      by_cases hpos : 0 < size
      · cases ht : turn s (answers 0) with
        | inl r => exact ⟨1, by rw [loop, if_pos hpos]; simp only [ht]; rfl⟩
        | inr s' =>
          have hstops : ¬ stops (answers 0) := fun hs => by
            have hleft := (hturn s _).mpr hs
            rw [ht] at hleft
            cases hleft
          have hrest : ¬ Asked stops used (rest answers) (size - used (answers 0)) k :=
            fun hasked => h ⟨hpos, hstops, hasked⟩
          obtain ⟨fuel, hfuel⟩ := ih hrest
          exact ⟨fuel + 1, by rw [loop, if_pos hpos]; simp only [ht]; exact hfuel⟩
      · exact ⟨0, by rw [loop_of_le 0 (Int.not_lt.mp hpos)]; rfl⟩

theorem Asked.of_le {j k : ℕ} (h : Asked stops used answers size k) (hle : j ≤ k) :
    Asked stops used answers size j := by
  induction j generalizing k answers size with
  | zero => exact h.pos
  | succ j ih =>
    obtain ⟨k, rfl⟩ := Nat.exists_eq_succ_of_ne_zero (n := k) (by omega)
    exact ⟨h.1, h.2.1, ih h.2.2 (by omega)⟩

theorem Asked.not_stops {k : ℕ} (h : Asked stops used answers size (k + 1)) : ¬ stops (answers k) := by
  induction k generalizing answers size with
  | zero => exact h.2.1
  | succ k ih => exact ih h.2.2

theorem used_rest (h : ∀ k, ∃ i ≥ k, 0 < used (answers i)) (k : ℕ) : ∃ i ≥ k, 0 < used (rest answers i) := by
  obtain ⟨i, hk, hi⟩ := h (k + 1)
  obtain ⟨j, rfl⟩ := Nat.exists_eq_succ_of_ne_zero (n := i) (by omega)
  exact ⟨j, by omega, hi⟩

/-- What is used again and again runs out. The induction is on the size and, within, on the number `i` of
the answer that uses something next. -/
theorem not_forall_asked (hused : ∀ a, ¬ stops a → 0 ≤ used a) {n i : ℕ} (hsize : size ≤ n)
    (hi : 0 < used (answers i)) (h : ∀ k, ∃ i ≥ k, 0 < used (answers i)) :
    ¬ ∀ k, Asked stops used answers size k := by
  induction n generalizing i answers size with
  | zero =>
    intro hall
    have hpos := (hall 0).pos
    omega
  | succ n ihn =>
    induction i generalizing answers size with
    | zero =>
      intro hall
      obtain ⟨j, -, hj⟩ := used_rest h 0
      exact ihn (by omega) hj (used_rest h) fun k => (hall (k + 1)).2.2
    | succ i ihi =>
      intro hall
      have hfirst := hused (answers 0) (hall 1).not_stops
      exact ihi (by omega) hi (used_rest h) fun k => (hall (k + 1)).2.2

/-- The loop ends exactly if, whenever a call is made, an answer from then on ends the loop or uses
something. -/
theorem exists_loop_iff_progress (hturn : ∀ s a, (turn s a).isLeft = true ↔ stops a)
    (hused : ∀ a, ¬ stops a → 0 ≤ used a) :
    (∃ fuel, (loop turn used fuel answers size s).isSome) ↔
      ∀ k, Asked stops used answers size k → ∃ i ≥ k, stops (answers i) ∨ 0 < used (answers i) := by
  rw [exists_loop_iff hturn]
  constructor
  · rintro ⟨k₀, hk₀⟩ k hk
    apply Classical.byContradiction
    intro hnone
    have hall : ∀ j, Asked stops used answers size (k + j) := by
      intro j
      induction j with
      | zero => exact hk
      | succ j ih =>
        have hno : ¬ (stops (answers (k + j)) ∨ 0 < used (answers (k + j))) :=
          fun hp => hnone ⟨k + j, Nat.le_add_right k j, hp⟩
        exact ih.succ (fun hs => hno (Or.inl hs)) (Int.not_lt.mp fun hp => hno (Or.inr hp))
    exact hk₀ ((hall k₀).of_le (by omega))
  · intro h
    apply Classical.byContradiction
    intro hnone
    have hall : ∀ k, Asked stops used answers size k := fun k =>
      Classical.byContradiction fun hk => hnone ⟨k, hk⟩
    have hpos : ∀ k, ∃ i ≥ k, 0 < used (answers i) := by
      intro k
      obtain ⟨i, hi, hp⟩ := h k (hall k)
      exact ⟨i, hi, hp.resolve_left (hall (i + 1)).not_stops⟩
    obtain ⟨i, -, hi⟩ := hpos 0
    exact not_forall_asked hused (n := size.toNat) (Int.self_le_toNat size) hi hpos hall

/-- A function around the loop that reads what only a turn assigns. -/
theorem exists_call_iff {δ : Type*} {call : ℕ → Option δ} {unassigned : δ → Bool}
    (hturn : ∀ s a, (turn s a).isLeft = true ↔ stops a) (hused : ∀ a, ¬ stops a → 0 ≤ used a)
    (hcall : ∀ fuel, (call fuel).isSome = (loop turn used fuel answers size s).isSome)
    (hassigned : ∀ fuel d, call fuel = some d → unassigned d = decide (size ≤ 0)) :
    (∃ fuel d, call fuel = some d ∧ unassigned d = false) ↔
      0 < size ∧ ∀ k, Asked stops used answers size k → ∃ i ≥ k, stops (answers i) ∨ 0 < used (answers i) := by
  rw [← exists_loop_iff_progress (s := s) hturn hused]
  constructor
  · rintro ⟨fuel, d, hd, hfalse⟩
    rw [hassigned fuel d hd, decide_eq_false_iff_not, Int.not_le] at hfalse
    refine ⟨hfalse, fuel, ?_⟩
    rw [← hcall, hd]
    rfl
  · rintro ⟨hpos, fuel, hsome⟩
    rw [← hcall] at hsome
    obtain ⟨d, hd⟩ := Option.isSome_iff_exists.mp hsome
    refine ⟨fuel, d, hd, ?_⟩
    rw [hassigned fuel d hd]
    exact decide_eq_false (Int.not_le.mpr hpos)

/-! ## How the loop ends -/

variable {fuel : ℕ}

/-- A result is that of a call that was made. -/
theorem exists_asked_of_inl {r : ρ} (hturn : ∀ s a, (turn s a).isLeft = true ↔ stops a)
    (h : loop turn used fuel answers size s = some (.inl r)) :
    ∃ k s', Asked stops used answers size k ∧ turn s' (answers k) = .inl r := by
  induction fuel generalizing answers size s with
  | zero =>
    rw [loop] at h
    split_ifs at h
    cases h
  | succ fuel ih =>
    by_cases hpos : 0 < size
    · rw [loop, if_pos hpos] at h
      cases ht : turn s (answers 0) with
      | inl r' =>
        rw [ht] at h
        cases h
        exact ⟨0, s, hpos, ht⟩
      | inr s' =>
        rw [ht] at h
        obtain ⟨k, s'', hk, hr⟩ := ih h
        refine ⟨k + 1, s'', ⟨hpos, fun hs => ?_, hk⟩, hr⟩
        have hleft := (hturn s _).mpr hs
        rw [ht] at hleft
        cases hleft
    · rw [loop_of_le _ (Int.not_lt.mp hpos)] at h
      cases h

/-- The first answer that ends the loop decides its result. -/
theorem eq_inl_of_asked {k : ℕ} {r : ρ} {x : ρ ⊕ σ} (hturn : ∀ s a, (turn s a).isLeft = true ↔ stops a)
    (hk : Asked stops used answers size k) (hr : ∀ s, turn s (answers k) = .inl r)
    (h : loop turn used fuel answers size s = some x) : x = .inl r := by
  induction k generalizing fuel answers size s with
  | zero =>
    have hpos : 0 < size := hk
    cases fuel with
    | zero =>
      rw [loop, if_pos hpos] at h
      cases h
    | succ fuel =>
      rw [loop, if_pos hpos, hr] at h
      exact (Option.some.inj h).symm
  | succ k ih =>
    obtain ⟨hpos, hstops, hk⟩ := hk
    cases fuel with
    | zero =>
      rw [loop, if_pos hpos] at h
      cases h
    | succ fuel =>
      cases ht : turn s (answers 0) with
      | inl r' => exact absurd ((hturn s _).mp (by rw [ht]; rfl)) hstops
      | inr s' =>
        rw [loop, if_pos hpos, ht] at h
        exact ih hk hr h

/-- A state that is left at the end is the first one, for an input with nothing in it, or one left by a call. -/
theorem state_of_inr {P : σ → Prop} {s' : σ} (hP : ∀ s a s', turn s a = .inr s' → P s')
    (h : loop turn used fuel answers size s = some (.inr s')) : size ≤ 0 ∧ s' = s ∨ P s' := by
  induction fuel generalizing answers size s with
  | zero =>
    rw [loop] at h
    split_ifs at h with hpos
    cases h
    exact Or.inl ⟨Int.not_lt.mp hpos, rfl⟩
  | succ fuel ih =>
    by_cases hpos : 0 < size
    · cases ht : turn s (answers 0) with
      | inl r =>
        rw [loop, if_pos hpos, ht] at h
        cases h
      | inr s₁ =>
        rw [loop, if_pos hpos, ht] at h
        rcases ih h with ⟨-, rfl⟩ | hs
        · exact Or.inr (hP s (answers 0) _ ht)
        · exact Or.inr hs
    · rw [loop_of_le _ (Int.not_lt.mp hpos)] at h
      cases h
      exact Or.inl ⟨Int.not_lt.mp hpos, rfl⟩

end Sfup.Drain
