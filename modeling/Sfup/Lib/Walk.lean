import Sfup.Lib.Memory

/-! Walks over blocks that carry their own length: the length of a block is read, the block is handled, and
the walk goes on behind it while the end of the buffer is not reached. -/
namespace Sfup.Walk

variable {σ : Type*}

/-- The blocks of an unchanging memory from `p` on. The first is not checked against the end. -/
def blocks (size : Mem → ℕ → ℕ) (m : Mem) (len : ℕ) : ℕ → ℕ → List ℕ
  | 0, _ => []
  | fuel + 1, p => p :: if p + size m p < len then blocks size m len fuel (p + size m p) else []

def loop (size : Mem → ℕ → ℕ) (body : σ → Mem → ℕ → σ × Mem) (len : ℕ) : ℕ → σ → Mem → ℕ → σ × Mem
  | 0, s, m, _ => (s, m)
  | fuel + 1, s, m, p =>
    let next := body s m p
    if p + size m p < len then loop size body len fuel next.1 next.2 (p + size m p) else next

/-- The blocks that the loop handles, each with the state and the memory before it. -/
def visits (size : Mem → ℕ → ℕ) (body : σ → Mem → ℕ → σ × Mem) (len : ℕ) :
    ℕ → σ → Mem → ℕ → List (σ × Mem × ℕ)
  | 0, _, _, _ => []
  | fuel + 1, s, m, p =>
    let next := body s m p
    (s, m, p) :: if p + size m p < len then visits size body len fuel next.1 next.2 (p + size m p) else []

/-- The blocks at `ps` handled in order, each with the state and the memory before it. -/
def along (body : σ → Mem → ℕ → σ × Mem) : σ → Mem → List ℕ → List (σ × Mem × ℕ)
  | _, _, [] => []
  | s, m, p :: ps => (s, m, p) :: along body (body s m p).1 (body s m p).2 ps

section Run
variable {size : Mem → ℕ → ℕ} {body : σ → Mem → ℕ → σ × Mem} {len fuel : ℕ} {s : σ} {m m' : Mem} {p q : ℕ}

theorem loop_succ (fuel : ℕ) : loop size body len (fuel + 1) s m p = if p + size m p < len then
    loop size body len fuel (body s m p).1 (body s m p).2 (p + size m p) else body s m p := rfl

theorem le_of_mem_blocks (h : q ∈ blocks size m len fuel p) : p ≤ q := by
  induction fuel generalizing p with
  | zero => cases h
  | succ fuel ih =>
    rcases List.mem_cons.mp h with rfl | h
    · exact le_rfl
    · split_ifs at h
      · have := ih h
        omega
      · cases h

/-- The blocks depend only on the bytes from `p` on, if every length does. -/
theorem blocks_congr (hsize : ∀ {m m' : Mem} {p : ℕ}, (∀ i, p ≤ i → m i = m' i) → size m p = size m' p)
    (h : ∀ i, p ≤ i → m i = m' i) : blocks size m len fuel p = blocks size m' len fuel p := by
  induction fuel generalizing p with
  | zero => rfl
  | succ fuel ih =>
    simp only [blocks]
    rw [hsize h, ih fun i hi => h i (by omega)]

/-- A step invariant under a condition holds behind a loop whose visits all meet the condition. -/
theorem loop_invariant_of_visits {I : σ → Prop} {C : σ → Mem → ℕ → Prop}
    (hstep : ∀ s m p, I s → C s m p → I (body s m p).1) (h : I s)
    (hc : ∀ v ∈ visits size body len fuel s m p, C v.1 v.2.1 v.2.2) :
    I (loop size body len fuel s m p).1 := by
  induction fuel generalizing s m p with
  | zero => exact h
  | succ fuel ih =>
    have hfirst := hstep s m p h (hc (s, m, p) List.mem_cons_self)
    simp only [loop]
    split_ifs with hlt
    · apply ih hfirst
      intro v hv
      apply hc v (List.mem_cons_of_mem _ _)
      rw [if_pos hlt]
      exact hv
    · exact hfirst

/-- If a walk visits the blocks of a memory, its first block has the length that it has there. -/
theorem size_eq_of_visits {first : Mem} (hpos : ∀ m p, 0 < size m p) (hfuel : len < p + (fuel + 1))
    (hfirst : p + size first p ≤ len) (hm : p + size m p ≤ len)
    (h : (visits size body len (fuel + 1) s m p).map (·.2.2) = blocks size first len (fuel + 1) p) :
    size m p = size first p := by
  have hposm := hpos m p
  have hposf := hpos first p
  obtain ⟨k, rfl⟩ := Nat.exists_eq_add_one_of_ne_zero (show fuel ≠ 0 by omega)
  simp only [visits, blocks, List.map_cons, List.cons.injEq, true_and] at h
  by_cases hlt : p + size m p < len <;> by_cases hlt' : p + size first p < len
  · rw [if_pos hlt, if_pos hlt'] at h
    exact Nat.add_left_cancel (List.cons.inj h).1
  · rw [if_pos hlt, if_neg hlt'] at h
    exact absurd h (List.cons_ne_nil _ _)
  · rw [if_neg hlt, if_pos hlt'] at h
    exact absurd h.symm (List.cons_ne_nil _ _)
  · omega

/-- A walk that rewrites its memory visits the blocks of the memory it started from, all of them good and none behind the
end, exactly if every one of these blocks is found with its first length and good. -/
theorem visits_iff_along {first : Mem} {good : Mem → ℕ → Prop} (hpos : ∀ m p, 0 < size m p) (hfuel : len < p + fuel)
    (hends : ∀ q ∈ blocks size first len fuel p, q + size first q ≤ len) :
    ((visits size body len fuel s m p).map (·.2.2) = blocks size first len fuel p ∧
      ∀ v ∈ visits size body len fuel s m p, v.2.2 + size v.2.1 v.2.2 ≤ len ∧ good v.2.1 v.2.2) ↔
    ∀ v ∈ along body s m (blocks size first len fuel p), size v.2.1 v.2.2 = size first v.2.2 ∧ good v.2.1 v.2.2 := by
  induction fuel generalizing s m p with
  | zero => simp [visits, blocks, along]
  | succ fuel ih =>
    have hend := hends p List.mem_cons_self
    -- Given the same length, both sides go on at the same block.
    have hiff (hs : size m p = size first p) :
        ((visits size body len (fuel + 1) s m p).map (·.2.2) = blocks size first len (fuel + 1) p ∧
          ∀ v ∈ visits size body len (fuel + 1) s m p, v.2.2 + size v.2.1 v.2.2 ≤ len ∧ good v.2.1 v.2.2) ↔
        ∀ v ∈ along body s m (blocks size first len (fuel + 1) p),
          size v.2.1 v.2.2 = size first v.2.2 ∧ good v.2.1 v.2.2 := by
      simp only [visits, blocks, along, List.map_cons, List.forall_mem_cons, hs, hend, List.cons.injEq, true_and]
      by_cases hlt : p + size first p < len
      · have hp := hpos first p
        simp only [blocks, if_pos hlt, List.forall_mem_cons] at hends
        simp only [if_pos hlt]
        rw [← ih (by omega) hends.2, and_left_comm]
      · simp [hlt, along]
    constructor
    · intro h
      exact (hiff (size_eq_of_visits hpos hfuel hend (h.2 _ List.mem_cons_self).1 h.1)).mp h
    · intro h
      exact (hiff (h _ List.mem_cons_self).1).mpr h

theorem mem_of_mem_along {ps : List ℕ} {v : σ × Mem × ℕ} (h : v ∈ along body s m ps) : v.2.2 ∈ ps := by
  induction ps generalizing s m with
  | nil => cases h
  | cons p ps ih =>
    rcases List.mem_cons.mp h with rfl | h
    · exact List.mem_cons_self
    · exact List.mem_cons_of_mem p (ih h)

section Read
variable (hread : ∀ s m p, (body s m p).2 = m)
include hread

/-- A body that does not write finds every block as it was. -/
theorem along_of_read (s : σ) (ps : List ℕ) : (along body s m ps).map (·.2) = ps.map fun p => (m, p) := by
  induction ps generalizing s with
  | nil => rfl
  | cons p ps ih => rw [along, List.map_cons, List.map_cons, hread, ih]

theorem visits_of_read (s : σ) :
    (visits size body len fuel s m p).map (·.2) = (blocks size m len fuel p).map fun q => (m, q) := by
  induction fuel generalizing s p with
  | zero => rfl
  | succ fuel ih =>
    simp only [visits, blocks, List.map_cons, hread]
    split_ifs
    · rw [ih]
    · rfl

end Read

/-- A loop that does not write is a fold over the blocks of its memory. -/
theorem loop_eq_foldl (f : σ → Mem → ℕ → σ) (s : σ) :
    (loop size (fun s m p => (f s m p, m)) len fuel s m p).1 =
      (blocks size m len fuel p).foldl (fun s q => f s m q) s := by
  induction fuel generalizing s p with
  | zero => rfl
  | succ fuel ih =>
    simp only [loop, blocks, List.foldl_cons]
    split_ifs
    · exact ih (f s m p)
    · rfl

/-- No more blocks than fit before the end, and the one that reaches it. -/
theorem length_blocks_le {n : ℕ} (hsize : ∀ p, n ≤ size m p) :
    n * (blocks size m len fuel p).length ≤ len - p + n := by
  induction fuel generalizing p with
  | zero => simp [blocks]
  | succ fuel ih =>
    simp only [blocks, List.length_cons]
    split_ifs with hlt
    · have hp := hsize p
      have hrest := ih (p := p + size m p)
      rw [Nat.mul_succ]
      omega
    · simp

/-- What only some blocks change is behind the loop as the last of them left it. -/
theorem loop_last {τ : Type*} (π : σ → τ) {C : Mem → ℕ → Bool}
    (hkeep : ∀ s m p, C m p = false → π (body s m p).1 = π s) (s : σ) (m : Mem) (p : ℕ) :
    π (loop size body len fuel s m p).1 = (((visits size body len fuel s m p).filter fun v => C v.2.1 v.2.2).getLast?).elim
      (π s) fun v => π (body v.1 v.2.1 v.2.2).1 := by
  induction fuel generalizing s m p with
  | zero => rfl
  | succ fuel ih =>
    have hrest : π (loop size body len (fuel + 1) s m p).1 = (((if p + size m p < len then
        visits size body len fuel (body s m p).1 (body s m p).2 (p + size m p) else []).filter
          fun v => C v.2.1 v.2.2).getLast?).elim (π (body s m p).1) fun v => π (body v.1 v.2.1 v.2.2).1 := by
      rw [loop_succ]
      split_ifs
      · exact ih _ _ _
      · rfl
    rw [hrest, visits, List.filter_cons]
    generalize (if p + size m p < len then visits size body len fuel (body s m p).1 (body s m p).2 (p + size m p)
      else []).filter (fun v => C v.2.1 v.2.2) = rest
    cases hC : C m p with
    | true =>
      rw [if_pos rfl, List.getLast?_cons]
      cases rest.getLast? <;> rfl
    | false => rw [if_neg (by decide), hkeep s m p hC]

section Local
variable {good : Mem → ℕ → Prop} {f : Mem → ℕ → Mem} {i : ℕ}
  (hbelow : ∀ m p i, i < p → f m p i = m i)

include hbelow in
theorem loop_below (h : i < p) : (loop size (fun _ m p => ((), f m p)) len fuel () m p).2 i = m i := by
  induction fuel generalizing m p with
  | zero => rfl
  | succ fuel ih =>
    rw [loop_succ]
    split_ifs
    · exact (ih (by omega)).trans (hbelow m p i h)
    · exact hbelow m p i h

variable (hsize : ∀ {m m' : Mem} {p : ℕ}, (∀ i, p ≤ i → m i = m' i) → size m p = size m' p)
  (hgood : ∀ {m m' : Mem} {p : ℕ}, (∀ i, p ≤ i → m i = m' i) → (good m p ↔ good m' p))
  (hkept : ∀ m p, good m p → ∀ i, p + size m p ≤ i → f m p i = m i)
  (hlocal : ∀ {m m' : Mem} {p : ℕ}, (∀ i, p ≤ i → m i = m' i) → ∀ i, p ≤ i → f m p i = f m' p i)
include hbelow hsize hgood hkept hlocal

/-- If a block is changed by what stands from it on and only inside, the walk leaves each block as if it were the only
one, and all else as it was. -/
theorem loop_local (h : ∀ q ∈ blocks size m len fuel p, good m q) :
    (∀ q ∈ blocks size m len fuel p, q ≤ i → i < q + size m q →
      (loop size (fun _ m p => ((), f m p)) len fuel () m p).2 i = f m q i) ∧
    ((∀ q ∈ blocks size m len fuel p, ¬ (q ≤ i ∧ i < q + size m q)) →
      (loop size (fun _ m p => ((), f m p)) len fuel () m p).2 i = m i) := by
  induction fuel generalizing m p with
  | zero => exact ⟨fun q hq => absurd hq List.not_mem_nil, fun _ => rfl⟩
  | succ fuel ih =>
    have hrest := hkept m p (h p List.mem_cons_self)
    have hfirst : (∀ q ∈ blocks size m len (fuel + 1) p, ¬ (q ≤ i ∧ i < q + size m q)) → f m p i = m i := by
      intro hout
      have hp := hout p List.mem_cons_self
      by_cases hlt : i < p
      · exact hbelow m p i hlt
      · exact hrest i (by omega)
    rw [loop_succ]
    by_cases hlt : p + size m p < len
    · simp only [blocks, if_pos hlt] at h hfirst ⊢
      have hblocks : blocks size (f m p) len fuel (p + size m p) = blocks size m len fuel (p + size m p) :=
        blocks_congr hsize hrest
      have hagree : ∀ q ∈ blocks size m len fuel (p + size m p), ∀ i, q ≤ i → f m p i = m i :=
        fun q hq i hi => hrest i ((le_of_mem_blocks hq).trans hi)
      have hnext := ih (m := f m p) (p := p + size m p) fun q hq => by
        rw [hblocks] at hq
        exact (hgood (hagree q hq)).mpr (h q (List.mem_cons_of_mem _ hq))
      rw [hblocks] at hnext
      constructor
      · intro q hq hle hsz
        rcases List.mem_cons.mp hq with rfl | hq
        · exact loop_below hbelow hsz
        · rw [hnext.1 q hq hle (by rwa [hsize (hagree q hq)])]
          exact hlocal (hagree q hq) i hle
      · intro hout
        rw [hnext.2, hfirst hout]
        intro q hq
        rw [hsize (hagree q hq)]
        exact hout q (List.mem_cons_of_mem _ hq)
    · simp only [blocks, if_neg hlt, List.mem_singleton] at hfirst ⊢
      exact ⟨fun q hq _ _ => by rw [hq], hfirst⟩

end Local

end Run

end Sfup.Walk
