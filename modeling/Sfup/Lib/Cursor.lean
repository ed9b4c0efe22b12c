import Sfup.Lib.Walk
import Mathlib.Algebra.Group.Nat.Defs

/-! Walks that count their place in a number of fixed width beside the pointer. The place wraps around and the pointer
does not, so that the two part if the place goes beyond its width. -/
namespace Sfup.Cursor

variable {w : ℕ}

/-- What `while (place < limit)` leaves, if it ends within `fuel` tests of its condition. -/
def loop (size : Mem → ℕ → ℕ) (body : Mem → ℕ → Mem) (limit : ℕ) : ℕ → BitVec w → ℕ → Mem → Option Mem
  | 0, _, _, _ => none
  | fuel + 1, place, p, m =>
    if place.toNat < limit then
      loop size body limit fuel (place + BitVec.ofNat w (size m p)) (p + size m p) (body m p)
    else some m

def visits (size : Mem → ℕ → ℕ) (body : Mem → ℕ → Mem) (limit : ℕ) : ℕ → BitVec w → ℕ → Mem → List (Mem × ℕ)
  | 0, _, _, _ => []
  | fuel + 1, place, p, m =>
    if place.toNat < limit then
      (m, p) :: visits size body limit fuel (place + BitVec.ofNat w (size m p)) (p + size m p) (body m p)
    else []

/-- The blocks of a walk whose place does not wrap around. -/
def plain (size : Mem → ℕ → ℕ) (body : Mem → ℕ → Mem) (stop fuel : ℕ) (m : Mem) (p : ℕ) : List (Mem × ℕ) :=
  (Walk.visits size (fun _ m p => ((), body m p)) stop fuel () m p).map (·.2)

section Run
variable {size : Mem → ℕ → ℕ} {body : Mem → ℕ → Mem} {limit base fuel : ℕ} {place : BitVec w} {m : Mem} {p : ℕ}

theorem plain_succ (stop fuel : ℕ) (m : Mem) (p : ℕ) : plain size body stop (fuel + 1) m p =
    (m, p) :: if p + size m p < stop then plain size body stop fuel (body m p) (p + size m p) else [] := by
  simp only [plain, Walk.visits, List.map_cons]
  split_ifs <;> rfl

theorem le_of_mem_visits {v : Mem × ℕ} (h : v ∈ visits size body limit fuel place p m) : p ≤ v.2 := by
  induction fuel generalizing place m p with
  | zero => cases h
  | succ fuel ih =>
    rw [visits] at h
    split_ifs at h
    · rcases List.mem_cons.mp h with rfl | h
      · exact le_rfl
      · exact (Nat.le_add_right p _).trans (ih h)
    · cases h

theorem mem_visits_cases {v : Mem × ℕ} (h : v ∈ visits size body limit fuel place p m) : v = (m, p) ∨
    ∃ k, v ∈ visits size body limit k (place + BitVec.ofNat w (size m p)) (p + size m p) (body m p) := by
  cases fuel with
  | zero => cases h
  | succ fuel =>
    rw [visits] at h
    split_ifs at h
    · exact (List.mem_cons.mp h).imp_right fun hrest => ⟨fuel, hrest⟩
    · cases h

theorem of_loop_eq_some {m' : Mem} {fuel' : ℕ} (h : loop size body limit fuel place p m = some m')
    (hle : fuel ≤ fuel') : loop size body limit fuel' place p m = some m' ∧
      visits size body limit fuel' place p m = visits size body limit fuel place p m := by
  induction fuel generalizing fuel' place m p with
  | zero => cases h
  | succ fuel ih =>
    obtain ⟨k, rfl⟩ : ∃ k, fuel' = k + 1 := ⟨fuel' - 1, by omega⟩
    rw [loop] at h
    rw [loop, visits, visits]
    split_ifs at h ⊢ with hlt
    · obtain ⟨hloop, hvisits⟩ := ih h (Nat.le_of_succ_le_succ hle)
      exact ⟨hloop, congrArg _ hvisits⟩
    · exact ⟨h, rfl⟩

theorem bounds_of_mem_plain {stop : ℕ} {v : Mem × ℕ} (hlt : p < stop) (h : v ∈ plain size body stop fuel m p) :
    p ≤ v.2 ∧ v.2 < stop := by
  induction fuel generalizing m p with
  | zero => cases h
  | succ fuel ih =>
    rw [plain_succ] at h
    rcases List.mem_cons.mp h with rfl | h
    · exact ⟨le_rfl, hlt⟩
    · split_ifs at h with hstop
      · have hrest := ih hstop h
        exact ⟨by omega, hrest.2⟩
      · cases h

theorem toNat_add_of_lt (hp : place.toNat + base = p) (h : p + size m p < 2 ^ w + base) :
    (place + BitVec.ofNat w (size m p)).toNat + base = p + size m p := by
  rw [BitVec.toNat_add, BitVec.toNat_ofNat, Nat.add_mod_mod, Nat.mod_eq_of_lt (by omega)]
  omega

/-- Without a wrap the loop handles the blocks of the plain walk. -/
theorem visits_eq_plain (hp : place.toNat + base = p) (hlt : p < limit + base)
    (h : ∀ v ∈ plain size body (limit + base) fuel m p, v.2 + size v.1 v.2 < 2 ^ w + base) :
    visits size body limit fuel place p m = plain size body (limit + base) fuel m p := by
  induction fuel generalizing place m p with
  | zero => rfl
  | succ fuel ih =>
    rw [plain_succ] at h ⊢
    have hfirst : p + size m p < 2 ^ w + base := h (m, p) List.mem_cons_self
    have hnext := toNat_add_of_lt hp hfirst
    rw [visits, if_pos (by omega)]
    congr 1
    split_ifs at h ⊢ with hstop
    · exact ih hnext hstop fun v hv => h v (List.mem_cons_of_mem _ hv)
    · cases fuel with
      | zero => rfl
      | succ fuel => rw [visits, if_neg (by omega)]

theorem loop_eq_some (hsize : ∀ m p, 0 < size m p) (hp : place.toNat + base = p) (hlt : p < limit + base)
    (hfuel : limit + base ≤ p + fuel)
    (h : ∀ v ∈ plain size body (limit + base) fuel m p, v.2 + size v.1 v.2 < 2 ^ w + base) :
    loop size body limit (fuel + 1) place p m =
      some (Walk.loop size (fun _ m p => ((), body m p)) (limit + base) fuel () m p).2 := by
  induction fuel generalizing place m p with
  | zero => omega
  | succ fuel ih =>
    have hpos := hsize m p
    rw [plain_succ] at h
    have hfirst : p + size m p < 2 ^ w + base := h (m, p) List.mem_cons_self
    have hnext := toNat_add_of_lt hp hfirst
    rw [loop, if_pos (by omega), Walk.loop_succ]
    split_ifs at h ⊢ with hstop
    · exact ih hnext hstop (by omega) fun v hv => h v (List.mem_cons_of_mem _ hv)
    · rw [loop, if_neg (by omega)]

theorem plain_subset (hsize : ∀ m p, 0 < size m p) {stop fuel' : ℕ} (hlt : p < stop) (hfuel : stop ≤ p + fuel') :
    plain size body stop fuel m p ⊆ plain size body stop fuel' m p := by
  induction fuel generalizing fuel' m p with
  | zero => exact List.nil_subset _
  | succ fuel ih =>
    obtain ⟨k, rfl⟩ : ∃ k, fuel' = k + 1 := ⟨fuel' - 1, by omega⟩
    have hpos := hsize m p
    rw [plain_succ, plain_succ]
    apply List.cons_subset_cons
    split_ifs with hstop
    · exact ih hstop (by omega)
    · exact List.nil_subset _

/-- A place that wraps around sends the pointer beyond its width: if no block of the loop is there, no place wraps. -/
theorem forall_plain_of_visits (hsize : ∀ m p, size m p ≤ 2 ^ w) (hp : place.toNat + base = p) (hlt : p < limit + base)
    (h : ∀ v ∈ visits size body limit (fuel + 1) place p m, v.2 < 2 ^ w + base) :
    ∀ v ∈ plain size body (limit + base) fuel m p, v.2 + size v.1 v.2 < 2 ^ w + base := by
  induction fuel generalizing place m p with
  | zero =>
    intro v hv
    cases hv
  | succ fuel ih =>
    rw [visits, if_pos (by omega)] at h
    have hrest := fun v hv => h v (List.mem_cons_of_mem _ hv)
    have hfirst : p + size m p < 2 ^ w + base := by
      by_contra hwrap
      have hs := hsize m p
      have hlow : (place + BitVec.ofNat w (size m p)).toNat < limit := by
        have hplace := place.isLt
        have hsum : place.toNat + size m p - 2 ^ w < 2 ^ w := by omega
        rw [BitVec.toNat_add, BitVec.toNat_ofNat, Nat.add_mod_mod, Nat.mod_eq_sub_mod (by omega), Nat.mod_eq_of_lt hsum]
        omega
      rw [visits, if_pos hlow] at hrest
      have hbad := hrest (body m p, p + size m p) List.mem_cons_self
      exact hwrap hbad
    rw [plain_succ, List.forall_mem_cons]
    refine ⟨hfirst, ?_⟩
    split_ifs with hstop
    · exact ih (toNat_add_of_lt hp hfirst) hstop hrest
    · intro v hv
      cases hv

/-- A limit that the place cannot hold is not reached. -/
theorem loop_of_le (h : 2 ^ w ≤ limit) : loop size body limit fuel place p m = none := by
  induction fuel generalizing place m p with
  | zero => rfl
  | succ fuel ih =>
    rw [loop, if_pos (place.isLt.trans_le h)]
    exact ih

end Run
end Sfup.Cursor
