import Sfup.Lib.Memory
import Mathlib.Data.List.Basic

/-! Stores of single bytes in the order in which they are made, and the blocks of lines that picture code
writes. -/
namespace Sfup.Mem

variable {m : Mem} {stores : List (ℕ × UInt8)} {a : ℕ} {v : UInt8}

def store (m : Mem) (stores : List (ℕ × UInt8)) : Mem :=
  stores.foldl (fun m s => Function.update m s.1 s.2) m

theorem store_cons (m : Mem) (s : ℕ × UInt8) (stores : List (ℕ × UInt8)) :
    m.store (s :: stores) = store (Function.update m s.1 s.2) stores := rfl

theorem store_of_notMem (h : ∀ v, (a, v) ∉ stores) : m.store stores a = m a := by
  induction stores generalizing m with
  | nil => rfl
  | cons s stores ih =>
    have hs : a ≠ s.1 := by
      rintro rfl
      exact h s.2 List.mem_cons_self
    rw [store_cons, ih fun v hv => h v (List.mem_cons_of_mem s hv), Function.update_of_ne hs]

/-- If the stores to an address agree, their value is there afterwards. -/
theorem store_of_mem (h : (a, v) ∈ stores) (hv : ∀ v', (a, v') ∈ stores → v' = v) : m.store stores a = v := by
  induction stores generalizing m with
  | nil => cases h
  | cons s stores ih =>
    rw [store_cons]
    by_cases hlater : ∃ v', (a, v') ∈ stores
    · obtain ⟨v', h'⟩ := hlater
      obtain rfl := hv v' (List.mem_cons_of_mem s h')
      exact ih h' fun v'' h'' => hv v'' (List.mem_cons_of_mem s h'')
    · rw [store_of_notMem fun v' h' => hlater ⟨v', h'⟩]
      rcases List.mem_cons.mp h with rfl | h'
      · exact Function.update_self _ _ _
      · exact absurd ⟨v, h'⟩ hlater

def block (lines length : ℕ) (byte : ℕ → ℕ → Option (ℕ × UInt8)) : List (ℕ × UInt8) :=
  (List.range lines).flatMap fun i => (List.range length).filterMap (byte i)

variable {lines length : ℕ} {byte : ℕ → ℕ → Option (ℕ × UInt8)} {s : ℕ × UInt8}

theorem mem_block : s ∈ block lines length byte ↔ ∃ i < lines, ∃ j < length, byte i j = some s := by
  simp only [block, List.mem_flatMap, List.mem_filterMap, List.mem_range]

/-- The addresses that are stored to. -/
def Stored (stores : List (ℕ × UInt8)) (a : ℕ) : Prop := ∃ v, (a, v) ∈ stores

theorem not_stored_nil : ¬ Stored [] a := fun ⟨_, hv⟩ => absurd hv List.not_mem_nil

theorem stored_append {stores' : List (ℕ × UInt8)} :
    Stored (stores ++ stores') a ↔ Stored stores a ∨ Stored stores' a := by
  simp only [Stored, List.mem_append, exists_or]

/-- Lines without a gap between them fill a range. -/
theorem stored_block_dense {dst : ℕ} {src : ℕ → ℕ → UInt8} :
    Stored (block lines length fun i j => some (dst + i * length + j, src i j)) a ↔
      dst ≤ a ∧ a < dst + lines * length := by
  constructor
  · rintro ⟨v, hv⟩
    obtain ⟨i, hi, j, hj, he⟩ := mem_block.mp hv
    obtain ⟨rfl, -⟩ := Prod.mk.inj (Option.some.inj he)
    have hline : (i + 1) * length ≤ lines * length := Nat.mul_le_mul_right length hi
    rw [Nat.add_mul, Nat.one_mul] at hline
    omega
  · rintro ⟨hlo, hhi⟩
    have hpos : 0 < length := by
      rcases Nat.eq_zero_or_pos length with rfl | hpos
      · omega
      · exact hpos
    have hline : (a - dst) / length < lines := Nat.div_lt_of_lt_mul (by rw [Nat.mul_comm]; omega)
    have hdiv := Nat.div_add_mod (a - dst) length
    rw [Nat.mul_comm] at hdiv
    refine ⟨src ((a - dst) / length) ((a - dst) % length),
      mem_block.mpr ⟨_, hline, _, Nat.mod_lt (a - dst) hpos, ?_⟩⟩
    congr 2
    omega

theorem store_append {stores' : List (ℕ × UInt8)} : m.store (stores ++ stores') = (m.store stores).store stores' :=
  List.foldl_append

theorem store_of_not_stored (h : ¬ Stored stores a) : m.store stores a = m a :=
  store_of_notMem fun v hv => h ⟨v, hv⟩

theorem block_congr {byte' : ℕ → ℕ → Option (ℕ × UInt8)} (h : ∀ i < lines, ∀ j < length, byte i j = byte' i j) :
    block lines length byte = block lines length byte' := by
  refine List.flatMap_congr fun i hi => List.filterMap_congr fun j hj => ?_
  exact h i (List.mem_range.mp hi) j (List.mem_range.mp hj)

/-! ## Rectangles -/

/-- The stores to the selected addresses of a rectangle of `W × H` at `(X, Y)`, in lines of `w` from `dst` on. -/
def rectangle (dst w X Y W H : ℕ) (selected : ℕ → Bool) (pixel : ℕ → ℕ → UInt8) : List (ℕ × UInt8) :=
  block H W fun i j =>
    let a := dst + (Y + i) * w + (X + j)
    if selected a then some (a, pixel i j) else none

section Rectangle
variable {dst w h X Y W H : ℕ} {selected : ℕ → Bool} {pixel : ℕ → ℕ → UInt8}

theorem mem_rectangle : (a, v) ∈ rectangle dst w X Y W H selected pixel ↔
    selected a = true ∧ ∃ i < H, ∃ j < W, a = dst + (Y + i) * w + (X + j) ∧ v = pixel i j := by
  rw [rectangle, mem_block]
  constructor
  · rintro ⟨i, hi, j, hj, he⟩
    by_cases hs : selected (dst + (Y + i) * w + (X + j)) = true
    · rw [if_pos hs] at he
      cases he
      exact ⟨hs, i, hi, j, hj, rfl, rfl⟩
    · rw [if_neg hs] at he
      cases he
  · rintro ⟨hs, i, hi, j, hj, rfl, rfl⟩
    exact ⟨i, hi, j, hj, if_pos hs⟩

/-- A rectangle that does not exceed its lines is stored among them. -/
theorem range_of_rectangle (hX : X + W ≤ w) (hY : Y + H ≤ h)
    (hs : Stored (rectangle dst w X Y W H selected pixel) a) : dst ≤ a ∧ a < dst + h * w := by
  obtain ⟨v, hv⟩ := hs
  obtain ⟨-, i, hi, j, hj, rfl, -⟩ := mem_rectangle.mp hv
  have hline : (Y + i + 1) * w ≤ h * w := Nat.mul_le_mul_right w (by omega)
  rw [Nat.add_mul (Y + i), Nat.one_mul] at hline
  omega

/-- What the lines hold afterwards. -/
theorem store_rectangle (hX : X + W ≤ w) {x y : ℕ} (hx : x < w) :
    m.store (rectangle dst w X Y W H selected pixel) (dst + y * w + x) =
      if (X ≤ x ∧ x < X + W ∧ Y ≤ y ∧ y < Y + H) ∧ selected (dst + y * w + x) = true then pixel (y - Y) (x - X)
      else m (dst + y * w + x) := by
  have hunique {i j : ℕ} (hj : j < W) (he : dst + y * w + x = dst + (Y + i) * w + (X + j)) :
      y = Y + i ∧ x = X + j := by
    have hpos : 0 < w := by omega
    have hsame : x + w * y = X + j + w * (Y + i) := by
      rw [Nat.mul_comm w y, Nat.mul_comm w (Y + i)]
      omega
    have hdiv := congrArg (· / w) hsame
    have hmod := congrArg (· % w) hsame
    simp only [Nat.add_mul_div_left _ _ hpos, Nat.add_mul_mod_self_left, Nat.div_eq_of_lt hx,
      Nat.div_eq_of_lt (show X + j < w by omega), Nat.mod_eq_of_lt hx,
      Nat.mod_eq_of_lt (show X + j < w by omega)] at hdiv hmod
    omega
  by_cases hin : (X ≤ x ∧ x < X + W ∧ Y ≤ y ∧ y < Y + H) ∧ selected (dst + y * w + x) = true
  · rw [if_pos hin]
    obtain ⟨⟨hXx, hxW, hYy, hyH⟩, hs⟩ := hin
    refine store_of_mem (mem_rectangle.mpr ⟨hs, y - Y, by omega, x - X, by omega, ?_, rfl⟩) fun v' hv' => ?_
    · rw [Nat.add_sub_cancel' hXx, Nat.add_sub_cancel' hYy]
    · obtain ⟨-, i, -, j, hj, he, rfl⟩ := mem_rectangle.mp hv'
      obtain ⟨rfl, rfl⟩ := hunique hj he
      rw [Nat.add_sub_cancel_left, Nat.add_sub_cancel_left]
  · rw [if_neg hin]
    refine store_of_notMem fun v hv => hin ?_
    obtain ⟨hs, i, hi, j, hj, he, -⟩ := mem_rectangle.mp hv
    obtain ⟨rfl, rfl⟩ := hunique hj he
    exact ⟨⟨by omega, by omega, by omega, by omega⟩, hs⟩

end Rectangle

end Sfup.Mem
