import Mathlib.Data.List.Basic
import Mathlib.Data.List.Nodup

/-! Programs that can fail, seen through a projection of their state. -/
namespace Sfup

variable {σ τ ε ι : Type}

theorem ok_bind {α β : Type} (a : α) (f : α → Except ε β) : Except.ok a >>= f = f a := rfl

theorem bind_eq_ok {α β : Type} {x : Except ε α} {f : α → Except ε β} {r : β} :
    x >>= f = .ok r ↔ ∃ a, x = .ok a ∧ f a = .ok r := by
  cases x with
  | error e =>
    constructor
    · rintro ⟨⟩
    · rintro ⟨a, ⟨⟩, -⟩
  | ok a =>
    constructor
    · exact fun h => ⟨a, rfl, h⟩
    · rintro ⟨a', ⟨⟩, hf⟩
      exact hf

theorem exists_bind_eq_ok {α β : Type} {x : Except ε α} {f : α → Except ε β} {P : Prop}
    (h : ∀ a, (∃ b, f a = .ok b) ↔ P) : (∃ b, x >>= f = .ok b) ↔ (∃ a, x = .ok a) ∧ P := by
  simp only [bind_eq_ok]
  constructor
  · rintro ⟨b, a, hx, hf⟩
    exact ⟨⟨a, hx⟩, (h a).mp ⟨b, hf⟩⟩
  · rintro ⟨⟨a, hx⟩, hP⟩
    obtain ⟨b, hf⟩ := (h a).mpr hP
    exact ⟨b, a, hx, hf⟩

theorem exists_bind_pure {α β : Type} {x : Except ε α} {f : α → β} :
    (∃ b, (x >>= fun a => pure (f a)) = .ok b) ↔ ∃ a, x = .ok a :=
  (exists_bind_eq_ok fun a => iff_true_intro ⟨f a, rfl⟩).trans (and_iff_left trivial)

theorem map_eq_error {α β : Type} {x : Except ε α} {f : α → β} {e : ε} : x.map f = .error e ↔ x = .error e := by
  cases x with
  | error e' =>
    constructor
    · rintro ⟨⟩
      rfl
    · rintro ⟨⟩
      rfl
  | ok a =>
    constructor
    · rintro ⟨⟩
    · rintro ⟨⟩

theorem map_eq_ok {α β : Type} {x : Except ε α} {f : α → β} {b : β} : x.map f = .ok b ↔ ∃ a, x = .ok a ∧ f a = b := by
  cases x with
  | error e =>
    constructor
    · rintro ⟨⟩
    · rintro ⟨a, ⟨⟩, -⟩
  | ok a =>
    constructor
    · rintro ⟨⟩
      exact ⟨a, rfl, rfl⟩
    · rintro ⟨a', ⟨⟩, rfl⟩
      rfl

theorem foldlM_flatMap {κ : Type} {g : σ → κ → Except ε σ} {f : ι → List κ} {xs : List ι} {s : σ} :
    (xs.flatMap f).foldlM g s = xs.foldlM (fun s x => (f x).foldlM g s) s := by
  induction xs generalizing s with
  | nil => rfl
  | cons x xs ih =>
    rw [List.flatMap_cons, List.foldlM_append, List.foldlM_cons]
    exact congrArg _ (funext fun _ => ih)

theorem foldlM_invariant {I : σ → Prop} {g : σ → ι → Except ε σ} {xs : List ι} {s s' : σ}
    (hstep : ∀ x ∈ xs, ∀ s s', I s → g s x = .ok s' → I s') (hs : I s) (h : xs.foldlM g s = .ok s') : I s' := by
  induction xs generalizing s with
  | nil =>
    cases h
    exact hs
  | cons x xs ih =>
    rw [List.foldlM_cons] at h
    obtain ⟨s₁, h₁, h⟩ := bind_eq_ok.mp h
    exact ih (fun y hy => hstep y (List.mem_cons_of_mem x hy)) (hstep x List.mem_cons_self s s₁ hs h₁) h

/-- Seen through the projection, the program does what `f` says: it fails where `f` has no value. -/
def Simulates (π : σ → τ) (g : σ → Except ε σ) (f : τ → Option τ) : Prop :=
  ∀ s, (g s).toOption.map π = f (π s)

namespace Simulates

variable {π : σ → τ} {g g' : σ → Except ε σ} {f f' : τ → Option τ}

theorem ok : Simulates π (.ok : σ → Except ε σ) some := fun _ => rfl

theorem bind (hg : Simulates π g f) (hg' : Simulates π g' f') :
    Simulates π (fun s => g s >>= g') fun v => f v >>= f' := by
  intro s
  show (g s >>= g').toOption.map π = f (π s) >>= f'
  rw [← hg s]
  cases g s with
  | error e => rfl
  | ok s' => exact hg' s'

theorem foldlM {g : σ → ι → Except ε σ} {f : τ → ι → Option τ} {xs : List ι}
    (h : ∀ x ∈ xs, Simulates π (g · x) (f · x)) :
    Simulates π (fun s => xs.foldlM g s) fun v => xs.foldlM f v := by
  induction xs with
  | nil => exact ok
  | cons x xs ih =>
    simp only [List.foldlM_cons]
    exact (h x List.mem_cons_self).bind (ih fun y hy => h y (List.mem_cons_of_mem _ hy))

theorem append {g : σ → ι → Except ε σ} {xs ys : List ι} (hx : Simulates π (fun s => xs.foldlM g s) f)
    (hy : Simulates π (fun s => ys.foldlM g s) f') :
    Simulates π (fun s => (xs ++ ys).foldlM g s) fun v => f v >>= f' := by
  simp only [List.foldlM_append]
  exact hx.bind hy

theorem foldlM_skip {g : σ → ι → Except ε σ} {xs : List ι} (h : ∀ x ∈ xs, Simulates π (g · x) some) :
    Simulates π (fun s => xs.foldlM g s) some := by
  induction xs with
  | nil => exact ok
  | cons x xs ih =>
    simp only [List.foldlM_cons]
    exact (h x List.mem_cons_self).bind (ih fun y hy => h y (List.mem_cons_of_mem _ hy))

/-- All steps of a list but one leave the projection as it is. -/
theorem only {g : σ → ι → Except ε σ} {xs : List ι} {k : ι} (hk : k ∈ xs) (hnd : xs.Nodup)
    (hf : Simulates π (g · k) f) (ho : ∀ x ∈ xs, x ≠ k → Simulates π (g · x) some) :
    Simulates π (fun s => xs.foldlM g s) f := by
  obtain ⟨xs₁, xs₂, rfl⟩ := List.append_of_mem hk
  have hnot : ∀ x ∈ xs₁ ++ xs₂, x ≠ k := by
    rintro x hx rfl
    exact (List.nodup_cons.mp (List.nodup_middle.mp hnd)).1 hx
  have h₁ := foldlM_skip fun x hx => ho x (by simp [hx]) (hnot x (List.mem_append_left _ hx))
  have h₂ := foldlM_skip fun x hx => ho x (by simp [hx]) (hnot x (List.mem_append_right _ hx))
  simp only [List.foldlM_append, List.foldlM_cons]
  intro s
  have h := h₁.bind (hf.bind h₂) s
  simpa using h

end Simulates

/-- Where the program succeeds, it does to the projection what `f` says. -/
def Effects (π : σ → τ) (g : σ → Except ε σ) (f : τ → τ) : Prop := ∀ s s', g s = .ok s' → π s' = f (π s)

namespace Effects

variable {π : σ → τ} {g g' : σ → Except ε σ} {f f' : τ → τ}

theorem ok : Effects π (.ok : σ → Except ε σ) id := by
  intro s s' h
  cases h
  rfl

theorem of_keep {υ : Type} {q : τ → υ} (hg : Effects π g id) : Effects (fun s => q (π s)) g id :=
  fun s s' h => congrArg q (hg s s' h)

theorem bind (hg : Effects π g f) (hg' : Effects π g' f') : Effects π (fun s => g s >>= g') (f' ∘ f) := by
  intro s s' h
  obtain ⟨s₁, h₁, h₂⟩ := bind_eq_ok.mp h
  exact (hg' s₁ s' h₂).trans (congrArg f' (hg s s₁ h₁))

theorem foldlM {g : σ → ι → Except ε σ} {f : τ → ι → τ} {xs : List ι} (h : ∀ x ∈ xs, Effects π (g · x) (f · x)) :
    Effects π (fun s => xs.foldlM g s) fun v => xs.foldl f v := by
  induction xs with
  | nil => exact ok
  | cons x xs ih =>
    simp only [List.foldlM_cons]
    exact (h x List.mem_cons_self).bind (ih fun y hy => h y (List.mem_cons_of_mem _ hy))

theorem foldlM_keep {g : σ → ι → Except ε σ} {xs : List ι} (h : ∀ x ∈ xs, Effects π (g · x) id) :
    Effects π (fun s => xs.foldlM g s) id := by
  induction xs with
  | nil => exact ok
  | cons x xs ih =>
    simp only [List.foldlM_cons]
    exact (h x List.mem_cons_self).bind (ih fun y hy => h y (List.mem_cons_of_mem _ hy))

theorem append {g : σ → ι → Except ε σ} {xs ys : List ι} (hx : Effects π (fun s => xs.foldlM g s) f)
    (hy : Effects π (fun s => ys.foldlM g s) f') : Effects π (fun s => (xs ++ ys).foldlM g s) (f' ∘ f) := by
  simp only [List.foldlM_append]
  exact hx.bind hy

/-- All steps of a list but one leave the projection as it is. -/
theorem only {g : σ → ι → Except ε σ} {xs : List ι} {k : ι} (hk : k ∈ xs) (hnd : xs.Nodup)
    (hf : Effects π (g · k) f) (ho : ∀ x ∈ xs, x ≠ k → Effects π (g · x) id) :
    Effects π (fun s => xs.foldlM g s) f := by
  obtain ⟨xs₁, xs₂, rfl⟩ := List.append_of_mem hk
  have hnot : ∀ x ∈ xs₁ ++ xs₂, x ≠ k := by
    rintro x hx rfl
    exact (List.nodup_cons.mp (List.nodup_middle.mp hnd)).1 hx
  have h₁ := foldlM_keep fun x hx => ho x (by simp [hx]) (hnot x (List.mem_append_left _ hx))
  have h₂ := foldlM_keep fun x hx => ho x (by simp [hx]) (hnot x (List.mem_append_right _ hx))
  simp only [List.foldlM_append, List.foldlM_cons]
  exact h₁.bind (hf.bind h₂)

end Effects

/-- Seen through the projection, the program does what `f` says, failures included. -/
def Mirrors (π : σ → τ) (g : σ → Except ε σ) (f : τ → Except ε τ) : Prop := ∀ s, (g s).map π = f (π s)

namespace Mirrors

variable {π : σ → τ} {g g' : σ → Except ε σ} {f f' : τ → Except ε τ}

theorem ok : Mirrors π (.ok : σ → Except ε σ) .ok := fun _ => rfl

theorem bind (hg : Mirrors π g f) (hg' : Mirrors π g' f') :
    Mirrors π (fun s => g s >>= g') fun v => f v >>= f' := by
  intro s
  show (g s >>= g').map π = f (π s) >>= f'
  rw [← hg s]
  cases g s with
  | error e => rfl
  | ok s' => exact hg' s'

theorem foldlM {g : σ → ι → Except ε σ} {f : τ → ι → Except ε τ} {xs : List ι}
    (h : ∀ x ∈ xs, Mirrors π (g · x) (f · x)) : Mirrors π (fun s => xs.foldlM g s) fun v => xs.foldlM f v := by
  induction xs with
  | nil => exact ok
  | cons x xs ih =>
    simp only [List.foldlM_cons]
    exact (h x List.mem_cons_self).bind (ih fun y hy => h y (List.mem_cons_of_mem _ hy))

end Mirrors

/-- From related states, where the first program succeeds so does the second, and the states stay related. -/
def Tracks {υ : Type} (R : σ → υ → Prop) (g : σ → Except ε σ) (h : υ → Except ε υ) : Prop :=
  ∀ s t, R s t → ∀ s', g s = .ok s' → ∃ t', h t = .ok t' ∧ R s' t'

namespace Tracks

variable {υ : Type} {R : σ → υ → Prop}

theorem ok : Tracks R (.ok : σ → Except ε σ) .ok := by
  rintro s t hR s' ⟨⟩
  exact ⟨t, rfl, hR⟩

theorem foldlM {g : σ → ι → Except ε σ} {h : υ → ι → Except ε υ} {xs : List ι}
    (hx : ∀ x ∈ xs, Tracks R (g · x) (h · x)) : Tracks R (fun s => xs.foldlM g s) fun t => xs.foldlM h t := by
  induction xs with
  | nil => exact ok
  | cons x xs ih =>
    intro s t hR s' hs
    simp only [List.foldlM_cons] at hs ⊢
    obtain ⟨s₁, hs₁, hs⟩ := bind_eq_ok.mp hs
    obtain ⟨t₁, ht₁, hR₁⟩ := hx x List.mem_cons_self s t hR s₁ hs₁
    obtain ⟨t', ht', hR'⟩ := ih (fun y hy => hx y (List.mem_cons_of_mem _ hy)) s₁ t₁ hR₁ s' hs
    exact ⟨t', bind_eq_ok.mpr ⟨t₁, ht₁, ht'⟩, hR'⟩

end Tracks
end Sfup
