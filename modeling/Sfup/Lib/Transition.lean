import Mathlib.Data.List.Basic

/-! Runs of a partial step function, and the two rules used to reason about them: a step invariant
holds along every run, and a step simulation gives a run of the abstract system. -/
namespace Sfup.Transition

variable {σ τ ι ρ : Type*}

/-- Run a step function over a list of inputs and collect the outputs. -/
def run? (step : σ → ι → Option (ρ × σ)) : σ → List ι → Option (List ρ × σ)
  | s, [] => some ([], s)
  | s, i :: is => do
    let (r, s') ← step s i
    let (rs, s'') ← run? step s' is
    return (r :: rs, s'')

theorem run?_cons {step : σ → ι → Option (ρ × σ)} {s s' : σ} {i : ι} {r : ρ} (is : List ι)
    (h : step s i = some (r, s')) :
    run? step s (i :: is) = (run? step s' is).map fun p => (r :: p.1, p.2) := by
  simp only [run?, h, Option.bind_eq_bind, Option.bind_some, Option.pure_def]
  cases run? step s' is <;> rfl

theorem run?_cons_eq_some {step : σ → ι → Option (ρ × σ)} {s s' : σ} {i : ι} {is : List ι} {rs : List ρ} :
    run? step s (i :: is) = some (rs, s') ↔
      ∃ r s₁ rs₁, step s i = some (r, s₁) ∧ run? step s₁ is = some (rs₁, s') ∧ rs = r :: rs₁ := by
  constructor
  · intro h
    obtain ⟨⟨r, s₁⟩, h₁, h⟩ := Option.bind_eq_some_iff.mp h
    obtain ⟨⟨rs₁, s₂⟩, h₂, h⟩ := Option.bind_eq_some_iff.mp h
    obtain ⟨rfl, rfl⟩ := Prod.mk.inj (Option.some.inj h)
    exact ⟨r, s₁, rs₁, h₁, h₂, rfl⟩
  · rintro ⟨r, s₁, rs₁, h₁, h₂, rfl⟩
    rw [run?_cons is h₁, h₂]
    rfl

/-- Run a total step function over a list of inputs. -/
def run (step : τ → ι → ρ × τ) : τ → List ι → List ρ × τ
  | t, [] => ([], t)
  | t, i :: is =>
    let (r, t') := step t i
    let (rs, t'') := run step t' is
    (r :: rs, t'')

theorem run?_concat {step : σ → ι → Option (ρ × σ)} {s s' s'' : σ} {is : List ι} {rs : List ρ} {i : ι} {r : ρ}
    (h : run? step s is = some (rs, s')) (hs : step s' i = some (r, s'')) :
    run? step s (is ++ [i]) = some (rs ++ [r], s'') := by
  induction is generalizing s rs with
  | nil =>
    obtain ⟨rfl, rfl⟩ := Prod.mk.inj (Option.some.inj h)
    simp [run?, hs]
  | cons j js ih =>
    obtain ⟨r₁, s₁, rs₁, h₁, h₂, rfl⟩ := run?_cons_eq_some.mp h
    rw [List.cons_append, run?_cons _ h₁, ih h₂]
    rfl

theorem run_append (step : τ → ι → ρ × τ) (t : τ) (is js : List ι) :
    run step t (is ++ js) =
      ((run step t is).1 ++ (run step (run step t is).2 js).1, (run step (run step t is).2 js).2) := by
  induction is generalizing t with
  | nil => rfl
  | cons i is ih => simp [run, ih]

theorem run_chunks (step : τ → ι → ρ × τ) (t : τ) (chunks : List (List ι)) :
    ((run (run step) t chunks).1.flatten, (run (run step) t chunks).2) = run step t chunks.flatten := by
  induction chunks generalizing t with
  | nil => rfl
  | cons chunk chunks ih => rw [List.flatten_cons, run_append, ← ih]; rfl

/-- Two machines of which one undoes each output of the other, from states that stay related. -/
theorem run_inverts {enc : σ → ι → ρ × σ} {dec : τ → ρ → ι × τ} {R : σ → τ → Prop}
    (hstep : ∀ s t i, R s t → (dec t (enc s i).1).1 = i ∧ R (enc s i).2 (dec t (enc s i).1).2)
    {s : σ} {t : τ} (h : R s t) (is : List ι) : (run dec t (run enc s is).1).1 = is := by
  induction is generalizing s t with
  | nil => rfl
  | cons i is ih =>
    obtain ⟨hi, hR⟩ := hstep s t i h
    exact List.cons_eq_cons.mpr ⟨hi, ih hR⟩

theorem run?_simulates {step : σ → ι → Option (ρ × σ)} {spec : τ → ι → ρ × τ} {R : σ → τ → Prop}
    (hstep : ∀ s t i, R s t → ∃ s', step s i = some ((spec t i).1, s') ∧ R s' (spec t i).2)
    {s : σ} {t : τ} (h : R s t) (is : List ι) :
    ∃ s', run? step s is = some ((run spec t is).1, s') ∧ R s' (run spec t is).2 := by
  induction is generalizing s t with
  | nil => exact ⟨s, rfl, h⟩
  | cons i is ih =>
    obtain ⟨s₁, hs, h₁⟩ := hstep s t i h
    obtain ⟨s₂, hr, h₂⟩ := ih h₁
    exact ⟨s₂, by simp [run?, run, hs, hr], h₂⟩

/-- A condition on the state before each step of a run. -/
def Along (step : σ → ι → Option (ρ × σ)) (cond : σ → ι → Prop) : σ → List ι → Prop
  | _, [] => True
  | s, i :: is => cond s i ∧ ∀ r s', step s i = some (r, s') → Along step cond s' is

theorem Along.cons {step : σ → ι → Option (ρ × σ)} {cond : σ → ι → Prop} {s s' : σ} {i : ι} {is : List ι}
    {r : ρ} (hc : cond s i) (hs : step s i = some (r, s')) (h : Along step cond s' is) :
    Along step cond s (i :: is) := by
  refine ⟨hc, fun r₁ s₁ h₁ => ?_⟩
  obtain ⟨-, rfl⟩ := Prod.mk.inj (Option.some.inj (hs.symm.trans h₁))
  exact h

theorem along_of_forall {step : σ → ι → Option (ρ × σ)} {cond : σ → ι → Prop} (h : ∀ s i, cond s i) (s : σ)
    (is : List ι) : Along step cond s is := by
  induction is generalizing s with
  | nil => trivial
  | cons i is ih => exact ⟨h s i, fun _ s' _ => ih s'⟩

/-- Two conditions that agree on every state the invariant allows hold along the same runs. -/
theorem along_iff {step : σ → ι → Option (ρ × σ)} {cond cond' : σ → ι → Prop} {I : σ → Prop}
    (hcond : ∀ s i, I s → (cond s i ↔ cond' s i))
    (hinv : ∀ s i r s', I s → cond s i → step s i = some (r, s') → I s') {s : σ} (h : I s) (is : List ι) :
    Along step cond s is ↔ Along step cond' s is := by
  induction is generalizing s with
  | nil => exact Iff.rfl
  | cons i is ih =>
    constructor
    · rintro ⟨hc, hrest⟩
      exact ⟨(hcond s i h).mp hc, fun r s' hs => (ih (hinv s i r s' h hc hs)).mp (hrest r s' hs)⟩
    · rintro ⟨hc', hrest⟩
      have hc := (hcond s i h).mpr hc'
      exact ⟨hc, fun r s' hs => (ih (hinv s i r s' h hc hs)).mpr (hrest r s' hs)⟩

/-- What every step under the condition preserves holds at the end of every run under it. -/
theorem run?_invariant {step : σ → ι → Option (ρ × σ)} {cond : σ → ι → Prop} {I : σ → Prop}
    (hstep : ∀ s i r s', I s → cond s i → step s i = some (r, s') → I s') {s s' : σ} {is : List ι}
    {rs : List ρ} (h : I s) (hc : Along step cond s is) (hr : run? step s is = some (rs, s')) : I s' := by
  induction is generalizing s rs with
  | nil =>
    obtain ⟨-, rfl⟩ := Prod.mk.inj (Option.some.inj hr)
    exact h
  | cons i is ih =>
    obtain ⟨r, s₁, rs₁, h₁, h₂, rfl⟩ := run?_cons_eq_some.mp hr
    exact ih (hstep s i r s₁ h hc.1 h₁) (hc.2 r s₁ h₁) h₂

/-- What every step under the condition gives out is given out all along. -/
theorem run?_outputs {step : σ → ι → Option (ρ × σ)} {cond : σ → ι → Prop} {I : σ → Prop} {P : ρ → Prop}
    (hstep : ∀ s i r s', I s → cond s i → step s i = some (r, s') → I s' ∧ P r) {s s' : σ} {is : List ι}
    {rs : List ρ} (h : I s) (hc : Along step cond s is) (hr : run? step s is = some (rs, s')) : ∀ r ∈ rs, P r := by
  induction is generalizing s rs with
  | nil =>
    obtain ⟨rfl, -⟩ := Prod.mk.inj (Option.some.inj hr)
    exact nofun
  | cons i is ih =>
    obtain ⟨r, s₁, rs₁, h₁, h₂, rfl⟩ := run?_cons_eq_some.mp hr
    obtain ⟨hI, hP⟩ := hstep s i r s₁ h hc.1 h₁
    exact List.forall_mem_cons.mpr ⟨hP, ih hI (hc.2 r s₁ h₁) h₂⟩

theorem run?_isSome {step : σ → ι → Option (ρ × σ)} {I : σ → Prop}
    (hstep : ∀ s i, I s → ∃ r s', step s i = some (r, s') ∧ I s') {s : σ} (h : I s) (is : List ι) :
    (run? step s is).isSome := by
  induction is generalizing s with
  | nil => rfl
  | cons i is ih =>
    obtain ⟨r, s₁, h₁, hI⟩ := hstep s i h
    rw [run?_cons is h₁, Option.isSome_map]
    exact ih hI

/-- Under an invariant, a run is defined exactly if the condition for each step holds along it. -/
theorem run?_isSome_iff {step : σ → ι → Option (ρ × σ)} {cond : σ → ι → Prop} {I : σ → Prop}
    (hstep : ∀ s i, I s → ((step s i).isSome ↔ cond s i))
    (hinv : ∀ s i r s', I s → step s i = some (r, s') → I s') {s : σ} (h : I s) (is : List ι) :
    (run? step s is).isSome ↔ Along step cond s is := by
  induction is generalizing s with
  | nil => simp [run?, Along]
  | cons i is ih =>
    cases hs : step s i with
    | none =>
      have hc : ¬ cond s i := by
        rw [← hstep s i h, hs]
        exact Bool.false_ne_true
      simp [run?, Along, hs, hc]
    | some p =>
      have hc : cond s i := (hstep s i h).mp (by rw [hs]; rfl)
      rw [run?_cons is hs, Option.isSome_map, ih (hinv s i p.1 p.2 h hs)]
      exact ⟨fun hr => Along.cons hc hs hr, fun hr => hr.2 p.1 p.2 hs⟩

/-- A property of every state that a run reaches, the first and the last one included. -/
def Always (step : σ → ι → Option (ρ × σ)) (P : σ → Prop) : σ → List ι → Prop
  | s, [] => P s
  | s, i :: is => P s ∧ ∀ r s', step s i = some (r, s') → Always step P s' is

/-- A property that every step under the condition keeps holds of every state of a run under it. -/
theorem always_of_along {step : σ → ι → Option (ρ × σ)} {cond : σ → ι → Prop} {P : σ → Prop}
    (hstep : ∀ s i r s', P s → cond s i → step s i = some (r, s') → P s') {s : σ} {is : List ι} (h : P s)
    (hc : Along step cond s is) : Always step P s is := by
  induction is generalizing s with
  | nil => exact h
  | cons i is ih => exact ⟨h, fun r s' hs => ih (hstep s i r s' h hc.1 hs) (hc.2 r s' hs)⟩

theorem Always.run {step : σ → ι → Option (ρ × σ)} {P : σ → Prop} {s s' : σ} {is : List ι} {rs : List ρ}
    (h : Always step P s is) (hr : run? step s is = some (rs, s')) : P s' := by
  induction is generalizing s rs with
  | nil =>
    obtain ⟨-, rfl⟩ := Prod.mk.inj (Option.some.inj hr)
    exact h
  | cons i is ih =>
    obtain ⟨r, s₁, rs₁, h₁, h₂, rfl⟩ := run?_cons_eq_some.mp hr
    exact ih (h.2 r s₁ h₁) h₂

theorem not_always_of_any {step : σ → ι → Option (ρ × σ)} {P : σ → Prop} [DecidablePred P] {s : σ} {is : List ι}
    (h : (run? step s is).any (fun p => !decide (P p.2)) = true) : ¬ Always step P s is := by
  intro halways
  obtain ⟨p, hr, hp⟩ := (Option.any_eq_true _ _).mp h
  rw [Bool.not_eq_true', decide_eq_false_iff_not] at hp
  exact hp (halways.run hr)

/-- If one step keeps the property exactly under a condition, then a run keeps it all along exactly if the
condition holds along the run. -/
theorem always_iff_along {step : σ → ι → Option (ρ × σ)} {cond : σ → ι → Prop} {I P : σ → Prop}
    (hstep : ∀ s i r s', I s → P s → step s i = some (r, s') → (P s' ↔ cond s i))
    (hnone : ∀ s i, step s i = none → cond s i)
    (hinv : ∀ s i r s', I s → step s i = some (r, s') → I s') {s : σ} (hI : I s) (hP : P s) (is : List ι) :
    Always step P s is ↔ Along step cond s is := by
  induction is generalizing s with
  | nil => simp [Always, Along, hP]
  | cons i is ih =>
    cases hs : step s i with
    | none => simp [Always, Along, hs, hP, hnone s i hs]
    | some p =>
      have hcond := hstep s i p.1 p.2 hI hP hs
      have hI' := hinv s i p.1 p.2 hI hs
      constructor
      · intro h
        have hrest := h.2 p.1 p.2 hs
        have hP' : P p.2 := by
          cases is with
          | nil => exact hrest
          | cons j js => exact hrest.1
        exact Along.cons (hcond.mp hP') hs ((ih hI' hP').mp hrest)
      · intro h
        refine ⟨hP, fun r s' hr => ?_⟩
        obtain ⟨rfl, rfl⟩ := Prod.mk.inj (Option.some.inj (hs.symm.trans hr))
        exact (ih hI' (hcond.mpr h.1)).mpr (h.2 p.1 p.2 hs)

/-- Keep the last output beside the state. -/
def remember (step : σ → ι → Option (Option ρ × σ)) (s : σ × Option ρ) (i : ι) :
    Option (Option ρ × (σ × Option ρ)) :=
  (step s.1 i).map fun p => (p.1, (p.2, p.1.or s.2))

/-- Fold the outputs into a history beside the state. -/
def record {η : Type*} (note : η → ρ → η) (step : σ → ι → Option (ρ × σ)) (s : σ × η) (i : ι) :
    Option (ρ × (σ × η)) :=
  (step s.1 i).map fun p => (p.1, (p.2, note s.2 p.1))

end Sfup.Transition
