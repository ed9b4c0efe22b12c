import Sfup.Lib.Transition
import Mathlib.Data.Fintype.Basic
import Mathlib.Data.List.ReduceOption
import Mathlib.Logic.Function.Basic

/-! Threads over shared data: locks, events that reset themselves, condition variables that may wake up
for nothing, and joins. A schedule says who moves next. -/
namespace Sfup.Monitor

/-- What a thread does next: `q` is the point it goes on at. -/
inductive Action (τ κ ε γ σ π ρ : Type*)
  /-- The thread goes on at some allowed point: a call from outside, or a branch that is left open. -/
  | choose (ok : π → Bool)
  | lock (k : κ) (q : π)
  | unlock (k : κ) (q : π)
  /-- Signal an event. -/
  | set (e : ε) (q : π)
  /-- Wait until an event is signalled, and reset it. -/
  | wait (e : ε) (q : π)
  /-- Release a lock and sleep on a condition variable, in one step. -/
  | sleep (c : γ) (k : κ) (q : π)
  /-- Wake one of those that sleep on a condition variable, if there is one. -/
  | notify (c : γ) (q : π)
  | notifyAll (c : γ) (q : π)
  /-- Wait until another thread has stopped. -/
  | join (u : τ) (q : π)
  /-- A step on the data, which may give out something. -/
  | act (f : σ → π × σ × Option ρ)
  | stop

structure State (τ κ ε γ σ π : Type*) where
  data : σ
  owner : κ → Option τ
  flag : ε → Bool
  asleep : τ → Option γ
  pc : τ → π

inductive Move (τ π : Type*)
  | run (t : τ)
  | pick (t : τ) (q : π)
  /-- The notification of `t` wakes `u`. -/
  | wake (t u : τ)
  /-- A sleeper wakes up for nothing. -/
  | rouse (u : τ)

variable {τ κ ε γ σ π ρ : Type*}

def Action.isStop : Action τ κ ε γ σ π ρ → Bool
  | .stop => true
  | _ => false

theorem Action.isStop_iff {a : Action τ κ ε γ σ π ρ} : a.isStop ↔ a = .stop := by
  cases a <;> simp [Action.isStop]

/-! ## What is guarded by a lock -/

section
variable (k : κ) (holds : π → Bool) (J : List ρ → σ → Prop) (A : π → List ρ → σ → Prop)

/-- A step from `p` to `q` that neither takes nor gives back the lock. -/
def Stays (p q : π) : Prop := holds q = holds p ∧ (holds p → ∀ h d, A p h d → A q h d)

/-- `J` holds of the data and of what has been given out while the lock is free, and `A p` while its holder is
at `p`. -/
def Guards [DecidableEq κ] (p : π) : Action τ κ ε γ σ π ρ → Prop
  | .choose ok => ∀ q, ok q → Stays holds A p q
  | .lock j q => if j = k then ¬ holds p ∧ holds q ∧ ∀ h d, J h d → A q h d else Stays holds A p q
  | .unlock j q => if j = k then holds p ∧ ¬ holds q ∧ ∀ h d, A p h d → J h d else Stays holds A p q
  | .sleep _ j q => if j = k then holds p ∧ ¬ holds q ∧ ∀ h d, A p h d → J h d else Stays holds A p q
  | .set _ q | .wait _ q | .notify _ q | .notifyAll _ q | .join _ q => Stays holds A p q
  | .act f => ∀ d, holds (f d).1 = holds p ∧
      if holds p then ∀ h, A p h d → A (f d).1 (h ++ (f d).2.2.toList) (f d).2.1
      else ∀ h, (J h d → J (h ++ (f d).2.2.toList) (f d).2.1) ∧
        ∀ q, holds q → A q h d → A q (h ++ (f d).2.2.toList) (f d).2.1
  | .stop => True

/-- The lock is held by the thread that is at a point where it is held, and the data are as they are to be. -/
structure Guarded (h : List ρ) (s : State τ κ ε γ σ π) : Prop where
  owner : ∀ t, s.owner k = some t ↔ holds (s.pc t)
  free : s.owner k = none → J h s.data
  held : ∀ t, holds (s.pc t) → A (s.pc t) h s.data

variable {k holds J A} {h : List ρ} {s s' : State τ κ ε γ σ π}

theorem Guarded.exclusive {t u : τ} (hi : Guarded k holds J A h s) (ht : holds (s.pc t)) (hu : holds (s.pc u)) :
    t = u :=
  Option.some.inj (((hi.owner t).mpr ht).symm.trans ((hi.owner u).mpr hu))

theorem Guarded.owner_eq_none (hi : Guarded k holds J A h s) (hn : ∀ t, ¬ holds (s.pc t)) : s.owner k = none :=
  Option.eq_none_iff_forall_ne_some.mpr fun t ht => hn t ((hi.owner t).mp ht)

theorem Guarded.owner_eq_none_of_ne {t : τ} (hi : Guarded k holds J A h s)
    (hothers : ∀ u, u ≠ t → ¬ holds (s.pc u)) (hn : ¬ holds (s.pc t)) : s.owner k = none :=
  hi.owner_eq_none fun u hu => by
    by_cases hut : u = t
    · exact hn (hut ▸ hu)
    · exact hothers u hut hu

variable [DecidableEq τ]

theorem Guarded.stay {t : τ} {q : π} (hi : Guarded k holds J A h s) (hst : Stays holds A (s.pc t) q)
    (hd : s'.data = s.data) (ho : s'.owner k = s.owner k) (hpc : s'.pc = Function.update s.pc t q) :
    Guarded k holds J A h s' where
  owner u := by
    rw [ho, hpc, hi.owner]
    by_cases hu : u = t
    · subst hu
      rw [Function.update_self, hst.1]
    · rw [Function.update_of_ne hu]
  free hn := by
    rw [hd]
    exact hi.free (ho ▸ hn)
  held u := by
    rw [hpc, hd]
    by_cases hu : u = t
    · subst hu
      rw [Function.update_self]
      exact fun hq => hst.2 (hst.1 ▸ hq) h s.data (hi.held u (hst.1 ▸ hq))
    · rw [Function.update_of_ne hu]
      exact hi.held u

theorem Guarded.taken {t : τ} {q : π} (hi : Guarded k holds J A h s) (hn : s.owner k = none) (hq : holds q)
    (hA : J h s.data → A q h s.data) (hd : s'.data = s.data) (ho : s'.owner k = some t)
    (hpc : s'.pc = Function.update s.pc t q) : Guarded k holds J A h s' := by
  have hnone : ∀ u, ¬ holds (s.pc u) := fun u hu => nomatch hn.symm.trans ((hi.owner u).mpr hu)
  refine ⟨fun u => ?_, fun hf => ?_, fun u => ?_⟩
  · rw [ho, hpc]
    by_cases hu : u = t
    · subst hu
      simp [hq]
    · simpa [Function.update_of_ne hu, Ne.symm hu] using hnone u
  · cases ho.symm.trans hf
  · rw [hpc, hd]
    by_cases hu : u = t
    · subst hu
      rw [Function.update_self]
      exact fun _ => hA (hi.free hn)
    · rw [Function.update_of_ne hu]
      exact fun h => absurd h (hnone u)

theorem Guarded.given {t : τ} {q : π} (hi : Guarded k holds J A h s) (hp : holds (s.pc t)) (hq : ¬ holds q)
    (hJ : A (s.pc t) h s.data → J h s.data) (hd : s'.data = s.data) (ho : s'.owner k = none)
    (hpc : s'.pc = Function.update s.pc t q) : Guarded k holds J A h s' := by
  have hnone : ∀ u, ¬ holds (s'.pc u) := by
    intro u
    rw [hpc]
    by_cases hu : u = t
    · rwa [hu, Function.update_self]
    · rw [Function.update_of_ne hu]
      exact fun h => hu (hi.exclusive h hp)
  refine ⟨fun u => ?_, fun _ => ?_, fun u h => absurd h (hnone u)⟩
  · simpa [ho] using hnone u
  · rw [hd]
    exact hJ (hi.held t hp)

end

/-! ## Steps -/

variable [DecidableEq τ]

def State.goto (s : State τ κ ε γ σ π) (t : τ) (q : π) : State τ κ ε γ σ π :=
  { s with pc := Function.update s.pc t q }

@[simp] theorem State.goto_self (s : State τ κ ε γ σ π) (t : τ) (q : π) : (s.goto t q).pc t = q :=
  Function.update_self ..

@[simp] theorem State.goto_other (s : State τ κ ε γ σ π) {t u : τ} (q : π) (hu : u ≠ t) : (s.goto t q).pc u = s.pc u :=
  Function.update_of_ne hu ..

@[simp] theorem State.goto_owner (s : State τ κ ε γ σ π) (t : τ) (q : π) : (s.goto t q).owner = s.owner := rfl

@[simp] theorem State.goto_data (s : State τ κ ε γ σ π) (t : τ) (q : π) : (s.goto t q).data = s.data := rfl

@[simp] theorem State.goto_flag (s : State τ κ ε γ σ π) (t : τ) (q : π) : (s.goto t q).flag = s.flag := rfl

/-- The point and the data that an action can lead to, with what it gives out. -/
def Action.Leads (a : Action τ κ ε γ σ π ρ) (d : σ) (q : π) (d' : σ) (r : Option ρ) : Prop :=
  match a with
  | .choose ok => ok q ∧ d' = d ∧ r = none
  | .lock _ q' | .unlock _ q' | .set _ q' | .wait _ q' | .sleep _ _ q' | .notify _ q' | .notifyAll _ q'
  | .join _ q' => q = q' ∧ d' = d ∧ r = none
  | .act f => q = (f d).1 ∧ d' = (f d).2.1 ∧ r = (f d).2.2
  | .stop => False

omit [DecidableEq τ] in
theorem Guards.of_leads [DecidableEq κ] {k : κ} {holds : π → Bool} {J : List ρ → σ → Prop} {A : π → List ρ → σ → Prop}
    {p : π} {a : Action τ κ ε γ σ π ρ} (ha : ∃ f, a = .act f) (h : ∀ d q d' r, a.Leads d q d' r → holds q = holds p ∧
      if holds p then ∀ h, A p h d → A q (h ++ r.toList) d'
      else ∀ h, (J h d → J (h ++ r.toList) d') ∧ ∀ q, holds q → A q h d → A q (h ++ r.toList) d') :
    Guards k holds J A p a := by
  obtain ⟨f, rfl⟩ := ha
  exact fun d => h d _ _ _ ⟨rfl, rfl, rfl⟩

/-- What is to be known of a step that moves `t` to `q`. -/
structure Moved (P : τ → π → Action τ κ ε γ σ π ρ) (s s' : State τ κ ε γ σ π) (r : Option ρ) (t : τ) (q : π) :
    Prop where
  awake : s.asleep t = none
  leads : (P t (s.pc t)).Leads s.data q s'.data r
  pc : s'.pc = Function.update s.pc t q
  set : ∀ e, P t (s.pc t) = .set e q → s'.flag e = true
  raise : ∀ e, s'.flag e = true → s.flag e = true ∨ P t (s.pc t) = .set e q
  wait : ∀ e, s.flag e = true → s'.flag e = true ∨ P t (s.pc t) = .wait e q
  ready : ∀ e, P t (s.pc t) = .wait e q → s.flag e = true
  join : ∀ u, P t (s.pc t) = .join u q → P u (s.pc u) = .stop
  sleep : ∀ u c, s'.asleep u = some c → s.asleep u = some c ∨ u = t ∧ ∃ k, P t (s.pc t) = .sleep c k q
  notify : ∀ c, P t (s.pc t) = .notify c q → (∀ u, s.asleep u ≠ some c) ∨ ∃ u, s.asleep u = some c ∧ s'.asleep u = none
  notifyAll : ∀ c, P t (s.pc t) = .notifyAll c q → ∀ u, s'.asleep u ≠ some c

theorem Moved.self {P : τ → π → Action τ κ ε γ σ π ρ} {s s' : State τ κ ε γ σ π} {r : Option ρ} {t : τ} {q : π} (h : Moved P s s' r t q) : s'.pc t = q := by
  rw [h.pc, Function.update_self]

theorem Moved.other {P : τ → π → Action τ κ ε γ σ π ρ} {s s' : State τ κ ε γ σ π} {r : Option ρ} {t u : τ} {q : π} (h : Moved P s s' r t q) (hu : u ≠ t) : s'.pc u = s.pc u := by
  rw [h.pc, Function.update_of_ne hu]

variable [DecidableEq κ] [DecidableEq ε] [DecidableEq γ]

/-- What a step can be, action by action. -/
inductive Step (P : τ → π → Action τ κ ε γ σ π ρ) (s : State τ κ ε γ σ π) : Option ρ → State τ κ ε γ σ π → Prop
  | choose {t : τ} {ok : π → Bool} {q : π} (ha : s.asleep t = none) (hc : P t (s.pc t) = .choose ok) (hq : ok q) :
      Step P s none (s.goto t q)
  | lock {t : τ} {k : κ} {q : π} (ha : s.asleep t = none) (hc : P t (s.pc t) = .lock k q) (ho : s.owner k = none) :
      Step P s none { s.goto t q with owner := Function.update s.owner k (some t) }
  | unlock {t : τ} {k : κ} {q : π} (ha : s.asleep t = none) (hc : P t (s.pc t) = .unlock k q)
      (ho : s.owner k = some t) : Step P s none { s.goto t q with owner := Function.update s.owner k none }
  | set {t : τ} {e : ε} {q : π} (ha : s.asleep t = none) (hc : P t (s.pc t) = .set e q) :
      Step P s none { s.goto t q with flag := Function.update s.flag e true }
  | wait {t : τ} {e : ε} {q : π} (ha : s.asleep t = none) (hc : P t (s.pc t) = .wait e q) (hf : s.flag e = true) :
      Step P s none { s.goto t q with flag := Function.update s.flag e false }
  | sleep {t : τ} {c : γ} {k : κ} {q : π} (ha : s.asleep t = none) (hc : P t (s.pc t) = .sleep c k q)
      (ho : s.owner k = some t) : Step P s none { s.goto t q with
        owner := Function.update s.owner k none, asleep := Function.update s.asleep t (some c) }
  | pass {t : τ} {c : γ} {q : π} (ha : s.asleep t = none) (hc : P t (s.pc t) = .notify c q)
      (hn : ∀ u, s.asleep u ≠ some c) : Step P s none (s.goto t q)
  | wake {t u : τ} {c : γ} {q : π} (ha : s.asleep t = none) (hc : P t (s.pc t) = .notify c q)
      (hu : s.asleep u = some c) : Step P s none { s.goto t q with asleep := Function.update s.asleep u none }
  | wakeAll {t : τ} {c : γ} {q : π} (ha : s.asleep t = none) (hc : P t (s.pc t) = .notifyAll c q) :
      Step P s none { s.goto t q with asleep := fun u => if s.asleep u = some c then none else s.asleep u }
  | join {t u : τ} {q : π} (ha : s.asleep t = none) (hc : P t (s.pc t) = .join u q) (hu : P u (s.pc u) = .stop) :
      Step P s none (s.goto t q)
  | act {t : τ} {f : σ → π × σ × Option ρ} (ha : s.asleep t = none) (hc : P t (s.pc t) = .act f) :
      Step P s (f s.data).2.2 { s.goto t (f s.data).1 with data := (f s.data).2.1 }
  | rouse {u : τ} {c : γ} (hu : s.asleep u = some c) :
      Step P s none { s with asleep := Function.update s.asleep u none }

variable {P : τ → π → Action τ κ ε γ σ π ρ} {s s' : State τ κ ε γ σ π} {r : Option ρ}
  {k : κ} {holds : π → Bool} {J : List ρ → σ → Prop} {A : π → List ρ → σ → Prop} {h : List ρ}

/-- One step keeps what a lock guards. -/
theorem Guarded.step (hg : ∀ t p, Guards k holds J A p (P t p)) (hi : Guarded k holds J A h s) (hs : Step P s r s') :
    Guarded k holds J A (h ++ r.toList) s' := by
  cases hs with
  | @choose t ok q _ hc hq =>
    rw [Option.toList_none, List.append_nil]
    have hst := hg t (s.pc t)
    rw [hc] at hst
    exact hi.stay (hst q hq) rfl rfl rfl
  | @lock t j q _ hc ho =>
    rw [Option.toList_none, List.append_nil]
    have hst := hg t (s.pc t)
    rw [hc, Guards] at hst
    split_ifs at hst with hj
    · subst hj
      exact hi.taken ho hst.2.1 (hst.2.2 h s.data) rfl (Function.update_self ..) rfl
    · exact hi.stay hst rfl (Function.update_of_ne (Ne.symm hj) ..) rfl
  | @unlock t j q _ hc ho =>
    rw [Option.toList_none, List.append_nil]
    have hst := hg t (s.pc t)
    rw [hc, Guards] at hst
    split_ifs at hst with hj
    · subst hj
      exact hi.given hst.1 hst.2.1 (hst.2.2 h s.data) rfl (Function.update_self ..) rfl
    · exact hi.stay hst rfl (Function.update_of_ne (Ne.symm hj) ..) rfl
  | @sleep t c j q _ hc ho =>
    rw [Option.toList_none, List.append_nil]
    have hst := hg t (s.pc t)
    rw [hc, Guards] at hst
    split_ifs at hst with hj
    · subst hj
      exact hi.given hst.1 hst.2.1 (hst.2.2 h s.data) rfl (Function.update_self ..) rfl
    · exact hi.stay hst rfl (Function.update_of_ne (Ne.symm hj) ..) rfl
  | @set t e q _ hc | @wait t e q _ hc | @pass t c q _ hc | @wake t u c q _ hc | @wakeAll t c q _ hc
  | @join t u q _ hc =>
    rw [Option.toList_none, List.append_nil]
    have hst := hg t (s.pc t)
    rw [hc] at hst
    exact hi.stay hst rfl rfl rfl
  | @rouse u c hu =>
    rw [Option.toList_none, List.append_nil]
    exact Guarded.mk hi.owner hi.free hi.held
  | @act t f _ hc =>
    have hst := hg t (s.pc t)
    rw [hc] at hst
    obtain ⟨hq, hst⟩ := hst s.data
    refine ⟨fun u => ?_, fun hn => ?_, fun u => ?_⟩
    · show s.owner k = some u ↔ holds (Function.update s.pc t _ u)
      rw [hi.owner]
      by_cases hu : u = t
      · rw [hu, Function.update_self, hq]
      · rw [Function.update_of_ne hu]
    · have hp : ¬ holds (s.pc t) := fun hp => nomatch hn.symm.trans ((hi.owner t).mpr hp)
      rw [if_neg hp] at hst
      exact (hst h).1 (hi.free hn)
    · show holds (Function.update s.pc t _ u) → A (Function.update s.pc t _ u) _ _
      split_ifs at hst with hp
      · by_cases hu : u = t
        · rw [hu, Function.update_self]
          exact fun _ => hst h (hi.held t hp)
        · rw [Function.update_of_ne hu]
          exact fun hh => absurd (hi.exclusive hh hp) hu
      · by_cases hu : u = t
        · rw [hu, Function.update_self, hq]
          exact fun hh => absurd hh hp
        · rw [Function.update_of_ne hu]
          exact fun hh => (hst h).2 _ hh (hi.held u hh)

/-! ## Waking up -/

omit [DecidableEq κ] [DecidableEq ε] [DecidableEq γ] in
/-- A step that leaves the events alone and wakes nobody. -/
theorem Moved.of_quiet {t : τ} {q : π} (ha : s.asleep t = none) (hl : (P t (s.pc t)).Leads s.data q s'.data r)
    (hpc : s'.pc = Function.update s.pc t q) (hflag : s'.flag = s.flag) (hasleep : s'.asleep = s.asleep)
    (he : ∀ e, P t (s.pc t) ≠ .set e q ∧ P t (s.pc t) ≠ .wait e q)
    (hn : ∀ c, P t (s.pc t) ≠ .notify c q ∧ P t (s.pc t) ≠ .notifyAll c q)
    (hj : ∀ u, P t (s.pc t) = .join u q → P u (s.pc u) = .stop) : Moved P s s' r t q where
  awake := ha
  leads := hl
  pc := hpc
  set e h := absurd h (he e).1
  raise _ h := .inl (hflag ▸ h)
  wait _ h := .inl (hflag ▸ h)
  ready e h := absurd h (he e).2
  join := hj
  sleep _ _ h := .inl (hasleep ▸ h)
  notify c h := absurd h (hn c).1
  notifyAll c h := absurd h (hn c).2

/-- A step moves one thread, or wakes a sleeper for nothing. -/
theorem Step.moved (h : Step P s r s') : (∃ t q, Moved P s s' r t q) ∨
    (r = none ∧ s'.data = s.data ∧ s'.pc = s.pc ∧ s'.flag = s.flag ∧ ∀ u c, s'.asleep u = some c → s.asleep u = some c) := by
  cases h with
  | @choose t ok q ha hc hq =>
    refine .inl ⟨t, q, .of_quiet ha (hc ▸ ⟨hq, rfl, rfl⟩) rfl rfl rfl ?_ ?_ ?_⟩ <;> rw [hc] <;> simp
  | @lock t k q ha hc ho =>
    refine .inl ⟨t, q, .of_quiet ha (hc ▸ ⟨rfl, rfl, rfl⟩) rfl rfl rfl ?_ ?_ ?_⟩ <;> rw [hc] <;> simp
  | @unlock t k q ha hc ho =>
    refine .inl ⟨t, q, .of_quiet ha (hc ▸ ⟨rfl, rfl, rfl⟩) rfl rfl rfl ?_ ?_ ?_⟩ <;> rw [hc] <;> simp
  | @act t f ha hc =>
    refine .inl ⟨t, _, .of_quiet ha (hc ▸ ⟨rfl, rfl, rfl⟩) rfl rfl rfl ?_ ?_ ?_⟩ <;> rw [hc] <;> simp
  | @join t u q ha hc hu =>
    refine .inl ⟨t, q, .of_quiet ha (hc ▸ ⟨rfl, rfl, rfl⟩) rfl rfl rfl ?_ ?_ fun v hv => ?_⟩
    · rw [hc]
      simp
    · rw [hc]
      simp
    · rw [← (Action.join.inj (hc.symm.trans hv)).1]
      exact hu
  | @pass t c q ha hc hn =>
    refine .inl ⟨t, q, ha, hc ▸ ⟨rfl, rfl, rfl⟩, rfl, ?_, fun _ => .inl, fun _ => .inl, ?_, ?_, fun _ _ => .inl,
      fun c' h => .inl ?_, ?_⟩
    all_goals try solve | (rw [hc]; simp)
    rw [← (Action.notify.inj (hc.symm.trans h)).1]
    exact hn
  | @wake t u c q ha hc hu =>
    refine .inl ⟨t, q, ha, hc ▸ ⟨rfl, rfl, rfl⟩, rfl, ?_, fun _ => .inl, fun _ => .inl, ?_, ?_, fun v c' hv => .inl ?_,
      fun c' h => .inr ⟨u, ?_, Function.update_self ..⟩, ?_⟩
    all_goals try solve | (rw [hc]; simp)
    · by_cases huv : v = u
      · subst huv
        cases (Function.update_self v none s.asleep).symm.trans hv
      · exact (Function.update_of_ne huv none s.asleep).symm.trans hv
    · rw [← (Action.notify.inj (hc.symm.trans h)).1]
      exact hu
  | @wakeAll t c q ha hc =>
    have hasleep : ∀ u c', (if s.asleep u = some c then none else s.asleep u) = some c' →
        s.asleep u = some c' ∧ c' ≠ c := by
      intro u c' hu
      split_ifs at hu with hcu
      exact ⟨hu, fun hcc => hcu (hcc ▸ hu)⟩
    refine .inl ⟨t, q, ha, hc ▸ ⟨rfl, rfl, rfl⟩, rfl, ?_, fun _ => .inl, fun _ => .inl, ?_, ?_,
      fun u c' hu => .inl (hasleep u c' hu).1, ?_, fun c' h u hu => ?_⟩
    all_goals try solve | (rw [hc]; simp)
    exact (hasleep u c' hu).2 (Action.notifyAll.inj (hc.symm.trans h)).1.symm
  | @sleep t c k q ha hc =>
    refine .inl ⟨t, q, ha, hc ▸ ⟨rfl, rfl, rfl⟩, rfl, ?_, fun _ => .inl, fun _ => .inl, ?_, ?_, fun u c' hu => ?_, ?_, ?_⟩
    all_goals try solve | (rw [hc]; simp)
    by_cases hut : u = t
    · subst hut
      have hcc : c = c' := Option.some.inj ((Function.update_self u (some c) s.asleep).symm.trans hu)
      exact .inr ⟨rfl, k, hcc ▸ hc⟩
    · exact .inl ((Function.update_of_ne hut (some c) s.asleep).symm.trans hu)
  | @set t e' q ha hc =>
    refine .inl ⟨t, q, ha, hc ▸ ⟨rfl, rfl, rfl⟩, rfl, fun e h => ?_, fun e hf => ?_, fun e hf => .inl ?_, ?_, ?_,
      fun _ _ => .inl, ?_, ?_⟩
    all_goals try solve | (rw [hc]; simp)
    · rw [← (Action.set.inj (hc.symm.trans h)).1]
      exact Function.update_self ..
    · by_cases he : e = e'
      · exact .inr (he ▸ hc)
      · exact .inl ((Function.update_of_ne he true s.flag).symm.trans hf)
    · by_cases he : e = e'
      · exact he ▸ Function.update_self ..
      · exact (Function.update_of_ne he true s.flag).trans hf
  | @wait t e' q ha hc hf =>
    refine .inl ⟨t, q, ha, hc ▸ ⟨rfl, rfl, rfl⟩, rfl, ?_, fun e he => .inl ?_, fun e he => ?_, fun e h => ?_, ?_,
      fun _ _ => .inl, ?_, ?_⟩
    all_goals try solve | (rw [hc]; simp)
    · by_cases hee : e = e'
      · exact hee ▸ hf
      · exact (Function.update_of_ne hee false s.flag).symm.trans he
    · by_cases hee : e = e'
      · exact .inr (hee ▸ hc)
      · exact .inl ((Function.update_of_ne hee false s.flag).trans he)
    · rw [← (Action.wait.inj (hc.symm.trans h)).1]
      exact hf
  | @rouse u c hu =>
    refine .inr ⟨rfl, rfl, rfl, rfl, fun v c' hv => ?_⟩
    by_cases huv : v = u
    · subst huv
      cases (Function.update_self v none s.asleep).symm.trans hv
    · exact (Function.update_of_ne huv none s.asleep).symm.trans hv

/-- A thread does not leave the points it is meant for. -/
theorem Step.place {Place : τ → π → Prop}
    (hstays : ∀ {t p d q d' r}, (P t p).Leads d q d' r → Place t p → Place t q) (hi : ∀ t, Place t (s.pc t))
    (h : Step P s r s') : ∀ t, Place t (s'.pc t) := by
  intro u
  rcases h.moved with ⟨t, q, hm⟩ | ⟨-, -, hpc, -⟩
  · by_cases hut : u = t
    · exact hut ▸ hm.self.symm ▸ hstays hm.leads (hi t)
    · exact (hm.other hut).symm ▸ hi u
  · exact hpc.symm ▸ hi u

/-- The points `Place t` are all that `t` ever comes to. Only `w` waits for the event `e`. It comes to the points
`W`, from where it is going to wait, when there is nothing to wake up for (`B`), and whoever brings that about is
at one of the points `S`, from where it is going to signal the event. -/
structure Signals (P : τ → π → Action τ κ ε γ σ π ρ) (w : τ) (e : ε) (Place : τ → π → Prop) (W S : π → Prop)
    (B : σ → Prop) : Prop where
  stays : ∀ {t p d q d' r}, (P t p).Leads d q d' r → Place t p → Place t q
  waits : ∀ {t p q}, P t p = .wait e q → Place t p → t = w ∧ ¬ W q
  enters : ∀ {p d q d' r}, (P w p).Leads d q d' r → ¬ W p → W q → ¬ B d'
  raises : ∀ {t p d q d' r}, (P t p).Leads d q d' r → Place t p → ¬ B d → B d' → S q
  pending : ∀ {t p d q d' r}, (P t p).Leads d q d' r → S p → S q ∨ P t p = .set e q

def Signalled (e : ε) (S : π → Prop) (s : State τ κ ε γ σ π) : Prop := s.flag e = true ∨ ∃ u, S (s.pc u)

/-- Who waits although there is something to wake up for is going to be woken. -/
structure Watched (w : τ) (e : ε) (Place : τ → π → Prop) (W S : π → Prop) (B : σ → Prop) (s : State τ κ ε γ σ π) :
    Prop where
  place : ∀ t, Place t (s.pc t)
  woken : W (s.pc w) → B s.data → Signalled e S s

omit [DecidableEq τ] [DecidableEq κ] [DecidableEq ε] [DecidableEq γ] in
theorem Watched.flag {w : τ} {e : ε} {Place : τ → π → Prop} {W S : π → Prop} {B : σ → Prop}
    (hi : Watched w e Place W S B s) (hW : W (s.pc w)) (hB : B s.data) (hself : ¬ S (s.pc w))
    (hothers : ∀ u, u ≠ w → ¬ S (s.pc u)) : s.flag e = true := by
  rcases hi.woken hW hB with hf | ⟨u, hu⟩
  · exact hf
  · by_cases huw : u = w
    · exact absurd (huw ▸ hu) hself
    · exact absurd hu (hothers u huw)

/-- No signal is lost. -/
theorem Signals.step {w : τ} {e : ε} {Place : τ → π → Prop} {W S : π → Prop} {B : σ → Prop}
    (hP : Signals P w e Place W S B) (hi : Watched w e Place W S B s) (h : Step P s r s') :
    Watched w e Place W S B s' := by
  refine ⟨h.place hP.stays hi.place, ?_⟩
  rcases h.moved with ⟨t, q, hm⟩ | ⟨-, hd, hpc, hflag, -⟩
  · intro hW' hB'
    by_cases hB : B s.data
    · have hW : W (s.pc w) := by
        by_contra hW
        by_cases hw : w = t
        · subst hw
          exact hP.enters hm.leads hW (hm.self ▸ hW') hB'
        · exact hW (hm.other hw ▸ hW')
      rcases hi.woken hW hB with hf | ⟨u, hu⟩
      · rcases hm.wait e hf with he | hwait
        · exact .inl he
        · obtain ⟨rfl, hq⟩ := hP.waits hwait (hi.place t)
          exact absurd (hm.self ▸ hW') hq
      · by_cases hut : u = t
        · subst hut
          rcases hP.pending hm.leads hu with hq | hset
          · exact .inr ⟨u, hm.self.symm ▸ hq⟩
          · exact .inl (hm.set e hset)
        · exact .inr ⟨u, (hm.other hut).symm ▸ hu⟩
    · exact .inr ⟨t, hm.self.symm ▸ hP.raises hm.leads (hi.place t) hB hB'⟩
  · intro hW' hB'
    rcases hi.woken (hpc ▸ hW') (hd ▸ hB') with hf | ⟨u, hu⟩
    · exact .inl (by rw [hflag, hf])
    · exact .inr ⟨u, hpc.symm ▸ hu⟩

/-- Whoever sleeps on the condition variable `c` is at one of the points `W`, which it leaves when there is nothing
left to wake up for (`B`). Whoever brings that about is at one of the points `S`, from where it is going to notify. -/
structure Attends (P : τ → π → Action τ κ ε γ σ π ρ) (c : γ) (Place : τ → π → Prop) (W S : π → Prop) (B : σ → Prop) :
    Prop where
  stays : ∀ {t p d q d' r}, (P t p).Leads d q d' r → Place t p → Place t q
  sleeps : ∀ {t p k q}, P t p = .sleep c k q → Place t p → W q
  leaves : ∀ {t p d q d' r}, (P t p).Leads d q d' r → Place t p → W p → ¬ W q → ¬ B d'
  raises : ∀ {t p d q d' r}, (P t p).Leads d q d' r → Place t p → ¬ B d → B d' → S q
  pending : ∀ {t p d q d' r}, (P t p).Leads d q d' r → S p → S q ∨ P t p = .notify c q ∨ P t p = .notifyAll c q

/-- If somebody sleeps although there is something to wake up for, somebody is going to notify, or is awake and
going to see to it. -/
structure Attended (c : γ) (Place : τ → π → Prop) (W S : π → Prop) (B : σ → Prop) (s : State τ κ ε γ σ π) : Prop where
  place : ∀ t, Place t (s.pc t)
  sleeping : ∀ u, s.asleep u = some c → W (s.pc u)
  woken : ∀ u, s.asleep u = some c → B s.data → (∃ v, S (s.pc v)) ∨ ∃ v, s.asleep v = none ∧ W (s.pc v)

/-- No notification is lost, if nobody falls asleep while there is something to wake up for. -/
theorem Attends.step {c : γ} {Place : τ → π → Prop} {W S : π → Prop} {B : σ → Prop}
    (hP : Attends P c Place W S B) (hempty : ∀ t c k q, P t (s.pc t) = .sleep c k q → ¬ B s.data)
    (hi : Attended c Place W S B s) (h : Step P s r s') : Attended c Place W S B s' := by
  have hplace : ∀ t, Place t (s'.pc t) := h.place hP.stays hi.place
  rcases h.moved with ⟨t, q, hm⟩ | ⟨-, hd, hpc, -, hasleep⟩
  · have hsleeping : ∀ u, s'.asleep u = some c → W (s'.pc u) := by
      intro u hu
      rcases hm.sleep u c hu with hu | ⟨rfl, k, hk⟩
      · have hut : u ≠ t := fun hut => nomatch (hut ▸ hm.awake).symm.trans hu
        exact (hm.other hut).symm ▸ hi.sleeping u hu
      · exact hm.self.symm ▸ hP.sleeps hk (hi.place u)
    -- Who is awake stays so, unless it moves and falls asleep.
    have hawake : ∀ v, s.asleep v = none → B s.data → s'.asleep v = none := by
      intro v hv hB
      by_contra hn
      obtain ⟨c', hc'⟩ := Option.ne_none_iff_exists'.mp hn
      rcases hm.sleep v c' hc' with hc' | ⟨rfl, k, hk⟩
      · cases hv.symm.trans hc'
      · exact hempty v c' k q hk hB
    refine ⟨hplace, hsleeping, fun u hu hB' => ?_⟩
    by_cases hB : B s.data
    · have hu₀ : s.asleep u = some c := by
        rcases hm.sleep u c hu with hu | ⟨rfl, k, hk⟩
        · exact hu
        · exact absurd hB (hempty u c k q hk)
      rcases hi.woken u hu₀ hB with ⟨v, hv⟩ | ⟨v, hv, hvW⟩
      · by_cases hvt : v = t
        · subst hvt
          rcases hP.pending hm.leads hv with hq | hn | hn
          · exact .inl ⟨v, hm.self.symm ▸ hq⟩
          · rcases hm.notify c hn with hnone | ⟨w, hw, hw'⟩
            · exact absurd hu₀ (hnone u)
            · have hwv : w ≠ v := fun hwv => nomatch (hwv ▸ hm.awake).symm.trans hw
              exact .inr ⟨w, hw', (hm.other hwv).symm ▸ hi.sleeping w hw⟩
          · exact absurd hu (hm.notifyAll c hn u)
        · exact .inl ⟨v, (hm.other hvt).symm ▸ hv⟩
      · by_cases hvt : v = t
        · subst hvt
          refine .inr ⟨v, hawake v hv hB, hm.self.symm ▸ ?_⟩
          by_contra hq
          exact hP.leaves hm.leads (hi.place v) hvW hq hB'
        · exact .inr ⟨v, hawake v hv hB, (hm.other hvt).symm ▸ hvW⟩
    · exact .inl ⟨t, hm.self.symm ▸ hP.raises hm.leads (hi.place t) hB hB'⟩
  · refine ⟨hplace, fun u hu => hpc.symm ▸ hi.sleeping u (hasleep u c hu), fun u hu hB' => ?_⟩
    rcases hi.woken u (hasleep u c hu) (hd ▸ hB') with ⟨v, hv⟩ | ⟨v, hv, hvW⟩
    · exact .inl ⟨v, hpc.symm ▸ hv⟩
    · refine .inr ⟨v, ?_, hpc.symm ▸ hvW⟩
      by_contra hn
      obtain ⟨c', hc'⟩ := Option.ne_none_iff_exists'.mp hn
      cases hv.symm.trans (hasleep v c' hc')

/-! ## Moves and runs -/

variable [Fintype τ]

/-- The step that a move stands for, if the thread can make it. -/
def step (P : τ → π → Action τ κ ε γ σ π ρ) (s : State τ κ ε γ σ π) : Move τ π → Option (Option ρ × State τ κ ε γ σ π)
  | .run t =>
    if s.asleep t = none then
      match P t (s.pc t) with
      | .lock k q =>
        if s.owner k = none then some (none, { s.goto t q with owner := Function.update s.owner k (some t) }) else none
      | .unlock k q =>
        if s.owner k = some t then some (none, { s.goto t q with owner := Function.update s.owner k none }) else none
      | .set e q => some (none, { s.goto t q with flag := Function.update s.flag e true })
      | .wait e q =>
        if s.flag e then some (none, { s.goto t q with flag := Function.update s.flag e false }) else none
      | .sleep c k q =>
        if s.owner k = some t then some (none, { s.goto t q with
          owner := Function.update s.owner k none, asleep := Function.update s.asleep t (some c) }) else none
      | .notify c q => if ∃ u, s.asleep u = some c then none else some (none, s.goto t q)
      | .notifyAll c q =>
        some (none, { s.goto t q with asleep := fun u => if s.asleep u = some c then none else s.asleep u })
      | .join u q => if (P u (s.pc u)).isStop then some (none, s.goto t q) else none
      | .act f => some ((f s.data).2.2, { s.goto t (f s.data).1 with data := (f s.data).2.1 })
      | .choose _ | .stop => none
    else none
  | .pick t q =>
    if s.asleep t = none then
      match P t (s.pc t) with
      | .choose ok => if ok q then some (none, s.goto t q) else none
      | _ => none
    else none
  | .wake t u =>
    if s.asleep t = none then
      match P t (s.pc t) with
      | .notify c q =>
        if s.asleep u = some c then some (none, { s.goto t q with asleep := Function.update s.asleep u none }) else none
      | _ => none
    else none
  | .rouse u => if (s.asleep u).isSome then some (none, { s with asleep := Function.update s.asleep u none }) else none

variable {m : Move τ π}

theorem Step.of_step (h : step P s m = some (r, s')) : Step P s r s' := by
  cases m with
  | run t =>
    simp only [step] at h
    split at h
    next ha =>
      split at h
      next hc =>
        split_ifs at h with ho
        obtain ⟨rfl, rfl⟩ := Prod.mk.inj (Option.some.inj h)
        exact .lock ha hc ho
      next hc =>
        split_ifs at h with ho
        obtain ⟨rfl, rfl⟩ := Prod.mk.inj (Option.some.inj h)
        exact .unlock ha hc ho
      next hc =>
        obtain ⟨rfl, rfl⟩ := Prod.mk.inj (Option.some.inj h)
        exact .set ha hc
      next hc =>
        split_ifs at h with hf
        obtain ⟨rfl, rfl⟩ := Prod.mk.inj (Option.some.inj h)
        exact .wait ha hc hf
      next hc =>
        split_ifs at h with ho
        obtain ⟨rfl, rfl⟩ := Prod.mk.inj (Option.some.inj h)
        exact .sleep ha hc ho
      next hc =>
        split_ifs at h with hn
        obtain ⟨rfl, rfl⟩ := Prod.mk.inj (Option.some.inj h)
        exact .pass ha hc (not_exists.mp hn)
      next hc =>
        obtain ⟨rfl, rfl⟩ := Prod.mk.inj (Option.some.inj h)
        exact .wakeAll ha hc
      next hc =>
        split_ifs at h with hu
        obtain ⟨rfl, rfl⟩ := Prod.mk.inj (Option.some.inj h)
        exact .join ha hc (Action.isStop_iff.mp hu)
      next hc =>
        obtain ⟨rfl, rfl⟩ := Prod.mk.inj (Option.some.inj h)
        exact .act ha hc
      next => cases h
      next => cases h
    next => cases h
  | pick t q =>
    simp only [step] at h
    split at h
    next ha =>
      split at h
      next hc =>
        split_ifs at h with hq
        obtain ⟨rfl, rfl⟩ := Prod.mk.inj (Option.some.inj h)
        exact .choose ha hc hq
      next => cases h
    next => cases h
  | wake t u =>
    simp only [step] at h
    split at h
    next ha =>
      split at h
      next hc =>
        split_ifs at h with hu
        obtain ⟨rfl, rfl⟩ := Prod.mk.inj (Option.some.inj h)
        exact .wake ha hc hu
      next => cases h
    next => cases h
  | rouse u =>
    simp only [step] at h
    split_ifs at h with hu
    obtain ⟨rfl, rfl⟩ := Prod.mk.inj (Option.some.inj h)
    obtain ⟨c, hc⟩ := Option.isSome_iff_exists.mp hu
    exact .rouse hc

/-- What every step keeps, with what has been given out so far, holds after every run. -/
theorem run_invariant {I : List ρ → State τ κ ε γ σ π → Prop}
    (hstep : ∀ h s r s', I h s → Step P s r s' → I (h ++ r.toList) s') {h : List ρ} {ms : List (Move τ π)}
    {rs : List (Option ρ)} (hI : I h s) (hr : Transition.run? (step P) s ms = some (rs, s')) :
    I (h ++ rs.reduceOption) s' := by
  induction ms generalizing h s rs with
  | nil =>
    obtain ⟨rfl, rfl⟩ := Prod.mk.inj (Option.some.inj hr)
    simpa [List.reduceOption] using hI
  | cons m ms ih =>
    obtain ⟨r, s₁, rs₁, h₁, h₂, rfl⟩ := Transition.run?_cons_eq_some.mp hr
    have hlast := ih (hstep h s r s₁ hI (Step.of_step h₁)) h₂
    cases r <;> simpa [List.reduceOption] using hlast

theorem run_get {ms : List (Move τ π)} (hr : (Transition.run? (step P) s ms).isSome) :
    Transition.run? (step P) s ms = some (((Transition.run? (step P) s ms).get hr).1,
      ((Transition.run? (step P) s ms).get hr).2) :=
  (Option.some_get hr).symm

omit [DecidableEq τ] [DecidableEq κ] [DecidableEq ε] [DecidableEq γ] [Fintype τ] in
theorem State.awake [IsEmpty γ] (s : State τ κ ε γ σ π) (t : τ) : s.asleep t = none :=
  Option.eq_none_iff_forall_ne_some.mpr fun c => isEmptyElim c

/-- Moving alone from `s`, the thread `t` gives out `h` and comes to a state with `Q`, whatever it chooses. -/
inductive Alone (P : τ → π → Action τ κ ε γ σ π ρ) (t : τ) (Q : State τ κ ε γ σ π → Prop) :
    State τ κ ε γ σ π → List ρ → Prop
  | done {s : State τ κ ε γ σ π} (hQ : Q s) : Alone P t Q s []
  | step {s s' : State τ κ ε γ σ π} {r : Option ρ} {h : List ρ} (hs : step P s (.run t) = some (r, s'))
      (hn : Alone P t Q s' h) : Alone P t Q s (r.toList ++ h)
  | choose {s : State τ κ ε γ σ π} {ok : π → Bool} {q : π} {h : List ρ} (ha : s.asleep t = none)
      (hc : P t (s.pc t) = .choose ok) (hq : ok q) (hn : ∀ q, ok q → Alone P t Q (s.goto t q) h) : Alone P t Q s h

namespace Alone
variable {t : τ} {k : κ} {e : ε} {q : π} {h h' : List ρ} {Q : State τ κ ε γ σ π → Prop}

theorem act {f : σ → π × σ × Option ρ} (ha : s.asleep t = none) (hc : P t (s.pc t) = .act f)
    (hh : h' = (f s.data).2.2.toList ++ h) (hn : Alone P t Q { s.goto t (f s.data).1 with data := (f s.data).2.1 } h) :
    Alone P t Q s h' :=
  hh ▸ .step (by simp only [Monitor.step, ha, hc, if_true]) hn

theorem lock (ha : s.asleep t = none) (hc : P t (s.pc t) = .lock k q) (ho : s.owner k = none)
    (hn : Alone P t Q { s.goto t q with owner := Function.update s.owner k (some t) } h) : Alone P t Q s h :=
  .step (r := none) (by simp only [Monitor.step, ha, hc, ho, if_true]) hn

theorem unlock (ha : s.asleep t = none) (hc : P t (s.pc t) = .unlock k q) (ho : s.owner k = some t)
    (hn : Alone P t Q { s.goto t q with owner := Function.update s.owner k none } h) : Alone P t Q s h :=
  .step (r := none) (by simp only [Monitor.step, ha, hc, ho, if_true]) hn

theorem set (ha : s.asleep t = none) (hc : P t (s.pc t) = .set e q)
    (hn : Alone P t Q { s.goto t q with flag := Function.update s.flag e true } h) : Alone P t Q s h :=
  .step (r := none) (by simp only [Monitor.step, ha, hc, if_true]) hn

theorem wait (ha : s.asleep t = none) (hc : P t (s.pc t) = .wait e q) (hf : s.flag e = true)
    (hn : Alone P t Q { s.goto t q with flag := Function.update s.flag e false } h) : Alone P t Q s h :=
  .step (r := none) (by simp only [Monitor.step, ha, hc, hf, if_true]) hn

theorem mono {R : State τ κ ε γ σ π → Prop} (hn : Alone P t Q s h) (hQR : ∀ s', Q s' → R s') : Alone P t R s h := by
  induction hn with
  | done hQ => exact .done (hQR _ hQ)
  | step hs _ ih => exact .step hs ih
  | choose ha hc hq _ ih => exact .choose ha hc hq ih

/-- Moving alone is a run. -/
theorem run (hn : Alone P t Q s h) : ∃ ms rs s', Transition.run? (Monitor.step P) s ms = some (rs, s') ∧
    (∀ m ∈ ms, m = .run t ∨ ∃ q, m = .pick t q) ∧ rs.reduceOption = h ∧ Q s' := by
  induction hn with
  | done hQ => exact ⟨[], [], _, rfl, nofun, rfl, hQ⟩
  | @step s s₁ r h hs _ ih =>
    obtain ⟨ms, rs, s', hr, hms, rfl, hQ⟩ := ih
    refine ⟨.run t :: ms, r :: rs, s', Transition.run?_cons_eq_some.mpr ⟨r, s₁, rs, hs, hr, rfl⟩, ?_, ?_, hQ⟩
    · exact List.forall_mem_cons.mpr ⟨.inl rfl, hms⟩
    · cases r <;> rfl
  | @choose s ok q h ha hc hq _ ih =>
    obtain ⟨ms, rs, s', hr, hms, rfl, hQ⟩ := ih q hq
    have hs : Monitor.step P s (.pick t q) = some (none, s.goto t q) := by simp only [Monitor.step, ha, hc, hq, if_true]
    refine ⟨.pick t q :: ms, none :: rs, s', Transition.run?_cons_eq_some.mpr ⟨none, _, rs, hs, hr, rfl⟩, ?_, rfl, hQ⟩
    exact List.forall_mem_cons.mpr ⟨.inr ⟨q, rfl⟩, hms⟩

end Alone

/-- Some schedule leads from one state to the other. -/
def Reaches (P : τ → π → Action τ κ ε γ σ π ρ) (s s' : State τ κ ε γ σ π) : Prop :=
  ∃ ms rs, Transition.run? (step P) s ms = some (rs, s')

theorem Reaches.refl (s : State τ κ ε γ σ π) : Reaches P s s := ⟨[], [], rfl⟩

theorem Reaches.head {s₁ : State τ κ ε γ σ π} (hs : step P s m = some (r, s₁)) (h : Reaches P s₁ s') :
    Reaches P s s' := by
  obtain ⟨ms, rs, hr⟩ := h
  exact ⟨m :: ms, r :: rs, Transition.run?_cons_eq_some.mpr ⟨r, s₁, rs, hs, hr, rfl⟩⟩

theorem Reaches.trans {s₁ : State τ κ ε γ σ π} (h : Reaches P s s₁) (h₁ : Reaches P s₁ s') : Reaches P s s' := by
  obtain ⟨ms, rs, hr⟩ := h
  induction ms generalizing s rs with
  | nil =>
    obtain ⟨-, rfl⟩ := Prod.mk.inj (Option.some.inj hr)
    exact h₁
  | cons m ms ih =>
    obtain ⟨r, s₂, rs₂, h₂, hr, -⟩ := Transition.run?_cons_eq_some.mp hr
    exact .head h₂ (ih _ hr)

theorem Reaches.pick {t : τ} {ok : π → Bool} {q : π} (ha : s.asleep t = none) (hc : P t (s.pc t) = .choose ok)
    (hq : ok q) (h : Reaches P (s.goto t q) s') : Reaches P s s' :=
  .head (m := .pick t q) (r := none) (by simp only [step, ha, hc, hq, if_true]) h

theorem Reaches.join {t u : τ} {q : π} (ha : s.asleep t = none) (hc : P t (s.pc t) = .join u q)
    (hu : P u (s.pc u) = .stop) : Reaches P s (s.goto t q) :=
  .head (m := .run t) (r := none) (by simp only [step, ha, hc, hu, Action.isStop, if_true]) (.refl _)

theorem Reaches.of_isSome {ms : List (Move τ π)} (hr : (Transition.run? (step P) s ms).isSome) :
    Reaches P s ((Transition.run? (step P) s ms).get hr).2 :=
  ⟨ms, _, run_get hr⟩

theorem Alone.reaches {t : τ} {Q : State τ κ ε γ σ π → Prop} {h : List ρ} (hn : Alone P t Q s h) :
    ∃ s', Reaches P s s' ∧ Q s' := by
  obtain ⟨ms, rs, s', hr, -, -, hQ⟩ := hn.run
  exact ⟨s', ⟨ms, rs, hr⟩, hQ⟩

theorem Reaches.invariant {I : State τ κ ε γ σ π → Prop} (hstep : ∀ s r s', I s → Step P s r s' → I s') (hI : I s)
    (h : Reaches P s s') : I s' := by
  obtain ⟨ms, rs, hr⟩ := h
  exact run_invariant (I := fun (_ : List ρ) s => I s) (fun _ s r s' => hstep s r s') (h := []) hI hr

theorem step_run_other {t u : τ} (h : step P s (.run t) = some (r, s')) (hu : u ≠ t) : s'.pc u = s.pc u := by
  have hgoto : ∀ q, (s.goto t q).pc u = s.pc u := fun q => s.goto_other q hu
  simp only [step] at h
  split at h
  next =>
    split at h <;> (try split_ifs at h) <;> first
    | cases h; done
    | obtain ⟨rfl, rfl⟩ := Prod.mk.inj (Option.some.inj h)
      exact hgoto _
  next => cases h

theorem Alone.others {t : τ} {Q : State τ κ ε γ σ π → Prop} {h : List ρ} (hn : Alone P t Q s h) :
    Alone P t (fun s' => Q s' ∧ ∀ u, u ≠ t → s'.pc u = s.pc u) s h := by
  induction hn with
  | done hQ => exact .done ⟨hQ, fun _ _ => rfl⟩
  | step hs _ ih =>
    refine .step hs (ih.mono fun s' hQ => ⟨hQ.1, fun u hu => ?_⟩)
    exact (hQ.2 u hu).trans (step_run_other hs hu)
  | choose ha hc hq _ ih =>
    exact .choose ha hc hq fun q hq => (ih q hq).mono fun s' hQ =>
      ⟨hQ.1, fun u hu => (hQ.2 u hu).trans (State.goto_other _ q hu)⟩

/-! ## Histories -/

/-- What has been given out is a history of an abstract machine that leads from one state to another. -/
def Legal {υ : Type*} (does : ρ → υ → υ → Prop) : υ → List ρ → υ → Prop
  | x, [], y => y = x
  | x, o :: os, y => ∃ z, does o x z ∧ Legal does z os y

theorem Legal.concat {υ : Type*} {does : ρ → υ → υ → Prop} {x y z : υ} {os : List ρ} {o : ρ}
    (h : Legal does x os y) (ho : does o y z) : Legal does x (os ++ [o]) z := by
  induction os generalizing x with
  | nil =>
    subst h
    exact ⟨z, ho, rfl⟩
  | cons o' os ih =>
    obtain ⟨w, hw, h⟩ := h
    exact ⟨w, hw, ih h⟩

end Sfup.Monitor
