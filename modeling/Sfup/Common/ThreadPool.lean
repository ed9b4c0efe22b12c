import Sfup.Lib.Monitor
import Mathlib.Data.Fintype.Sum

/-! `cThreadPool` and its `cWorkerThread`s of `Common/ThreadPool.cpp`, started as `cIsThread` does it. -/
namespace Sfup.Common.ThreadPool
open Monitor

/-- `m_evtStart` and `m_QueueNonempty` of a worker. -/
inductive Event (ι : Type*)
  | start (i : ι)
  | nonempty (i : ι)
  deriving DecidableEq

/-- `m_Queue` and `m_ShouldTerminate` of the workers. -/
structure Pool (ι α : Type*) where
  queue : ι → List α
  shouldTerminate : ι → Bool

inductive Op (ι α : Type*)
  /-- A task was put into the queue of a worker. -/
  | pushed (i : ι) (task : α)
  | ran (i : ι) (task : α)
  /-- `ASSERT(!m_Queue.empty())` has failed. -/
  | assertFailed (i : ι)

/-- The places in the member functions, with the worker that `this` is. -/
inductive Point (ι α : Type*)
  /-- `DoExecute` waits until `Start` is through. -/
  | doExecute (i : ι)
  | execute (i : ι)
  | executeTest (i : ι)
  | executeUnlock (i : ι)
  | executeWait (i : ι)
  | executeCheck (i : ι)
  | executePop (i : ι)
  | executeRelease (i : ι) (task : α)
  | executeRun (i : ι) (task : α)
  | executeReturn (i : ι)
  | finished
  | idle
  /-- `Init` is going to let the worker `i` begin, and then the others. -/
  | init (i : ι) (is : List ι)
  | pushTask (i : ι) (task : α)
  | pushTaskPush (i : ι) (task : α)
  | pushTaskSet (i : ι)
  | pushTaskUnlock (i : ι)
  /-- `Destory` is going to destroy the worker `i`, and then the others. -/
  | destory (i : ι) (is : List ι)
  | destorySet (i : ι) (is : List ι)
  | destoryJoin (i : ι) (is : List ι)

variable {ι υ α : Type*}

def initNext : List ι → Point ι α
  | [] => .idle
  | i :: is => .init i is

def destoryNext : List ι → Point ι α
  | [] => .idle
  | i :: is => .destory i is

/-- A member function of the pool may be called. `AddTask` picks some worker. -/
def Point.isCall : Point ι α → Bool
  | .init _ _ | .pushTask _ _ | .destory _ _ => true
  | _ => false

section
variable [DecidableEq ι]

/-- The workers and whoever uses the pool, line by line. -/
def code (calls : υ → Point ι α → Bool) :
    ι ⊕ υ → Point ι α → Action (ι ⊕ υ) ι (Event ι) Empty (Pool ι α) (Point ι α) (Op ι α)
  | _, .doExecute i => .wait (.start i) (.execute i)
  | _, .execute i => .lock i (.executeTest i)
  | _, .executeTest i => .act fun d =>
    (if !d.shouldTerminate i && (d.queue i).isEmpty then .executeUnlock i else .executeCheck i, d, none)
  | _, .executeUnlock i => .unlock i (.executeWait i)
  | _, .executeWait i => .wait (.nonempty i) (.execute i)
  | _, .executeCheck i => .act fun d => (if d.shouldTerminate i then .executeReturn i else .executePop i, d, none)
  | _, .executePop i => .act fun d =>
    match d.queue i with
    | [] => (.executeReturn i, d, some (.assertFailed i))
    | task :: q => (.executeRelease i task, { d with queue := Function.update d.queue i q }, none)
  | _, .executeRelease i task => .unlock i (.executeRun i task)
  | _, .executeRun i task => .act fun d => (.execute i, d, some (.ran i task))
  | _, .executeReturn i => .unlock i .finished
  | _, .finished => .stop
  | .inr u, .idle => .choose fun q => q.isCall && calls u q
  | .inl _, .idle => .stop
  | _, .init i is => .set (.start i) (initNext is)
  | _, .pushTask i task => .lock i (.pushTaskPush i task)
  | _, .pushTaskPush i task => .act fun d =>
    (.pushTaskSet i, { d with queue := Function.update d.queue i (d.queue i ++ [task]) }, some (.pushed i task))
  | _, .pushTaskSet i => .set (.nonempty i) (.pushTaskUnlock i)
  | _, .pushTaskUnlock i => .unlock i .idle
  | _, .destory i is => .act fun d =>
    (.destorySet i is, { d with shouldTerminate := Function.update d.shouldTerminate i true }, none)
  | _, .destorySet i is => .set (.nonempty i) (.destoryJoin i is)
  | _, .destoryJoin i is => .join (.inl i) (destoryNext is)

end

/-- The pool before `Init`. -/
def start : State (ι ⊕ υ) ι (Event ι) Empty (Pool ι α) (Point ι α) where
  data := ⟨fun _ => [], fun _ => false⟩
  owner := fun _ => none
  flag := fun _ => false
  asleep := fun _ => none
  pc
    | .inl i => .doExecute i
    | .inr _ => .idle

/-- The points of the worker `i`, and those of whoever uses the pool. -/
def Place : ι ⊕ υ → Point ι α → Prop
  | .inl i, .doExecute j | .inl i, .execute j | .inl i, .executeTest j | .inl i, .executeUnlock j
  | .inl i, .executeWait j | .inl i, .executeCheck j | .inl i, .executePop j | .inl i, .executeRelease j _
  | .inl i, .executeRun j _ | .inl i, .executeReturn j => j = i
  | .inl _, .finished | .inr _, .idle | .inr _, .init _ _ | .inr _, .pushTask _ _ | .inr _, .pushTaskPush _ _
  | .inr _, .pushTaskSet _ | .inr _, .pushTaskUnlock _ | .inr _, .destory _ _ | .inr _, .destorySet _ _
  | .inr _, .destoryJoin _ _ => True
  | _, _ => False

/-- The points at which `m_CS` of the worker `i` is held. -/
def holds [DecidableEq ι] (i : ι) : Point ι α → Bool
  | .executeTest j | .executeUnlock j | .executeCheck j | .executePop j | .executeRelease j _ | .executeReturn j
  | .pushTaskPush j _ | .pushTaskSet j | .pushTaskUnlock j => j = i
  | _ => false

def Knows : Point ι α → Pool ι α → Prop
  | .executeCheck i, d => d.queue i = [] → d.shouldTerminate i
  | .executePop i, d => d.queue i ≠ []
  | .executeUnlock i, d => d.queue i = []
  | _, _ => True

/-- The tasks that were put into the queue of the worker `i`. -/
def pushedTo [DecidableEq ι] (i : ι) : List (Op ι α) → List α :=
  List.filterMap fun
    | .pushed j task => if j = i then some task else none
    | _ => none

/-- The tasks that the worker `i` has run. -/
def ranBy [DecidableEq ι] (i : ι) : List (Op ι α) → List α :=
  List.filterMap fun
    | .ran j task => if j = i then some task else none
    | _ => none

/-- The task that a worker has taken out and not run yet. -/
def inHand : Point ι α → List α
  | .executeRelease _ task | .executeRun _ task => [task]
  | _ => []

private theorem place_initNext (u : υ) (is : List ι) : Place (.inr u : ι ⊕ υ) (initNext is : Point ι α) := by
  cases is <;> trivial

private theorem place_destoryNext (u : υ) (is : List ι) : Place (.inr u : ι ⊕ υ) (destoryNext is : Point ι α) := by
  cases is <;> trivial

section
variable [DecidableEq ι] {calls : υ → Point ι α → Bool} {t : ι ⊕ υ} {p q : Point ι α} {d d' : Pool ι α}
  {r : Option (Op ι α)} {i : ι}

theorem place_of_leads (hl : (code calls t p).Leads d q d' r) (hp : Place t p) : Place t q := by
  cases p with
  | idle =>
    cases t with
    | inl i => cases hp
    | inr u =>
      have hq := (Bool.and_eq_true_iff.mp hl.1).1
      cases q <;> first | cases hq; done | trivial
  | finished => cases hl
  | executeTest i =>
    cases t with
    | inr u => cases hp
    | inl j =>
      obtain ⟨rfl, -⟩ := hl
      dsimp only
      split_ifs <;> exact hp
  | executeCheck i =>
    cases t with
    | inr u => cases hp
    | inl j =>
      obtain ⟨rfl, -⟩ := hl
      dsimp only
      split_ifs <;> exact hp
  | executePop i =>
    cases t with
    | inr u => cases hp
    | inl j =>
      obtain ⟨rfl, -⟩ := hl
      dsimp only
      split <;> exact hp
  | init i is =>
    cases t with
    | inl j => cases hp
    | inr u =>
      obtain ⟨rfl, -⟩ := hl
      exact place_initNext u is
  | destoryJoin i is =>
    cases t with
    | inl j => cases hp
    | inr u =>
      obtain ⟨rfl, -⟩ := hl
      exact place_destoryNext u is
  | _ =>
    obtain ⟨rfl, -⟩ := hl
    cases t <;> first | exact hp | trivial

/-- What one step does to the tasks of the worker `i`, if the worker makes it. -/
theorem balance_of_worker (hl : (code calls (.inl i) p).Leads d q d' r) (hp : Place (.inl i : ι ⊕ υ) p) :
    ranBy i r.toList ++ inHand q ++ d'.queue i = inHand p ++ d.queue i ++ pushedTo i r.toList := by
  cases p <;> first | cases hp; done | skip
  case finished => cases hl
  case executeTest j =>
    obtain ⟨rfl, rfl, rfl⟩ := hl
    dsimp only
    split_ifs <;> simp [ranBy, pushedTo, inHand]
  case executeCheck j =>
    obtain ⟨rfl, rfl, rfl⟩ := hl
    dsimp only
    split_ifs <;> simp [ranBy, pushedTo, inHand]
  case executePop j =>
    obtain rfl : j = i := hp
    simp only [code, Action.Leads] at hl
    split at hl
    next hq =>
      obtain ⟨rfl, rfl, rfl⟩ := hl
      simp [ranBy, pushedTo, inHand]
    next task tasks hq =>
      obtain ⟨rfl, rfl, rfl⟩ := hl
      simp [ranBy, pushedTo, inHand, hq]
  case executeRun j task =>
    obtain rfl : j = i := hp
    obtain ⟨rfl, rfl, rfl⟩ := hl
    simp [ranBy, pushedTo, inHand]
  all_goals
    obtain ⟨rfl, rfl, rfl⟩ := hl
    simp [ranBy, pushedTo, inHand]

/-- What one step does to the tasks of the worker `i`, if somebody else makes it. -/
theorem balance_of_other (hl : (code calls t p).Leads d q d' r) (hp : Place t p) (ht : t ≠ .inl i) :
    ranBy i r.toList = [] ∧ d'.queue i = d.queue i ++ pushedTo i r.toList := by
  have hself : ∀ j, t = .inl j → j ≠ i := fun j hj hji => ht (hji ▸ hj)
  cases p with
  | idle =>
    cases t with
    | inl j => cases hp
    | inr u =>
      obtain ⟨-, rfl, rfl⟩ := hl
      simp [ranBy, pushedTo]
  | finished => cases hl
  | executePop j =>
    cases t with
    | inr u => cases hp
    | inl k =>
      obtain rfl : j = k := hp
      have hji := hself j rfl
      simp only [code, Action.Leads] at hl
      split at hl
      · obtain ⟨rfl, rfl, rfl⟩ := hl
        simp [ranBy, pushedTo]
      · obtain ⟨rfl, rfl, rfl⟩ := hl
        simp [ranBy, pushedTo, Function.update_of_ne hji.symm]
  | executeRun j task =>
    cases t with
    | inr u => cases hp
    | inl k =>
      obtain rfl : j = k := hp
      obtain ⟨rfl, rfl, rfl⟩ := hl
      simp [ranBy, pushedTo, hself j rfl]
  | pushTaskPush j task =>
    obtain ⟨rfl, rfl, rfl⟩ := hl
    by_cases hji : j = i
    · subst hji
      simp [ranBy, pushedTo]
    · simp [ranBy, pushedTo, hji, Function.update_of_ne (Ne.symm hji)]
  | _ =>
    obtain ⟨rfl, rfl, rfl⟩ := hl
    simp [ranBy, pushedTo]

/-- The assertion in the worker `i` has not failed. -/
def Sound (i : ι) (h : List (Op ι α)) (_ : Pool ι α) : Prop := .assertFailed i ∉ h

def Holds (i : ι) (p : Point ι α) (h : List (Op ι α)) (d : Pool ι α) : Prop := Sound i h d ∧ Knows p d

/-- A step on the pool that the holder of another lock, or nobody's holder, makes. -/
theorem knows_of_other (hq : holds i q) (hqueue : d'.queue i = d.queue i)
    (hterm : d.shouldTerminate i → d'.shouldTerminate i) (hk : Knows q d) : Knows q d' := by
  cases q <;> first | trivial | skip
  case executeCheck j =>
    obtain rfl : j = i := of_decide_eq_true hq
    exact fun h => hterm (hk (hqueue ▸ h))
  case executePop j =>
    obtain rfl : j = i := of_decide_eq_true hq
    exact fun h => hk (hqueue ▸ h)
  case executeUnlock j =>
    obtain rfl : j = i := of_decide_eq_true hq
    exact hqueue.trans hk

omit [DecidableEq ι] in
theorem Sound.append {h : List (Op ι α)} (hh : Sound i h d) (hr : r ≠ some (.assertFailed i)) :
    Sound i (h ++ r.toList) d' := by
  intro hmem
  rcases List.mem_append.mp hmem with hmem | hmem
  · exact hh hmem
  · exact hr (Option.mem_toList.mp hmem)

theorem guards_other {f : Pool ι α → Point ι α × Pool ι α × Option (Op ι α)} (hp : ¬ holds i p)
    (hf : ∀ d, ¬ holds i (f d).1 ∧ (f d).2.1.queue i = d.queue i ∧
      (d.shouldTerminate i → (f d).2.1.shouldTerminate i) ∧ (f d).2.2 ≠ some (.assertFailed i)) :
    Guards i (holds i) (Sound i) (Holds i) p
      (.act f : Action (ι ⊕ υ) ι (Event ι) Empty (Pool ι α) (Point ι α) (Op ι α)) := by
  intro d
  obtain ⟨hq, hqueue, hterm, hr⟩ := hf d
  refine ⟨by rw [Bool.eq_false_of_not_eq_true hp, Bool.eq_false_of_not_eq_true hq], ?_⟩
  rw [if_neg hp]
  exact fun h => ⟨fun hh => hh.append hr, fun q hq hA => ⟨hA.1.append hr, knows_of_other hq hqueue hterm hA.2⟩⟩

private theorem guards_own {f : Pool ι α → Point ι α × Pool ι α × Option (Op ι α)} (hp : holds i p)
    (hf : ∀ d, holds i (f d).1 ∧ (Knows p d → Knows (f d).1 (f d).2.1 ∧ (f d).2.2 ≠ some (.assertFailed i))) :
    Guards i (holds i) (Sound i) (Holds i) p
      (.act f : Action (ι ⊕ υ) ι (Event ι) Empty (Pool ι α) (Point ι α) (Op ι α)) := by
  intro d
  obtain ⟨hq, hk⟩ := hf d
  refine ⟨hq.trans hp.symm, ?_⟩
  rw [if_pos hp]
  exact fun h hA => ⟨hA.1.append (hk hA.2).2, (hk hA.2).1⟩

private theorem guards_lock {j : ι} (hp : ¬ holds i p) (hq : holds j q = true) (hqi : holds i q = decide (j = i))
    (hk : ∀ d, Knows q d) : Guards i (holds i) (Sound i) (Holds i) p
      (.lock j q : Action (ι ⊕ υ) ι (Event ι) Empty (Pool ι α) (Point ι α) (Op ι α)) := by
  rw [Guards]
  split_ifs with hj
  · subst hj
    exact ⟨hp, hq, fun h d hs => ⟨hs, hk d⟩⟩
  · exact ⟨by rw [hqi, Bool.eq_false_of_not_eq_true hp, decide_eq_false hj], fun h => absurd h hp⟩

private theorem guards_unlock {j : ι} (hp : holds i p = decide (j = i)) (hq : ¬ holds i q) :
    Guards i (holds i) (Sound i) (Holds i) p
      (.unlock j q : Action (ι ⊕ υ) ι (Event ι) Empty (Pool ι α) (Point ι α) (Op ι α)) := by
  rw [Guards]
  split_ifs with hj
  · exact ⟨by rw [hp, decide_eq_true hj], hq, fun h d hA => hA.1⟩
  · rw [decide_eq_false hj] at hp
    exact ⟨by rw [hp, Bool.eq_false_of_not_eq_true hq], fun h => absurd hp (by rw [h]; decide)⟩

private theorem holds_initNext (is : List ι) : ¬ holds i (initNext is : Point ι α) := by
  cases is <;> exact Bool.false_ne_true

private theorem holds_destoryNext (is : List ι) : ¬ holds i (destoryNext is : Point ι α) := by
  cases is <;> exact Bool.false_ne_true

theorem guards (i : ι) (t : ι ⊕ υ) (p : Point ι α) :
    Guards i (holds i) (Sound i) (Holds i) p (code calls t p) := by
  cases p with
  | idle =>
    cases t with
    | inl j => trivial
    | inr u =>
      intro q hq
      have hcall := (Bool.and_eq_true_iff.mp hq).1
      cases q <;> first | cases hcall; done | exact ⟨rfl, nofun⟩
  | doExecute | executeWait | destorySet => exact ⟨rfl, nofun⟩
  | init j is => exact ⟨Bool.eq_false_of_not_eq_true (holds_initNext is), nofun⟩
  | destoryJoin j is => exact ⟨Bool.eq_false_of_not_eq_true (holds_destoryNext is), nofun⟩
  | pushTaskSet j => exact ⟨rfl, fun _ h d hA => ⟨hA.1, trivial⟩⟩
  | finished => trivial
  | execute | pushTask => exact guards_lock Bool.false_ne_true (decide_eq_true rfl) rfl fun _ => trivial
  | executeUnlock | executeRelease | executeReturn | pushTaskUnlock => exact guards_unlock rfl Bool.false_ne_true
  | executeTest j =>
    by_cases hj : j = i
    · subst hj
      refine guards_own (decide_eq_true rfl) fun d => ?_
      by_cases hd : (!d.shouldTerminate j && (d.queue j).isEmpty) = true
      · rw [if_pos hd]
        exact ⟨decide_eq_true rfl, fun _ => ⟨List.isEmpty_iff.mp (Bool.and_eq_true_iff.mp hd).2, nofun⟩⟩
      · rw [if_neg hd]
        refine ⟨decide_eq_true rfl, fun _ => ⟨?_, nofun⟩⟩
        show d.queue j = [] → d.shouldTerminate j = true
        intro hq
        by_contra hterm
        exact hd (by simp [hterm, hq])
    · refine guards_other (by simp [holds, hj]) fun d => ⟨?_, rfl, id, nofun⟩
      split_ifs <;> simp [holds, hj]
  | executeCheck j =>
    by_cases hj : j = i
    · subst hj
      refine guards_own (decide_eq_true rfl) fun d => ?_
      by_cases hd : d.shouldTerminate j = true
      · rw [if_pos hd]
        exact ⟨decide_eq_true rfl, fun _ => ⟨trivial, nofun⟩⟩
      · rw [if_neg hd]
        exact ⟨decide_eq_true rfl, fun hk => ⟨fun hq => hd (hk hq), nofun⟩⟩
    · refine guards_other (by simp [holds, hj]) fun d => ⟨?_, rfl, id, nofun⟩
      split_ifs <;> simp [holds, hj]
  | executePop j =>
    by_cases hj : j = i
    · refine guards_own (decide_eq_true hj) fun d => ?_
      cases hd : d.queue j with
      | nil => exact ⟨decide_eq_true hj, fun hk => absurd hd hk⟩
      | cons task q => exact ⟨decide_eq_true hj, fun _ => ⟨trivial, nofun⟩⟩
    · refine guards_other (by simp [holds, hj]) fun d => ?_
      cases hd : d.queue j <;> simp [holds, hj, Function.update_of_ne (Ne.symm hj)]
  | executeRun j task => exact guards_other Bool.false_ne_true fun d => ⟨Bool.false_ne_true, rfl, id, nofun⟩
  | pushTaskPush j task =>
    by_cases hj : j = i
    · exact guards_own (decide_eq_true hj) fun d => ⟨decide_eq_true hj, fun _ => ⟨trivial, nofun⟩⟩
    · exact guards_other (by simp [holds, hj]) fun d =>
        ⟨by simp [holds, hj], Function.update_of_ne (Ne.symm hj) .., id, nofun⟩
  | destory j is =>
    refine guards_other Bool.false_ne_true fun d => ⟨Bool.false_ne_true, rfl, fun h => ?_, nofun⟩
    by_cases hj : i = j
    · simp [hj]
    · simpa [Function.update_of_ne hj] using h

/-- The worker `i` waits or is going to, and has not been woken. -/
def Waits (i : ι) (p : Point ι α) : Prop := p = .executeUnlock i ∨ p = .executeWait i

/-- Somebody is going to wake the worker `i`. -/
def Wakes (i : ι) (p : Point ι α) : Prop := p = .pushTaskSet i ∨ ∃ is, p = .destorySet i is

/-- What the worker `i` has to wake up for. -/
def Pool.Busy (i : ι) (d : Pool ι α) : Prop := d.queue i ≠ [] ∨ d.shouldTerminate i

/-- No task and no order to stop is overslept. -/
theorem signals (i : ι) : Signals (code calls : ι ⊕ υ → Point ι α → _) (.inl i) (.nonempty i) Place (Waits i) (Wakes i)
    (Pool.Busy i) where
  stays := place_of_leads
  waits {t p q} hw hp := by
    cases t <;> cases p <;> cases hw
    · exact ⟨congrArg Sum.inl hp.symm, by simp [Waits]⟩
    · cases hp
  enters {p d q d' r} hl hp hq := by
    cases p with
    | executeTest j =>
      obtain ⟨rfl, rfl, -⟩ := hl
      dsimp only at hq
      split_ifs at hq with hd
      · rcases hq with hq | hq <;> cases hq
        simpa [Pool.Busy, and_comm] using hd
      · rcases hq with hq | hq <;> cases hq
    | executeUnlock j =>
      obtain ⟨rfl, -⟩ := hl
      rcases hq with hq | hq <;> cases hq
      exact absurd (.inl rfl) hp
    | executeCheck j =>
      obtain ⟨rfl, -⟩ := hl
      dsimp only at hq
      split_ifs at hq <;> rcases hq with hq | hq <;> cases hq
    | executePop j =>
      obtain ⟨rfl, -⟩ := hl
      cases hj : d.queue j <;> simp [Waits, hj] at hq
    | init j is =>
      obtain ⟨rfl, -⟩ := hl
      cases is <;> rcases hq with hq | hq <;> cases hq
    | destoryJoin j is =>
      obtain ⟨rfl, -⟩ := hl
      cases is <;> rcases hq with hq | hq <;> cases hq
    | idle => cases hl
    | finished => cases hl
    | _ =>
      obtain ⟨rfl, -⟩ := hl
      rcases hq with hq | hq <;> cases hq
  raises {t p d q d' r} hl hp hd hd' := by
    cases p with
    | idle =>
      cases t with
      | inl j => cases hl
      | inr u => exact absurd (hl.2.1 ▸ hd') hd
    | finished => cases hl
    | executePop j =>
      obtain ⟨-, rfl, -⟩ := hl
      cases hj : d.queue j with
      | nil => exact absurd (by simpa [hj] using hd') hd
      | cons task tasks =>
        refine absurd ?_ hd
        by_cases hji : j = i
        · subst hji
          exact .inl (by simp [hj])
        · simpa [Pool.Busy, hj, Function.update_of_ne (Ne.symm hji)] using hd'
    | pushTaskPush j task =>
      obtain ⟨rfl, rfl, -⟩ := hl
      by_cases hji : j = i
      · exact .inl (hji ▸ rfl)
      · exact absurd (by simpa [Pool.Busy, Function.update_of_ne (Ne.symm hji)] using hd') hd
    | destory j is =>
      obtain ⟨rfl, rfl, -⟩ := hl
      by_cases hji : j = i
      · exact .inr ⟨is, hji ▸ rfl⟩
      · exact absurd (by simpa [Pool.Busy, Function.update_of_ne (Ne.symm hji)] using hd') hd
    | _ =>
      obtain ⟨-, rfl, -⟩ := hl
      exact absurd hd' hd
  pending {t p d q d' r} hl hp := by
    rcases hp with rfl | ⟨is, rfl⟩ <;> obtain ⟨rfl, -⟩ := hl <;> exact .inr rfl

theorem terminate_of_leads (hl : (code calls t p).Leads d q d' r) (ht : d.shouldTerminate i) : d'.shouldTerminate i := by
  cases p with
  | idle =>
    cases t with
    | inl j => cases hl
    | inr u => exact hl.2.1 ▸ ht
  | finished => cases hl
  | executePop j =>
    obtain ⟨-, rfl, -⟩ := hl
    dsimp only
    split <;> exact ht
  | destory j is =>
    obtain ⟨-, rfl, -⟩ := hl
    by_cases hji : i = j
    · simp [hji]
    · simpa [Function.update_of_ne hji] using ht
  | _ =>
    obtain ⟨-, rfl, -⟩ := hl
    exact ht

theorem told_of_leads (hl : (code calls (.inl i) p).Leads d q d' r) (hk : Knows p d) (hp : Place (.inl i : ι ⊕ υ) p)
    (hq : q = .executeReturn i ∨ q = .finished) : p = .executeReturn i ∨ d'.shouldTerminate i := by
  cases p with
  | idle => cases hl
  | finished => cases hl
  | executeTest j =>
    obtain ⟨rfl, -⟩ := hl
    dsimp only at hq
    split_ifs at hq <;> rcases hq with hq | hq <;> cases hq
  | executeCheck j =>
    obtain rfl : j = i := hp
    obtain ⟨rfl, rfl, -⟩ := hl
    dsimp only at hq
    split_ifs at hq with ht
    · exact .inr ht
    · rcases hq with hq | hq <;> cases hq
  | executePop j =>
    obtain ⟨rfl, -⟩ := hl
    cases hj : d.queue j with
    | nil => exact absurd hj hk
    | cons task tasks => simp [hj] at hq
  | executeReturn j =>
    obtain rfl : j = i := hp
    exact .inl rfl
  | _ =>
    first
    | cases hp; done
    | obtain ⟨rfl, -⟩ := hl
      rcases hq with hq | hq <;> cases hq

variable [DecidableEq υ] {ms : List (Move (ι ⊕ υ) (Point ι α))} {rs : List (Option (Op ι α))}
  {s s' : State (ι ⊕ υ) ι (Event ι) Empty (Pool ι α) (Point ι α)} {h : List (Op ι α)}

/-- Each task that was put into a queue has been run by that worker, is in its hands or is still in the queue, in
this order. -/
structure Balanced (h : List (Op ι α)) (s : State (ι ⊕ υ) ι (Event ι) Empty (Pool ι α) (Point ι α)) : Prop where
  place : ∀ t, Place t (s.pc t)
  tasks : ∀ i, pushedTo i h = ranBy i h ++ inHand (s.pc (.inl i)) ++ s.data.queue i

theorem Balanced.step (hi : Balanced h s) (hs : Step (code calls) s r s') : Balanced (h ++ r.toList) s' := by
  refine ⟨hs.place place_of_leads hi.place, fun i => ?_⟩
  have happ : ∀ h₁ h₂ : List (Op ι α), pushedTo i (h₁ ++ h₂) = pushedTo i h₁ ++ pushedTo i h₂ ∧
      ranBy i (h₁ ++ h₂) = ranBy i h₁ ++ ranBy i h₂ := fun _ _ => ⟨List.filterMap_append, List.filterMap_append⟩
  rw [(happ _ _).1, (happ _ _).2, hi.tasks i]
  rcases hs.moved with ⟨t, q, hm⟩ | ⟨rfl, hd, hpc, -⟩
  · by_cases ht : t = .inl i
    · subst ht
      have hb := balance_of_worker hm.leads (hi.place _)
      rw [hm.self]
      simp only [List.append_assoc] at hb ⊢
      rw [hb]
    · obtain ⟨hran, hq⟩ := balance_of_other hm.leads (hi.place t) ht
      rw [hm.other (Ne.symm ht), hran, hq]
      simp only [List.append_nil, List.append_assoc]
  · rw [hd, hpc]
    simp [pushedTo, ranBy]

omit [DecidableEq υ] in
theorem knows_worker (hg : Guarded i (holds i) (Sound i) (Holds i) h s) (hb : Balanced h s) :
    Knows (s.pc (.inl i)) s.data := by
  by_cases hh : holds i (s.pc (.inl i))
  · exact (hg.held _ hh).2
  · have hplace := hb.place (.inl i)
    cases hpi : s.pc (.inl i) <;> rw [hpi] at hh hplace <;> first | trivial | skip
    all_goals exact absurd (decide_eq_true (show _ = i from hplace)) hh

variable [Fintype ι] [Fintype υ]

omit [DecidableEq υ] [Fintype ι] [Fintype υ] in
theorem balanced_start : Balanced [] (start : State (ι ⊕ υ) ι (Event ι) Empty (Pool ι α) (Point ι α)) where
  place t := by
    cases t with
    | inl i => rfl
    | inr u => trivial
  tasks _ := rfl

omit [DecidableEq υ] [Fintype ι] [Fintype υ] in
theorem guarded_start (i : ι) : Guarded i (holds i) (Sound i) (Holds i) []
    (start : State (ι ⊕ υ) ι (Event ι) Empty (Pool ι α) (Point ι α)) where
  owner t := by cases t <;> simp [start, holds]
  free _ := List.not_mem_nil
  held t ht := by cases t <;> cases ht

theorem run_balanced (hr : Transition.run? (Monitor.step (code calls)) start ms = some (rs, s)) :
    Balanced rs.reduceOption s :=
  run_invariant (fun _ _ _ _ => Balanced.step) balanced_start hr

theorem run_guarded (i : ι) (hr : Transition.run? (Monitor.step (code calls)) start ms = some (rs, s)) :
    Guarded i (holds i) (Sound i) (Holds i) rs.reduceOption s :=
  run_invariant (fun _ _ _ _ hi hs => hi.step (guards i) hs) (guarded_start i) hr

/-- In a pool of two, the first worker has been given a task and is going to look for it. -/
def session : List (Move (Bool ⊕ Unit) (Point Bool ℕ)) :=
  [.pick (.inr ()) (.init true [false]), .run (.inr ()), .run (.inr ()), .pick (.inr ()) (.pushTask true 7)] ++
    List.replicate 4 (.run (.inr ())) ++ List.replicate 5 (.run (.inl true))

def after (ms : List (Move (Bool ⊕ Unit) (Point Bool ℕ))) :
    Option (List (Option (Op Bool ℕ)) × State (Bool ⊕ Unit) Bool (Event Bool) Empty (Pool Bool ℕ) (Point Bool ℕ)) :=
  Transition.run? (Monitor.step (code fun _ _ => true)) start ms

/-- A worker runs the tasks that it is given in the order in which they were put into its queue, each of them at
most once: what has not been run is in its hands or still in the queue. -/
theorem tasks_in_order (hr : Transition.run? (Monitor.step (code calls)) start ms = some (rs, s)) (i : ι) :
    pushedTo i rs.reduceOption = ranBy i rs.reduceOption ++ inHand (s.pc (.inl i)) ++ s.data.queue i :=
  (run_balanced hr).tasks i

theorem tasks_in_order_session : ∃ h : (after session).isSome,
    pushedTo true ((after session).get h).1.reduceOption =
      ranBy true ((after session).get h).1.reduceOption ++ inHand (((after session).get h).2.pc (.inl true)) ++
        ((after session).get h).2.data.queue true :=
  ⟨rfl, tasks_in_order (run_get rfl) true⟩

/-- The assertion in `Execute` never fails, and a worker is alone with its queue. -/
theorem assertion_holds (hr : Transition.run? (Monitor.step (code calls)) start ms = some (rs, s)) (i : ι) :
    .assertFailed i ∉ rs.reduceOption ∧ ∀ t u, holds i (s.pc t) → holds i (s.pc u) → t = u := by
  have hg := run_guarded i hr
  refine ⟨?_, fun t u => hg.exclusive⟩
  cases ho : s.owner i with
  | none => exact hg.free ho
  | some t => exact (hg.held t ((hg.owner t).mp ho)).1

theorem assertion_holds_session : ∃ h : (after session).isSome,
    .assertFailed true ∉ ((after session).get h).1.reduceOption ∧
      ∀ t u, holds true (((after session).get h).2.pc t) → holds true (((after session).get h).2.pc u) → t = u :=
  ⟨rfl, assertion_holds (run_get rfl) true⟩

theorem run_watched (i : ι) (hr : Transition.run? (Monitor.step (code calls)) start ms = some (rs, s)) :
    Watched (.inl i) (.nonempty i) Place (Waits i) (Wakes i) (Pool.Busy i) s := by
  refine run_invariant (I := fun (_ : List (Op ι α)) s => Watched (.inl i) (.nonempty i) Place (Waits i) (Wakes i)
    (Pool.Busy i) s) (fun _ _ _ _ hi hs => (signals i).step hi hs) (h := []) ⟨fun t => ?_, fun hw => ?_⟩ hr
  · cases t with
    | inl j => rfl
    | inr u => trivial
  · rcases hw with hw | hw <;> cases hw

theorem run_flag (hr : Transition.run? (Monitor.step (code calls)) start ms = some (rs, s))
    (hothers : ∀ t, t ≠ .inl i → ¬ holds i (s.pc t) ∧ ¬ Wakes i (s.pc t)) (hw : Waits i (s.pc (.inl i)))
    (hb : s.data.Busy i) : s.flag (.nonempty i) = true := by
  refine (run_watched i hr).flag hw hb ?_ fun u hu => (hothers u hu).2
  rcases hw with hpc | hpc <;> rw [hpc] <;> rintro (h | ⟨is, h⟩) <;> cases h

def Told (i : ι) (s : State (ι ⊕ υ) ι (Event ι) Empty (Pool ι α) (Point ι α)) : Prop :=
  s.pc (.inl i) = .executeReturn i ∨ s.pc (.inl i) = .finished → s.data.shouldTerminate i

/-- `Start` has let the worker `i` begin. -/
def Started (i : ι) (s : State (ι ⊕ υ) ι (Event ι) Empty (Pool ι α) (Point ι α)) : Prop :=
  s.pc (.inl i) = .doExecute i → s.flag (.start i)

theorem run_told (i : ι) (hr : Transition.run? (Monitor.step (code calls)) start ms = some (rs, s)) : Told i s := by
  have hinv : Guarded i (holds i) (Sound i) (Holds i) rs.reduceOption s ∧ Balanced rs.reduceOption s ∧ Told i s := by
    refine run_invariant (h := []) (I := fun h s => Guarded i (holds i) (Sound i) (Holds i) h s ∧ Balanced h s ∧ Told i s)
      (fun h s r s' hi hs => ⟨hi.1.step (guards i) hs, hi.2.1.step hs, ?_⟩)
      ⟨guarded_start i, balanced_start, fun hp => ?_⟩ hr
    · obtain ⟨hg, hb, ht⟩ := hi
      intro hp
      rcases hs.moved with ⟨t, q, hm⟩ | ⟨-, hd, hpc, -⟩
      · by_cases hti : t = .inl i
        · subst hti
          rw [hm.self] at hp
          rcases told_of_leads hm.leads (knows_worker hg hb) (hb.place _) hp with hret | hterm
          · exact terminate_of_leads hm.leads (ht (.inl hret))
          · exact hterm
        · rw [hm.other (Ne.symm hti)] at hp
          exact terminate_of_leads hm.leads (ht hp)
      · rw [hpc] at hp
        exact hd ▸ ht hp
    · rcases hp with hp | hp <;> cases hp
  exact hinv.2.2

/-! ## What a worker does when it moves alone -/

/-- The worker `i` has nothing in its hands and nothing in its queue. -/
def Drained (i : ι) (s : State (ι ⊕ υ) ι (Event ι) Empty (Pool ι α) (Point ι α)) : Prop :=
  inHand (s.pc (.inl i)) = [] ∧ s.data.queue i = []

/-- The steps of one worker from `executePop` on. -/
theorem alone_executePop {task : α} {tasks : List α} (hpc : s.pc (.inl i) = .executePop i)
    (ho : s.owner i = some (.inl i)) (hq : s.data.queue i = task :: tasks)
    {Q : State (ι ⊕ υ) ι (Event ι) Empty (Pool ι α) (Point ι α) → Prop}
    (hn : ∀ s' : State (ι ⊕ υ) ι (Event ι) Empty (Pool ι α) (Point ι α), s'.pc (.inl i) = .execute i →
      s'.owner i = none → s'.data.queue i = tasks → s'.data.shouldTerminate i = s.data.shouldTerminate i →
      Alone (code calls) (.inl i) Q s' h) :
    Alone (code calls) (.inl i) Q s (.ran i task :: h) := by
  refine .act (h := .ran i task :: h) (s.awake _) (by rw [hpc]; rfl) (by rw [hq]; rfl) ?_
  rw [hq]
  refine .unlock (State.awake _ _) (by rw [State.goto_self]; rfl) ho ?_
  refine .act (h := h) (State.awake _ _) (by rw [State.goto_self]; rfl) rfl ?_
  refine hn _ (State.goto_self ..) ?_ ?_ rfl
  · exact Function.update_self ..
  · exact Function.update_self ..

theorem alone_execute_drained {tasks : List α} (hpc : s.pc (.inl i) = .execute i) (ho : s.owner i = none)
    (ht : s.data.shouldTerminate i = false) (hq : s.data.queue i = tasks) :
    Alone (code calls) (.inl i) (Drained i) s (tasks.map (.ran i)) := by
  induction tasks generalizing s with
  | nil => exact .done ⟨by rw [hpc]; rfl, hq⟩
  | cons task tasks ih =>
    refine .lock (s.awake _) (by rw [hpc]; rfl) ho ?_
    refine .act (State.awake _ _) (by rw [State.goto_self]; rfl) rfl ?_
    refine .act (State.awake _ _) (by rw [State.goto_self]; simp [hq]; rfl) rfl ?_
    refine alone_executePop ?_ ?_ ?_ fun s' hpc' ho' hq' ht' => ih hpc' ho' ?_ hq'
    · simp [hq, ht]
    · simp
    · exact hq
    · exact ht' ▸ ht

/-- Without an order to stop, a worker that has begun runs the task in its hands and then all that are in its
queue, in order, once nobody else is inside a call on it: it does not oversleep. -/
theorem worker_drains (hr : Transition.run? (Monitor.step (code calls)) start ms = some (rs, s)) (hb : Started i s)
    (ht : s.data.shouldTerminate i = false)
    (hothers : ∀ t, t ≠ .inl i → ¬ holds i (s.pc t) ∧ ¬ Wakes i (s.pc t)) :
    Alone (code calls) (.inl i) (Drained i) s ((inHand (s.pc (.inl i)) ++ s.data.queue i).map (.ran i)) := by
  have hg := run_guarded i hr
  have hplace := (run_balanced hr).place (.inl i)
  have hknows := knows_worker hg (run_balanced hr)
  have hown : holds i (s.pc (.inl i)) → s.owner i = some (.inl i) := (hg.owner _).mpr
  have hfree : ¬ holds i (s.pc (.inl i)) → s.owner i = none := hg.owner_eq_none_of_ne fun t ht => (hothers t ht).1
  cases hpc : s.pc (.inl i) <;> rw [hpc] at hplace hown hfree hknows <;> (try cases hplace; done)
  case finished => exact absurd (run_told i hr (.inr hpc)) (by simp [ht])
  case doExecute j =>
    obtain rfl : j = i := hplace
    refine .wait (s.awake _) (by rw [hpc]; rfl) (hb hpc) ?_
    exact alone_execute_drained (State.goto_self ..) (hfree Bool.false_ne_true) ht rfl
  case execute j =>
    obtain rfl : j = i := hplace
    exact alone_execute_drained hpc (hfree Bool.false_ne_true) ht rfl
  case executeTest j =>
    obtain rfl : j = i := hplace
    have ho := hown (decide_eq_true rfl)
    cases hq : s.data.queue j with
    | nil => exact .done ⟨by rw [hpc]; rfl, hq⟩
    | cons task tasks =>
      refine .act (s.awake _) (by rw [hpc]; rfl) rfl ?_
      refine .act (State.awake _ _) (by rw [State.goto_self]; simp [hq]; rfl) rfl ?_
      show Alone (code calls) _ _ _ (.ran j task :: tasks.map (.ran j))
      refine alone_executePop ?_ ?_ ?_ fun s' hpc' ho' hq' ht' => alone_execute_drained hpc' ho' (ht'.trans ht) hq'
      · simp [hq, ht]
      · exact ho
      · exact hq
  case executeUnlock j =>
    obtain rfl : j = i := hplace
    rw [show s.data.queue j = [] from hknows]
    exact .done ⟨by rw [hpc]; rfl, hknows⟩
  case executeWait j =>
    obtain rfl : j = i := hplace
    cases hq : s.data.queue j with
    | nil => exact .done ⟨by rw [hpc]; rfl, hq⟩
    | cons task tasks =>
      have hf : s.flag (.nonempty j) = true := run_flag hr hothers (.inr hpc) (.inl (by simp [hq]))
      refine .wait (s.awake _) (by rw [hpc]; rfl) hf ?_
      exact alone_execute_drained (State.goto_self ..) (hfree Bool.false_ne_true) ht hq
  case executeCheck j =>
    obtain rfl : j = i := hplace
    cases hq : s.data.queue j with
    | nil => exact .done ⟨by rw [hpc]; rfl, hq⟩
    | cons task tasks =>
      refine .act (s.awake _) (by rw [hpc]; rfl) rfl ?_
      show Alone (code calls) _ _ _ (.ran j task :: tasks.map (.ran j))
      refine alone_executePop ?_ ?_ ?_ fun s' hpc' ho' hq' ht' => alone_execute_drained hpc' ho' (ht'.trans ht) hq'
      · simp [ht]
      · exact hown (decide_eq_true rfl)
      · exact hq
  case executePop j =>
    obtain rfl : j = i := hplace
    obtain ⟨task, tasks, hq⟩ := List.exists_cons_of_ne_nil hknows
    rw [hq]
    exact alone_executePop hpc (hown (decide_eq_true rfl)) hq fun s' hpc' ho' hq' ht' =>
      alone_execute_drained hpc' ho' (ht'.trans ht) hq'
  case executeRelease j task =>
    obtain rfl : j = i := hplace
    refine .unlock (s.awake _) (by rw [hpc]; rfl) (hown (decide_eq_true rfl)) ?_
    refine .act (State.awake _ _) (by rw [State.goto_self]; rfl) rfl ?_
    exact alone_execute_drained (State.goto_self ..) (Function.update_self ..) ht rfl
  case executeRun j task =>
    obtain rfl : j = i := hplace
    refine .act (s.awake _) (by rw [hpc]; rfl) rfl ?_
    exact alone_execute_drained (State.goto_self ..) (hfree Bool.false_ne_true) ht rfl
  case executeReturn j =>
    obtain rfl : j = i := hplace
    exact absurd (run_told j hr (.inl hpc)) (by simp [ht])

theorem worker_drains_session : ∃ h : (after session).isSome,
    Alone (code fun (_ : Unit) (_ : Point Bool ℕ) => true) (.inl true) (Drained true) ((after session).get h).2
      [.ran true 7] := by
  refine ⟨rfl, worker_drains (i := true) (run_get rfl) nofun rfl ?_⟩
  rintro (b | u) hb
  · cases b
    · exact ⟨Bool.false_ne_true, by rintro (h | ⟨is, h⟩) <;> cases h⟩
    · exact absurd rfl hb
  · exact ⟨Bool.false_ne_true, by rintro (h | ⟨is, h⟩) <;> cases h⟩

theorem alone_executeReturn (hpc : s.pc (.inl i) = .executeReturn i) (ho : s.owner i = some (.inl i)) :
    Alone (code calls) (.inl i) (fun s' => s'.pc (.inl i) = .finished) s [] :=
  .unlock (s.awake _) (by rw [hpc]; rfl) ho (.done (State.goto_self ..))

theorem alone_executeCheck (hpc : s.pc (.inl i) = .executeCheck i) (ho : s.owner i = some (.inl i))
    (ht : s.data.shouldTerminate i) :
    Alone (code calls) (.inl i) (fun s' => s'.pc (.inl i) = .finished) s [] :=
  .act (s.awake _) (by rw [hpc]; rfl) rfl (alone_executeReturn (by simp [ht]) ho)

theorem alone_execute_finished (hpc : s.pc (.inl i) = .execute i) (ho : s.owner i = none)
    (ht : s.data.shouldTerminate i) :
    Alone (code calls) (.inl i) (fun s' => s'.pc (.inl i) = .finished) s [] := by
  refine .lock (s.awake _) (by rw [hpc]; rfl) ho ?_
  refine .act (State.awake _ _) (by rw [State.goto_self]; rfl) rfl ?_
  exact alone_executeCheck (by simp [ht]) (by simp) ht

/-- Once it is told to stop, a worker that has begun stops, and runs at most one more task. -/
theorem worker_stops (hr : Transition.run? (Monitor.step (code calls)) start ms = some (rs, s)) (hb : Started i s)
    (ht : s.data.shouldTerminate i) (hothers : ∀ t, t ≠ .inl i → ¬ holds i (s.pc t) ∧ ¬ Wakes i (s.pc t)) :
    ∃ tasks : List α, tasks.length ≤ 1 ∧
      Alone (code calls) (.inl i) (fun s' => s'.pc (.inl i) = .finished) s (tasks.map (.ran i)) := by
  have hg := run_guarded i hr
  have hplace := (run_balanced hr).place (.inl i)
  have hknows := knows_worker hg (run_balanced hr)
  have hown : holds i (s.pc (.inl i)) → s.owner i = some (.inl i) := (hg.owner _).mpr
  have hfree : ¬ holds i (s.pc (.inl i)) → s.owner i = none := hg.owner_eq_none_of_ne fun t ht => (hothers t ht).1
  have hflag : Waits i (s.pc (.inl i)) → s.flag (.nonempty i) = true := fun hw => run_flag hr hothers hw (.inr ht)
  cases hpc : s.pc (.inl i) <;> rw [hpc] at hplace hown hfree hknows hflag <;> (try cases hplace; done)
  case finished => exact ⟨[], by simp, .done hpc⟩
  case doExecute j =>
    obtain rfl : j = i := hplace
    refine ⟨[], by simp, .wait (s.awake _) (by rw [hpc]; rfl) (hb hpc) ?_⟩
    exact alone_execute_finished (State.goto_self ..) (hfree Bool.false_ne_true) ht
  case execute j =>
    obtain rfl : j = i := hplace
    exact ⟨[], by simp, alone_execute_finished hpc (hfree Bool.false_ne_true) ht⟩
  case executeTest j =>
    obtain rfl : j = i := hplace
    refine ⟨[], by simp, .act (s.awake _) (by rw [hpc]; rfl) rfl ?_⟩
    exact alone_executeCheck (by simp [ht]) (hown (decide_eq_true rfl)) ht
  case executeUnlock j =>
    obtain rfl : j = i := hplace
    refine ⟨[], by simp, .unlock (s.awake _) (by rw [hpc]; rfl) (hown (decide_eq_true rfl)) ?_⟩
    refine .wait (State.awake _ _) (by rw [State.goto_self]; rfl) (hflag (.inl rfl)) ?_
    exact alone_execute_finished (State.goto_self ..) (Function.update_self ..) ht
  case executeWait j =>
    obtain rfl : j = i := hplace
    refine ⟨[], by simp, .wait (s.awake _) (by rw [hpc]; rfl) (hflag (.inr rfl)) ?_⟩
    exact alone_execute_finished (State.goto_self ..) (hfree Bool.false_ne_true) ht
  case executeCheck j =>
    obtain rfl : j = i := hplace
    exact ⟨[], by simp, alone_executeCheck hpc (hown (decide_eq_true rfl)) ht⟩
  case executePop j =>
    obtain rfl : j = i := hplace
    obtain ⟨task, tasks, hq⟩ := List.exists_cons_of_ne_nil hknows
    exact ⟨[task], le_rfl, alone_executePop hpc (hown (decide_eq_true rfl)) hq fun s' hpc' ho' _ ht' =>
      alone_execute_finished hpc' ho' (ht' ▸ ht)⟩
  case executeRelease j task =>
    obtain rfl : j = i := hplace
    refine ⟨[task], le_rfl, .unlock (s.awake _) (by rw [hpc]; rfl) (hown (decide_eq_true rfl)) ?_⟩
    refine .act (State.awake _ _) (by rw [State.goto_self]; rfl) rfl ?_
    exact alone_execute_finished (State.goto_self ..) (Function.update_self ..) ht
  case executeRun j task =>
    obtain rfl : j = i := hplace
    refine ⟨[task], le_rfl, .act (s.awake _) (by rw [hpc]; rfl) rfl ?_⟩
    exact alone_execute_finished (State.goto_self ..) (hfree Bool.false_ne_true) ht
  case executeReturn j =>
    obtain rfl : j = i := hplace
    exact ⟨[], by simp, alone_executeReturn hpc (hown (decide_eq_true rfl))⟩

/-! ## Destruction -/

omit [DecidableEq υ] [Fintype ι] [Fintype υ] in
/-- Nobody comes back to `DoExecute`. -/
theorem ne_doExecute_of_leads {t : ι ⊕ υ} {p q : Point ι α} {d d' : Pool ι α} {r : Option (Op ι α)}
    (hl : (code calls t p).Leads d q d' r) : q ≠ .doExecute i := by
  cases p with
  | idle =>
    cases t with
    | inl j => cases hl
    | inr u =>
      rintro rfl
      cases hl.1
  | finished => cases hl
  | executeTest j | executeCheck j =>
    obtain ⟨rfl, -⟩ := hl
    dsimp only
    split_ifs <;> exact nofun
  | executePop j =>
    obtain ⟨rfl, -⟩ := hl
    dsimp only
    split <;> exact nofun
  | init j is | destoryJoin j is =>
    obtain ⟨rfl, -⟩ := hl
    cases is <;> exact nofun
  | _ =>
    obtain ⟨rfl, -⟩ := hl
    exact nofun

omit [Fintype ι] [Fintype υ] in
private theorem started_step {r : Option (Op ι α)} (hplace : ∀ t, Place t (s.pc t)) (hi : Started i s)
    (hs : Step (code calls) s r s') : Started i s' := by
  intro hpc'
  rcases hs.moved with ⟨t, q, hm⟩ | ⟨-, -, hpc, hflag, -⟩
  · by_cases hti : t = .inl i
    · subst hti
      exact absurd (hm.self.symm.trans hpc') (ne_doExecute_of_leads hm.leads)
    · have hpc : s.pc (.inl i) = .doExecute i := (hm.other (Ne.symm hti)).symm.trans hpc'
      rcases hm.wait _ (hi hpc) with hf | hw
      · exact hf
      · have hp := hplace t
        cases hpt : s.pc t <;> rw [hpt] at hw hp <;> cases t <;> cases hw
        · exact absurd (congrArg Sum.inl (Eq.symm hp)) hti
        · cases hp
  · exact hflag ▸ hi (hpc ▸ hpc')

private theorem reaches_started (hr : Reaches (code calls) start s) (hi : Started i s)
    (hs : Reaches (code calls) s s') :
    Started i s' := by
  obtain ⟨ms, rs, hr⟩ := hr
  refine (hs.invariant (I := fun s => (∀ t, Place t (s.pc t)) ∧ Started i s) (fun s r s' h hs => ?_)
    ⟨(run_balanced hr).place, hi⟩).2
  exact ⟨hs.place place_of_leads h.1, started_step h.1 h.2 hs⟩

/-- Who has finished does not move again. -/
theorem reaches_finished (hf : s.pc (.inl i) = .finished) (hs : Reaches (code calls) s s') :
    s'.pc (.inl i) = .finished := by
  refine hs.invariant (I := fun s => s.pc (.inl i) = .finished) (fun s r s' h hs => ?_) hf
  rcases hs.moved with ⟨t, q, hm⟩ | ⟨-, -, hpc, -⟩
  · by_cases hti : t = .inl i
    · subst hti
      have hl := hm.leads
      rw [h] at hl
      cases hl
    · rw [hm.other (Ne.symm hti), h]
  · rw [hpc, h]

omit [DecidableEq υ] [Fintype ι] [Fintype υ] in
/-- A worker is never inside a call on another one. -/
theorem worker_outside {j : ι} {p : Point ι α} (hp : Place (.inl j : ι ⊕ υ) p) (hji : j ≠ i) :
    ¬ holds i p ∧ ¬ Wakes i p := by
  cases p <;> first
  | cases hp; done
  | exact ⟨Bool.false_ne_true, by simp [Wakes]⟩
  | refine ⟨fun hh => hji ((show _ = j from hp).symm.trans (of_decide_eq_true hh)), by simp [Wakes]⟩

/-- `Destory` comes to an end: if nobody else uses the pool and the workers have begun, every worker that it
destroys can stop, and then it returns. -/
theorem destory_returns {u : υ} {is : List ι} (hr : Reaches (code calls) start s)
    (hu : s.pc (.inr u) = destoryNext is) (hothers : ∀ v, v ≠ u → s.pc (.inr v) = .idle)
    (hb : ∀ i ∈ is, Started i s) :
    ∃ s', Reaches (code calls) s s' ∧ s'.pc (.inr u) = .idle ∧ ∀ i ∈ is, s'.pc (.inl i) = .finished := by
  induction is generalizing s with
  | nil => exact ⟨s, .refl s, hu, fun _ h => nomatch h⟩
  | cons i is ih =>
    -- The flag is set and the event is signalled.
    obtain ⟨s₁, hs₁, hterm, hpc₁, hrest₁⟩ : ∃ s₁, Reaches (code calls) s s₁ ∧ s₁.data.shouldTerminate i ∧
        s₁.pc (.inr u) = .destoryJoin i is ∧ ∀ t, t ≠ .inr u → s₁.pc t = s.pc t := by
      have ha : Alone (code calls) (.inr u) (fun s₁ => s₁.data.shouldTerminate i ∧ s₁.pc (.inr u) = .destoryJoin i is)
          s [] := by
        refine .act (s.awake _) (by rw [hu]; rfl) rfl ?_
        refine .set (State.awake _ _) (by rw [State.goto_self]; rfl) (.done ⟨?_, State.goto_self ..⟩)
        exact Function.update_self ..
      obtain ⟨s₁, hs₁, hQ⟩ := ha.others.reaches
      exact ⟨s₁, hs₁, hQ.1.1, hQ.1.2, hQ.2⟩
    -- Nobody else is inside a call on the worker, so it stops.
    obtain ⟨s₂, hs₂, hfin, hrest₂⟩ : ∃ s₂, Reaches (code calls) s₁ s₂ ∧ s₂.pc (.inl i) = .finished ∧
        ∀ t, t ≠ .inl i → s₂.pc t = s₁.pc t := by
      obtain ⟨ms, rs, hr₁⟩ := hr.trans hs₁
      have hplace := (run_balanced hr₁).place
      obtain ⟨tasks, -, ha⟩ := worker_stops hr₁ (reaches_started hr (hb i List.mem_cons_self) hs₁) hterm fun t hti => by
        cases t with
        | inl j => exact worker_outside (hplace (.inl j)) fun hji => hti (congrArg Sum.inl hji)
        | inr v =>
          by_cases hvu : v = u
          · rw [hvu, hpc₁]
            simp [holds, Wakes]
          · rw [hrest₁ _ (by simp [hvu]), hothers v hvu]
            simp [holds, Wakes]
      obtain ⟨s₂, hs₂, hQ⟩ := ha.others.reaches
      exact ⟨s₂, hs₂, hQ.1, hQ.2⟩
    have hpc₂ : s₂.pc (.inr u) = .destoryJoin i is := (hrest₂ _ Sum.inr_ne_inl).trans hpc₁
    have hjoin : Reaches (code calls) s₂ (s₂.goto (.inr u) (destoryNext is)) :=
      .join (s₂.awake _) (by rw [hpc₂]; rfl) (by rw [hfin]; rfl)
    have hreach := (hs₁.trans hs₂).trans hjoin
    obtain ⟨s', hs', hidle, hfin'⟩ := ih (hr.trans hreach) (State.goto_self ..)
      (fun v hvu => by
        rw [State.goto_other _ _ (by simp [hvu]), hrest₂ _ Sum.inr_ne_inl, hrest₁ _ (by simp [hvu]), hothers v hvu])
      (fun j hj => reaches_started hr (hb j (List.mem_cons_of_mem _ hj)) hreach)
    refine ⟨s', hreach.trans hs', hidle, fun j hj => ?_⟩
    rcases List.mem_cons.mp hj with rfl | hj
    · exact reaches_finished hfin (hjoin.trans hs')
    · exact hfin' j hj

theorem destory_returns_session : ∃ h : (after (session ++ [.pick (.inr ()) (.destory true [false])])).isSome,
    ∃ s', Reaches (code fun (_ : Unit) (_ : Point Bool ℕ) => true)
        ((after (session ++ [.pick (.inr ()) (.destory true [false])])).get h).2 s' ∧
      s'.pc (.inr ()) = .idle ∧ ∀ i ∈ [true, false], s'.pc (.inl i) = .finished := by
  refine ⟨rfl, destory_returns ⟨_, _, run_get rfl⟩ rfl (fun v hv => absurd rfl hv) ?_⟩
  simp only [List.mem_cons, List.not_mem_nil, or_false]
  rintro i (rfl | rfl) hpc
  · cases hpc
  · rfl

end

end Sfup.Common.ThreadPool
