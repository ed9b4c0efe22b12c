import Sfup.Lib.Monitor

/-! `cEvent` of `Common/OSSupport/Event.cpp`: an event made of a mutex, a condition variable and a flag. -/
namespace Sfup.Common.Event
open Monitor

inductive Op
  | set
  | setAll
  | wait
  /-- `Wait(a_TimeoutMSec)` with what it returns. -/
  | waitFor (result : Bool)
  deriving DecidableEq

/-- The places in the member functions. -/
inductive Point
  | idle
  /-- `Wait` is going to take `m_Mutex`, at first or after it has slept. -/
  | wait
  | waitTest
  | waitSleep
  | waitReset
  | waitFor
  | waitForTest
  | waitForSleep
  /-- `wait_until` is over, and time may be up. -/
  | waitForWoken
  | waitForLate
  | waitForLast
  | waitForReset (result : Bool)
  | unlock
  | set
  | setFlag
  | setUnlock
  | setNotify
  | setAll
  | setAllFlag
  | setAllUnlock
  | setAllNotify
  deriving DecidableEq

variable {τ : Type*}

def Point.isCall : Point → Bool
  | .wait | .waitFor | .set | .setAll => true
  | _ => false

/-- The member functions, line by line. The data are `m_ShouldContinue`. -/
def code (calls : τ → Point → Bool) (t : τ) : Point → Action τ Unit Empty Unit Bool Point Op
  | .idle => .choose fun q => q.isCall && calls t q
  | .wait => .lock () .waitTest
  | .waitTest => .act fun b => (if b then .waitReset else .waitSleep, b, none)
  | .waitSleep => .sleep () () .wait
  | .waitReset => .act fun _ => (.unlock, false, some .wait)
  | .waitFor => .lock () .waitForTest
  | .waitForTest => .act fun b => (if b then .waitForReset true else .waitForSleep, b, none)
  | .waitForSleep => .sleep () () .waitForWoken
  | .waitForWoken => .choose fun q => q = .waitFor || q = .waitForLate
  | .waitForLate => .lock () .waitForLast
  | .waitForLast => .act fun b => (.waitForReset b, b, none)
  | .waitForReset result => .act fun _ => (.unlock, false, some (.waitFor result))
  | .unlock => .unlock () .idle
  | .set => .lock () .setFlag
  | .setFlag => .act fun _ => (.setUnlock, true, some .set)
  | .setUnlock => .unlock () .setNotify
  | .setNotify => .notify () .idle
  | .setAll => .lock () .setAllFlag
  | .setAllFlag => .act fun _ => (.setAllUnlock, true, some .setAll)
  | .setAllUnlock => .unlock () .setAllNotify
  | .setAllNotify => .notifyAll () .idle

def start : State τ Unit Empty Unit Bool Point :=
  ⟨false, fun _ => none, fun _ => false, fun _ => none, fun _ => .idle⟩

/-- A call of an event that only one thread uses. A wait that finds it signalled resets it. -/
def Op.Does : Op → Bool → Bool → Prop
  | .set, _, b' | .setAll, _, b' => b' = true
  | .wait, b, b' => b = true ∧ b' = false
  | .waitFor result, b, b' => result = b ∧ b' = false

/-- The points at which `m_Mutex` is held. -/
def holds : Point → Bool
  | .waitTest | .waitSleep | .waitReset | .waitForTest | .waitForSleep | .waitForLast | .waitForReset _ | .unlock
  | .setFlag | .setUnlock | .setAllFlag | .setAllUnlock => true
  | _ => false

def Knows : Point → Bool → Prop
  | .waitSleep, b | .waitForSleep, b => b = false
  | .waitReset, b => b = true
  | .waitForReset result, b => b = result
  | _, _ => True

abbrev History (h : List Op) (b : Bool) : Prop := Legal Op.Does false h b

def Holds (p : Point) (h : List Op) (b : Bool) : Prop := History h b ∧ Knows p b

variable {calls : τ → Point → Bool}

theorem guards (t : τ) (p : Point) : Guards () holds History Holds p (code calls t p) := by
  cases p with
  | idle =>
    intro q hq
    cases q <;> simp_all [Stays, holds, Point.isCall]
  | waitForWoken =>
    intro q hq
    cases q <;> simp_all [Stays, holds]
  | wait | waitFor | waitForLate | set | setAll => exact ⟨nofun, rfl, fun h b hJ => ⟨hJ, trivial⟩⟩
  | waitSleep | waitForSleep | unlock | setUnlock | setAllUnlock => exact ⟨rfl, nofun, fun h b hA => hA.1⟩
  | setNotify | setAllNotify => exact ⟨rfl, nofun⟩
  | waitTest | waitForTest =>
    rintro (_ | _)
    · exact ⟨rfl, fun h hA => ⟨(List.append_nil h).symm ▸ hA.1, rfl⟩⟩
    · exact ⟨rfl, fun h hA => ⟨(List.append_nil h).symm ▸ hA.1, rfl⟩⟩
  | waitForLast => exact fun b => ⟨rfl, fun h hA => ⟨(List.append_nil h).symm ▸ hA.1, rfl⟩⟩
  | waitReset => exact fun b => ⟨rfl, fun h hA => ⟨hA.1.concat ⟨hA.2, rfl⟩, trivial⟩⟩
  | waitForReset result => exact fun b => ⟨rfl, fun h hA => ⟨hA.1.concat ⟨hA.2.symm, rfl⟩, trivial⟩⟩
  | setFlag | setAllFlag => exact fun b => ⟨rfl, fun h hA => ⟨hA.1.concat rfl, trivial⟩⟩

variable [DecidableEq τ] [Fintype τ] {ms : List (Move τ Point)} {rs : List (Option Op)}
  {s : State τ Unit Empty Unit Bool Point}

omit [DecidableEq τ] [Fintype τ] in
theorem guarded_start : Guarded () holds History Holds [] (start : State τ Unit Empty Unit Bool Point) :=
  ⟨fun _ => ⟨nofun, nofun⟩, fun _ => rfl, nofun⟩

theorem run_guarded (hr : Transition.run? (step (code calls)) start ms = some (rs, s)) :
    Guarded () holds History Holds rs.reduceOption s :=
  run_invariant (fun _ _ _ _ hi hs => Guarded.step guards hi hs) guarded_start hr

/-- `true` waits and falls asleep, and `false` signals the event. -/
def session : List (Move Bool Point) :=
  .pick true .wait :: List.replicate 3 (.run true) ++ .pick false .setAll :: List.replicate 4 (.run false)

def after (ms : List (Move Bool Point)) : Option (List (Option Op) × State Bool Unit Empty Unit Bool Point) :=
  Transition.run? (step (code fun _ _ => true)) start ms

theorem run_history (hr : Transition.run? (step (code calls)) start ms = some (rs, s)) :
    History rs.reduceOption s.data := by
  have hg := run_guarded hr
  cases ho : s.owner () with
  | none => exact hg.free ho
  | some t => exact (hg.held t ((hg.owner t).mp ho)).1

/-- A call has signalled the event. -/
def Op.isSet : Op → Bool
  | .set | .setAll => true
  | _ => false

/-- A call has waited and found the event signalled. -/
def Op.isWoken : Op → Bool
  | .wait | .waitFor true => true
  | _ => false

private theorem history_woken {h : List Op} {b b' : Bool} (hh : Legal Op.Does b h b') :
    h.countP Op.isWoken + b'.toNat ≤ h.countP Op.isSet + b.toNat := by
  induction h generalizing b with
  | nil => simp [show b' = b from hh]
  | cons o h ih =>
    obtain ⟨b₁, ho, hh⟩ := hh
    have hrest := ih hh
    have hb := b.toNat_le
    cases o with
    | set | setAll =>
      cases ho
      simp [List.countP_cons, Op.isWoken, Op.isSet] at hrest ⊢
      omega
    | wait =>
      obtain ⟨rfl, rfl⟩ := ho
      simp [List.countP_cons, Op.isWoken, Op.isSet] at hrest ⊢
      omega
    | waitFor result =>
      obtain ⟨rfl, rfl⟩ := ho
      cases result <;> simp [List.countP_cons, Op.isWoken, Op.isSet] at hrest ⊢ <;> omega

/-- However the calls are interleaved, they do what those of an event do that only one thread uses: a signal is good
for one wait, and so is that of `SetAll`, however many are waiting. -/
theorem waits_need_signals (hr : Transition.run? (step (code calls)) start ms = some (rs, s)) :
    History rs.reduceOption s.data ∧
      rs.reduceOption.countP Op.isWoken ≤ rs.reduceOption.countP Op.isSet := by
  have hh := run_history hr
  refine ⟨hh, ?_⟩
  have hcount := history_woken hh
  simp only [Bool.toNat_false] at hcount
  omega

theorem waits_need_signals_session : ∃ h : (after session).isSome,
    History ((after session).get h).1.reduceOption ((after session).get h).2.data ∧
      ((after session).get h).1.reduceOption.countP Op.isWoken ≤
        ((after session).get h).1.reduceOption.countP Op.isSet :=
  ⟨rfl, waits_need_signals (run_get rfl)⟩

/-! ## Waking up -/

/-- The thread is in one of the two `Wait`. -/
def Waits : Point → Bool
  | .wait | .waitTest | .waitSleep | .waitReset | .waitFor | .waitForTest | .waitForSleep | .waitForWoken | .waitForLate
  | .waitForLast | .waitForReset _ => true
  | _ => false

/-- The thread has signalled the event and is going to notify. -/
def Notifies : Point → Bool
  | .setUnlock | .setNotify | .setAllUnlock | .setAllNotify => true
  | _ => false

omit [DecidableEq τ] [Fintype τ] in
theorem attends : Attends (code calls : τ → _) () (fun _ _ => True) (Waits ·) (Notifies ·) (· = true) where
  stays _ _ := trivial
  sleeps {t p k q} hs _ := by cases p <;> cases hs <;> rfl
  leaves {t p d q d' r} hl _ hp hq := by
    cases p <;> cases hp
    case waitForWoken =>
      have hok : (q = .waitFor || q = .waitForLate) = true := hl.1
      cases q <;> simp_all [Waits]
    case waitTest | waitForTest =>
      obtain ⟨rfl, -⟩ := hl
      dsimp only at hq
      split_ifs at hq <;> exact absurd rfl hq
    case waitReset | waitForReset =>
      obtain ⟨-, rfl, -⟩ := hl
      exact Bool.false_ne_true
    all_goals
      obtain ⟨rfl, -⟩ := hl
      exact absurd rfl hq
  raises {t p d q d' r} hl _ hd hd' := by
    cases p with
    | idle | waitForWoken => exact absurd (hl.2.1 ▸ hd') hd
    | setFlag | setAllFlag =>
      obtain ⟨rfl, -⟩ := hl
      rfl
    | waitReset | waitForReset =>
      obtain ⟨-, rfl, -⟩ := hl
      cases hd'
    | _ =>
      obtain ⟨-, rfl, -⟩ := hl
      exact absurd hd' hd
  pending {t p d q d' r} hl hp := by
    cases p <;> cases hp <;> obtain ⟨rfl, -⟩ := hl <;> simp [Notifies, code]

theorem run_attended (hr : Transition.run? (step (code calls)) start ms = some (rs, s)) :
    Attended () (fun _ _ => True) (Waits ·) (Notifies ·) (· = true) s := by
  have hinv : Guarded () holds History Holds rs.reduceOption s ∧
      Attended () (fun _ _ => True) (Waits ·) (Notifies ·) (· = true) s := by
    refine run_invariant (h := []) (I := fun h s => Guarded () holds History Holds h s ∧
      Attended () (fun _ _ => True) (Waits ·) (Notifies ·) (· = true) s) (fun h s r s' hi hs => ?_)
      ⟨guarded_start, fun _ => trivial, nofun, nofun⟩ hr
    refine ⟨hi.1.step guards hs, attends.step (fun t c k q hsleep => ?_) hi.2 hs⟩
    -- Whoever is going to sleep has seen that the flag is not set, and still holds the mutex.
    cases hpc : s.pc t <;> rw [hpc] at hsleep <;> cases hsleep
    · have hk := (hi.1.held t (by rw [hpc]; rfl)).2
      rw [hpc] at hk
      exact fun hb => nomatch (show s.data = false from hk).symm.trans hb
    · have hk := (hi.1.held t (by rw [hpc]; rfl)).2
      rw [hpc] at hk
      exact fun hb => nomatch (show s.data = false from hk).symm.trans hb
  exact hinv.2

/-- Who comes to `Wait` and finds the event signalled returns. -/
theorem alone_wait {v : τ} (hb : s.data = true) (ho : s.owner () = none) (ha : s.asleep v = none)
    (hpc : s.pc v = .wait) : Alone (code calls) v (fun s' => s'.pc v = .idle ∧ s'.data = false) s [.wait] := by
  refine .lock ha (by rw [hpc]; rfl) ho ?_
  refine .act ha (by rw [State.goto_self]; rfl) rfl ?_
  refine .act ha (by simp [hb]; rfl) rfl ?_
  exact .unlock ha (by rw [State.goto_self]; rfl) (by simp) (.done ⟨State.goto_self .., rfl⟩)

private theorem alone_waitFor {v : τ} (hb : s.data = true) (ho : s.owner () = none) (ha : s.asleep v = none)
    (hpc : s.pc v = .waitFor) :
    Alone (code calls) v (fun s' => s'.pc v = .idle ∧ s'.data = false) s [.waitFor true] := by
  refine .lock ha (by rw [hpc]; rfl) ho ?_
  refine .act ha (by rw [State.goto_self]; rfl) rfl ?_
  refine .act ha (by simp [hb]; rfl) rfl ?_
  exact .unlock ha (by rw [State.goto_self]; rfl) (by simp) (.done ⟨State.goto_self .., rfl⟩)

theorem alone_waitForLate {v : τ} (hb : s.data = true) (ho : s.owner () = none) (ha : s.asleep v = none)
    (hpc : s.pc v = .waitForLate) :
    Alone (code calls) v (fun s' => s'.pc v = .idle ∧ s'.data = false) s [.waitFor true] := by
  refine .lock ha (by rw [hpc]; rfl) ho ?_
  refine .act ha (by rw [State.goto_self]; rfl) rfl ?_
  refine .act (h := []) ha (by rw [State.goto_self]; rfl) (by simp [hb]) ?_
  exact .unlock ha (by rw [State.goto_self]; rfl) (by simp) (.done ⟨State.goto_self .., rfl⟩)

/-- No signal is lost: if threads are waiting, the event is signalled and nobody else is inside a call, one of
them is awake and returns, whichever way its clock decides. -/
theorem wait_returns {u : τ} (hr : Transition.run? (step (code calls)) start ms = some (rs, s)) (hb : s.data = true)
    (hidle : ∀ t, ¬ holds (s.pc t) ∧ ¬ Notifies (s.pc t)) (hu : Waits (s.pc u)) :
    ∃ v o, Waits (s.pc v) ∧ Op.isWoken o ∧
      Alone (code calls) v (fun s' => s'.pc v = .idle ∧ s'.data = false) s [o] := by
  have ho : s.owner () = none := (run_guarded hr).owner_eq_none fun t => (hidle t).1
  obtain ⟨v, ha, hv⟩ : ∃ v, s.asleep v = none ∧ Waits (s.pc v) := by
    cases hau : s.asleep u with
    | none => exact ⟨u, hau, hu⟩
    | some c =>
      rcases (run_attended hr).woken u hau hb with ⟨w, hw⟩ | hv
      · exact absurd hw (hidle w).2
      · exact hv
  have hh := (hidle v).1
  cases hpc : s.pc v <;> rw [hpc] at hv hh <;> (try cases hv; done) <;> (try exact absurd rfl hh)
  case wait => exact ⟨v, .wait, by rw [hpc]; rfl, rfl, alone_wait hb ho ha hpc⟩
  case waitFor => exact ⟨v, .waitFor true, by rw [hpc]; rfl, rfl, alone_waitFor hb ho ha hpc⟩
  case waitForLate => exact ⟨v, .waitFor true, by rw [hpc]; rfl, rfl, alone_waitForLate hb ho ha hpc⟩
  case waitForWoken =>
    refine ⟨v, .waitFor true, by rw [hpc]; rfl, rfl, .choose (q := .waitFor) ha (by rw [hpc]; rfl) rfl fun q hq => ?_⟩
    have hq : q = .waitFor ∨ q = .waitForLate := by simpa using hq
    rcases hq with rfl | rfl
    · exact alone_waitFor hb ho ha (State.goto_self ..)
    · exact alone_waitForLate hb ho ha (State.goto_self ..)

theorem wait_returns_session : ∃ h : (after session).isSome, ∃ v o, Waits (((after session).get h).2.pc v) ∧
    Op.isWoken o ∧ Alone (code fun (_ : Bool) (_ : Point) => true) v (fun s' => s'.pc v = .idle ∧ s'.data = false)
      ((after session).get h).2 [o] :=
  ⟨rfl, wait_returns (u := true) (run_get rfl) rfl (by decide) rfl⟩

end Sfup.Common.Event
