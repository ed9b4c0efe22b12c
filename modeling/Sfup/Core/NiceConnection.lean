import Sfup.Lib.Transition

/-! The life of an ICE connection in `NiceConnection.cpp`: its state, its thread and its `close`. -/
namespace Sfup.Core

inductive IceState where
  | initial
  | candidatesReceived
  | ready
  | finished
  | failed
deriving DecidableEq, Repr

/-- The values of the enumeration. -/
def IceState.toNat : IceState → ℕ
  | initial => 0
  | candidatesReceived => 1
  | ready => 2
  | finished => 3
  | failed => 4

/-- `thread` is whether `m_Thread_` can be joined, `agent` and `loop` are whether the pointers are set. -/
structure NiceConnection where
  iceState : IceState := .initial
  iceComponents : ℕ
  compStateList : ℕ → IceState := fun _ => .initial
  receivedLastCandidate : Bool := false
  thread : Bool := false
  agent : Bool := false
  loop : Bool := false
  listener : Bool

namespace NiceConnection

def new (iceComponents : ℕ) (listener : Bool) : NiceConnection := { iceComponents, listener }

/-- How a call comes back: with a call of the listener or without, or, where it is a `close`, at once, behind
the join of the thread, or with the exception of a `join` on a thread that is not running. -/
inductive Output where
  | quiet
  | notified (state : IceState)
  | already
  | closed
  | threw
deriving DecidableEq, Repr

/-- The state only goes up in the order of the enumeration. -/
def updateIceState (state : IceState) (c : NiceConnection) : Output × NiceConnection :=
  if state.toNat ≤ c.iceState.toNat then (.quiet, c)
  else if state = .finished then (.quiet, { c with iceState := state })
  else (if c.listener then .notified state else .quiet, { c with iceState := state })

def allComponents (state : IceState) (c : NiceConnection) : Bool :=
  (List.range c.iceComponents).all fun i => c.compStateList (i + 1) = state

def updateComponentState (compId : ℕ) (state : IceState) (c : NiceConnection) : Output × NiceConnection :=
  let c := { c with compStateList := Function.update c.compStateList compId state }
  if state = .ready then
    if c.allComponents .ready then c.updateIceState state else (.quiet, c)
  else if state = .failed then
    if c.receivedLastCandidate then
      if c.allComponents .failed then c.updateIceState state else (.quiet, c)
    else (.quiet, c)
  else c.updateIceState state

def gatheringDone (c : NiceConnection) : Output × NiceConnection := c.updateIceState .candidatesReceived

def setReceivedLastCandidate (hasReceived : Bool) (c : NiceConnection) : NiceConnection :=
  { c with receivedLastCandidate := hasReceived }

/-- The state is not changed here; it goes up when the candidates are gathered. None is the end of the process:
a running thread cannot be assigned to. -/
def start (c : NiceConnection) : Option NiceConnection :=
  if c.iceState ≠ .initial then some c
  else if c.thread then none
  else some { c with agent := true, loop := true, thread := true }

/-- The exception leaves the agent as it is. -/
def close (c : NiceConnection) : Output × NiceConnection :=
  if c.iceState = .finished then (.already, c)
  else
    let c := (c.updateIceState .finished).2
    let c := { c with loop := false, listener := false }
    if c.thread then (.closed, { c with thread := false, agent := false }) else (.threw, c)

/-- Without an agent the connection is closed; else the candidates go to the agent only. -/
def setRemoteCandidates (c : NiceConnection) : Output × NiceConnection :=
  if c.agent then (.quiet, c) else c.close

/-- The destructor is a `close`. -/
inductive Event where
  | start
  | close
  | gatheringDone
  | componentReady (compId : ℕ)
  | componentFailed (compId : ℕ)
  | setReceivedLastCandidate (hasReceived : Bool)
  | setRemoteCandidates

def step (c : NiceConnection) : Event → Option (Output × NiceConnection)
  | .start => c.start.map fun c => (.quiet, c)
  | .close => some c.close
  | .gatheringDone => some c.gatheringDone
  | .componentReady compId => some (c.updateComponentState compId .ready)
  | .componentFailed compId => some (c.updateComponentState compId .failed)
  | .setReceivedLastCandidate hasReceived => some (.quiet, c.setReceivedLastCandidate hasReceived)
  | .setRemoteCandidates => some c.setRemoteCandidates

/-! ## Runs -/

/-- Whether a `close` came back, whether one threw, and the threads that were joined. -/
structure History where
  completed : Bool := false
  threw : Bool := false
  joins : ℕ := 0

def History.note (h : History) : Output → History
  | .already => { h with completed := true }
  | .closed => { h with completed := true, joins := h.joins + 1 }
  | .threw => { h with threw := true }
  | _ => h

/-- No `close` joined a thread that was not running, one thread was joined at most, and once a `close` came
back the state is finished and a further `close` has no effect. -/
structure Final (s : NiceConnection × History) : Prop where
  noThrow : s.2.threw = false
  joins : s.2.joins ≤ 1
  finished : s.2.completed = true → s.1.iceState = .finished ∧ s.1.close = (.already, s.1)

/-- A `close` finds the connection finished, or a running thread and no failure; all components do not fail
behind it. -/
def Orderly (s : NiceConnection × History) : Event → Prop
  | .close => s.1.iceState = .finished ∨ s.1.thread = true ∧ s.1.iceState ≠ .failed
  | .setRemoteCandidates => s.1.agent = false →
    s.1.iceState = .finished ∨ s.1.thread = true ∧ s.1.iceState ≠ .failed
  | .componentFailed compId => s.1.iceState = .finished → s.1.receivedLastCandidate = true →
    ∃ i, 1 ≤ i ∧ i ≤ s.1.iceComponents ∧ i ≠ compId ∧ s.1.compStateList i ≠ .failed
  | _ => True

/-- The finished state comes from a `close`, and a joined thread is the only one. -/
structure Traced (s : NiceConnection × History) : Prop where
  finished : s.1.iceState = .finished → s.2.completed = true ∨ s.2.threw = true
  thread : s.1.thread = true → s.2.joins = 0
  joins : s.2.joins ≠ 0 → s.2.joins = 1 ∧ s.1.iceState ≠ .initial

section Steps
open Sfup.Transition
variable {c c' : NiceConnection} {h : History} {compId : ℕ} {state : IceState}

private theorem note_updateIceState : h.note (c.updateIceState state).1 = h := by
  unfold updateIceState
  split_ifs <;> rfl

theorem iceState_updateIceState : (c.updateIceState state).2.iceState =
    if state.toNat ≤ c.iceState.toNat then c.iceState else state := by
  unfold updateIceState
  split_ifs <;> rfl

private theorem thread_updateIceState : (c.updateIceState state).2.thread = c.thread := by
  unfold updateIceState
  split_ifs <;> rfl

theorem close_of_finished (hf : c.iceState = .finished) : c.close = (.already, c) := if_pos hf

/-- What `close` does when the connection is not finished. The state stays if it is failed. -/
theorem close_of_ne (hf : c.iceState ≠ .finished) : c.close.1 = (if c.thread then .closed else .threw) ∧
    c.close.2.thread = false ∧ c.close.2.iceState = if c.iceState = .failed then .failed else .finished := by
  obtain ⟨iceState, n, comps, last, thread, agent, loop, listener⟩ := c
  cases iceState <;> cases thread <;> simp_all [close, updateIceState, IceState.toNat]

/-- The calls other than `close` leave the history and the thread alone. The state only goes up. -/
structure Passes (c : NiceConnection) (r : Output × NiceConnection) : Prop where
  note : ∀ h : History, h.note r.1 = h
  thread : r.2.thread = c.thread
  iceState : r.2.iceState = c.iceState ∨ c.iceState.toNat < r.2.iceState.toNat ∧ r.2.iceState ≠ .finished

theorem passes_updateIceState (hs : state ≠ .finished) : Passes c (c.updateIceState state) := by
  refine ⟨fun h => note_updateIceState, thread_updateIceState, ?_⟩
  rw [iceState_updateIceState]
  split_ifs with hle
  · exact Or.inl rfl
  · exact Or.inr ⟨by omega, hs⟩

theorem passes_updateComponentState (hs : state ≠ .finished) : Passes c (c.updateComponentState compId state) := by
  have hup := passes_updateIceState (c := { c with compStateList := Function.update c.compStateList compId state }) hs
  have hquiet : Passes c (Output.quiet, { c with compStateList := Function.update c.compStateList compId state }) :=
    ⟨fun _ => rfl, rfl, Or.inl rfl⟩
  unfold updateComponentState
  simp only []
  split_ifs <;> first | exact hquiet | exact ⟨hup.note, hup.thread, hup.iceState⟩

variable {r : Output × NiceConnection}

theorem Final.of_passes (hF : Final (c, h)) (hp : Passes c r) (hs : c.iceState = .finished → r.2.iceState = .finished) :
    Final (r.2, h.note r.1) := by
  rw [hp.note]
  refine ⟨hF.noThrow, hF.joins, fun hc => ?_⟩
  have hfin := hs (hF.finished hc).1
  exact ⟨hfin, close_of_finished hfin⟩

theorem Traced.of_passes (hT : Traced (c, h)) (hp : Passes c r) : Traced (r.2, h.note r.1) := by
  rw [hp.note]
  constructor
  · intro hf
    rcases hp.iceState with he | ⟨-, hne⟩
    · exact hT.finished (he.symm.trans hf)
    · exact absurd hf hne
  · intro ht
    exact hT.thread (hp.thread.symm.trans ht)
  · intro hj
    refine ⟨(hT.joins hj).1, ?_⟩
    rcases hp.iceState with he | ⟨hlt, -⟩
    · exact he ▸ (hT.joins hj).2
    · intro hi
      rw [show r.2.iceState = .initial from hi] at hlt
      cases hlt

theorem updateIceState_finished (hs : state ≠ .failed) (hf : c.iceState = .finished) :
    (c.updateIceState state).2.iceState = .finished := by
  rw [iceState_updateIceState, hf]
  cases state <;> simp_all [IceState.toNat]

theorem componentReady_finished (hf : c.iceState = .finished) :
    (c.updateComponentState compId .ready).2.iceState = .finished := by
  simp only [updateComponentState, if_true]
  split_ifs
  · exact updateIceState_finished (by decide) hf
  · exact hf

theorem componentFailed_finished_iff (hf : c.iceState = .finished) :
    (c.updateComponentState compId .failed).2.iceState = .finished ↔ (c.receivedLastCandidate = true →
      ∃ i, 1 ≤ i ∧ i ≤ c.iceComponents ∧ i ≠ compId ∧ c.compStateList i ≠ .failed) := by
  have hall : allComponents .failed { c with compStateList := Function.update c.compStateList compId .failed } = false ↔
      ∃ i, 1 ≤ i ∧ i ≤ c.iceComponents ∧ i ≠ compId ∧ c.compStateList i ≠ .failed := by
    simp only [allComponents, List.all_eq_false, List.mem_range, decide_eq_true_eq, Function.update_apply]
    constructor
    · rintro ⟨i, hi, hne⟩
      split_ifs at hne with hid
      · exact absurd rfl hne
      · exact ⟨i + 1, by omega, by omega, hid, hne⟩
    · rintro ⟨i, h₁, h₂, hid, hne⟩
      obtain ⟨k, rfl⟩ : ∃ k, i = k + 1 := ⟨i - 1, by omega⟩
      exact ⟨k, by omega, by rwa [if_neg hid]⟩
  have hstate : (c.updateComponentState compId .failed).2.iceState = if c.receivedLastCandidate = true ∧
      allComponents .failed { c with compStateList := Function.update c.compStateList compId .failed } = true
      then .failed else .finished := by
    simp only [updateComponentState, reduceCtorEq, if_false, if_true]
    by_cases hl : c.receivedLastCandidate = true
    · simp only [hl, if_true, true_and]
      split_ifs
      · rw [iceState_updateIceState, if_neg]
        simp [hf, IceState.toNat]
      · exact hf
    · rw [if_neg hl, if_neg fun h => hl h.1]
      exact hf
  rw [← hall, hstate]
  split_ifs with hb
  · simpa using ⟨hb.1, hb.2⟩
  · simpa using hb

theorem final_close_iff (hT : Traced (c, h)) (hF : Final (c, h)) : Final (c.close.2, h.note c.close.1) ↔
    c.iceState = .finished ∨ c.thread = true ∧ c.iceState ≠ .failed := by
  by_cases hf : c.iceState = .finished
  · rw [close_of_finished hf]
    simp only [hf, true_or, iff_true]
    exact ⟨hF.noThrow, hF.joins, fun _ => ⟨hf, close_of_finished hf⟩⟩
  · obtain ⟨hout, hthread, hstate⟩ := close_of_ne hf
    cases ht : c.thread with
    | false =>
      have hthrew : (h.note c.close.1).threw = true := by
        rw [hout, ht]
        rfl
      simp only [hf, Bool.false_eq_true, false_and, or_false, iff_false]
      intro hc
      exact absurd (hc.noThrow.symm.trans hthrew) (by decide)
    | true =>
      have hclosed : h.note c.close.1 = { h with completed := true, joins := h.joins + 1 } := by
        rw [hout, ht]
        rfl
      have hjoins : h.joins = 0 := hT.thread ht
      rw [hclosed]
      simp only [hf, false_or, true_and]
      constructor
      · intro hc hfail
        have hfin := (hc.finished rfl).1
        simp only [hstate, hfail, if_true] at hfin
        cases hfin
      · intro hne
        have hfin : c.close.2.iceState = .finished := hstate.trans (if_neg hne)
        refine ⟨hF.noThrow, ?_, fun _ => ⟨hfin, close_of_finished hfin⟩⟩
        simp [hjoins]

private theorem traced_close (hT : Traced (c, h)) : Traced (c.close.2, h.note c.close.1) := by
  by_cases hf : c.iceState = .finished
  · rw [close_of_finished hf]
    exact ⟨fun _ => Or.inl rfl, hT.thread, hT.joins⟩
  · obtain ⟨hout, hthread, hstate⟩ := close_of_ne hf
    have hinit : c.close.2.iceState ≠ .initial := by
      rw [hstate]
      split_ifs <;> simp
    have hfalse : c.close.2.thread = true → (h.note c.close.1).joins = 0 := by
      intro ht
      rw [hthread] at ht
      cases ht
    cases ht : c.thread with
    | false =>
      rw [hout, ht] at hfalse ⊢
      exact ⟨fun _ => Or.inr rfl, hfalse, fun hj => ⟨(hT.joins hj).1, hinit⟩⟩
    | true =>
      have hjoins : h.joins = 0 := hT.thread ht
      rw [hout, ht] at hfalse ⊢
      exact ⟨fun _ => Or.inl rfl, hfalse, fun _ => ⟨by simp [History.note, hjoins], hinit⟩⟩

end Steps

section Runs
open Sfup.Transition
variable {s s' : NiceConnection × History} {ev : Event} {o : Output}

private theorem traced_start {c' : NiceConnection} {c : NiceConnection} {h : History} (hT : Traced (c, h))
    (hs : c.start = some c') : Traced (c', h) := by
  unfold start at hs
  split_ifs at hs with hi ht
  · cases hs
    exact hT
  · cases hs
    have hinit : c.iceState = .initial := not_not.mp hi
    have hjoins : h.joins = 0 := by
      by_contra hj
      exact (hT.joins hj).2 hinit
    exact ⟨hT.finished, fun _ => hjoins, fun hj => absurd hjoins hj⟩

theorem traced_step (hT : Traced s) (hs : record History.note step s ev = some (o, s')) : Traced s' := by
  obtain ⟨c, h⟩ := s
  obtain ⟨r, hstep, heq⟩ := Option.map_eq_some_iff.mp hs
  cases heq
  cases ev with
  | start =>
    obtain ⟨c₁, hc₁, heq⟩ := Option.map_eq_some_iff.mp hstep
    cases heq
    exact traced_start hT hc₁
  | close =>
    obtain rfl := Option.some.inj hstep
    exact traced_close hT
  | gatheringDone =>
    obtain rfl := Option.some.inj hstep
    exact hT.of_passes (passes_updateIceState (by decide))
  | componentReady compId =>
    obtain rfl := Option.some.inj hstep
    exact hT.of_passes (passes_updateComponentState (by decide))
  | componentFailed compId =>
    obtain rfl := Option.some.inj hstep
    exact hT.of_passes (passes_updateComponentState (by decide))
  | setReceivedLastCandidate hasReceived =>
    obtain rfl := Option.some.inj hstep
    exact ⟨hT.finished, hT.thread, hT.joins⟩
  | setRemoteCandidates =>
    obtain rfl := Option.some.inj hstep
    unfold setRemoteCandidates
    split_ifs
    · exact ⟨hT.finished, hT.thread, hT.joins⟩
    · exact traced_close hT

/-- One call keeps the property exactly if it is orderly. -/
theorem final_step_iff (hT : Traced s) (hF : Final s) (hs : record History.note step s ev = some (o, s')) :
    Final s' ↔ Orderly s ev := by
  obtain ⟨c, h⟩ := s
  obtain ⟨r, hstep, heq⟩ := Option.map_eq_some_iff.mp hs
  cases heq
  cases ev with
  | start =>
    obtain ⟨c₁, hc₁, heq⟩ := Option.map_eq_some_iff.mp hstep
    cases heq
    have hstate : c₁.iceState = c.iceState := by
      unfold start at hc₁
      split_ifs at hc₁ <;> cases hc₁ <;> rfl
    refine iff_of_true ⟨hF.noThrow, hF.joins, fun hc => ?_⟩ trivial
    have hfin := hstate.trans (hF.finished hc).1
    exact ⟨hfin, close_of_finished hfin⟩
  | close =>
    obtain rfl := Option.some.inj hstep
    exact final_close_iff hT hF
  | gatheringDone =>
    obtain rfl := Option.some.inj hstep
    exact iff_of_true (hF.of_passes (passes_updateIceState (by decide)) (updateIceState_finished (by decide))) trivial
  | componentReady compId =>
    obtain rfl := Option.some.inj hstep
    exact iff_of_true (hF.of_passes (passes_updateComponentState (by decide)) componentReady_finished) trivial
  | componentFailed compId =>
    obtain rfl := Option.some.inj hstep
    have hpass : Passes c (c.updateComponentState compId .failed) := passes_updateComponentState (by decide)
    constructor
    · intro hF' hf
      rcases hT.finished hf with hcompleted | hthrew
      · have hfin := (hF'.finished (by rw [hpass.note]; exact hcompleted)).1
        exact (componentFailed_finished_iff hf).mp hfin
      · exact absurd (hF.noThrow.symm.trans hthrew) (by decide)
    · intro ho
      exact hF.of_passes hpass fun hf => (componentFailed_finished_iff hf).mpr (ho hf)
  | setReceivedLastCandidate hasReceived =>
    obtain rfl := Option.some.inj hstep
    refine iff_of_true ⟨hF.noThrow, hF.joins, fun hc => ?_⟩ trivial
    have hfin : (c.setReceivedLastCandidate hasReceived).iceState = .finished := (hF.finished hc).1
    exact ⟨hfin, close_of_finished hfin⟩
  | setRemoteCandidates =>
    obtain rfl := Option.some.inj hstep
    unfold setRemoteCandidates
    cases ha : c.agent with
    | true => exact iff_of_true hF (fun hfalse => absurd (ha.symm.trans hfalse) (by decide))
    | false =>
      simp only [Bool.false_eq_true, if_false]
      rw [final_close_iff hT hF]
      simp [Orderly, ha]

/-- Closing is final in all states of a run exactly if each `close` of it finds the connection finished, or a
running thread and no failure, and all components do not fail behind it. -/
theorem always_final_iff (iceComponents : ℕ) (listener : Bool) (evs : List Event) :
    Always (record History.note step) Final (new iceComponents listener, {}) evs ↔
      Along (record History.note step) Orderly (new iceComponents listener, {}) evs := by
  apply always_iff_along (I := Traced)
  · intro s ev o s' hT hF hs
    exact final_step_iff hT hF hs
  · intro s ev hs
    cases ev with
    | start => trivial
    | _ => cases hs
  · intro s ev o s' hT hs
    exact traced_step hT hs
  · exact ⟨fun h => (by cases h), fun _ => rfl, fun h => absurd rfl h⟩
  · exact ⟨rfl, Nat.zero_le 1, fun h => (by cases h)⟩

/-- ICE fails, the connection is closed and then destroyed: the state stays failed, and the destructor joins a
thread that is not running any more. -/
theorem not_final_failed : ∃ s, run? step (new 1 true)
    [.start, .setReceivedLastCandidate true, .componentFailed 1, .close, .close] =
      some ([.quiet, .quiet, .notified .failed, .closed, .threw], s) ∧ s.iceState = .failed :=
  ⟨_, rfl, rfl⟩

end Runs
end NiceConnection
end Sfup.Core
