import Sfup.Core.NiceConnection

/-! How `NiceConnection` makes one state out of those of its components. The components go back and forth, the
connection does not. -/
namespace Sfup.Core.NiceConnection
open Sfup.Transition

/-- The state that a call gives to the listener. -/
def Output.reported : Output → Option IceState
  | .notified state => some state
  | _ => none

def AllIn (state : IceState) (c : NiceConnection) : Prop :=
  ∀ i, 1 ≤ i → i ≤ c.iceComponents → c.compStateList i = state

/-- The state does not go down, and it becomes ready or failed only if all components are. -/
structure Aggregates (c c' : NiceConnection) : Prop where
  iceComponents : c'.iceComponents = c.iceComponents
  mono : c.iceState.toNat ≤ c'.iceState.toNat
  ready : c.iceState ≠ .ready → c'.iceState = .ready → AllIn .ready c'
  failed : c.iceState ≠ .failed → c'.iceState = .failed → AllIn .failed c' ∧ c'.receivedLastCandidate = true

def Reports (c : NiceConnection) (o : Output) (c' : NiceConnection) : Prop :=
  ∀ state, o.reported = some state → c'.iceState = state ∧ c.iceState.toNat < state.toNat

section Steps
variable {c c' : NiceConnection} {compId : ℕ} {state : IceState} {o : Output} {ev : Event}

theorem allComponents_iff : c.allComponents state = true ↔ AllIn state c := by
  simp only [allComponents, AllIn, List.all_eq_true, List.mem_range, decide_eq_true_eq]
  constructor
  · intro h i hlo hhi
    obtain ⟨k, rfl⟩ : ∃ k, i = k + 1 := ⟨i - 1, by omega⟩
    exact h k (by omega)
  · intro h i hi
    exact h (i + 1) (by omega) (by omega)

/-- A call that does not touch the state. -/
theorem Aggregates.of_eq (hn : c'.iceComponents = c.iceComponents) (h : c'.iceState = c.iceState) :
    Aggregates c c' := by
  refine ⟨hn, ?_, ?_, ?_⟩
  · exact Nat.le_of_eq (congrArg IceState.toNat h.symm)
  · intro hne he
    exact absurd (h.symm.trans he) hne
  · intro hne he
    exact absurd (h.symm.trans he) hne

theorem frame_updateIceState (c : NiceConnection) (state : IceState) :
    (c.updateIceState state).2.iceComponents = c.iceComponents ∧
    (c.updateIceState state).2.compStateList = c.compStateList ∧
      (c.updateIceState state).2.receivedLastCandidate = c.receivedLastCandidate := by
  unfold updateIceState
  split_ifs <;> exact ⟨rfl, rfl, rfl⟩

theorem reports_updateIceState : Reports c (c.updateIceState state).1 (c.updateIceState state).2 := by
  unfold updateIceState
  split_ifs with hle hf hl
  · exact nofun
  · exact nofun
  · intro s hs
    cases hs
    exact ⟨rfl, by omega⟩
  · exact nofun

/-- The state goes up to one that the components allow. -/
theorem aggregates_updateIceState (hready : state = .ready → AllIn .ready c)
    (hfailed : state = .failed → AllIn .failed c ∧ c.receivedLastCandidate = true) :
    Aggregates c (c.updateIceState state).2 := by
  obtain ⟨hn, hlist, hlast⟩ := frame_updateIceState c state
  have hmoved : (c.updateIceState state).2.iceState ≠ c.iceState → (c.updateIceState state).2.iceState = state := by
    intro hne
    rw [iceState_updateIceState] at hne ⊢
    split_ifs at hne ⊢
    · exact absurd rfl hne
    · rfl
  refine ⟨hn, ?_, ?_, ?_⟩
  · rw [iceState_updateIceState]
    split_ifs with hle
    · exact Nat.le_refl _
    · omega
  · intro hne he
    have hs := hmoved (by rw [he]; exact hne.symm)
    unfold AllIn
    rw [hn, hlist]
    exact hready (hs.symm.trans he)
  · intro hne he
    have hs := hmoved (by rw [he]; exact hne.symm)
    unfold AllIn
    rw [hn, hlist, hlast]
    exact hfailed (hs.symm.trans he)

/-- Only the state of the connection before the call counts. -/
theorem Aggregates.before {c₁ : NiceConnection} (h : Aggregates c₁ c') (hn : c₁.iceComponents = c.iceComponents)
    (he : c₁.iceState = c.iceState) : Aggregates c c' :=
  ⟨h.iceComponents.trans hn, he ▸ h.mono, he ▸ h.ready, he ▸ h.failed⟩

theorem aggregates_updateComponentState (hs : state = .ready ∨ state = .failed) :
    Aggregates c (c.updateComponentState compId state).2 ∧
      Reports c (c.updateComponentState compId state).1 (c.updateComponentState compId state).2 := by
  let c₁ := { c with compStateList := Function.update c.compStateList compId state }
  have hquiet : Aggregates c c₁ ∧ Reports c .quiet c₁ := ⟨Aggregates.of_eq rfl rfl, fun _ h => (by cases h)⟩
  have hmove : ∀ state', (state' = .ready → AllIn .ready c₁) →
      (state' = .failed → AllIn .failed c₁ ∧ c₁.receivedLastCandidate = true) →
      Aggregates c (c₁.updateIceState state').2 ∧ Reports c (c₁.updateIceState state').1 (c₁.updateIceState state').2 :=
    fun state' hready hfailed =>
      ⟨(aggregates_updateIceState hready hfailed).before rfl rfl, reports_updateIceState (c := c₁)⟩
  rcases hs with rfl | rfl
  · simp only [updateComponentState, if_true]
    split_ifs with hall
    · exact hmove .ready (fun _ => allComponents_iff.mp hall) fun h => (by cases h)
    · exact hquiet
  · simp only [updateComponentState, reduceCtorEq, if_false, if_true]
    split_ifs with hlast hall
    · exact hmove .failed (fun h => by cases h) fun _ => ⟨allComponents_iff.mp hall, hlast⟩
    · exact hquiet
    · exact hquiet

/-- Closing reports nothing, and a failed connection stays failed. -/
theorem aggregates_close : Aggregates c c.close.2 ∧ Reports c c.close.1 c.close.2 := by
  by_cases hf : c.iceState = .finished
  · rw [close_of_finished hf]
    exact ⟨Aggregates.of_eq rfl rfl, nofun⟩
  · obtain ⟨hout, -, hstate⟩ := close_of_ne hf
    have hquiet : Reports c c.close.1 c.close.2 := by
      rw [hout]
      split_ifs <;> exact nofun
    have hn : c.close.2.iceComponents = c.iceComponents := by
      simp only [close, if_neg hf]
      split_ifs <;> exact (frame_updateIceState c .finished).1
    refine ⟨?_, hquiet⟩
    by_cases hfail : c.iceState = .failed
    · rw [if_pos hfail] at hstate
      exact Aggregates.of_eq hn (hstate.trans hfail.symm)
    · rw [if_neg hfail] at hstate
      refine ⟨hn, ?_, fun _ he => ?_, fun _ he => ?_⟩
      · rw [hstate]
        cases hc : c.iceState <;> simp_all [IceState.toNat]
      · rw [hstate] at he
        cases he
      · rw [hstate] at he
        cases he

theorem aggregates_step {r : Output × NiceConnection} (h : step c ev = some r) :
    Aggregates c r.2 ∧ Reports c r.1 r.2 := by
  cases ev with
  | start =>
    obtain ⟨c₁, hc₁, rfl⟩ := Option.map_eq_some_iff.mp h
    unfold start at hc₁
    split_ifs at hc₁ <;> cases hc₁ <;> exact ⟨Aggregates.of_eq rfl rfl, nofun⟩
  | close =>
    obtain rfl := Option.some.inj h
    exact aggregates_close
  | gatheringDone =>
    obtain rfl := Option.some.inj h
    exact ⟨aggregates_updateIceState nofun nofun, reports_updateIceState⟩
  | componentReady compId =>
    obtain rfl := Option.some.inj h
    exact aggregates_updateComponentState (Or.inl rfl)
  | componentFailed compId =>
    obtain rfl := Option.some.inj h
    exact aggregates_updateComponentState (Or.inr rfl)
  | setReceivedLastCandidate hasReceived =>
    obtain rfl := Option.some.inj h
    exact ⟨Aggregates.of_eq rfl rfl, nofun⟩
  | setRemoteCandidates =>
    obtain rfl := Option.some.inj h
    unfold setRemoteCandidates
    split_ifs
    · exact ⟨Aggregates.of_eq rfl rfl, nofun⟩
    · exact aggregates_close

end Steps

/-! ## Runs -/

section Runs
variable {c c' : NiceConnection} {evs : List Event} {outs : List Output}

/-- What a run reports goes up, from above the state it starts in. -/
theorem pairwise_reported (h : run? step c evs = some (outs, c')) :
    (outs.filterMap Output.reported).Pairwise (fun s t => s.toNat < t.toNat) ∧
      ∀ s ∈ outs.filterMap Output.reported, c.iceState.toNat < s.toNat := by
  induction evs generalizing c outs with
  | nil =>
    obtain ⟨rfl, -⟩ := Prod.mk.inj (Option.some.inj h)
    exact ⟨List.Pairwise.nil, nofun⟩
  | cons ev evs ih =>
    obtain ⟨o, c₁, outs₁, h₁, h₂, rfl⟩ := run?_cons_eq_some.mp h
    obtain ⟨hagg, hrep⟩ := aggregates_step h₁
    obtain ⟨hpw, hall⟩ := ih h₂
    have habove : ∀ s ∈ outs₁.filterMap Output.reported, c.iceState.toNat < s.toNat :=
      fun s hs => Nat.lt_of_le_of_lt hagg.mono (hall s hs)
    cases ho : o.reported with
    | none =>
      rw [List.filterMap_cons_none ho]
      exact ⟨hpw, habove⟩
    | some state =>
      obtain ⟨rfl, hlt⟩ := hrep state ho
      rw [List.filterMap_cons_some ho, List.pairwise_cons, List.forall_mem_cons]
      exact ⟨⟨hall, hpw⟩, hlt, habove⟩

/-- For every number of components and all calls, also with those that start and close the connection: no step takes
the state down or makes it ready or failed unless all components are, and no state is reported twice. -/
theorem aggregates_run (iceComponents : ℕ) (listener : Bool) (evs : List Event) :
    Along step (fun c ev => ∀ o c', step c ev = some (o, c') → Aggregates c c') (new iceComponents listener) evs ∧
      ∀ outs c', run? step (new iceComponents listener) evs = some (outs, c') →
        (outs.filterMap Output.reported).Nodup := by
  constructor
  · exact along_of_forall (fun c ev o c' h => (aggregates_step h).1) _ evs
  · intro outs c' h
    refine (pairwise_reported h).1.imp ?_
    rintro s _ hlt rfl
    exact Nat.lt_irrefl _ hlt

/-- Two components get ready, and fail when the last candidate was received. -/
theorem aggregates_run_two : ∃ c', run? step (new 2 true) [.gatheringDone, .componentReady 1, .componentReady 2,
    .componentFailed 2, .componentReady 2, .setReceivedLastCandidate true, .componentFailed 1, .componentFailed 2] =
      some ([.notified .candidatesReceived, .quiet, .notified .ready, .quiet, .quiet, .quiet, .quiet,
        .notified .failed], c') ∧ [IceState.candidatesReceived, .ready, .failed].Nodup :=
  ⟨_, rfl, (aggregates_run 2 true [.gatheringDone, .componentReady 1, .componentReady 2, .componentFailed 2,
    .componentReady 2, .setReceivedLastCandidate true, .componentFailed 1, .componentFailed 2]).2
      [.notified .candidatesReceived, .quiet, .notified .ready, .quiet, .quiet, .quiet, .quiet, .notified .failed] _ rfl⟩

end Runs
end Sfup.Core.NiceConnection
