import Sfup.Lib.Monitor

/-! `cQueue` of `Include/OSSupport/Queue.h`, with any number of threads that call it. -/
namespace Sfup.Common.Queue
open Monitor

/-- `m_evtAdded` and `m_evtRemoved`. -/
inductive Event
  | added
  | removed
  deriving DecidableEq

/-- What a call has done to the contents, given out where it does so. -/
inductive Op (α : Type*)
  | push (x : α)
  | pushIfNotPresent (x : α)
  /-- The item that was taken out, if there was one. -/
  | take (x : Option α)
  | clear
  | size (n : ℕ)
  | remove (x : α) (found : Bool)
  | removeIf (p : α → Bool)

/-- The places in the member functions of `cQueue`. The one that has a function's name is its first, where it
is going to take `m_CS`. -/
inductive Point (α : Type*)
  | idle
  | enqueueItem (x : α)
  | enqueueItemPush (x : α)
  | enqueueItemIfNotPresent (x : α)
  | enqueueItemIfNotPresentLoop (x : α)
  | tryDequeueItem
  | tryDequeueItemTake
  | dequeueItem
  | dequeueItemTest
  | dequeueItemUnlock
  | dequeueItemWait
  | blockTillEmpty
  | blockTillEmptyTest
  | blockTillEmptyUnlock
  | blockTillEmptyWait
  | clear
  | clearLoop
  | size
  | sizeRead
  | remove (x : α)
  | removeLoop (x : α)
  | removeIf (p : α → Bool)
  | removeIfBegin (p : α → Bool)
  | removeIfAt (p : α → Bool) (itr : ℕ)
  | removeIfSet (p : α → Bool) (itr : ℕ)
  /-- `m_evtAdded.Set()`, the last thing before the lock is given back. -/
  | addedSet
  | removedSet
  | unlock

variable {τ α : Type*}

def Point.isCall : Point α → Bool
  | .enqueueItem _ | .enqueueItemIfNotPresent _ | .tryDequeueItem | .dequeueItem | .blockTillEmpty | .clear | .size
  | .remove _ | .removeIf _ => true
  | _ => false

section
variable [BEq α] (combine : α → α → α) (calls : τ → Point α → Bool)

/-- The loop of `EnqueueItemIfNotPresent`: `Combine` is called on the first item that is equal. -/
def combineFirst (x : α) : List α → Option (List α)
  | [] => none
  | y :: ys => if y == x then some (combine y x :: ys) else (combineFirst x ys).map (y :: ·)

/-- The loop of `Remove`. -/
def eraseFirst (x : α) : List α → Option (List α)
  | [] => none
  | y :: ys => if y == x then some ys else (eraseFirst x ys).map (y :: ·)

/-- The member functions, line by line. `calls` says which of them a thread may call. -/
def code (t : τ) : Point α → Action τ Unit Event Empty (List α) (Point α) (Op α)
  | .idle => .choose fun q => q.isCall && calls t q
  | .enqueueItem x => .lock () (.enqueueItemPush x)
  | .enqueueItemPush x => .act fun q => (.addedSet, q ++ [x], some (.push x))
  | .enqueueItemIfNotPresent x => .lock () (.enqueueItemIfNotPresentLoop x)
  | .enqueueItemIfNotPresentLoop x => .act fun q =>
    match combineFirst combine x q with
    | some q' => (.unlock, q', some (.pushIfNotPresent x))
    | none => (.addedSet, q ++ [x], some (.pushIfNotPresent x))
  | .tryDequeueItem => .lock () .tryDequeueItemTake
  | .tryDequeueItemTake => .act fun
    | [] => (.unlock, [], some (.take none))
    | x :: q => (.removedSet, q, some (.take (some x)))
  | .dequeueItem => .lock () .dequeueItemTest
  | .dequeueItemTest => .act fun
    | [] => (.dequeueItemUnlock, [], none)
    | x :: q => (.removedSet, q, some (.take (some x)))
  | .dequeueItemUnlock => .unlock () .dequeueItemWait
  | .dequeueItemWait => .wait .added .dequeueItem
  | .blockTillEmpty => .lock () .blockTillEmptyTest
  | .blockTillEmptyTest => .act fun q => (if q.isEmpty then .unlock else .blockTillEmptyUnlock, q, none)
  | .blockTillEmptyUnlock => .unlock () .blockTillEmptyWait
  | .blockTillEmptyWait => .wait .removed .blockTillEmpty
  | .clear => .lock () .clearLoop
  | .clearLoop => .act fun _ => (.unlock, [], some .clear)
  | .size => .lock () .sizeRead
  | .sizeRead => .act fun q => (.unlock, q, some (.size q.length))
  | .remove x => .lock () (.removeLoop x)
  | .removeLoop x => .act fun q =>
    match eraseFirst x q with
    | some q' => (.removedSet, q', some (.remove x true))
    | none => (.unlock, q, some (.remove x false))
  | .removeIf p => .lock () (.removeIfBegin p)
  | .removeIfBegin p => .act fun q => (.removeIfAt p 0, q, some (.removeIf p))
  | .removeIfAt p itr => .act fun q =>
    match q[itr]? with
    | some x => if p x then (.removeIfSet p itr, q.eraseIdx itr, none) else (.removeIfAt p (itr + 1), q, none)
    | none => (.unlock, q, none)
  | .removeIfSet p itr => .set .removed (.removeIfAt p itr)
  | .addedSet => .set .added .unlock
  | .removedSet => .set .removed .unlock
  | .unlock => .unlock () .idle

/-- An empty queue that nobody has called. -/
def start : State τ Unit Event Empty (List α) (Point α) :=
  ⟨[], fun _ => none, fun _ => false, fun _ => none, fun _ => .idle⟩

/-! ## The queue that the calls agree on -/

def Op.Does : Op α → List α → List α → Prop
  | .push x, q, q' => q' = q ++ [x]
  | .pushIfNotPresent x, q, q' =>
    q' = if q.any (· == x) then q.modify (q.findIdx (· == x)) (combine · x) else q ++ [x]
  | .take none, q, q' => q = [] ∧ q' = []
  | .take (some x), q, q' => q = x :: q'
  | .clear, _, q' => q' = []
  | .size n, q, q' => n = q.length ∧ q' = q
  | .remove x found, q, q' => found = q.any (· == x) ∧ q' = q.eraseP (· == x)
  | .removeIf p, q, q' => q' = q.filter (!p ·)

end

/-- The points at which `m_CS` is held. -/
def holds : Point α → Bool
  | .enqueueItemPush _ | .enqueueItemIfNotPresentLoop _ | .tryDequeueItemTake | .dequeueItemTest | .dequeueItemUnlock
  | .blockTillEmptyTest | .blockTillEmptyUnlock | .clearLoop | .sizeRead | .removeLoop _ | .removeIfBegin _
  | .removeIfAt _ _ | .removeIfSet _ _ | .addedSet | .removedSet | .unlock => true
  | _ => false

/-- The contents that whoever holds the lock is going to leave. `RemoveIf` has taken effect when it begins. -/
def leaves : Point α → List α → List α
  | .removeIfAt p _, q | .removeIfSet p _, q => q.filter (!p ·)
  | _, q => q

def Knows : Point α → List α → Prop
  | .removeIfAt p itr, q | .removeIfSet p itr, q => ∀ x ∈ q.take itr, ¬ p x
  | .dequeueItemUnlock, q => q = []
  | .blockTillEmptyUnlock, q => q ≠ []
  | _, _ => True

section
variable [BEq α] {combine : α → α → α} {calls : τ → Point α → Bool} {x : α} {q q' : List α}

theorem combineFirst_eq : combineFirst combine x q =
    if q.any (· == x) then some (q.modify (q.findIdx (· == x)) (combine · x)) else none := by
  induction q with
  | nil => rfl
  | cons y ys ih =>
    cases hy : y == x with
    | true => simp [combineFirst, List.findIdx_cons, hy]
    | false =>
      rw [combineFirst, ih]
      by_cases h : ys.any (· == x) <;> simp [List.findIdx_cons, hy, h]

theorem eraseFirst_eq : eraseFirst x q = if q.any (· == x) then some (q.eraseP (· == x)) else none := by
  induction q with
  | nil => rfl
  | cons y ys ih =>
    cases hy : y == x with
    | true => simp [eraseFirst, hy]
    | false =>
      rw [eraseFirst, ih]
      by_cases h : ys.any (· == x) <;> simp [hy, h]

/-- The history so far is one of a queue that only one thread uses, which is left with `q`. -/
abbrev History (combine : α → α → α) (h : List (Op α)) (q : List α) : Prop := Legal (Op.Does combine) [] h q

def Holds (combine : α → α → α) (p : Point α) (h : List (Op α)) (q : List α) : Prop :=
  History combine h (leaves p q) ∧ Knows p q

/-- A call keeps the history, wherever in it `RemoveIf` takes effect. -/
theorem guards (t : τ) (p : Point α) :
    Guards () holds (History combine) (Holds combine) p (code combine calls t p) := by
  cases p with
  | idle =>
    intro q hq
    cases q <;> simp_all [Stays, holds, Point.isCall]
  | enqueueItem | enqueueItemIfNotPresent | tryDequeueItem | dequeueItem | blockTillEmpty | clear | size | remove
  | removeIf => exact ⟨nofun, rfl, fun h q hJ => ⟨hJ, trivial⟩⟩
  | dequeueItemWait | blockTillEmptyWait => exact ⟨rfl, nofun⟩
  | dequeueItemUnlock | blockTillEmptyUnlock | unlock => exact ⟨rfl, nofun, fun h q hA => hA.1⟩
  | addedSet | removedSet | removeIfSet => exact ⟨rfl, fun _ h q hA => hA⟩
  | enqueueItemPush x => exact fun q => ⟨rfl, fun h hA => ⟨hA.1.concat rfl, trivial⟩⟩
  | enqueueItemIfNotPresentLoop x =>
    intro q
    dsimp only
    rw [combineFirst_eq]
    by_cases hx : q.any (· == x)
    · rw [if_pos hx]
      exact ⟨rfl, fun h hA => ⟨hA.1.concat (if_pos hx).symm, trivial⟩⟩
    · rw [if_neg hx]
      exact ⟨rfl, fun h hA => ⟨hA.1.concat (if_neg hx).symm, trivial⟩⟩
  | tryDequeueItemTake =>
    intro q
    cases q with
    | nil => exact ⟨rfl, fun h hA => ⟨hA.1.concat ⟨rfl, rfl⟩, trivial⟩⟩
    | cons x q => exact ⟨rfl, fun h hA => ⟨hA.1.concat rfl, trivial⟩⟩
  | dequeueItemTest =>
    intro q
    cases q with
    | nil => exact ⟨rfl, fun h hA => ⟨(List.append_nil h).symm ▸ hA.1, rfl⟩⟩
    | cons x q => exact ⟨rfl, fun h hA => ⟨hA.1.concat rfl, trivial⟩⟩
  | blockTillEmptyTest =>
    intro q
    cases q with
    | nil => exact ⟨rfl, fun h hA => ⟨(List.append_nil h).symm ▸ hA.1, trivial⟩⟩
    | cons x q => exact ⟨rfl, fun h hA => ⟨(List.append_nil h).symm ▸ hA.1, List.cons_ne_nil x q⟩⟩
  | clearLoop => exact fun q => ⟨rfl, fun h hA => ⟨hA.1.concat rfl, trivial⟩⟩
  | sizeRead => exact fun q => ⟨rfl, fun h hA => ⟨hA.1.concat ⟨rfl, rfl⟩, trivial⟩⟩
  | removeLoop x =>
    intro q
    dsimp only
    rw [eraseFirst_eq]
    by_cases hx : q.any (· == x)
    · rw [if_pos hx]
      exact ⟨rfl, fun h hA => ⟨hA.1.concat ⟨hx.symm, rfl⟩, trivial⟩⟩
    · rw [if_neg hx]
      refine ⟨rfl, fun h hA => ⟨hA.1.concat ⟨(Bool.eq_false_of_not_eq_true hx).symm, ?_⟩, trivial⟩⟩
      exact (List.eraseP_of_forall_not fun y hy hyx => hx (List.any_eq_true.mpr ⟨y, hy, hyx⟩)).symm
  | removeIfBegin p => exact fun q => ⟨rfl, fun h hA => ⟨hA.1.concat rfl, nofun⟩⟩
  | removeIfAt p itr =>
    intro q
    dsimp only
    cases hx : q[itr]? with
    | none =>
      -- the loop is through, and nothing is left that is to be removed
      refine ⟨rfl, fun h hA => ⟨?_, trivial⟩⟩
      have hall : ∀ x ∈ q, ¬ p x := by
        have hlen := List.getElem?_eq_none_iff.mp hx
        simpa [Knows, List.take_of_length_le hlen] using hA.2
      have hkeep : q.filter (!p ·) = q := List.filter_eq_self.mpr fun x hx => by simpa using hall x hx
      simpa [leaves, hkeep] using hA.1
    | some x =>
      obtain ⟨hlt, rfl⟩ := List.getElem?_eq_some_iff.mp hx
      dsimp only
      by_cases hp : p q[itr]
      · rw [if_pos hp]
        refine ⟨rfl, fun h hA => ⟨?_, fun y hy => hA.2 y ?_⟩⟩
        · have hkeep : (q.eraseIdx itr).filter (!p ·) = q.filter (!p ·) := by
            have hsplit : q.take itr ++ q[itr] :: q.drop (itr + 1) = q := by
              rw [← List.drop_eq_getElem_cons hlt, List.take_append_drop]
            conv_rhs => rw [← hsplit]
            rw [List.eraseIdx_eq_take_drop_succ, List.filter_append, List.filter_append,
              List.filter_cons_of_neg (by simpa using hp)]
          simpa [leaves, hkeep] using hA.1
        · rwa [List.take_eraseIdx_eq_take_of_le _ _ _ le_rfl] at hy
      · rw [if_neg hp]
        refine ⟨rfl, fun h hA => ⟨(List.append_nil h).symm ▸ hA.1, fun y hy => ?_⟩⟩
        rw [List.take_succ_eq_append_getElem hlt, List.mem_append, List.mem_singleton] at hy
        rcases hy with hy | rfl
        · exact hA.2 y hy
        · exact hp

theorem run_legal [DecidableEq τ] [Fintype τ] {ms : List (Move τ (Point α))} {rs : List (Option (Op α))}
    {s : State τ Unit Event Empty (List α) (Point α)}
    (hr : Transition.run? (step (code combine calls)) start ms = some (rs, s)) :
    Guarded () holds (History combine) (Holds combine) rs.reduceOption s := by
  have hstart : Guarded () holds (History combine) (Holds combine) []
      (start : State τ Unit Event Empty (List α) (Point α)) := ⟨fun _ => ⟨nofun, nofun⟩, fun _ => rfl, nofun⟩
  simpa using run_invariant (fun h s r s' hi hs => Guarded.step guards hi hs) hstart hr

/-- However the threads are interleaved, what the calls have done is the history of a queue that only one thread
uses, which is left with the contents while nobody is inside a call. No two threads are inside at once. -/
theorem linearizable [DecidableEq τ] [Fintype τ] {ms : List (Move τ (Point α))} {rs : List (Option (Op α))}
    {s : State τ Unit Event Empty (List α) (Point α)}
    (hr : Transition.run? (step (code combine calls)) start ms = some (rs, s)) :
    (∃ q, History combine rs.reduceOption q ∧ ((∀ t, ¬ holds (s.pc t)) → s.data = q)) ∧
      ∀ t u, holds (s.pc t) → holds (s.pc u) → t = u := by
  have hg := run_legal hr
  refine ⟨?_, fun t u => hg.exclusive⟩
  by_cases hn : ∀ t, ¬ holds (s.pc t)
  · exact ⟨s.data, hg.free (hg.owner_eq_none hn), fun _ => rfl⟩
  · obtain ⟨t, ht⟩ := not_forall_not.mp hn
    exact ⟨leaves (s.pc t) s.data, (hg.held t ht).1, fun h => absurd h hn⟩

/-- `true` puts an item in while `false` waits for one. -/
def session : List (Move Bool (Point ℕ)) :=
  .pick false .dequeueItem :: List.replicate 3 (.run false) ++ .pick true (.enqueueItem 7) :: List.replicate 4 (.run true)

/-- Anyone may call anything but `Clear`, and only `false` may wait. -/
def mayCall : Bool → Point ℕ → Bool
  | t, .dequeueItem | t, .blockTillEmpty => !t
  | _, .clear => false
  | _, _ => true

def after (ms : List (Move Bool (Point ℕ))) :
    Option (List (Option (Op ℕ)) × State Bool Unit Event Empty (List ℕ) (Point ℕ)) :=
  Transition.run? (step (code (· + ·) mayCall)) start ms

theorem linearizable_session : ∃ h : (after session).isSome,
    (∃ q, History (· + ·) ((after session).get h).1.reduceOption q ∧
      ((∀ t, ¬ holds (((after session).get h).2.pc t)) → ((after session).get h).2.data = q)) ∧
      ∀ t u, holds (((after session).get h).2.pc t) → holds (((after session).get h).2.pc u) → t = u :=
  ⟨rfl, linearizable (run_get rfl)⟩

/-- The item that a call has put in. -/
def Op.pushed : Op α → Option α
  | .push x => some x
  | _ => none

/-- The item that a call has taken out. -/
def Op.taken : Op α → Option α
  | .take x => x
  | _ => none

/-- A call of `EnqueueItem`, `TryDequeueItem`, `DequeueItem` or `Size`. -/
def Op.isFifo : Op α → Bool
  | .push _ | .take _ | .size _ => true
  | _ => false

private theorem history_fifo {h : List (Op α)} {q₀ : List α} (hh : Legal (Op.Does combine) q₀ h q)
    (hf : ∀ o ∈ h, o.isFifo) : q₀ ++ h.filterMap Op.pushed = h.filterMap Op.taken ++ q := by
  induction h generalizing q₀ with
  | nil => simp [show q = q₀ from hh]
  | cons o h ih =>
    obtain ⟨q₁, ho, hh⟩ := hh
    have hrest := ih hh fun o' ho' => hf o' (List.mem_cons_of_mem _ ho')
    have hof := hf o List.mem_cons_self
    cases o with
    | push x =>
      cases ho
      simpa [List.filterMap_cons, Op.pushed, Op.taken] using hrest
    | take x =>
      cases x with
      | none =>
        obtain ⟨rfl, rfl⟩ := ho
        simpa [List.filterMap_cons, Op.pushed, Op.taken] using hrest
      | some x =>
        cases ho
        simpa [List.filterMap_cons, Op.pushed, Op.taken] using hrest
    | size n =>
      obtain ⟨-, rfl⟩ := ho
      simpa [List.filterMap_cons, Op.pushed, Op.taken] using hrest
    | _ => cases hof

/-- Items come out in the order in which they were put in, each of them once, and none is lost. -/
theorem fifo [DecidableEq τ] [Fintype τ] {ms : List (Move τ (Point α))} {rs : List (Option (Op α))}
    {s : State τ Unit Event Empty (List α) (Point α)}
    (hr : Transition.run? (step (code combine calls)) start ms = some (rs, s)) (hn : ∀ t, ¬ holds (s.pc t))
    (hf : ∀ o ∈ rs.reduceOption, o.isFifo) :
    rs.reduceOption.filterMap Op.pushed = rs.reduceOption.filterMap Op.taken ++ s.data :=
  have hg := run_legal hr
  history_fifo (hg.free (hg.owner_eq_none hn)) hf

theorem fifo_session : ∃ h : (after session).isSome,
    ((after session).get h).1.reduceOption.filterMap Op.pushed =
      ((after session).get h).1.reduceOption.filterMap Op.taken ++ ((after session).get h).2.data :=
  ⟨rfl, fifo (run_get rfl) (by decide) (by decide)⟩

/-! ## Waiting for an item, and for the queue to be empty -/

/-- Where a point leads to when it leads to one place only and leaves the contents as they are. -/
def Point.next : Point α → Option (Point α)
  | .enqueueItem x => some (.enqueueItemPush x)
  | .enqueueItemIfNotPresent x => some (.enqueueItemIfNotPresentLoop x)
  | .tryDequeueItem => some .tryDequeueItemTake
  | .dequeueItem => some .dequeueItemTest
  | .dequeueItemUnlock => some .dequeueItemWait
  | .dequeueItemWait => some .dequeueItem
  | .blockTillEmpty => some .blockTillEmptyTest
  | .blockTillEmptyUnlock => some .blockTillEmptyWait
  | .blockTillEmptyWait => some .blockTillEmpty
  | .clear => some .clearLoop
  | .size => some .sizeRead
  | .remove x => some (.removeLoop x)
  | .removeIf p => some (.removeIfBegin p)
  | .removeIfBegin p => some (.removeIfAt p 0)
  | .removeIfSet p itr => some (.removeIfAt p itr)
  | .sizeRead | .addedSet | .removedSet => some .unlock
  | .unlock => some .idle
  | _ => none

/-- What a step can do, branch by branch. -/
inductive Goes (calls : τ → Point α → Bool) (t : τ) : Point α → List α → Point α → List α → Prop
  | call {p : Point α} (q : List α) (hp : p.isCall) (hc : calls t p) : Goes calls t .idle q p q
  | next {p p' : Point α} (q : List α) (h : p.next = some p') : Goes calls t p q p' q
  | pushed (x : α) (q : List α) : Goes calls t (.enqueueItemPush x) q .addedSet (q ++ [x])
  | combined (x : α) {q q' : List α} (h : q = [] → q' = []) (h' : q' = [] → q = []) :
      Goes calls t (.enqueueItemIfNotPresentLoop x) q .unlock q'
  | pushedNew (x : α) (q : List α) : Goes calls t (.enqueueItemIfNotPresentLoop x) q .addedSet (q ++ [x])
  | missed : Goes calls t .tryDequeueItemTake [] .unlock []
  | tried (x : α) (q : List α) : Goes calls t .tryDequeueItemTake (x :: q) .removedSet q
  | lacking : Goes calls t .dequeueItemTest [] .dequeueItemUnlock []
  | taken (x : α) (q : List α) : Goes calls t .dequeueItemTest (x :: q) .removedSet q
  | empty : Goes calls t .blockTillEmptyTest [] .unlock []
  | nonempty (x : α) (q : List α) : Goes calls t .blockTillEmptyTest (x :: q) .blockTillEmptyUnlock (x :: q)
  | cleared (q : List α) : Goes calls t .clearLoop q .unlock []
  | erased (x : α) {q q' : List α} (h : q = [] → q' = []) : Goes calls t (.removeLoop x) q .removedSet q'
  | absent (x : α) (q : List α) : Goes calls t (.removeLoop x) q .unlock q
  | erasedAt (p : α → Bool) (itr : ℕ) {q q' : List α} (h : q = [] → q' = []) :
      Goes calls t (.removeIfAt p itr) q (.removeIfSet p itr) q'
  | kept (p : α → Bool) (itr : ℕ) (q : List α) : Goes calls t (.removeIfAt p itr) q (.removeIfAt p (itr + 1)) q
  | through (p : α → Bool) (itr : ℕ) (q : List α) : Goes calls t (.removeIfAt p itr) q .unlock q

theorem Goes.of_leads {t : τ} {p p' : Point α} {r : Option (Op α)} (h : (code combine calls t p).Leads q p' q' r) :
    Goes calls t p q p' q' := by
  cases p with
  | idle =>
    obtain ⟨hok, rfl, -⟩ := h
    obtain ⟨hp, hc⟩ := (Bool.and_eq_true_iff).mp hok
    exact .call _ hp hc
  | enqueueItemPush x =>
    obtain ⟨rfl, rfl, -⟩ := h
    exact .pushed x _
  | enqueueItemIfNotPresentLoop x =>
    simp only [code, Action.Leads, combineFirst_eq] at h
    split_ifs at h with hx <;> obtain ⟨rfl, rfl, -⟩ := h
    · exact .combined x (fun h => by rw [h]; rfl) (fun h => by simpa using h)
    · exact .pushedNew x _
  | tryDequeueItemTake =>
    cases q with
    | nil =>
      obtain ⟨rfl, rfl, -⟩ := h
      exact .missed
    | cons x q =>
      obtain ⟨rfl, rfl, -⟩ := h
      exact .tried x _
  | dequeueItemTest =>
    cases q with
    | nil =>
      obtain ⟨rfl, rfl, -⟩ := h
      exact .lacking
    | cons x q =>
      obtain ⟨rfl, rfl, -⟩ := h
      exact .taken x _
  | blockTillEmptyTest =>
    cases q with
    | nil =>
      obtain ⟨rfl, rfl, -⟩ := h
      exact .empty
    | cons x q =>
      obtain ⟨rfl, rfl, -⟩ := h
      exact .nonempty x _
  | clearLoop =>
    obtain ⟨rfl, rfl, -⟩ := h
    exact .cleared _
  | removeLoop x =>
    simp only [code, Action.Leads, eraseFirst_eq] at h
    split_ifs at h with hx <;> obtain ⟨rfl, rfl, -⟩ := h
    · exact .erased x fun h => by rw [h]; rfl
    · exact .absent x _
  | removeIfAt p itr =>
    simp only [code, Action.Leads] at h
    split at h
    · split_ifs at h <;> obtain ⟨rfl, rfl, -⟩ := h
      · exact .erasedAt p itr fun h => by rw [h]; rfl
      · exact .kept p itr _
    · obtain ⟨rfl, rfl, -⟩ := h
      exact .through p itr _
  | _ =>
    obtain ⟨rfl, rfl, -⟩ := h
    exact .next _ rfl

/-- The points of `DequeueItem` up to where it takes an item out. -/
def Dequeues : Point α → Prop
  | .dequeueItem | .dequeueItemTest | .dequeueItemUnlock | .dequeueItemWait => True
  | _ => False

/-- If only `c` calls `DequeueItem`, the signal of an item that was added does not get lost. -/
theorem signals_added {c : τ} (hc : ∀ t, calls t .dequeueItem → t = c) :
    Signals (code combine calls) c .added (fun t p => Dequeues p → t = c)
      (fun p => p = .dequeueItemUnlock ∨ p = .dequeueItemWait) (· = .addedSet) (· ≠ []) where
  stays {t p d q d' r} hl hp hd := by
    cases Goes.of_leads hl with
    | call _ hq hcall =>
      cases q with
      | dequeueItem => exact hc t hcall
      | _ => simp [Dequeues, Point.isCall] at hd hq
    | next _ h => cases p <;> cases h <;> first | exact hp trivial | cases hd
    | lacking => exact hp trivial
    | _ => cases hd
  waits {t p q} hw hp := by
    cases p <;> cases hw
    exact ⟨hp trivial, nofun⟩
  enters {p d q d' r} hl hp hq := by
    cases Goes.of_leads hl with
    | call _ h => rcases hq with rfl | rfl <;> cases h
    | next _ h => cases p <;> cases h <;> simp_all
    | lacking => simp
    | _ => simp at hq
  raises {t p d q d' r} hl _ hd hd' := by
    cases Goes.of_leads hl <;> simp_all
  pending {t p d q d' r} hl hp := by
    subst hp
    obtain ⟨rfl, -⟩ := hl
    exact .inr rfl

/-- The points of `BlockTillEmpty`. -/
def Blocks : Point α → Prop
  | .blockTillEmpty | .blockTillEmptyTest | .blockTillEmptyUnlock | .blockTillEmptyWait => True
  | _ => False

def Clears : Point α → Prop
  | .clear | .clearLoop => True
  | _ => False

def Removed (p : Point α) : Prop := p = .removedSet ∨ ∃ f i, p = .removeIfSet f i

/-- If only `c` calls `BlockTillEmpty`, and nobody calls `Clear`, which takes items out without a signal, the
signal of the last item that is taken out does not get lost. -/
theorem signals_removed {c : τ} (hc : ∀ t, calls t .blockTillEmpty → t = c) (hclear : ∀ t, ¬ calls t .clear) :
    Signals (code combine calls) c .removed (fun t p => (Blocks p → t = c) ∧ ¬ Clears p)
      (fun p => p = .blockTillEmptyUnlock ∨ p = .blockTillEmptyWait) Removed (· = []) where
  stays {t p d q d' r} hl hp := by
    cases Goes.of_leads hl with
    | call _ hq hcall =>
      cases q with
      | blockTillEmpty => exact ⟨fun _ => hc t hcall, nofun⟩
      | clear => exact absurd hcall (hclear t)
      | _ => simp [Blocks, Clears, Point.isCall] at hq ⊢
    | next _ h =>
      cases p <;> cases h <;> first | exact ⟨fun _ => hp.1 trivial, nofun⟩ | simp [Blocks, Clears]
      exact hp.2 trivial
    | nonempty => exact ⟨fun _ => hp.1 trivial, nofun⟩
    | _ => exact ⟨nofun, nofun⟩
  waits {t p q} hw hp := by
    cases p <;> cases hw
    exact ⟨hp.1 trivial, nofun⟩
  enters {p d q d' r} hl hp hq := by
    cases Goes.of_leads hl with
    | call _ h => rcases hq with rfl | rfl <;> cases h
    | next _ h => cases p <;> cases h <;> simp_all
    | nonempty x q => exact List.cons_ne_nil x q
    | _ => simp at hq
  raises {t p d q d' r} hl hp hd hd' := by
    cases Goes.of_leads hl with
    | cleared => exact absurd trivial hp.2
    | tried | taken | erased => exact .inl rfl
    | erasedAt f i => exact .inr ⟨f, i, rfl⟩
    | combined _ h h' => exact absurd (h' hd') hd
    | _ => simp_all
  pending {t p d q d' r} hl hp := by
    rcases hp with rfl | ⟨f, i, rfl⟩ <;> obtain ⟨rfl, -⟩ := hl <;> exact .inr rfl

variable [DecidableEq τ] [Fintype τ] {c : τ} {ms : List (Move τ (Point α))} {rs : List (Option (Op α))}
  {s : State τ Unit Event Empty (List α) (Point α)}

theorem run_watched_added (hc : ∀ t, calls t .dequeueItem → t = c)
    (hr : Transition.run? (step (code combine calls)) start ms = some (rs, s)) :
    Watched c .added (fun t p => Dequeues p → t = c) (fun p => p = .dequeueItemUnlock ∨ p = .dequeueItemWait)
      (· = .addedSet) (· ≠ []) s :=
  run_invariant (I := fun (_ : List (Op α)) s => Watched c .added _ _ _ _ s)
    (fun _ _ _ _ hi hs => (signals_added hc).step hi hs) (h := []) ⟨fun _ => nofun, nofun⟩ hr

theorem alone_dequeueItemTest (hpc : s.pc c = .dequeueItemTest) (ho : s.owner () = some c) (hq : s.data = x :: q) :
    Alone (code combine calls) c (fun s' => s'.pc c = .idle ∧ s'.data = q) s [.take (some x)] := by
  refine .act (s.awake c) (by rw [hpc]; rfl) (by rw [hq]; rfl) ?_
  rw [hq]
  refine .set (State.awake _ c) (by rw [State.goto_self]; rfl) ?_
  exact .unlock (State.awake _ c) (by rw [State.goto_self]; rfl) ho (.done ⟨State.goto_self .., rfl⟩)

private theorem alone_dequeueItem (hpc : s.pc c = .dequeueItem) (ho : s.owner () = none) (hq : s.data = x :: q) :
    Alone (code combine calls) c (fun s' => s'.pc c = .idle ∧ s'.data = q) s [.take (some x)] :=
  .lock (s.awake c) (by rw [hpc]; rfl) ho
    (alone_dequeueItemTest (State.goto_self ..) (Function.update_self () (some c) s.owner) hq)

/-- If only one thread calls `DequeueItem`, it is not left waiting while there is an item: wherever it is, and
whatever the others have been doing, it returns the first one as soon as nobody else is inside a call. -/
theorem dequeueItem_returns (hc : ∀ t, calls t .dequeueItem → t = c)
    (hr : Transition.run? (step (code combine calls)) start ms = some (rs, s)) (hd : Dequeues (s.pc c))
    (hothers : ∀ t, t ≠ c → ¬ holds (s.pc t)) (hq : s.data = x :: q) :
    Alone (code combine calls) c (fun s' => s'.pc c = .idle ∧ s'.data = q) s [.take (some x)] := by
  have hg := run_legal hr
  have hfree : ¬ holds (s.pc c) → s.owner () = none := hg.owner_eq_none_of_ne hothers
  cases hpc : s.pc c <;> rw [hpc] at hd hfree <;> cases hd
  case dequeueItem => exact alone_dequeueItem hpc (hfree nofun) hq
  case dequeueItemTest => exact alone_dequeueItemTest hpc ((hg.owner c).mpr (by rw [hpc]; rfl)) hq
  case dequeueItemUnlock =>
    have hempty : Knows (s.pc c) s.data := (hg.held c (by rw [hpc]; rfl)).2
    rw [hpc, hq] at hempty
    cases hempty
  case dequeueItemWait =>
    have hf : s.flag .added = true := by
      refine (run_watched_added hc hr).flag (.inr hpc) ?_ (fun h => nomatch hpc.symm.trans h) fun u hu hset => ?_
      · rw [hq]
        exact List.cons_ne_nil x q
      · exact hothers u hu (by rw [show s.pc u = .addedSet from hset]; rfl)
    exact .wait (s.awake c) (by rw [hpc]; rfl) hf (alone_dequeueItem (State.goto_self ..) (hfree nofun) hq)

theorem dequeueItem_returns_session : ∃ h : (after session).isSome,
    Alone (code (· + ·) mayCall) false (fun s' => s'.pc false = .idle ∧ s'.data = []) ((after session).get h).2
      [.take (some 7)] :=
  ⟨rfl, dequeueItem_returns (by decide) (run_get rfl) trivial (by decide) rfl⟩

theorem run_watched_removed (hc : ∀ t, calls t .blockTillEmpty → t = c) (hclear : ∀ t, ¬ calls t .clear)
    (hr : Transition.run? (step (code combine calls)) start ms = some (rs, s)) :
    Watched c .removed (fun t p => (Blocks p → t = c) ∧ ¬ Clears p)
      (fun p => p = .blockTillEmptyUnlock ∨ p = .blockTillEmptyWait) Removed (· = []) s :=
  run_invariant (I := fun (_ : List (Op α)) s => Watched c .removed _ _ _ _ s)
    (fun _ _ _ _ hi hs => (signals_removed hc hclear).step hi hs) (h := []) ⟨fun _ => ⟨nofun, nofun⟩, nofun⟩ hr

theorem alone_blockTillEmptyTest (hpc : s.pc c = .blockTillEmptyTest) (ho : s.owner () = some c) (hq : s.data = []) :
    Alone (code combine calls) c (fun s' => s'.pc c = .idle ∧ s'.data = []) s [] := by
  refine .act (s.awake c) (by rw [hpc]; rfl) rfl ?_
  exact .unlock (State.awake _ c) (by rw [State.goto_self, hq]; rfl) ho (.done ⟨State.goto_self .., hq⟩)

private theorem alone_blockTillEmpty (hpc : s.pc c = .blockTillEmpty) (ho : s.owner () = none) (hq : s.data = []) :
    Alone (code combine calls) c (fun s' => s'.pc c = .idle ∧ s'.data = []) s [] :=
  .lock (s.awake c) (by rw [hpc]; rfl) ho
    (alone_blockTillEmptyTest (State.goto_self ..) (Function.update_self () (some c) s.owner) hq)

/-- If only one thread calls `BlockTillEmpty` and nobody calls `Clear`, it is not left waiting beside an empty
queue: it returns as soon as nobody else is inside a call. -/
theorem blockTillEmpty_returns (hc : ∀ t, calls t .blockTillEmpty → t = c) (hclear : ∀ t, ¬ calls t .clear)
    (hr : Transition.run? (step (code combine calls)) start ms = some (rs, s)) (hb : Blocks (s.pc c))
    (hothers : ∀ t, t ≠ c → ¬ holds (s.pc t)) (hq : s.data = []) :
    Alone (code combine calls) c (fun s' => s'.pc c = .idle ∧ s'.data = []) s [] := by
  have hg := run_legal hr
  have hfree : ¬ holds (s.pc c) → s.owner () = none := hg.owner_eq_none_of_ne hothers
  cases hpc : s.pc c <;> rw [hpc] at hb hfree <;> cases hb
  case blockTillEmpty => exact alone_blockTillEmpty hpc (hfree nofun) hq
  case blockTillEmptyTest => exact alone_blockTillEmptyTest hpc ((hg.owner c).mpr (by rw [hpc]; rfl)) hq
  case blockTillEmptyUnlock =>
    have hne : Knows (s.pc c) s.data := (hg.held c (by rw [hpc]; rfl)).2
    rw [hpc] at hne
    exact absurd hq hne
  case blockTillEmptyWait =>
    have hf : s.flag .removed = true := by
      refine (run_watched_removed hc hclear hr).flag (.inr hpc) hq ?_ fun u hu hset => hothers u hu ?_
      · rw [hpc]
        rintro (h | ⟨f, i, h⟩) <;> cases h
      · rcases hset with h | ⟨f, i, h⟩ <;> rw [h] <;> rfl
    exact .wait (s.awake c) (by rw [hpc]; rfl) hf (alone_blockTillEmpty (State.goto_self ..) (hfree nofun) hq)

/-- `false` waits until the queue is empty, which it is when `true` has taken the item. -/
def emptied : List (Move Bool (Point ℕ)) :=
  .pick true (.enqueueItem 7) :: List.replicate 4 (.run true) ++ .pick false .blockTillEmpty ::
    List.replicate 3 (.run false) ++ .pick true .tryDequeueItem :: List.replicate 4 (.run true)

theorem blockTillEmpty_returns_emptied : ∃ h : (after emptied).isSome,
    Alone (code (· + ·) mayCall) false (fun s' => s'.pc false = .idle ∧ s'.data = []) ((after emptied).get h).2 [] :=
  ⟨rfl, blockTillEmpty_returns (by decide) (by decide) (run_get rfl) trivial (by decide) rfl⟩

/-- Nobody is inside a call, but for the threads `w`, which are at `p`. The event `e` is signalled if `f` is set. -/
structure Resting (e : Event) (p : Point α) (q : List α) (f : Bool) (w : Finset τ)
    (s : State τ Unit Event Empty (List α) (Point α)) : Prop where
  data : s.data = q
  owner : s.owner () = none
  flag : s.flag e = f
  pc : ∀ t, s.pc t = if t ∈ w then p else .idle

variable {e : Event} {p : Point α} {f : Bool} {w : Finset τ} {t : τ}

omit [BEq α] [Fintype τ] in
theorem resting_start : Resting e p [] false ∅ (start : State τ Unit Event Empty (List α) (Point α)) :=
  ⟨rfl, rfl, rfl, fun _ => rfl⟩

/-- A call from where nobody is inside a call. -/
theorem Resting.call {q' : List α} {f' : Bool} {w' : Finset τ} {p' : Point α} {g : List (Op α)}
    (h : Resting e p q f w s) (ht : t ∉ w) (hp : p'.isCall) (hcall : calls t p')
    (hn : Alone (code combine calls) t (Resting e p q' f' w') (s.goto t p') g) :
    ∃ s', Reaches (code combine calls) s s' ∧ Resting e p q' f' w' s' := by
  have hpc : s.pc t = .idle := (h.pc t).trans (if_neg ht)
  obtain ⟨s', hr, hQ⟩ := hn.reaches
  exact ⟨s', .pick (s.awake t) (by rw [hpc]; rfl) (by rw [hp, hcall]; rfl) hr, hQ⟩

variable (combine) in
/-- A second signal, given before the first one has been noticed, changes nothing. -/
theorem Resting.enqueueItem (h : Resting e p q f w s) (ht : t ∉ w) (hcall : calls t (.enqueueItem x)) :
    ∃ s', Reaches (code combine calls) s s' ∧ Resting e p (q ++ [x]) (if e = .added then true else f) w s' := by
  refine h.call (g := [.push x]) ht rfl hcall ?_
  refine .lock (State.awake _ t) (by rw [State.goto_self]; rfl) h.owner ?_
  refine .act (State.awake _ t) (by rw [State.goto_self]; rfl) rfl ?_
  refine .set (State.awake _ t) (by simp; rfl) ?_
  refine .unlock (State.awake _ t) (by simp; rfl) (by simp) (.done ⟨?_, ?_, ?_, fun u => ?_⟩)
  · simp [h.data]
  · simp
  · cases e <;> simp [h.flag]
  · by_cases hu : u = t
    · simp [hu, ht]
    · simp [hu, h.pc]

variable (combine) in
/-- A thread that finds the queue empty waits. -/
theorem Resting.dequeueItem (h : Resting .added .dequeueItemWait [] f w s) (ht : t ∉ w)
    (hcall : calls t .dequeueItem) :
    ∃ s', Reaches (code combine calls) s s' ∧ Resting .added .dequeueItemWait [] f (insert t w) s' := by
  refine h.call (g := []) ht rfl hcall ?_
  refine .lock (State.awake _ t) (by rw [State.goto_self]; rfl) h.owner ?_
  refine .act (State.awake _ t) (by rw [State.goto_self]; rfl) (by simp [h.data]; rfl) ?_
  refine .unlock (State.awake _ t) (by simp [h.data]; rfl) (by simp) (.done ⟨?_, ?_, h.flag, fun u => ?_⟩)
  · simp [h.data]
  · simp
  · by_cases hu : u = t
    · simp [hu]
    · simp [hu, h.pc]

variable (combine) in
/-- A thread that finds an item waits until it is taken out. -/
theorem Resting.blockTillEmpty (h : Resting .removed .blockTillEmptyWait (x :: q) f w s) (ht : t ∉ w)
    (hcall : calls t .blockTillEmpty) :
    ∃ s', Reaches (code combine calls) s s' ∧ Resting .removed .blockTillEmptyWait (x :: q) f (insert t w) s' := by
  refine h.call (g := []) ht rfl hcall ?_
  refine .lock (State.awake _ t) (by rw [State.goto_self]; rfl) h.owner ?_
  refine .act (State.awake _ t) (by rw [State.goto_self]; rfl) rfl ?_
  refine .unlock (State.awake _ t) (by simp [h.data]; rfl) (by simp) (.done ⟨?_, ?_, h.flag, fun u => ?_⟩)
  · simp [h.data]
  · simp
  · by_cases hu : u = t
    · simp [hu]
    · simp [hu, h.pc]

variable (combine) in
theorem Resting.clear (h : Resting e p q f w s) (ht : t ∉ w) (hcall : calls t .clear) :
    ∃ s', Reaches (code combine calls) s s' ∧ Resting e p [] f w s' := by
  refine h.call (g := [.clear]) ht rfl hcall ?_
  refine .lock (State.awake _ t) (by rw [State.goto_self]; rfl) h.owner ?_
  refine .act (State.awake _ t) (by rw [State.goto_self]; rfl) rfl ?_
  refine .unlock (State.awake _ t) (by simp; rfl) (by simp) (.done ⟨?_, ?_, h.flag, fun u => ?_⟩)
  · simp
  · simp
  · by_cases hu : u = t
    · simp [hu, ht]
    · simp [hu, h.pc]

variable (combine calls) in
/-- One of those that wait takes an item, and nobody is left to wake the others. -/
theorem Resting.taken (h : Resting .added .dequeueItemWait (x :: q) true w s) (ht : t ∈ w) :
    ∃ s', Reaches (code combine calls) s s' ∧ Resting .added .dequeueItemWait q false (w.erase t) s' := by
  have hpc : s.pc t = .dequeueItemWait := (h.pc t).trans (if_pos ht)
  have htake : Alone (code combine calls) t (Resting .added .dequeueItemWait q false (w.erase t)) s
      [.take (some x)] := by
    refine .wait (s.awake t) (by rw [hpc]; rfl) h.flag ?_
    refine .lock (State.awake _ t) (by rw [State.goto_self]; rfl) h.owner ?_
    refine .act (State.awake _ t) (by rw [State.goto_self]; rfl) (by simp [h.data]; rfl) ?_
    refine .set (State.awake _ t) (by simp [h.data]; rfl) ?_
    refine .unlock (State.awake _ t) (by simp [h.data]; rfl) (by simp) (.done ⟨?_, ?_, ?_, fun u => ?_⟩)
    · simp [h.data]
    · simp
    · simp
    · by_cases hu : u = t
      · simp [hu]
      · simp [hu, h.pc]
  exact htake.reaches

/-- With two threads that call `DequeueItem`, one can be left waiting beside an item: two signals in a row count
as one. -/
theorem dequeueItem_strands {a b p : τ} (hab : a ≠ b) (hap : p ≠ a) (hbp : p ≠ b) (ha : calls a .dequeueItem)
    (hb : calls b .dequeueItem) {y : α} (hx : calls p (.enqueueItem x)) (hy : calls p (.enqueueItem y)) :
    ∃ s, Reaches (code combine calls) start s ∧ s.data = [y] ∧ s.pc b = .dequeueItemWait ∧
      (∀ t, t ≠ b → s.pc t = .idle) ∧ step (code combine calls) s (.run b) = none := by
  obtain ⟨s₁, h₁, hs₁⟩ := resting_start.dequeueItem combine (Finset.notMem_empty a) ha
  obtain ⟨s₂, h₂, hs₂⟩ := hs₁.dequeueItem combine (t := b) (by simpa using hab.symm) hb
  obtain ⟨s₃, h₃, hs₃⟩ := hs₂.enqueueItem combine (t := p) (by simp [hap, hbp]) hx
  obtain ⟨s₄, h₄, hs₄⟩ := hs₃.enqueueItem combine (t := p) (by simp [hap, hbp]) hy
  obtain ⟨s₅, h₅, hs₅⟩ := hs₄.taken combine calls (t := a) (by simp)
  have hpc : s₅.pc b = .dequeueItemWait := (hs₅.pc b).trans (if_pos (by simp [hab.symm]))
  refine ⟨s₅, h₁.trans (h₂.trans (h₃.trans (h₄.trans h₅))), hs₅.data, hpc, fun t ht => ?_, ?_⟩
  · rw [hs₅.pc, if_neg (by simp [ht])]
  · simp [step, hpc, code, hs₅.flag]

theorem dequeueItem_strands_three : ∃ s, Reaches (code (· + ·) fun (_ : Fin 3) (_ : Point ℕ) => true) start s ∧
    s.data = [8] ∧ s.pc 1 = .dequeueItemWait ∧ (∀ t, t ≠ 1 → s.pc t = .idle) ∧
      step (code (· + ·) fun _ _ => true) s (.run 1) = none :=
  dequeueItem_strands (a := 0) (p := 2) (x := 7) (by decide) (by decide) (by decide) rfl rfl rfl rfl

/-- `Clear` leaves a thread in `BlockTillEmpty` waiting beside an empty queue. -/
theorem blockTillEmpty_strands {b p : τ} (hbp : p ≠ b) (hb : calls b .blockTillEmpty)
    (hx : calls p (.enqueueItem x)) (hclear : calls p .clear) :
    ∃ s, Reaches (code combine calls) start s ∧ s.data = [] ∧ s.pc b = .blockTillEmptyWait ∧
      (∀ t, t ≠ b → s.pc t = .idle) ∧ step (code combine calls) s (.run b) = none := by
  obtain ⟨s₁, h₁, hs₁⟩ := resting_start.enqueueItem combine (Finset.notMem_empty p) hx
  obtain ⟨s₂, h₂, hs₂⟩ := hs₁.blockTillEmpty combine (Finset.notMem_empty b) hb
  obtain ⟨s₃, h₃, hs₃⟩ := hs₂.clear combine (t := p) (by simp [hbp]) hclear
  have hpc : s₃.pc b = .blockTillEmptyWait := (hs₃.pc b).trans (if_pos (by simp))
  refine ⟨s₃, h₁.trans (h₂.trans h₃), hs₃.data, hpc, fun t ht => ?_, ?_⟩
  · rw [hs₃.pc, if_neg (by simp [ht])]
  · simp [step, hpc, code, hs₃.flag]

theorem blockTillEmpty_strands_two : ∃ s, Reaches (code (· + ·) fun (_ : Bool) (_ : Point ℕ) => true) start s ∧
    s.data = [] ∧ s.pc false = .blockTillEmptyWait ∧ (∀ t, t ≠ false → s.pc t = .idle) ∧
      step (code (· + ·) fun _ _ => true) s (.run false) = none :=
  blockTillEmpty_strands (x := 7) (p := true) nofun rfl rfl rfl

end

end Sfup.Common.Queue
