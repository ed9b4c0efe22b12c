import Sfup.Lib.Monitor
import Mathlib.Data.Fintype.Sum

/-! The send queue of a `WebRtcConnection`: any thread puts packets into it, `sendLoop` takes them out, and a failed
transport or the destructor ends the loop. -/
namespace Sfup.Core.SendLoop
open Monitor

/-- `sendQueue_` and `sending_`. A packet of component -1 has no other contents and is `none`. -/
structure Shared (α : Type*) where
  sendQueue : List (Option α) := []
  sending : Bool := true

inductive Op (α : Type*) where
  | accepted (p : α)
  | dropped (p : α)
  /-- A packet was given to its transport, or skipped by the rate control. -/
  | processed (p : α)
  /-- The queue was emptied for a packet of component -1. -/
  | cleared (ps : List α)

/-- The places in the member functions. -/
inductive Point (α : Type*) where
  | sendLoop
  | sendLoopLock
  | sendLoopTest
  | sendLoopWait
  | sendLoopWoken
  | sendLoopCheck
  | sendLoopReturn
  | sendLoopRelease (p : α)
  | sendLoopProcess (p : α)
  | finished
  | idle
  | queueData (p : Option α)
  | queueDataCheck (p : Option α)
  | queueDataEnd
  | queueDataClear
  | queueDataPush (p : α)
  | queueDataNotify
  | queueDataUnlock
  /-- `updateState` of a transport that has failed. -/
  | failed
  | failedNotify
  | destroy
  | destroyNotify
  | destroyJoin
  | destroyed

variable {τ α : Type*}

/-- The points of `send_Thread_`. -/
def Point.isSendLoop : Point α → Bool
  | .sendLoop | .sendLoopLock | .sendLoopTest | .sendLoopWait | .sendLoopWoken | .sendLoopCheck | .sendLoopReturn
  | .sendLoopRelease _ | .sendLoopProcess _ | .finished => true
  | _ => false

def Point.isCall : Point α → Bool
  | .queueData _ | .failed | .destroy => true
  | _ => false

/-- The threads: `send_Thread_`, and the others. Neither the transport nor the destructor takes `receiveVideoMutex_` to
write `sending_`. -/
def code (calls : τ → Point α → Bool) (t : Unit ⊕ τ) :
    Point α → Action (Unit ⊕ τ) Unit Empty Unit (Shared α) (Point α) (Op α)
  | .sendLoop => .act fun d => (if d.sending then .sendLoopLock else .finished, d, none)
  | .sendLoopLock => .lock () .sendLoopTest
  | .sendLoopTest => .act fun d =>
    match d.sendQueue with
    | [] => (.sendLoopWait, d, none)
    | none :: q => (.sendLoopReturn, { sendQueue := q, sending := false }, none)
    | some p :: q => (.sendLoopRelease p, { d with sendQueue := q }, none)
  | .sendLoopWait => .sleep () () .sendLoopWoken
  | .sendLoopWoken => .lock () .sendLoopCheck
  | .sendLoopCheck => .act fun d => (if d.sending then .sendLoopTest else .sendLoopReturn, d, none)
  | .sendLoopReturn => .unlock () .finished
  | .sendLoopRelease p => .unlock () (.sendLoopProcess p)
  | .sendLoopProcess p => .act fun d => (.sendLoop, d, some (.processed p))
  | .finished => .stop
  | .idle => .choose fun q => q.isCall && Sum.elim (fun _ => false) (fun t => calls t q) t
  | .queueData p => .lock () (.queueDataCheck p)
  | .queueDataCheck p => .act fun d =>
    (if d.sending then p.elim .queueDataEnd .queueDataPush else .queueDataUnlock, d, none)
  | .queueDataEnd => .act fun d => (.queueDataClear, { d with sending := false }, none)
  | .queueDataClear => .act fun d =>
    (.queueDataNotify, { d with sendQueue := [none] }, some (.cleared d.sendQueue.reduceOption))
  | .queueDataPush p => .act fun d =>
    if d.sendQueue.length < 1000 then
      (.queueDataNotify, { d with sendQueue := d.sendQueue ++ [some p] }, some (.accepted p))
    else (.queueDataNotify, d, some (.dropped p))
  | .queueDataNotify => .notify () .queueDataUnlock
  | .queueDataUnlock => .unlock () .idle
  | .failed => .act fun d => (.failedNotify, { d with sending := false }, none)
  | .failedNotify => .notify () .idle
  | .destroy => .act fun d => (.destroyNotify, { d with sending := false }, none)
  | .destroyNotify => .notify () .destroyJoin
  | .destroyJoin => .join (.inl ()) .destroyed
  | .destroyed => .stop

/-- `init` has started the thread. -/
def start : State (Unit ⊕ τ) Unit Empty Unit (Shared α) (Point α) where
  data := {}
  owner := fun _ => none
  flag := nofun
  asleep := fun _ => none
  pc := Sum.elim (fun _ => .sendLoop) fun _ => .idle

/-- The points at which `receiveVideoMutex_` is held. -/
def holds : Point α → Bool
  | .sendLoopTest | .sendLoopWait | .sendLoopCheck | .sendLoopReturn | .sendLoopRelease _ | .queueDataCheck _
  | .queueDataEnd | .queueDataClear | .queueDataPush _ | .queueDataNotify | .queueDataUnlock => true
  | _ => false

def Op.accepted? : Op α → Option α
  | .accepted p => some p
  | _ => none

def Op.processed? : Op α → Option α
  | .processed p => some p
  | _ => none

def Op.discarded : Op α → List α
  | .cleared ps => ps
  | _ => []

/-- A packet of component -1 is queued by someone who stops the loop, and behind it no packet is accepted. -/
structure History (h : List (Op α)) (d : Shared α) : Prop where
  last : none ∈ d.sendQueue → d.sending = false
  cleared : h.flatMap Op.discarded ≠ [] → d.sending = false ∧ d.sendQueue.reduceOption = []

def Knows : Point α → List (Op α) → Shared α → Prop
  | .sendLoopWait, _, d => d.sendQueue = []
  | .queueDataClear, _, d => d.sending = false
  | .queueDataPush _, h, _ => h.flatMap Op.discarded = []
  | _, _, _ => True

def Holds (p : Point α) (h : List (Op α)) (d : Shared α) : Prop := History h d ∧ Knows p h d

/-- The packet that has been taken out and not been processed yet. -/
def inHand : Point α → List α
  | .sendLoopRelease p | .sendLoopProcess p => [p]
  | _ => []

def Point.isOver : Point α → Bool
  | .sendLoopReturn | .finished => true
  | _ => false

/-- Where a point leads to when it leads to one place only and leaves the data as they are. -/
def Point.next : Point α → Option (Point α)
  | .sendLoopLock => some .sendLoopTest
  | .sendLoopWait => some .sendLoopWoken
  | .sendLoopWoken => some .sendLoopCheck
  | .sendLoopReturn => some .finished
  | .sendLoopRelease p => some (.sendLoopProcess p)
  | .queueData p => some (.queueDataCheck p)
  | .queueDataNotify => some .queueDataUnlock
  | .queueDataUnlock => some .idle
  | .failedNotify => some .idle
  | .destroyNotify => some .destroyJoin
  | .destroyJoin => some .destroyed
  | _ => none

/-- What a step can do, branch by branch. -/
inductive Goes : Point α → Shared α → Point α → Shared α → Option (Op α) → Prop
  | next {p q : Point α} (d : Shared α) (h : p.next = some q) : Goes p d q d none
  | runs {d : Shared α} (h : d.sending) : Goes .sendLoop d .sendLoopLock d none
  | ends {d : Shared α} (h : ¬ d.sending) : Goes .sendLoop d .finished d none
  | lacking {d : Shared α} (h : d.sendQueue = []) : Goes .sendLoopTest d .sendLoopWait d none
  | taken {d : Shared α} {x : α} {xs : List (Option α)} (h : d.sendQueue = some x :: xs) :
      Goes .sendLoopTest d (.sendLoopRelease x) { d with sendQueue := xs } none
  | last {d : Shared α} {xs : List (Option α)} (h : d.sendQueue = none :: xs) :
      Goes .sendLoopTest d .sendLoopReturn { sendQueue := xs, sending := false } none
  | again {d : Shared α} (h : d.sending) : Goes .sendLoopCheck d .sendLoopTest d none
  | leaves {d : Shared α} (h : ¬ d.sending) : Goes .sendLoopCheck d .sendLoopReturn d none
  | processed (d : Shared α) (x : α) : Goes (.sendLoopProcess x) d .sendLoop d (some (.processed x))
  | call {q : Point α} (d : Shared α) (h : q.isCall) : Goes .idle d q d none
  | admits {d : Shared α} (x : α) (h : d.sending) : Goes (.queueDataCheck (some x)) d (.queueDataPush x) d none
  | admitsLast {d : Shared α} (h : d.sending) : Goes (.queueDataCheck none) d .queueDataEnd d none
  | stops (d : Shared α) : Goes .queueDataEnd d .queueDataClear { d with sending := false } none
  | clears (d : Shared α) : Goes .queueDataClear d .queueDataNotify { d with sendQueue := [none] }
      (some (.cleared d.sendQueue.reduceOption))
  | refuses {d : Shared α} (x : Option α) (h : ¬ d.sending) : Goes (.queueDataCheck x) d .queueDataUnlock d none
  | accepted {d : Shared α} (x : α) (h : d.sendQueue.length < 1000) : Goes (.queueDataPush x) d .queueDataNotify
      { d with sendQueue := d.sendQueue ++ [some x] } (some (.accepted x))
  | dropped {d : Shared α} (x : α) (h : ¬ d.sendQueue.length < 1000) :
      Goes (.queueDataPush x) d .queueDataNotify d (some (.dropped x))
  | failed (d : Shared α) : Goes .failed d .failedNotify { d with sending := false } none
  | destroy (d : Shared α) : Goes .destroy d .destroyNotify { d with sending := false } none

variable {calls : τ → Point α → Bool} {t : Unit ⊕ τ} {p q : Point α} {d d' : Shared α} {r : Option (Op α)}

theorem Goes.of_leads (hl : (code calls t p).Leads d q d' r) : Goes p d q d' r := by
  cases p with
  | finished | destroyed => cases hl
  | idle =>
    obtain ⟨hok, rfl, rfl⟩ := hl
    exact .call d' (Bool.and_eq_true_iff.mp hok).1
  | sendLoop =>
    obtain ⟨rfl, rfl, rfl⟩ := hl
    dsimp only
    split_ifs with h
    · exact .runs h
    · exact .ends h
  | sendLoopTest =>
    simp only [code, Action.Leads] at hl
    split at hl
    · obtain ⟨rfl, rfl, rfl⟩ := hl
      exact .lacking ‹_›
    · obtain ⟨rfl, rfl, rfl⟩ := hl
      exact .last ‹_›
    · obtain ⟨rfl, rfl, rfl⟩ := hl
      exact .taken ‹_›
  | sendLoopCheck =>
    obtain ⟨rfl, rfl, rfl⟩ := hl
    dsimp only
    split_ifs with h
    · exact .again h
    · exact .leaves h
  | sendLoopProcess x =>
    obtain ⟨rfl, rfl, rfl⟩ := hl
    exact .processed d' x
  | queueDataCheck x =>
    obtain ⟨rfl, rfl, rfl⟩ := hl
    dsimp only
    split_ifs with h
    · cases x with
      | none => exact .admitsLast h
      | some x => exact .admits x h
    · exact .refuses x h
  | queueDataEnd =>
    obtain ⟨rfl, rfl, rfl⟩ := hl
    exact .stops d
  | queueDataClear =>
    obtain ⟨rfl, rfl, rfl⟩ := hl
    exact .clears d
  | queueDataPush x =>
    simp only [code, Action.Leads] at hl
    split_ifs at hl with h
    · obtain ⟨rfl, rfl, rfl⟩ := hl
      exact .accepted x h
    · obtain ⟨rfl, rfl, rfl⟩ := hl
      exact .dropped x h
  | failed =>
    obtain ⟨rfl, rfl, rfl⟩ := hl
    exact .failed d
  | destroy =>
    obtain ⟨rfl, rfl, rfl⟩ := hl
    exact .destroy d
  | _ =>
    obtain ⟨rfl, rfl, rfl⟩ := hl
    exact .next d' rfl

def Place (t : Unit ⊕ τ) (p : Point α) : Prop := p.isSendLoop = t.isLeft

theorem Goes.isSendLoop_eq (hg : Goes p d q d' r) : q.isSendLoop = p.isSendLoop := by
  cases hg with
  | next _ h => cases p <;> cases h <;> rfl
  | call _ h => cases q <;> first | cases h; done | rfl
  | _ => rfl

theorem place_of_leads (hl : (code calls t p).Leads d q d' r) (hp : Place t p) : Place t q :=
  (Goes.of_leads hl).isSendLoop_eq.trans hp

theorem place_start (t : Unit ⊕ τ) :
    Place t ((start : State (Unit ⊕ τ) Unit Empty Unit (Shared α) (Point α)).pc t) := by
  cases t <;> rfl

/-! ## The lock -/

theorem History.concat {x : Op α} {h : List (Op α)} (hh : History h d) (hx : x.discarded = []) :
    History (h ++ [x]) d := by
  refine ⟨hh.last, fun hne => hh.cleared ?_⟩
  simpa [hx] using hne

theorem Holds.stopped {h : List (Op α)} (hh : Holds p h d) : Holds p h { d with sending := false } := by
  obtain ⟨⟨-, hcleared⟩, hk⟩ := hh
  refine ⟨⟨fun _ => rfl, fun hne => ⟨rfl, (hcleared hne).2⟩⟩, ?_⟩
  cases p <;> first | exact hk | exact rfl

theorem Holds.processed {h : List (Op α)} (hh : Holds p h d) (x : α) : Holds p (h ++ [.processed x]) d := by
  refine ⟨hh.1.concat rfl, ?_⟩
  have hk := hh.2
  cases p <;> first | exact hk | simpa [Knows, Op.discarded] using hk

theorem Goes.guards (hg : Goes p d q d' r) (hn : p.next = none) (hi : p ≠ .idle) :
    holds q = holds p ∧ if holds p then ∀ h : List (Op α), Holds p h d → Holds q (h ++ r.toList) d'
      else ∀ h : List (Op α), (History h d → History (h ++ r.toList) d') ∧
        ∀ q, holds q → Holds q h d → Holds q (h ++ r.toList) d' := by
  cases hg with
  | next _ h => cases hn.symm.trans h
  | call => exact absurd rfl hi
  | runs | ends => exact ⟨rfl, fun h => ⟨fun hh => by simpa using hh, fun q _ hh => by simpa using hh⟩⟩
  | lacking hq => exact ⟨rfl, fun h hh => ⟨by simpa using hh.1, hq⟩⟩
  | taken hq =>
    refine ⟨rfl, fun h hh => ⟨⟨fun hmem => hh.1.last ?_, fun hne => ?_⟩, trivial⟩⟩
    · rw [hq]
      exact List.mem_cons_of_mem _ hmem
    · have hnil := (hh.1.cleared (by simpa using hne)).2
      rw [hq, List.reduceOption_cons_of_some] at hnil
      cases hnil
  | last hq =>
    refine ⟨rfl, fun h hh => ⟨⟨fun _ => rfl, fun hne => ⟨rfl, ?_⟩⟩, trivial⟩⟩
    have hnil := (hh.1.cleared (by simpa using hne)).2
    rwa [hq, List.reduceOption_cons_of_none] at hnil
  | again | leaves | refuses | admitsLast => exact ⟨rfl, fun h hh => ⟨by simpa using hh.1, trivial⟩⟩
  | admits x hs =>
    refine ⟨rfl, fun h hh => ⟨by simpa using hh.1, ?_⟩⟩
    by_contra hne
    cases hs.symm.trans (hh.1.cleared (by simpa [Knows] using hne)).1
  | stops => exact ⟨rfl, fun h hh => ⟨by simpa using hh.stopped.1, rfl⟩⟩
  | clears => exact ⟨rfl, fun h hh => ⟨⟨fun _ => hh.2, fun _ => ⟨hh.2, rfl⟩⟩, trivial⟩⟩
  | accepted x hl =>
    refine ⟨rfl, fun h hh => ⟨⟨fun hmem => hh.1.last ?_, fun hne => absurd ?_ hne⟩, trivial⟩⟩
    · simpa using hmem
    · have hk : h.flatMap Op.discarded = [] := hh.2
      simpa [Op.discarded] using hk
  | dropped x hl => exact ⟨rfl, fun h hh => ⟨hh.1.concat rfl, trivial⟩⟩
  | processed _ x => exact ⟨rfl, fun h => ⟨fun hh => hh.concat rfl, fun q _ hh => hh.processed x⟩⟩
  | failed | destroy =>
    refine ⟨rfl, fun h => ⟨fun hh => ?_, fun q _ hh => by simpa using hh.stopped⟩⟩
    exact ⟨fun _ => rfl, fun hne => ⟨rfl, (hh.cleared (by simpa using hne)).2⟩⟩

theorem guards (t : Unit ⊕ τ) (p : Point α) : Guards () holds History Holds p (code calls t p) := by
  cases p with
  | finished | destroyed => trivial
  | idle =>
    intro q hq
    have hcall : q.isCall := (Bool.and_eq_true_iff.mp hq).1
    cases q <;> first | cases hcall; done | exact ⟨rfl, nofun⟩
  | sendLoopLock | sendLoopWoken | queueData => exact ⟨nofun, rfl, fun _ _ hh => ⟨hh, trivial⟩⟩
  | sendLoopWait | sendLoopReturn | sendLoopRelease | queueDataUnlock => exact ⟨rfl, nofun, fun _ _ hh => hh.1⟩
  | queueDataNotify => exact ⟨rfl, fun _ _ _ hh => ⟨hh.1, trivial⟩⟩
  | failedNotify | destroyNotify | destroyJoin => exact ⟨rfl, nofun⟩
  | _ => exact Guards.of_leads ⟨_, rfl⟩ fun d q d' r hl => (Goes.of_leads hl).guards rfl nofun

theorem guarded_start : Guarded () holds History Holds []
    (start : State (Unit ⊕ τ) Unit Empty Unit (Shared α) (Point α)) := by
  refine ⟨fun t => ?_, fun _ => ⟨nofun, fun hne => absurd rfl hne⟩, fun t => ?_⟩ <;>
    cases t <;> first | exact ⟨nofun, nofun⟩ | exact nofun

/-! ## Packets -/

theorem inHand_eq_nil (hp : ¬ p.isSendLoop) : inHand p = [] := by
  cases p <;> first | rfl | exact absurd rfl hp

/-- What a step does to the packets. -/
theorem Goes.packets (hg : Goes p d q d' r) :
    r.toList.filterMap Op.processed? ++ inHand q ++ (r.toList.flatMap Op.discarded ++ d'.sendQueue.reduceOption) =
      inHand p ++ (d.sendQueue.reduceOption ++ r.toList.filterMap Op.accepted?) ∧
    (¬ p.isSendLoop → r.toList.filterMap Op.processed? = []) ∧
    (p.isSendLoop → r.toList.filterMap Op.accepted? = [] ∧ r.toList.flatMap Op.discarded = []) ∧
    (d.sendQueue.length ≤ 1000 → d'.sendQueue.length ≤ 1000) := by
  cases hg with
  | next _ h => cases p <;> cases h <;> simp [inHand]
  | call _ h => cases q <;> first | cases h; done | simp [inHand]
  | taken h | last h =>
    refine ⟨by simp [inHand, h], fun _ => rfl, fun _ => ⟨rfl, rfl⟩, fun hl => ?_⟩
    rw [h] at hl
    exact (Nat.le_succ _).trans hl
  | processed => exact ⟨by simp [inHand, Op.processed?, Op.accepted?, Op.discarded], fun h => absurd rfl h, fun _ => ⟨rfl, rfl⟩, id⟩
  | accepted x h =>
    refine ⟨by simp [inHand, Op.processed?, Op.accepted?, Op.discarded, List.reduceOption_append], fun _ => rfl, nofun,
      fun _ => ?_⟩
    rw [List.length_append]
    exact h
  | dropped =>
    exact ⟨by simp [inHand, List.filterMap_cons, Op.processed?, Op.accepted?, Op.discarded], fun _ => rfl, nofun, id⟩
  | clears =>
    refine ⟨by simp [inHand, List.filterMap_cons, Op.processed?, Op.accepted?, Op.discarded], fun _ => rfl, nofun, fun _ => ?_⟩
    exact Nat.succ_le_succ (Nat.zero_le _)
  | _ => exact ⟨by simp [inHand], fun _ => rfl, fun _ => ⟨rfl, rfl⟩, id⟩

/-- Whoever stops the loop does so for good, and the loop only ends when it has been stopped. -/
theorem Goes.sending (hg : Goes p d q d' r) :
    (d.sending = false → d'.sending = false) ∧ (q.isOver → p.isOver ∨ d'.sending = false) := by
  cases hg with
  | next _ h => cases p <;> cases h <;> simp [Point.isOver]
  | call _ h => cases q <;> first | cases h; done | simp [Point.isOver]
  | ends h | leaves h => exact ⟨id, fun _ => .inr (Bool.eq_false_of_not_eq_true h)⟩
  | last => exact ⟨fun _ => rfl, fun _ => .inr rfl⟩
  | failed | destroy | stops => exact ⟨fun _ => rfl, nofun⟩
  | _ => exact ⟨id, nofun⟩

variable {h : List (Op α)} {s s' : State (Unit ⊕ τ) Unit Empty Unit (Shared α) (Point α)}

structure Balanced (h : List (Op α)) (s : State (Unit ⊕ τ) Unit Empty Unit (Shared α) (Point α)) : Prop where
  place : ∀ t, Place t (s.pc t)
  packets : h.filterMap Op.accepted? = h.filterMap Op.processed? ++ inHand (s.pc (.inl ())) ++
    (h.flatMap Op.discarded ++ s.data.sendQueue.reduceOption)
  length : s.data.sendQueue.length ≤ 1000
  told : (s.pc (.inl ())).isOver → s.data.sending = false
  resting : s.asleep (.inl ()) ≠ none → s.pc (.inl ()) = .sendLoopWoken

theorem balanced_start : Balanced [] (start : State (Unit ⊕ τ) Unit Empty Unit (Shared α) (Point α)) :=
  ⟨place_start, rfl, Nat.zero_le _, nofun, fun h => absurd rfl h⟩

def Shared.Busy (d : Shared α) : Prop := d.sendQueue ≠ [] ∧ d.sending

/-- The loop goes on. -/
def Waits (p : Point α) : Prop := p.isSendLoop ∧ ¬ p.isOver

theorem attends : Attends (code calls : Unit ⊕ τ → _) () Place Waits (· = .queueDataNotify) Shared.Busy where
  stays := place_of_leads
  sleeps {t p k q} hs _ := by
    cases p <;> cases hs
    exact ⟨rfl, Bool.false_ne_true⟩
  leaves {t p d q d' r} hl _ hp hq hb := by
    have hg := Goes.of_leads hl
    have hover : q.isOver := by
      by_contra hn
      exact hq ⟨hg.isSendLoop_eq.trans hp.1, hn⟩
    rcases hg.sending.2 hover with h | h
    · exact hp.2 h
    · cases h.symm.trans hb.2
  raises {t p d q d' r} hl _ hd hd' := by
    cases Goes.of_leads hl with
    | accepted | clears => rfl
    | taken h => exact absurd ⟨by rw [h]; exact List.cons_ne_nil _ _, hd'.2⟩ hd
    | failed | destroy | stops | last => cases hd'.2
    | _ => exact absurd hd' hd
  pending {t p d q d' r} hl hp := by
    subst hp
    obtain ⟨rfl, -⟩ := hl
    exact .inr (.inl rfl)

theorem map_some_reduceOption {xs : List (Option α)} (h : none ∉ xs) : xs.reduceOption.map some = xs := by
  induction xs with
  | nil => rfl
  | cons x xs ih =>
    cases x with
    | none => exact absurd List.mem_cons_self h
    | some x =>
      rw [List.reduceOption_cons_of_some, List.map_cons, ih fun hmem => h (List.mem_cons_of_mem _ hmem)]

def Drained (s : State (Unit ⊕ τ) Unit Empty Unit (Shared α) (Point α)) : Prop :=
  inHand (s.pc (.inl ())) = [] ∧ s.data.sendQueue = []

variable [DecidableEq τ]

theorem Balanced.step (hi : Balanced h s) (hh : History h s.data) (hh' : History (h ++ r.toList) s'.data)
    (hs : Step (code calls) s r s') : Balanced (h ++ r.toList) s' := by
  have hplace : ∀ t, Place t (s'.pc t) := hs.place place_of_leads hi.place
  rcases hs.moved with ⟨t, q, hm⟩ | ⟨rfl, hd, hpc, -, hasleep⟩
  · have hg := Goes.of_leads hm.leads
    obtain ⟨hpackets, hprocessed, hloop, hlength⟩ := hg.packets
    obtain ⟨hstopped, hover⟩ := hg.sending
    rcases t with ⟨⟩ | t
    · refine ⟨hplace, ?_, hlength hi.length, fun ho => ?_, fun ha => ?_⟩
      · obtain ⟨haccepted, hdiscarded⟩ := hloop (hi.place (.inl ()))
        have hcleared : (h ++ r.toList).flatMap Op.discarded = h.flatMap Op.discarded := by
          rw [List.flatMap_append, hdiscarded, List.append_nil]
        rw [List.filterMap_append, List.filterMap_append, hi.packets, hm.self, hcleared]
        rw [hdiscarded, haccepted] at hpackets
        by_cases hnone : h.flatMap Op.discarded = []
        · simp only [hnone, haccepted, List.append_assoc, List.nil_append, List.append_nil] at hpackets ⊢
          rw [hpackets]
        · -- Behind a packet of component -1 there are no packets in the queue, neither before the step nor after it.
          have hempty := (hh.cleared hnone).2
          have hempty' := (hh'.cleared (hcleared ▸ hnone)).2
          simp only [hempty, hempty', haccepted, List.append_assoc, List.append_nil] at hpackets ⊢
          rw [← hpackets]
          simp
      · rw [hm.self] at ho
        exact (hover ho).elim (fun ho => hstopped (hi.told ho)) id
      · obtain ⟨c, hc⟩ := Option.ne_none_iff_exists'.mp ha
        rcases hm.sleep _ c hc with hc | ⟨-, k, hk⟩
        · cases hm.awake.symm.trans hc
        · rw [hm.self]
          cases hpc : s.pc (.inl ()) <;> rw [hpc] at hk <;> cases hk
          rfl
    · have hp : ¬ (s.pc (.inr t)).isSendLoop := by
        rw [show (s.pc (.inr t)).isSendLoop = false from hi.place (.inr t)]
        exact Bool.false_ne_true
      have hother : s'.pc (.inl ()) = s.pc (.inl ()) := hm.other nofun
      refine ⟨hplace, ?_, hlength hi.length, fun ho => hstopped (hi.told (hother ▸ ho)), fun ha => ?_⟩
      swap
      · obtain ⟨c, hc⟩ := Option.ne_none_iff_exists'.mp ha
        rcases hm.sleep _ c hc with hc | ⟨hu, -⟩
        · exact hother.trans (hi.resting fun hn => nomatch hn.symm.trans hc)
        · cases hu
      rw [hprocessed hp, inHand_eq_nil hp, inHand_eq_nil (hg.isSendLoop_eq ▸ hp)] at hpackets
      rw [List.filterMap_append, List.filterMap_append, List.flatMap_append, hi.packets, hprocessed hp, hother]
      simp only [List.append_assoc, List.append_nil, List.nil_append] at hpackets ⊢
      rw [hpackets]
  · refine ⟨hplace, ?_, hd ▸ hi.length, by rw [hpc, hd]; exact hi.told, fun ha => ?_⟩
    · rw [hpc, hd]
      simpa using hi.packets
    · obtain ⟨c, hc⟩ := Option.ne_none_iff_exists'.mp ha
      exact hpc ▸ hi.resting fun hn => nomatch hn.symm.trans (hasleep _ c hc)

variable [Fintype τ] {ms : List (Move (Unit ⊕ τ) (Point α))} {rs : List (Option (Op α))}

theorem run_guarded (hr : Transition.run? (step (code calls)) start ms = some (rs, s)) :
    Guarded () holds History Holds rs.reduceOption s :=
  run_invariant (fun _ _ _ _ hi hs => Guarded.step guards hi hs) guarded_start hr

omit [DecidableEq τ] [Fintype τ] in
theorem history_of_guarded (hg : Guarded () holds History Holds h s) : History h s.data := by
  cases ho : s.owner () with
  | none => exact hg.free ho
  | some t => exact (hg.held t ((hg.owner t).mp ho)).1

theorem run_balanced (hr : Transition.run? (step (code calls)) start ms = some (rs, s)) :
    Balanced rs.reduceOption s := by
  have hinv : Guarded () holds History Holds rs.reduceOption s ∧ Balanced rs.reduceOption s := by
    refine run_invariant (h := []) (I := fun h s => Guarded () holds History Holds h s ∧ Balanced h s)
      (fun h s r s' hi hs => ?_) ⟨guarded_start, balanced_start⟩ hr
    have hg := hi.1.step guards hs
    exact ⟨hg, hi.2.step (history_of_guarded hi.1) (history_of_guarded hg) hs⟩
  exact hinv.2

/-- The thread falls asleep, and another one puts two packets into the queue. -/
def session : List (Move (Unit ⊕ Unit) (Point ℕ)) :=
  List.replicate 4 (.run (.inl ())) ++ .pick (.inr ()) (.queueData (some 7)) :: List.replicate 3 (.run (.inr ())) ++
    [.wake (.inr ()) (.inl ()), .run (.inr ()), .pick (.inr ()) (.queueData (some 8))] ++
    List.replicate 5 (.run (.inr ()))

/-- The thread takes the first packet, and the second one is discarded for one of component -1. -/
def ending : List (Move (Unit ⊕ Unit) (Point ℕ)) :=
  session ++ List.replicate 4 (.run (.inl ())) ++ .pick (.inr ()) (.queueData none) :: List.replicate 6 (.run (.inr ()))

def after (ms : List (Move (Unit ⊕ Unit) (Point ℕ))) :
    Option (List (Option (Op ℕ)) × State (Unit ⊕ Unit) Unit Empty Unit (Shared ℕ) (Point ℕ)) :=
  Transition.run? (step (code fun _ _ => true)) start ms

/-- Packets are processed in the order in which they were accepted, each of them at most once, and no more than 1000
are waiting. Those that a packet of component -1 discards are the last to have been accepted. -/
theorem sent_in_order (hr : Transition.run? (step (code calls)) start ms = some (rs, s)) :
    rs.reduceOption.filterMap Op.accepted? =
      rs.reduceOption.filterMap Op.processed? ++ inHand (s.pc (.inl ())) ++
        (rs.reduceOption.flatMap Op.discarded ++ s.data.sendQueue.reduceOption) ∧
    (rs.reduceOption.flatMap Op.discarded ≠ [] → s.data.sending = false ∧ s.data.sendQueue.reduceOption = []) ∧
    s.data.sendQueue.length ≤ 1000 :=
  ⟨(run_balanced hr).packets, (history_of_guarded (run_guarded hr)).cleared, (run_balanced hr).length⟩

theorem sent_in_order_ending : ∃ h : (after ending).isSome,
    ((after ending).get h).1.reduceOption.filterMap Op.accepted? = [7, 8] ∧
    [7, 8] = ((after ending).get h).1.reduceOption.filterMap Op.processed? ++ inHand (((after ending).get h).2.pc (.inl ())) ++
      (((after ending).get h).1.reduceOption.flatMap Op.discarded ++
        ((after ending).get h).2.data.sendQueue.reduceOption) ∧
    ((after ending).get h).1.reduceOption.flatMap Op.discarded = [8] ∧
    ((after ending).get h).2.data.sending = false ∧ ((after ending).get h).2.data.sendQueue.length ≤ 1000 := by
  refine ⟨rfl, rfl, ?_⟩
  have hrun : (after ending).isSome := rfl
  obtain ⟨horder, hcleared, hlength⟩ := sent_in_order (run_get hrun)
  exact ⟨horder, rfl, (hcleared (List.cons_ne_nil 8 [])).1, hlength⟩

/-! ## Waking up -/

theorem run_attended (hr : Transition.run? (step (code calls)) start ms = some (rs, s)) :
    Attended () Place Waits (· = .queueDataNotify) Shared.Busy s := by
  have hinv : Guarded () holds History Holds rs.reduceOption s ∧
      Attended () Place Waits (· = .queueDataNotify) Shared.Busy s := by
    refine run_invariant (h := []) (I := fun h s => Guarded () holds History Holds h s ∧
      Attended () Place Waits (· = .queueDataNotify) Shared.Busy s) (fun h s r s' hi hs => ?_)
      ⟨guarded_start, place_start, nofun, nofun⟩ hr
    refine ⟨hi.1.step guards hs, attends.step (fun t c k q hsleep => ?_) hi.2 hs⟩
    -- Whoever is going to sleep has seen the empty queue, and still holds the lock.
    cases hpc : s.pc t <;> rw [hpc] at hsleep <;> cases hsleep
    have hempty := (hi.1.held t (by rw [hpc]; rfl)).2
    rw [hpc] at hempty
    exact fun hb => hb.1 hempty
  exact hinv.2

theorem alone_sendLoopTest {x : α} (xs : List (Option α)) (hpc : s.pc (.inl ()) = .sendLoopTest)
    (ho : s.owner () = some (.inl ())) (ha : s.asleep (.inl ()) = none) (hq : s.data.sendQueue = some x :: xs)
    {Q : State (Unit ⊕ τ) Unit Empty Unit (Shared α) (Point α) → Prop}
    (hn : ∀ s' : State (Unit ⊕ τ) Unit Empty Unit (Shared α) (Point α), s'.pc (.inl ()) = .sendLoop →
      s'.owner () = none → s'.asleep (.inl ()) = none → s'.data = { s.data with sendQueue := xs } →
      Alone (code calls) (.inl ()) Q s' h) :
    Alone (code calls) (.inl ()) Q s (.processed x :: h) := by
  refine .act (h := .processed x :: h) ha (by rw [hpc]; rfl) (by rw [hq]; rfl) ?_
  rw [hq]
  refine .unlock ha (by rw [State.goto_self]; rfl) ho ?_
  refine .act (h := h) ha (by rw [State.goto_self]; rfl) rfl ?_
  exact hn _ (by simp) (by simp) ha rfl

/-- As long as the loop goes on, it processes all that is in the queue. -/
theorem alone_sendLoop_drained (xs : List α) (hpc : s.pc (.inl ()) = .sendLoop) (ho : s.owner () = none)
    (ha : s.asleep (.inl ()) = none) (hsending : s.data.sending = true)
    (hq : s.data.sendQueue = xs.map some) : Alone (code calls) (.inl ()) Drained s (xs.map .processed) := by
  induction xs generalizing s with
  | nil => exact .done ⟨by rw [hpc]; rfl, hq⟩
  | cons x xs ih =>
    refine .act ha (by rw [hpc]; rfl) rfl ?_
    refine .lock ha (by simp [hsending]; rfl) ho ?_
    refine alone_sendLoopTest (xs.map some) ?_ ?_ ?_ ?_ fun s' hpc' ho' ha' hd' => ?_
    · simp
    · simp
    · exact ha
    · exact hq
    · exact ih hpc' ho' ha' (by rw [hd']; exact hsending) (by rw [hd'])

private theorem alone_sendLoopTest_drained (xs : List α) (hpc : s.pc (.inl ()) = .sendLoopTest)
    (ho : s.owner () = some (.inl ())) (ha : s.asleep (.inl ()) = none) (hsending : s.data.sending = true)
    (hq : s.data.sendQueue = xs.map some) : Alone (code calls) (.inl ()) Drained s (xs.map .processed) := by
  cases xs with
  | nil => exact .done ⟨by rw [hpc]; rfl, hq⟩
  | cons x xs =>
    refine alone_sendLoopTest (xs.map some) hpc ho ha hq fun s' hpc' ho' ha' hd' => ?_
    exact alone_sendLoop_drained xs hpc' ho' ha' (by rw [hd']; exact hsending) (by rw [hd'])

/-- While there is a packet, the thread is awake, unless somebody is about to wake it. -/
theorem run_awake (hr : Transition.run? (step (code calls)) start ms = some (rs, s)) (hb : s.data.Busy)
    (hothers : ∀ t, ¬ holds (s.pc (.inr t))) : s.asleep (.inl ()) = none := by
  cases ha : s.asleep (.inl ()) with
  | none => rfl
  | some c =>
    have hplace := (run_balanced hr).place
    rcases (run_attended hr).woken (.inl ()) ha hb with ⟨v, hv⟩ | ⟨v, hv, hw⟩
    · have hv : s.pc v = .queueDataNotify := hv
      rcases v with ⟨⟩ | t
      · have hp := hplace (.inl ())
        rw [hv] at hp
        cases hp
      · exact absurd (by rw [hv]; rfl) (hothers t)
    · rcases v with ⟨⟩ | t
      · cases hv.symm.trans ha
      · cases (hplace (.inr t)).symm.trans hw.1

/-- While the connection is sending, the thread processes the packet it has and all that are in the queue, in order, as
soon as nobody else is at the queue: it does not oversleep. -/
theorem sendLoop_drains (hr : Transition.run? (step (code calls)) start ms = some (rs, s))
    (hsending : s.data.sending = true) (hothers : ∀ t, ¬ holds (s.pc (.inr t))) :
    Alone (code calls) (.inl ()) Drained s ((inHand (s.pc (.inl ())) ++ s.data.sendQueue.reduceOption).map .processed) := by
  have hg := run_guarded hr
  have hqueue : s.data.sendQueue = s.data.sendQueue.reduceOption.map some :=
    (map_some_reduceOption fun hnone => nomatch hsending.symm.trans ((history_of_guarded hg).last hnone)).symm
  have hplace := (run_balanced hr).place (.inl ())
  have htold := (run_balanced hr).told
  have hown : holds (s.pc (.inl ())) → s.owner () = some (.inl ()) := (hg.owner _).mpr
  have hfree : ¬ holds (s.pc (.inl ())) → s.owner () = none := hg.owner_eq_none_of_ne fun u hu => by
    rcases u with ⟨⟩ | t
    · exact absurd rfl hu
    · exact hothers t
  have hawake : s.pc (.inl ()) ≠ .sendLoopWoken → s.asleep (.inl ()) = none := fun hne => by
    by_contra ha
    exact hne ((run_balanced hr).resting ha)
  cases hpc : s.pc (.inl ()) <;> rw [hpc] at hplace htold hown hfree hawake <;> (try cases hplace; done)
  case sendLoop => exact alone_sendLoop_drained _ hpc (hfree nofun) (hawake nofun) hsending hqueue
  case sendLoopLock =>
    refine .lock (hawake nofun) (by rw [hpc]; rfl) (hfree nofun) ?_
    exact alone_sendLoopTest_drained _ (by simp) (by simp) (hawake nofun) hsending hqueue
  case sendLoopTest => exact alone_sendLoopTest_drained _ hpc (hown rfl) (hawake nofun) hsending hqueue
  case sendLoopWait =>
    have hempty := (hg.held (.inl ()) (by rw [hpc]; rfl)).2
    rw [hpc] at hempty
    have hempty : s.data.sendQueue = [] := hempty
    rw [hempty]
    exact .done ⟨by rw [hpc]; rfl, hempty⟩
  case sendLoopWoken =>
    by_cases hq : s.data.sendQueue = []
    · rw [hq]
      exact .done ⟨by rw [hpc]; rfl, hq⟩
    · have ha := run_awake hr ⟨hq, hsending⟩ hothers
      refine .lock ha (by rw [hpc]; rfl) (hfree nofun) ?_
      refine .act ha (by rw [State.goto_self]; rfl) rfl ?_
      exact alone_sendLoopTest_drained _ (by simp [hsending]) (by simp) ha hsending hqueue
  case sendLoopCheck =>
    refine .act (hawake nofun) (by rw [hpc]; rfl) rfl ?_
    exact alone_sendLoopTest_drained _ (by simp [hsending]) (hown rfl) (hawake nofun) hsending hqueue
  case sendLoopReturn | finished => cases hsending.symm.trans (htold rfl)
  case sendLoopRelease x =>
    refine .unlock (hawake nofun) (by rw [hpc]; rfl) (hown rfl) ?_
    refine .act (hawake nofun) (by rw [State.goto_self]; rfl) rfl ?_
    exact alone_sendLoop_drained _ (by simp) (by simp) (hawake nofun) hsending hqueue
  case sendLoopProcess x =>
    refine .act (hawake nofun) (by rw [hpc]; rfl) rfl ?_
    exact alone_sendLoop_drained _ (by simp) (hfree nofun) (hawake nofun) hsending hqueue

theorem sendLoop_drains_session : ∃ h : (after session).isSome,
    Alone (code fun _ _ => true) (.inl ()) Drained ((after session).get h).2 [.processed 7, .processed 8] :=
  ⟨rfl, sendLoop_drains (run_get rfl) rfl (fun _ => Bool.false_ne_true)⟩

def race : List (Move (Unit ⊕ Unit) (Point α)) :=
  List.replicate 3 (.run (.inl ())) ++ .pick (.inr ()) .destroy :: List.replicate 2 (.run (.inr ())) ++ [.run (.inl ())]

/-- The destructor may wait for ever: its notification comes between the test of the queue and the wait, so that
nothing but a spurious awakening can make anyone move. -/
theorem destructor_strands : ∃ s : State (Unit ⊕ Unit) Unit Empty Unit (Shared α) (Point α),
    Reaches (code fun _ _ => true) start s ∧ s.pc (.inr ()) = .destroyJoin ∧ s.asleep (.inl ()) = some () ∧
      ∀ m, m ≠ .rouse (.inl ()) → step (code fun _ _ => true) s m = none := by
  have hr : (Transition.run? (step (code fun _ _ => true))
      (start : State (Unit ⊕ Unit) Unit Empty Unit (Shared α) (Point α)) race).isSome := rfl
  refine ⟨_, .of_isSome hr, rfl, rfl, fun m hm => ?_⟩
  cases m with
  | run t => rcases t with ⟨⟩ | ⟨⟩ <;> rfl
  | pick t q => rcases t with ⟨⟩ | ⟨⟩ <;> rfl
  | wake t u => rcases t with ⟨⟩ | ⟨⟩ <;> rfl
  | rouse u =>
    rcases u with ⟨⟩ | ⟨⟩
    · exact absurd rfl hm
    · rfl

end Sfup.Core.SendLoop
