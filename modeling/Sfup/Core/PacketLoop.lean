import Sfup.Core.NiceConnection
import Sfup.Lib.Monitor

/-! The threads around a `NiceConnection`: the main loop of libnice puts packets into the queue,
`DtlsTransport::getNiceDataLoop` takes them out, and `DtlsTransport::close` ends both. -/
namespace Sfup.Core.PacketLoop
open Monitor

/-- `getNice_Thread_`, `m_Thread_` and the thread that owns the transport. -/
inductive Thread where
  | getNice
  | mainLoop
  | owner
deriving DecidableEq

instance : Fintype Thread := ⟨{.getNice, .mainLoop, .owner}, fun t => by cases t <;> decide⟩

/-- `quit` is whether `is_running` of the main loop is false, `loop` whether `loop_` is not null, and `listener` whether
there is a listener. -/
structure Shared (α : Type*) where
  iceState : IceState := .initial
  niceQueue : List α := []
  running : Bool := true
  listener : Bool := true
  quit : Bool := true
  loop : Bool := true

inductive Op (α : Type*) where
  | accepted (p : α)
  | dropped (p : α)
  | received (p : α)

/-- The places in the member functions. -/
inductive Point (α : Type*) where
  | getNiceDataLoop
  | getPacket
  | getPacketTest
  | getPacketUnlock
  | getPacketWait
  | getPacketCheck
  | getPacketRelease (p : α)
  | onNiceData (p : α)
  /-- `getPacket` returns a packet of length -1 and takes its lock once more to do so. -/
  | getPacketRelock
  | getPacketReturn
  | closing
  | finished
  | mainLoopStart
  /-- `g_main_loop_run` has been called and has not set `is_running` yet. -/
  | mainLoopRun
  | mainLoop
  | callback
  | queueData (p : α)
  | queueDataLock (p : α)
  | queueDataPush (p : α)
  | queueDataSet
  | queueDataUnlock
  | updateIceState (state : IceState)
  | updateIceStateSet (state : IceState)
  | updateIceStateListener (state : IceState)
  | mainLoopEnd
  | idle
  | close
  | closeListener
  | closeCheck
  | closeUpdate
  | closeUpdateSet
  | closeQuit
  | closeUnref
  | closeSet
  | closeJoin
  | closeJoinLoop
  | closed

variable {α : Type*}

def Point.thread : Point α → Thread
  | .getNiceDataLoop | .getPacket | .getPacketTest | .getPacketUnlock | .getPacketWait | .getPacketCheck
  | .getPacketRelease _ | .onNiceData _ | .getPacketRelock | .getPacketReturn | .closing | .finished => .getNice
  | .mainLoopStart | .mainLoopRun | .mainLoop | .callback | .queueData _ | .queueDataLock _ | .queueDataPush _
  | .queueDataSet | .queueDataUnlock | .updateIceState _ | .updateIceStateSet _ | .updateIceStateListener _
  | .mainLoopEnd => .mainLoop
  | .idle | .close | .closeListener | .closeCheck | .closeUpdate | .closeUpdateSet | .closeQuit | .closeUnref
  | .closeSet | .closeJoin | .closeJoinLoop | .closed => .owner

/-- What libnice calls back with, through `cb_nice_recv`, `gatheringDone` and `updateComponentState`. -/
def Point.isCallback : Point α → Bool
  | .queueData _ | .updateIceState .candidatesReceived | .updateIceState .ready | .updateIceState .failed => true
  | _ => false

section
variable (calls : Point α → Bool) (fails : α → Bool)

/-- The threads. A packet with `fails` makes the handshake fail. The locks that only one of these threads takes are
left out, and so is that `close` frees the loop if `g_main_loop_run` has not taken its reference by then. -/
def code (_ : Thread) : Point α → Action Thread Unit Unit Empty (Shared α) (Point α) (Op α)
  | .getNiceDataLoop => .act fun d => (if d.running then .getPacket else .finished, d, none)
  | .getPacket => .lock () .getPacketTest
  | .getPacketTest => .act fun d =>
    match d.niceQueue with
    | [] => (.getPacketUnlock, d, none)
    | p :: q => (.getPacketRelease p, { d with niceQueue := q }, none)
  | .getPacketUnlock => .unlock () .getPacketWait
  | .getPacketWait => .wait () .getPacketCheck
  | .getPacketCheck => .act fun d =>
    (if IceState.finished.toNat ≤ d.iceState.toNat then .getPacketRelock else .getPacket, d, none)
  | .getPacketRelease p => .unlock () (.onNiceData p)
  | .onNiceData p => .act fun d =>
    (.getNiceDataLoop, { d with running := d.running && !fails p }, some (.received p))
  | .getPacketRelock => .lock () .getPacketReturn
  | .getPacketReturn => .unlock () .closing
  | .closing => .act fun d => (.finished, { d with running := false }, none)
  | .finished => .stop
  | .mainLoopStart => .act fun d => (if d.loop then .mainLoopRun else .mainLoopEnd, d, none)
  | .mainLoopRun => .act fun d => (.mainLoop, { d with quit := false }, none)
  | .mainLoop => .act fun d => (if d.quit then .mainLoopEnd else .callback, d, none)
  | .callback => .choose fun
    | .mainLoop => true
    | q => q.isCallback && calls q
  | .queueData p => .act fun d => (if d.iceState = .ready then .queueDataLock p else .mainLoop, d, none)
  | .queueDataLock p => .lock () (.queueDataPush p)
  | .queueDataPush p => .act fun d =>
    if d.niceQueue.length < 1000 then
      (.queueDataSet, { d with niceQueue := d.niceQueue ++ [p] }, some (.accepted p))
    else (.queueDataUnlock, d, some (.dropped p))
  | .queueDataSet => .set () .queueDataUnlock
  | .queueDataUnlock => .unlock () .mainLoop
  | .updateIceState state => .act fun d =>
    (if state.toNat ≤ d.iceState.toNat then .mainLoop else .updateIceStateSet state, d, none)
  | .updateIceStateSet state => .act fun d => (.updateIceStateListener state, { d with iceState := state }, none)
  | .updateIceStateListener state => .act fun d =>
    (.mainLoop, { d with running := d.running && !(d.listener && state = .failed) }, none)
  | .mainLoopEnd => .stop
  | .idle => .choose fun
    | .close => true
    | _ => false
  | .close => .act fun d => (.closeListener, { d with running := false }, none)
  | .closeListener => .act fun d => (.closeCheck, { d with listener := false }, none)
  | .closeCheck => .act fun d => (if d.iceState = .finished then .closeJoinLoop else .closeUpdate, d, none)
  | .closeUpdate => .act fun d =>
    (if IceState.finished.toNat ≤ d.iceState.toNat then .closeQuit else .closeUpdateSet, d, none)
  | .closeUpdateSet => .act fun d => (.closeQuit, { d with iceState := .finished }, none)
  | .closeQuit => .act fun d => (.closeUnref, { d with quit := true }, none)
  | .closeUnref => .act fun d => (.closeSet, { d with loop := false }, none)
  | .closeSet => .set () .closeJoin
  | .closeJoin => .join .mainLoop .closeJoinLoop
  | .closeJoinLoop => .join .getNice .closed
  | .closed => .stop

end

/-- The transport has been started. -/
def start : State Thread Unit Unit Empty (Shared α) (Point α) where
  data := {}
  owner := fun _ => none
  flag := fun _ => false
  asleep := fun _ => none
  pc
    | .getNice => .getNiceDataLoop
    | .mainLoop => .mainLoopStart
    | .owner => .idle

/-- The points at which `queueMutex_` is held. -/
def holds : Point α → Bool
  | .getPacketTest | .getPacketUnlock | .getPacketRelease _ | .getPacketReturn | .queueDataPush _ | .queueDataSet
  | .queueDataUnlock => true
  | _ => false

def Knows : Point α → Shared α → Prop
  | .getPacketUnlock, d => d.niceQueue = []
  | _, _ => True

def Op.accepted? : Op α → Option α
  | .accepted p => some p
  | _ => none

def Op.received? : Op α → Option α
  | .received p => some p
  | _ => none

/-- The packet that has been taken out and not been handed on yet. -/
def inHand : Point α → List α
  | .getPacketRelease p | .onNiceData p => [p]
  | _ => []

/-- Where a point leads to when it leads to one place only and leaves the data as they are. -/
def Point.next : Point α → Option (Point α)
  | .getPacket => some .getPacketTest
  | .getPacketUnlock => some .getPacketWait
  | .getPacketWait => some .getPacketCheck
  | .getPacketRelease p => some (.onNiceData p)
  | .getPacketRelock => some .getPacketReturn
  | .getPacketReturn => some .closing
  | .queueDataLock p => some (.queueDataPush p)
  | .queueDataSet => some .queueDataUnlock
  | .queueDataUnlock => some .mainLoop
  | .closeSet => some .closeJoin
  | .closeJoin => some .closeJoinLoop
  | .closeJoinLoop => some .closed
  | _ => none

/-- What a step can do, branch by branch. -/
inductive Goes (calls : Point α → Bool) (fails : α → Bool) :
    Point α → Shared α → Point α → Shared α → Option (Op α) → Prop
  | next {p q : Point α} (d : Shared α) (h : p.next = some q) : Goes calls fails p d q d none
  | runs {d : Shared α} (h : d.running) : Goes calls fails .getNiceDataLoop d .getPacket d none
  | ends {d : Shared α} (h : ¬ d.running) : Goes calls fails .getNiceDataLoop d .finished d none
  | lacking {d : Shared α} (h : d.niceQueue = []) : Goes calls fails .getPacketTest d .getPacketUnlock d none
  | taken {d : Shared α} {x : α} {xs : List α} (h : d.niceQueue = x :: xs) :
      Goes calls fails .getPacketTest d (.getPacketRelease x) { d with niceQueue := xs } none
  | ended {d : Shared α} (h : IceState.finished.toNat ≤ d.iceState.toNat) :
      Goes calls fails .getPacketCheck d .getPacketRelock d none
  | again {d : Shared α} (h : ¬ IceState.finished.toNat ≤ d.iceState.toNat) :
      Goes calls fails .getPacketCheck d .getPacket d none
  | received (d : Shared α) (x : α) : Goes calls fails (.onNiceData x) d .getNiceDataLoop
      { d with running := d.running && !fails x } (some (.received x))
  | closing (d : Shared α) : Goes calls fails .closing d .finished { d with running := false } none
  | starts {d : Shared α} (h : d.loop) : Goes calls fails .mainLoopStart d .mainLoopRun d none
  | loopless {d : Shared α} (h : ¬ d.loop) : Goes calls fails .mainLoopStart d .mainLoopEnd d none
  | enters (d : Shared α) : Goes calls fails .mainLoopRun d .mainLoop { d with quit := false } none
  | quits {d : Shared α} (h : d.quit) : Goes calls fails .mainLoop d .mainLoopEnd d none
  | turns {d : Shared α} (h : ¬ d.quit) : Goes calls fails .mainLoop d .callback d none
  | rests (d : Shared α) : Goes calls fails .callback d .mainLoop d none
  | calls {q : Point α} (d : Shared α) (h : q.isCallback) (hq : calls q) : Goes calls fails .callback d q d none
  | ready {d : Shared α} (x : α) (h : d.iceState = .ready) :
      Goes calls fails (.queueData x) d (.queueDataLock x) d none
  | ignored {d : Shared α} (x : α) (h : d.iceState ≠ .ready) : Goes calls fails (.queueData x) d .mainLoop d none
  | accepted {d : Shared α} (x : α) (h : d.niceQueue.length < 1000) : Goes calls fails (.queueDataPush x) d .queueDataSet
      { d with niceQueue := d.niceQueue ++ [x] } (some (.accepted x))
  | dropped {d : Shared α} (x : α) (h : ¬ d.niceQueue.length < 1000) :
      Goes calls fails (.queueDataPush x) d .queueDataUnlock d (some (.dropped x))
  | lower {d : Shared α} {state : IceState} (h : state.toNat ≤ d.iceState.toNat) :
      Goes calls fails (.updateIceState state) d .mainLoop d none
  | higher {d : Shared α} {state : IceState} (h : ¬ state.toNat ≤ d.iceState.toNat) :
      Goes calls fails (.updateIceState state) d (.updateIceStateSet state) d none
  | updated (d : Shared α) (state : IceState) : Goes calls fails (.updateIceStateSet state) d
      (.updateIceStateListener state) { d with iceState := state } none
  | told (d : Shared α) (state : IceState) : Goes calls fails (.updateIceStateListener state) d .mainLoop
      { d with running := d.running && !(d.listener && state = .failed) } none
  | close (d : Shared α) : Goes calls fails .idle d .close d none
  | stops (d : Shared α) : Goes calls fails .close d .closeListener { d with running := false } none
  | unlistens (d : Shared α) : Goes calls fails .closeListener d .closeCheck { d with listener := false } none
  | already {d : Shared α} (h : d.iceState = .finished) : Goes calls fails .closeCheck d .closeJoinLoop d none
  | goesOn {d : Shared α} (h : d.iceState ≠ .finished) : Goes calls fails .closeCheck d .closeUpdate d none
  | failed {d : Shared α} (h : IceState.finished.toNat ≤ d.iceState.toNat) :
      Goes calls fails .closeUpdate d .closeQuit d none
  | unfinished {d : Shared α} (h : ¬ IceState.finished.toNat ≤ d.iceState.toNat) :
      Goes calls fails .closeUpdate d .closeUpdateSet d none
  | finishes (d : Shared α) : Goes calls fails .closeUpdateSet d .closeQuit { d with iceState := .finished } none
  | quit (d : Shared α) : Goes calls fails .closeQuit d .closeUnref { d with quit := true } none
  | unrefs (d : Shared α) : Goes calls fails .closeUnref d .closeSet { d with loop := false } none

variable {calls : Point α → Bool} {fails : α → Bool} {t : Thread} {p q : Point α} {d d' : Shared α}
  {r : Option (Op α)}

theorem Goes.of_leads (hl : (code calls fails t p).Leads d q d' r) : Goes calls fails p d q d' r := by
  cases p with
  | finished | mainLoopEnd | closed => cases hl
  | callback =>
    obtain ⟨hok, rfl, rfl⟩ := hl
    cases q with
    | mainLoop => exact .rests d'
    | _ => exact .calls d' (Bool.and_eq_true_iff.mp hok).1 (Bool.and_eq_true_iff.mp hok).2
  | idle =>
    obtain ⟨hok, rfl, rfl⟩ := hl
    cases q <;> first | cases hok; done | exact .close d'
  | getNiceDataLoop =>
    obtain ⟨rfl, rfl, rfl⟩ := hl
    dsimp only
    split_ifs with h
    · exact .runs h
    · exact .ends h
  | getPacketTest =>
    simp only [code, Action.Leads] at hl
    split at hl
    · obtain ⟨rfl, rfl, rfl⟩ := hl
      exact .lacking ‹_›
    · obtain ⟨rfl, rfl, rfl⟩ := hl
      exact .taken ‹_›
  | getPacketCheck =>
    obtain ⟨rfl, rfl, rfl⟩ := hl
    dsimp only
    split_ifs with h
    · exact .ended h
    · exact .again h
  | onNiceData x =>
    obtain ⟨rfl, rfl, rfl⟩ := hl
    exact .received d x
  | closing =>
    obtain ⟨rfl, rfl, rfl⟩ := hl
    exact .closing d
  | mainLoopStart =>
    obtain ⟨rfl, rfl, rfl⟩ := hl
    dsimp only
    split_ifs with h
    · exact .starts h
    · exact .loopless h
  | mainLoopRun =>
    obtain ⟨rfl, rfl, rfl⟩ := hl
    exact .enters d
  | mainLoop =>
    obtain ⟨rfl, rfl, rfl⟩ := hl
    dsimp only
    split_ifs with h
    · exact .quits h
    · exact .turns h
  | queueData x =>
    obtain ⟨rfl, rfl, rfl⟩ := hl
    dsimp only
    split_ifs with h
    · exact .ready x h
    · exact .ignored x h
  | queueDataPush x =>
    simp only [code, Action.Leads] at hl
    split_ifs at hl with h
    · obtain ⟨rfl, rfl, rfl⟩ := hl
      exact .accepted x h
    · obtain ⟨rfl, rfl, rfl⟩ := hl
      exact .dropped x h
  | updateIceState state =>
    obtain ⟨rfl, rfl, rfl⟩ := hl
    dsimp only
    split_ifs with h
    · exact .lower h
    · exact .higher h
  | updateIceStateSet state =>
    obtain ⟨rfl, rfl, rfl⟩ := hl
    exact .updated d state
  | updateIceStateListener state =>
    obtain ⟨rfl, rfl, rfl⟩ := hl
    exact .told d state
  | close =>
    obtain ⟨rfl, rfl, rfl⟩ := hl
    exact .stops d
  | closeListener =>
    obtain ⟨rfl, rfl, rfl⟩ := hl
    exact .unlistens d
  | closeCheck =>
    obtain ⟨rfl, rfl, rfl⟩ := hl
    dsimp only
    split_ifs with h
    · exact .already h
    · exact .goesOn h
  | closeUpdate =>
    obtain ⟨rfl, rfl, rfl⟩ := hl
    dsimp only
    split_ifs with h
    · exact .failed h
    · exact .unfinished h
  | closeUpdateSet =>
    obtain ⟨rfl, rfl, rfl⟩ := hl
    exact .finishes d
  | closeQuit =>
    obtain ⟨rfl, rfl, rfl⟩ := hl
    exact .quit d
  | closeUnref =>
    obtain ⟨rfl, rfl, rfl⟩ := hl
    exact .unrefs d
  | _ =>
    obtain ⟨rfl, rfl, rfl⟩ := hl
    exact .next d' rfl

theorem Goes.thread_eq (hg : Goes calls fails p d q d' r) : q.thread = p.thread := by
  cases hg with
  | next _ h => cases p <;> cases h <;> rfl
  | calls _ h => cases q <;> first | cases h; done | rfl
  | _ => rfl

def Place (t : Thread) (p : Point α) : Prop := p.thread = t

theorem thread_of_leads (hl : (code calls fails t p).Leads d q d' r) (hp : Place t p) : Place t q :=
  (Goes.of_leads hl).thread_eq.trans hp

theorem thread_init (t : Thread) : Place t ((start : State Thread Unit Unit Empty (Shared α) (Point α)).pc t) := by
  cases t <;> rfl

/-! ## Packets -/

theorem inHand_eq_nil (hp : p.thread ≠ .getNice) : inHand p = [] := by
  cases p <;> first | rfl | exact absurd rfl hp

/-- What a step does to the packets. -/
theorem Goes.packets (hg : Goes calls fails p d q d' r) :
    r.toList.filterMap Op.received? ++ inHand q ++ d'.niceQueue =
      inHand p ++ (d.niceQueue ++ r.toList.filterMap Op.accepted?) ∧
    (p.thread ≠ .getNice → r.toList.filterMap Op.received? = []) ∧
    (d.niceQueue.length ≤ 1000 → d'.niceQueue.length ≤ 1000) := by
  cases hg with
  | next _ h => cases p <;> cases h <;> simp [inHand]
  | calls _ h => cases q <;> first | cases h; done | simp [inHand]
  | taken h =>
    refine ⟨by simp [inHand, h], fun _ => rfl, fun hl => ?_⟩
    rw [h] at hl
    exact (Nat.le_succ _).trans hl
  | received => exact ⟨by simp [inHand, Op.received?, Op.accepted?], fun h => absurd rfl h, id⟩
  | accepted x h =>
    refine ⟨by simp [inHand, Op.received?, Op.accepted?], fun _ => rfl, fun _ => ?_⟩
    rw [List.length_append]
    exact h
  | dropped => exact ⟨by simp [inHand, List.filterMap_cons, Op.received?, Op.accepted?], fun _ => rfl, id⟩
  | _ => exact ⟨by simp [inHand], fun _ => rfl, id⟩

theorem not_holds_owner (hp : Place .owner p) : ¬ holds p := by
  cases p <;> first | cases hp; done | exact Bool.false_ne_true

theorem Goes.guards (hg : Goes calls fails p d q d' r) (hn : p.next = none) (hc : p ≠ .callback) (hi : p ≠ .idle) :
    holds q = holds p ∧ if holds p then ∀ _ : List (Op α), Knows p d → Knows q d'
      else ∀ _ : List (Op α), (True → True) ∧ ∀ q, holds q → Knows q d → Knows q d' := by
  cases hg with
  | next _ h => cases hn.symm.trans h
  | calls | rests => exact absurd rfl hc
  | close => exact absurd rfl hi
  | lacking h => exact ⟨rfl, fun _ _ => h⟩
  | taken | accepted | dropped => exact ⟨rfl, fun _ _ => trivial⟩
  | _ => exact ⟨rfl, fun _ => ⟨id, fun q _ hk => by cases q <;> exact hk⟩⟩

theorem guards (t : Thread) (p : Point α) :
    Guards () holds (fun _ _ => True) (fun p (_ : List (Op α)) => Knows p) p (code calls fails t p) := by
  cases p with
  | finished | mainLoopEnd | closed => trivial
  | callback | idle =>
    intro q hq
    cases q <;> first | cases hq; done | exact ⟨rfl, nofun⟩
  | getPacket | getPacketRelock | queueDataLock => exact ⟨nofun, rfl, fun _ _ _ => trivial⟩
  | getPacketUnlock | getPacketRelease | getPacketReturn | queueDataUnlock => exact ⟨rfl, nofun, fun _ _ _ => trivial⟩
  | getPacketWait | closeSet | closeJoin | closeJoinLoop => exact ⟨rfl, nofun⟩
  | queueDataSet => exact ⟨rfl, fun _ _ _ _ => trivial⟩
  | _ => exact Guards.of_leads ⟨_, rfl⟩ fun d q d' r hl => (Goes.of_leads hl).guards rfl nofun nofun

/-- The thread that waits for packets in `getPacket`, or is going to. -/
def Waits (p : Point α) : Prop := p = .getPacketUnlock ∨ p = .getPacketWait

theorem signals : Signals (code calls fails) .getNice () Place Waits
    (· = .queueDataSet) (fun d => d.niceQueue ≠ []) where
  stays := thread_of_leads
  waits {t p q} hw hp := by
    cases p <;> cases hw
    exact ⟨hp.symm, by simp [Waits]⟩
  enters {p d q d' r} hl hp hq := by
    cases Goes.of_leads hl with
    | next _ h => cases p <;> cases h <;> simp_all [Waits]
    | lacking h => exact fun hne => hne h
    | calls _ h => rcases hq with rfl | rfl <;> cases h
    | _ => rcases hq with hq | hq <;> cases hq
  raises {t p d q d' r} hl hp hd hd' := by
    cases Goes.of_leads hl with
    | accepted => rfl
    | taken h => exact absurd (by simp [h]) hd
    | _ => exact absurd hd' hd
  pending {t p d q d' r} hl hp := by
    subst hp
    obtain ⟨rfl, -⟩ := hl
    exact .inr rfl

variable {ms : List (Move Thread (Point α))} {rs : List (Option (Op α))} {h : List (Op α)}
  {s s' : State Thread Unit Unit Empty (Shared α) (Point α)}

/-- Each packet that was accepted has been handed on, is going to be or is still in the queue, in this order. -/
structure Balanced (h : List (Op α)) (s : State Thread Unit Unit Empty (Shared α) (Point α)) : Prop where
  thread : ∀ t, Place t (s.pc t)
  packets : h.filterMap Op.accepted? = h.filterMap Op.received? ++ inHand (s.pc .getNice) ++ s.data.niceQueue
  length : s.data.niceQueue.length ≤ 1000

theorem balanced_start : Balanced [] (start : State Thread Unit Unit Empty (Shared α) (Point α)) :=
  ⟨thread_init, rfl, Nat.zero_le _⟩

theorem Balanced.step (hi : Balanced h s) (hs : Step (code calls fails) s r s') : Balanced (h ++ r.toList) s' := by
  have hthread : ∀ t, Place t (s'.pc t) := hs.place thread_of_leads hi.thread
  rcases hs.moved with ⟨t, q, hm⟩ | ⟨rfl, hd, hpc, -⟩
  · have hg := Goes.of_leads hm.leads
    obtain ⟨hpackets, hreceived, hlength⟩ := hg.packets
    refine ⟨hthread, ?_, hlength hi.length⟩
    rw [List.filterMap_append, List.filterMap_append, hi.packets]
    by_cases ht : t = .getNice
    · subst ht
      rw [hm.self]
      simp only [List.append_assoc] at hpackets ⊢
      rw [hpackets]
    · have hp : (s.pc t).thread ≠ .getNice := fun hp => ht ((hi.thread t).symm.trans hp)
      rw [hreceived hp, inHand_eq_nil hp, inHand_eq_nil (hg.thread_eq ▸ hp)] at hpackets
      rw [hreceived hp, hm.other (Ne.symm ht)]
      simp only [List.append_assoc, List.append_nil, List.nil_append] at hpackets ⊢
      rw [hpackets]
  · refine ⟨hthread, ?_, hd ▸ hi.length⟩
    rw [hpc, hd]
    simpa using hi.packets

theorem run_balanced (hr : Transition.run? (step (code calls fails)) start ms = some (rs, s)) :
    Balanced rs.reduceOption s :=
  run_invariant (fun _ _ _ _ => Balanced.step) balanced_start hr

theorem run_guarded (hr : Transition.run? (step (code calls fails)) start ms = some (rs, s)) :
    Guarded () holds (fun _ _ => True) (fun p (_ : List (Op α)) => Knows p) rs.reduceOption s := by
  refine run_invariant (fun _ _ _ _ hi hs => Guarded.step guards hi hs) (h := []) ⟨fun t => ?_, fun _ => trivial, ?_⟩ hr
  · cases t <;> exact ⟨nofun, nofun⟩
  · rintro (_ | _) <;> exact nofun

theorem run_watched (hr : Transition.run? (step (code calls fails)) start ms = some (rs, s)) :
    Watched .getNice () Place Waits (· = .queueDataSet)
      (fun d => d.niceQueue ≠ []) s := by
  refine run_invariant (I := fun (_ : List (Op α)) s => Watched .getNice () Place Waits
    (· = .queueDataSet) (fun d => d.niceQueue ≠ []) s)
    (fun _ _ _ _ hi hs => signals.step hi hs) (h := []) ⟨thread_init, ?_⟩ hr
  exact fun hw => by rcases hw with hw | hw <;> cases hw

theorem run_free (hr : Transition.run? (step (code calls fails)) start ms = some (rs, s))
    (hmain : ¬ holds (s.pc .mainLoop)) (hnice : ¬ holds (s.pc .getNice)) : s.owner () = none :=
  (run_guarded hr).owner_eq_none fun t => by
    cases t with
    | getNice => exact hnice
    | mainLoop => exact hmain
    | owner => exact not_holds_owner ((run_balanced hr).thread .owner)

/-- A loop that waits although there is a packet is awake once the main loop has left the queue. -/
theorem run_flag (hr : Transition.run? (step (code calls fails)) start ms = some (rs, s))
    (hmain : ¬ holds (s.pc .mainLoop)) (hpc : s.pc .getNice = .getPacketWait) (hq : s.data.niceQueue ≠ []) :
    s.flag () = true := by
  refine (run_watched hr).flag (.inr hpc) hq (fun h => nomatch hpc.symm.trans h) fun u hu hset => ?_
  have hset : s.pc u = .queueDataSet := hset
  obtain rfl : Thread.mainLoop = u := by
    have hplace : (s.pc u).thread = u := (run_balanced hr).thread u
    rwa [hset] at hplace
  exact hmain (by rw [hset]; rfl)

/-- The connection gets ready, and the loop takes the first of two packets. -/
def session : List (Move Thread (Point ℕ)) :=
  List.replicate 3 (.run .mainLoop) ++ .pick .mainLoop (.updateIceState .ready) :: List.replicate 4 (.run .mainLoop) ++
    .pick .mainLoop (.queueData 7) :: List.replicate 5 (.run .mainLoop) ++ List.replicate 4 (.run .getNice) ++
    .run .mainLoop :: .pick .mainLoop (.queueData 8) :: List.replicate 5 (.run .mainLoop)

/-- `close` comes to wait for the loop. -/
def closing : List (Move Thread (Point ℕ)) :=
  .pick .owner .close :: List.replicate 8 (.run .owner) ++ [.run .mainLoop, .run .owner]

def after (ms : List (Move Thread (Point ℕ))) :
    Option (List (Option (Op ℕ)) × State Thread Unit Unit Empty (Shared ℕ) (Point ℕ)) :=
  Transition.run? (step (code (fun _ => true) fun _ => false)) start ms

/-- Packets are handed on in the order in which they were accepted, each of them at most once, and no more than 1000
are waiting. -/
theorem packets_in_order (hr : Transition.run? (step (code calls fails)) start ms = some (rs, s)) :
    rs.reduceOption.filterMap Op.accepted? =
      rs.reduceOption.filterMap Op.received? ++ inHand (s.pc .getNice) ++ s.data.niceQueue ∧
    s.data.niceQueue.length ≤ 1000 :=
  ⟨(run_balanced hr).packets, (run_balanced hr).length⟩

theorem packets_in_order_session : ∃ h : (after session).isSome,
    ((after session).get h).1.reduceOption.filterMap Op.accepted? =
      ((after session).get h).1.reduceOption.filterMap Op.received? ++
        inHand (((after session).get h).2.pc .getNice) ++ ((after session).get h).2.data.niceQueue ∧
    ((after session).get h).2.data.niceQueue.length ≤ 1000 :=
  ⟨rfl, packets_in_order (run_get rfl)⟩

/-! ## What `getNiceDataLoop` does when it moves alone -/

def Drained (s : State Thread Unit Unit Empty (Shared α) (Point α)) : Prop :=
  inHand (s.pc .getNice) = [] ∧ s.data.niceQueue = []

theorem alone_getPacketTest {x : α} (xs : List α) (hpc : s.pc .getNice = .getPacketTest)
    (ho : s.owner () = some .getNice) (hq : s.data.niceQueue = x :: xs)
    {Q : State Thread Unit Unit Empty (Shared α) (Point α) → Prop}
    (hn : ∀ s' : State Thread Unit Unit Empty (Shared α) (Point α), s'.pc .getNice = .getNiceDataLoop →
      s'.owner () = none → s'.data = { s.data with niceQueue := xs, running := s.data.running && !fails x } →
      Alone (code calls fails) .getNice Q s' h) :
    Alone (code calls fails) .getNice Q s (.received x :: h) := by
  refine .act (h := .received x :: h) (s.awake _) (by rw [hpc]; rfl) (by rw [hq]; rfl) ?_
  rw [hq]
  refine .unlock (State.awake _ _) (by rw [State.goto_self]; rfl) ho ?_
  refine .act (h := h) (State.awake _ _) (by rw [State.goto_self]; rfl) rfl ?_
  exact hn _ (by simp) (by simp) rfl

/-- As long as the loop runs, it hands on all that is in the queue. -/
theorem alone_getPacket_drained (xs : List α) (hpc : s.pc .getNice = .getPacket) (ho : s.owner () = none)
    (hrun : s.data.running = true) (hq : s.data.niceQueue = xs) (hf : ∀ x ∈ xs, fails x = false) :
    Alone (code calls fails) .getNice Drained s (xs.map .received) := by
  induction xs generalizing s with
  | nil => exact .done ⟨by rw [hpc]; rfl, hq⟩
  | cons x xs ih =>
    have hfx := hf x List.mem_cons_self
    refine .lock (s.awake _) (by rw [hpc]; rfl) ho ?_
    refine alone_getPacketTest xs ?_ ?_ ?_ fun s' hpc' ho' hd' => ?_
    · simp
    · simp
    · exact hq
    · refine .act (s'.awake _) (by rw [hpc']; rfl) rfl (ih ?_ ho' ?_ ?_ fun y hy => hf y (List.mem_cons_of_mem _ hy))
      · simp [hd', hrun, hfx]
      · simp [hd', hrun, hfx]
      · simp [hd']

private theorem alone_getNiceDataLoop_drained (xs : List α) (hpc : s.pc .getNice = .getNiceDataLoop)
    (ho : s.owner () = none)
    (hrun : s.data.running = true) (hq : s.data.niceQueue = xs) (hf : ∀ x ∈ xs, fails x = false) :
    Alone (code calls fails) .getNice Drained s (xs.map .received) := by
  refine .act (s.awake _) (by rw [hpc]; rfl) rfl (alone_getPacket_drained xs ?_ ho hrun hq hf)
  simp [hrun]

/-- While the connection is open, the loop hands on the packet it has and all that are in the queue, in order, as soon
as the main loop is not at the queue: it does not oversleep. -/
theorem getNiceDataLoop_drains (hr : Transition.run? (step (code calls fails)) start ms = some (rs, s))
    (hrun : s.data.running = true) (hstate : s.data.iceState.toNat < IceState.finished.toNat)
    (hmain : ¬ holds (s.pc .mainLoop))
    (hf : ∀ x ∈ inHand (s.pc .getNice) ++ s.data.niceQueue, fails x = false)
    (hpill : s.pc .getNice ≠ .getPacketRelock ∧ s.pc .getNice ≠ .getPacketReturn ∧ s.pc .getNice ≠ .closing ∧
      s.pc .getNice ≠ .finished) :
    Alone (code calls fails) .getNice Drained s ((inHand (s.pc .getNice) ++ s.data.niceQueue).map .received) := by
  have hg := run_guarded hr
  have hown : holds (s.pc .getNice) → s.owner () = some .getNice := (hg.owner _).mpr
  have hfree : ¬ holds (s.pc .getNice) → s.owner () = none := run_free hr hmain
  have hknows := hg.held .getNice
  obtain ⟨hne₁, hne₂, hne₃, hne₄⟩ := hpill
  have hplace := (run_balanced hr).thread .getNice
  cases hpc : s.pc .getNice <;> rw [hpc] at hown hfree hknows hf hplace <;> (try cases hplace; done)
  case getPacketRelock => exact absurd hpc hne₁
  case getPacketReturn => exact absurd hpc hne₂
  case closing => exact absurd hpc hne₃
  case finished => exact absurd hpc hne₄
  case getNiceDataLoop => exact alone_getNiceDataLoop_drained _ hpc (hfree nofun) hrun rfl hf
  case getPacket => exact alone_getPacket_drained _ hpc (hfree nofun) hrun rfl hf
  case getPacketTest =>
    cases hq : s.data.niceQueue with
    | nil => exact .done ⟨by rw [hpc]; rfl, hq⟩
    | cons x xs =>
      have hf' : ∀ y ∈ x :: xs, fails y = false := hq ▸ hf
      refine alone_getPacketTest xs hpc (hown rfl) hq fun s' hpc' ho' hd' =>
        alone_getNiceDataLoop_drained _ hpc' ho' ?_ ?_ fun y hy => hf' y (List.mem_cons_of_mem _ hy)
      · simp [hd', hrun, hf' x List.mem_cons_self]
      · simp [hd']
  case getPacketUnlock =>
    have hempty : s.data.niceQueue = [] := hknows rfl
    rw [hempty]
    exact .done ⟨by rw [hpc]; rfl, hempty⟩
  case getPacketWait =>
    cases hq : s.data.niceQueue with
    | nil => exact .done ⟨by rw [hpc]; rfl, hq⟩
    | cons x xs =>
      have hf' : s.flag () = true := run_flag hr hmain hpc (by simp [hq])
      refine .wait (s.awake _) (by rw [hpc]; rfl) hf' ?_
      refine .act (State.awake _ _) (by rw [State.goto_self]; rfl) rfl ?_
      refine alone_getPacket_drained (x :: xs) ?_ ?_ ?_ ?_ (hq ▸ hf)
      · simp [Nat.not_le.mpr hstate]
      · exact hfree nofun
      · exact hrun
      · exact hq
  case getPacketCheck =>
    refine .act (s.awake _) (by rw [hpc]; rfl) rfl (alone_getPacket_drained _ ?_ (hfree nofun) hrun rfl hf)
    simp [Nat.not_le.mpr hstate]
  case getPacketRelease x =>
    refine .unlock (s.awake _) (by rw [hpc]; rfl) (hown rfl) ?_
    refine .act (State.awake _ _) (by rw [State.goto_self]; rfl) rfl ?_
    refine alone_getNiceDataLoop_drained _ (by simp) (by simp) ?_ rfl fun y hy => hf y (List.mem_cons_of_mem _ hy)
    simp [hrun, hf x List.mem_cons_self]
  case onNiceData x =>
    refine .act (s.awake _) (by rw [hpc]; rfl) rfl ?_
    refine alone_getNiceDataLoop_drained _ ?_ ?_ ?_ rfl fun y hy => hf y (List.mem_cons_of_mem _ hy)
    · simp
    · exact hfree nofun
    · simp [hrun, hf x List.mem_cons_self]

theorem getNiceDataLoop_drains_session : ∃ h : (after session).isSome,
    Alone (code (fun _ => true) fun _ => false) .getNice Drained ((after session).get h).2
      [.received 7, .received 8] :=
  ⟨rfl, getNiceDataLoop_drains (run_get rfl) rfl (by decide) Bool.false_ne_true (fun _ _ => rfl)
    ⟨nofun, nofun, nofun, nofun⟩⟩

/-! ## Closing -/

/-- `close` has not come to `updateIceState` yet. -/
def Point.isBefore : Point α → Bool
  | .idle | .close | .closeListener | .closeCheck | .closeUpdate | .closeUpdateSet => true
  | _ => false

/-- `close` has stopped the loop. -/
def Point.isClosing : Point α → Bool
  | .closeListener | .closeCheck | .closeUpdate | .closeUpdateSet | .closeQuit | .closeUnref | .closeSet | .closeJoin
  | .closeJoinLoop | .closed => true
  | _ => false

/-- `close` has told the main loop to quit. -/
def Point.hasQuit : Point α → Bool
  | .closeUnref | .closeSet | .closeJoin | .closeJoinLoop | .closed => true
  | _ => false

/-- `close` has waited for the main loop. -/
def Point.hasJoined : Point α → Bool
  | .closeJoinLoop | .closed => true
  | _ => false

def Point.updates : Point α → Option IceState
  | .updateIceState state | .updateIceStateSet state => some state
  | _ => none

/-- How far `close` has come. -/
structure Closing (s : State Thread Unit Unit Empty (Shared α) (Point α)) : Prop where
  thread : ∀ t, Place t (s.pc t)
  before : (s.pc .owner).isBefore → s.data.iceState ≠ .finished
  updates : (s.pc .mainLoop).updates ≠ some .finished
  closing : (s.pc .owner).isClosing → s.data.running = false
  joined : (s.pc .owner).hasJoined → s.pc .mainLoop = .mainLoopEnd

theorem Goes.running (hg : Goes calls fails p d q d' r) (hd : d.running = false) : d'.running = false := by
  cases hg <;> simp_all

/-- The thread of the main loop has not entered the loop. -/
def Point.isEntering : Point α → Bool
  | .mainLoopStart | .mainLoopRun => true
  | _ => false

theorem Goes.entered (hg : Goes calls fails p d q d' r) (hp : ¬ p.isEntering) : ¬ q.isEntering := by
  cases hg with
  | next _ h => cases p <;> cases h <;> exact Bool.false_ne_true
  | calls _ h => cases q <;> first | (cases h; done) | exact Bool.false_ne_true
  | starts => exact absurd rfl hp
  | _ => exact Bool.false_ne_true

/-- A loop that has been entered is not told to run again. -/
theorem Goes.quitting (hg : Goes calls fails p d q d' r) (hp : ¬ p.isEntering) (hd : d.quit) : d'.quit := by
  cases hg with
  | enters => exact absurd rfl hp
  | _ => simp_all

theorem Goes.iceState_eq (hg : Goes calls fails p d q d' r) :
    d'.iceState = d.iceState ∨ p = .updateIceStateSet d'.iceState ∨ p = .closeUpdateSet ∧ d'.iceState = .finished := by
  cases hg <;> simp

theorem Goes.updates (hg : Goes calls fails p d q d' r) (hp : p.updates ≠ some .finished) :
    q.updates ≠ some .finished := by
  cases hg with
  | next _ h => cases p <;> cases h <;> exact nofun
  | calls _ h =>
    cases q with
    | updateIceState state => cases state <;> first | (cases h; done) | exact nofun
    | _ => first | (cases h; done) | exact nofun
  | higher => exact hp
  | _ => exact nofun

/-- What a step of `close` does. -/
theorem Goes.owner (hg : Goes calls fails p d q d' r) (hp : Place .owner p) :
    (q.isBefore → p.isBefore ∧ d'.iceState = d.iceState) ∧
    (q.isClosing → p.isClosing ∧ d'.running = d.running ∨ d'.running = false) ∧
    (q.hasJoined → p.hasJoined ∨ p = .closeJoin ∨ p = .closeCheck ∧ d.iceState = .finished) := by
  cases hg with
  | next _ h =>
    cases p <;> cases h <;> first | (cases hp; done) | simp [Point.isBefore, Point.isClosing, Point.hasJoined]
  | already h => simp [Point.isBefore, Point.isClosing, Point.hasJoined, h]
  | calls _ h => cases q <;> first | (cases h; done) | cases hp
  | _ => first | (cases hp; done) | simp [Point.isBefore, Point.isClosing, Point.hasJoined]

theorem eq_mainLoopEnd {t : Thread} (hp : Place .mainLoop p) (hs : code calls fails t p = .stop) : p = .mainLoopEnd := by
  cases p <;> first | rfl | cases hp; done | cases hs

theorem Closing.step (hi : Closing s) (hs : Step (code calls fails) s r s') : Closing s' := by
  have hthread : ∀ t, Place t (s'.pc t) := hs.place thread_of_leads hi.thread
  rcases hs.moved with ⟨t, q, hm⟩ | ⟨-, hd, hpc, -⟩
  · have hg := Goes.of_leads hm.leads
    cases t with
    | getNice =>
      have howner := hm.other (u := .owner) nofun
      have hmain := hm.other (u := .mainLoop) nofun
      have hice : s'.data.iceState = s.data.iceState := by
        have hp := hi.thread .getNice
        rcases hg.iceState_eq with h | h | ⟨h, -⟩
        · exact h
        · rw [h] at hp
          cases hp
        · rw [h] at hp
          cases hp
      exact ⟨hthread, by rw [howner, hice]; exact hi.before, by rw [hmain]; exact hi.updates,
        by rw [howner]; exact fun h => hg.running (hi.closing h), by rw [howner, hmain]; exact hi.joined⟩
    | mainLoop =>
      have howner := hm.other (u := .owner) nofun
      refine ⟨hthread, ?_, ?_, by rw [howner]; exact fun h => hg.running (hi.closing h), fun h => ?_⟩
      · rw [howner]
        intro hb
        rcases hg.iceState_eq with h | h | ⟨h, -⟩
        · exact h ▸ hi.before hb
        · have hu := hi.updates
          rw [h] at hu
          exact fun hf => hu (congrArg some hf)
        · have hp := hi.thread .mainLoop
          rw [h] at hp
          cases hp
      · rw [hm.self]
        exact hg.updates hi.updates
      · rw [howner] at h
        have hl := hm.leads
        rw [hi.joined h] at hl
        cases hl
    | owner =>
      have hmain := hm.other (u := .mainLoop) nofun
      obtain ⟨-, hbefore, hupdates, hclosing, hjoined⟩ := id hi
      obtain ⟨h₁, h₂, h₃⟩ := hg.owner (hi.thread .owner)
      refine ⟨hthread, ?_, by rwa [hmain], ?_, ?_⟩
      all_goals rw [hm.self]
      · intro hb
        obtain ⟨hb, hd⟩ := h₁ hb
        exact hd ▸ hbefore hb
      · intro hb
        rcases h₂ hb with ⟨hb, hd⟩ | hd
        · exact hd.trans (hclosing hb)
        · exact hd
      · intro hb
        rw [hmain]
        rcases h₃ hb with hb | hp | ⟨hp, hd⟩
        · exact hjoined hb
        · have hq : q = .closeJoinLoop := by
            have hl := hm.leads
            rw [hp] at hl
            exact hl.1
          exact eq_mainLoopEnd (hi.thread .mainLoop) (hm.join .mainLoop (by rw [hp, hq]; rfl))
        · exact absurd hd (hbefore (by rw [hp]; rfl))
  · exact ⟨hthread, by rw [hpc, hd]; exact hi.before, by rw [hpc]; exact hi.updates, by rw [hpc, hd]; exact hi.closing,
      by rw [hpc]; exact hi.joined⟩

private theorem closing_start : Closing (start : State Thread Unit Unit Empty (Shared α) (Point α)) :=
  ⟨thread_init, fun _ => nofun, nofun, nofun, nofun⟩

theorem run_closing (hr : Transition.run? (step (code calls fails)) start ms = some (rs, s)) : Closing s :=
  run_invariant (I := fun (_ : List (Op α)) s => Closing s) (fun _ _ _ _ => Closing.step) (h := []) closing_start hr

def Finished (s : State Thread Unit Unit Empty (Shared α) (Point α)) : Prop := s.pc .getNice = .finished

theorem alone_getNiceDataLoop_finished (hpc : s.pc .getNice = .getNiceDataLoop) (hrun : s.data.running = false) :
    Alone (code calls fails) .getNice Finished s [] := by
  refine .act (s.awake _) (by rw [hpc]; rfl) rfl (.done ?_)
  simp [Finished, hrun]

theorem alone_closing_finished (hpc : s.pc .getNice = .closing) : Alone (code calls fails) .getNice Finished s [] := by
  refine .act (s.awake _) (by rw [hpc]; rfl) rfl (.done ?_)
  simp [Finished]

theorem alone_getPacketReturn_finished (hpc : s.pc .getNice = .getPacketReturn) (ho : s.owner () = some .getNice) :
    Alone (code calls fails) .getNice Finished s [] :=
  .unlock (s.awake _) (by rw [hpc]; rfl) ho (alone_closing_finished (by simp))

theorem alone_getPacketRelock_finished (hpc : s.pc .getNice = .getPacketRelock) (ho : s.owner () = none) :
    Alone (code calls fails) .getNice Finished s [] :=
  .lock (s.awake _) (by rw [hpc]; rfl) ho (alone_getPacketReturn_finished (State.goto_self ..) (by simp))

theorem alone_getPacketCheck_finished (hpc : s.pc .getNice = .getPacketCheck) (ho : s.owner () = none)
    (hstate : IceState.finished.toNat ≤ s.data.iceState.toNat) :
    Alone (code calls fails) .getNice Finished s [] := by
  refine .act (s.awake _) (by rw [hpc]; rfl) rfl (alone_getPacketRelock_finished ?_ ho)
  simp [hstate]

private theorem alone_getPacketWait_finished (hpc : s.pc .getNice = .getPacketWait) (ho : s.owner () = none)
    (hf : s.flag () = true) (hstate : IceState.finished.toNat ≤ s.data.iceState.toNat) :
    Alone (code calls fails) .getNice Finished s [] :=
  .wait (s.awake _) (by rw [hpc]; rfl) hf (alone_getPacketCheck_finished (State.goto_self ..) ho hstate)

theorem alone_getPacketUnlock_finished (hpc : s.pc .getNice = .getPacketUnlock) (ho : s.owner () = some .getNice)
    (hf : s.flag () = true) (hstate : IceState.finished.toNat ≤ s.data.iceState.toNat) :
    Alone (code calls fails) .getNice Finished s [] := by
  refine .unlock (s.awake _) (by rw [hpc]; rfl) ho (alone_getPacketWait_finished ?_ ?_ hf hstate)
  · simp
  · simp

/-- The loop ends with the next packet, or when it is woken up and finds the connection finished. -/
theorem alone_getPacketTest_finished (hpc : s.pc .getNice = .getPacketTest) (ho : s.owner () = some .getNice)
    (hrun : s.data.running = false)
    (hq : s.data.niceQueue ≠ [] ∨ s.flag () = true ∧ IceState.finished.toNat ≤ s.data.iceState.toNat) :
    ∃ h, Alone (code calls fails) .getNice Finished s h := by
  cases hqueue : s.data.niceQueue with
  | cons x xs =>
    refine ⟨[.received x], alone_getPacketTest xs hpc ho hqueue fun s' hpc' _ hd' => ?_⟩
    exact alone_getNiceDataLoop_finished hpc' (by simp [hd', hrun])
  | nil =>
    obtain ⟨hf, hstate⟩ := hq.resolve_left fun hne => hne hqueue
    refine ⟨[], .act (s.awake _) (by rw [hpc]; rfl) (by simp [hqueue]) (alone_getPacketUnlock_finished ?_ ho hf ?_)⟩
    · simp [hqueue]
    · simpa [hqueue] using hstate

theorem alone_getPacket_finished (hpc : s.pc .getNice = .getPacket) (ho : s.owner () = none)
    (hrun : s.data.running = false)
    (hq : s.data.niceQueue ≠ [] ∨ s.flag () = true ∧ IceState.finished.toNat ≤ s.data.iceState.toNat) :
    ∃ h, Alone (code calls fails) .getNice Finished s h := by
  obtain ⟨h, ha⟩ : ∃ h, Alone (code calls fails) .getNice Finished
      { s.goto .getNice .getPacketTest with owner := Function.update s.owner () (some .getNice) } h :=
    alone_getPacketTest_finished (by simp) (by simp) hrun hq
  exact ⟨h, .lock (s.awake _) (by rw [hpc]; rfl) ho ha⟩

private theorem alone_getPacketCheck (hpc : s.pc .getNice = .getPacketCheck) (ho : s.owner () = none)
    (hrun : s.data.running = false)
    (hq : s.data.niceQueue ≠ [] ∨ IceState.finished.toNat ≤ s.data.iceState.toNat) :
    ∃ h, Alone (code calls fails) .getNice Finished s h := by
  by_cases hstate : IceState.finished.toNat ≤ s.data.iceState.toNat
  · exact ⟨[], alone_getPacketCheck_finished hpc ho hstate⟩
  · obtain ⟨h, ha⟩ : ∃ h, Alone (code calls fails) .getNice Finished (s.goto .getNice .getPacket) h :=
      alone_getPacket_finished (State.goto_self ..) ho hrun (.inl (hq.resolve_right hstate))
    refine ⟨h, .act (s.awake _) (by rw [hpc]; rfl) rfl ?_⟩
    rw [if_neg hstate]
    exact ha

/-- The points of `getPacket` before it has found a packet or has been woken up. -/
def Point.inGetPacket : Point α → Bool
  | .getPacket | .getPacketTest | .getPacketUnlock | .getPacketWait => true
  | _ => false

/-- With nothing in the queue, `getPacket` is not going to be woken up, or is going to wait again because it does not
find the connection finished. -/
def Stuck (s : State Thread Unit Unit Empty (Shared α) (Point α)) : Prop :=
  s.data.niceQueue = [] ∧
    ((s.pc .getNice).inGetPacket ∧ (s.flag () = false ∨ s.data.iceState.toNat < IceState.finished.toNat) ∨
      s.pc .getNice = .getPacketCheck ∧ s.data.iceState.toNat < IceState.finished.toNat)

/-- Once it has been stopped, the loop ends, unless it is stuck. -/
theorem getNiceDataLoop_ends (hr : Transition.run? (step (code calls fails)) start ms = some (rs, s))
    (hrun : s.data.running = false) (hmain : ¬ holds (s.pc .mainLoop)) (hs : ¬ Stuck s) :
    ∃ h, Alone (code calls fails) .getNice Finished s h := by
  have hg := run_guarded hr
  have hown : holds (s.pc .getNice) → s.owner () = some .getNice := (hg.owner _).mpr
  have hfree : ¬ holds (s.pc .getNice) → s.owner () = none := run_free hr hmain
  have hplace := (run_balanced hr).thread .getNice
  have hwoken : (s.pc .getNice).inGetPacket →
      s.data.niceQueue ≠ [] ∨ s.flag () = true ∧ IceState.finished.toNat ≤ s.data.iceState.toNat := by
    intro hp
    by_contra hn
    obtain ⟨hq, hn⟩ := not_or.mp hn
    refine hs ⟨not_not.mp hq, .inl ⟨hp, ?_⟩⟩
    rcases not_and_or.mp hn with hf | hstate
    · exact .inl (Bool.eq_false_of_not_eq_true hf)
    · exact .inr (Nat.not_le.mp hstate)
  cases hpc : s.pc .getNice <;> rw [hpc] at hown hfree hplace hwoken <;> (try cases hplace; done)
  case getNiceDataLoop => exact ⟨[], alone_getNiceDataLoop_finished hpc hrun⟩
  case getPacket => exact alone_getPacket_finished hpc (hfree nofun) hrun (hwoken rfl)
  case getPacketTest => exact alone_getPacketTest_finished hpc (hown rfl) hrun (hwoken rfl)
  case getPacketUnlock =>
    have hempty : Knows (s.pc .getNice) s.data := hg.held .getNice (by rw [hpc]; rfl)
    rw [hpc] at hempty
    obtain ⟨hf, hstate⟩ := (hwoken rfl).resolve_left fun hne => hne hempty
    exact ⟨[], alone_getPacketUnlock_finished hpc (hown rfl) hf hstate⟩
  case getPacketWait =>
    have hf : s.flag () = true := by
      rcases hwoken rfl with hq | ⟨hf, -⟩
      · exact run_flag hr hmain hpc hq
      · exact hf
    obtain ⟨h, ha⟩ : ∃ h, Alone (code calls fails) .getNice Finished
        { s.goto .getNice .getPacketCheck with flag := Function.update s.flag () false } h := by
      refine alone_getPacketCheck (by simp) (hfree nofun) hrun ?_
      exact (hwoken rfl).imp_right And.right
    exact ⟨h, .wait (s.awake _) (by rw [hpc]; rfl) hf ha⟩
  case getPacketCheck =>
    refine alone_getPacketCheck hpc (hfree nofun) hrun ?_
    by_contra hn
    obtain ⟨hq, hstate⟩ := not_or.mp hn
    exact hs ⟨not_not.mp hq, .inr ⟨hpc, Nat.not_le.mp hstate⟩⟩
  case getPacketRelease x =>
    refine ⟨[.received x], .unlock (s.awake _) (by rw [hpc]; rfl) (hown rfl) ?_⟩
    refine .act (State.awake _ _) (by rw [State.goto_self]; rfl) rfl (alone_getNiceDataLoop_finished ?_ ?_)
    · simp
    · simp [hrun]
  case onNiceData x =>
    refine ⟨[.received x], .act (s.awake _) (by rw [hpc]; rfl) rfl (alone_getNiceDataLoop_finished ?_ ?_)⟩
    · simp
    · simp [hrun]
  case getPacketRelock => exact ⟨[], alone_getPacketRelock_finished hpc (hfree nofun)⟩
  case getPacketReturn => exact ⟨[], alone_getPacketReturn_finished hpc (hown rfl)⟩
  case closing => exact ⟨[], alone_closing_finished hpc⟩
  case finished => exact ⟨[], .done hpc⟩

theorem Goes.stuck (hg : Goes calls fails p d q d' r) (hq : d.niceQueue = [])
    (hp : p.inGetPacket ∨ p = .getPacketCheck ∧ d.iceState.toNat < IceState.finished.toNat) :
    d' = d ∧ (q.inGetPacket ∨ q = .getPacketCheck ∧ p = .getPacketWait) := by
  cases hg with
  | next _ h => cases p <;> cases h <;> simp_all [Point.inGetPacket]
  | ended h => exact absurd hp (by simp [Point.inGetPacket, h])
  | taken h => cases hq.symm.trans h
  | calls _ h => simp [Point.inGetPacket] at hp
  | _ => simp_all [Point.inGetPacket]

/-- Who is stuck stays so when nobody else is left. -/
theorem stuck_step (hi : Closing s) (ho : s.pc .owner = .closeJoinLoop) (hs : Stuck s)
    (hstep : Step (code calls fails) s r s') : s'.pc .owner = .closeJoinLoop ∧ Stuck s' := by
  rcases hstep.moved with ⟨t, q, hm⟩ | ⟨-, hd, hpc, hflag, -⟩
  · cases t with
    | mainLoop =>
      have hl := hm.leads
      rw [hi.joined (by rw [ho]; rfl)] at hl
      cases hl
    | owner =>
      have hq : q = .closed := by
        have hl := hm.leads
        rw [ho] at hl
        exact hl.1
      have hstop := hm.join .getNice (by rw [ho, hq]; rfl)
      obtain ⟨-, ⟨hp, -⟩ | ⟨hp, -⟩⟩ := hs
      · cases hpc : s.pc .getNice <;> rw [hpc] at hp hstop <;> first | (cases hp; done) | cases hstop
      · rw [hp] at hstop
        cases hstop
    | getNice =>
      obtain ⟨hq, hp⟩ := hs
      obtain ⟨hd, hnext⟩ := (Goes.of_leads hm.leads).stuck hq (hp.imp And.left id)
      have hlow : s.flag () = true → s.data.iceState.toNat < IceState.finished.toNat := by
        intro hf
        rcases hp with ⟨-, hff | hlow⟩ | ⟨-, hlow⟩
        · cases hff.symm.trans hf
        · exact hlow
        · exact hlow
      refine ⟨(hm.other (u := .owner) nofun).trans ho, by rw [hd]; exact hq, ?_⟩
      rw [hm.self, hd]
      rcases hnext with hin | ⟨rfl, hpw⟩
      · refine .inl ⟨hin, ?_⟩
        cases hf : s'.flag () with
        | false => exact .inl rfl
        | true =>
          rcases hm.raise () hf with hf | hset
          · exact .inr (hlow hf)
          · rcases hp with ⟨hp, -⟩ | ⟨hp, -⟩
            · cases hpc : s.pc .getNice <;> rw [hpc] at hp hset <;> first | (cases hp; done) | cases hset
            · rw [hp] at hset
              cases hset
      · exact .inr ⟨rfl, hlow (hm.ready () (by rw [hpw]; rfl))⟩
  · refine ⟨hpc ▸ ho, ?_⟩
    rw [Stuck, hd, hpc, hflag]
    exact hs

theorem stuck_not_closed (hr : Transition.run? (step (code calls fails)) start ms = some (rs, s))
    (ho : s.pc .owner = .closeJoinLoop) (hs : Stuck s) (hreach : Reaches (code calls fails) s s') :
    s'.pc .owner ≠ .closed := by
  have hinv := hreach.invariant (I := fun s => Closing s ∧ s.pc .owner = .closeJoinLoop ∧ Stuck s)
    (fun s r s' hi hstep => ⟨hi.1.step hstep, stuck_step hi.1 hi.2.1 hi.2.2 hstep⟩) ⟨run_closing hr, ho, hs⟩
  rw [hinv.2.1]
  exact nofun

/-- When `close` has come to wait for the loop, it returns if and only if the loop is not stuck. -/
theorem close_returns_iff (hr : Transition.run? (step (code calls fails)) start ms = some (rs, s))
    (ho : s.pc .owner = .closeJoinLoop) :
    (∃ s', Reaches (code calls fails) s s' ∧ s'.pc .owner = .closed) ↔ ¬ Stuck s := by
  have hc := run_closing hr
  constructor
  · exact fun ⟨s', hreach, hclosed⟩ hs => stuck_not_closed hr ho hs hreach hclosed
  · intro hs
    have hmain : s.pc .mainLoop = .mainLoopEnd := hc.joined (by rw [ho]; rfl)
    obtain ⟨h, ha⟩ := getNiceDataLoop_ends hr (hc.closing (by rw [ho]; rfl)) (by rw [hmain]; exact Bool.false_ne_true) hs
    obtain ⟨s₁, h₁, hfin, hothers⟩ := ha.others.reaches
    have ho₁ : s₁.pc .owner = .closeJoinLoop := (hothers .owner nofun).trans ho
    have hfin : s₁.pc .getNice = .finished := hfin
    exact ⟨_, h₁.trans (.join (s₁.awake _) (by rw [ho₁]; rfl) (by rw [hfin]; rfl)), State.goto_self ..⟩

theorem close_returns_iff_session : ∃ h : (after (session ++ closing)).isSome,
    (∃ s', Reaches (code (fun _ => true) fun _ => false) ((after (session ++ closing)).get h).2 s' ∧
      s'.pc .owner = .closed) ↔ ¬ Stuck ((after (session ++ closing)).get h).2 :=
  ⟨rfl, close_returns_iff (run_get rfl) rfl⟩

/-- libnice has seen that the connection is going to be ready, and sets the state when `close` has just set it. -/
def race : List (Move Thread (Point α)) :=
  List.replicate 4 (.run .getNice) ++ List.replicate 3 (.run .mainLoop) ++
    [.pick .mainLoop (.updateIceState .ready), .run .mainLoop] ++
    .pick .owner .close :: List.replicate 8 (.run .owner) ++ List.replicate 3 (.run .mainLoop) ++ [.run .owner]

/-- `close` may never return: its state is overwritten by a main loop that has tested it before, and `getPacket` goes
on waiting. -/
theorem close_hangs : ∃ s : State Thread Unit Unit Empty (Shared α) (Point α),
    Reaches (code (fun _ => true) fails) start s ∧ s.pc .owner = .closeJoinLoop ∧
      ∀ s', Reaches (code (fun _ => true) fails) s s' → s'.pc .owner ≠ .closed := by
  have hr : (Transition.run? (step (code (fun _ => true) fails)) start race).isSome := rfl
  refine ⟨_, .of_isSome hr, rfl, fun s' => stuck_not_closed (run_get hr) rfl ⟨rfl, .inl ⟨rfl, .inr ?_⟩⟩⟩
  exact (by decide : IceState.ready.toNat < IceState.finished.toNat)

def Ended (s : State Thread Unit Unit Empty (Shared α) (Point α)) : Prop := s.pc .mainLoop = .mainLoopEnd

theorem alone_mainLoop_ended (hpc : s.pc .mainLoop = .mainLoop) (hquit : s.data.quit) :
    Alone (code calls fails) .mainLoop Ended s [] := by
  refine .act (s.awake _) (by rw [hpc]; rfl) rfl (.done ?_)
  simp [Ended, hquit]

theorem alone_queueDataUnlock_ended (hpc : s.pc .mainLoop = .queueDataUnlock) (hquit : s.data.quit)
    (ho : s.owner () = some .mainLoop) : Alone (code calls fails) .mainLoop Ended s [] :=
  .unlock (s.awake _) (by rw [hpc]; rfl) ho (alone_mainLoop_ended (by simp) hquit)

theorem alone_queueDataSet_ended (hpc : s.pc .mainLoop = .queueDataSet) (hquit : s.data.quit)
    (ho : s.owner () = some .mainLoop) : Alone (code calls fails) .mainLoop Ended s [] :=
  .set (s.awake _) (by rw [hpc]; rfl) (alone_queueDataUnlock_ended (by simp) hquit ho)

theorem alone_queueDataPush_ended {x : α} (hpc : s.pc .mainLoop = .queueDataPush x) (hquit : s.data.quit)
    (ho : s.owner () = some .mainLoop) : ∃ h, Alone (code calls fails) .mainLoop Ended s h := by
  by_cases hlen : s.data.niceQueue.length < 1000
  · refine ⟨[.accepted x], .act (s.awake _) (by rw [hpc]; rfl) (by simp [hlen]) (alone_queueDataSet_ended ?_ ?_ ho)⟩
    · simp [hlen]
    · simpa [hlen] using hquit
  · refine ⟨[.dropped x], .act (s.awake _) (by rw [hpc]; rfl) (by simp [hlen]) (alone_queueDataUnlock_ended ?_ ?_ ho)⟩
    · simp [hlen]
    · simpa [hlen] using hquit

private theorem alone_queueDataLock_ended {x : α} (hpc : s.pc .mainLoop = .queueDataLock x) (hquit : s.data.quit)
    (ho : s.owner () = none) : ∃ h, Alone (code calls fails) .mainLoop Ended s h := by
  obtain ⟨h, ha⟩ : ∃ h, Alone (code calls fails) .mainLoop Ended
      { s.goto .mainLoop (.queueDataPush x) with owner := Function.update s.owner () (some .mainLoop) } h :=
    alone_queueDataPush_ended (x := x) (by simp) hquit (by simp)
  exact ⟨h, .lock (s.awake _) (by rw [hpc]; rfl) ho ha⟩

theorem alone_updateIceStateListener_ended (state : IceState) (hpc : s.pc .mainLoop = .updateIceStateListener state)
    (hquit : s.data.quit) : Alone (code calls fails) .mainLoop Ended s [] :=
  .act (s.awake _) (by rw [hpc]; rfl) rfl (alone_mainLoop_ended (by simp) hquit)

private theorem alone_updateIceStateSet_ended (state : IceState) (hpc : s.pc .mainLoop = .updateIceStateSet state)
    (hquit : s.data.quit) : Alone (code calls fails) .mainLoop Ended s [] :=
  .act (s.awake _) (by rw [hpc]; rfl) rfl (alone_updateIceStateListener_ended state (by simp) hquit)

/-- Once it has been entered and told to, the main loop quits. -/
theorem mainLoop_ends (hr : Transition.run? (step (code calls fails)) start ms = some (rs, s)) (hquit : s.data.quit)
    (hentered : ¬ (s.pc .mainLoop).isEntering) (hn : ¬ holds (s.pc .getNice)) :
    ∃ s', Reaches (code calls fails) s s' ∧ Ended s' ∧ ∀ u, u ≠ .mainLoop → s'.pc u = s.pc u := by
  have hown : holds (s.pc .mainLoop) → s.owner () = some .mainLoop := ((run_guarded hr).owner _).mpr
  have hfree : ¬ holds (s.pc .mainLoop) → s.owner () = none := fun hmain => run_free hr hmain hn
  have hplace := (run_balanced hr).thread .mainLoop
  have halone : (∃ h, Alone (code calls fails) .mainLoop Ended s h) →
      ∃ s', Reaches (code calls fails) s s' ∧ Ended s' ∧ ∀ u, u ≠ .mainLoop → s'.pc u = s.pc u := fun ⟨h, ha⟩ => by
    obtain ⟨s', hs', hQ⟩ := ha.others.reaches
    exact ⟨s', hs', hQ⟩
  cases hpc : s.pc .mainLoop <;> rw [hpc] at hown hfree hplace hentered <;> (try cases hplace; done)
  case mainLoopStart => exact absurd rfl hentered
  case mainLoopRun => exact absurd rfl hentered
  case mainLoop => exact halone ⟨[], alone_mainLoop_ended hpc hquit⟩
  case callback =>
    have ha : Alone (code calls fails) .mainLoop Ended (s.goto .mainLoop .mainLoop) [] :=
      alone_mainLoop_ended (State.goto_self ..) hquit
    obtain ⟨s', hs', hend, hothers⟩ := ha.others.reaches
    refine ⟨s', .pick (s.awake _) (by rw [hpc]; rfl) rfl hs', hend, fun u hu => ?_⟩
    rw [hothers u hu, State.goto_other _ _ hu]
  case queueData x =>
    refine halone ?_
    by_cases hready : s.data.iceState = .ready
    · obtain ⟨h, ha⟩ : ∃ h, Alone (code calls fails) .mainLoop Ended (s.goto .mainLoop (.queueDataLock x)) h :=
        alone_queueDataLock_ended (State.goto_self ..) hquit (hfree nofun)
      refine ⟨h, .act (s.awake _) (by rw [hpc]; rfl) rfl ?_⟩
      rw [if_pos hready]
      exact ha
    · refine ⟨[], .act (s.awake _) (by rw [hpc]; rfl) rfl (alone_mainLoop_ended ?_ hquit)⟩
      simp [hready]
  case queueDataLock x => exact halone (alone_queueDataLock_ended hpc hquit (hfree nofun))
  case queueDataPush x => exact halone (alone_queueDataPush_ended hpc hquit (hown rfl))
  case queueDataSet => exact halone ⟨[], alone_queueDataSet_ended hpc hquit (hown rfl)⟩
  case queueDataUnlock => exact halone ⟨[], alone_queueDataUnlock_ended hpc hquit (hown rfl)⟩
  case updateIceState state =>
    refine halone ⟨[], .act (s.awake _) (by rw [hpc]; rfl) rfl ?_⟩
    by_cases hstate : state.toNat ≤ s.data.iceState.toNat
    · rw [if_pos hstate]
      exact alone_mainLoop_ended (by simp) hquit
    · rw [if_neg hstate]
      exact alone_updateIceStateSet_ended state (by simp) hquit
  case updateIceStateSet state => exact halone ⟨[], alone_updateIceStateSet_ended state hpc hquit⟩
  case updateIceStateListener state => exact halone ⟨[], alone_updateIceStateListener_ended state hpc hquit⟩
  case mainLoopEnd => exact ⟨s, .refl s, hpc, fun _ _ => rfl⟩

/-- `close` has set the state. -/
def Point.isPast : Point α → Bool
  | .closeQuit | .closeUnref | .closeSet | .closeJoin | .closeJoinLoop | .closed => true
  | _ => false

/-- `close` has signalled the event. -/
def Point.hasSet : Point α → Bool
  | .closeJoin | .closeJoinLoop | .closed => true
  | _ => false

/-- The connection is finished and nobody is going to overwrite that, the main loop runs or is told to quit, and
`getPacket` is going to be woken up. -/
structure Settled (s : State Thread Unit Unit Empty (Shared α) (Point α)) : Prop where
  closing : Closing s
  past : (s.pc .owner).isPast
  state : IceState.finished.toNat ≤ s.data.iceState.toNat
  pending : ∀ state, s.pc .mainLoop = .updateIceStateSet state → IceState.finished.toNat ≤ state.toNat
  entered : ¬ (s.pc .mainLoop).isEntering
  quit : (s.pc .owner).hasQuit → s.data.quit
  woken : (s.pc .owner).hasSet → (s.pc .getNice).inGetPacket → s.flag ()

theorem Goes.past (hg : Goes calls fails p d q d' r) (hp : p.isPast) :
    q.isPast ∧ d'.iceState = d.iceState ∧ (q.hasQuit → d'.quit ∨ p.hasQuit ∧ d'.quit = d.quit) ∧
      (q.hasSet → p.hasSet ∨ p = .closeSet) := by
  cases hg with
  | next _ h => cases p <;> cases h <;> first | (cases hp; done) | simp [Point.isPast, Point.hasSet, Point.hasQuit]
  | quit | unrefs => simp [Point.isPast, Point.hasSet, Point.hasQuit]
  | _ => cases hp

theorem Goes.inGetPacket (hg : Goes calls fails p d q d' r) (hrun : d.running = false)
    (hstate : IceState.finished.toNat ≤ d.iceState.toNat) (hq : q.inGetPacket) :
    p.inGetPacket ∧ p ≠ .getPacketWait := by
  cases hg with
  | next _ h => cases p <;> cases h <;> first | (cases hq; done) | simp [Point.inGetPacket]
  | runs h => cases hrun.symm.trans h
  | again h => exact absurd hstate h
  | calls _ h => cases q <;> first | (cases h; done) | cases hq
  | lacking => simp [Point.inGetPacket]
  | _ => cases hq

theorem Goes.pending (hg : Goes calls fails p d q d' r) (hstate : IceState.finished.toNat ≤ d.iceState.toNat)
    {state : IceState} (hq : q = .updateIceStateSet state) : IceState.finished.toNat ≤ state.toNat := by
  subst hq
  cases hg with
  | next _ h => cases p <;> cases h
  | calls _ h => cases h
  | higher h => exact hstate.trans (Nat.not_le.mp h).le

theorem Settled.step (hi : Settled s) (hs : Step (code calls fails) s r s') : Settled s' := by
  have hclosing := hi.closing.step hs
  have hrun : s.data.running = false := hi.closing.closing (by
    have hp := hi.past
    cases hpc : s.pc .owner <;> rw [hpc] at hp <;> first | rfl | cases hp)
  rcases hs.moved with ⟨t, q, hm⟩ | ⟨-, hd, hpc, hflag, -⟩
  · have hg := Goes.of_leads hm.leads
    cases t with
    | getNice =>
      have howner := hm.other (u := .owner) nofun
      have hmain := hm.other (u := .mainLoop) nofun
      have hthread := hi.closing.thread .getNice
      have hout : ¬ (s.pc .getNice).isEntering := by
        intro he
        cases hpc : s.pc .getNice <;> rw [hpc] at he hthread <;> first | (cases he; done) | cases hthread
      refine ⟨hclosing, howner ▸ hi.past, ?_, hmain ▸ hi.pending, hmain ▸ hi.entered,
        fun hq => hg.quitting hout (hi.quit (howner ▸ hq)), fun hset hin => ?_⟩
      · rcases hg.iceState_eq with h | h | ⟨h, -⟩
        · exact h ▸ hi.state
        · rw [h] at hthread
          cases hthread
        · rw [h] at hthread
          cases hthread
      · rw [hm.self] at hin
        obtain ⟨hin, hwait⟩ := hg.inGetPacket hrun hi.state hin
        rcases hm.wait () (hi.woken (howner ▸ hset) hin) with hf | hw
        · exact hf
        · cases hpc : s.pc .getNice <;> rw [hpc] at hw hwait hin <;> first | (cases hin; done) | (cases hw; done) | skip
          exact absurd rfl hwait
    | mainLoop =>
      have howner := hm.other (u := .owner) nofun
      have hnice := hm.other (u := .getNice) nofun
      have hthread := hi.closing.thread .mainLoop
      refine ⟨hclosing, howner ▸ hi.past, ?_, fun state hq => hg.pending hi.state (hm.self ▸ hq),
        by rw [hm.self]; exact hg.entered hi.entered, fun hq => hg.quitting hi.entered (hi.quit (howner ▸ hq)),
        fun hset hin => ?_⟩
      · rcases hg.iceState_eq with h | h | ⟨h, -⟩
        · exact h ▸ hi.state
        · exact hi.pending _ h
        · rw [h] at hthread
          cases hthread
      · rcases hm.wait () (hi.woken (howner ▸ hset) (hnice ▸ hin)) with hf | hw
        · exact hf
        · cases hpc : s.pc .mainLoop <;> rw [hpc] at hw hthread <;> first | (cases hthread; done) | cases hw
    | owner =>
      have hnice := hm.other (u := .getNice) nofun
      have hmain := hm.other (u := .mainLoop) nofun
      obtain ⟨hpast, hice, hquit, hset'⟩ := hg.past hi.past
      refine ⟨hclosing, hm.self.symm ▸ hpast, hice ▸ hi.state, hmain ▸ hi.pending, hmain ▸ hi.entered, fun hq => ?_,
        fun hset hin => ?_⟩
      · rw [hm.self] at hq
        rcases hquit hq with hd | ⟨hp, hd⟩
        · exact hd
        · exact hd ▸ hi.quit hp
      rw [hm.self] at hset
      rcases hset' hset with hset | hp
      · rcases hm.wait () (hi.woken hset (hnice ▸ hin)) with hf | hw
        · exact hf
        · cases hpc : s.pc .owner <;> rw [hpc] at hw hset <;> first | (cases hset; done) | cases hw
      · have hq : q = .closeJoin := by
          have hl := hm.leads
          rw [hp] at hl
          exact hl.1
        exact hm.set () (by rw [hp, hq]; rfl)
  · exact ⟨hclosing, hpc ▸ hi.past, hd ▸ hi.state, hpc ▸ hi.pending, hpc ▸ hi.entered, by rw [hpc, hd]; exact hi.quit,
      by rw [hpc, hflag]; exact hi.woken⟩

theorem Settled.reaches (hi : Settled s) (h : Reaches (code calls fails) s s') : Settled s' :=
  h.invariant (fun _ _ _ => Settled.step) hi

theorem Settled.not_stuck (hi : Settled s) (hset : (s.pc .owner).hasSet) : ¬ Stuck s := by
  rintro ⟨-, ⟨hin, hf | hlow⟩ | ⟨-, hlow⟩⟩
  · cases hf.symm.trans (hi.woken hset hin)
  · exact absurd hi.state (Nat.not_le.mpr hlow)
  · exact absurd hi.state (Nat.not_le.mpr hlow)

/-- From where `close` has signalled the event, both threads can end. -/
theorem Settled.ends (hr : Reaches (code calls fails) start s) (hi : Settled s) (hset : (s.pc .owner).hasSet) :
    ∃ s', Reaches (code calls fails) s s' ∧ Finished s' ∧ Ended s' ∧ s'.pc .owner = s.pc .owner := by
  have hclosing : ∀ s : State Thread Unit Unit Empty (Shared α) (Point α), Settled s → (s.pc .owner).hasSet →
      s.data.running = false ∧ s.data.quit := fun s hi hset =>
    ⟨hi.closing.closing (by cases hp : s.pc .owner <;> rw [hp] at hset <;> first | rfl | cases hset),
      hi.quit (by cases hp : s.pc .owner <;> rw [hp] at hset <;> first | rfl | cases hset)⟩
  obtain ⟨ms, rs, hrun⟩ := id hr
  obtain ⟨hstopped, hquit⟩ := hclosing s hi hset
  by_cases hmain : holds (s.pc .mainLoop)
  · -- The main loop is at the queue, so it goes first.
    have hn : ¬ holds (s.pc .getNice) := fun hn => nomatch (run_guarded hrun).exclusive hmain hn
    obtain ⟨s₁, h₁, hend, hothers₁⟩ := mainLoop_ends hrun hquit hi.entered hn
    have hi₁ := hi.reaches h₁
    have ho₁ : s₁.pc .owner = s.pc .owner := hothers₁ .owner nofun
    obtain ⟨ms₁, rs₁, hrun₁⟩ := hr.trans h₁
    obtain ⟨h, ha⟩ := getNiceDataLoop_ends hrun₁ (hclosing s₁ hi₁ (ho₁ ▸ hset)).1
      (by rw [show s₁.pc .mainLoop = .mainLoopEnd from hend]; exact Bool.false_ne_true) (hi₁.not_stuck (ho₁ ▸ hset))
    obtain ⟨s₂, h₂, hfin, hothers₂⟩ := ha.others.reaches
    exact ⟨s₂, h₁.trans h₂, hfin, (hothers₂ .mainLoop nofun).trans hend, (hothers₂ .owner nofun).trans ho₁⟩
  · obtain ⟨h, ha⟩ := getNiceDataLoop_ends hrun hstopped hmain (hi.not_stuck hset)
    obtain ⟨s₁, h₁, hfin, hothers₁⟩ := ha.others.reaches
    have hi₁ := hi.reaches h₁
    have ho₁ : s₁.pc .owner = s.pc .owner := hothers₁ .owner nofun
    obtain ⟨ms₁, rs₁, hrun₁⟩ := hr.trans h₁
    obtain ⟨s₂, h₂, hend, hothers₂⟩ := mainLoop_ends hrun₁ (hclosing s₁ hi₁ (ho₁ ▸ hset)).2 hi₁.entered
      (by rw [show s₁.pc .getNice = .finished from hfin]; exact Bool.false_ne_true)
    exact ⟨s₂, h₁.trans h₂, (hothers₂ .getNice nofun).trans hfin, hend, (hothers₂ .owner nofun).trans ho₁⟩

/-- Behind its signal `close` waits for both threads and returns. -/
theorem Settled.returns (hr : Reaches (code calls fails) start s) (hi : Settled s) (hset : (s.pc .owner).hasSet) :
    ∃ s', Reaches (code calls fails) s s' ∧ s'.pc .owner = .closed := by
  obtain ⟨s₁, h₁, hfin, hend, ho₁⟩ := hi.ends hr hset
  have hfin : s₁.pc .getNice = .finished := hfin
  have hend : s₁.pc .mainLoop = .mainLoopEnd := hend
  have hloop : ∀ s₂ : State Thread Unit Unit Empty (Shared α) (Point α), s₂.pc .getNice = .finished →
      s₂.pc .owner = .closeJoinLoop → Reaches (code calls fails) s₂ (s₂.goto .owner .closed) := fun s₂ hfin ho =>
    .join (s₂.awake _) (by rw [ho]; rfl) (by rw [hfin]; rfl)
  rw [← ho₁] at hset
  cases ho : s₁.pc .owner <;> rw [ho] at hset <;> (try cases hset; done)
  case closed => exact ⟨s₁, h₁, ho⟩
  case closeJoinLoop => exact ⟨_, h₁.trans (hloop s₁ hfin ho), State.goto_self ..⟩
  case closeJoin =>
    have hjoin : Reaches (code calls fails) s₁ (s₁.goto .owner .closeJoinLoop) :=
      .join (s₁.awake _) (by rw [ho]; rfl) (by rw [hend]; rfl)
    refine ⟨_, h₁.trans (hjoin.trans (hloop _ ?_ (State.goto_self ..))), State.goto_self ..⟩
    exact (s₁.goto_other (t := .owner) (u := .getNice) _ nofun).trans hfin

/-- If the main loop has been entered and is not about to overwrite the state that `close` has just set, `close` can
always return. -/
theorem close_returns (hr : Reaches (code calls fails) start s) (ho : s.pc .owner = .closeQuit)
    (hentered : ¬ (s.pc .mainLoop).isEntering)
    (hstate : IceState.finished.toNat ≤ s.data.iceState.toNat)
    (hpending : ∀ state, s.pc .mainLoop = .updateIceStateSet state → IceState.finished.toNat ≤ state.toNat)
    (hreach : Reaches (code calls fails) s s') :
    ∃ s'', Reaches (code calls fails) s' s'' ∧ s''.pc .owner = .closed := by
  obtain ⟨ms, rs, hrun⟩ := id hr
  have hsettled : Settled s := ⟨run_closing hrun, by rw [ho]; rfl, hstate, hpending, hentered, by rw [ho]; exact nofun,
    by rw [ho]; exact nofun⟩
  have hi := hsettled.reaches hreach
  have hr' := hr.trans hreach
  have hset : Alone (code calls fails) .owner (fun s => (s.pc .owner).hasSet) s' [] := by
    have hpast := hi.past
    cases hpc : s'.pc .owner <;> rw [hpc] at hpast <;> (try cases hpast; done)
    case closeQuit =>
      refine .act (s'.awake _) (by rw [hpc]; rfl) rfl ?_
      refine .act (State.awake _ _) (by rw [State.goto_self]; rfl) rfl ?_
      exact .set (State.awake _ _) (by rw [State.goto_self]; rfl) (.done (by simp [Point.hasSet]))
    case closeUnref =>
      refine .act (s'.awake _) (by rw [hpc]; rfl) rfl ?_
      exact .set (State.awake _ _) (by rw [State.goto_self]; rfl) (.done (by simp [Point.hasSet]))
    case closeSet => exact .set (s'.awake _) (by rw [hpc]; rfl) (.done (by simp [Point.hasSet]))
    case closeJoin => exact .done (by rw [hpc]; rfl)
    case closeJoinLoop => exact .done (by rw [hpc]; rfl)
    case closed => exact .done (by rw [hpc]; rfl)
  obtain ⟨s₁, h₁, hset⟩ := hset.reaches
  obtain ⟨s₂, h₂, hclosed⟩ := (hi.reaches h₁).returns (hr'.trans h₁) hset
  exact ⟨s₂, h₁.trans h₂, hclosed⟩

theorem close_returns_session : ∃ h : (after (session ++ closing.take 6)).isSome,
    ∃ s', Reaches (code (fun _ => true) fun _ => false) ((after (session ++ closing.take 6)).get h).2 s' ∧
      s'.pc .owner = .closed := by
  refine ⟨rfl, close_returns (.of_isSome rfl) rfl ?_ (by decide) (fun state h => ?_) (.refl _)⟩
  · exact Bool.false_ne_true
  · cases show Point.mainLoop = .updateIceStateSet state from h

/-- `close` waits for a main loop that has not been told to quit. -/
structure Lost (s : State Thread Unit Unit Empty (Shared α) (Point α)) : Prop where
  thread : ∀ t, Place t (s.pc t)
  joining : s.pc .owner = .closeJoin
  running : s.data.quit = false
  entered : ¬ (s.pc .mainLoop).isEntering
  looping : s.pc .mainLoop ≠ .mainLoopEnd

theorem Goes.looping (hg : Goes calls fails p d q d' r) (hd : d.quit = false) (hp : ¬ p.isEntering)
    (ho : p.thread ≠ .owner) : d'.quit = false ∧ q ≠ .mainLoopEnd := by
  cases hg with
  | next _ h => cases p <;> cases h <;> exact ⟨hd, nofun⟩
  | calls _ h => cases q <;> first | (cases h; done) | exact ⟨hd, nofun⟩
  | quits h => cases hd.symm.trans h
  | loopless => exact absurd rfl hp
  | quit => exact absurd rfl ho
  | enters => exact ⟨rfl, nofun⟩
  | _ => exact ⟨hd, nofun⟩

theorem Lost.step (hi : Lost s) (hs : Step (code calls fails) s r s') : Lost s' := by
  have hthread : ∀ t, Place t (s'.pc t) := hs.place thread_of_leads hi.thread
  rcases hs.moved with ⟨t, q, hm⟩ | ⟨-, hd, hpc, -⟩
  · have hg := Goes.of_leads hm.leads
    have hplace : (s.pc t).thread = t := hi.thread t
    cases t with
    | getNice =>
      have hout : ¬ (s.pc .getNice).isEntering := by
        intro he
        cases hpc : s.pc .getNice <;> rw [hpc] at he hplace <;> first | (cases he; done) | cases hplace
      have hmain := hm.other (u := .mainLoop) nofun
      exact ⟨hthread, (hm.other (u := .owner) nofun).trans hi.joining,
        (hg.looping hi.running hout (by rw [hplace]; nofun)).1, hmain ▸ hi.entered, hmain ▸ hi.looping⟩
    | mainLoop =>
      obtain ⟨hquit, hend⟩ := hg.looping hi.running hi.entered (by rw [hplace]; nofun)
      exact ⟨hthread, (hm.other (u := .owner) nofun).trans hi.joining, hquit, by rw [hm.self]; exact hg.entered hi.entered,
        by rw [hm.self]; exact hend⟩
    | owner =>
      -- `close` goes on only behind the end of the main loop.
      have hq : q = .closeJoinLoop := by
        have hl := hm.leads
        rw [hi.joining] at hl
        exact hl.1
      have hstop := hm.join .mainLoop (by rw [hi.joining, hq]; rfl)
      exact absurd (eq_mainLoopEnd (hi.thread .mainLoop) hstop) hi.looping
  · exact ⟨hthread, hpc ▸ hi.joining, hd ▸ hi.running, hpc ▸ hi.entered, hpc ▸ hi.looping⟩

/-- `close` quits the main loop after its thread has called `g_main_loop_run` and before that sets `is_running`. -/
def early : List (Move Thread (Point α)) :=
  .run .mainLoop :: .pick .owner .close :: List.replicate 6 (.run .owner) ++ .run .mainLoop ::
    List.replicate 2 (.run .owner)

/-- A main loop that is quit before it has been entered runs on, and `close` waits for it for ever. -/
theorem close_hangs_early : ∃ s : State Thread Unit Unit Empty (Shared α) (Point α),
    Reaches (code calls fails) start s ∧ s.pc .owner = .closeJoin ∧
      ∀ s', Reaches (code calls fails) s s' → s'.pc .owner ≠ .closed := by
  have hr : (Transition.run? (step (code calls fails)) start early).isSome := rfl
  refine ⟨_, .of_isSome hr, rfl, fun s' hs' => ?_⟩
  have hlost : Lost s' := hs'.invariant (fun _ _ _ => Lost.step)
    ⟨(run_closing (run_get hr)).thread, rfl, rfl, Bool.false_ne_true, nofun⟩
  rw [hlost.joining]
  exact nofun

end Sfup.Core.PacketLoop
