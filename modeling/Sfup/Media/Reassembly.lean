import Sfup.Media.ExternalOutput
import Sfup.Lib.Transition
import Mathlib.Data.List.Chain

/-! Every buffer that `ExternalOutput` writes is one frame: the payloads of packets with consecutive
numbers, from one that begins a partition to the first with the marker. -/
namespace Sfup.Media
open Sfup.Rtp Sfup.Transition

/-- What the reassembly reads of a packet. -/
structure Fragment where
  number : UInt16
  start : Bool
  marker : Bool
  payload : List UInt8

/-- The packets of one frame, and its bytes. -/
structure IsFrame (run : List Fragment) (data : List UInt8) : Prop where
  start : ∃ f ∈ run.head?, f.start = true
  consecutive : run.IsChain fun a b => b.number = a.number + 1
  marker : ∃ init f, run = init ++ [f] ∧ f.marker = true ∧ ∀ g ∈ init, g.marker = false
  data : data = run.flatMap Fragment.payload

/-- The first packets of a frame, up to the one with the given number. -/
structure IsOpen (run : List Fragment) (last : UInt16) (data : List UInt8) : Prop where
  start : ∃ f ∈ run.head?, f.start = true
  consecutive : run.IsChain fun a b => b.number = a.number + 1
  last : ∀ f ∈ run.getLast?, f.number = last
  marker : ∀ f ∈ run, f.marker = false
  data : data = run.flatMap Fragment.payload

section Runs

variable {f : Fragment} {run : List Fragment} {last : UInt16} {data : List UInt8}

theorem isOpen_single (hs : f.start = true) (hm : f.marker = false) : IsOpen [f] f.number f.payload := by
  constructor
  · exact ⟨f, rfl, hs⟩
  · exact .singleton f
  · simp
  · simpa using hm
  · simp

theorem isFrame_single (hs : f.start = true) (hm : f.marker = true) : IsFrame [f] f.payload := by
  constructor
  · exact ⟨f, rfl, hs⟩
  · exact .singleton f
  · exact ⟨[], f, rfl, hm, by simp⟩
  · simp

namespace IsOpen

theorem start_append (h : IsOpen run last data) : ∃ g ∈ (run ++ [f]).head?, g.start = true := by
  obtain ⟨g, hg, hs⟩ := h.start
  refine ⟨g, ?_, hs⟩
  cases run with
  | nil => cases hg
  | cons _ _ => exact hg

theorem consecutive_append (h : IsOpen run last data) (hn : f.number = last + 1) :
    (run ++ [f]).IsChain fun a b => b.number = a.number + 1 := by
  apply List.isChain_append.mpr
  refine ⟨h.consecutive, .singleton f, ?_⟩
  intro a ha b hb
  obtain rfl : f = b := by simpa using hb
  rw [hn, h.last a ha]

theorem extend (h : IsOpen run last data) (hn : f.number = last + 1) (hm : f.marker = false) :
    IsOpen (run ++ [f]) f.number (data ++ f.payload) := by
  constructor
  · exact h.start_append
  · exact h.consecutive_append hn
  · simp
  · intro g hg
    rcases List.mem_append.mp hg with hg | hg
    · exact h.marker g hg
    · rwa [List.mem_singleton.mp hg]
  · simp [h.data]

theorem close (h : IsOpen run last data) (hn : f.number = last + 1) (hm : f.marker = true) :
    IsFrame (run ++ [f]) (data ++ f.payload) := by
  constructor
  · exact h.start_append
  · exact h.consecutive_append hn
  · exact ⟨run, f, rfl, hm, h.marker⟩
  · simp [h.data]

end IsOpen
end Runs

namespace ExternalOutput

/-- A call of `writeVideoData`: the packet, what is left in the parser's structure, and the stream that
`initContext` makes. -/
structure Call where
  vp8 : RTPPayloadVP8
  buf : Mem
  len : ℕ
  stream : Option ℤ

def Call.payload (e : Call) : RTPPayloadVP8 := parse e.vp8 e.buf e.len

def Call.fragment (e : Call) : Fragment where
  number := RtpHeader.getSeqNumber e.buf 0
  start := e.payload.beginningOfPartition
  marker := RtpHeader.getMarker e.buf 0
  payload := e.buf.bytes e.payload.data e.payload.dataLength

/-- The length of the payload fits an `int`. -/
def Call.Valid (e : Call) : Prop := e.payload.dataLength < 2 ^ 31

def step (o : ExternalOutput) (e : Call) : Option (Option AVPacket × ExternalOutput) :=
  o.writeVideoData e.vp8 e.buf e.len e.stream

/-- The start of a frame is not put behind bytes that an earlier frame has left in the buffer. -/
def Meets (o : ExternalOutput) (e : Call) : Prop :=
  o.vp8SearchState = .lookingForStart → 0 < o.unpackagedSize →
    e.fragment.number.toNat = o.lastVideoSequenceNumber.toNat + 1 →
    e.fragment.start = true → e.fragment.marker = true

/-- The write pointer is behind the bytes counted, and they are inside the buffer. -/
structure Inv (o : ExternalOutput) : Prop where
  pointer : o.unpackagedBufferpart = o.unpackagedSize
  bound : o.unpackagedSize < unpackageBufferSize

def contents (o : ExternalOutput) : List UInt8 := o.unpackagedBuffer.bytes 0 o.unpackagedSize

def Collects (o : ExternalOutput) (past : List Fragment) : Prop :=
  o.vp8SearchState = .lookingForEnd →
    ∃ run, run <:+ past ∧ IsOpen run o.lastVideoSequenceNumber o.contents

variable {o : ExternalOutput} {e : Call} {past : List Fragment}

theorem inv_of_size (hp : o.unpackagedBufferpart = 0) (hs : o.unpackagedSize = 0) : Inv o :=
  ⟨hp.trans hs.symm, by simp [hs, unpackageBufferSize]⟩

/-- The payload is behind the contents, and the rest is as it was. -/
structure Appended (o : ExternalOutput) (e : Call) (o' : ExternalOutput) : Prop where
  inv : Inv o'
  contents : o'.contents = o.contents ++ e.fragment.payload
  state : o'.vp8SearchState = o.vp8SearchState
  number : o'.lastVideoSequenceNumber = o.lastVideoSequenceNumber
  stream : o'.videoStream = o.videoStream

theorem append_room (hi : Inv o) (hroom : e.payload.dataLength + o.unpackagedSize < unpackageBufferSize) :
    ∃ o', o.append e.buf e.payload = some (true, o') ∧ Appended o e o' := by
  have hp := hi.pointer
  have hb := hi.bound
  have hmod : (e.payload.dataLength + o.unpackagedSize) % 2 ^ 32 =
      e.payload.dataLength + o.unpackagedSize := by
    unfold unpackageBufferSize at hroom
    exact Nat.mod_eq_of_lt (by omega)
  have hfit : ¬unpackageBufferSize < o.unpackagedBufferpart + e.payload.dataLength := by omega
  simp only [append, bufferCheck, hmod, if_neg (Nat.not_le.mpr hroom), if_neg hfit]
  refine ⟨_, rfl, ⟨?_, ?_⟩, ?_, rfl, rfl, rfl⟩
  · exact congrArg (· + e.payload.dataLength) hp
  · rwa [Nat.add_comm] at hroom
  · have h := Mem.bytes_copy_append (m := o.unpackagedBuffer) (p := 0) o.unpackagedSize
      e.fragment.payload
    rw [Nat.zero_add, ← hp] at h
    simpa [ExternalOutput.contents, Call.fragment, hp] using h

/-- The payload is put behind the contents, or there is no room and the buffer is emptied. -/
theorem append_cases (hi : Inv o) (hv : e.Valid) :
    o.append e.buf e.payload = some (false, { o.reset with vp8SearchState := .lookingForStart }) ∨
    ∃ o', o.append e.buf e.payload = some (true, o') ∧ Appended o e o' := by
  by_cases hfit : e.payload.dataLength + o.unpackagedSize < unpackageBufferSize
  · exact .inr (append_room hi hfit)
  · left
    have hb := hi.bound
    unfold Call.Valid at hv
    unfold unpackageBufferSize at hb
    have hmod : (e.payload.dataLength + o.unpackagedSize) % 2 ^ 32 =
        e.payload.dataLength + o.unpackagedSize := Nat.mod_eq_of_lt (by omega)
    simp only [append, bufferCheck, hmod, if_pos (Nat.not_lt.mp hfit)]

theorem suffix_single (f : Fragment) : [f] <:+ past ++ [f] := List.suffix_append past [f]

theorem suffix_concat {run : List Fragment} (h : run <:+ past) (f : Fragment) :
    run ++ [f] <:+ past ++ [f] := by
  obtain ⟨t, rfl⟩ := h
  exact ⟨t, by simp⟩

/-- What the search leaves behind: a frame to deliver, a frame so far, or neither. -/
structure Found (o' : ExternalOutput) (deliver : Bool) (past : List Fragment) : Prop where
  frame : deliver = true → o'.vp8SearchState = .lookingForStart ∧
    ∃ run, run <:+ past ∧ IsFrame run o'.contents
  collects : o'.Collects past

theorem found_of_lookingForStart {o' : ExternalOutput} (h : o'.vp8SearchState = .lookingForStart) :
    Found o' false past := by
  constructor
  · intro hd
    cases hd
  · intro he
    rw [h] at he
    cases he

/-- The search is defined, keeps the pointer and the number, and leaves what it should when the packet
follows what is in the buffer. -/
structure Searches (o : ExternalOutput) (e : Call) (past : List Fragment) (deliver : Bool)
    (o' : ExternalOutput) : Prop where
  inv : Inv o'
  number : o'.lastVideoSequenceNumber = o.lastVideoSequenceNumber
  found : o.lastVideoSequenceNumber = e.fragment.number →
    (o.vp8SearchState = .lookingForStart → o.unpackagedSize = 0 ∨
      ¬(e.fragment.start = true ∧ e.fragment.marker = false)) →
    (o.vp8SearchState = .lookingForEnd → ∃ run last, run <:+ past ∧ e.fragment.number = last + 1 ∧
      IsOpen run last o.contents) →
    Found o' deliver (past ++ [e.fragment])

theorem contents_of_size {o : ExternalOutput} (h : o.unpackagedSize = 0) : o.contents = [] := by
  simp [contents, h, Mem.bytes]

theorem search_whole (hv : e.Valid) (hs : e.fragment.start = true) (hm : e.fragment.marker = true)
    (past : List Fragment) :
    ∃ d o', append { o.reset with vp8SearchState := .lookingForStart } e.buf e.payload = some (d, o') ∧
      Searches o e past d o' := by
  rcases append_cases (o := { o.reset with vp8SearchState := .lookingForStart }) (inv_of_size rfl rfl) hv with h | ⟨o', h, hi', hc, hst, hn, -⟩
  · exact ⟨_, _, h, inv_of_size rfl rfl, rfl, fun _ _ _ => found_of_lookingForStart rfl⟩
  · refine ⟨_, _, h, hi', hn, fun _ _ _ => ⟨fun _ => ⟨hst, [e.fragment], suffix_single _, ?_⟩, ?_⟩⟩
    · rw [hc, contents_of_size rfl]
      exact isFrame_single hs hm
    · intro he
      rw [hst] at he
      cases he

/-- The first packet of a frame, in an empty buffer. -/
theorem search_first {o₁ : ExternalOutput} (hi : Inv o₁) (hv : e.Valid) (hs : e.fragment.start = true)
    (hm : e.fragment.marker = false) (hn : o₁.lastVideoSequenceNumber = o.lastVideoSequenceNumber)
    (hsize : (o.vp8SearchState = .lookingForStart → o.unpackagedSize = 0 ∨
      ¬(e.fragment.start = true ∧ e.fragment.marker = false)) → o₁.unpackagedSize = 0)
    (past : List Fragment) :
    ∃ ok o', o₁.append e.buf e.payload = some (ok, o') ∧
      (ok = true → o'.vp8SearchState = o₁.vp8SearchState) ∧
      Searches o e past false (if ok then { o' with vp8SearchState := .lookingForEnd } else o') := by
  rcases append_cases hi hv with h | ⟨o', h, hi', hc, hst, hn', -⟩
  · exact ⟨_, _, h, nofun, inv_of_size rfl rfl, hn, fun _ _ _ => found_of_lookingForStart rfl⟩
  · refine ⟨_, _, h, fun _ => hst, ⟨hi'.pointer, hi'.bound⟩, hn'.trans hn, ?_⟩
    intro hnum hclean _
    constructor
    · intro hd
      cases hd
    · intro _
      refine ⟨[e.fragment], suffix_single _, ?_⟩
      have hcont : o'.contents = e.fragment.payload := by
        rw [hc, contents_of_size (hsize hclean), List.nil_append]
      have hlast : o'.lastVideoSequenceNumber = e.fragment.number := (hn'.trans hn).trans hnum
      change IsOpen [e.fragment] o'.lastVideoSequenceNumber o'.contents
      rw [hcont, hlast]
      exact isOpen_single hs hm

theorem search_middle (hi : Inv o) (hv : e.Valid) (hm : e.fragment.marker = false)
    (hst : o.vp8SearchState = .lookingForEnd) (past : List Fragment) :
    ∃ ok o', o.append e.buf e.payload = some (ok, o') ∧ Searches o e past false o' := by
  rcases append_cases hi hv with h | ⟨o', h, hi', hc, hst', hn, -⟩
  · exact ⟨_, _, h, inv_of_size rfl rfl, rfl, fun _ _ _ => found_of_lookingForStart rfl⟩
  · refine ⟨_, _, h, hi', hn, ?_⟩
    intro hnum _ hopen
    obtain ⟨run, last, hrun, hnext, ho⟩ := hopen hst
    constructor
    · intro hd
      cases hd
    · intro _
      refine ⟨run ++ [e.fragment], suffix_concat hrun _, ?_⟩
      rw [hn, hnum, hc]
      exact ho.extend hnext hm

theorem search_last (hi : Inv o) (hv : e.Valid) (hm : e.fragment.marker = true)
    (hst : o.vp8SearchState = .lookingForEnd) (past : List Fragment) :
    ∃ d o', append { o with vp8SearchState := .lookingForStart } e.buf e.payload = some (d, o') ∧
      Searches o e past d o' := by
  have hi₁ : Inv { o with vp8SearchState := .lookingForStart } := ⟨hi.pointer, hi.bound⟩
  rcases append_cases hi₁ hv with h | ⟨o', h, hi', hc, hst', hn, -⟩
  · exact ⟨_, _, h, inv_of_size rfl rfl, rfl, fun _ _ _ => found_of_lookingForStart rfl⟩
  · refine ⟨_, _, h, hi', hn, ?_⟩
    intro _ _ hopen
    obtain ⟨run, last, hrun, hnext, ho⟩ := hopen hst
    constructor
    · intro _
      refine ⟨hst', run ++ [e.fragment], suffix_concat hrun _, ?_⟩
      rw [hc]
      exact ho.close hnext hm
    · intro he
      rw [hst'] at he
      cases he

private theorem searches_reset (hst : o.vp8SearchState = .lookingForStart) (past : List Fragment) :
    Searches o e past false o.reset := by
  refine ⟨inv_of_size rfl rfl, rfl, fun _ _ _ => ?_⟩
  exact found_of_lookingForStart hst

theorem search_spec (hi : Inv o) (hv : e.Valid) (past : List Fragment) :
    ∃ d o', o.search e.buf e.payload e.fragment.start e.fragment.marker = some (d, o') ∧
      Searches o e past d o' := by
  cases hst : o.vp8SearchState with
  | lookingForStart =>
    have hreset : o.reset = { o.reset with vp8SearchState := .lookingForStart } := by
      simp only [reset, hst]
    cases hs : e.fragment.start with
    | false =>
      refine ⟨false, o.reset, ?_, searches_reset hst past⟩
      cases hm : e.fragment.marker <;> simp only [search, hst]
    | true =>
      cases hm : e.fragment.marker with
      | false =>
        obtain ⟨ok, o', h, -, hsearch⟩ := search_first hi hv hs hm rfl
          (fun hclean => (hclean hst).resolve_right (fun hno => hno ⟨hs, hm⟩)) past
        exact ⟨_, _, by simp only [search, hst, h, Option.map_some], hsearch⟩
      | true =>
        obtain ⟨d, o', h, hsearch⟩ := search_whole hv hs hm past
        exact ⟨d, o', by rw [← hreset] at h; simp only [search, hst, h], hsearch⟩
  | lookingForEnd =>
    cases hs : e.fragment.start with
    | false =>
      cases hm : e.fragment.marker with
      | false =>
        obtain ⟨ok, o', h, hsearch⟩ := search_middle hi hv hm hst past
        exact ⟨_, _, by simp only [search, hst, h, Option.map_some], hsearch⟩
      | true =>
        obtain ⟨d, o', h, hsearch⟩ := search_last hi hv hm hst past
        exact ⟨d, o', by simp only [search, hst, h], hsearch⟩
    | true =>
      cases hm : e.fragment.marker with
      | false =>
        have hi₀ : Inv o.reset := inv_of_size rfl rfl
        obtain ⟨ok, o', h, hsame, hsearch⟩ := search_first (o := o) hi₀ hv hs hm rfl (fun _ => rfl) past
        refine ⟨false, o', by simp only [search, hst, h, Option.map_some], ?_⟩
        cases ok with
        | false => exact hsearch
        | true =>
          have heta : { o' with vp8SearchState := .lookingForEnd } = o' := by
            rw [← (hsame rfl).trans hst]
          rwa [if_pos rfl, heta] at hsearch
      | true =>
        obtain ⟨d, o', h, hsearch⟩ := search_whole hv hs hm past
        exact ⟨d, o', by simp only [search, hst, h], hsearch⟩

/-- The packet is written when there is a stream, and the buffer is emptied then. -/
theorem deliverFrame_cases (hi : Inv o) (deliver : Bool) (timestamp : ℕ) :
    o.deliverFrame deliver timestamp = some (none, o) ∨
    ∃ pkt, deliver = true ∧ pkt.data = o.contents ∧
      o.deliverFrame deliver timestamp = some (some pkt, o.reset) := by
  have hp := hi.pointer
  unfold deliverFrame
  cases o.videoStream with
  | none => exact .inl rfl
  | some den =>
    cases deliver with
    | false => exact .inl rfl
    | true =>
      right
      refine ⟨⟨o.contents, o.timestampToWrite den timestamp⟩, rfl, rfl, ?_⟩
      simp [contents, hp]

/-- What a call leaves when what was in the buffer before it was in order. -/
structure Writes (o : ExternalOutput) (e : Call) (past : List Fragment) (r : Option AVPacket)
    (o' : ExternalOutput) : Prop where
  inv : Inv o'
  collects : Meets o e → o.Collects past → o'.Collects (past ++ [e.fragment])
  frame : Meets o e → o.Collects past → ∀ pkt, r = some pkt →
    ∃ run, run <:+ past ++ [e.fragment] ∧ IsFrame run pkt.data

theorem inv_checkSequence (hi : Inv o) (n : UInt16) : Inv (o.checkSequence n) := by
  unfold checkSequence
  split_ifs
  · exact inv_of_size rfl rfl
  · exact ⟨hi.pointer, hi.bound⟩

/-- A packet whose number does not follow finds the buffer empty. -/
theorem checkSequence_cases (o : ExternalOutput) (n : UInt16) :
    (o.checkSequence n).lastVideoSequenceNumber = n ∧
    (((o.checkSequence n).vp8SearchState = .lookingForStart ∧ (o.checkSequence n).unpackagedSize = 0) ∨
    (n.toNat = o.lastVideoSequenceNumber.toNat + 1 ∧ n = o.lastVideoSequenceNumber + 1 ∧
      (o.checkSequence n).vp8SearchState = o.vp8SearchState ∧
      (o.checkSequence n).unpackagedSize = o.unpackagedSize ∧
      (o.checkSequence n).contents = o.contents)) := by
  unfold checkSequence
  split_ifs with h
  · exact ⟨rfl, .inl ⟨rfl, rfl⟩⟩
  · have hn : n.toNat = o.lastVideoSequenceNumber.toNat + 1 := not_not.mp h
    refine ⟨rfl, .inr ⟨hn, ?_, rfl, rfl, rfl⟩⟩
    apply UInt16.toNat_inj.mp
    have hlt := n.toNat_lt
    rw [UInt16.toNat_add, UInt16.toNat_one, hn, Nat.mod_eq_of_lt (by omega)]

/-- The conditions of a call carry over the check of the number. -/
theorem searches_found {d : Bool} {o' : ExternalOutput} {n : ℕ}
    (hs : Searches ((o.checkSequence e.fragment.number).noteTimestamp n) e past d o') (hm : Meets o e)
    (hc : o.Collects past) : Found o' d (past ++ [e.fragment]) := by
  obtain ⟨hlast, hcases⟩ := checkSequence_cases o e.fragment.number
  apply hs.found hlast
  · intro hst
    rcases hcases with ⟨-, hsize⟩ | ⟨hnum, -, hst', hsize, -⟩
    · exact .inl hsize
    · by_cases hz : o.unpackagedSize = 0
      · exact .inl (hsize.trans hz)
      · right
        rintro ⟨hstart, hmark⟩
        have := hm (hst'.symm.trans hst) (Nat.pos_of_ne_zero hz) hnum hstart
        rw [hmark] at this
        cases this
  · intro hst
    rcases hcases with ⟨hst', -⟩ | ⟨-, hnext, hst', -, hcont⟩
    · exact absurd (hst'.symm.trans hst) (by decide)
    · obtain ⟨run, hrun, ho⟩ := hc (hst'.symm.trans hst)
      refine ⟨run, o.lastVideoSequenceNumber, hrun, hnext, ?_⟩
      change IsOpen run o.lastVideoSequenceNumber (o.checkSequence e.fragment.number).contents
      rwa [hcont]

theorem step_eq (o : ExternalOutput) (e : Call) : step o e =
    (((o.checkSequence e.fragment.number).noteTimestamp (e.buf.long 4)).search e.buf e.payload
      e.fragment.start e.fragment.marker).bind fun p =>
        (p.2.initContext e.stream).deliverFrame p.1 (e.buf.long 4) := rfl

private theorem step_writes (hi : Inv o) (hv : e.Valid) (past : List Fragment) :
    ∃ r o', step o e = some (r, o') ∧ Writes o e past r o' := by
  have hi₁ := inv_checkSequence hi e.fragment.number
  have hi₂ : Inv ((o.checkSequence e.fragment.number).noteTimestamp (e.buf.long 4)) :=
    ⟨hi₁.pointer, hi₁.bound⟩
  obtain ⟨d, o₃, hsearch, hs⟩ := search_spec hi₂ hv past
  have hstep : step o e = (o₃.initContext e.stream).deliverFrame d (e.buf.long 4) := by
    rw [step_eq, hsearch]
    rfl
  have hi₃ : Inv (o₃.initContext e.stream) := ⟨hs.inv.pointer, hs.inv.bound⟩
  rw [hstep]
  rcases deliverFrame_cases hi₃ d (e.buf.long 4) with h | ⟨pkt, hd, hdata, h⟩
  · refine ⟨_, _, h, hi₃, ?_, ?_⟩
    · intro hm hc
      exact (searches_found hs hm hc).collects
    · intro _ _ pkt hpkt
      cases hpkt
  · refine ⟨_, _, h, inv_of_size rfl rfl, ?_, ?_⟩
    · intro hm hc he
      have hst := ((searches_found hs hm hc).frame hd).1
      exact absurd (hst.symm.trans he) (by decide)
    · intro hm hc pkt' hpkt
      obtain rfl : pkt = pkt' := by simpa using hpkt
      rw [hdata]
      exact ((searches_found hs hm hc).frame hd).2

/-- The packets of the calls. -/
def fragments (calls : List Call) : List Fragment := calls.map Call.fragment

theorem run_writes {calls : List Call} (hi : Inv o) (hv : ∀ e ∈ calls, e.Valid) (past : List Fragment) :
    ∃ outs o', run? step o calls = some (outs, o') ∧ Inv o' ∧
      (o.Collects past → Along step Meets o calls → ∀ k pkt, outs[k]? = some (some pkt) →
        ∃ run, run <:+ past ++ fragments (calls.take (k + 1)) ∧ IsFrame run pkt.data) := by
  induction calls generalizing o past with
  | nil => exact ⟨[], o, rfl, hi, by simp⟩
  | cons e es ih =>
    obtain ⟨r, o₁, hs, hw⟩ := step_writes hi (hv e List.mem_cons_self) past
    obtain ⟨outs, o₂, hr, hi₂, hframes⟩ :=
      ih hw.inv (fun e' he' => hv e' (List.mem_cons_of_mem _ he')) (past ++ [e.fragment])
    refine ⟨r :: outs, o₂, by rw [run?_cons es hs, hr]; rfl, hi₂, ?_⟩
    intro hc hm k pkt hk
    cases k with
    | zero =>
      obtain rfl : r = some pkt := by simpa using hk
      simpa [fragments] using hw.frame hm.1 hc pkt rfl
    | succ k =>
      have h := hframes (hw.collects hm.1 hc) (hm.2 r o₁ hs) k pkt (by simpa using hk)
      simpa [fragments] using h

/-- From the constructed object on, the pointer and the size agree after every call. As long as no start
of a frame is put behind the bytes of an earlier one, every buffer written is one frame, which ends with
the packet of the call. -/
theorem writes_frames {calls : List Call} (hstate : o.vp8SearchState = .lookingForStart)
    (hpart : o.unpackagedBufferpart = 0) (hsize : o.unpackagedSize = 0) (hv : ∀ e ∈ calls, e.Valid) :
    ∃ outs o', run? step o calls = some (outs, o') ∧
      o'.unpackagedBufferpart = o'.unpackagedSize ∧ o'.unpackagedSize < unpackageBufferSize ∧
      (Along step Meets o calls → ∀ k pkt, outs[k]? = some (some pkt) →
        ∃ run, run <:+ fragments (calls.take (k + 1)) ∧ IsFrame run pkt.data) := by
  obtain ⟨outs, o', hr, hi, hframes⟩ := run_writes (inv_of_size hpart hsize) hv []
  refine ⟨outs, o', hr, hi.pointer, hi.bound, hframes ?_⟩
  intro he
  rw [hstate] at he
  cases he

/-- A call with a packet of one byte of payload. -/
def Call.ofByte (number : UInt16) (start marker : Bool) (byte : UInt8) (stream : Option ℤ) : Call :=
  { vp8 := .zero, buf := vp8Packet number marker (if start then 0x10 else 0) byte, len := 14, stream }

/-- The stream is made during the second frame, of two packets. -/
theorem writes_frames_two :
    ∃ outs o', run? step (new (fun _ => 0) 0) [.ofByte 1 true true 7 none, .ofByte 3 true false 8 none,
        .ofByte 4 false true 9 (some 1000)] = some (outs, o') ∧
      o'.unpackagedBufferpart = o'.unpackagedSize ∧ o'.unpackagedSize < unpackageBufferSize ∧
      ∀ k pkt, outs[k]? = some (some pkt) →
        ∃ run, run <:+ fragments ([.ofByte 1 true true 7 none, .ofByte 3 true false 8 none,
          .ofByte 4 false true 9 (some 1000)].take (k + 1)) ∧ IsFrame run pkt.data := by
  have hv : ∀ e ∈ [Call.ofByte 1 true true 7 none, .ofByte 3 true false 8 none,
      .ofByte 4 false true 9 (some 1000)], e.Valid := by
    simp only [List.forall_mem_cons, List.not_mem_nil, false_imp_iff, implies_true, and_true, Call.Valid]
    decide
  obtain ⟨outs, o', hr, hp, hb, hf⟩ := writes_frames (o := new (fun _ => 0) 0) rfl rfl rfl hv
  refine ⟨outs, o', hr, hp, hb, hf ?_⟩
  refine .cons ?_ rfl (.cons ?_ rfl (.cons ?_ rfl trivial))
  · exact fun _ hpos => absurd hpos (by decide)
  · exact fun _ _ hn => absurd hn (by decide)
  · exact fun hst => absurd hst (by decide)

/-- A frame that finds no stream is left in the buffer, and the next one is put behind it. -/
theorem not_frames_stale :
    ¬ ∀ calls : List Call, (∀ e ∈ calls, e.Valid) →
      ∀ outs o', run? step (new (fun _ => 0) 0) calls = some (outs, o') →
      ∀ k pkt, outs[k]? = some (some pkt) →
        ∃ run, run <:+ fragments (calls.take (k + 1)) ∧ IsFrame run pkt.data := by
  intro h
  have hr : (run? step (new (fun _ => 0) 0) [.ofByte 1 true true 7 none, .ofByte 2 true false 8 none,
      .ofByte 3 false true 9 (some 1000)]).map (fun p => p.1.map (Option.map AVPacket.data)) =
      some [none, none, some [7, 8, 9]] := by decide
  obtain ⟨⟨outs, o'⟩, hrun, ho⟩ := Option.map_eq_some_iff.mp hr
  have hk : (outs.map (Option.map AVPacket.data))[2]? = some (some [7, 8, 9]) := by rw [ho]; rfl
  rw [List.getElem?_map] at hk
  obtain ⟨r, hout, hr'⟩ := Option.map_eq_some_iff.mp hk
  obtain ⟨pkt, rfl, hdata⟩ := Option.map_eq_some_iff.mp hr'
  obtain ⟨run, hsuf, hf⟩ := h _ (by
    simp only [List.forall_mem_cons, List.not_mem_nil, false_imp_iff, implies_true, and_true, Call.Valid]
    decide) outs o' hrun 2 pkt hout
  have hbytes := hf.data
  rw [hdata] at hbytes
  obtain ⟨init, f, hinit, -, hmark⟩ := hf.marker
  have htail : run <:+ [(Call.ofByte 1 true true 7 none).fragment,
      (Call.ofByte 2 true false 8 none).fragment, (Call.ofByte 3 false true 9 (some 1000)).fragment] := hsuf
  simp only [List.suffix_cons_iff, List.suffix_nil] at htail
  rcases htail with rfl | rfl | rfl | rfl
  · have hlast := congrArg List.dropLast hinit
    rw [List.dropLast_concat] at hlast
    have hfirst := hmark (Call.ofByte 1 true true 7 none).fragment (by rw [← hlast]; exact List.mem_cons_self)
    exact absurd hfirst (by decide)
  · exact absurd hbytes (by decide)
  · exact absurd hbytes (by decide)
  · exact absurd hbytes (by decide)

end ExternalOutput
end Sfup.Media
