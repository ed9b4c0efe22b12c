import Sfup.Media.Packaging

/-! Reassembly undoes packaging, unless the numbers of a frame's packets go round. -/
namespace Sfup.Media
open Sfup.Rtp Sfup.Transition RtpVP8Fragmenter

/-- The payloads of a frame as packets with successive numbers; `first` is the start bit of the first. -/
def numbered (first : Bool) (n : UInt16) : List (List UInt8) → List Fragment
  | [] => []
  | c :: cs => ⟨n, first, cs.isEmpty, c⟩ :: numbered false (n + 1) cs

/-! ## The packets of a frame -/

section Packets

variable {data : List UInt8}

def slice (data : List UInt8) (q : Piece) : List UInt8 := (data.drop q.position).take q.size

/-- What the fragmenter makes of the bytes from `pos` on. -/
def slices (data : List UInt8) (fuel remaining pos : ℕ) : List (List UInt8) :=
  (calculatePackets fuel remaining pos).map (slice data)

theorem calculatePackets_zero (fuel pos : ℕ) : calculatePackets fuel 0 pos = [] := by
  cases fuel <;> simp [calculatePackets]

theorem calculatePackets_pos {fuel remaining pos : ℕ} (h : 0 < remaining) :
    calculatePackets (fuel + 1) remaining pos = ⟨pos, min 1099 remaining, decide (pos = 0)⟩ ::
      calculatePackets fuel (remaining - min 1099 remaining) (pos + min 1099 remaining) := by
  have hmin : (if remaining > 1099 then 1099 else remaining) = min 1099 remaining := by
    split_ifs <;> omega
  simp only [calculatePackets, if_pos h, hmin]

theorem length_slice {pos remaining : ℕ} (hdata : data.length = pos + remaining) (first : Bool) :
    (slice data ⟨pos, min 1099 remaining, first⟩).length = min 1099 remaining := by
  simp [slice, hdata]

theorem slices_spec {fuel remaining pos : ℕ} (hdata : data.length = pos + remaining)
    (hf : remaining ≤ fuel) :
    (slices data fuel remaining pos).flatten = data.drop pos ∧
      (slices data fuel remaining pos).length = (remaining + 1098) / 1099 := by
  induction fuel generalizing remaining pos with
  | zero =>
    have hz : remaining = 0 := by omega
    subst hz
    simp [slices, calculatePackets_zero, hdata]
  | succ fuel ih =>
    by_cases h : 0 < remaining
    · have hmin : 0 < min 1099 remaining := by omega
      have hrest : data.length = pos + min 1099 remaining + (remaining - min 1099 remaining) := by omega
      obtain ⟨hfl, hlen⟩ := ih hrest (by omega)
      unfold slices at hfl hlen ⊢
      rw [calculatePackets_pos h, List.map_cons, List.flatten_cons, List.length_cons, hfl, hlen]
      constructor
      · rw [slice, ← List.drop_drop, List.take_append_drop]
      · omega
    · have hz : remaining = 0 := by omega
      subst hz
      simp [slices, calculatePackets_zero, hdata]

theorem packageLoop_cons (timestamp : UInt32) (q : Piece) (rest : List Piece) (p : OutputProcessor) :
    (OutputProcessor.packageLoop timestamp data (q :: rest) p).1 =
      (OutputProcessor.packet p.rtpBuffer rest.isEmpty q.first p.seqnum timestamp (slice data q),
        (slice data q).length + 1 + 12) ::
      (OutputProcessor.packageLoop timestamp data rest { p with
        seqnum := p.seqnum + 1
        rtpBuffer := OutputProcessor.packet p.rtpBuffer rest.isEmpty q.first p.seqnum timestamp
          (slice data q) }).1 := by
  simp only [OutputProcessor.packageLoop,
    OutputProcessor.getHeaderLength_of_flags OutputProcessor.header_flags]
  rfl

open OutputProcessor ExternalOutput in
/-- The packets of a frame, as the reassembly reads them. -/
theorem fragments_packageLoop {fuel remaining pos : ℕ} {timestamp : UInt32} {p : OutputProcessor}
    {calls : List Call} (hdata : data.length = pos + remaining) (hf : remaining ≤ fuel)
    (hc : calls.map (fun e => (e.buf, e.len)) =
      (packageLoop timestamp data (calculatePackets fuel remaining pos) p).1) :
    fragments calls = numbered (decide (pos = 0)) p.seqnum.toUInt16 (slices data fuel remaining pos) := by
  induction fuel generalizing remaining pos p calls with
  | zero =>
    have hz : remaining = 0 := by omega
    subst hz
    simp only [calculatePackets_zero, packageLoop, List.map_eq_nil_iff] at hc
    simp [hc, slices, calculatePackets_zero, numbered, fragments]
  | succ fuel ih =>
    by_cases h : 0 < remaining
    · have hmin : 0 < min 1099 remaining := by omega
      rw [calculatePackets_pos h, packageLoop_cons] at hc
      obtain ⟨e, es, rfl, he, hes⟩ := List.map_eq_cons_iff.mp hc
      obtain ⟨hb, hl⟩ := Prod.mk.inj he
      have hlen := length_slice hdata (decide (pos = 0))
      have hne : slice data ⟨pos, min 1099 remaining, decide (pos = 0)⟩ ≠ [] := by
        apply List.ne_nil_of_length_pos
        omega
      have htail := ih (by omega) (by omega) hes
      rw [UInt32.toUInt16_add, decide_eq_false (by omega)] at htail
      unfold fragments slices at htail ⊢
      rw [calculatePackets_pos h, List.map_cons, List.map_cons, numbered, htail,
        Call.fragment_packet hne hb hl, List.isEmpty_map]
      rfl
    · have hz : remaining = 0 := by omega
      subst hz
      simp only [calculatePackets_zero, packageLoop, List.map_eq_nil_iff] at hc
      simp [hc, slices, calculatePackets_zero, numbered, fragments]

end Packets

namespace ExternalOutput

/-! ## The steps of the reassembly -/

variable {o : ExternalOutput} {e : Call}

theorem dataLength_eq (e : Call) : e.payload.dataLength = e.fragment.payload.length := by
  simp [Call.fragment]

def checked (o : ExternalOutput) (e : Call) : ExternalOutput :=
  (o.checkSequence e.fragment.number).noteTimestamp (e.buf.long 4)

theorem step_of_search_false {o₁ : ExternalOutput}
    (h : (o.checked e).search e.buf e.payload e.fragment.start e.fragment.marker = some (false, o₁)) :
    step o e = some (none, o₁.initContext e.stream) := by
  unfold checked at h
  rw [step_eq, h, Option.bind_some]
  unfold deliverFrame
  split <;> rfl

theorem step_of_search_true {o₁ : ExternalOutput}
    (h : (o.checked e).search e.buf e.payload e.fragment.start e.fragment.marker = some (true, o₁))
    (hi : Inv o₁) (hs : o₁.videoStream.isSome = true) :
    ∃ pkt o', step o e = some (some pkt, o') ∧ pkt.data = o₁.contents := by
  unfold checked at h
  rw [step_eq, h, Option.bind_some]
  obtain ⟨den, hden⟩ := Option.isSome_iff_exists.mp hs
  have hi' : Inv (o₁.initContext e.stream) := ⟨hi.pointer, hi.bound⟩
  rcases deliverFrame_cases hi' true (e.buf.long 4) with hd | ⟨pkt, -, hdata, hd⟩
  · simp [deliverFrame, initContext, hden, hi.pointer] at hd
  · exact ⟨pkt, _, hd, hdata⟩

theorem step_skip (hst : (o.checked e).vp8SearchState = .lookingForStart)
    (hs : e.fragment.start = false) :
    ∃ o', step o e = some (none, o') ∧ o'.vp8SearchState = .lookingForStart := by
  have h : (o.checked e).search e.buf e.payload e.fragment.start e.fragment.marker =
      some (false, (o.checked e).reset) := by
    rw [hs]
    cases e.fragment.marker <;> simp only [search, hst]
  exact ⟨_, step_of_search_false h, hst⟩

/-- A frame is looked for in an empty buffer, and there is a stream. -/
structure Empty (o : ExternalOutput) : Prop where
  state : o.vp8SearchState = .lookingForStart
  part : o.unpackagedBufferpart = 0
  size : o.unpackagedSize = 0
  stream : o.videoStream.isSome = true

/-- The first bytes of a frame are in the buffer. -/
structure Collecting (o : ExternalOutput) (last : UInt16) (data : List UInt8) : Prop where
  inv : Inv o
  state : o.vp8SearchState = .lookingForEnd
  number : o.lastVideoSequenceNumber = last
  contents : o.contents = data
  stream : o.videoStream.isSome = true

theorem Empty.checked (h : Empty o) (e : Call) :
    Empty (o.checked e) ∧ (o.checked e).lastVideoSequenceNumber = e.fragment.number := by
  unfold ExternalOutput.checked checkSequence
  split_ifs
  · exact ⟨⟨rfl, rfl, rfl, h.stream⟩, rfl⟩
  · exact ⟨⟨h.state, h.part, h.size, h.stream⟩, rfl⟩

theorem Collecting.checked {last : UInt16} {data : List UInt8} (h : Collecting o last data)
    (hn : e.fragment.number.toNat = last.toNat + 1) :
    Collecting (o.checked e) e.fragment.number data := by
  rw [← h.number] at hn
  unfold ExternalOutput.checked checkSequence
  rw [if_neg (not_not.mpr hn)]
  exact ⟨⟨h.inv.pointer, h.inv.bound⟩, h.state, rfl, h.contents, h.stream⟩

theorem Empty.contents (h : Empty o) : o.contents = [] := contents_of_size h.size

theorem Empty.append (h : Empty o) (hroom : e.fragment.payload.length < unpackageBufferSize) :
    ∃ o', o.append e.buf e.payload = some (true, o') ∧ Appended o e o' := by
  apply append_room (inv_of_size h.part h.size)
  rw [h.size, dataLength_eq]
  exact hroom

theorem Collecting.append {last : UInt16} {data : List UInt8} (h : Collecting o last data)
    (hroom : data.length + e.fragment.payload.length < unpackageBufferSize) :
    e.payload.dataLength + o.unpackagedSize < unpackageBufferSize := by
  have hl := congrArg List.length h.contents
  rw [ExternalOutput.contents, Mem.length_bytes] at hl
  rw [dataLength_eq, hl]
  omega

theorem step_first (h : Empty o) (hs : e.fragment.start = true) (hm : e.fragment.marker = false)
    (hroom : e.fragment.payload.length < unpackageBufferSize) :
    ∃ o', step o e = some (none, o') ∧ Collecting o' e.fragment.number e.fragment.payload := by
  obtain ⟨h₁, hn⟩ := h.checked e
  obtain ⟨o₂, ha, happ⟩ := h₁.append hroom
  have hsearch : (o.checked e).search e.buf e.payload e.fragment.start e.fragment.marker =
      some (false, { o₂ with vp8SearchState := .lookingForEnd }) := by
    rw [hs, hm]
    simp only [search, h₁.state, ha, Option.map_some, if_true]
  refine ⟨_, step_of_search_false hsearch, ⟨happ.inv.pointer, happ.inv.bound⟩, rfl, happ.number.trans hn,
    ?_, ?_⟩
  · exact happ.contents.trans (by rw [h₁.contents, List.nil_append])
  · simp [initContext, happ.stream, h₁.stream]

theorem step_whole (h : Empty o) (hs : e.fragment.start = true) (hm : e.fragment.marker = true)
    (hroom : e.fragment.payload.length < unpackageBufferSize) :
    ∃ pkt o', step o e = some (some pkt, o') ∧ pkt.data = e.fragment.payload := by
  have h₁ := (h.checked e).1
  have h₂ : Empty (o.checked e).reset := ⟨h₁.state, rfl, rfl, h₁.stream⟩
  obtain ⟨o₂, ha, happ⟩ := h₂.append hroom
  have hsearch : (o.checked e).search e.buf e.payload e.fragment.start e.fragment.marker =
      some (true, o₂) := by
    rw [hs, hm]
    simp only [search, h₁.state, ha]
  obtain ⟨pkt, o', hstep, hdata⟩ := step_of_search_true hsearch happ.inv (by rw [happ.stream, h₂.stream])
  refine ⟨pkt, o', hstep, ?_⟩
  rw [hdata, happ.contents, h₂.contents, List.nil_append]

theorem step_middle {last : UInt16} {data : List UInt8} (h : Collecting o last data)
    (hn : e.fragment.number.toNat = last.toNat + 1) (hs : e.fragment.start = false)
    (hm : e.fragment.marker = false)
    (hroom : data.length + e.fragment.payload.length < unpackageBufferSize) :
    ∃ o', step o e = some (none, o') ∧
      Collecting o' e.fragment.number (data ++ e.fragment.payload) := by
  have h₁ := h.checked hn
  obtain ⟨o₂, ha, happ⟩ := append_room h₁.inv (h₁.append hroom)
  have hsearch : (o.checked e).search e.buf e.payload e.fragment.start e.fragment.marker =
      some (false, o₂) := by
    rw [hs, hm]
    simp only [search, h₁.state, ha, Option.map_some]
  refine ⟨_, step_of_search_false hsearch, ⟨happ.inv.pointer, happ.inv.bound⟩, happ.state.trans h₁.state,
    happ.number.trans h₁.number, ?_, ?_⟩
  · exact happ.contents.trans (by rw [h₁.contents])
  · simp [initContext, happ.stream, h₁.stream]

theorem step_last {last : UInt16} {data : List UInt8} (h : Collecting o last data)
    (hn : e.fragment.number.toNat = last.toNat + 1) (hs : e.fragment.start = false)
    (hm : e.fragment.marker = true)
    (hroom : data.length + e.fragment.payload.length < unpackageBufferSize) :
    ∃ pkt o', step o e = some (some pkt, o') ∧ pkt.data = data ++ e.fragment.payload := by
  have h₁ := h.checked hn
  have hi : Inv { o.checked e with vp8SearchState := .lookingForStart } := ⟨h₁.inv.pointer, h₁.inv.bound⟩
  obtain ⟨o₂, ha, happ⟩ := append_room hi (h₁.append hroom)
  have hsearch : (o.checked e).search e.buf e.payload e.fragment.start e.fragment.marker =
      some (true, o₂) := by
    rw [hs, hm]
    simp only [search, h₁.state, ha]
  obtain ⟨pkt, o', hstep, hdata⟩ := step_of_search_true hsearch happ.inv (happ.stream ▸ h₁.stream)
  refine ⟨pkt, o', hstep, ?_⟩
  rw [hdata, happ.contents]
  exact congrArg (· ++ e.fragment.payload) h₁.contents

/-! ## The runs over a frame's packets -/

/-- The buffers written. -/
def written (outs : List (Option AVPacket)) : List (List UInt8) := outs.filterMap (Option.map AVPacket.data)

private theorem checked_lookingForStart (hst : o.vp8SearchState = .lookingForStart) (e : Call) :
    (o.checked e).vp8SearchState = .lookingForStart := by
  unfold checked checkSequence
  split_ifs
  · rfl
  · exact hst

theorem checked_wrap (hn : e.fragment.number = 0) : (o.checked e).vp8SearchState = .lookingForStart := by
  unfold checked checkSequence
  rw [if_pos (by rw [hn, UInt16.toNat_zero]; omega)]
  rfl

theorem run?_output {calls : List Call} {r : Option AVPacket} {o₁ o₂ : ExternalOutput}
    {outs : List (Option AVPacket)} (hs : step o e = some (r, o₁))
    (hr : run? step o₁ calls = some (outs, o₂)) : run? step o (e :: calls) = some (r :: outs, o₂) := by
  rw [run?_cons calls hs, hr]
  rfl

theorem run_skip {calls : List Call} {n : UInt16} {cs : List (List UInt8)}
    (hst : o.vp8SearchState = .lookingForStart) (hc : fragments calls = numbered false n cs) :
    ∃ outs o', run? step o calls = some (outs, o') ∧ written outs = [] := by
  induction cs generalizing o n calls with
  | nil =>
    obtain rfl : calls = [] := List.map_eq_nil_iff.mp hc
    exact ⟨[], o, rfl, rfl⟩
  | cons c cs ih =>
    obtain ⟨e, es, rfl, he, hes⟩ := List.map_eq_cons_iff.mp hc
    obtain ⟨o₁, hs, hst₁⟩ := step_skip (checked_lookingForStart hst e) (by rw [he])
    obtain ⟨outs, o₂, hr, hw⟩ := ih hst₁ hes
    exact ⟨none :: outs, o₂, run?_output hs hr, hw⟩

/-- The rest of a frame is written if its numbers do not go round. -/
theorem run_rest {calls : List Call} {last : UInt16} {data : List UInt8} {cs : List (List UInt8)}
    (h : Collecting o last data) (hne : cs ≠ [])
    (hroom : data.length + cs.flatten.length < unpackageBufferSize)
    (hc : fragments calls = numbered false (last + 1) cs) :
    ∃ outs o', run? step o calls = some (outs, o') ∧
      written outs = if last.toNat + cs.length < 65536 then [data ++ cs.flatten] else [] := by
  induction cs generalizing o last data calls with
  | nil => exact absurd rfl hne
  | cons c cs ih =>
    obtain ⟨e, es, rfl, he, hes⟩ := List.map_eq_cons_iff.mp hc
    obtain ⟨hnum, hstart, hmark, hpay⟩ : e.fragment.number = last + 1 ∧ e.fragment.start = false ∧
        e.fragment.marker = cs.isEmpty ∧ e.fragment.payload = c := by simp [he]
    rw [List.flatten_cons, List.length_append] at hroom
    have hlast := last.toNat_lt
    by_cases hwrap : last.toNat + 1 < 65536
    · have hn : (last + 1).toNat = last.toNat + 1 := by
        rw [UInt16.toNat_add, UInt16.toNat_one, Nat.mod_eq_of_lt (by omega)]
      cases cs with
      | nil =>
        obtain rfl : es = [] := List.map_eq_nil_iff.mp hes
        obtain ⟨pkt, o₁, hs, hdata⟩ := step_last h (by rw [hnum, hn]) hstart (hmark.trans rfl)
          (by rw [hpay]; simpa using hroom)
        rw [hpay] at hdata
        refine ⟨[some pkt], o₁, run?_output hs rfl, ?_⟩
        simp [written, hwrap, hdata]
      | cons c' cs =>
        obtain ⟨o₁, hs, h₁⟩ := step_middle h (by rw [hnum, hn]) hstart (hmark.trans rfl)
          (by rw [hpay]; omega)
        rw [hnum, hpay] at h₁
        obtain ⟨outs, o₂, hr, hw⟩ := ih h₁ (by simp) (by rw [List.length_append]; omega) hes
        refine ⟨none :: outs, o₂, run?_output hs hr, ?_⟩
        have hcond : (last + 1).toNat + (c' :: cs).length < 65536 ↔
            last.toNat + (c :: c' :: cs).length < 65536 := by
          rw [hn, List.length_cons, List.length_cons, List.length_cons]
          omega
        simp only [hcond, List.append_assoc] at hw
        exact hw
    · have hz : last + 1 = 0 := by
        apply UInt16.toNat_inj.mp
        rw [UInt16.toNat_add, UInt16.toNat_one, UInt16.toNat_zero]
        omega
      obtain ⟨o₁, hs, hst⟩ := step_skip (checked_wrap (o := o) (hnum.trans hz)) hstart
      obtain ⟨outs, o₂, hr, hw⟩ := run_skip hst hes
      refine ⟨none :: outs, o₂, run?_output hs hr, ?_⟩
      rw [if_neg (by rw [List.length_cons]; omega)]
      exact hw

/-- A frame is written if its numbers do not go round. -/
theorem run_numbered {calls : List Call} {n : UInt16} {cs : List (List UInt8)} (h : Empty o)
    (hne : cs ≠ []) (hroom : cs.flatten.length < unpackageBufferSize)
    (hc : fragments calls = numbered true n cs) :
    ∃ outs o', run? step o calls = some (outs, o') ∧
      written outs = if n.toNat + cs.length ≤ 65536 then [cs.flatten] else [] := by
  cases cs with
  | nil => exact absurd rfl hne
  | cons c cs =>
    obtain ⟨e, es, rfl, he, hes⟩ := List.map_eq_cons_iff.mp hc
    obtain ⟨hnum, hstart, hmark, hpay⟩ : e.fragment.number = n ∧ e.fragment.start = true ∧
        e.fragment.marker = cs.isEmpty ∧ e.fragment.payload = c := by simp [he]
    rw [List.flatten_cons, List.length_append] at hroom
    have hn := n.toNat_lt
    cases cs with
    | nil =>
      obtain rfl : es = [] := List.map_eq_nil_iff.mp hes
      obtain ⟨pkt, o₁, hs, hdata⟩ := step_whole h hstart (hmark.trans rfl)
        (by rw [hpay]; simpa using hroom)
      rw [hpay] at hdata
      refine ⟨[some pkt], o₁, run?_output hs rfl, ?_⟩
      have hle : n.toNat + 1 ≤ 65536 := hn
      simp [written, hdata, hle]
    | cons c' cs =>
      obtain ⟨o₁, hs, h₁⟩ := step_first h hstart (hmark.trans rfl) (by rw [hpay]; omega)
      rw [hnum, hpay] at h₁
      obtain ⟨outs, o₂, hr, hw⟩ := run_rest h₁ (by simp) hroom hes
      refine ⟨none :: outs, o₂, run?_output hs hr, ?_⟩
      have hcond : n.toNat + (c' :: cs).length < 65536 ↔ n.toNat + (c :: c' :: cs).length ≤ 65536 := by
        rw [List.length_cons, List.length_cons, List.length_cons]
        omega
      simp only [hcond] at hw
      exact hw

end ExternalOutput

namespace OutputProcessor
open ExternalOutput

variable {p : OutputProcessor} {o : ExternalOutput} {frame : List UInt8} {timestamp : UInt32}
  {calls : List Call}

theorem run_packaged (hp : p.videoPackager = true) (hne : frame ≠ [])
    (hlen : frame.length < unpackageBufferSize) (ho : Empty o)
    (hc : calls.map (fun e => (e.buf, e.len)) = (p.packageVideo frame timestamp).1) :
    ∃ outs o', run? step o calls = some (outs, o') ∧
      written outs = if p.seqnum.toNat % 65536 + (frame.length + 1098) / 1099 ≤ 65536 then [frame] else [] := by
  have hempty : frame.isEmpty = false := by simpa using hne
  simp only [packageVideo, hp, hempty, Bool.not_true, Bool.or_false, Bool.false_eq_true, if_false] at hc
  have hall : frame.length = 0 + frame.length := (Nat.zero_add _).symm
  have hfr := fragments_packageLoop hall le_rfl hc
  obtain ⟨hflat, hcount⟩ := slices_spec hall le_rfl
  rw [List.drop_zero] at hflat
  obtain ⟨outs, o', hr, hw⟩ := run_numbered ho
    (by
      intro hnil
      rw [hnil] at hflat
      exact hne hflat.symm)
    (by rw [hflat]; exact hlen) hfr
  refine ⟨outs, o', hr, ?_⟩
  rw [hw, hflat, hcount, UInt32.toNat_toUInt16]

/-- Reassembly gives back the frame exactly when the numbers of its packets do not go from 65535 to 0,
and nothing otherwise. -/
theorem packageVideo_written_iff (hp : p.videoPackager = true) (hne : frame ≠ [])
    (hlen : frame.length < unpackageBufferSize) (ho : Empty o)
    (hc : calls.map (fun e => (e.buf, e.len)) = (p.packageVideo frame timestamp).1) :
    ∃ outs o', run? step o calls = some (outs, o') ∧
      (written outs = [frame] ↔ p.seqnum.toNat % 65536 + (frame.length + 1098) / 1099 ≤ 65536) ∧
      (¬p.seqnum.toNat % 65536 + (frame.length + 1098) / 1099 ≤ 65536 → written outs = []) := by
  obtain ⟨outs, o', hr, hw⟩ := run_packaged hp hne hlen ho hc
  refine ⟨outs, o', hr, ?_, ?_⟩
  · rw [hw]
    split_ifs with h <;> simp [h]
  · intro h
    rw [hw, if_neg h]

/-- The calls for the packets of a frame. -/
def callsOf (packets : List (Mem × ℕ)) : List Call :=
  packets.map fun b => { vp8 := .zero, buf := b.1, len := b.2, stream := none }

theorem map_callsOf (packets : List (Mem × ℕ)) :
    (callsOf packets).map (fun e => (e.buf, e.len)) = packets := by simp [callsOf, Function.comp_def]

/-- The packager, at a number. -/
def numberedFrom (seqnum : UInt32) : OutputProcessor := ⟨true, seqnum, fun _ => 0⟩

/-- The constructed output with a stream, after a packet with the given number. -/
def receivingFrom (last : UInt16) : ExternalOutput := { new (fun _ => 0) last with videoStream := some 1000 }

/-- A frame that needs two packets. -/
def twoPackets : List UInt8 := List.replicate 1100 7

theorem length_twoPackets : twoPackets.length = 1100 := List.length_replicate

theorem twoPackets_ne_nil : twoPackets ≠ [] := by
  apply List.ne_nil_of_length_pos
  rw [length_twoPackets]
  decide

theorem length_twoPackets_lt : twoPackets.length < unpackageBufferSize := by
  rw [length_twoPackets]
  decide

/-- The two packets take the last two numbers. -/
theorem packageVideo_written_two :
    ∃ outs o', run? step (receivingFrom 65533)
        (callsOf ((numberedFrom 65534).packageVideo twoPackets 0).1) = some (outs, o') ∧
      written outs = [twoPackets] := by
  have ho : Empty (receivingFrom 65533) := ⟨rfl, rfl, rfl, rfl⟩
  obtain ⟨outs, o', hr, hw, -⟩ := packageVideo_written_iff (p := numberedFrom 65534) rfl twoPackets_ne_nil
    length_twoPackets_lt ho (map_callsOf _)
  refine ⟨outs, o', hr, hw.mpr ?_⟩
  rw [length_twoPackets]
  decide

/-- The second packet has the number 0, which does not follow 65535 for the reassembly. -/
theorem not_written_wrap :
    ¬ ∃ outs o', run? step (receivingFrom 65534)
        (callsOf ((numberedFrom 65535).packageVideo twoPackets 0).1) = some (outs, o') ∧
      written outs = [twoPackets] := by
  rintro ⟨outs, o', hr, hw⟩
  have ho : Empty (receivingFrom 65534) := ⟨rfl, rfl, rfl, rfl⟩
  obtain ⟨outs', o'', hr', hw'⟩ := run_packaged (p := numberedFrom 65535) rfl twoPackets_ne_nil
    length_twoPackets_lt ho (map_callsOf _)
  obtain ⟨rfl, -⟩ := Prod.mk.inj (Option.some.inj (hr.symm.trans hr'))
  rw [hw', if_neg (by rw [length_twoPackets]; decide)] at hw
  cases hw

end OutputProcessor
end Sfup.Media
