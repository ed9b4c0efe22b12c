import Mathlib.Data.List.Infix
import Mathlib.Data.List.Count
import Mathlib.Data.Nat.Digits.Defs

/-! Occurrences of a pattern in a text: the first one, the ones found by a scan from the left, and what a replacement
can do to them. -/
namespace Sfup.Occurrences

variable {α : Type*}

section Infixes
variable {n w x v : List α}

theorem isInfix_iff_exists_drop : n <:+: w ↔ ∃ i, n <+: w.drop i := by
  constructor
  · rintro ⟨s, t, rfl⟩
    exact ⟨s.length, t, by simp⟩
  · rintro ⟨i, h⟩
    exact h.isInfix.trans (List.drop_suffix i w).isInfix

/-- No occurrence begins in `x` when `v` follows it. -/
def Inert (n x v : List α) : Prop := ∀ j < x.length, ¬ n <+: (x ++ v).drop j

instance [DecidableEq α] : Decidable (Inert n x v) := inferInstanceAs (Decidable (∀ j < x.length, _))

/-- A proper beginning of the pattern is an end of the replacement. -/
def RightOverlap (n r : List α) : Prop := ∃ x y z, y ≠ [] ∧ z ≠ [] ∧ r = x ++ y ∧ n = y ++ z

theorem rightOverlap_iff {n r : List α} : RightOverlap n r ↔ ∃ k < n.length, 0 < k ∧ n.take k <:+ r := by
  constructor
  · rintro ⟨x, y, z, hy, hz, rfl, rfl⟩
    have hypos := List.length_pos_iff.mpr hy
    have hzpos := List.length_pos_iff.mpr hz
    refine ⟨y.length, by rw [List.length_append]; omega, hypos, ?_⟩
    rw [List.take_left]
    exact List.suffix_append x y
  · rintro ⟨k, hlt, hpos, x, hx⟩
    refine ⟨x, n.take k, n.drop k, ?_, ?_, hx.symm, (List.take_append_drop k n).symm⟩
    · rw [← List.length_pos_iff, List.length_take]
      omega
    · rw [← List.length_pos_iff, List.length_drop]
      omega

instance [DecidableEq α] (n r : List α) : Decidable (RightOverlap n r) := decidable_of_iff _ rightOverlap_iff.symm

def LeftOverlap (n r : List α) : Prop := ∃ x y z, x ≠ [] ∧ y ≠ [] ∧ n = x ++ y ∧ r = y ++ z

def Dead (r w : List α) : Prop := ∃ y, y ≠ [] ∧ y <:+ r ∧ y <+: w

variable {r y : List α}

/-- Without an overlap the pattern and an end of the replacement do not begin at one place. -/
theorem not_isPrefix_of_dead (hnr : ¬ n <:+: r) (hover : ¬ RightOverlap n r) (hw : Dead r w) : ¬ n <+: w := by
  obtain ⟨y, hy, ⟨x, rfl⟩, hyw⟩ := hw
  intro hpre
  rcases List.prefix_or_prefix_of_prefix hpre hyw with h | ⟨z, rfl⟩
  · exact hnr (h.isInfix.trans (List.suffix_append x y).isInfix)
  · have hz : z ≠ [] := by
      rintro rfl
      rw [List.append_nil] at hnr
      exact hnr (List.suffix_append x y).isInfix
    exact hover ⟨x, y, z, hy, hz, rfl, rfl⟩

theorem dead_of_isSuffix (hy : y ≠ []) (h : y <:+ r) (v : List α) : Dead r (y ++ v) :=
  ⟨y, hy, h, List.prefix_append y v⟩

theorem inert_of_not_rightOverlap (hnr : ¬ n <:+: r) (hover : ¬ RightOverlap n r) (v : List α) : Inert n r v := by
  intro j hj
  rw [List.drop_append_of_le_length hj.le]
  have hne : r.drop j ≠ [] := by
    rw [← List.length_pos_iff, List.length_drop]
    omega
  exact not_isPrefix_of_dead hnr hover (dead_of_isSuffix hne (List.drop_suffix j r) v)

end Infixes

/-! ## Replacements that come to an end -/

section Measures
variable {n r u v x : List α}

/-- Each replacement of `n` by `r` makes some number smaller. -/
def Shrinks (n r : List α) : Prop := ∃ μ : List α → ℕ, ∀ u v, μ (u ++ (r ++ v)) < μ (u ++ (n ++ v))

open Classical in
noncomputable def live (r : List α) : List α → ℕ
  | [] => 0
  | c :: w => (if Dead r (c :: w) then 0 else 1) + live r w

theorem live_le_append (r x v : List α) : live r v ≤ live r (x ++ v) := by
  induction x with
  | nil => exact le_rfl
  | cons c x ih => exact ih.trans (Nat.le_add_left _ _)

theorem live_append_of_isSuffix (h : x <:+ r) : live r (x ++ v) = live r v := by
  induction x with
  | nil => rfl
  | cons c x ih =>
    have hdead : Dead r (c :: (x ++ v)) := dead_of_isSuffix (List.cons_ne_nil c x) h v
    rw [List.cons_append, live, if_pos hdead, Nat.zero_add, ih ((List.suffix_cons c x).trans h)]

/-- What is dead in front of the pattern does not reach into it, and stays dead. -/
theorem dead_append (hnr : ¬ n <:+: r) (hover : ¬ RightOverlap n r) (h : Dead r (u ++ (n ++ v))) (w : List α)
    (hu : u ≠ []) : Dead r (u ++ w) := by
  obtain ⟨y, hy, hyr, hyw⟩ := h
  rcases List.prefix_or_prefix_of_prefix hyw (List.prefix_append u (n ++ v)) with hyu | ⟨z, rfl⟩
  · exact ⟨y, hy, hyr, hyu.trans (List.prefix_append u w)⟩
  · rcases List.eq_nil_or_concat z with rfl | hz
    · exact ⟨u, hu, by simpa using hyr, List.prefix_append u w⟩
    · have hzv : z <+: n ++ v := (List.prefix_append_right_inj u).mp hyw
      have hzne : z ≠ [] := by
        obtain ⟨l, c, rfl⟩ := hz
        simp
      have hzr : z <:+ r := (List.suffix_append u z).trans hyr
      exact absurd (List.prefix_append n v) (not_isPrefix_of_dead hnr hover ⟨z, hzne, hzr, hzv⟩)

theorem live_replace (hn : n ≠ []) (hnr : ¬ n <:+: r) (hover : ¬ RightOverlap n r) (u v : List α) :
    live r (u ++ (r ++ v)) < live r (u ++ (n ++ v)) := by
  induction u with
  | nil =>
    obtain ⟨c, n, rfl⟩ := List.exists_cons_of_ne_nil hn
    have hlive : ¬ Dead r (c :: (n ++ v)) := fun h =>
      not_isPrefix_of_dead hnr hover h (List.prefix_append (c :: n) v)
    have hle := live_le_append r n v
    rw [List.nil_append, List.nil_append, live_append_of_isSuffix List.suffix_rfl, List.cons_append, live, if_neg hlive]
    omega
  | cons c u ih =>
    have hdead : Dead r (c :: (u ++ (n ++ v))) → Dead r (c :: (u ++ (r ++ v))) := fun h =>
      dead_append hnr hover h (r ++ v) (List.cons_ne_nil c u)
    simp only [List.cons_append, live]
    split_ifs with h₁ h₂ h₂
    · omega
    · omega
    · exact absurd (hdead h₂) h₁
    · omega

theorem shrinks_of_not_rightOverlap (hn : n ≠ []) (hnr : ¬ n <:+: r) (hover : ¬ RightOverlap n r) : Shrinks n r :=
  ⟨live r, live_replace hn hnr hover⟩

theorem rightOverlap_reverse (h : RightOverlap n.reverse r.reverse) : LeftOverlap n r := by
  obtain ⟨x, y, z, hy, hz, hr, hn⟩ := h
  refine ⟨z.reverse, y.reverse, x.reverse, by simpa using hz, by simpa using hy, ?_, ?_⟩
  · rw [← List.reverse_append, ← hn, List.reverse_reverse]
  · rw [← List.reverse_append, ← hr, List.reverse_reverse]

theorem shrinks_of_not_leftOverlap (hn : n ≠ []) (hnr : ¬ n <:+: r) (hover : ¬ LeftOverlap n r) : Shrinks n r := by
  have hnr' : ¬ n.reverse <:+: r.reverse := fun h => hnr (List.reverse_infix.mp h)
  have hlt := live_replace (by simpa using hn) hnr' fun h => hover (rightOverlap_reverse h)
  refine ⟨fun w => live r.reverse w.reverse, fun u v => ?_⟩
  simpa using hlt v.reverse u.reverse

theorem shrinks_of_count [DecidableEq α] {c : α} (h : r.count c < n.count c) : Shrinks n r := by
  refine ⟨List.count c, fun u v => ?_⟩
  simp only [List.count_append]
  omega

/-- The texts of one length are numbers, and each replacement moves to the same side. -/
theorem shrinks_of_length_eq {d : α → ℕ} {b : ℕ} (hb : 1 < b) (hd : ∀ c, d c < b) (hinj : d.Injective)
    (hlen : r.length = n.length) (hne : r ≠ n) : Shrinks n r := by
  let value (w : List α) : ℕ := Nat.ofDigits b (w.map d)
  have hlt (w : List α) : value w < b ^ w.length := by
    have h := @Nat.ofDigits_lt_base_pow_length b (w.map d) hb (by simpa using fun c _ => hd c)
    rwa [List.length_map] at h
  have happ (x v : List α) : value (x ++ v) = value x + b ^ x.length * value v := by
    simp only [value, List.map_append, Nat.ofDigits_append, List.length_map]
  have hval : value r ≠ value n := fun h => hne (hinj.list_map
    (Nat.ofDigits_inj_of_len_eq hb (by simpa using hlen) (by simpa using fun c _ => hd c)
      (by simpa using fun c _ => hd c) h))
  have hmid {x y : List α} (hxy : x.length = y.length) (h : value x < value y) (u v : List α) :
      value (u ++ (x ++ v)) < value (u ++ (y ++ v)) := by
    have hpos : 0 < b ^ u.length := by positivity
    simp only [happ, hxy]
    gcongr
  rcases Nat.lt_or_gt_of_ne hval with h | h
  · exact ⟨value, hmid hlen h⟩
  · refine ⟨fun w => b ^ w.length - value w, fun u v => ?_⟩
    have hbig := hlt (u ++ (r ++ v))
    have hstep := hmid hlen.symm h u v
    simp only [List.length_append, hlen] at hbig ⊢
    omega

end Measures

variable [DecidableEq α]

def first (n : List α) : List α → Option ℕ
  | [] => if n = [] then some 0 else none
  | c :: w => if n <+: c :: w then some 0 else (first n w).map (· + 1)

section First
variable {n w x v : List α} {i j : ℕ}

theorem first_isPrefix (h : first n w = some i) : n <+: w.drop i := by
  induction w generalizing i with
  | nil =>
    rw [first] at h
    split_ifs at h with hn
    simp [hn]
  | cons c w ih =>
    rw [first] at h
    split_ifs at h with hn
    · obtain rfl := Option.some.inj h
      exact hn
    · obtain ⟨j, hj, rfl⟩ := Option.map_eq_some_iff.mp h
      exact ih hj

theorem not_isPrefix_of_lt_first (h : first n w = some i) (hj : j < i) : ¬ n <+: w.drop j := by
  induction w generalizing i j with
  | nil =>
    rw [first] at h
    split_ifs at h
    obtain rfl := Option.some.inj h
    exact absurd hj (Nat.not_lt_zero j)
  | cons c w ih =>
    rw [first] at h
    split_ifs at h with hn
    · obtain rfl := Option.some.inj h
      exact absurd hj (Nat.not_lt_zero j)
    · obtain ⟨k, hk, rfl⟩ := Option.map_eq_some_iff.mp h
      cases j with
      | zero => exact hn
      | succ j => exact ih hk (Nat.lt_of_succ_lt_succ hj)

theorem first_eq_none_iff : first n w = none ↔ ¬ n <:+: w := by
  induction w with
  | nil => simp [first]
  | cons c w ih =>
    rw [first, List.infix_cons_iff, not_or, ← ih]
    split_ifs with hn <;> simp [hn]

theorem exists_first (h : n <:+: w) : ∃ i, first n w = some i :=
  Option.ne_none_iff_exists'.mp fun hnone => first_eq_none_iff.mp hnone h

/-- An occurrence with none before it is the first one. -/
theorem first_eq_some (h : n <+: w.drop i) (hlt : ∀ j < i, ¬ n <+: w.drop j) : first n w = some i := by
  obtain ⟨k, hk⟩ := exists_first (isInfix_iff_exists_drop.mpr ⟨i, h⟩)
  rcases Nat.lt_trichotomy k i with hki | rfl | hik
  · exact absurd (first_isPrefix hk) (hlt k hki)
  · exact hk
  · exact absurd h (not_isPrefix_of_lt_first hk hik)

theorem append_of_first (h : first n w = some i) : w.take i ++ (n ++ w.drop (i + n.length)) = w := by
  obtain ⟨t, ht⟩ := first_isPrefix h
  have hdrop : w.drop (i + n.length) = t := by rw [← List.drop_drop, ← ht, List.drop_left]
  rw [hdrop, ht, List.take_append_drop]

theorem add_length_le_of_first (hn : n ≠ []) (h : first n w = some i) : i + n.length ≤ w.length := by
  have hlen := (first_isPrefix h).length_le
  have hpos := List.length_pos_iff.mpr hn
  rw [List.length_drop] at hlen
  omega

/-- The search goes on behind a text in which no occurrence begins. -/
theorem first_append_of_inert (h : Inert n x v) : first n (x ++ v) = (first n v).map (x.length + ·) := by
  have hdrop (i : ℕ) : (x ++ v).drop (x.length + i) = v.drop i := by simp
  cases hv : first n v with
  | none =>
    rw [Option.map_none, first_eq_none_iff, isInfix_iff_exists_drop]
    rintro ⟨i, hi⟩
    rcases Nat.lt_or_ge i x.length with hlt | hge
    · exact h i hlt hi
    · obtain ⟨k, rfl⟩ := Nat.exists_eq_add_of_le hge
      rw [hdrop] at hi
      exact first_eq_none_iff.mp hv (isInfix_iff_exists_drop.mpr ⟨k, hi⟩)
  | some i =>
    apply first_eq_some
    · rw [hdrop]
      exact first_isPrefix hv
    · intro j (hj : j < x.length + i)
      rcases Nat.lt_or_ge j x.length with hlt | hge
      · exact h j hlt
      · obtain ⟨k, rfl⟩ := Nat.exists_eq_add_of_le hge
        rw [hdrop]
        exact not_isPrefix_of_lt_first hv (by omega)

theorem first_of_isPrefix (h : first n w = some i) (hv : v <+: w) (hocc : n <+: v.drop i) : first n v = some i :=
  first_eq_some hocc fun _ hj hpre => not_isPrefix_of_lt_first h hj (hpre.trans (hv.drop _))

/-- Where the pattern overlaps the replacement, a shortest text behind the replacement that completes it. -/
theorem exists_first_of_rightOverlap {r : List α} (hnr : ¬ n <:+: r) (h : RightOverlap n r) :
    ∃ x y z, y ≠ [] ∧ r = x ++ y ∧ n = y ++ z ∧ first n (r ++ z) = some x.length := by
  obtain ⟨x, y, z, hy, -, rfl, rfl⟩ := h
  have hocc : y ++ z <+: ((x ++ y) ++ z).drop x.length := by simp
  obtain ⟨j, hj⟩ := exists_first (isInfix_iff_exists_drop.mpr ⟨_, hocc⟩)
  have hjx : j ≤ x.length := not_lt.mp fun hlt => not_isPrefix_of_lt_first hj hlt hocc
  have hjle : j ≤ (x ++ y).length := hjx.trans (by simp)
  have hpre := first_isPrefix hj
  rw [List.drop_append_of_le_length hjle] at hpre
  -- the occurrence does not end inside of the replacement
  rcases List.prefix_or_prefix_of_prefix hpre (List.prefix_append _ z) with hin | ⟨t, ht⟩
  · exact absurd (hin.isInfix.trans (List.drop_suffix j _).isInfix) hnr
  · rw [← ht, List.prefix_append_right_inj] at hpre
    have hyne : (x ++ y).drop j ≠ [] := by
      have hpos := List.length_pos_iff.mpr hy
      rw [← List.length_pos_iff, List.length_drop, List.length_append]
      omega
    refine ⟨(x ++ y).take j, (x ++ y).drop j, t, hyne, (List.take_append_drop j _).symm, ht.symm, ?_⟩
    rw [List.length_take_of_le hjle]
    apply first_of_isPrefix hj ((List.prefix_append_right_inj _).mpr hpre)
    rw [List.drop_append_of_le_length hjle, ht]

end First

section Scan
variable {n w : List α}

theorem length_drop_lt {i : ℕ} (hn : n ≠ []) (h : first n w = some i) :
    (w.drop (i + n.length)).length < w.length := by
  have hle := add_length_le_of_first hn h
  have hpos := List.length_pos_iff.mpr hn
  rw [List.length_drop]
  omega

/-- The text with each occurrence that a scan from the left finds replaced once. -/
def scan (hn : n ≠ []) (r w : List α) : List α :=
  match _h : first n w with
  | none => w
  | some i => w.take i ++ (r ++ scan hn r (w.drop (i + n.length)))
termination_by w.length
decreasing_by exact length_drop_lt hn ‹_›

/-- The text split behind each of these replacements, `p` in front of it. -/
def scanSplits (hn : n ≠ []) (r p w : List α) : List (List α × List α) :=
  match _h : first n w with
  | none => []
  | some i =>
    (p ++ w.take i ++ r, w.drop (i + n.length)) :: scanSplits hn r (p ++ w.take i ++ r) (w.drop (i + n.length))
termination_by w.length
decreasing_by exact length_drop_lt hn ‹_›

variable {hn : n ≠ []} {r p : List α}

theorem scan_of_none (h : first n w = none) : scan hn r w = w := by
  rw [scan]
  split
  · rfl
  · next i hi => rw [h] at hi; cases hi

theorem scan_of_some {i : ℕ} (h : first n w = some i) :
    scan hn r w = w.take i ++ (r ++ scan hn r (w.drop (i + n.length))) := by
  rw [scan]
  split
  · next hi => rw [h] at hi; cases hi
  · next j hj =>
    obtain rfl := Option.some.inj (h.symm.trans hj)
    rfl

theorem scanSplits_of_none (h : first n w = none) : scanSplits hn r p w = [] := by
  rw [scanSplits]
  split
  · rfl
  · next i hi => rw [h] at hi; cases hi

theorem scanSplits_of_some {i : ℕ} (h : first n w = some i) :
    scanSplits hn r p w = (p ++ w.take i ++ r, w.drop (i + n.length)) ::
      scanSplits hn r (p ++ w.take i ++ r) (w.drop (i + n.length)) := by
  rw [scanSplits]
  split
  · next hi => rw [h] at hi; cases hi
  · next j hj =>
    obtain rfl := Option.some.inj (h.symm.trans hj)
    rfl

end Scan

end Sfup.Occurrences
