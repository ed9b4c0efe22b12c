import Mathlib.Data.List.DropRight
import Mathlib.Data.List.Infix

/-! Texts with delimiters: cutting them into pieces, putting the pieces together, trimming them, and where a pattern
can occur in them. -/
namespace Sfup.Text

variable {α : Type*}

section Split
variable {p : α → Bool}

def extend (c : α) : List (List α) → List (List α)
  | [] => [[c]]
  | w :: ws => (c :: w) :: ws

/-- Cut at the delimiters, at most `n` times from the left. A rest that is empty is not a piece. -/
def split (p : α → Bool) : Option ℕ → List α → List (List α)
  | _, [] => []
  | some 0, c :: s => [c :: s]
  | some (n + 1), c :: s => if p c then [] :: split p (some n) s else extend c (split p (some (n + 1)) s)
  | none, c :: s => if p c then [] :: split p none s else extend c (split p none s)

def joined (w : List α) (ws : List (α × List α)) : List α := w ++ ws.flatMap fun x => x.1 :: x.2

def dropEmpty : List (List α) → List (List α)
  | [] => []
  | [w] => if w.isEmpty then [] else [w]
  | w :: v :: ws => w :: dropEmpty (v :: ws)

@[simp] theorem split_nil (n : Option ℕ) : split p n [] = [] := by
  cases n with
  | none => rfl
  | some n => cases n <;> rfl

theorem split_zero (s : List α) : split p (some 0) s = if s.isEmpty then [] else [s] := by
  cases s <;> rfl

theorem split_delim {n : Option ℕ} {d : α} (hn : n ≠ some 0) (hd : p d) (s : List α) :
    split p n (d :: s) = [] :: split p (n.map (· - 1)) s := by
  cases n with
  | none => simp [split, hd]
  | some n =>
    cases n with
    | zero => contradiction
    | succ n => simp [split, hd]

theorem split_letter {n : Option ℕ} {c : α} (hn : n ≠ some 0) (hc : ¬ p c) (s : List α) :
    split p n (c :: s) = extend c (split p n s) := by
  cases n with
  | none => simp [split, hc]
  | some n =>
    cases n with
    | zero => contradiction
    | succ n => simp [split, hc]

theorem split_append_delim {n : Option ℕ} {w : List α} {d : α} (hn : n ≠ some 0) (hw : ∀ c ∈ w, ¬ p c)
    (hd : p d) (s : List α) : split p n (w ++ d :: s) = w :: split p (n.map (· - 1)) s := by
  induction w with
  | nil => exact split_delim hn hd s
  | cons c w ih =>
    rw [List.cons_append, split_letter hn (hw c List.mem_cons_self),
      ih fun x hx => hw x (List.mem_cons_of_mem _ hx)]
    rfl

theorem split_free {w : List α} (n : Option ℕ) (hw : ∀ c ∈ w, ¬ p c) :
    split p n w = if w.isEmpty then [] else [w] := by
  by_cases hn : n = some 0
  · subst hn
    cases w <;> rfl
  · induction w with
    | nil => simp
    | cons c w ih =>
      rw [split_letter hn (hw c List.mem_cons_self), ih fun x hx => hw x (List.mem_cons_of_mem _ hx)]
      cases w <;> rfl

theorem split_of_findIdx_lt {n : Option ℕ} {s : List α} (hn : n ≠ some 0) (h : s.findIdx p < s.length) :
    split p n s = s.take (s.findIdx p) :: split p (n.map (· - 1)) (s.drop (s.findIdx p + 1)) := by
  have hfree : ∀ c ∈ s.take (s.findIdx p), ¬ p c := by
    intro c hc
    obtain ⟨i, hi, rfl⟩ := List.mem_iff_getElem.mp hc
    have hpos : i < s.findIdx p := by
      rw [List.length_take] at hi
      omega
    rw [List.getElem_take]
    simpa using List.not_of_lt_findIdx hpos
  have hcut : s = s.take (s.findIdx p) ++ s[s.findIdx p] :: s.drop (s.findIdx p + 1) := by
    rw [List.getElem_cons_drop, List.take_append_drop]
  conv_lhs => rw [hcut]
  exact split_append_delim hn hfree List.findIdx_getElem _

theorem split_of_findIdx_ge {s : List α} (n : Option ℕ) (h : s.length ≤ s.findIdx p) :
    split p n s = if s.isEmpty then [] else [s] := by
  apply split_free
  intro c hc
  obtain ⟨i, hi, rfl⟩ := List.mem_iff_getElem.mp hc
  simpa using List.not_of_lt_findIdx (hi.trans_le h)

theorem length_extend {c : α} {ws : List (List α)} (h : ws ≠ []) : (extend c ws).length = ws.length := by
  cases ws with
  | nil => contradiction
  | cons w ws => rfl

theorem split_ne_nil {s : List α} (n : Option ℕ) (h : s ≠ []) : split p n s ≠ [] := by
  cases s with
  | nil => contradiction
  | cons c s =>
    by_cases hn : n = some 0
    · rw [hn, split_zero, if_neg (by simp)]
      exact List.cons_ne_nil _ _
    · by_cases hc : p c
      · rw [split_delim hn hc]
        exact List.cons_ne_nil _ _
      · rw [split_letter hn hc]
        cases split p n s <;> exact List.cons_ne_nil _ _

/-- What is left behind a single cut is not empty. -/
theorem ne_nil_of_split_one {s v : List α} (h : (split p (some 1) s)[1]? = some v) : v ≠ [] := by
  induction s with
  | nil => simp at h
  | cons c s ih =>
    by_cases hc : p c
    · rw [split_delim (by simp) hc, List.getElem?_cons_succ] at h
      change (split p (some 0) s)[0]? = some v at h
      rw [split_zero] at h
      split_ifs at h with hs
      · cases h
      · cases h
        simpa using hs
    · rw [split_letter (by simp) hc] at h
      apply ih
      cases hs : split p (some 1) s with
      | nil =>
        rw [hs] at h
        cases h
      | cons w ws =>
        rw [hs] at h
        exact h

/-- A delimiter that is not the last letter makes two pieces. -/
theorem two_le_length_split {n : Option ℕ} {a b : List α} {d : α} (hn : n ≠ some 0) (hd : p d) (hb : b ≠ []) :
    2 ≤ (split p n (a ++ d :: b)).length := by
  have hpos : ∀ s : List α, s ≠ [] → ∀ n, 0 < (split p n s).length :=
    fun s hs n => List.length_pos_iff.mpr (split_ne_nil n hs)
  induction a with
  | nil =>
    rw [List.nil_append, split_delim hn hd, List.length_cons]
    exact Nat.succ_le_succ (hpos b hb _)
  | cons c a ih =>
    rw [List.cons_append]
    by_cases hc : p c
    · rw [split_delim hn hc, List.length_cons]
      exact Nat.succ_le_succ (hpos _ (by simp) _)
    · rw [split_letter hn hc, length_extend (split_ne_nil n (by simp))]
      exact ih

theorem joined_cons (w : List α) (x : α × List α) (ws : List (α × List α)) :
    joined w (x :: ws) = w ++ x.1 :: joined x.2 ws := rfl

theorem joined_ne_nil {w : List α} {x : α × List α} {ws : List (α × List α)} : joined w (x :: ws) ≠ [] := by
  rw [joined_cons]
  simp

theorem split_joined {n : Option ℕ} {w : List α} {ws : List (α × List α)} (hn : ∀ k, n = some k → ws.length ≤ k)
    (hw : ∀ c ∈ w, ¬ p c) (hd : ∀ x ∈ ws, p x.1) (hws : ∀ x ∈ ws, ∀ c ∈ x.2, ¬ p c) :
    split p n (joined w ws) = dropEmpty (w :: ws.map Prod.snd) := by
  induction ws generalizing n w with
  | nil =>
    rw [joined, List.flatMap_nil, List.append_nil, split_free n hw]
    rfl
  | cons x ws ih =>
    have hne : n ≠ some 0 := fun h => by simpa using hn 0 h
    have hlen : ∀ k, n.map (· - 1) = some k → ws.length ≤ k := by
      intro k hk
      obtain ⟨m, hm, rfl⟩ := Option.map_eq_some_iff.mp hk
      have h := hn m hm
      rw [List.length_cons] at h
      omega
    rw [joined_cons, split_append_delim hne hw (hd x List.mem_cons_self),
      ih hlen (hws x List.mem_cons_self) (fun y hy => hd y (List.mem_cons_of_mem _ hy))
        (fun y hy => hws y (List.mem_cons_of_mem _ hy))]
    rfl

theorem split_lines {d : α} (hd : p d) {ls : List (List α)} (h : ∀ l ∈ ls, ∀ c ∈ l, ¬ p c) :
    split p none (ls.flatMap (· ++ [d])) = ls := by
  induction ls with
  | nil => rfl
  | cons l ls ih =>
    rw [List.flatMap_cons, List.append_assoc, List.singleton_append,
      split_append_delim (by simp) (h l List.mem_cons_self) hd]
    exact congrArg _ (ih fun x hx => h x (List.mem_cons_of_mem _ hx))

theorem dropEmpty_cons {w : List α} (hw : w ≠ []) (ws : List (List α)) :
    dropEmpty (w :: ws) = w :: dropEmpty ws := by
  cases ws with
  | nil => simp [dropEmpty, hw]
  | cons v ws => rfl

theorem dropEmpty_sublist (ws : List (List α)) : (dropEmpty ws).Sublist ws := by
  induction ws with
  | nil => exact List.Sublist.refl _
  | cons w ws ih =>
    cases ws with
    | nil =>
      unfold dropEmpty
      split_ifs
      · exact List.nil_sublist _
      · exact List.Sublist.refl _
    | cons v ws => exact ih.cons_cons w

theorem dropEmpty_of_ne {ws : List (List α)} (h : ∀ w ∈ ws, w ≠ []) : dropEmpty ws = ws := by
  induction ws with
  | nil => rfl
  | cons w ws ih =>
    rw [dropEmpty_cons (h w List.mem_cons_self), ih fun v hv => h v (List.mem_cons_of_mem _ hv)]

/-- The pieces between one delimiter, put together with it, lack only a delimiter at the end. -/
theorem intercalate_split [DecidableEq α] (c : α) (s : List α) :
    [c].intercalate (split (· == c) none s) = if s.getLast? = some c then s.dropLast else s := by
  induction s with
  | nil => rfl
  | cons x s ih =>
    by_cases hs : s = []
    · subst hs
      by_cases hx : x = c <;> simp [split, extend, hx]
    · obtain ⟨w, ws, hws⟩ := List.exists_cons_of_ne_nil (split_ne_nil (p := (· == c)) none hs)
      have hstep : [c].intercalate (split (· == c) none (x :: s)) =
          x :: [c].intercalate (split (· == c) none s) := by
        by_cases hx : x = c
        · rw [split_delim (by simp) (by simpa using hx), Option.map_none, hws, hx]
          rfl
        · rw [split_letter (by simp) (by simpa using hx), hws, extend]
          cases ws <;> rfl
      obtain ⟨y, s, rfl⟩ := List.exists_cons_of_ne_nil hs
      rw [hstep, ih, List.getLast?_cons_cons, List.dropLast_cons_cons]
      split_ifs <;> rfl

end Split

section Trim
variable {p q : α → Bool} {s r x : List α}

/-- No letter of `p` is at an end. -/
def Bare (p : α → Bool) (x : List α) : Prop := (∀ c ∈ x.head?, ¬ p c) ∧ ∀ c ∈ x.getLast?, ¬ p c

/-- `r` is the longest part of `s` that is left when letters of `p` are removed from both ends until there are none. -/
structure Trimmed (p : α → Bool) (s r : List α) : Prop where
  removed : ∃ a b, s = a ++ (r ++ b) ∧ (∀ c ∈ a, p c) ∧ ∀ c ∈ b, p c
  bare : Bare p r
  longest : ∀ x, x <:+: s → Bare p x → x.length ≤ r.length

def trim (p : α → Bool) (s : List α) : List α := (s.dropWhile p).rdropWhile p

theorem Bare.reverse (h : Bare p x) : Bare p x.reverse := by
  rw [Bare, List.head?_reverse, List.getLast?_reverse]
  exact ⟨h.2, h.1⟩

theorem infix_dropWhile (hx : x <:+: s) (h : ∀ c ∈ x.head?, ¬ p c) : x <:+: s.dropWhile p := by
  induction s with
  | nil => exact hx
  | cons c s ih =>
    rw [List.dropWhile_cons]
    split_ifs with hc
    · rcases List.infix_cons_iff.mp hx with hpre | hin
      · cases x with
        | nil => exact List.nil_infix
        | cons d x =>
          obtain ⟨rfl, -⟩ := List.cons_prefix_cons.mp hpre
          exact absurd hc (h d rfl)
      · exact ih hin
    · exact hx

theorem infix_trim (hx : x <:+: s) (h : Bare p x) : x <:+: trim p s := by
  have hfront := infix_dropWhile hx h.1
  have hback := infix_dropWhile (List.reverse_infix.mpr hfront) h.reverse.1
  rw [trim, List.rdropWhile]
  simpa using List.reverse_infix.mpr hback

theorem bare_trim (p : α → Bool) (s : List α) : Bare p (trim p s) := by
  constructor
  · intro c hc
    obtain ⟨t, ht⟩ := List.rdropWhile_prefix p (s.dropWhile p)
    have hhead : (s.dropWhile p).head? = some c := by
      rw [← ht]
      exact List.mem_head?_append_of_mem_head? hc
    have hnot := List.head?_dropWhile_not p s
    rw [hhead] at hnot
    simpa using hnot
  · intro c hc
    obtain ⟨hne, hlast⟩ := List.mem_getLast?_eq_getLast hc
    rw [hlast]
    exact List.rdropWhile_last_not p _ hne

theorem trimmed_trim (p : α → Bool) (s : List α) : Trimmed p s (trim p s) := by
  refine ⟨⟨s.takeWhile p, (s.dropWhile p).rtakeWhile p, ?_, ?_, ?_⟩, bare_trim p s, ?_⟩
  · rw [trim, List.rdropWhile_append_rtakeWhile, List.takeWhile_append_dropWhile]
  · exact fun c => List.mem_takeWhile_imp
  · exact fun c => List.mem_rtakeWhile_imp
  · exact fun x hx hbare => (infix_trim hx hbare).length_le

theorem trim_append {a b : List α} (ha : ∀ c ∈ a, p c) (hb : ∀ c ∈ b, p c) (hr : Bare p r) :
    trim p (a ++ (r ++ b)) = r := by
  rw [trim, List.dropWhile_append_of_pos ha]
  cases r with
  | nil =>
    rw [List.nil_append, List.dropWhile_eq_nil_iff.mpr hb, List.rdropWhile_nil]
  | cons c r =>
    have hback : ((c :: r) ++ b).rdropWhile p = (c :: r).rdropWhile p := by
      rw [List.rdropWhile, List.reverse_append, List.dropWhile_append_of_pos (by simpa using hb)]
      rfl
    rw [List.cons_append, List.dropWhile_cons_of_neg (hr.1 c rfl), ← List.cons_append, hback]
    exact List.rdropWhile_eq_self_iff.mpr fun hne => hr.2 _ (List.getLast?_eq_some_getLast hne)

theorem trimmed_iff : Trimmed p s r ↔ trim p s = r := by
  constructor
  · intro h
    obtain ⟨a, b, rfl, ha, hb⟩ := h.removed
    exact trim_append ha hb h.bare
  · rintro rfl
    exact trimmed_trim p s

theorem find?_append_of_bare {a b : List α} (ha : ∀ c ∈ a, p c) (hb : ∀ c ∈ b, p c) (hr : ∀ c ∈ r.head?, ¬ p c) :
    (a ++ (r ++ b)).find? (fun c => !p c) = r.head? := by
  have hnone {s : List α} (h : ∀ c ∈ s, p c) : s.find? (fun c => !p c) = none := by simpa using h
  rw [List.find?_append, hnone ha, Option.none_or, List.find?_append, hnone hb, Option.or_none]
  cases r with
  | nil => rfl
  | cons c r => rw [List.find?_cons_of_pos (by simpa using hr c rfl), List.head?_cons]

/-- The ends of what is left are the outermost letters that are not in `p`. -/
theorem bare_trim_iff : Bare q (trim p s) ↔
    (∀ c ∈ s.find? (fun c => !p c), ¬ q c) ∧ ∀ c ∈ s.reverse.find? (fun c => !p c), ¬ q c := by
  obtain ⟨a, b, hs, ha, hb⟩ := (trimmed_trim p s).removed
  have hfirst : s.find? (fun c => !p c) = (trim p s).head? := by
    conv_lhs => rw [hs]
    exact find?_append_of_bare ha hb (bare_trim p s).1
  have hlast : s.reverse.find? (fun c => !p c) = (trim p s).getLast? := by
    conv_lhs => rw [hs, List.reverse_append, List.reverse_append, List.append_assoc]
    rw [find?_append_of_bare (by simpa using hb) (by simpa using ha) (bare_trim p s).reverse.1, List.head?_reverse]
  rw [hfirst, hlast]
  rfl

theorem trim_eq_trim_iff (hpq : ∀ c, p c → q c) : trim q s = trim p s ↔ Bare q (trim p s) := by
  constructor
  · intro h
    rw [← h]
    exact bare_trim q s
  · intro h
    obtain ⟨a, b, hs, ha, hb⟩ := (trimmed_trim p s).removed
    conv_lhs => rw [hs]
    exact trim_append (fun c hc => hpq c (ha c hc)) (fun c hc => hpq c (hb c hc)) h

end Trim

section Occurrence
variable {m a b : List α} {d : α}

/-- A pattern that has the delimiter at most at its end does not reach over one. -/
theorem infix_append_cons (hd : d ∉ m.dropLast) : m <:+: a ++ d :: b ↔ m <:+: a ++ [d] ∨ m <:+: b := by
  rw [List.append_cons, List.infix_append_iff_ne_nil]
  constructor
  · rintro (h | h | ⟨l, r, hl, hr, rfl, hs, -⟩)
    · exact Or.inl h
    · exact Or.inr h
    · refine absurd ?_ hd
      rw [List.dropLast_append_of_ne_nil hr]
      obtain ⟨t, ht⟩ := hs
      apply List.mem_append_left
      have hlast : l.getLast hl = d := by
        have h := List.getLast_append_of_ne_nil (l := t) (by simp [hl]) hl
        simp only [ht, List.getLast_append_singleton] at h
        exact h.symm
      rw [← hlast]
      exact List.getLast_mem hl
  · rintro (h | h)
    · exact Or.inl h
    · exact Or.inr (Or.inl h)

theorem infix_concat_of_not_mem (hd : d ∉ m) (h : m <:+: a ++ [d]) : m <:+: a := by
  rcases List.infix_concat_iff.mp h with h | h
  · obtain ⟨t, ht⟩ := h
    cases m using List.reverseRecOn with
    | nil => exact List.nil_infix
    | append_singleton m x =>
      rw [← List.append_assoc] at ht
      have hx : x = d := by simpa using (List.append_inj_right' ht rfl)
      simp [hx] at hd
  · exact h

end Occurrence

end Sfup.Text
