import Mathlib.Data.List.Infix

/-!
# Replacing the occurrences of a pattern

The occurrences that count are found from left to right and do not overlap: the search goes on
behind an occurrence.

* `firstAt` — the first position of a pattern; `firstAt_parts`, `firstAt_none` — what it finds.
* `Replaced` — a list, and the same with every such occurrence replaced.
* `replaceAll` — the replacement as one scan; `replaced_iff` — it is the one that `Replaced` allows.
* `replaceAll_cons`, `replaceAll_append_of_notMem`, `replaceAll_length` — how the scan passes a
  list that has no first cell of the pattern, and what becomes of the length.
* `fill` — directives of a marker and a letter, filled in at once; `replaceAll_fill` — replacing one
  directive after the other comes to the same; `infix_fill_iff` — which directives are left.
-/

set_option autoImplicit false

namespace Replace

variable {α : Type*} [DecidableEq α]

/-! ## Searching -/

/-- The first position at which the pattern stands. -/
def firstAt (pattern : List α) : List α → Option Nat
  | [] => if pattern = [] then some 0 else none
  | c :: s => if pattern.isPrefixOf (c :: s) then some 0 else (firstAt pattern s).map (· + 1)

omit [DecidableEq α] in
/-- No occurrence begins in front of the position. -/
def NoneBefore (pattern s : List α) (i : Nat) : Prop := ∀ j < i, ¬ pattern <+: s.drop j

omit [DecidableEq α] in
theorem noneBefore_cons {pattern s : List α} {c : α} {i : Nat} (h : ¬ pattern <+: c :: s)
    (hs : NoneBefore pattern s i) : NoneBefore pattern (c :: s) (i + 1) := by
  intro j hj
  cases j with
  | zero => exact h
  | succ j => exact hs j (by omega)

omit [DecidableEq α] in
theorem NoneBefore.tail {pattern s : List α} {c : α} {i : Nat}
    (h : NoneBefore pattern (c :: s) (i + 1)) : NoneBefore pattern s i :=
  fun j hj => h (j + 1) (by omega)

/-- What is found is an occurrence, and the first one. -/
theorem firstAt_split {pattern : List α} : ∀ {s : List α} {i : Nat}, firstAt pattern s = some i →
    ∃ after, s = s.take i ++ pattern ++ after ∧ i ≤ s.length ∧ NoneBefore pattern s i
  | [], i, h => by
    rw [firstAt] at h
    split at h
    · rename_i hpattern
      cases h
      exact ⟨[], by simp [hpattern], Nat.le_refl 0, fun j hj => absurd hj (Nat.not_lt_zero j)⟩
    · cases h
  | c :: s, i, h => by
    rw [firstAt] at h
    split at h
    · rename_i hpre
      cases h
      obtain ⟨after, hafter⟩ := List.isPrefixOf_iff_prefix.mp hpre
      exact ⟨after, by simp [hafter], Nat.zero_le _, fun j hj => absurd hj (Nat.not_lt_zero j)⟩
    · rename_i hpre
      obtain ⟨k, hk, rfl⟩ := Option.map_eq_some_iff.mp h
      obtain ⟨after, hsplit, hle, hnone⟩ := firstAt_split hk
      refine ⟨after, ?_, by simpa using hle, noneBefore_cons ?_ hnone⟩
      · rw [List.take_succ_cons, List.cons_append, List.cons_append, ← hsplit]
      · exact fun hp => hpre (List.isPrefixOf_iff_prefix.mpr hp)

/-- The parts in front of what is found and behind it. -/
theorem firstAt_parts {pattern s : List α} {i : Nat} (h : firstAt pattern s = some i) :
    ∃ before after, s = before ++ pattern ++ after ∧ i = before.length ∧
      NoneBefore pattern s before.length := by
  obtain ⟨after, hsplit, hle, hnone⟩ := firstAt_split h
  have hlength : (s.take i).length = i := List.length_take_of_le hle
  refine ⟨s.take i, after, hsplit, hlength.symm, ?_⟩
  rw [hlength]
  exact hnone

theorem firstAt_none {pattern : List α} : ∀ {s : List α}, firstAt pattern s = none →
    ¬ pattern <:+: s
  | [], h => by
    rw [firstAt] at h
    split at h
    · cases h
    · rename_i hpattern
      exact fun hin => hpattern (List.infix_nil.mp hin)
  | c :: s, h => by
    rw [firstAt] at h
    split at h
    · cases h
    · rename_i hpre
      rw [List.infix_cons_iff]
      rintro (hp | hin)
      · exact hpre (List.isPrefixOf_iff_prefix.mpr hp)
      · exact firstAt_none (Option.map_eq_none_iff.mp h) hin

theorem firstAt_isSome_iff {pattern s : List α} :
    (firstAt pattern s).isSome = true ↔ pattern <:+: s := by
  constructor
  · intro h
    obtain ⟨i, hi⟩ := Option.isSome_iff_exists.mp h
    obtain ⟨before, after, hsplit, -, -⟩ := firstAt_parts hi
    exact ⟨before, after, hsplit.symm⟩
  · intro h
    by_contra hnone
    exact firstAt_none (Option.not_isSome_iff_eq_none.mp hnone) h

/-- Cells without the mark are passed. -/
theorem takeWhile_append_of_notMem {p : α} {s : List α} (h : p ∉ s) (rest : List α) :
    (s ++ rest).takeWhile (· ≠ p) = s ++ rest.takeWhile (· ≠ p) := by
  refine List.takeWhile_append_of_pos fun c hc => ?_
  rw [decide_eq_true_iff]
  rintro rfl
  exact h hc

theorem takeWhile_of_notMem {p : α} {s : List α} (h : p ∉ s) : s.takeWhile (· ≠ p) = s := by
  have hpassed := takeWhile_append_of_notMem h []
  rwa [List.append_nil, List.takeWhile_nil, List.append_nil] at hpassed

/-- The first position of a single cell. -/
theorem firstAt_singleton (p : α) (s : List α) : firstAt [p] s =
    if p ∈ s then some (s.takeWhile (· ≠ p)).length else none := by
  induction s with
  | nil => rfl
  | cons c s ih =>
    by_cases hc : p = c
    · subst hc
      simp [firstAt]
    · simp only [firstAt, List.isPrefixOf, beq_eq_false_iff_ne.mpr hc, Bool.false_and, ih,
        List.mem_cons, hc, false_or, List.takeWhile_cons, Ne.symm hc, ne_eq, not_false_eq_true,
        decide_true, if_true, List.length_cons, Bool.false_eq_true, if_false]
      split <;> rfl

/-! ## Replacing -/

omit [DecidableEq α] in
/-- From left to right, every occurrence of the pattern has become the replacement. -/
inductive Replaced (pattern replacement : List α) : List α → List α → Prop where
  | done {s : List α} (h : ¬ pattern <:+: s) : Replaced pattern replacement s s
  /-- The first occurrence, and those behind it. -/
  | next {before after rest : List α}
      (hfirst : NoneBefore pattern (before ++ pattern ++ after) before.length)
      (h : Replaced pattern replacement after rest) :
      Replaced pattern replacement (before ++ pattern ++ after) (before ++ replacement ++ rest)

/-- The number counts the cells that are left of an occurrence. -/
def scan (pattern replacement : List α) : Nat → List α → List α
  | _, [] => []
  | left + 1, _ :: s => scan pattern replacement left s
  | 0, c :: s =>
    if pattern.isPrefixOf (c :: s) then replacement ++ scan pattern replacement (pattern.length - 1) s
    else c :: scan pattern replacement 0 s

def replaceAll (pattern replacement s : List α) : List α := scan pattern replacement 0 s

section Scan

variable {pattern replacement : List α}

theorem scan_eq (left : Nat) (s : List α) :
    scan pattern replacement left s = replaceAll pattern replacement (s.drop left) := by
  induction s generalizing left with
  | nil => cases left <;> rfl
  | cons c s ih =>
    cases left with
    | zero => rfl
    | succ left => exact ih left

/-- At an occurrence. -/
theorem replaceAll_occurrence (hpattern : pattern ≠ []) (s : List α) :
    replaceAll pattern replacement (pattern ++ s) =
      replacement ++ replaceAll pattern replacement s := by
  cases pattern with
  | nil => exact absurd rfl hpattern
  | cons p pattern =>
    have hpre : (p :: pattern).isPrefixOf (p :: (pattern ++ s)) = true :=
      List.isPrefixOf_iff_prefix.mpr (List.prefix_append (p :: pattern) s)
    rw [List.cons_append, replaceAll, scan, if_pos hpre, scan_eq]
    simp

/-- Where no occurrence begins. -/
theorem replaceAll_cons {c : α} {s : List α} (h : ¬ pattern <+: c :: s) :
    replaceAll pattern replacement (c :: s) = c :: replaceAll pattern replacement s := by
  have hpre : ¬ pattern.isPrefixOf (c :: s) = true := fun hp =>
    h (List.isPrefixOf_iff_prefix.mp hp)
  rw [replaceAll, scan, if_neg hpre]
  rfl

theorem replaceAll_before (hpattern : pattern ≠ []) {after : List α} : ∀ {before : List α},
    NoneBefore pattern (before ++ pattern ++ after) before.length →
    replaceAll pattern replacement (before ++ pattern ++ after) =
      before ++ replacement ++ replaceAll pattern replacement after
  | [], _ => replaceAll_occurrence hpattern after
  | c :: before, h => by
    have hc : ¬ pattern <+: c :: (before ++ pattern ++ after) := h 0 (Nat.zero_lt_succ _)
    rw [List.cons_append, List.cons_append, replaceAll_cons hc, replaceAll_before hpattern h.tail]
    rfl

theorem replaceAll_of_notInfix : ∀ {s : List α}, ¬ pattern <:+: s →
    replaceAll pattern replacement s = s
  | [], _ => rfl
  | c :: s, h => by
    rw [List.infix_cons_iff, not_or] at h
    rw [replaceAll_cons h.1, replaceAll_of_notInfix h.2]

/-- **There is exactly one way to replace the occurrences from left to right.** -/
theorem replaced_iff (hpattern : pattern ≠ []) {s t : List α} :
    Replaced pattern replacement s t ↔ t = replaceAll pattern replacement s := by
  constructor
  · intro h
    induction h with
    | done h => exact (replaceAll_of_notInfix h).symm
    | next hfirst _ ih => rw [replaceAll_before hpattern hfirst, ih]
  · rintro rfl
    induction hn : s.length using Nat.strong_induction_on generalizing s with
    | _ n ih =>
      cases hfirst : firstAt pattern s with
      | none =>
        rw [replaceAll_of_notInfix (firstAt_none hfirst)]
        exact .done (firstAt_none hfirst)
      | some i =>
        obtain ⟨before, after, hsplit, -, hnone⟩ := firstAt_parts hfirst
        rw [hsplit] at hnone ⊢
        rw [replaceAll_before hpattern hnone]
        have hpos := List.length_pos_of_ne_nil hpattern
        have hlt : after.length < n := by
          rw [← hn, hsplit, List.length_append, List.length_append]
          omega
        exact .next hnone (ih after.length hlt rfl)

/-- A cell that is not the first one of the pattern is passed. -/
theorem replaceAll_cons_of_ne {p c : α} (h : c ≠ p) (s : List α) :
    replaceAll (p :: pattern) replacement (c :: s) =
      c :: replaceAll (p :: pattern) replacement s := by
  refine replaceAll_cons fun hp => ?_
  exact h (List.cons_prefix_cons.mp hp).1.symm

theorem replaceAll_append_of_notMem {p : α} {before : List α} (h : p ∉ before) (s : List α) :
    replaceAll (p :: pattern) replacement (before ++ s) =
      before ++ replaceAll (p :: pattern) replacement s := by
  induction before with
  | nil => rfl
  | cons c before ih =>
    rw [List.mem_cons, not_or] at h
    rw [List.cons_append, replaceAll_cons_of_ne (Ne.symm h.1), ih h.2]
    rfl

/-- A pattern of one cell. -/
theorem replaceAll_singleton (p r : α) (s : List α) :
    replaceAll [p] [r] s = s.map fun c => if c = p then r else c := by
  induction s with
  | nil => rfl
  | cons c s ih =>
    by_cases hc : c = p
    · rw [hc, List.map_cons, if_pos rfl, ← ih]
      exact replaceAll_occurrence (List.cons_ne_nil p []) s
    · rw [replaceAll_cons_of_ne hc, ih, List.map_cons, if_neg hc]

/-- A replacement that is shorter than the pattern makes the list shorter where it has been made. -/
theorem replaceAll_length (hshort : replacement.length < pattern.length) (s : List α) :
    (replaceAll pattern replacement s).length ≤ s.length ∧
      (pattern <:+: s → (replaceAll pattern replacement s).length < s.length) := by
  have hpattern : pattern ≠ [] := by
    rintro rfl
    exact absurd hshort (Nat.not_lt_zero _)
  have hreplaced : Replaced pattern replacement s (replaceAll pattern replacement s) :=
    (replaced_iff hpattern).mpr rfl
  generalize replaceAll pattern replacement s = t at hreplaced
  induction hreplaced with
  | done h => exact ⟨Nat.le_refl _, fun hin => absurd hin h⟩
  | next _ _ ih =>
    simp only [List.length_append]
    exact ⟨by omega, fun _ => by omega⟩

end Scan

/-! ## Directives of a marker and a letter -/

/-- A marker with a letter behind it gives what the letter stands for. -/
def fill (marker : α) (f : α → Option (List α)) : List α → List α
  | c :: x :: s =>
    if c = marker then
      match f x with
      | some r => r ++ fill marker f s
      | none => c :: fill marker f (x :: s)
    else c :: fill marker f (x :: s)
  | s => s

omit [DecidableEq α] in
/-- What is filled in has neither the marker nor the letter `d`. -/
structure Clean (marker d : α) (f : α → Option (List α)) : Prop where
  ne : d ≠ marker
  marker_none : f marker = none
  nonempty : ∀ x, f x ≠ some []
  noMarker : ∀ x r, f x = some r → marker ∉ r
  noLetter : ∀ x r, f x = some r → d ∉ r

section Fill

variable {marker d : α} {f : α → Option (List α)}

theorem fill_cons_of_ne {c : α} (h : c ≠ marker) (s : List α) :
    fill marker f (c :: s) = c :: fill marker f s := by
  cases s with
  | nil => rfl
  | cons x s => rw [fill, if_neg h]

theorem fill_some {x : α} {r : List α} (h : f x = some r) (s : List α) :
    fill marker f (marker :: x :: s) = r ++ fill marker f s := by
  rw [fill, if_pos rfl, h]

theorem fill_none {x : α} (h : f x = none) (s : List α) :
    fill marker f (marker :: x :: s) = marker :: fill marker f (x :: s) := by
  rw [fill, if_pos rfl, h]

/-- Nothing to fill in. -/
theorem fill_nothing (s : List α) : fill marker (fun _ => none) s = s := by
  induction s with
  | nil => rfl
  | cons c s ih =>
    by_cases hc : c = marker
    · subst hc
      cases s with
      | nil => rfl
      | cons x s => rw [fill_none rfl, ih]
    · rw [fill_cons_of_ne hc, ih]

/-- The first cell is a letter `d` only where it was one before. -/
theorem head_fill (h : Clean marker d f) (x : α) (s : List α) :
    (fill marker f (x :: s)).head? = some d ↔ x = d := by
  by_cases hx : x = marker
  · subst hx
    refine ⟨fun hhead => ?_, fun hd => absurd hd.symm h.ne⟩
    cases s with
    | nil => exact Option.some.inj hhead
    | cons y s =>
      cases hy : f y with
      | none =>
        rw [fill_none hy] at hhead
        exact Option.some.inj hhead
      | some r =>
        rw [fill_some hy] at hhead
        cases r with
        | nil => exact absurd hy (h.nonempty y)
        | cons c r =>
          have hc : c = d := Option.some.inj hhead
          exact absurd (hc ▸ List.mem_cons_self) (h.noLetter y _ hy)
  · rw [fill_cons_of_ne hx, List.head?_cons, Option.some.injEq]

omit [DecidableEq α] in
theorem pair_prefix_iff {s : List α} : [marker, d] <+: marker :: s ↔ s.head? = some d := by
  rw [List.cons_prefix_cons]
  cases s with
  | nil => simp
  | cons c s => simp [List.cons_prefix_cons, eq_comm]

omit [DecidableEq α] in
theorem pair_infix_cons {c : α} (h : c ≠ marker) (s : List α) :
    [marker, d] <:+: c :: s ↔ [marker, d] <:+: s := by
  rw [List.infix_cons_iff, List.cons_prefix_cons]
  exact or_iff_right fun hp => h hp.1.symm

omit [DecidableEq α] in
theorem pair_infix_append {r : List α} (h : marker ∉ r) (s : List α) :
    [marker, d] <:+: r ++ s ↔ [marker, d] <:+: s := by
  induction r with
  | nil => rfl
  | cons c r ih =>
    rw [List.mem_cons, not_or] at h
    rw [List.cons_append, pair_infix_cons (Ne.symm h.1), ih h.2]

/-- **Replacing a directive fills it in** beside those that have been filled in before. -/
theorem replaceAll_fill (h : Clean marker d f) (hd : f d = none) (t s : List α) :
    replaceAll [marker, d] t (fill marker f s) =
      fill marker (fun x => if x = d then some t else f x) s := by
  fun_induction fill marker f s with
  | case1 x s r hr ih =>
    have hx : x ≠ d := by
      rintro rfl
      rw [hd] at hr
      cases hr
    rw [replaceAll_append_of_notMem (h.noMarker x r hr), ih,
      fill_some (by rw [if_neg hx]; exact hr)]
  | case2 x s hx ih =>
    by_cases hxd : x = d
    · subst hxd
      -- the directive itself: its letter has been left where it was
      rw [fill_cons_of_ne h.ne] at ih ⊢
      rw [replaceAll_cons_of_ne h.ne, fill_cons_of_ne h.ne, List.cons.injEq] at ih
      have hfilled : (fun y => if y = x then some t else f y) x = some t := if_pos rfl
      rw [fill_some hfilled, ← ih.2]
      exact replaceAll_occurrence (List.cons_ne_nil _ _) _
    · have hp : ¬ [marker, d] <+: marker :: fill marker f (x :: s) := by
        rw [pair_prefix_iff, head_fill h]
        exact hxd
      rw [replaceAll_cons hp, ih, fill_none (by rw [if_neg hxd]; exact hx)]
  | case3 c x s hc ih => rw [replaceAll_cons_of_ne hc, ih, fill_cons_of_ne hc]
  | case4 s hs =>
    match s with
    | [] => rfl
    | [c] =>
      refine replaceAll_of_notInfix fun hin => ?_
      exact absurd hin.length_le (by simp)
    | c :: x :: s => exact (hs c x s rfl).elim

/-- **The directives that are left** are those that are not filled in. -/
theorem infix_fill_iff (h : Clean marker d f) (s : List α) :
    [marker, d] <:+: fill marker f s ↔ f d = none ∧ [marker, d] <:+: s := by
  fun_induction fill marker f s with
  | case1 x s r hr ih =>
    have hx : x ≠ marker := by
      rintro rfl
      rw [h.marker_none] at hr
      cases hr
    rw [pair_infix_append (h.noMarker x r hr), ih, List.infix_cons_iff, pair_prefix_iff,
      pair_infix_cons hx]
    refine and_congr_right fun hd => (or_iff_right fun hxd => ?_).symm
    obtain rfl : x = d := Option.some.inj hxd
    rw [hd] at hr
    cases hr
  | case2 x s hx ih =>
    have hsource : [marker, d] <:+: marker :: x :: s ↔ x = d ∨ [marker, d] <:+: x :: s := by
      rw [List.infix_cons_iff, pair_prefix_iff, List.head?_cons, Option.some.injEq]
    rw [hsource, List.infix_cons_iff, pair_prefix_iff, head_fill h, ih]
    constructor
    · rintro (rfl | ⟨hd, hin⟩)
      · exact ⟨hx, .inl rfl⟩
      · exact ⟨hd, .inr hin⟩
    · rintro ⟨hd, hxd | hin⟩
      · exact .inl hxd
      · exact .inr ⟨hd, hin⟩
  | case3 c x s hc ih => rw [pair_infix_cons hc, ih, pair_infix_cons hc]
  | case4 s hs =>
    match s with
    | [] => simp
    | [c] =>
      have hno : ¬ [marker, d] <:+: [c] := fun hin => absurd hin.length_le (by simp)
      exact ⟨fun hin => absurd hin hno, fun hin => absurd hin.2 hno⟩
    | c :: x :: s => exact (hs c x s rfl).elim

theorem fill_ne_nil (hf : ∀ x, f x ≠ some []) {s : List α} (hs : s ≠ []) :
    fill marker f s ≠ [] := by
  fun_cases fill marker f s with
  | case1 x s r hr =>
    intro hnil
    exact hf x (by rw [hr, (List.append_eq_nil_iff.mp hnil).1])
  | case2 => exact List.cons_ne_nil _ _
  | case3 => exact List.cons_ne_nil _ _
  | case4 => exact hs

end Fill

end Replace
