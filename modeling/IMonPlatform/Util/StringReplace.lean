import IMonPlatform.Lib.Replace

/-!
# `string_replace_all`

The loop searches the text that it changes, and goes on behind what it has put in.  So the part of
the text in front of the offset is done, and the part behind it is still that of `src`.

* `find`, `replaceLoop`, `string_replace_all` — the source's functions, for both character types.
* `replaceLoop_done` — from a finished part and the rest of `src`, the loop replaces in the rest.
* `string_replace_all_replaced` — a pattern that is not empty is replaced from left to right.
-/

set_option autoImplicit false

namespace IMonPlatform

open Replace

variable {α : Type} [DecidableEq α]

/-- `std::basic_string::find`; `none` is `npos`. -/
def find (s pattern : List α) (offset : Nat) : Option Nat :=
  if offset ≤ s.length then (firstAt pattern (s.drop offset)).map (offset + ·) else none

section Loop

variable (pattern replace : List α)

/-- The loop; `none` is a loop that needs more rounds. -/
def replaceLoop : Nat → List α → Nat → Option (List α)
  | 0, _, _ => none
  | rounds + 1, result, offset =>
    match find result pattern offset with
    | none => some result
    | some pos =>
      replaceLoop rounds (result.take pos ++ replace ++ result.drop (pos + pattern.length))
        (pos + replace.length)

end Loop

/-- Every round takes a cell of `src` away if the pattern is not empty; a round more ends the
loop. -/
def string_replace_all (src pattern replace : List α) : Option (List α) :=
  replaceLoop pattern replace (src.length + 1) src 0

theorem find_append (done rest pattern : List α) :
    find (done ++ rest) pattern done.length = (firstAt pattern rest).map (done.length + ·) := by
  rw [find, if_pos (by rw [List.length_append]; omega), List.drop_left]

/-- **A loop that is done with `done`** replaces what is left of `src`. -/
theorem replaceLoop_done {pattern : List α} (hpattern : pattern ≠ []) (replace : List α) :
    ∀ (rounds : Nat) (done rest : List α), rest.length < rounds →
      replaceLoop pattern replace rounds (done ++ rest) done.length =
        some (done ++ replaceAll pattern replace rest) := by
  intro rounds
  induction rounds with
  | zero =>
    intro done rest hlt
    omega
  | succ rounds ih =>
    intro done rest hlt
    rw [replaceLoop, find_append]
    cases hfirst : firstAt pattern rest with
    | none =>
      rw [replaceAll_of_notInfix (firstAt_none hfirst)]
      rfl
    | some i =>
      obtain ⟨before, after, rfl, rfl, hnone⟩ := firstAt_parts hfirst
      have hpos := List.length_pos_of_ne_nil hpattern
      rw [List.length_append, List.length_append] at hlt
      -- what the round puts in is done, what was behind the occurrence is left
      have hparts : done ++ (before ++ pattern ++ after) =
          (done ++ before) ++ (pattern ++ after) := by simp only [List.append_assoc]
      have htake : (done ++ (before ++ pattern ++ after)).take (done.length + before.length) =
          done ++ before := by
        rw [hparts, ← List.length_append, List.take_left]
      have hdrop : (done ++ (before ++ pattern ++ after)).drop
          (done.length + before.length + pattern.length) = after := by
        rw [hparts, ← List.append_assoc, ← List.length_append, ← List.length_append, List.drop_left]
      have hoffset : done.length + before.length + replace.length =
          (done ++ before ++ replace).length := by simp only [List.length_append]
      simp only [Option.map_some]
      rw [htake, hdrop, hoffset, ih _ after (by omega), replaceAll_before hpattern hnone]
      simp

theorem string_replace_all_eq {pattern : List α} (hpattern : pattern ≠ []) (src replace : List α) :
    string_replace_all src pattern replace = some (replaceAll pattern replace src) :=
  replaceLoop_done hpattern replace (src.length + 1) [] src (Nat.lt_succ_self _)

/-- **`string_replace_all` returns `src` with its occurrences of the pattern replaced from left to
right**, and nothing else. -/
theorem string_replace_all_replaced (src pattern replace : List α) (hpattern : pattern ≠ []) :
    ∃ result, (∀ rounds, src.length < rounds →
        replaceLoop pattern replace rounds src 0 = some result) ∧
      string_replace_all src pattern replace = some result ∧
      Replaced pattern replace src result ∧
      ∀ other, Replaced pattern replace src other → other = result := by
  refine ⟨replaceAll pattern replace src, ?_, string_replace_all_eq hpattern src replace,
    (replaced_iff hpattern).mpr rfl, fun other => (replaced_iff hpattern).mp⟩
  intro rounds hlt
  exact replaceLoop_done hpattern replace rounds [] src hlt

/-- In "aaa" with "aa" for the pattern one occurrence counts; the replacement holds the pattern. -/
theorem overlap_replaced :
    ∃ result, (∀ rounds, 3 < rounds →
        replaceLoop ['a', 'a'] ['b', 'a', 'a'] rounds ['a', 'a', 'a'] 0 = some result) ∧
      string_replace_all ['a', 'a', 'a'] ['a', 'a'] ['b', 'a', 'a'] = some result ∧
      Replaced ['a', 'a'] ['b', 'a', 'a'] ['a', 'a', 'a'] result ∧
      ∀ other, Replaced ['a', 'a'] ['b', 'a', 'a'] ['a', 'a', 'a'] other → other = result :=
  string_replace_all_replaced ['a', 'a', 'a'] ['a', 'a'] ['b', 'a', 'a'] (by decide)

example : string_replace_all ['a', 'a', 'a'] ['a', 'a'] ['b', 'a', 'a'] =
    some ['b', 'a', 'a', 'a'] := by decide

/-- An empty pattern stands at every offset, so that the loop has no end. -/
theorem empty_pattern_never_ends (replace : List α) (rounds : Nat) :
    ∀ (result : List α) (offset : Nat), offset ≤ result.length →
      replaceLoop [] replace rounds result offset = none := by
  induction rounds with
  | zero =>
    intro result offset _
    rfl
  | succ rounds ih =>
    intro result offset hle
    have hfind : find result [] offset = some offset := by
      have hfirst : ∀ s : List α, firstAt [] s = some 0 := by
        intro s
        cases s <;> rfl
      rw [find, if_pos hle, hfirst]
      rfl
    rw [replaceLoop, hfind]
    refine ih _ _ ?_
    simp only [List.length_append, List.length_take, List.length_drop, List.length_nil]
    omega

end IMonPlatform
