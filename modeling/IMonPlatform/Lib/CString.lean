import Mathlib.Data.List.TakeWhile

/-!
# Pointers into C strings

A pointer into a C string is the row of cells from the one it points at to the terminating zero,
which is the last cell of the row.  Going forward drops cells; reading takes the first cell, and
where there is none left the read is behind the zero and fails.

* `spanWhile` — a scanning loop.
* `agrees` — a comparison with a word, cell by cell; it reads no further than the first difference.
* `choose` — a chain of such comparisons; `firstWord` is what it finds.
* `readBlock` — a block of cells.
* `cells` — a text with its zero.  Each of the reads has one lemma that says what it does there.
* `stringAt` — the string that a pointer points at; `stringAt_eq_some_iff` — where there is one.
-/

set_option autoImplicit false

namespace CString

variable {α β : Type*}

/-! ## Reads -/

/-- `while( p( *s ) ) ++s`: what was passed, and the pointer. -/
def spanWhile (p : α → Bool) : List α → Option (List α × List α)
  | [] => none
  | c :: rest =>
    if p c then (spanWhile p rest).map fun r => (c :: r.1, r.2) else some ([], c :: rest)

/-- A block of `n` cells, all of them read. -/
def readBlock (s : List α) (n : Nat) : Option (List α) :=
  if n ≤ s.length then some (s.take n) else none

section Words

variable [DecidableEq α]

/-- `s[0] == w[0] && s[1] == w[1] && ..` -/
def agrees : List α → List α → Option Bool
  | [], _ => some true
  | _ :: _, [] => none
  | w :: word, c :: rest => if w = c then agrees word rest else some false

/-- `if( s agrees with the first word ) .. else if( .. )`: the value of the word that is taken. -/
def choose (s : List α) : List (List α × β) → Option (Option β)
  | [] => some none
  | entry :: table =>
    (agrees entry.1 s).bind fun yes => if yes then some (some entry.2) else choose s table

/-- The first word that a text starts with. -/
def firstWord (text : List α) : List (List α × β) → Option β
  | [] => none
  | entry :: table => if entry.1.isPrefixOf text then some entry.2 else firstWord text table

theorem firstWord_mem {text : List α} {b : β} :
    ∀ {table : List (List α × β)}, firstWord text table = some b →
      ∃ word rest, (word, b) ∈ table ∧ text = word ++ rest
  | [], h => by cases h
  | entry :: table, h => by
    unfold firstWord at h
    split at h
    · rename_i hword
      cases h
      obtain ⟨rest, rfl⟩ := List.isPrefixOf_iff_prefix.mp hword
      exact ⟨entry.1, rest, List.mem_cons_self .., rfl⟩
    · obtain ⟨word, rest, hmem, htext⟩ := firstWord_mem h
      exact ⟨word, rest, List.mem_cons_of_mem entry hmem, htext⟩

/-- A loop that goes on to `stop` ends at it. -/
theorem dropWhile_stop {stop c : α} {text tail : List α}
    (h : text.dropWhile (· != stop) = c :: tail) : c = stop := by
  have hnot := List.head?_dropWhile_not (· != stop) text
  rw [h] at hnot
  simpa using hnot

end Words

/-! ## At the cells of a text -/

variable [Zero α]

/-- The characters of a text and the zero behind them. -/
def cells (text : List α) : List α := text ++ [0]

@[simp] theorem cells_nil : cells ([] : List α) = [0] := rfl

@[simp] theorem cells_cons (c : α) (text : List α) : cells (c :: text) = c :: cells text := rfl

theorem drop_cells {text : List α} {n : Nat} (h : n ≤ text.length) :
    (cells text).drop n = cells (text.drop n) :=
  List.drop_append_of_le_length h

/-- A read gives a character or the zero. -/
@[simp] theorem head_cells (text : List α) : (cells text).head? = some (text.headD 0) := by
  cases text <;> rfl

/-- A condition that fails on zero ends the loop inside the string. -/
theorem spanWhile_cells {p : α → Bool} (hp : p 0 = false) (text : List α) :
    spanWhile p (cells text) = some (text.takeWhile p, cells (text.dropWhile p)) := by
  induction text with
  | nil => simp [spanWhile, hp]
  | cons c text ih =>
    rw [cells_cons, spanWhile]
    by_cases hc : p c = true
    · rw [if_pos hc, ih, List.takeWhile_cons_of_pos hc, List.dropWhile_cons_of_pos hc]
      rfl
    · rw [if_neg hc, List.takeWhile_cons_of_neg hc, List.dropWhile_cons_of_neg hc]
      rfl

theorem readBlock_cells {text : List α} {n : Nat} (h : n ≤ text.length) :
    readBlock (cells text) n = some (text.take n) := by
  have hlen : n ≤ (cells text).length := by
    rw [cells, List.length_append]
    omega
  rw [readBlock, if_pos hlen, cells, List.take_append_of_le_length h]

variable [DecidableEq α]

/-- `*s && *s != stop`. -/
def before (stop c : α) : Bool := c != 0 && c != stop

/-- On a text without a zero only `stop` ends the loop. -/
theorem spanWhile_before (stop : α) {text : List α} (h : 0 ∉ text) :
    spanWhile (before stop) (cells text) =
      some (text.takeWhile (· != stop), cells (text.dropWhile (· != stop))) := by
  have hzero : before stop (0 : α) = false := by simp [before]
  rw [spanWhile_cells hzero]
  have hsame : ∀ c ∈ text, before stop c = (c != stop) := by
    intro c hc
    have hne : c ≠ 0 := fun h0 => h (h0 ▸ hc)
    simp [before, hne]
  clear h hzero
  induction text with
  | nil => rfl
  | cons c text ih =>
    have hc := hsame c (List.mem_cons_self ..)
    have htext := ih fun d hd => hsame d (List.mem_cons_of_mem c hd)
    simp only [Option.some.injEq, Prod.mk.injEq] at htext
    simp only [List.takeWhile_cons, List.dropWhile_cons, hc]
    split
    · rw [htext.1, htext.2]
    · rfl

/-- A word without a zero differs from the string at its end at the latest. -/
theorem agrees_cells {word : List α} (h : 0 ∉ word) (text : List α) :
    agrees word (cells text) = some (word.isPrefixOf text) := by
  induction word generalizing text with
  | nil => simp [agrees]
  | cons w word ih =>
    have hw : w ≠ 0 := fun h0 => h (h0 ▸ List.mem_cons_self ..)
    have hword : 0 ∉ word := fun hmem => h (List.mem_cons_of_mem w hmem)
    cases text with
    | nil => simp [agrees, hw]
    | cons c text =>
      rw [cells_cons, agrees, ih hword]
      by_cases hc : w = c
      · simp [hc]
      · rw [if_neg hc, List.isPrefixOf, beq_eq_false_iff_ne.mpr hc, Bool.false_and]

theorem choose_cells (text : List α) :
    ∀ table : List (List α × β), (∀ entry ∈ table, 0 ∉ entry.1) →
      choose (cells text) table = some (firstWord text table)
  | [], _ => rfl
  | entry :: table, h => by
    have htable := choose_cells text table fun e he => h e (List.mem_cons_of_mem entry he)
    rw [choose, agrees_cells (h entry (List.mem_cons_self ..)), Option.bind_some, firstWord]
    split
    · rfl
    · exact htable

/-! ## The string at a pointer -/

/-- The characters up to the next zero. -/
def stringAt (s : List α) : Option (List α) := (spanWhile (· != 0) s).map Prod.fst

theorem stringAt_cons (c : α) (s : List α) :
    stringAt (c :: s) = if c = 0 then some [] else (stringAt s).map (c :: ·) := by
  rw [stringAt, spanWhile]
  by_cases hc : c = 0
  · simp [hc]
  · simp only [bne_iff_ne, ne_eq, hc, not_false_eq_true, if_true, if_false, stringAt,
      Option.map_map]
    rfl

/-- **There is a string exactly where there is a zero to end it.** -/
theorem stringAt_eq_some_iff {s text : List α} :
    stringAt s = some text ↔ 0 ∉ text ∧ ∃ behind, s = text ++ 0 :: behind := by
  induction s generalizing text with
  | nil => simp [stringAt, spanWhile]
  | cons c s ih =>
    rw [stringAt_cons]
    by_cases hc : c = 0
    · rw [if_pos hc, hc]
      constructor
      · rintro ⟨rfl⟩
        exact ⟨List.not_mem_nil, s, rfl⟩
      · rintro ⟨hzero, behind, hs⟩
        cases text with
        | nil => rfl
        | cons d text =>
          have hd : (0 : α) = d := (List.cons.inj hs).1
          exact absurd (hd ▸ List.mem_cons_self) hzero
    · rw [if_neg hc, Option.map_eq_some_iff]
      constructor
      · rintro ⟨rest, hrest, rfl⟩
        obtain ⟨hzero, behind, rfl⟩ := ih.mp hrest
        exact ⟨by simp [Ne.symm hc, hzero], behind, rfl⟩
      · rintro ⟨hzero, behind, hs⟩
        cases text with
        | nil => exact absurd (List.cons.inj hs).1 hc
        | cons d text =>
          obtain ⟨rfl, rfl⟩ := List.cons.inj hs
          have hrest := ih.mpr ⟨fun hmem => hzero (List.mem_cons_of_mem c hmem), behind, rfl⟩
          exact ⟨text, hrest, rfl⟩

theorem stringAt_append {text : List α} (h : 0 ∉ text) (behind : List α) :
    stringAt (text ++ 0 :: behind) = some text :=
  stringAt_eq_some_iff.mpr ⟨h, behind, rfl⟩

end CString
