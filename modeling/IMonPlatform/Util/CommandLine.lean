import IMonPlatform.Util.StringReplace
import IMonPlatform.Util.DateTime

/-!
# `GetWordsUsingDelimiter`

A command line has a value right behind each key.  The search for the end of the value goes over its
first cell, so that the end of an empty value is not found.

* `Value`, `Pair`, `render` — command lines.
* `GetWordsUsingDelimiter` — the source's function; `wordFrom_cons` — what it returns of a value.
* `value_returned_iff` — the value of a key is returned exactly if it is not empty, or stands
  without quotes at the end of the line.
-/

set_option autoImplicit false

namespace IMonPlatform.CommandLine

open Format (CharT)
open Logger (Text text)
open DateTime (charAt substr charAt_append)
open Replace

def QUOTE : CharT := '\"'.toNat

def BLANK : CharT := ' '.toNat

/-! ## Command lines -/

inductive Value where
  | quoted (s : Text) (noQuote : QUOTE ∉ s)
  | bare (s : Text) (noBlank : BLANK ∉ s) (noQuote : QUOTE ∉ s)

def Value.content : Value → Text
  | .quoted s _ => s
  | .bare s _ _ => s

def Value.source : Value → Text
  | .quoted s _ => QUOTE :: s ++ [QUOTE]
  | .bare s _ _ => s

def Value.isBare : Value → Bool
  | .quoted _ _ => false
  | .bare _ _ _ => true

structure Pair where
  name : Text
  value : Value

/-- `/Name:` -/
def Pair.key (p : Pair) : Text := '/'.toNat :: p.name ++ [':'.toNat]

def Pair.source (p : Pair) : Text := p.key ++ p.value.source

/-- The pairs with single blanks between them. -/
def render (pairs : List Pair) : Text := [BLANK].intercalate (pairs.map Pair.source)

/-- What stands in front of the pair behind these. -/
def front (pairs : List Pair) : Text := pairs.flatMap fun p => p.source ++ [BLANK]

/-- What stands behind the pair in front of these. -/
def behind (pairs : List Pair) : Text := pairs.flatMap fun p => BLANK :: p.source

/-! ## The function -/

/-- The end of the value is searched one cell behind its start. -/
def wordFrom (strMessage : Text) (startPos : Nat) (mark : CharT) : Option Text :=
  match find strMessage [mark] (startPos + 1) with
  | none => substr strMessage startPos strMessage.length
  | some endPos => substr strMessage startPos (endPos - startPos)

/-- `none` is `std::out_of_range`, or a subscript behind the text. -/
def GetWordsUsingDelimiter (strMessage delimiter : Text) : Option Text :=
  match find strMessage delimiter 0 with
  | none => some []
  | some pos => do
    let startPos := pos + delimiter.length
    if (← charAt strMessage startPos) = QUOTE then wordFrom strMessage (startPos + 1) QUOTE
    else wordFrom strMessage startPos BLANK

/-! ## The words -/

/-- **A word has its first cell, whatever it is**, and goes on to the next mark. -/
theorem wordFrom_cons (done : Text) (c : CharT) (rest : Text) (mark : CharT) :
    wordFrom (done ++ c :: rest) done.length mark =
      some (c :: rest.takeWhile (· ≠ mark)) := by
  have hfind : find (done ++ c :: rest) [mark] (done.length + 1) =
      (firstAt [mark] rest).map (done.length + 1 + ·) := by
    have h := find_append (done ++ [c]) rest [mark]
    rwa [List.append_assoc, List.length_append, List.length_singleton] at h
  have hsub : ∀ n, substr (done ++ c :: rest) done.length n = some ((c :: rest).take n) :=
    DateTime.substr_append done (c :: rest)
  rw [wordFrom, hfind, firstAt_singleton]
  by_cases hmem : mark ∈ rest
  · rw [if_pos hmem, Option.map_some]
    dsimp only
    rw [hsub, show done.length + 1 + (rest.takeWhile (· ≠ mark)).length - done.length =
      (rest.takeWhile (· ≠ mark)).length + 1 by omega, List.take_succ_cons,
      List.prefix_iff_eq_take.mp (List.takeWhile_prefix _)]
    simp
  · rw [if_neg hmem, Option.map_none]
    dsimp only
    rw [hsub, takeWhile_of_notMem hmem, List.take_of_length_le]
    rw [List.length_append]
    omega

theorem wordFrom_end (done : Text) (mark : CharT) : wordFrom done done.length mark = some [] := by
  rw [wordFrom, find, if_neg (by omega)]
  dsimp only
  rw [substr, if_pos (Nat.le_refl _), List.drop_length, List.take_nil]

/-- A value ends in front of its mark. -/
theorem takeWhile_mark {s rest : Text} {mark : CharT} (hs : mark ∉ s)
    (hrest : rest = [] ∨ rest.head? = some mark) : (s ++ rest).takeWhile (· ≠ mark) = s := by
  rw [takeWhile_append_of_notMem hs]
  cases rest with
  | nil => simp
  | cons c rest =>
    rcases hrest with hnil | hhead
    · cases hnil
    · rw [Option.some.inj hhead]
      simp

section Words

variable {before after : List Pair} {p : Pair}

theorem render_cons (p : Pair) (after : List Pair) :
    render (p :: after) = p.source ++ behind after := by
  induction after generalizing p with
  | nil => simp [render, behind]
  | cons q after ih =>
    have h := ih q
    rw [render, List.map_cons] at h
    rw [render, List.map_cons, List.map_cons, List.intercalate_cons_cons, h]
    simp [behind]

theorem render_append : render (before ++ p :: after) =
    front before ++ (p.source ++ behind after) := by
  induction before with
  | nil => exact render_cons p after
  | cons q before ih =>
    obtain ⟨r, rest, hne⟩ : ∃ r rest, before ++ p :: after = r :: rest := by
      cases before with
      | nil => exact ⟨p, after, rfl⟩
      | cons r before => exact ⟨r, before ++ p :: after, rfl⟩
    have hstep : render (q :: (before ++ p :: after)) =
        q.source ++ [BLANK] ++ render (before ++ p :: after) := by
      rw [hne, render, render, List.map_cons, List.map_cons, List.intercalate_cons_cons]
    rw [List.cons_append, hstep, ih]
    simp [front]

theorem behind_head (after : List Pair) :
    behind after = [] ∨ (behind after).head? = some BLANK := by
  cases after with
  | nil => exact .inl rfl
  | cons q after => exact .inr rfl

theorem behind_nil_iff : behind after = [] ↔ after = [] := by
  cases after with
  | nil => exact ⟨fun _ => rfl, fun _ => rfl⟩
  | cons q after => exact ⟨nofun, nofun⟩

/-- From a key on, whose position has been found. -/
theorem words_at_key (hfirst : find (render (before ++ p :: after)) p.key 0 =
    some (front before).length) {t : Text} (ht : p.value.source ++ behind after = t) :
    GetWordsUsingDelimiter (render (before ++ p :: after)) p.key =
      if t.headD 0 = QUOTE then
        wordFrom (front before ++ p.key ++ t) ((front before ++ p.key).length + 1) QUOTE
      else wordFrom (front before ++ p.key ++ t) (front before ++ p.key).length BLANK := by
  have hsplit : render (before ++ p :: after) = front before ++ p.key ++ t := by
    rw [render_append, Pair.source, ← ht]
    simp only [List.append_assoc]
  have hcell := charAt_append (front before ++ p.key) t
  rw [GetWordsUsingDelimiter, hfirst]
  dsimp only
  rw [hsplit, ← List.length_append, hcell, Option.bind_eq_bind, Option.bind_some]

/-- What is returned of a quoted value. -/
theorem words_quoted (hfirst : find (render (before ++ p :: after)) p.key 0 =
    some (front before).length) {c : CharT} {t : Text}
    (ht : p.value.source ++ behind after = QUOTE :: c :: t) :
    GetWordsUsingDelimiter (render (before ++ p :: after)) p.key =
      some (c :: t.takeWhile (· ≠ QUOTE)) := by
  have hlen : (front before ++ p.key).length + 1 = (front before ++ p.key ++ [QUOTE]).length := by
    simp only [List.length_append, List.length_singleton]
  have hparts : front before ++ p.key ++ QUOTE :: c :: t =
      front before ++ p.key ++ [QUOTE] ++ c :: t := by simp
  rw [words_at_key hfirst ht, List.headD_cons, if_pos rfl, hlen, hparts, wordFrom_cons]

/-- What is returned where there is no quote. -/
theorem words_bare (hfirst : find (render (before ++ p :: after)) p.key 0 =
    some (front before).length) {c : CharT} {t : Text} (hc : c ≠ QUOTE)
    (ht : p.value.source ++ behind after = c :: t) :
    GetWordsUsingDelimiter (render (before ++ p :: after)) p.key =
      some (c :: t.takeWhile (· ≠ BLANK)) := by
  rw [words_at_key hfirst ht, List.headD_cons, if_neg hc, wordFrom_cons]

theorem words_nothing (hfirst : find (render (before ++ p :: after)) p.key 0 =
    some (front before).length) (ht : p.value.source ++ behind after = []) :
    GetWordsUsingDelimiter (render (before ++ p :: after)) p.key = some [] := by
  have hno : ¬ ([] : Text).headD 0 = QUOTE := by decide
  rw [words_at_key hfirst ht, if_neg hno, List.append_nil, wordFrom_end]

/-- **The value of a key is returned exactly if it is not empty**, or is without quotes and the last
one. -/
theorem value_returned_iff (before after : List Pair) (p : Pair)
    (hfirst : find (render (before ++ p :: after)) p.key 0 = some (front before).length) :
    GetWordsUsingDelimiter (render (before ++ p :: after)) p.key = some p.value.content ↔
      p.value.content ≠ [] ∨ p.value.isBare = true ∧ after = [] := by
  obtain ⟨name, value⟩ := p
  have hrest := behind_head after
  cases value with
  | quoted s hquote =>
    cases s with
    | nil =>
      rw [words_quoted hfirst rfl]
      exact ⟨nofun, fun h => h.elim (absurd rfl) nofun⟩
    | cons c s =>
      rw [List.mem_cons, not_or] at hquote
      have ht : QUOTE :: (c :: s) ++ [QUOTE] ++ behind after =
          QUOTE :: c :: (s ++ QUOTE :: behind after) := by simp
      rw [words_quoted hfirst ht, takeWhile_mark hquote.2 (.inr rfl)]
      exact ⟨fun _ => .inl (List.cons_ne_nil c s), fun _ => rfl⟩
  | bare s hblank hquote =>
    cases s with
    | nil =>
      rcases hrest with hnil | hhead
      · rw [words_nothing hfirst hnil]
        exact ⟨fun _ => .inr ⟨rfl, behind_nil_iff.mp hnil⟩, fun _ => rfl⟩
      · obtain ⟨rest, hbehind⟩ := List.head?_eq_some_iff.mp hhead
        have hne : after ≠ [] := by
          rintro rfl
          cases hhead
        rw [words_bare hfirst (show BLANK ≠ QUOTE by decide) hbehind]
        exact ⟨nofun, fun h => h.elim (absurd rfl) fun h => absurd h.2 hne⟩
    | cons c s =>
      rw [List.mem_cons, not_or] at hblank hquote
      have ht : (c :: s) ++ behind after = c :: (s ++ behind after) := rfl
      rw [words_bare hfirst (Ne.symm hquote.1) ht, takeWhile_mark hblank.2 hrest]
      exact ⟨fun _ => .inl (List.cons_ne_nil c s), fun _ => rfl⟩

end Words

/-- `/A:"" /B:x` -/
def emptyFirst : List Pair :=
  [⟨text "A", .quoted [] List.not_mem_nil⟩, ⟨text "B", .bare (text "x") (by decide) (by decide)⟩]

/-- The value of `/B:`. -/
theorem last_value_returned :
    GetWordsUsingDelimiter (render emptyFirst) (text "/B:") = some (text "x") :=
  (value_returned_iff [⟨text "A", .quoted [] List.not_mem_nil⟩] []
    ⟨text "B", .bare (text "x") (by decide) (by decide)⟩ (by decide)).mpr (.inl (by decide))

/-- The empty value of `/A:` comes with what is behind it. -/
theorem empty_value_wrong : find (render emptyFirst) (text "/A:") 0 = some 0 ∧
    GetWordsUsingDelimiter (render emptyFirst) (text "/A:") = some (text "\" /B:x") ∧
    GetWordsUsingDelimiter (render emptyFirst) (text "/A:") ≠
      some (Value.content (.quoted [] List.not_mem_nil)) := by
  decide

end IMonPlatform.CommandLine
