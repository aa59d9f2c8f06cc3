import IMonPlatform.Format.Language
import IMonPlatform.Util.StringReplace

/-!
# A text in a format string

`string_replace_all` with `%` for the pattern and `%%` for the replacement makes of any text a piece
of a format string that stands for the text itself: no part of it is read as a directive, wherever it
is put in.

* `textPieces` — the pieces that a text is escaped to.
* `replaceAll_percent`, `meaning_textPieces` — how they are written, and what they stand for.
* `rounds`, `meaning_append` — the meaning of one row of pieces behind another.
* `EndsBare`, `wellFormed_append` — when two well-formed rows are one.
* `escaped_text_inserted` — `doFormat` gives an escaped text back.
-/

set_option autoImplicit false

namespace IMonPlatform.Format

variable {Arg : Type}

/-! ## The pieces of a text -/

/-- `%%` for each percent, and every other character for itself. -/
def textPieces : List CharT → List Piece
  | [] => []
  | c :: text =>
    if c = '%'.toNat then .percent :: textPieces text else .literal [c] :: textPieces text

theorem textPieces_percent (text : List CharT) :
    textPieces ('%'.toNat :: text) = .percent :: textPieces text := if_pos rfl

theorem textPieces_of_ne {c : CharT} (h : c ≠ '%'.toNat) (text : List CharT) :
    textPieces (c :: text) = .literal [c] :: textPieces text := if_neg h

theorem source_cons (p : Piece) (ps : List Piece) : source (p :: ps) = p.source ++ source ps := rfl

theorem source_append (ps qs : List Piece) : source (ps ++ qs) = source ps ++ source qs :=
  List.flatMap_append

/-- **The escaped text** is what its pieces are written as. -/
theorem replaceAll_percent (text : List CharT) :
    Replace.replaceAll ['%'.toNat] ['%'.toNat, '%'.toNat] text = source (textPieces text) := by
  induction text with
  | nil => rfl
  | cons c text ih =>
    by_cases hc : c = '%'.toNat
    · subst hc
      rw [textPieces_percent, source_cons, ← ih]
      exact Replace.replaceAll_occurrence (List.cons_ne_nil _ _) text
    · rw [Replace.replaceAll_cons_of_ne hc, ih, textPieces_of_ne hc, source_cons]
      rfl

/-! ## Rows of pieces -/

/-- The rounds of the loop that end with a piece of the row. -/
def rounds : List Piece → Nat
  | [] => 0
  | .literal _ :: ps => rounds ps
  | .percent :: ps | .arg _ _ :: ps | .env _ :: ps => rounds ps + 1

section Meaning

variable (formatValue : Arg → Flags → List CharT → CText) (env : Nat → EnvKind → ScratchText)
  (args : List Arg)

/-- A row behind another one goes on with its rounds. -/
theorem meaning_append (ps qs : List Piece) (round : Nat) :
    meaning formatValue env args round (ps ++ qs) =
      meaning formatValue env args round ps ++
        meaning formatValue env args (round + rounds ps) qs := by
  induction ps generalizing round with
  | nil => rfl
  | cons p ps ih =>
    have hnext : round + (rounds ps + 1) = round + 1 + rounds ps := by omega
    cases p with
    | literal text => simp [meaning, rounds, ih]
    | percent => simp [meaning, rounds, ih, hnext]
    | arg digits spec => simp [meaning, rounds, ih, hnext]
    | env kind => simp [meaning, rounds, ih, hnext]

/-- **A text stands for itself**, with any arguments. -/
theorem meaning_textPieces (text : List CharT) (round : Nat) :
    meaning formatValue env args round (textPieces text) = text := by
  induction text generalizing round with
  | nil => rfl
  | cons c text ih =>
    by_cases hc : c = '%'.toNat
    · subst hc
      rw [textPieces_percent, meaning, ih]
    · rw [textPieces_of_ne hc, meaning, ih]
      rfl

end Meaning

/-- Every percent takes a round. -/
theorem rounds_textPieces (text : List CharT) :
    rounds (textPieces text) = text.count '%'.toNat := by
  induction text with
  | nil => rfl
  | cons c text ih =>
    by_cases hc : c = '%'.toNat
    · subst hc
      rw [textPieces_percent, rounds, ih, List.count_cons_self]
    · rw [textPieces_of_ne hc, rounds, ih, List.count_cons_of_ne hc]

/-- Behind a bare `%k` of the row nothing is written. -/
def EndsBare : List Piece → Prop
  | [] => False
  | .arg _ none :: ps => source ps = [] ∨ EndsBare ps
  | .arg _ (some _) :: ps | .literal _ :: ps | .percent :: ps | .env _ :: ps => EndsBare ps

theorem bareOk_append (next rest : List CharT) :
    BareOk (next ++ rest) ↔ BareOk next ∧ (next = [] → BareOk rest) := by
  cases next with
  | nil => simp [BareOk]
  | cons c next => simp [BareOk]

/-- **Two rows are well formed as one** if no directive runs on from the first into the second. -/
theorem wellFormed_append {n : Nat} (ps qs : List Piece) :
    WellFormed n (ps ++ qs) ↔
      WellFormed n ps ∧ WellFormed n qs ∧ (EndsBare ps → BareOk (source qs)) := by
  induction ps with
  | nil => simp [WellFormed, EndsBare]
  | cons p ps ih =>
    cases p with
    | literal text => simp only [List.cons_append, WellFormed, EndsBare, ih, and_assoc]
    | percent => simp only [List.cons_append, WellFormed, EndsBare, ih]
    | env kind => simp only [List.cons_append, WellFormed, EndsBare, ih]
    | arg digits spec =>
      cases spec with
      | some spec =>
        simp only [List.cons_append, WellFormed, EndsBare, Option.elim_some, ih, and_assoc]
      | none =>
        simp only [List.cons_append, WellFormed, EndsBare, Option.elim_none, source_append,
          bareOk_append, ih, or_imp]
        constructor
        · rintro ⟨hdigits, ⟨hbare, hempty⟩, hps, hqs, hends⟩
          exact ⟨⟨hdigits, hbare, hps⟩, hqs, hempty, hends⟩
        · rintro ⟨⟨hdigits, hbare, hps⟩, hqs, hempty, hends⟩
          exact ⟨hdigits, ⟨hbare, hempty⟩, hps, hqs, hends⟩

/-- A text without NUL is a row of its own. -/
theorem wellFormed_textPieces {n : Nat} {text : List CharT} (hnul : 0 ∉ text) :
    WellFormed n (textPieces text) ∧ ¬ EndsBare (textPieces text) := by
  induction text with
  | nil => exact ⟨trivial, id⟩
  | cons c text ih =>
    obtain ⟨hhead, htail⟩ := List.ne_and_not_mem_of_not_mem_cons hnul
    obtain ⟨hwf, hends⟩ := ih htail
    by_cases hc : c = '%'.toNat
    · subst hc
      rw [textPieces_percent]
      exact ⟨hwf, hends⟩
    · rw [textPieces_of_ne hc]
      exact ⟨⟨⟨by simpa using Ne.symm hc, by simpa using hhead⟩, hwf⟩, hends⟩

/-- The escaped text begins as the text does. -/
theorem bareOk_textPieces {text rest : List CharT} (h : BareOk (text ++ rest)) :
    BareOk (source (textPieces text) ++ rest) := by
  cases text with
  | nil => exact h
  | cons c text =>
    by_cases hc : c = '%'.toNat
    · subst hc
      rw [textPieces_percent]
      exact h
    · rw [textPieces_of_ne hc]
      exact h

/-- The escaped text between two rows. -/
theorem wellFormed_inserted {n : Nat} {before after : List Piece} {text : List CharT}
    (hbefore : WellFormed n before) (hafter : WellFormed n after) (hnul : 0 ∉ text)
    (hjoin : EndsBare before → BareOk (text ++ source after)) :
    WellFormed n (before ++ textPieces text ++ after) := by
  obtain ⟨htext, hends⟩ := wellFormed_textPieces (n := n) hnul
  rw [List.append_assoc, wellFormed_append, wellFormed_append, source_append]
  exact ⟨hbefore, ⟨htext, hafter, fun h => absurd h hends⟩, fun h => bareOk_textPieces (hjoin h)⟩

/-- **An escaped text in a format**: between two well-formed rows of pieces `doFormat` gives a text
    back whose percents `string_replace_all` has put in twice, whatever the arguments are.  The text
    has no NUL, and where a bare `%k` stands in front of it, it does not go on with that directive. -/
theorem escaped_text_inserted (formatValue : Arg → Flags → List CharT → CText)
    (env : Nat → EnvKind → ScratchText) (args : List Arg) (hargs : args.length < 2 ^ 31)
    (before after : List Piece) (text : List CharT) (hbefore : WellFormed args.length before)
    (hafter : WellFormed args.length after) (hnul : 0 ∉ text)
    (hjoin : EndsBare before → BareOk (text ++ source after)) :
    ∃ escaped result,
      string_replace_all text ['%'.toNat] ['%'.toNat, '%'.toNat] = some escaped ∧
      doFormat stringRenderer formatValue env args (source before ++ escaped ++ source after) [] =
        some (some result.length, result) ∧
      result = meaning formatValue env args 0 before ++ text ++
        meaning formatValue env args (rounds before + text.count '%'.toNat) after := by
  have hwf := wellFormed_inserted hbefore hafter hnul hjoin
  have hescaped : string_replace_all text ['%'.toNat] ['%'.toNat, '%'.toNat] =
      some (source (textPieces text)) := by
    rw [string_replace_all_eq (List.cons_ne_nil _ _), replaceAll_percent]
  refine ⟨source (textPieces text), _, hescaped, ?_, rfl⟩
  have hrender := renders_pieces formatValue env hargs (before ++ textPieces text ++ after) []
    ((source (before ++ textPieces text ++ after)).length + 1) 0 List.not_mem_nil hwf
    (Nat.lt_succ_self _) ⟨0, .zero⟩ 0 []
  have hmeaning : meaning formatValue env args 0 (before ++ textPieces text ++ after) =
      meaning formatValue env args 0 before ++ text ++
        meaning formatValue env args (rounds before + text.count '%'.toNat) after := by
    rw [List.append_assoc, meaning_append, meaning_append, meaning_textPieces, rounds_textPieces,
      Nat.zero_add, List.append_assoc]
  rw [hmeaning, source_append, source_append] at hrender
  simpa [doFormat] using hrender

/-- `: 100%1` between two directives for the first argument comes out as it is. -/
theorem escaped_text_inserted_hundred :
    ∃ escaped result,
      string_replace_all ([':', ' ', '1', '0', '0', '%', '1'].map Char.toNat) ['%'.toNat]
        ['%'.toNat, '%'.toNat] = some escaped ∧
      doFormat stringRenderer (fun (value : CText) _ _ => value) sampleEnv
          [⟨['a'.toNat], by decide⟩]
          (source [.arg ['1'.toNat] none] ++ escaped ++ source [.arg ['1'.toNat] none]) [] =
        some (some result.length, result) ∧
      result = ['a', ':', ' ', '1', '0', '0', '%', '1', 'a'].map Char.toNat := by
  have hfirst : WellFormed 1 [.arg ['1'.toNat] none] := by
    refine ⟨⟨by decide, by decide, by decide, by decide⟩, ?_, trivial⟩
    intro c hc
    cases hc
  refine escaped_text_inserted _ sampleEnv _ (by decide) [.arg ['1'.toNat] none]
    [.arg ['1'.toNat] none] _ hfirst hfirst (by decide) fun _ c hc => ?_
  obtain rfl := Option.some.inj hc
  decide

end IMonPlatform.Format
