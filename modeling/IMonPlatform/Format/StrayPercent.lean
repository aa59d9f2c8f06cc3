import IMonPlatform.Format.Reading

/-!
# A `%` that starts no directive

Behind a `%` the parser expects another `%` or a digit.  The loop over the literal text has stopped
in front of the `%` and the pointer has gone over it, so where neither follows the `%` is in no
slice.

* `literalPercent` — the reading in which such a `%` is copied like the literal text around it.
* `literal_self` — in that reading a format without `%%` and `%digit` is its own text.
* `StrayReached` — such a `%` comes up before the end, or before a number that names no argument.
* `stray_percent_iff` — the text is that of the literal reading exactly if none comes up.
-/

set_option autoImplicit false

namespace IMonPlatform.Format

open CString

variable {Arg : Type}

/-- The text behind a `%` starts with neither `%` nor a digit. -/
def IsStray (tail : List CharT) : Prop :=
  tail.headD 0 ≠ '%'.toNat ∧ isdigit (tail.headD 0) = false

/-- A `%` without a number is copied. -/
def literalPercent (d : Directive) (_ : Nat) : Nat := if d.number = none then 1 else 0

/-- The parser comes to a stray `%`; `n` is the argument count. -/
inductive StrayReached (n : Nat) : List CharT → Prop where
  | here {format tail : List CharT} {c : CharT}
      (hpercent : format.dropWhile (· != '%'.toNat) = c :: tail) (hstray : IsStray tail) :
      StrayReached n format
  | behind {format tail : List CharT} {c : CharT}
      (hpercent : format.dropWhile (· != '%'.toNat) = c :: tail)
      (hrange : ∀ k ∈ (directiveAt tail).1.number, k ≤ n)
      (h : StrayReached n (directiveAt tail).2.2) : StrayReached n format

/-! ## One directive -/

section Directives

variable {tail : List CharT}

theorem startsWith_percent : startsWith tail ['%'] = true ↔ tail.headD 0 = '%'.toNat :=
  startsWith_one tail '%' (by decide)

theorem directiveAt_stray (h : IsStray tail) : directiveAt tail = (⟨none, none⟩, 0, tail) := by
  have hpercent : ¬ startsWith tail ['%'] = true := fun hs => h.1 (startsWith_percent.mp hs)
  have hdigit : ¬ isdigit (tail.headD 0) = true := by
    rw [h.2]
    decide
  rw [directiveAt, if_neg hpercent, if_neg hdigit]

/-- The two readings copy the same of a `%` that is not stray. -/
theorem literalPercent_eq (h : ¬ IsStray tail) :
    literalPercent (directiveAt tail).1 (directiveAt tail).2.1 = (directiveAt tail).2.1 := by
  unfold directiveAt
  by_cases hpercent : startsWith tail ['%'] = true
  · rw [if_pos hpercent]
    rfl
  · have hdigit : isdigit (tail.headD 0) = true := by
      by_contra hno
      exact h ⟨fun hc => hpercent (startsWith_percent.mpr hc), Bool.eq_false_iff.mpr hno⟩
    rw [if_neg hpercent, if_pos hdigit]
    dsimp only
    split <;> rfl

theorem lead_stray {format : List CharT} {c : CharT}
    (hd : format.dropWhile (· != '%'.toNat) = c :: tail) :
    (lead 1 format).length = (lead 0 format).length + 1 := by
  have hsplit := congrArg List.length
    (List.takeWhile_append_dropWhile (p := (· != '%'.toNat)) (l := format))
  rw [List.length_append, hd, List.length_cons] at hsplit
  simp only [lead, List.length_take]
  omega

end Directives

/-! ## The two readings -/

section Readings

variable (f : FormatArgs Arg)

/-- A format that comes to no stray `%` reads the same. -/
theorem reading_literal (bound : Nat) : ∀ (round : Nat) (format : List CharT),
    ¬ StrayReached f.args.length format →
    f.reading parsedPercent bound round format = f.reading literalPercent bound round format := by
  induction bound with
  | zero =>
    intro round format _
    rfl
  | succ bound ih =>
    intro round format h
    cases hd : format.dropWhile (· != '%'.toNat) with
    | nil => rw [reading_end f parsedPercent bound round hd,
        reading_end f literalPercent bound round hd]
    | cons c tail =>
      have hstray : ¬ IsStray tail := fun hs => h (.here hd hs)
      by_cases hrange : ∀ k ∈ (directiveAt tail).1.number, k ≤ f.args.length
      · have hmore := ih (round + 1) _ fun hs => h (.behind hd hrange hs)
        rw [reading_taken f parsedPercent bound round hd hrange,
          reading_taken f literalPercent bound round hd hrange, literalPercent_eq hstray, hmore,
          parsedPercent]
      · obtain ⟨k, hnumber, hk⟩ := number_of_not_le hrange
        rw [reading_bad f parsedPercent bound round hd hnumber hk,
          reading_bad f literalPercent bound round hd hnumber hk, literalPercent_eq hstray,
          parsedPercent]

/-- The parser copies no more than the literal reading. -/
theorem parsedPercent_le (tail : List CharT) :
    parsedPercent (directiveAt tail).1 (directiveAt tail).2.1 ≤
      literalPercent (directiveAt tail).1 (directiveAt tail).2.1 := by
  rw [parsedPercent]
  by_cases h : IsStray tail
  · rw [directiveAt_stray h]
    exact Nat.zero_le _
  · exact Nat.le_of_eq (literalPercent_eq h).symm

theorem lead_le {kept kept' : Nat} (h : kept ≤ kept') (format : List CharT) :
    (lead kept format).length ≤ (lead kept' format).length := by
  simp only [lead, List.length_take]
  omega

theorem reading_le (bound : Nat) : ∀ (round : Nat) (format : List CharT),
    (f.reading parsedPercent bound round format).text.length ≤
      (f.reading literalPercent bound round format).text.length := by
  induction bound with
  | zero =>
    intro round format
    exact Nat.le_refl _
  | succ bound ih =>
    intro round format
    cases hd : format.dropWhile (· != '%'.toNat) with
    | nil =>
      rw [reading_end f parsedPercent bound round hd, reading_end f literalPercent bound round hd]
    | cons c tail =>
      have hslice := lead_le (parsedPercent_le tail) format
      by_cases hrange : ∀ k ∈ (directiveAt tail).1.number, k ≤ f.args.length
      · have hmore := ih (round + 1) (directiveAt tail).2.2
        rw [reading_taken f parsedPercent bound round hd hrange,
          reading_taken f literalPercent bound round hd hrange]
        simp only [List.length_append]
        omega
      · obtain ⟨k, hnumber, hk⟩ := number_of_not_le hrange
        rw [reading_bad f parsedPercent bound round hd hnumber hk,
          reading_bad f literalPercent bound round hd hnumber hk]
        split
        · exact Nat.le_refl _
        · exact hslice

/-- A stray `%` that comes up is missing from the text. -/
theorem reading_shorter {format : List CharT} (h : StrayReached f.args.length format) :
    ∀ (bound round : Nat), format.length < bound →
      (f.reading parsedPercent bound round format).text.length <
        (f.reading literalPercent bound round format).text.length := by
  induction h with
  | @here format tail c hd hstray =>
    intro bound round hlt
    obtain ⟨bound, rfl⟩ : ∃ b, bound = b + 1 := ⟨bound - 1, by omega⟩
    have hslice := lead_stray hd
    have hrange : ∀ k ∈ (directiveAt tail).1.number, k ≤ f.args.length := by
      rw [directiveAt_stray hstray]
      exact nofun
    have hmore := reading_le f bound (round + 1) (directiveAt tail).2.2
    have hkept : literalPercent (directiveAt tail).1 (directiveAt tail).2.1 = 1 := by
      rw [directiveAt_stray hstray]
      rfl
    have hcopied : parsedPercent (directiveAt tail).1 (directiveAt tail).2.1 = 0 := by
      rw [directiveAt_stray hstray]
      rfl
    rw [reading_taken f parsedPercent bound round hd hrange,
      reading_taken f literalPercent bound round hd hrange, hkept, hcopied]
    simp only [List.length_append]
    omega
  | @behind format tail c hd hrange _ ih =>
    intro bound round hlt
    obtain ⟨bound, rfl⟩ : ∃ b, bound = b + 1 := ⟨bound - 1, by omega⟩
    have hslice := lead_le (parsedPercent_le tail) format
    have hshort := (nextDirective_rest (nextDirective_eq hd)).2
    have hmore := ih bound (round + 1) (by omega)
    rw [reading_taken f parsedPercent bound round hd hrange,
      reading_taken f literalPercent bound round hd hrange]
    simp only [List.length_append]
    omega

/-! ## Formats without directives -/

/-- Every `%` of a format is stray. -/
def NoDirective (format : List CharT) : Prop :=
  ∀ before tail, format = before ++ '%'.toNat :: tail → IsStray tail

theorem dropWhile_percent {format tail : List CharT} {c : CharT}
    (hd : format.dropWhile (· != '%'.toNat) = c :: tail) :
    format = format.takeWhile (· != '%'.toNat) ++ '%'.toNat :: tail := by
  have hc : c = '%'.toNat := dropWhile_stop hd
  have hsplit := List.takeWhile_append_dropWhile (p := (· != '%'.toNat)) (l := format)
  rw [hd, hc] at hsplit
  exact hsplit.symm

/-- A directive without a number renders nothing behind the slice. -/
theorem directiveText_none (round : Nat) : f.directiveText round ⟨none, none⟩ = [] := rfl

/-- **In the literal reading a format without `%%` and `%digit` is its own text.** -/
theorem literal_self (bound : Nat) : ∀ (round : Nat) (format : List CharT),
    NoDirective format → format.length < bound →
    f.reading literalPercent bound round format = ⟨format, true⟩ := by
  induction bound with
  | zero =>
    intro round format _ hlt
    omega
  | succ bound ih =>
    intro round format h hlt
    cases hd : format.dropWhile (· != '%'.toNat) with
    | nil => exact reading_end f literalPercent bound round hd
    | cons c tail =>
      have hformat := dropWhile_percent hd
      have hstray := directiveAt_stray (h _ tail hformat)
      have hlead : lead 1 format = format.takeWhile (· != '%'.toNat) ++ ['%'.toNat] := by
        have htake := congrArg
          (List.take ((format.takeWhile (· != '%'.toNat)).length + 1)) hformat
        rw [List.take_length_add_append] at htake
        exact htake
      have htail : NoDirective tail := by
        intro before rest heq
        apply h (format.takeWhile (· != '%'.toNat) ++ '%'.toNat :: before) rest
        rw [List.append_assoc, List.cons_append, ← heq]
        exact hformat
      have hshort := (nextDirective_rest (nextDirective_eq hd)).2
      rw [reading_taken f literalPercent bound round hd (by rw [hstray]; exact nofun)]
      rw [hstray] at hshort ⊢
      dsimp only at hshort ⊢
      rw [ih (round + 1) tail htail (by omega), directiveText_none]
      show (⟨lead 1 format ++ [] ++ tail, true⟩ : Reading) = ⟨format, true⟩
      rw [hlead, List.append_nil, List.append_assoc, List.singleton_append, ← hformat]

end Readings

/-! ## The text of a format -/

/-- `doFormat` renders a format with every stray `%` copied to the text. -/
def CopiesStrays (f : FormatArgs Arg) (format : CText) (out : List CharT) : Prop :=
  ∃ last, f.call.doFormatAt (format.chars.length + 1) (cells format.chars) out =
      some ⟨(f.read literalPercent format.chars).count, last⟩ ∧
    last.out = out ++ (f.read literalPercent format.chars).text

/-- **A stray `%` is never copied**: the text is the literal one exactly if the parser comes to
none. -/
theorem stray_percent_iff (f : FormatArgs Arg) (format : CText) (out : List CharT) :
    CopiesStrays f format out ↔ ¬ StrayReached f.args.length format.chars := by
  obtain ⟨last, hrun, hout⟩ := doFormat_reading f format out
  constructor
  · rintro ⟨last', hrun', hout'⟩ hstray
    have hlt := reading_shorter f hstray (format.chars.length + 1) 0 (Nat.lt_succ_self _)
    have hlast : last' = last := (Run.mk.inj (Option.some.inj (hrun'.symm.trans hrun))).2
    rw [hlast, hout] at hout'
    have htext := List.append_cancel_left hout'
    unfold FormatArgs.read at htext
    rw [htext] at hlt
    exact Nat.lt_irrefl _ hlt
  · intro h
    have heq := reading_literal f (format.chars.length + 1) 0 format.chars h
    unfold CopiesStrays FormatArgs.read
    rw [← heq]
    exact ⟨last, hrun, hout⟩

/-- `%s` -/
def percentS : CText := ⟨['%', 's'].map Char.toNat, by decide⟩

/-- `%s` is rendered as `s`. -/
theorem percent_s_lost :
    (oneArgument.call.doFormatAt 3 (cells percentS.chars) []).map (fun run => run.last.out) =
        some ['s'.toNat] ∧
      (oneArgument.read literalPercent percentS.chars).text = percentS.chars ∧
      ¬ CopiesStrays oneArgument percentS [] := by
  have hrun : (oneArgument.call.doFormatAt 3 (cells percentS.chars) []).map
      (fun run => run.last.out) = some ['s'.toNat] := by decide
  have htext : (oneArgument.read literalPercent percentS.chars).text = percentS.chars := by decide
  refine ⟨hrun, htext, ?_⟩
  rintro ⟨last, hlast, hout⟩
  have hlast : oneArgument.call.doFormatAt 3 (cells percentS.chars) [] = _ := hlast
  rw [hlast, Option.map_some, hout, htext] at hrun
  exact absurd (Option.some.inj hrun) (by decide)

end IMonPlatform.Format
