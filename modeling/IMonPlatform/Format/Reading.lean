import IMonPlatform.Format.FormatReads

/-!
# The text of an arbitrary format

`format_language` says what a well-formed format stands for.  Here every NUL-terminated format has
a text: the literal slice and the value of each directive, up to the end or to the first directive
whose number is above the argument count.

* `FormatArgs` — what `tsFormat` is given besides the format; `FormatArgs.call` appends to a string.
* `reading` — the text, and whether a count is returned.  How much of a `%` is copied with the
  slice is a parameter.
* `doFormat_reading` — `doFormat` gives the reading that copies what `fmtParse` counts.
-/

set_option autoImplicit false

namespace IMonPlatform.Format

open CString

variable {Arg : Type}

/-! ## Readings -/

/-- What `format_internal` is given besides the format. -/
structure FormatArgs (Arg : Type) where
  formatValue : Arg → Flags → List CharT → CText
  testsDatetime : Arg → Bool
  env : Nat → EnvKind → ScratchText
  args : List Arg
  argCount_lt : args.length < 2 ^ 31

/-- The text of a format; `ok` is false where `(size_t)-1` is returned. -/
structure Reading where
  text : List CharT
  ok : Bool

/-- What is counted: the text, if all goes well. -/
def Reading.count (r : Reading) : Option Nat := if r.ok then some r.text.length else none

/-- A text in front of the rest. -/
def Reading.behind (r : Reading) (text : List CharT) : Reading := ⟨text ++ r.text, r.ok⟩

/-- The buffer after `memset`. -/
def Scratch.blank : Scratch := ⟨List.replicate DEFAULT_BUFFER_SIZE 0, []⟩

/-- The slice in front of a directive, with `kept` cells of its `%`. -/
def lead (kept : Nat) (format : List CharT) : List CharT :=
  format.take ((format.takeWhile (· != '%'.toNat)).length + kept)

namespace FormatArgs

variable (f : FormatArgs Arg)

/-- `clsRenderer< std::basic_string >` appends. -/
def call : FormatCall Arg (List CharT) where
  render out text := (text.length, out ++ text)
  formatValue := f.formatValue
  testsDatetime := f.testsDatetime
  env := f.env
  args := f.args
  argCount_lt := f.argCount_lt

/-- What a parsed directive renders behind the slice. -/
def valueText (fmtSpec : FormatSpec) (fmtBuffer : List CharT) : List CharT :=
  (if fmtBuffer.headD 0 ≠ 0 ∧ fmtSpec.argIndex = 0 then cstr fmtBuffer else []) ++
    (if fmtSpec.argIndex ≤ 0 then []
      else
        match f.args[(fmtSpec.argIndex - 1).toNat]? with
        | none => []
        | some value => (f.formatValue value fmtSpec.flags (cstr fmtBuffer)).chars)

def directiveText (round : Nat) (d : Directive) : List CharT :=
  f.valueText (d.parse (f.env round) f.args.length .blank).1
    (d.parse (f.env round) f.args.length .blank).2.fmtBuffer

/-- The reading of a format whose rounds are counted; `kept` says how much of a directive's `%` is
literal. -/
def reading (kept : Directive → Nat → Nat) : Nat → Nat → List CharT → Reading
  | 0, _, _ => ⟨[], true⟩
  | bound + 1, round, format =>
    match format.dropWhile (· != '%'.toNat) with
    | [] => ⟨format, true⟩
    | _ :: tail =>
      if ∀ k ∈ (directiveAt tail).1.number, k ≤ f.args.length then
        (reading kept bound (round + 1) (directiveAt tail).2.2).behind
          (lead (kept (directiveAt tail).1 (directiveAt tail).2.1) format ++
            f.directiveText round (directiveAt tail).1)
      -- a number that is no `long` ends the loop like the end of the format
      else if ∀ k ∈ (directiveAt tail).1.number, k < 2 ^ 31 then ⟨[], false⟩
      else ⟨lead (kept (directiveAt tail).1 (directiveAt tail).2.1) format, true⟩

end FormatArgs

section Equations

variable (f : FormatArgs Arg) (kept : Directive → Nat → Nat) (bound round : Nat)
  {format tail : List CharT} {c : CharT}

theorem reading_end (hd : format.dropWhile (· != '%'.toNat) = []) :
    f.reading kept (bound + 1) round format = ⟨format, true⟩ := by
  rw [FormatArgs.reading, hd]

/-- A directive that names an argument, or none. -/
theorem reading_taken (hd : format.dropWhile (· != '%'.toNat) = c :: tail)
    (hrange : ∀ k ∈ (directiveAt tail).1.number, k ≤ f.args.length) :
    f.reading kept (bound + 1) round format =
      ⟨lead (kept (directiveAt tail).1 (directiveAt tail).2.1) format ++
          f.directiveText round (directiveAt tail).1 ++
          (f.reading kept bound (round + 1) (directiveAt tail).2.2).text,
        (f.reading kept bound (round + 1) (directiveAt tail).2.2).ok⟩ := by
  rw [FormatArgs.reading, hd]
  simp only [if_pos hrange, Reading.behind]

/-- A directive that ends the reading. -/
theorem reading_bad (hd : format.dropWhile (· != '%'.toNat) = c :: tail) {k : Nat}
    (hnumber : (directiveAt tail).1.number = some k) (hk : f.args.length < k) :
    f.reading kept (bound + 1) round format =
      if k < 2 ^ 31 then ⟨[], false⟩
      else ⟨lead (kept (directiveAt tail).1 (directiveAt tail).2.1) format, true⟩ := by
  have hrange : ¬ ∀ j ∈ some k, j ≤ f.args.length := by simpa using hk
  have hlong : (∀ j ∈ some k, j < 2 ^ 31) ↔ k < 2 ^ 31 := by simp
  rw [FormatArgs.reading, hd]
  simp only [hnumber, if_neg hrange, hlong]

end Equations

/-- What `fmtParse` copies: one cell of `%%`, none of any other `%`. -/
def parsedPercent (_ : Directive) (literal : Nat) : Nat := literal

/-! ## One round -/

theorem storeFrom_congr (text : List CharT) {s s' : Scratch} (h : s.fmtBuffer = s'.fmtBuffer)
    (i : Nat) : (s.storeFrom i text).fmtBuffer = (s'.storeFrom i text).fmtBuffer := by
  induction text generalizing s s' i with
  | nil => exact h
  | cons c text ih =>
    refine ih ?_ (i + 1)
    simp only [Scratch.store, h]

/-- What a directive makes of a cleared buffer does not depend on the earlier accesses. -/
theorem parse_blank (env : EnvKind → ScratchText) (n : Int) (s : Scratch) (d : Directive) :
    (d.parse env n s.clear).1 = (d.parse env n .blank).1 ∧
      (d.parse env n s.clear).2.fmtBuffer = (d.parse env n .blank).2.fmtBuffer := by
  have hclear : s.clear.fmtBuffer = Scratch.blank.fmtBuffer := rfl
  obtain ⟨number, spec⟩ := d
  cases number with
  | none => exact ⟨rfl, hclear⟩
  | some k =>
    cases spec with
    | none => exact ⟨rfl, hclear⟩
    | some spec =>
      simp only [Directive.parse]
      by_cases hzero : argIndexOf k = 0
      · rw [if_pos hzero, if_pos hzero]
        cases firstWord spec specialWords with
        | none => exact ⟨rfl, hclear⟩
        | some word =>
          cases word with
          | TID | PID => exact ⟨rfl, storeFrom_congr _ hclear 0⟩
          | DATE | TIME => exact ⟨rfl, rfl⟩
          | FILE | FUNC | LINE | LOGGER | LOGLEVEL => exact ⟨rfl, hclear⟩
      · rw [if_neg hzero, if_neg hzero]
        exact ⟨rfl, storeFrom_congr _ hclear 0⟩

section Rounds

variable (f : FormatArgs Arg) {p : ParsedAt} {format : List CharT}

/-- The string grows by the slice and the value. -/
theorem renderRound_text (hslice : p.prefixText = cells format)
    (hlen : p.prefixLength ≤ format.length) (hindex : p.fmtSpec.argIndex ≤ f.args.length)
    {text : List CharT}
    (htext : format.take p.prefixLength ++ f.valueText p.fmtSpec p.scratch.fmtBuffer = text)
    (out : List CharT) : f.call.renderRound p out = some (text.length, out ++ text) := by
  have hslice : f.call.renderPrefix p out =
      some ((format.take p.prefixLength).length, out ++ format.take p.prefixLength) := by
    unfold FormatCall.renderPrefix
    split
    · rw [hslice, readBlock_cells hlen]
      rfl
    · rename_i hzero
      have hnone : p.prefixLength = 0 := by omega
      simp [hnone]
  rw [← htext]
  unfold FormatCall.renderRound FormatArgs.valueText
  simp only [hslice, Option.bind_eq_bind, Option.bind_some]
  by_cases hpos : p.fmtSpec.argIndex ≤ 0
  · rw [if_pos hpos, if_pos hpos]
    split <;> simp [FormatArgs.call]
  · have hnot : ¬ (p.scratch.fmtBuffer.headD 0 ≠ 0 ∧ p.fmtSpec.argIndex = 0) := by omega
    have hvalue : (p.fmtSpec.argIndex - 1).toNat < f.args.length := by omega
    have hget : f.call.args[(p.fmtSpec.argIndex - 1).toNat]? =
        some f.args[(p.fmtSpec.argIndex - 1).toNat] := List.getElem?_eq_getElem hvalue
    rw [if_neg hpos, if_neg hpos, if_neg hnot, if_neg hnot, hget, List.getElem?_eq_getElem hvalue]
    simp [FormatArgs.call]

/-- A number other than zero renders no text of the scratch buffer, and a negative one nothing. -/
theorem valueText_neg {fmtSpec : FormatSpec} (h : fmtSpec.argIndex < 0)
    (fmtBuffer : List CharT) : f.valueText fmtSpec fmtBuffer = [] := by
  rw [FormatArgs.valueText, if_neg (by omega), if_pos (by omega), List.append_nil]

end Rounds

/-! ## The kinds of rounds -/

section Turns

variable (f : FormatArgs Arg) {st : LoopState (List CharT)} {format tail : List CharT} {c : CharT}

/-- What the call of a round hands over where `tail` stands behind the first `%`. -/
def slicedOf (call : FormatCall Arg (List CharT)) (st : LoopState (List CharT))
    (format tail : List CharT) : ParsedAt :=
  parsedOf call st format (directiveAt tail).1
    ((format.takeWhile (· != '%'.toNat)).length + (directiveAt tail).2.1) (directiveAt tail).2.2

theorem fmtParseAt_slice (call : FormatCall Arg (List CharT)) (h : 0 ∉ format)
    (hst : st.format = cells format) (hd : format.dropWhile (· != '%'.toNat) = c :: tail) :
    Parses call st (slicedOf call st format tail) := by
  unfold Parses
  rw [hst, fmtParseAt_cells h, hd]
  rfl

theorem sliced_argIndex {call : FormatCall Arg (List CharT)} {k : Nat}
    (hnumber : (directiveAt tail).1.number = some k) (hk : argIndexOf k ≠ 0) :
    (slicedOf call st format tail).fmtSpec.argIndex = argIndexOf k :=
  parse_argIndex (call.env st.round) call.args.length st.scratch.clear hnumber hk

/-- The slice of a call lies in the format. -/
theorem slice_le (hd : format.dropWhile (· != '%'.toNat) = c :: tail) :
    (format.takeWhile (· != '%'.toNat)).length + (directiveAt tail).2.1 ≤ format.length := by
  have hsplit := congrArg List.length
    (List.takeWhile_append_dropWhile (p := (· != '%'.toNat)) (l := format))
  have hliteral := directiveAt_literal tail
  rw [List.length_append, hd, List.length_cons] at hsplit
  omega

theorem nextDirective_eq (hd : format.dropWhile (· != '%'.toNat) = c :: tail) :
    nextDirective format = some ((directiveAt tail).1, (directiveAt tail).2.2) := by
  rw [nextDirective, hd]

/-- No directive is left. -/
theorem turn_end (h : 0 ∉ format) (hst : st.format = cells format)
    (hd : format.dropWhile (· != '%'.toNat) = []) :
    ∃ last, f.call.roundAt st =
        some (.stop ⟨some (st.nRetFormattedCount + format.length), last⟩) ∧
      last.out = st.out ++ format := by
  have hnext : nextDirective format = none := by rw [nextDirective, hd]
  have hparse := fmtParseAt_end f.call h hst hnext
  have htext : format.take format.length ++
      f.valueText ⟨-1, .zero⟩ st.scratch.clear.fmtBuffer = format := by
    rw [valueText_neg f (show (-1 : Int) < 0 by decide), List.take_length, List.append_nil]
  have hr := renderRound_text f (p := ⟨⟨-1, .zero⟩, st.scratch.clear, cells format,
    format.length, cells []⟩) rfl (Nat.le_refl _) (show (-1 : Int) ≤ f.args.length by omega)
    htext st.out
  rw [round_end f.call hparse (show (-1 : Int) < 0 by decide) hr]
  exact ⟨_, rfl, rfl⟩

/-- The directive names an argument, or none. -/
theorem turn_taken (h : 0 ∉ format) (hst : st.format = cells format)
    (hd : format.dropWhile (· != '%'.toNat) = c :: tail)
    (hrange : ∀ k ∈ (directiveAt tail).1.number, k ≤ f.args.length) {text : List CharT}
    (htext : lead (directiveAt tail).2.1 format ++ f.directiveText st.round (directiveAt tail).1 =
      text) :
    ∃ st', f.call.roundAt st = some (.next st') ∧ st'.round = st.round + 1 ∧
      st'.format = cells (directiveAt tail).2.2 ∧
      st'.nRetFormattedCount = st.nRetFormattedCount + text.length ∧
      st'.out = st.out ++ text := by
  have hparse := fmtParseAt_slice f.call h hst hd
  obtain ⟨hlow, hhigh⟩ := parse_inRange (f.env st.round) f.argCount_lt st.scratch.clear hrange
  obtain ⟨hspec, hbuffer⟩ := parse_blank (f.env st.round) f.args.length st.scratch
    (directiveAt tail).1
  rw [FormatArgs.directiveText, ← hspec, ← hbuffer] at htext
  have hr := renderRound_text f (p := slicedOf f.call st format tail) rfl (slice_le hd) hhigh
    htext st.out
  exact ⟨_, round_next f.call hparse hlow hhigh hr, rfl, rfl, rfl, rfl⟩

/-- The number is too large for the arguments. -/
theorem turn_reported (h : 0 ∉ format) (hst : st.format = cells format)
    (hd : format.dropWhile (· != '%'.toNat) = c :: tail) {k : Nat}
    (hnumber : (directiveAt tail).1.number = some k) (hk : f.args.length < k) (hlong : k < 2 ^ 31) :
    ∃ last, f.call.roundAt st = some (.stop ⟨none, last⟩) ∧ last.out = st.out := by
  have hparse := fmtParseAt_slice f.call h hst hd
  have hsmall := argIndexOf_small hlong
  have hvalue : (slicedOf f.call st format tail).fmtSpec.argIndex = k :=
    (sliced_argIndex hnumber (by omega)).trans hsmall
  have hcount : f.call.args.length < k := hk
  exact ⟨_, round_reported f.call hparse (by omega) (by omega), rfl⟩

/-- The number is too large for a `long`: the slice is the last text. -/
theorem turn_missed (h : 0 ∉ format) (hst : st.format = cells format)
    (hd : format.dropWhile (· != '%'.toNat) = c :: tail) {k : Nat}
    (hnumber : (directiveAt tail).1.number = some k) (hlong : 2 ^ 31 ≤ k) :
    ∃ last, f.call.roundAt st = some (.stop ⟨some (st.nRetFormattedCount +
        (lead (directiveAt tail).2.1 format).length), last⟩) ∧
      last.out = st.out ++ lead (directiveAt tail).2.1 format := by
  have hparse := fmtParseAt_slice f.call h hst hd
  have hlarge := argIndexOf_large hlong
  have hneg : (slicedOf f.call st format tail).fmtSpec.argIndex < 0 :=
    (sliced_argIndex hnumber (by omega)).trans_lt hlarge
  have htext : lead (directiveAt tail).2.1 format ++
      f.valueText (slicedOf f.call st format tail).fmtSpec
        (slicedOf f.call st format tail).scratch.fmtBuffer = lead (directiveAt tail).2.1 format := by
    rw [valueText_neg f hneg, List.append_nil]
  have hr := renderRound_text f (p := slicedOf f.call st format tail) rfl (slice_le hd)
    (by omega) htext st.out
  rw [round_end f.call hparse hneg hr]
  exact ⟨_, rfl, rfl⟩

end Turns

/-! ## The loop -/

section Loop

variable (f : FormatArgs Arg)

/-- What the rest of a format adds to the count. -/
theorem count_append (before : Nat) (text : List CharT) (r : Reading) :
    (Reading.count ⟨text ++ r.text, r.ok⟩).map (before + ·) =
      r.count.map (before + text.length + ·) := by
  unfold Reading.count
  cases r.ok with
  | false => rfl
  | true => simp [Nat.add_assoc]

/-- **The loop gives the reading of its format.** -/
theorem loopAt_reading : ∀ (bound : Nat) (st : LoopState (List CharT)) (format : List CharT),
    st.format = cells format → 0 ∉ format → format.length < bound →
    ∃ last, f.call.loopAt bound st =
        some ⟨(f.reading parsedPercent bound st.round format).count.map
          (st.nRetFormattedCount + ·), last⟩ ∧
      last.out = st.out ++ (f.reading parsedPercent bound st.round format).text := by
  intro bound
  induction bound with
  | zero =>
    intro st format _ _ hlt
    omega
  | succ bound ih =>
    intro st format hst hnul hlt
    rw [FormatCall.loopAt]
    cases hd : format.dropWhile (· != '%'.toNat) with
    | nil =>
      obtain ⟨last, hround, hout⟩ := turn_end f hnul hst hd
      rw [hround, reading_end f parsedPercent bound st.round hd]
      exact ⟨last, rfl, hout⟩
    | cons c tail =>
      by_cases hrange : ∀ k ∈ (directiveAt tail).1.number, k ≤ f.args.length
      · obtain ⟨st', hround, hcount, hformat, hn, hout⟩ := turn_taken f hnul hst hd hrange rfl
        have hrest := nextDirective_rest (nextDirective_eq hd)
        obtain ⟨last, hloop, hlast⟩ := ih st' (directiveAt tail).2.2 hformat
          (fun hmem => hnul (hrest.1.subset hmem)) (by omega)
        rw [hcount, hn] at hloop
        rw [hout, hcount, List.append_assoc] at hlast
        rw [hround, reading_taken f parsedPercent bound st.round hd hrange, count_append]
        exact ⟨last, hloop, hlast⟩
      · obtain ⟨k, hnumber, hk⟩ := number_of_not_le hrange
        rw [reading_bad f parsedPercent bound st.round hd hnumber hk]
        rcases Nat.lt_or_ge k (2 ^ 31) with hlong | hlong
        · obtain ⟨last, hround, hout⟩ := turn_reported f hnul hst hd hnumber hk hlong
          rw [hround, if_pos hlong]
          exact ⟨last, rfl, by rw [hout, List.append_nil]⟩
        · obtain ⟨last, hround, hout⟩ := turn_missed f hnul hst hd hnumber hlong
          rw [hround, if_neg (by omega)]
          exact ⟨last, rfl, hout⟩

/-- The reading of a whole format. -/
def FormatArgs.read (kept : Directive → Nat → Nat) (format : List CharT) : Reading :=
  f.reading kept (format.length + 1) 0 format

/-- **`doFormat` renders the reading of its format** and returns its length, or `(size_t)-1`. -/
theorem doFormat_reading (format : CText) (out : List CharT) :
    ∃ last, f.call.doFormatAt (format.chars.length + 1) (cells format.chars) out =
        some ⟨(f.read parsedPercent format.chars).count, last⟩ ∧
      last.out = out ++ (f.read parsedPercent format.chars).text := by
  obtain ⟨last, hloop, hout⟩ := loopAt_reading f (format.chars.length + 1)
    (.start (cells format.chars) out) format.chars rfl format.nulFree (Nat.lt_succ_self _)
  refine ⟨last, ?_, hout⟩
  rw [FormatCall.doFormatAt, hloop]
  simp [LoopState.start, FormatArgs.read]

end Loop

/-- `tsFormat` with the one argument of `callWithOne`. -/
def oneArgument : FormatArgs Unit where
  formatValue := callWithOne.formatValue
  testsDatetime := callWithOne.testsDatetime
  env := callWithOne.env
  args := callWithOne.args
  argCount_lt := callWithOne.argCount_lt

end IMonPlatform.Format
