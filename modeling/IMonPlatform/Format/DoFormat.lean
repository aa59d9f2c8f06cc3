import IMonPlatform.Format.Parse

/-!
# `doFormat` over a renderer

`doFormat` calls `fmtParse` until the end of the format is reported and hands texts to a renderer:
the literal slice, what `%0{..}` has left in the scratch buffer, and the text that `formatValue`
makes of an argument.  Every `formatValue` ends with one call `renderer.render( text, -1 )`; the
text depends on the argument, the flags and what stands in the scratch buffer.

* `Renderer` — the one operation `doFormat` needs; `none` is a write outside the buffer.
* `stringRenderer` — `clsRenderer< std::basic_string >`.
* `formatRound`, `doFormat` — one round and the loop; `(size_t)-1` is `none`.
* `doFormat_simulates` — two renderers that agree call by call agree over the whole loop.
* `doFormat_keeps` — what every call keeps, the loop keeps.
-/

set_option autoImplicit false

namespace IMonPlatform.Format

variable {Arg σ τ : Type}

/-! ## Renderers -/

structure Renderer (σ : Type) where
  /-- `render( rsh, rshLength )`: the number it returns and the destination afterwards. -/
  render : σ → List CharT → Int → Option (Nat × σ)

/-- `if( c ) nRetFormattedCount += renderer.render( rsh, rshLength );` -/
def Renderer.renderIf (R : Renderer σ) (c : Prop) [Decidable c] (out : σ) (rsh : List CharT)
    (rshLength : Int) : Option (Nat × σ) :=
  if c then R.render out rsh rshLength else some (0, out)

/-- The text that a call renders. -/
def rendered (rsh : List CharT) (rshLength : Int) : List CharT :=
  if 0 < rshLength then rsh.take rshLength.toNat else cstr rsh

/-- A length that is not positive stands for a C string. -/
theorem rendered_cstr (rsh : List CharT) : rendered rsh (-1) = cstr rsh := if_neg (by decide)

/-- `clsRenderer< std::basic_string >`. -/
def stringRenderer : Renderer (List CharT) where
  render string rsh rshLength :=
    let appended := if rshLength ≤ 0 then string ++ cstr rsh
      else string ++ rsh.take rshLength.toNat
    some (appended.length - string.length, appended)

theorem stringRenderer_render (string rsh : List CharT) (rshLength : Int) :
    stringRenderer.render string rsh rshLength =
      some ((rendered rsh rshLength).length, string ++ rendered rsh rshLength) := by
  unfold stringRenderer rendered
  by_cases h : rshLength ≤ 0
  · simp [h, Int.not_lt.mpr h]
  · simp only [if_neg h, if_pos (Int.not_le.mp h)]
    simp

/-! ## `doFormat` -/

section Format

variable (R : Renderer σ) (formatValue : Arg → Flags → List CharT → CText)
  (env : Nat → EnvKind → ScratchText) (args : List Arg)

/-- What a round of the loop renders, and how much that is. -/
def formatRound (p : Parsed) (out : σ) : Option (Nat × σ) := do
  let r₁ ← R.renderIf (0 < p.prefixLength) out p.prefixText p.prefixLength
  let r₂ ← R.renderIf (p.fmtBuffer.headD 0 ≠ 0 ∧ p.fmtSpec.argIndex = 0) r₁.2 p.fmtBuffer (-1)
  if p.fmtSpec.argIndex ≤ 0 then some (r₁.1 + r₂.1, r₂.2)
  else
    let value ← args[(p.fmtSpec.argIndex - 1).toNat]?
    let r₃ ← R.render r₂.2 (formatValue value p.fmtSpec.flags (cstr p.fmtBuffer)).chars (-1)
    some (r₁.1 + r₂.1 + r₃.1, r₃.2)

/-- The loop, with a bound on its rounds; `env` gives the texts of the environment in each round. -/
def doFormatLoop : Nat → Nat → FormatSpec → List CharT → Nat → σ → Option (Option Nat × σ)
  | 0, _, _, _, _, _ => none
  | bound + 1, round, fmtSpec, format, count, out =>
    match fmtParse (env round) args.length fmtSpec (List.replicate DEFAULT_BUFFER_SIZE 0)
        format with
    | none => none
    | some p =>
      if 0 < p.fmtSpec.argIndex ∧ args.length < p.fmtSpec.argIndex then some (none, out)
      else
        match formatRound R formatValue args p out with
        | none => none
        | some (n, out) =>
          if p.fmtSpec.argIndex < 0 then some (some (count + n), out)
          else doFormatLoop bound (round + 1) p.fmtSpec p.format (count + n) out

/-- Every round but the last one takes a `%` from the format. -/
def doFormat (format : List CharT) (out : σ) : Option (Option Nat × σ) :=
  doFormatLoop R formatValue env args (format.length + 1) 0 ⟨0, .zero⟩ format 0 out

end Format

/-! ## Two renderers -/

/-- Two renderers agree on every text without a NUL. -/
def Simulates (R : Renderer σ) (R' : Renderer τ) (S : σ → τ → Prop) : Prop :=
  ∀ out out' rsh rshLength, S out out' → 0 ∉ rendered rsh rshLength →
    ∃ n o o', R.render out rsh rshLength = some (n, o) ∧
      R'.render out' rsh rshLength = some (n, o') ∧ S o o'

theorem cstr_nulFree (cells : List CharT) : 0 ∉ cstr cells := by
  intro h
  have := List.mem_takeWhile_imp h
  simp at this

theorem cstr_eq_self {text : List CharT} (h : 0 ∉ text) : cstr text = text := by
  refine List.takeWhile_eq_self_iff.mpr (fun c hc => ?_)
  simp only [bne_iff_ne]
  rintro rfl
  exact h hc

theorem rendered_nulFree {rsh : List CharT} (h : 0 ∉ rsh) (rshLength : Int) :
    0 ∉ rendered rsh rshLength := by
  unfold rendered
  split
  · exact fun hmem => h (List.mem_of_mem_take hmem)
  · exact cstr_nulFree rsh

section Simulation

variable {R : Renderer σ} {R' : Renderer τ} {S : σ → τ → Prop}
  {formatValue : Arg → Flags → List CharT → CText} {env : Nat → EnvKind → ScratchText}
  {args : List Arg}

/-- One conditional call. -/
theorem simulates_if (hR : Simulates R R' S) {out : σ} {out' : τ} (hS : S out out') (c : Prop)
    [Decidable c] (rsh : List CharT) (rshLength : Int) (hrsh : 0 ∉ rendered rsh rshLength) :
    ∃ n o o', R.renderIf c out rsh rshLength = some (n, o) ∧
      R'.renderIf c out' rsh rshLength = some (n, o') ∧ S o o' := by
  unfold Renderer.renderIf
  split
  · exact hR out out' rsh rshLength hS hrsh
  · exact ⟨0, out, out', rfl, rfl, hS⟩

theorem formatRound_simulates (formatValue : Arg → Flags → List CharT → CText)
    (hR : Simulates R R' S) {p : Parsed} {out : σ} {out' : τ} (hS : S out out')
    (hslice : 0 ∉ p.prefixText)
    (harg : ¬ (0 < p.fmtSpec.argIndex ∧ args.length < p.fmtSpec.argIndex)) :
    ∃ n o o', formatRound R formatValue args p out = some (n, o) ∧
      formatRound R' formatValue args p out' = some (n, o') ∧ S o o' := by
  obtain ⟨n₁, o₁, o₁', h₁, h₁', hS₁⟩ := simulates_if hR hS (0 < p.prefixLength) p.prefixText
    p.prefixLength (rendered_nulFree hslice _)
  obtain ⟨n₂, o₂, o₂', h₂, h₂', hS₂⟩ := simulates_if hR hS₁
    (p.fmtBuffer.headD 0 ≠ 0 ∧ p.fmtSpec.argIndex = 0) p.fmtBuffer (-1)
    (by rw [rendered_cstr]; exact cstr_nulFree _)
  unfold formatRound
  simp only [h₁, h₁', h₂, h₂', Option.bind_eq_bind, Option.bind_some]
  by_cases hpos : p.fmtSpec.argIndex ≤ 0
  · simp only [if_pos hpos]
    exact ⟨n₁ + n₂, o₂, o₂', rfl, rfl, hS₂⟩
  · simp only [if_neg hpos]
    have hindex : (p.fmtSpec.argIndex - 1).toNat < args.length := by omega
    rw [List.getElem?_eq_getElem hindex]
    obtain ⟨n₃, o₃, o₃', h₃, h₃', hS₃⟩ := hR o₂ o₂'
      (formatValue args[(p.fmtSpec.argIndex - 1).toNat] p.fmtSpec.flags (cstr p.fmtBuffer)).chars
      (-1) hS₂ (by rw [rendered_cstr]; exact cstr_nulFree _)
    simp only [h₃, h₃', Option.bind_some]
    exact ⟨n₁ + n₂ + n₃, o₃, o₃', rfl, rfl, hS₃⟩

/-- A call of `fmtParse` somewhere in the format writes behind the scratch buffer. -/
def Overflows (env : Nat → EnvKind → ScratchText) (args : List Arg) (format : List CharT) : Prop :=
  ∃ rest round fmtSpec, rest <:+ format ∧ fmtParse (env round) args.length fmtSpec
    (List.replicate DEFAULT_BUFFER_SIZE 0) rest = none

/-- **Renderers that agree call by call agree over the loop**, which ends unless the scratch buffer
    is too small. -/
theorem doFormatLoop_simulates (hR : Simulates R R' S) :
    ∀ (bound round : Nat) (fmtSpec : FormatSpec) (format : List CharT) (count : Nat) (out : σ)
      (out' : τ), S out out' → 0 ∉ format → format.length < bound →
      (doFormatLoop R formatValue env args bound round fmtSpec format count out = none ∧
          doFormatLoop R' formatValue env args bound round fmtSpec format count out' = none ∧
          Overflows env args format) ∨
        ∃ result o o',
          doFormatLoop R formatValue env args bound round fmtSpec format count out =
            some (result, o) ∧
          doFormatLoop R' formatValue env args bound round fmtSpec format count out' =
            some (result, o') ∧ S o o' := by
  intro bound
  induction bound with
  | zero =>
    intro round fmtSpec format count out out' _ _ hlt
    omega
  | succ bound ih =>
    intro round fmtSpec format count out out' hS hnul hlt
    simp only [doFormatLoop]
    cases hparse : fmtParse (env round) args.length fmtSpec
        (List.replicate DEFAULT_BUFFER_SIZE 0) format with
    | none => exact .inl ⟨rfl, rfl, format, round, fmtSpec, List.suffix_refl _, hparse⟩
    | some p =>
      obtain ⟨hslice, hsuffix, hshort⟩ := fmtParse_rest hparse
      by_cases hfail : 0 < p.fmtSpec.argIndex ∧ (args.length : Int) < p.fmtSpec.argIndex
      · simp only [if_pos hfail]
        exact .inr ⟨none, out, out', rfl, rfl, hS⟩
      · simp only [if_neg hfail]
        obtain ⟨n, o, o', h, h', hS'⟩ := formatRound_simulates formatValue hR hS
          (by rw [hslice]; exact hnul) hfail
        simp only [h, h']
        by_cases hend : p.fmtSpec.argIndex < 0
        · simp only [if_pos hend]
          exact .inr ⟨some (count + n), o, o', rfl, rfl, hS'⟩
        · simp only [if_neg hend]
          have hlen := hshort.resolve_left hend
          have hnul' : 0 ∉ p.format := fun hmem => hnul (hsuffix.subset hmem)
          rcases ih (round + 1) p.fmtSpec p.format (count + n) o o' hS' hnul' (by omega) with
            ⟨h1, h2, rest, r, spec, hrest, hover⟩ | hdone
          · exact .inl ⟨h1, h2, rest, r, spec, hrest.trans hsuffix, hover⟩
          · exact .inr hdone

theorem doFormat_simulates (hR : Simulates R R' S) {format : List CharT} {out : σ} {out' : τ}
    (hS : S out out') (hnul : 0 ∉ format) :
    (doFormat R formatValue env args format out = none ∧
        doFormat R' formatValue env args format out' = none ∧ Overflows env args format) ∨
      ∃ result o o', doFormat R formatValue env args format out = some (result, o) ∧
        doFormat R' formatValue env args format out' = some (result, o') ∧ S o o' :=
  doFormatLoop_simulates hR _ 0 _ format 0 out out' hS hnul (Nat.lt_succ_self _)

end Simulation

/-! ## What every call keeps -/

/-- A relation between the destination and the count that every call keeps. -/
def Keeps (R : Renderer σ) (P : σ → Nat → Prop) : Prop :=
  ∀ out count rsh rshLength n o, P out count → R.render out rsh rshLength = some (n, o) →
    P o (count + n)

section Invariant

variable {R : Renderer σ} {P : σ → Nat → Prop} {formatValue : Arg → Flags → List CharT → CText}
  {env : Nat → EnvKind → ScratchText} {args : List Arg}

theorem renderIf_keeps (hR : Keeps R P) {c : Prop} [Decidable c] {out o : σ} {count n : Nat}
    {rsh : List CharT} {rshLength : Int} (hP : P out count)
    (h : R.renderIf c out rsh rshLength = some (n, o)) : P o (count + n) := by
  unfold Renderer.renderIf at h
  split at h
  · exact hR out count rsh rshLength n o hP h
  · cases h
    exact hP

theorem formatRound_keeps (hR : Keeps R P) {p : Parsed} {out o : σ} {count n : Nat}
    (hP : P out count) (h : formatRound R formatValue args p out = some (n, o)) :
    P o (count + n) := by
  unfold formatRound at h
  simp only [Option.bind_eq_bind, Option.bind_eq_some_iff] at h
  obtain ⟨⟨n₁, o₁⟩, h₁, ⟨n₂, o₂⟩, h₂, h⟩ := h
  have hP₂ := renderIf_keeps hR (renderIf_keeps hR hP h₁) h₂
  split at h
  · cases h
    rw [← Nat.add_assoc]
    exact hP₂
  · simp only [Option.bind_eq_some_iff] at h
    obtain ⟨value, _, ⟨n₃, o₃⟩, h₃, h⟩ := h
    cases h
    rw [← Nat.add_assoc, ← Nat.add_assoc]
    exact hR _ _ _ _ _ _ hP₂ h₃

/-- **What every call keeps, the loop keeps**, with the number it returns if there is one. -/
theorem doFormatLoop_keeps (hR : Keeps R P) : ∀ (bound round : Nat) (fmtSpec : FormatSpec)
    (format : List CharT) (count : Nat) (out : σ) (result : Option Nat) (o : σ), P out count →
    doFormatLoop R formatValue env args bound round fmtSpec format count out = some (result, o) →
    ∃ n, P o n ∧ (result = none ∨ result = some n) := by
  intro bound
  induction bound with
  | zero =>
    intro round fmtSpec format count out result o _ h
    cases h
  | succ bound ih =>
    intro round fmtSpec format count out result o hP h
    simp only [doFormatLoop] at h
    split at h
    · cases h
    split at h
    · cases h
      exact ⟨count, hP, .inl rfl⟩
    split at h
    · cases h
    rename_i n o₁ hround
    have hP₁ := formatRound_keeps hR hP hround
    split at h
    · cases h
      exact ⟨count + n, hP₁, .inr rfl⟩
    · exact ih _ _ _ _ _ _ _ hP₁ h

theorem doFormat_keeps (hR : Keeps R P) {format : List CharT} {out o : σ} {result : Option Nat}
    (hP : P out 0) (h : doFormat R formatValue env args format out = some (result, o)) :
    ∃ n, P o n ∧ (result = none ∨ result = some n) :=
  doFormatLoop_keeps hR _ _ _ _ _ _ _ _ hP h

/-- The count of the string renderer is the number of characters it has appended. -/
theorem stringRenderer_keeps (before : Nat) :
    Keeps stringRenderer fun string count => string.length = before + count := by
  intro string count rsh rshLength n o hlen h
  rw [stringRenderer_render] at h
  cases h
  rw [List.length_append, hlen, Nat.add_assoc]

end Invariant

end IMonPlatform.Format
