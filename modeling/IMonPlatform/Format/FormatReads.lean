import IMonPlatform.Format.Pointer

/-!
# `doFormat` over the memory it reads

The loop of `doFormat` around `fmtParseAt`.  It ends for every NUL-terminated format, whatever
stands in it, without a read behind the NUL; what it makes of the numbers of the directives depends
on how they fit into a `long`.

* `FormatCall` — the template and its arguments; `roundAt`, `doFormatAt` — one round and the loop.
* `nextDirective`, `formatDirectives` — the directives of a format, from left to right.
* `round_cases` — what a round does, by the number of the directive it takes.
* `format_reads_bounded` — at most `length + 1` rounds and no read behind the NUL.
* `bad_index_reported_iff` — a directive that names no argument is reported exactly if the number of
  the first such directive is below `2^31`.
-/

set_option autoImplicit false

namespace IMonPlatform.Format

open CString

variable {Arg σ : Type}

/-! ## The loop -/

/-- What `doFormat` is called with. -/
structure FormatCall (Arg σ : Type) where
  /-- `renderer.render`, by the text that it is given. -/
  render : σ → List CharT → Nat × σ
  /-- The text that the overload for an argument renders.  The overloads clear the scratch buffer
      before they write to it, or have a library function write a C string there. -/
  formatValue : Arg → Flags → List CharT → CText
  /-- The overload gives the scratch buffer to `formatDateTime` if the flag `datetime` is set: those
      for `int`, `long` and `long long`. -/
  testsDatetime : Arg → Bool
  env : Nat → EnvKind → ScratchText
  args : List Arg
  /-- `argCount` is a `long`. -/
  argCount_lt : args.length < 2 ^ 31

structure LoopState (σ : Type) where
  round : Nat
  fmtSpec : FormatSpec
  scratch : Scratch
  format : List CharT
  nRetFormattedCount : Nat
  out : σ

/-- In front of the loop; `format_internal` has set `fmtBuffer` to zero. -/
def LoopState.start (format : List CharT) (out : σ) : LoopState σ :=
  ⟨0, ⟨0, .zero⟩, ⟨List.replicate DEFAULT_BUFFER_SIZE 0, []⟩, format, 0, out⟩

/-- What `doFormat` returns, `none` for `(size_t)-1`, and the state it leaves. -/
structure Run (σ : Type) where
  result : Option Nat
  last : LoopState σ

inductive Turn (σ : Type) where
  | next (st : LoopState σ)
  | stop (run : Run σ)

namespace FormatCall

variable (call : FormatCall Arg σ)

/-- `if( prefixLength > 0 ) nRetFormattedCount += renderer.render( prefix, prefixLength );` -/
def renderPrefix (p : ParsedAt) (out : σ) : Option (Nat × σ) :=
  if 0 < p.prefixLength then (readBlock p.prefixText p.prefixLength).map (call.render out)
  else some (0, out)

/-- The texts that a round renders, and how much that is. -/
def renderRound (p : ParsedAt) (out : σ) : Option (Nat × σ) := do
  let r₁ ← call.renderPrefix p out
  let r₂ := if p.scratch.fmtBuffer.headD 0 ≠ 0 ∧ p.fmtSpec.argIndex = 0 then
    call.render r₁.2 (cstr p.scratch.fmtBuffer) else (0, r₁.2)
  if p.fmtSpec.argIndex ≤ 0 then some (r₁.1 + r₂.1, r₂.2)
  else
    let value ← call.args[(p.fmtSpec.argIndex - 1).toNat]?
    let text := call.formatValue value p.fmtSpec.flags (cstr p.scratch.fmtBuffer)
    let r₃ := call.render r₂.2 text.chars
    some (r₁.1 + r₂.1 + r₃.1, r₃.2)

/-- The renderer reads what `%0{..}` has left in the scratch buffer, `formatDateTime` the text
    behind `DT:`. -/
def hands (p : ParsedAt) : Bool :=
  if p.fmtSpec.argIndex = 0 then p.scratch.fmtBuffer.headD 0 != 0
  else if p.fmtSpec.argIndex < 0 then false
  else
    match call.args[(p.fmtSpec.argIndex - 1).toNat]? with
    | none => false
    | some value => p.fmtSpec.flags.datetime && call.testsDatetime value

/-- The scratch buffer after these calls. -/
def handRound (p : ParsedAt) : Scratch := if call.hands p then p.scratch.hand else p.scratch

/-- The state after a round that has rendered something. -/
def after (st : LoopState σ) (p : ParsedAt) (r : Nat × σ) : LoopState σ :=
  ⟨st.round + 1, p.fmtSpec, call.handRound p, p.format, st.nRetFormattedCount + r.1, r.2⟩

/-- One round. -/
def roundAt (st : LoopState σ) : Option (Turn σ) := do
  let p ← fmtParseAt (call.env st.round) call.args.length st.fmtSpec st.scratch.clear st.format
  if 0 < p.fmtSpec.argIndex ∧ call.args.length < p.fmtSpec.argIndex then
    some (.stop ⟨none,
      ⟨st.round + 1, p.fmtSpec, p.scratch, p.format, st.nRetFormattedCount, st.out⟩⟩)
  else
    let r ← call.renderRound p st.out
    if p.fmtSpec.argIndex < 0 then
      some (.stop ⟨some (call.after st p r).nRetFormattedCount, call.after st p r⟩)
    else some (.next (call.after st p r))

/-- `while( format )`, with a bound on the rounds. -/
def loopAt : Nat → LoopState σ → Option (Run σ)
  | 0, _ => none
  | bound + 1, st =>
    match call.roundAt st with
    | none => none
    | some (.stop run) => some run
    | some (.next st) => loopAt bound st

/-- `doFormat` on a row of cells. -/
def doFormatAt (bound : Nat) (format : List CharT) (out : σ) : Option (Run σ) :=
  call.loopAt bound (.start format out)

end FormatCall

/-! ## Directives from left to right -/

def nextDirective (format : List CharT) : Option (Directive × List CharT) :=
  match format.dropWhile (· != '%'.toNat) with
  | [] => none
  | _ :: tail => some ((directiveAt tail).1, (directiveAt tail).2.2)

def readDirectives : Nat → List CharT → List Directive
  | 0, _ => []
  | bound + 1, format =>
    match nextDirective format with
    | none => []
    | some (d, rest) => d :: readDirectives bound rest

/-- The directives of a format; each takes at least its `%`. -/
def formatDirectives (format : List CharT) : List Directive := readDirectives format.length format

/-- The numbers of the directives. -/
def formatNumbers (format : List CharT) : List Nat :=
  (formatDirectives format).filterMap Directive.number

theorem directiveAt_suffix (format : List CharT) : (directiveAt format).2.2 <:+ format := by
  unfold directiveAt
  split
  · exact List.drop_suffix 1 format
  split
  · have hrest : format.dropWhile isdigit <:+ format := List.dropWhile_suffix isdigit
    dsimp only
    split
    · exact (skipSpec_suffix _).trans ((List.drop_suffix 1 _).trans hrest)
    · exact hrest
  · exact List.suffix_refl format

theorem directiveAt_literal (format : List CharT) : (directiveAt format).2.1 ≤ 1 := by
  unfold directiveAt
  split
  · exact Nat.le_refl 1
  split
  · dsimp only
    split <;> exact Nat.zero_le 1
  · exact Nat.zero_le 1

theorem nextDirective_rest {format rest : List CharT} {d : Directive}
    (h : nextDirective format = some (d, rest)) :
    rest <:+ format ∧ rest.length < format.length := by
  unfold nextDirective at h
  split at h
  · cases h
  · rename_i c tail hd
    cases h
    have hsuffix := List.dropWhile_suffix (l := format) (· != '%'.toNat)
    rw [hd] at hsuffix
    have hrest := directiveAt_suffix tail
    have hlen := hsuffix.length_le
    have hshort := hrest.length_le
    rw [List.length_cons] at hlen
    exact ⟨hrest.trans ((List.suffix_cons c tail).trans hsuffix), by omega⟩

/-- The spec of a directive is a part of the format. -/
theorem nextDirective_spec {format rest spec : List CharT} {d : Directive}
    (h : nextDirective format = some (d, rest)) (hspec : d.spec = some spec) : spec <:+ format := by
  unfold nextDirective at h
  split at h
  · cases h
  · rename_i c tail hd
    cases h
    have hsuffix := List.dropWhile_suffix (l := format) (· != '%'.toNat)
    rw [hd] at hsuffix
    unfold directiveAt at hspec
    split at hspec
    · cases hspec
    split at hspec
    · dsimp only at hspec
      split at hspec
      · cases hspec
        exact (List.drop_suffix 1 _).trans ((List.dropWhile_suffix isdigit).trans
          ((List.suffix_cons c tail).trans hsuffix))
      · cases hspec
    · cases hspec

/-- A larger bound reads no other directives. -/
theorem readDirectives_bound : ∀ (bound more : Nat) (format : List CharT),
    format.length ≤ bound → readDirectives (bound + more) format = readDirectives bound format
  | 0, more, format, h => by
    rw [List.eq_nil_of_length_eq_zero (Nat.le_zero.mp h)]
    cases more <;> rfl
  | bound + 1, more, format, h => by
    rw [Nat.succ_add, readDirectives, readDirectives]
    split
    · rfl
    · rename_i d rest hnext
      have hshort := (nextDirective_rest hnext).2
      rw [readDirectives_bound bound more rest (by omega)]

/-- The directives of a format, one at a time. -/
theorem formatDirectives_next {format rest : List CharT} {d : Directive}
    (h : nextDirective format = some (d, rest)) :
    formatDirectives format = d :: formatDirectives rest := by
  have hshort := (nextDirective_rest h).2
  obtain ⟨more, hlen⟩ := Nat.exists_eq_add_of_lt hshort
  have hbound : format.length = rest.length + more + 1 := hlen
  rw [formatDirectives, hbound, readDirectives, h]
  dsimp only
  rw [readDirectives_bound rest.length more rest (Nat.le_refl _), formatDirectives]

theorem formatDirectives_end {format : List CharT} (h : nextDirective format = none) :
    formatDirectives format = [] := by
  unfold formatDirectives
  cases format.length with
  | zero => rfl
  | succ n => simp only [readDirectives, h]

/-! ## Numbers -/

theorem argIndexOf_small {k : Nat} (h : k < 2 ^ 31) : argIndexOf k = k := by
  rw [argIndexOf]
  exact toLong_small h

/-- A number that is no `long` becomes negative. -/
theorem argIndexOf_large {k : Nat} (h : 2 ^ 31 ≤ k) : argIndexOf k < 0 := by
  unfold argIndexOf toLong
  have hlow : 2 ^ 31 ≤ min k (2 ^ 32 - 1) := by omega
  have hhigh : min k (2 ^ 32 - 1) < 2 ^ 32 := by omega
  generalize min k (2 ^ 32 - 1) = v at hlow hhigh
  rw [Int.bmod_def]
  split <;> omega

theorem special_argIndex (env : EnvKind → ScratchText) (n : Nat) (s : Scratch)
    (word : Option SpecialWord) :
    0 ≤ (special env n ⟨0, .zero⟩ s word).1.argIndex ∧
      (special env n ⟨0, .zero⟩ s word).1.argIndex ≤ n := by
  rcases word with _ | word
  · exact ⟨Int.le_refl 0, Int.natCast_nonneg n⟩
  · cases word <;> simp [special]

theorem setFlag_argIndex (fmtSpec : FormatSpec) (word : Option SpecWord) :
    (setFlag fmtSpec word).argIndex = fmtSpec.argIndex := by
  rcases word with _ | word
  · rfl
  · cases word <;> rfl

/-- `argIndex` for a directive with a number other than zero. -/
theorem parse_argIndex (env : EnvKind → ScratchText) (n : Int) (s : Scratch) {d : Directive}
    {k : Nat} (hnumber : d.number = some k) (hk : argIndexOf k ≠ 0) :
    (d.parse env n s).1.argIndex = argIndexOf k := by
  cases hspec : d.spec with
  | none => simp only [Directive.parse, hnumber, hspec]
  | some spec =>
    simp only [Directive.parse, hnumber, hspec, if_neg hk, setFlag_argIndex]

/-- A directive that names an argument, or none. -/
theorem parse_inRange (env : EnvKind → ScratchText) {n : Nat} (hn : n < 2 ^ 31) (s : Scratch)
    {d : Directive} (hd : ∀ k ∈ d.number, k ≤ n) :
    0 ≤ (d.parse env n s).1.argIndex ∧ (d.parse env n s).1.argIndex ≤ n := by
  cases hnumber : d.number with
  | none =>
    simp only [Directive.parse, hnumber]
    exact ⟨Int.le_refl 0, Int.natCast_nonneg n⟩
  | some k =>
    have hle : k ≤ n := hd k hnumber
    have hk : argIndexOf k = k := argIndexOf_small (by omega)
    by_cases hzero : argIndexOf k = 0
    · cases hspec : d.spec with
      | none =>
        simp only [Directive.parse, hnumber, hspec, hzero]
        exact ⟨Int.le_refl 0, Int.natCast_nonneg n⟩
      | some spec =>
        simp only [Directive.parse, hnumber, hspec, if_pos hzero]
        exact special_argIndex env n s _
    · rw [parse_argIndex env n s hnumber hzero, hk]
      omega

/-! ## One round -/

section Rounds

variable (call : FormatCall Arg σ) {st : LoopState σ} {format : List CharT}

theorem renderPrefix_some {p : ParsedAt} (hslice : p.prefixText = cells format)
    (hlen : p.prefixLength ≤ format.length) (out : σ) :
    ∃ r, call.renderPrefix p out = some r := by
  unfold FormatCall.renderPrefix
  split
  · rw [hslice, readBlock_cells hlen]
    exact ⟨_, rfl⟩
  · exact ⟨_, rfl⟩

theorem renderRound_some (p : ParsedAt) (hslice : p.prefixText = cells format)
    (hlen : p.prefixLength ≤ format.length) (hindex : p.fmtSpec.argIndex ≤ call.args.length)
    (out : σ) : ∃ r, call.renderRound p out = some r := by
  obtain ⟨r₁, hr₁⟩ := renderPrefix_some call hslice hlen out
  unfold FormatCall.renderRound
  simp only [hr₁, Option.bind_eq_bind, Option.bind_some]
  by_cases hpos : p.fmtSpec.argIndex ≤ 0
  · rw [if_pos hpos]
    exact ⟨_, rfl⟩
  · have hvalue : (p.fmtSpec.argIndex - 1).toNat < call.args.length := by omega
    rw [if_neg hpos, List.getElem?_eq_getElem hvalue]
    exact ⟨_, rfl⟩

/-- What the call of a round leaves. -/
def parsedOf (call : FormatCall Arg σ) (st : LoopState σ) (format : List CharT) (d : Directive)
    (literal : Nat) (rest : List CharT) : ParsedAt where
  fmtSpec := (d.parse (call.env st.round) call.args.length st.scratch.clear).1
  scratch := (d.parse (call.env st.round) call.args.length st.scratch.clear).2
  prefixText := cells format
  prefixLength := literal
  format := cells rest

/-- The call of a round that finds no directive. -/
theorem fmtParseAt_end (h : 0 ∉ format) (hst : st.format = cells format)
    (hnext : nextDirective format = none) :
    fmtParseAt (call.env st.round) call.args.length st.fmtSpec st.scratch.clear st.format =
      some ⟨⟨-1, .zero⟩, st.scratch.clear, cells format, format.length, cells []⟩ := by
  rw [hst, fmtParseAt_cells h]
  unfold nextDirective at hnext
  cases hd : format.dropWhile (· != '%'.toNat) with
  | nil => rfl
  | cons c tail =>
    rw [hd] at hnext
    cases hnext

/-- The directive that the call of a round takes. -/
theorem fmtParseAt_next (h : 0 ∉ format) (hst : st.format = cells format) {d : Directive}
    {rest : List CharT} (hnext : nextDirective format = some (d, rest)) :
    ∃ literal, literal ≤ format.length ∧
      fmtParseAt (call.env st.round) call.args.length st.fmtSpec st.scratch.clear st.format =
        some (parsedOf call st format d literal rest) := by
  have hsplit := List.takeWhile_append_dropWhile (p := (· != '%'.toNat)) (l := format)
  rw [hst, fmtParseAt_cells h]
  unfold nextDirective at hnext
  cases hd : format.dropWhile (· != '%'.toNat) with
  | nil =>
    rw [hd] at hnext
    cases hnext
  | cons c tail =>
    rw [hd] at hnext hsplit
    cases hnext
    have hlen := congrArg List.length hsplit
    rw [List.length_append, List.length_cons] at hlen
    have hliteral := directiveAt_literal tail
    exact ⟨_, by omega, rfl⟩

/-- A round that ends the loop. -/
inductive StopCase (call : FormatCall Arg σ) (st : LoopState σ) (format : List CharT) :
    Run σ → Prop where
  /-- No directive is left. -/
  | finished (n : Nat) (st' : LoopState σ) (hnext : nextDirective format = none)
      (hcount : st'.round = st.round + 1) (hformat : st'.format = cells [])
      (hscratch : st'.scratch = st.scratch.clear) : StopCase call st format ⟨some n, st'⟩
  /-- The number of the directive is too large for the arguments. -/
  | reported (d : Directive) (rest : List CharT) (literal k : Nat) (st' : LoopState σ)
      (hnext : nextDirective format = some (d, rest)) (hcount : st'.round = st.round + 1)
      (hnumber : d.number = some k) (hrange : call.args.length < k) (hlong : k < 2 ^ 31)
      (hscratch : st'.scratch = (parsedOf call st format d literal rest).scratch) :
      StopCase call st format ⟨none, st'⟩
  /-- It is too large for a `long`, and the round takes it for the end of the format. -/
  | missed (d : Directive) (rest : List CharT) (literal k n : Nat) (st' : LoopState σ)
      (hnext : nextDirective format = some (d, rest)) (hcount : st'.round = st.round + 1)
      (hnumber : d.number = some k) (hlong : 2 ^ 31 ≤ k)
      (hscratch : st'.scratch = (parsedOf call st format d literal rest).scratch) :
      StopCase call st format ⟨some n, st'⟩

/-- What a round does at a format. -/
inductive RoundCase (call : FormatCall Arg σ) (st : LoopState σ) (format : List CharT) : Prop where
  | stop (run : Run σ) (hround : call.roundAt st = some (.stop run))
      (hcase : StopCase call st format run)
  /-- The directive names an argument, or none. -/
  | taken (d : Directive) (rest : List CharT) (literal : Nat) (st' : LoopState σ)
      (hround : call.roundAt st = some (.next st')) (hnext : nextDirective format = some (d, rest))
      (hcount : st'.round = st.round + 1) (hrange : ∀ k ∈ d.number, k ≤ call.args.length)
      (hformat : st'.format = cells rest)
      (hscratch : st'.scratch = call.handRound (parsedOf call st format d literal rest))

section Turns

variable {p : ParsedAt} {r : Nat × σ}

/-- The call of a round gives `p`. -/
def Parses (call : FormatCall Arg σ) (st : LoopState σ) (p : ParsedAt) : Prop :=
  fmtParseAt (call.env st.round) call.args.length st.fmtSpec st.scratch.clear st.format = some p

theorem round_next (hparse : Parses call st p) (hlow : 0 ≤ p.fmtSpec.argIndex)
    (hhigh : p.fmtSpec.argIndex ≤ call.args.length) (hr : call.renderRound p st.out = some r) :
    call.roundAt st = some (.next (call.after st p r)) := by
  have hnot : ¬ (0 < p.fmtSpec.argIndex ∧ (call.args.length : Int) < p.fmtSpec.argIndex) := by
    omega
  unfold Parses at hparse
  simp only [FormatCall.roundAt, hparse, Option.bind_eq_bind, Option.bind_some, if_neg hnot, hr,
    if_neg (Int.not_lt.mpr hlow)]

theorem round_end (hparse : Parses call st p) (hindex : p.fmtSpec.argIndex < 0)
    (hr : call.renderRound p st.out = some r) :
    call.roundAt st =
      some (.stop ⟨some (call.after st p r).nRetFormattedCount, call.after st p r⟩) := by
  have hnot : ¬ (0 < p.fmtSpec.argIndex ∧ (call.args.length : Int) < p.fmtSpec.argIndex) := by
    omega
  unfold Parses at hparse
  simp only [FormatCall.roundAt, hparse, Option.bind_eq_bind, Option.bind_some, if_neg hnot, hr,
    if_pos hindex]

theorem round_reported (hparse : Parses call st p) (hlow : 0 < p.fmtSpec.argIndex)
    (hhigh : (call.args.length : Int) < p.fmtSpec.argIndex) :
    call.roundAt st = some (.stop ⟨none,
      ⟨st.round + 1, p.fmtSpec, p.scratch, p.format, st.nRetFormattedCount, st.out⟩⟩) := by
  unfold Parses at hparse
  simp only [FormatCall.roundAt, hparse, Option.bind_eq_bind, Option.bind_some,
    if_pos (And.intro hlow hhigh)]

theorem handRound_end (hindex : p.fmtSpec.argIndex < 0) : call.handRound p = p.scratch := by
  have hhands : call.hands p = false := by
    rw [FormatCall.hands, if_neg (by omega), if_pos hindex]
  rw [FormatCall.handRound, hhands]
  rfl

end Turns

/-- A number that is out of range. -/
theorem number_of_not_le {n : Nat} {number : Option Nat} (h : ¬ ∀ k ∈ number, k ≤ n) :
    ∃ k, number = some k ∧ n < k := by
  simp only [not_forall, not_le, exists_prop] at h
  exact h

theorem round_cases (h : 0 ∉ format) (hst : st.format = cells format) :
    RoundCase call st format := by
  cases hnext : nextDirective format with
  | none =>
    have hparse := fmtParseAt_end call h hst hnext
    obtain ⟨r, hr⟩ := renderRound_some call
      ⟨⟨-1, .zero⟩, st.scratch.clear, cells format, format.length, cells []⟩ rfl (Nat.le_refl _)
      (show (-1 : Int) ≤ call.args.length by omega) st.out
    exact .stop _ (round_end call hparse (show (-1 : Int) < 0 by decide) hr)
      (.finished _ _ hnext rfl rfl rfl)
  | some next =>
    obtain ⟨d, rest⟩ := next
    obtain ⟨literal, hlen, hparse⟩ := fmtParseAt_next call h hst hnext
    have hrender := renderRound_some call (parsedOf call st format d literal rest) rfl hlen
    have hlt := call.argCount_lt
    by_cases hrange : ∀ k ∈ d.number, k ≤ call.args.length
    · obtain ⟨hlow, hhigh⟩ := parse_inRange (call.env st.round) hlt st.scratch.clear hrange
      obtain ⟨r, hr⟩ := hrender hhigh st.out
      exact .taken d rest literal _ (round_next call hparse hlow hhigh hr) hnext rfl hrange rfl rfl
    · obtain ⟨k, hnumber, hk⟩ := number_of_not_le hrange
      have hindex : argIndexOf k ≠ 0 →
          (parsedOf call st format d literal rest).fmtSpec.argIndex = argIndexOf k :=
        parse_argIndex (call.env st.round) call.args.length st.scratch.clear hnumber
      rcases Nat.lt_or_ge k (2 ^ 31) with hlong | hlong
      · have hsmall := argIndexOf_small hlong
        have hvalue := hindex (by omega)
        exact .stop _ (round_reported call hparse (by omega) (by omega))
          (.reported d rest literal k _ hnext rfl hnumber hk hlong rfl)
      · have hlarge := argIndexOf_large hlong
        have hvalue := hindex (by omega)
        obtain ⟨r, hr⟩ := hrender (by omega) st.out
        have hneg : (parsedOf call st format d literal rest).fmtSpec.argIndex < 0 := by omega
        exact .stop _ (round_end call hparse hneg hr)
          (.missed d rest literal k _ _ hnext rfl hnumber hlong (handRound_end call hneg))

end Rounds

/-! ## Runs -/

section Runs

variable (call : FormatCall Arg σ)

/-- **The loop ends**, with the same result for every bound above the length of the format; what
    holds of the rounds that end it and goes from a round to the one before holds of the run. -/
theorem loopAt_rule {P : List CharT → LoopState σ → Run σ → Prop}
    (hstop : ∀ {format st run}, 0 ∉ format → StopCase call st format run → P format st run)
    (hnext : ∀ {format rest st st' d literal run}, 0 ∉ format →
      nextDirective format = some (d, rest) → st'.round = st.round + 1 →
      (∀ k ∈ d.number, k ≤ call.args.length) →
      st'.scratch = call.handRound (parsedOf call st format d literal rest) → P rest st' run →
      P format st run) :
    ∀ (n : Nat) (format : List CharT) (st : LoopState σ), format.length = n → 0 ∉ format →
      st.format = cells format →
      ∃ run, (∀ extra, call.loopAt (n + 1 + extra) st = some run) ∧ P format st run := by
  intro n
  induction n using Nat.strong_induction_on with
  | _ n ih =>
    intro format st hlen hnul hst
    cases round_cases call hnul hst with
    | stop run hround hcase =>
      refine ⟨run, fun extra => ?_, hstop hnul hcase⟩
      rw [Nat.succ_add, FormatCall.loopAt, hround]
    | taken d rest literal st' hround hnextd hcount hrange hformat hscratch =>
      obtain ⟨hsuffix, hshort⟩ := nextDirective_rest hnextd
      have hrest : 0 ∉ rest := fun hmem => hnul (hsuffix.subset hmem)
      obtain ⟨run, hloop, hP⟩ := ih rest.length (by omega) rest st' rfl hrest hformat
      refine ⟨run, fun extra => ?_, hnext hnul hnextd hcount hrange hscratch hP⟩
      -- one round is taken from the bound, and what is left of it is enough for the rest
      have hbound : n + extra = rest.length + 1 + (n - rest.length - 1 + extra) := by omega
      rw [Nat.succ_add, FormatCall.loopAt, hround]
      dsimp only
      rw [hbound]
      exact hloop _

/-- The rounds of a run. -/
theorem loopAt_rounds (format : CText) (out : σ) :
    ∃ run, (∀ extra, call.loopAt (format.chars.length + 1 + extra)
        (.start (cells format.chars) out) = some run) ∧
      run.last.round ≤ 0 + format.chars.length + 1 := by
  refine loopAt_rule (P := fun format st run => run.last.round ≤ st.round + format.length + 1) call
    ?_ ?_ _ format.chars (.start (cells format.chars) out) rfl format.nulFree rfl
  · intro format st run _ hcase
    have hcount : run.last.round = st.round + 1 := by cases hcase <;> assumption
    omega
  · intro format rest st st' d literal run _ hnext hcount _ _ hP
    have hshort := (nextDirective_rest hnext).2
    omega

/-- **`doFormat` ends and reads nothing behind the format**: for every NUL-terminated format it
    takes at most `length + 1` rounds, all of whose reads succeed. -/
theorem format_reads_bounded (format : CText) (out : σ) :
    ∃ run, (∀ extra, call.doFormatAt (format.chars.length + 1 + extra) (cells format.chars) out =
        some run) ∧ run.last.round ≤ format.chars.length + 1 := by
  obtain ⟨run, hloop, hrounds⟩ := loopAt_rounds call format out
  exact ⟨run, hloop, by omega⟩

/-! ## Numbers that name no argument -/

/-- The first number that names no argument. -/
def firstBad (n : Nat) (format : List CharT) : Option Nat :=
  (formatNumbers format).find? fun k => decide (n < k)

theorem firstBad_end {format : List CharT} (n : Nat) (h : nextDirective format = none) :
    firstBad n format = none := by
  rw [firstBad, formatNumbers, formatDirectives_end h]
  rfl

theorem firstBad_taken {format rest : List CharT} {d : Directive} {n : Nat}
    (h : nextDirective format = some (d, rest)) (hrange : ∀ k ∈ d.number, k ≤ n) :
    firstBad n format = firstBad n rest := by
  rw [firstBad, formatNumbers, formatDirectives_next h]
  cases hnumber : d.number with
  | none => rw [List.filterMap_cons_none hnumber, firstBad, formatNumbers]
  | some k =>
    have hk : ¬ decide (n < k) = true := by simpa using hrange k hnumber
    rw [List.filterMap_cons_some hnumber, firstBad, formatNumbers]
    exact List.find?_cons_of_neg (p := fun k => decide (n < k)) hk

theorem firstBad_found {format rest : List CharT} {d : Directive} {n k : Nat}
    (h : nextDirective format = some (d, rest)) (hnumber : d.number = some k) (hk : n < k) :
    firstBad n format = some k := by
  rw [firstBad, formatNumbers, formatDirectives_next h, List.filterMap_cons_some hnumber]
  exact List.find?_cons_of_pos (decide_eq_true hk)

/-- What a run makes of the numbers. -/
theorem loopAt_result (format : CText) (out : σ) :
    ∃ run, (∀ extra, call.doFormatAt (format.chars.length + 1 + extra) (cells format.chars) out =
        some run) ∧
      (run.result = none ↔ ∃ k, firstBad call.args.length format.chars = some k ∧ k < 2 ^ 31) ∧
      (firstBad call.args.length format.chars = none → run.last.format = cells []) := by
  refine loopAt_rule (P := fun format _ run =>
    (run.result = none ↔ ∃ k, firstBad call.args.length format = some k ∧ k < 2 ^ 31) ∧
      (firstBad call.args.length format = none → run.last.format = cells [])) call
    ?_ ?_ _ format.chars (.start (cells format.chars) out) rfl format.nulFree rfl
  · intro format st run _ hcase
    cases hcase with
    | finished n st' hnext _ hformat =>
      rw [firstBad_end _ hnext]
      exact ⟨by simp, fun _ => hformat⟩
    | reported d rest literal k st' hnext _ hnumber hrange hlong =>
      rw [firstBad_found hnext hnumber hrange]
      exact ⟨by simpa using hlong, fun h => by cases h⟩
    | missed d rest literal k n st' hnext _ hnumber hlong =>
      have hrange : call.args.length < k := Nat.lt_of_lt_of_le call.argCount_lt hlong
      rw [firstBad_found hnext hnumber hrange]
      exact ⟨by simpa using hlong, fun h => by cases h⟩
  · intro format rest st st' d literal run _ hnext _ hrange _ hP
    rw [firstBad_taken hnext hrange]
    exact hP

/-- `(size_t)-1` is returned exactly if a directive names no argument; otherwise the format is
    processed to its end. -/
def ReportsBadIndex (format : CText) (out : σ) : Prop :=
  ∃ run, (∀ extra, call.doFormatAt (format.chars.length + 1 + extra) (cells format.chars) out =
      some run) ∧
    (run.result = none ↔ ∃ k ∈ formatNumbers format.chars, call.args.length < k) ∧
    ((∀ k ∈ formatNumbers format.chars, k ≤ call.args.length) → run.last.format = cells [])

/-- **When a bad index is reported**: exactly if the first number that names no argument, where
    there is one, is below `2^31`. -/
theorem bad_index_reported_iff (format : CText) (out : σ) :
    ReportsBadIndex call format out ↔
      ∀ k, (formatNumbers format.chars).find? (fun k => decide (call.args.length < k)) = some k →
        k < 2 ^ 31 := by
  obtain ⟨run, hrun, hresult, hend⟩ := loopAt_result call format out
  unfold firstBad at hresult hend
  constructor
  · rintro ⟨run', hrun', hresult', _⟩ k hk
    have hsame : run' = run := Option.some.inj ((hrun' 0).symm.trans (hrun 0))
    have hbad : ∃ k ∈ formatNumbers format.chars, call.args.length < k :=
      ⟨k, List.mem_of_find?_eq_some hk, by simpa using List.find?_some hk⟩
    rw [hsame] at hresult'
    obtain ⟨k', hk', hlong⟩ := hresult.mp (hresult'.mpr hbad)
    cases hk.symm.trans hk'
    exact hlong
  · intro hlong
    refine ⟨run, hrun, ⟨fun hnone => ?_, ?_⟩, fun hall => hend ?_⟩
    · obtain ⟨k, hk, _⟩ := hresult.mp hnone
      exact ⟨k, List.mem_of_find?_eq_some hk, by simpa using List.find?_some hk⟩
    · rintro ⟨k, hmem, hk⟩
      refine hresult.mpr ?_
      cases hfind : (formatNumbers format.chars).find? fun k => decide (call.args.length < k) with
      | none => exact absurd (decide_eq_true hk) (List.find?_eq_none.mp hfind k hmem)
      | some k' => exact ⟨k', rfl, hlong k' hfind⟩
    · refine List.find?_eq_none.mpr fun k hmem => ?_
      simpa using hall k hmem

end Runs

/-- A call with one argument that is printed as `x` into a string. -/
def callWithOne : FormatCall Unit (List CharT) where
  render out text := (text.length, out ++ text)
  formatValue _ _ _ := ⟨['x'.toNat], by decide⟩
  testsDatetime _ := true
  env _ _ := ⟨⟨['e'.toNat], by decide⟩, by decide⟩
  args := [()]
  argCount_lt := by decide

/-- `%2147483648` -/
def firstNoLong : CText :=
  ⟨['%', '2', '1', '4', '7', '4', '8', '3', '6', '4', '8'].map Char.toNat, by decide⟩

/-- The number becomes negative and `doFormat` returns a count. -/
theorem large_index_missed : ¬ ReportsBadIndex callWithOne firstNoLong [] := by
  rintro ⟨run, hrun, hresult, _⟩
  have hcount : (callWithOne.doFormatAt 12 (cells firstNoLong.chars) []).map Run.result =
      some (some 0) := by decide
  have hbad : ∃ k ∈ formatNumbers firstNoLong.chars, callWithOne.args.length < k :=
    ⟨2147483648, by decide, by decide⟩
  have hnone := hresult.mpr hbad
  have hlast : callWithOne.doFormatAt 12 (cells firstNoLong.chars) [] = some run := hrun 0
  rw [hlast, Option.map_some, hnone] at hcount
  cases hcount

end IMonPlatform.Format
