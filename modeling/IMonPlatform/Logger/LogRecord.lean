import IMonPlatform.Format.BufferRenderer
import IMonPlatform.Logger.AsyncLog

/-!
# `CLogger::Log`: one record in its buffer

A `Log` call renders the prefix of the configuration and then the caller's format into the buffer
of its context and stores CR LF behind them.  The number that the first pass returns decides how
much room the second renderer believes to have, and the sum of both is the place of the CR LF; a
format with an index above the number of arguments makes that number `(size_t)-1`.

* `directives`, `Valid`, `renderCalls` — what a format asks for; `doFormat_directives` — what
  `doFormat` makes of it.
* `RecordContext`, `retrieveLOGContext`, `appendNewLineToLOGDATA`, `Log` — the call; `none` is an
  access outside of a buffer.
* `log_refines` — a call is a sequence of steps of `AsyncLog`.
* `renderRecord_cases` — what becomes of a record.
* `Left` — a context as earlier calls have left it; `left_shaped`.
* `log_in_bounds_iff` — a call writes its record where it belongs exactly if both formats are valid
  and there is a buffer or something to render.
-/

set_option autoImplicit false

namespace IMonPlatform.Format

variable {Arg σ : Type}

/-! ## What a format asks for -/

/-- The calls of `fmtParse` for a format, up to the first that ends the loop; `none` is a write
    behind the scratch buffer. -/
def directivesFrom (env : Nat → EnvKind → ScratchText) (argCount : Int) :
    Nat → Nat → List CharT → List (Option Parsed)
  | 0, _, _ => []
  | bound + 1, round, format =>
    match fmtParse (env round) argCount ⟨0, .zero⟩ (List.replicate DEFAULT_BUFFER_SIZE 0)
        format with
    | none => [none]
    | some p =>
      if p.fmtSpec.argIndex < 0 ∨ argCount < p.fmtSpec.argIndex then [some p]
      else some p :: directivesFrom env argCount bound (round + 1) p.format

def directives (env : Nat → EnvKind → ScratchText) (argCount : Int) (format : List CharT) :
    List (Option Parsed) :=
  directivesFrom env argCount (format.length + 1) 0 format

/-- A directive that stays within the scratch buffer and the arguments. -/
def ValidDirective (argCount : Int) (d : Option Parsed) : Prop :=
  ∃ p, d = some p ∧ p.fmtSpec.argIndex ≤ argCount

/-- All directives of a format are valid. -/
def Valid (env : Nat → EnvKind → ScratchText) (argCount : Int) (format : List CharT) : Prop :=
  ∀ d ∈ directives env argCount format, ValidDirective argCount d

/-- How often a round calls the renderer. -/
def Parsed.calls (p : Parsed) : Nat :=
  (if 0 < p.prefixLength then 1 else 0) +
    (if p.fmtBuffer.headD 0 ≠ 0 ∧ p.fmtSpec.argIndex = 0 then 1 else 0) +
    (if 0 < p.fmtSpec.argIndex then 1 else 0)

/-- How often a format calls the renderer. -/
def renderCalls (env : Nat → EnvKind → ScratchText) (argCount : Int) (format : List CharT) : Nat :=
  ((directives env argCount format).map fun d => d.elim 0 Parsed.calls).sum

section Directives

variable {formatValue : Arg → Flags → List CharT → CText} {env : Nat → EnvKind → ScratchText}
  {args : List Arg}

/-- The record that a call gets is reset. -/
theorem fmtParse_reset (env : EnvKind → ScratchText) (argCount : Int) (fmtSpec : FormatSpec)
    (fmtBuffer format : List CharT) :
    fmtParse env argCount fmtSpec fmtBuffer format =
      fmtParse env argCount ⟨0, .zero⟩ fmtBuffer format := rfl

theorem render_calls (text : List CharT) (calls : Nat) (rsh : List CharT) (rshLength : Int) :
    ∃ n o, (counted stringRenderer).render (text, calls) rsh rshLength =
      some (n, o, calls + 1) := by
  refine ⟨(rendered rsh rshLength).length, text ++ rendered rsh rshLength, ?_⟩
  simp [counted, stringRenderer_render]

theorem renderIf_calls (c : Prop) [Decidable c] (text : List CharT) (calls : Nat)
    (rsh : List CharT) (rshLength : Int) :
    ∃ n o, (counted stringRenderer).renderIf c (text, calls) rsh rshLength =
      some (n, o, calls + if c then 1 else 0) := by
  unfold Renderer.renderIf
  split
  · exact render_calls text calls rsh rshLength
  · exact ⟨0, text, rfl⟩

/-- A round with a valid index makes its calls. -/
theorem formatRound_calls (formatValue : Arg → Flags → List CharT → CText) {p : Parsed}
    (harg : ¬ (args.length : Int) < p.fmtSpec.argIndex) (text : List CharT) (calls : Nat) :
    ∃ n o, formatRound (counted stringRenderer) formatValue args p (text, calls) =
      some (n, o, calls + p.calls) := by
  obtain ⟨n₁, o₁, h₁⟩ := renderIf_calls (0 < p.prefixLength) text calls p.prefixText
    p.prefixLength
  obtain ⟨n₂, o₂, h₂⟩ := renderIf_calls (p.fmtBuffer.headD 0 ≠ 0 ∧ p.fmtSpec.argIndex = 0) o₁
    (calls + if 0 < p.prefixLength then 1 else 0) p.fmtBuffer (-1)
  unfold formatRound Parsed.calls
  simp only [h₁, h₂, Option.bind_eq_bind, Option.bind_some]
  by_cases hpos : p.fmtSpec.argIndex ≤ 0
  · simp only [if_pos hpos, if_neg (Int.not_lt.mpr hpos)]
    exact ⟨n₁ + n₂, o₂, by simp only [Nat.add_assoc, Nat.add_zero]⟩
  · have hindex : (p.fmtSpec.argIndex - 1).toNat < args.length := by omega
    obtain ⟨n₃, o₃, h₃⟩ := render_calls o₂ (calls + (if 0 < p.prefixLength then 1 else 0) +
      if p.fmtBuffer.headD 0 ≠ 0 ∧ p.fmtSpec.argIndex = 0 then 1 else 0)
      (formatValue args[(p.fmtSpec.argIndex - 1).toNat] p.fmtSpec.flags (cstr p.fmtBuffer)).chars
      (-1)
    simp only [if_neg hpos, if_pos (Int.not_le.mp hpos), List.getElem?_eq_getElem hindex, h₃,
      Option.bind_some]
    exact ⟨n₁ + n₂ + n₃, o₃, by simp only [Nat.add_assoc]⟩

/-- The three ways a format can end. -/
theorem doFormatLoop_directives (formatValue : Arg → Flags → List CharT → CText)
    (env : Nat → EnvKind → ScratchText) (args : List Arg) :
    ∀ (bound round : Nat) (fmtSpec : FormatSpec) (format : List CharT) (count : Nat)
      (text : List CharT) (calls : Nat), format.length < bound →
      let ds := directivesFrom env args.length bound round format
      let result := doFormatLoop (counted stringRenderer) formatValue env args bound round fmtSpec
        format count (text, calls)
      (result = none ∧ ¬ ∀ d ∈ ds, ValidDirective args.length d) ∨
        (∃ o, result = some (none, o) ∧ ¬ ∀ d ∈ ds, ValidDirective args.length d) ∨
        ∃ n o, result = some (some n, o, calls + (ds.map fun d => d.elim 0 Parsed.calls).sum) ∧
          ∀ d ∈ ds, ValidDirective args.length d := by
  intro bound
  induction bound with
  | zero =>
    intro round fmtSpec format count text calls hlt
    omega
  | succ bound ih =>
    intro round fmtSpec format count text calls hlt
    simp only [doFormatLoop, directivesFrom]
    rw [fmtParse_reset]
    cases hparse : fmtParse (env round) args.length ⟨0, .zero⟩
        (List.replicate DEFAULT_BUFFER_SIZE 0) format with
    | none =>
      refine .inl ⟨rfl, fun hall => ?_⟩
      obtain ⟨p, hp, _⟩ := hall none (List.mem_singleton.mpr rfl)
      cases hp
    | some p =>
      obtain ⟨_, _, hshort⟩ := fmtParse_rest hparse
      by_cases hover : (args.length : Int) < p.fmtSpec.argIndex
      · have hfail : 0 < p.fmtSpec.argIndex ∧ (args.length : Int) < p.fmtSpec.argIndex := by omega
        simp only [if_pos hfail, if_pos (Or.inr hover)]
        refine .inr (.inl ⟨(text, calls), rfl, fun hall => ?_⟩)
        obtain ⟨q, hq, hle⟩ := hall (some p) (List.mem_singleton.mpr rfl)
        cases hq
        omega
      · have hvalid : ValidDirective args.length (some p) := ⟨p, rfl, by omega⟩
        obtain ⟨n, o, hround⟩ := formatRound_calls formatValue hover text calls
        simp only [if_neg (fun h : 0 < p.fmtSpec.argIndex ∧ _ => hover h.2), hround]
        by_cases hend : p.fmtSpec.argIndex < 0
        · simp only [if_pos hend, if_pos (Or.inl hend)]
          refine .inr (.inr ⟨count + n, o, by simp, fun d hd => ?_⟩)
          rw [List.mem_singleton.mp hd]
          exact hvalid
        · simp only [if_neg hend, if_neg (not_or.mpr ⟨hend, hover⟩)]
          have hlen := hshort.resolve_left hend
          simp only [List.forall_mem_cons, hvalid, true_and, List.map_cons, List.sum_cons,
            Option.elim_some]
          rw [← Nat.add_assoc]
          exact ih (round + 1) p.fmtSpec p.format (count + n) o (calls + p.calls) (by omega)

/-- **What `doFormat` makes of a format**: only a valid one gives a number, and then it has made
    the calls that its directives ask for. -/
theorem doFormat_directives (formatValue : Arg → Flags → List CharT → CText)
    (env : Nat → EnvKind → ScratchText) (args : List Arg) (format text : List CharT)
    (calls : Nat) :
    (doFormat (counted stringRenderer) formatValue env args format (text, calls) = none ∧
        ¬ Valid env args.length format) ∨
      (∃ o, doFormat (counted stringRenderer) formatValue env args format (text, calls) =
          some (none, o) ∧ ¬ Valid env args.length format) ∨
      ∃ n o, doFormat (counted stringRenderer) formatValue env args format (text, calls) =
          some (some n, o, calls + renderCalls env args.length format) ∧
        Valid env args.length format :=
  doFormatLoop_directives formatValue env args _ 0 ⟨0, .zero⟩ format 0 text calls
    (Nat.lt_succ_self _)

end Directives

end IMonPlatform.Format

namespace IMonPlatform.Logger

open Format

variable {Arg : Type}

/-! ## `Log` -/

/-- A buffer of a context with its size. -/
structure LogData where
  textBuffer : Option (List CharT)
  bufferSize : Nat

/-- `LOG_CONTEXT` with the sizes of its buffers. -/
structure RecordContext extends LogContext where
  logDataSizeA : Nat
  logDataSizeW : Nat

namespace RecordContext

/-- `tagLogContext()`. -/
def create : RecordContext := ⟨AsyncLog.newContext, 0, 0⟩

/-- The buffer for one of the two character types. -/
def data (lc : RecordContext) : Bool → LogData
  | false => ⟨lc.logDataA, lc.logDataSizeA⟩
  | true => ⟨lc.logDataW, lc.logDataSizeW⟩

def setData (lc : RecordContext) : Bool → LogData → RecordContext
  | false, d => { lc with logDataA := d.textBuffer, logDataSizeA := d.bufferSize }
  | true, d => { lc with logDataW := d.textBuffer, logDataSizeW := d.bufferSize }

end RecordContext

/-- A call of `Log`: its configuration's prefix, the format, and the arguments with the logger's
    own values behind them.  The environment gives the texts of `%0{..}` in each round. -/
structure LogRequest (Arg : Type) extends LogCall where
  prefixLog : List CharT
  prefixEnv : Nat → EnvKind → ScratchText
  format : CText
  formatEnv : Nat → EnvKind → ScratchText
  args : List Arg

/-- `memset` of a buffer that is there. -/
def LogData.clear (d : LogData) : Option LogData :=
  match d.textBuffer with
  | none => some d
  | some cells =>
    if 0 < d.bufferSize then
      (writeAt cells 0 (List.replicate d.bufferSize 0)).map fun cells => ⟨some cells, d.bufferSize⟩
    else some d

def retrieveLOGContext (call : LogCall) (lc : RecordContext) : Option RecordContext := do
  let dataA ← (lc.data false).clear
  let dataW ← (lc.data true).clear
  let lc := (lc.setData false dataA).setData true dataW
  some { lc with
    isUnicodeData := call.isUnicodeData
    loggerConfiguration := some call.loggerConfiguration }

/-- A pass of the formatter; an error is `(size_t)-1`. -/
def formatInternalLogger (formatValue : Arg → Flags → List CharT → CText)
    (env : Nat → EnvKind → ScratchText) (args : List Arg) (format : List CharT) (d : LogData)
    (remainSize : Nat) : Option (Int × LogData) := do
  let r ← doFormat bufferRenderer formatValue env args format
    ⟨d.textBuffer, d.bufferSize, remainSize⟩
  some (r.1.elim (-1) Int.ofNat, ⟨r.2.textBuffer, r.2.bufferSize⟩)

def appendNewLineToLOGDATA (d : LogData) (dataSize : Int) : Option (Int × LogData) := do
  let cells ← d.textBuffer
  let cells ← writeAt cells dataSize ['\r'.toNat]
  let cells ← writeAt cells (dataSize + 1) ['\n'.toNat]
  some (dataSize + 2, ⟨some cells, d.bufferSize⟩)

/-- The first pass of `Log`. -/
def renderPrefix (formatValue : Arg → Flags → List CharT → CText) (r : LogRequest Arg)
    (d : LogData) : Option (Int × LogData) :=
  if r.prefixLog = [] then some (0, d)
  else formatInternalLogger formatValue r.prefixEnv r.args (cstr r.prefixLog) d d.bufferSize

/-- The body of `Log` on the buffer of its character type. -/
def renderRecord (formatValue : Arg → Flags → List CharT → CText) (r : LogRequest Arg)
    (d : LogData) : Option (Int × LogData) := do
  let p ← renderPrefix formatValue r d
  let m ← formatInternalLogger formatValue r.formatEnv r.args r.format.chars p.2
    (p.2.bufferSize - p.1).toNat
  appendNewLineToLOGDATA m.2 (p.1 + m.1)

def Log (formatValue : Arg → Flags → List CharT → CText) (r : LogRequest Arg)
    (lc : RecordContext) : Option (Int × RecordContext) := do
  let lc ← retrieveLOGContext r.toLogCall lc
  let lc := { lc with logLevel := r.currentLogLevel }
  let record ← renderRecord formatValue r (lc.data r.isUnicodeData)
  some (record.1, lc.setData r.isUnicodeData record.2)

/-- A context as earlier calls have left it. -/
inductive Left (formatValue : Arg → Flags → List CharT → CText) : RecordContext → Prop where
  | create : Left formatValue .create
  | log {lc lc' : RecordContext} {r : LogRequest Arg} {lRet : Int} (h : Left formatValue lc)
      (hlog : Log formatValue r lc = some (lRet, lc')) : Left formatValue lc'

/-- The text that a format stands for, up to its first invalid directive. -/
def renderedText (formatValue : Arg → Flags → List CharT → CText)
    (env : Nat → EnvKind → ScratchText) (args : List Arg) (format : List CharT) :
    Option (List CharT) :=
  (doFormat stringRenderer formatValue env args format []).map Prod.snd

/-- The call stays within the buffer: it leaves the prefix, the message, CR LF and a NUL in it. -/
def RecordInBounds (formatValue : Arg → Flags → List CharT → CText) (r : LogRequest Arg)
    (lc : RecordContext) : Prop :=
  ∃ prefixText text lRet lc' rest,
    renderedText formatValue r.prefixEnv r.args (cstr r.prefixLog) = some prefixText ∧
    renderedText formatValue r.formatEnv r.args r.format.chars = some text ∧
    Log formatValue r lc = some (lRet, lc') ∧
    (lc'.data r.isUnicodeData).textBuffer =
      some (prefixText ++ text ++ ['\r'.toNat, '\n'.toNat, 0] ++ rest)

/-- Both formats are valid, and there is a buffer or a text to render. -/
structure RecordSound (r : LogRequest Arg) (lc : RecordContext) : Prop where
  prefixValid : Valid r.prefixEnv r.args.length (cstr r.prefixLog)
  formatValid : Valid r.formatEnv r.args.length r.format.chars
  buffer : (lc.data r.isUnicodeData).textBuffer ≠ none ∨
    0 < renderCalls r.prefixEnv r.args.length (cstr r.prefixLog) +
      renderCalls r.formatEnv r.args.length r.format.chars

/-! ## A render call -/

/-- What growing does to the two sizes. -/
theorem getBuffer_sizes {b b' : BufferRenderer} {required : Nat}
    (h : getBuffer b required = some b') :
    ∃ grown, b'.bufferSize = b.bufferSize + grown ∧
      b'.remainBufferSize = b.remainBufferSize + grown ∧ DEFAULT_BUFFER_SIZE ∣ grown := by
  unfold getBuffer at h
  split at h
  · cases h
    exact ⟨0, rfl, rfl, Nat.dvd_zero _⟩
  split at h
  · cases h
  obtain ⟨grown, hsizes, _, _, hblocks⟩ := growSizes_spec required b.bufferSize b.remainBufferSize
  simp only [hsizes] at h
  split at h <;> cases h
  exact ⟨grown, rfl, rfl, hblocks⟩

/-- What a call does, from any renderer. -/
theorem render_inv {b b' : BufferRenderer} {rsh : List CharT} {rshLength : Int} {n : Nat}
    (h : bufferRenderer.render b rsh rshLength = some (n, b')) :
    ∃ grown cells cells', DEFAULT_BUFFER_SIZE ∣ grown ∧
      writeAt cells ((b.bufferSize : Int) - b.remainBufferSize) (rendered rsh rshLength) =
        some cells' ∧
      b' = ⟨some cells', b.bufferSize + grown,
        b.remainBufferSize + grown - (rendered rsh rshLength).length⟩ ∧
      n = (((b.bufferSize + grown : Nat) : Int) -
        (b.remainBufferSize + grown - (rendered rsh rshLength).length : Nat) -
          ((b.bufferSize : Int) - b.remainBufferSize)).toNat := by
  simp only [bufferRenderer, Option.bind_eq_bind, Option.bind_eq_some_iff] at h
  obtain ⟨b₁, hget, cells, hcells, cells', hwrite, h⟩ := h
  obtain ⟨grown, hsize, hremain, hblocks⟩ := getBuffer_sizes hget
  have hoffset : (b₁.bufferSize : Int) - b₁.remainBufferSize =
      (b.bufferSize : Int) - b.remainBufferSize := by
    rw [hsize, hremain]
    omega
  rw [hoffset] at hwrite
  rw [hsize, hremain] at h
  cases h
  exact ⟨grown, cells, cells', hblocks, hwrite, rfl, rfl⟩

/-- The string and the buffer over both passes of a record, from a buffer that was there or not. -/
structure Along (allocated : Prop) (string : List CharT × Nat) (buffer : BufferRenderer × Nat) :
    Prop extends Format.Agree string buffer where
  blocks : DEFAULT_BUFFER_SIZE ∣ buffer.1.bufferSize
  silent : string.2 = 0 → string.1 = []
  allocation : buffer.1.textBuffer ≠ none ↔ allocated ∨ 0 < string.2

theorem along_simulates (allocated : Prop) :
    Format.Simulates (counted stringRenderer) (counted bufferRenderer) (Along allocated) := by
  rintro ⟨text, calls⟩ ⟨b, calls'⟩ rsh rshLength h hrsh
  obtain ⟨n, o, o', hstring, hbuffer, hagree⟩ :=
    buffer_simulates (text, calls) (b, calls') rsh rshLength h.toAgree hrsh
  have hcalls : 0 < o.2 := by
    simp only [counted, Option.bind_eq_bind, Option.bind_eq_some_iff] at hstring
    obtain ⟨_, _, heq⟩ := hstring
    cases heq
    exact Nat.succ_pos calls
  simp only [counted, Option.bind_eq_bind, Option.bind_eq_some_iff] at hbuffer
  obtain ⟨⟨m, b'⟩, hrender, heq⟩ := hbuffer
  obtain ⟨grown, cells, cells', hblocks, _, rfl, _⟩ := render_inv hrender
  cases heq
  refine ⟨_, o, _, hstring, ?_, hagree, Nat.dvd_add h.blocks hblocks, fun hzero => ?_, ?_⟩
  · simp only [counted, hrender, Option.bind_eq_bind, Option.bind_some]
  · omega
  · exact iff_of_true (Option.some_ne_none cells') (.inr hcalls)

/-- Without room for its first character a renderer writes nothing. -/
theorem bufferRenderer_ahead :
    Keeps bufferRenderer fun b count => b.remainBufferSize = b.bufferSize + 1 ∧ count = 0 := by
  rintro b count rsh rshLength n b' ⟨hremain, rfl⟩ h
  obtain ⟨grown, cells, cells', _, hwrite, rfl, rfl⟩ := render_inv h
  have hnil : rendered rsh rshLength = [] := by
    unfold writeAt at hwrite
    split at hwrite
    · rename_i hroom
      refine hroom.resolve_right (fun hpos => ?_)
      omega
    · cases hwrite
  rw [hnil, hremain, List.length_nil]
  refine ⟨?_, ?_⟩
  · show b.bufferSize + 1 + grown - 0 = b.bufferSize + grown + 1
    omega
  · omega

/-! ## A pass -/

section Pass

variable (formatValue : Arg → Flags → List CharT → CText) (env : Nat → EnvKind → ScratchText)
  (args : List Arg) {allocated : Prop}

/-- What the string holds before a pass stays in front. -/
theorem string_simulates (before : List CharT) :
    Format.Simulates (counted stringRenderer) stringRenderer
      fun string string' => string.1 = before ++ string' := by
  rintro ⟨text, calls⟩ text' rsh rshLength (rfl : text = before ++ text') _
  refine ⟨(rendered rsh rshLength).length, (before ++ text' ++ rendered rsh rshLength, calls + 1),
    text' ++ rendered rsh rshLength, ?_, stringRenderer_render _ _ _, List.append_assoc _ _ _⟩
  simp [counted, stringRenderer_render]

/-- A pass appends the text of its format, and counts it. -/
theorem string_appends {format text string : List CharT} {calls calls' : Nat}
    {result : Option Nat} (hnul : 0 ∉ format)
    (h : doFormat (counted stringRenderer) formatValue env args format (text, calls) =
      some (result, string, calls')) :
    ∃ text', renderedText formatValue env args format = some text' ∧ string = text ++ text' ∧
      (result = none ∨ result = some text'.length) := by
  have hsim := @doFormat_simulates Arg _ _ _ _ _ formatValue env args (string_simulates text)
    format (text, calls) [] (List.append_nil text).symm hnul
  rw [h] at hsim
  rcases hsim with ⟨hnone, _⟩ | ⟨result', ⟨_, _⟩, text', heq, hstring, hsplit⟩
  · cases hnone
  · cases heq
    obtain ⟨n, hlen, hresult⟩ := doFormat_keeps (stringRenderer_keeps 0) rfl hstring
    rw [Nat.zero_add] at hlen
    refine ⟨text', by rw [renderedText, hstring]; rfl, hsplit, ?_⟩
    rw [hlen]
    exact hresult

/-- Where a pass has left the buffer. -/
structure Passed (allocated : Prop) (format text : List CharT) (b : BufferRenderer)
    (text' : List CharT) (calls : Nat) : Prop where
  string : renderedText formatValue env args format = some text'
  along : Along allocated (text ++ text', calls) (b, calls)

/-- **A pass over a buffer** that holds a text. -/
theorem doFormat_along {text : List CharT} {b : BufferRenderer} {calls : Nat}
    (h : Along allocated (text, calls) (b, calls)) {format : List CharT} (hnul : 0 ∉ format) :
    (doFormat bufferRenderer formatValue env args format b = none ∧
        ¬ Valid env args.length format) ∨
      (∃ b' text' calls', doFormat bufferRenderer formatValue env args format b =
          some (none, b') ∧ ¬ Valid env args.length format ∧
        Passed formatValue env args allocated format text b' text' calls') ∨
      ∃ b' text', doFormat bufferRenderer formatValue env args format b =
          some (some text'.length, b') ∧ Valid env args.length format ∧
        Passed formatValue env args allocated format text b' text'
          (calls + renderCalls env args.length format) := by
  have hsim := @doFormat_simulates Arg _ _ _ _ _ formatValue env args
    (along_simulates allocated) format (text, calls) (b, calls) h hnul
  rw [← doFormat_counted bufferRenderer formatValue env args format b calls]
  rcases doFormat_directives formatValue env args format text calls with
    ⟨hstring, hinvalid⟩ | ⟨⟨string, calls'⟩, hstring, hinvalid⟩ | ⟨n, string, hstring, hvalid⟩
  · rw [hstring] at hsim
    rcases hsim with ⟨_, hbuffer, _⟩ | ⟨_, _, _, heq, _⟩
    · exact .inl ⟨by rw [hbuffer]; rfl, hinvalid⟩
    · cases heq
  · obtain ⟨text', htext, rfl, _⟩ := string_appends formatValue env args hnul hstring
    rw [hstring] at hsim
    rcases hsim with ⟨heq, _⟩ | ⟨_, _, ⟨b', calls₁⟩, heq, hbuffer, halong⟩
    · cases heq
    · cases heq
      obtain rfl : calls₁ = calls' := halong.calls
      exact .inr (.inl ⟨b', text', calls₁, by rw [hbuffer]; rfl, hinvalid, htext, halong⟩)
  · obtain ⟨text', htext, rfl, hcount⟩ := string_appends formatValue env args hnul hstring
    obtain rfl : n = text'.length := by simpa using hcount
    rw [hstring] at hsim
    rcases hsim with ⟨heq, _⟩ | ⟨_, _, ⟨b', calls₁⟩, heq, hbuffer, halong⟩
    · cases heq
    · cases heq
      obtain rfl : calls₁ = calls + renderCalls env args.length format := halong.calls
      exact .inr (.inr ⟨b', text', by rw [hbuffer]; rfl, hvalid, htext, halong⟩)

end Pass

/-! ## The line end -/

theorem writeAt_length {cells cells' text : List CharT} {pos : Int}
    (h : writeAt cells pos text = some cells') : cells'.length = cells.length := by
  unfold writeAt at h
  split at h
  · rename_i hroom
    cases h
    rcases hroom with rfl | hroom
    · rw [List.append_nil, List.length_nil, Nat.add_zero, List.take_append_drop]
    · simp only [List.length_append, List.length_take, List.length_drop]
      omega
  · cases h

/-- One cell is stored. -/
theorem writeAt_cell {cells cells' : List CharT} {pos : Int} {c : CharT}
    (h : writeAt cells pos [c] = some cells') :
    0 ≤ pos ∧ cells' = cells.set pos.toNat c := by
  unfold writeAt at h
  split at h
  · rename_i hroom
    cases h
    have hpos := hroom.resolve_left (List.cons_ne_nil c [])
    rw [List.length_singleton] at hpos
    refine ⟨hpos.1, ?_⟩
    rw [List.set_eq_take_append_cons_drop, if_pos (by omega), List.append_assoc,
      List.length_singleton]
    rfl
  · cases h

/-- Behind the text there is room for CR LF and a NUL. -/
theorem Along.room {allocated : Prop} {text : List CharT} {b : BufferRenderer} {calls : Nat}
    (h : Along allocated (text, calls) (b, calls)) (hbuffer : b.textBuffer ≠ none) :
    Fits b text ∧ 3 ≤ b.remainBufferSize := by
  rcases Nat.eq_zero_or_pos calls with rfl | hcalls
  · -- the buffer is still clear, and not shorter than a block
    rcases h.ready with ⟨rfl, _⟩ | ⟨hfits, hfree⟩
    · exact absurd rfl hbuffer
    · refine ⟨hfits, ?_⟩
      have hsize : b.bufferSize = text.length + b.remainBufferSize := hfits.size
      have hblocks : DEFAULT_BUFFER_SIZE ∣ b.bufferSize := h.blocks
      rw [show text = [] from h.silent rfl, List.length_nil, Nat.zero_add] at hsize
      rw [hsize] at hblocks
      exact Nat.le_trans (by decide) (Nat.le_of_dvd hfree hblocks)
  · exact h.held hcalls

/-- **The line end behind the text.** -/
theorem appendNewLine_end {allocated : Prop} {text : List CharT} {b : BufferRenderer}
    {calls : Nat} (h : Along allocated (text, calls) (b, calls)) (hbuffer : b.textBuffer ≠ none) :
    ∃ rest, appendNewLineToLOGDATA ⟨b.textBuffer, b.bufferSize⟩ text.length =
      some ((text.length : Int) + 2,
        ⟨some (text ++ ['\r'.toNat, '\n'.toNat, 0] ++ rest), b.bufferSize⟩) := by
  obtain ⟨hfits, hroom⟩ := h.room hbuffer
  obtain ⟨free, hfree⟩ := Nat.exists_eq_add_of_le' hroom
  have hcr : writeAt (text ++ List.replicate (free + 3) 0) text.length ['\r'.toNat] =
      some (text ++ ['\r'.toNat] ++ List.replicate (free + 2) 0) :=
    writeAt_free text ['\r'.toNat] (Nat.le_add_left 1 (free + 2))
  have hlf : writeAt (text ++ ['\r'.toNat] ++ List.replicate (free + 2) 0) (text.length + 1)
      ['\n'.toNat] =
        some (text ++ ['\r'.toNat] ++ ['\n'.toNat] ++ List.replicate (free + 1) 0) := by
    have hpos : ((text ++ ['\r'.toNat]).length : Int) = text.length + 1 := by simp
    rw [← hpos]
    exact writeAt_free (text ++ ['\r'.toNat]) ['\n'.toNat] (Nat.le_add_left 1 (free + 1))
  refine ⟨List.replicate free 0, ?_⟩
  unfold appendNewLineToLOGDATA
  simp only [hfits.cells, hfree, hcr, hlf, Option.bind_eq_bind, Option.bind_some]
  simp [List.replicate_succ]

/-- What a stored line end leaves. -/
theorem appendNewLine_stores {textBuffer : Option (List CharT)} {bufferSize : Nat} {d : LogData}
    {dataSize lRet : Int}
    (h : appendNewLineToLOGDATA ⟨textBuffer, bufferSize⟩ dataSize = some (lRet, d)) :
    ∃ cells cells₁ cells₂, textBuffer = some cells ∧
      writeAt cells dataSize ['\r'.toNat] = some cells₁ ∧
      writeAt cells₁ (dataSize + 1) ['\n'.toNat] = some cells₂ ∧
      lRet = dataSize + 2 ∧ d = ⟨some cells₂, bufferSize⟩ := by
  unfold appendNewLineToLOGDATA at h
  simp only [Option.bind_eq_bind, Option.bind_eq_some_iff] at h
  obtain ⟨cells, hcells, cells₁, hcr, cells₂, hlf, heq⟩ := h
  cases heq
  exact ⟨cells, cells₁, cells₂, hcells, hcr, hlf, rfl, rfl⟩

/-- Without the number of the message the line end goes into the prefix. -/
theorem appendNewLine_inside {allocated : Prop} {prefixText text rest : List CharT}
    {b : BufferRenderer} {calls : Nat} {lRet : Int} {d : LogData}
    (h : Along allocated (prefixText ++ text, calls) (b, calls))
    (happend : appendNewLineToLOGDATA ⟨b.textBuffer, b.bufferSize⟩ (prefixText.length + -1) =
      some (lRet, d)) :
    d.textBuffer ≠ some (prefixText ++ text ++ ['\r'.toNat, '\n'.toNat, 0] ++ rest) := by
  obtain ⟨cells, cells₁, cells₂, hcells, hcr, hlf, -, rfl⟩ := appendNewLine_stores happend
  obtain ⟨hpos, rfl⟩ := writeAt_cell hcr
  obtain ⟨_, rfl⟩ := writeAt_cell hlf
  obtain ⟨hfits, hfree⟩ := h.room (by rw [hcells]; exact Option.some_ne_none _)
  obtain rfl : prefixText ++ text ++ List.replicate b.remainBufferSize 0 = cells :=
    Option.some.inj (hfits.cells.symm.trans hcells)
  intro hsame
  -- the cell behind the message holds LF or is still clear
  have hcell := congrArg (·[(prefixText ++ text).length]?) (Option.some.inj hsame)
  have hright : (prefixText ++ text ++ ['\r'.toNat, '\n'.toNat, 0] ++ rest)[
      (prefixText ++ text).length]? = some '\r'.toNat := by
    rw [List.append_assoc, List.getElem?_append_right (Nat.le_refl _), Nat.sub_self]
    rfl
  have hclear : (prefixText ++ text ++ List.replicate b.remainBufferSize 0)[
      (prefixText ++ text).length]? = some 0 := by
    rw [List.getElem?_append_right (Nat.le_refl _), Nat.sub_self, List.getElem?_replicate,
      if_pos (by omega)]
  have hne : ((prefixText.length : Int) + -1).toNat ≠ (prefixText ++ text).length := by
    rw [List.length_append]
    omega
  simp only [hright, List.getElem?_set, List.length_set] at hcell
  rw [if_neg hne, hclear] at hcell
  split at hcell
  · split at hcell <;> exact absurd hcell (by decide)
  · exact absurd hcell (by decide)

/-! ## The record -/

section Record

variable {formatValue : Arg → Flags → List CharT → CText} {r : LogRequest Arg} {d : LogData}

/-- The renderer of the first pass. -/
def LogData.renderer (d : LogData) : BufferRenderer := ⟨d.textBuffer, d.bufferSize, d.bufferSize⟩

/-- An empty prefix gives the same as no pass. -/
theorem renderPrefix_eq (formatValue : Arg → Flags → List CharT → CText) (r : LogRequest Arg)
    (d : LogData) :
    renderPrefix formatValue r d =
      formatInternalLogger formatValue r.prefixEnv r.args (cstr r.prefixLog) d d.bufferSize := by
  unfold renderPrefix
  split
  · rename_i hempty
    rw [hempty]
    rfl
  · rfl

/-- After an error in the prefix every access is in front of the buffer. -/
theorem renderRecord_prefix_error {b : BufferRenderer}
    (h : doFormat bufferRenderer formatValue r.prefixEnv r.args (cstr r.prefixLog) d.renderer =
      some (none, b)) : renderRecord formatValue r d = none := by
  have hpass : renderPrefix formatValue r d = some (-1, ⟨b.textBuffer, b.bufferSize⟩) := by
    rw [renderPrefix_eq, formatInternalLogger, ← LogData.renderer, h]
    rfl
  have hremain : ((b.bufferSize : Int) - -1).toNat = b.bufferSize + 1 := by omega
  simp only [renderRecord, hpass, formatInternalLogger, hremain, Option.bind_eq_bind,
    Option.bind_some]
  cases hmsg : doFormat bufferRenderer formatValue r.formatEnv r.args r.format.chars
      ⟨b.textBuffer, b.bufferSize, b.bufferSize + 1⟩ with
  | none => rfl
  | some m =>
    obtain ⟨result, b'⟩ := m
    obtain ⟨n, ⟨_, rfl⟩, hresult⟩ := doFormat_keeps bufferRenderer_ahead ⟨rfl, rfl⟩ hmsg
    have hneg : -1 + result.elim (-1) Int.ofNat < 0 := by
      rcases hresult with rfl | rfl <;> decide
    simp only [Option.bind_some, appendNewLineToLOGDATA, Option.bind_eq_bind]
    rw [Option.bind_eq_none_iff]
    intro cells _
    cases hcr : writeAt cells (-1 + result.elim (-1) Int.ofNat) ['\r'.toNat] with
    | none => rfl
    | some cells' => exact absurd (writeAt_cell hcr).1 (Int.not_le.mpr hneg)

/-- The room left behind a text. -/
theorem Along.remain {allocated : Prop} {text : List CharT} {b : BufferRenderer} {calls : Nat}
    (h : Along allocated (text, calls) (b, calls)) :
    (⟨b.textBuffer, b.bufferSize, ((b.bufferSize : Int) - text.length).toNat⟩ : BufferRenderer) =
      b := by
  have hremain : ((b.bufferSize : Int) - text.length).toNat = b.remainBufferSize := by
    rcases h.ready with ⟨rfl, hnil⟩ | ⟨hfits, _⟩
    · simp
    · have hsize : b.bufferSize = text.length + b.remainBufferSize := hfits.size
      omega
  rw [hremain]

/-- After a valid prefix the second pass goes on where the first has stopped. -/
theorem renderRecord_message {allocated : Prop} (hd : Along allocated ([], 0) (d.renderer, 0))
    (hvalid : Valid r.prefixEnv r.args.length (cstr r.prefixLog)) :
    ∃ b prefixText,
      Passed formatValue r.prefixEnv r.args allocated (cstr r.prefixLog) [] b prefixText
        (renderCalls r.prefixEnv r.args.length (cstr r.prefixLog)) ∧
      renderRecord formatValue r d =
        (doFormat bufferRenderer formatValue r.formatEnv r.args r.format.chars b).bind fun m =>
          appendNewLineToLOGDATA ⟨m.2.textBuffer, m.2.bufferSize⟩
            (prefixText.length + m.1.elim (-1) Int.ofNat) := by
  rcases doFormat_along formatValue r.prefixEnv r.args hd (cstr_nulFree r.prefixLog) with
    ⟨_, hinvalid⟩ | ⟨_, _, _, _, hinvalid, _⟩ | ⟨b, prefixText, hrun, _, hpassed⟩
  · exact absurd hvalid hinvalid
  · exact absurd hvalid hinvalid
  · rw [Nat.zero_add] at hpassed
    refine ⟨b, prefixText, hpassed, ?_⟩
    have hpass : renderPrefix formatValue r d =
        some ((prefixText.length : Int), ⟨b.textBuffer, b.bufferSize⟩) := by
      rw [renderPrefix_eq, formatInternalLogger, ← LogData.renderer, hrun]
      rfl
    have halong := hpassed.along
    rw [List.nil_append] at halong
    simp only [renderRecord, hpass, formatInternalLogger, halong.remain, Option.bind_eq_bind,
      Option.bind_some]
    cases doFormat bufferRenderer formatValue r.formatEnv r.args r.format.chars b <;> rfl

/-- A record whose formats are rendered; its line end goes to `dataSize`. -/
structure Rendered (formatValue : Arg → Flags → List CharT → CText) (r : LogRequest Arg)
    (d : LogData) (allocated : Prop) (prefixText text : List CharT) (b : BufferRenderer)
    (calls : Nat) (dataSize : Int) : Prop where
  prefixString : renderedText formatValue r.prefixEnv r.args (cstr r.prefixLog) = some prefixText
  string : renderedText formatValue r.formatEnv r.args r.format.chars = some text
  along : Along allocated (prefixText ++ text, calls) (b, calls)
  append : renderRecord formatValue r d =
    appendNewLineToLOGDATA ⟨b.textBuffer, b.bufferSize⟩ dataSize

/-- **What becomes of a record**: an access outside, a line end in front of the end of the prefix,
    or one behind the text. -/
theorem renderRecord_cases {allocated : Prop} (hd : Along allocated ([], 0) (d.renderer, 0)) :
    (renderRecord formatValue r d = none ∧
        ¬ (Valid r.prefixEnv r.args.length (cstr r.prefixLog) ∧
          Valid r.formatEnv r.args.length r.format.chars)) ∨
      (¬ Valid r.formatEnv r.args.length r.format.chars ∧
        ∃ prefixText text b calls, Rendered formatValue r d allocated prefixText text b calls
          (prefixText.length + -1)) ∨
      (Valid r.prefixEnv r.args.length (cstr r.prefixLog) ∧
        Valid r.formatEnv r.args.length r.format.chars ∧
        ∃ prefixText text b, Rendered formatValue r d allocated prefixText text b
          (renderCalls r.prefixEnv r.args.length (cstr r.prefixLog) +
            renderCalls r.formatEnv r.args.length r.format.chars)
          (prefixText ++ text).length) := by
  rcases doFormat_along formatValue r.prefixEnv r.args hd (cstr_nulFree r.prefixLog) with
    ⟨hrun, hinvalid⟩ | ⟨b, _, _, hrun, hinvalid, _⟩ | ⟨_, _, _, hvalid, _⟩
  · refine .inl ⟨?_, fun h => hinvalid h.1⟩
    rw [renderRecord, renderPrefix_eq, formatInternalLogger, ← LogData.renderer, hrun]
    rfl
  · exact .inl ⟨renderRecord_prefix_error hrun, fun h => hinvalid h.1⟩
  obtain ⟨b, prefixText, ⟨hpre, halong⟩, hrecord⟩ :=
    @renderRecord_message Arg formatValue r d allocated hd hvalid
  rw [List.nil_append] at halong
  rcases doFormat_along formatValue r.formatEnv r.args halong r.format.nulFree with
    ⟨hrun, hinvalid⟩ | ⟨b', text, calls, hrun, hinvalid, hstring, halong'⟩ |
      ⟨b', text, hrun, hvalid', hstring, halong'⟩
  · exact .inl ⟨by rw [hrecord, hrun]; rfl, fun h => hinvalid h.2⟩
  · refine .inr (.inl ⟨hinvalid, prefixText, text, b', calls, hpre, hstring, halong', ?_⟩)
    rw [hrecord, hrun]
    rfl
  · refine .inr (.inr ⟨hvalid, hvalid', prefixText, text, b', hpre, hstring, halong', ?_⟩)
    rw [hrecord, hrun, List.length_append, Int.natCast_add]
    rfl

end Record

/-! ## Contexts -/

/-- No buffer, or one of whole blocks with its true size. -/
inductive LogData.Shaped : LogData → Prop where
  | null : Shaped ⟨none, 0⟩
  | cells {cells : List CharT} (blocks : DEFAULT_BUFFER_SIZE ∣ cells.length)
      (pos : 1 ≤ cells.length) : Shaped ⟨some cells, cells.length⟩

/-- `memset` stays within a buffer with a shape. -/
theorem clear_eq {d : LogData} (h : d.Shaped) :
    d.clear = some ⟨ContextStore.cleared d.textBuffer, d.bufferSize⟩ := by
  cases h with
  | null => rfl
  | @cells cells blocks pos =>
    have hwrite : writeAt cells 0 (List.replicate cells.length 0) =
        some (List.replicate cells.length 0) := by
      unfold writeAt
      rw [if_pos (.inr ⟨Int.le_refl 0, by simp⟩)]
      simp
    simp only [LogData.clear, hwrite, Option.map_some]
    exact if_pos pos

theorem cleared_shaped {d : LogData} (h : d.Shaped) :
    LogData.Shaped ⟨ContextStore.cleared d.textBuffer, d.bufferSize⟩ := by
  cases h with
  | null => exact .null
  | @cells cells blocks pos =>
    have hlen : (List.replicate cells.length (0 : CharT)).length = cells.length :=
      List.length_replicate
    have hshaped : LogData.Shaped ⟨some (List.replicate cells.length 0),
        (List.replicate cells.length (0 : CharT)).length⟩ :=
      .cells (by rw [hlen]; exact blocks) (by rw [hlen]; exact pos)
    rw [hlen] at hshaped
    exact hshaped

/-- A cleared buffer is ready for the first pass. -/
theorem cleared_along {d : LogData} (h : d.Shaped) :
    Along (d.textBuffer ≠ none) ([], 0)
      (LogData.renderer ⟨ContextStore.cleared d.textBuffer, d.bufferSize⟩, 0) := by
  cases h with
  | null =>
    refine ⟨agree_start .null, Nat.dvd_zero _, fun _ => rfl, ?_⟩
    simp [LogData.renderer, ContextStore.cleared]
  | @cells cells blocks pos =>
    refine ⟨agree_start (.cleared cells.length pos), blocks, fun _ => rfl, ?_⟩
    simp [LogData.renderer, ContextStore.cleared]

/-- Storing a line end keeps the shape. -/
theorem appendNewLine_shaped {allocated : Prop} {text : List CharT} {b : BufferRenderer}
    {calls : Nat} (h : Along allocated (text, calls) (b, calls)) {dataSize lRet : Int}
    {d : LogData} (happend : appendNewLineToLOGDATA ⟨b.textBuffer, b.bufferSize⟩ dataSize =
      some (lRet, d)) : d.Shaped := by
  obtain ⟨cells, cells₁, cells₂, hcells, hcr, hlf, -, rfl⟩ := appendNewLine_stores happend
  obtain ⟨hfits, hfree⟩ := h.room (by rw [hcells]; exact Option.some_ne_none _)
  have hlen : cells₂.length = b.bufferSize := by
    rw [writeAt_length hlf, writeAt_length hcr, hfits.size,
      Option.some.inj (hcells.symm.trans hfits.cells), List.length_append, List.length_replicate]
  have hpos : 1 ≤ cells₂.length := by
    rw [hlen, hfits.size]
    omega
  rw [← hlen]
  exact .cells (hlen ▸ h.blocks) hpos

section Context

variable {formatValue : Arg → Flags → List CharT → CText} {lc : RecordContext}

@[simp] theorem data_setData (lc : RecordContext) (u : Bool) (d : LogData) :
    (lc.setData u d).data u = d := by
  cases u <;> rfl

theorem data_setData_ne (lc : RecordContext) {u v : Bool} (h : v ≠ u) (d : LogData) :
    (lc.setData u d).data v = lc.data v := by
  cases u <;> cases v <;> first | rfl | exact absurd rfl h

/-- The context after the stores of an asynchronous call. -/
def RecordContext.stored (call : LogCall) (lc : RecordContext) : RecordContext :=
  ⟨ContextStore.all.foldl (ContextStore.apply call) lc.toLogContext, lc.logDataSizeA,
    lc.logDataSizeW⟩

theorem data_stored (call : LogCall) (lc : RecordContext) (u : Bool) :
    (lc.stored call).data u =
      ⟨ContextStore.cleared (lc.data u).textBuffer, (lc.data u).bufferSize⟩ := by
  cases u <;> rfl

/-- On buffers with a shape the call makes the stores of an asynchronous call. -/
theorem retrieve_stores (call : LogCall) (h : ∀ u, (lc.data u).Shaped) :
    (retrieveLOGContext call lc).map
        (fun lc => ({ lc with logLevel := call.currentLogLevel } : RecordContext)) =
      some (lc.stored call) := by
  simp only [retrieveLOGContext, clear_eq (h false), clear_eq (h true), Option.bind_eq_bind,
    Option.bind_some, Option.map_some]
  rfl

/-- A call on a context with a shape: the record goes to a cleared buffer. -/
theorem log_eq (formatValue : Arg → Flags → List CharT → CText) (r : LogRequest Arg)
    (h : ∀ u, (lc.data u).Shaped) :
    Log formatValue r lc =
      (renderRecord formatValue r ((lc.stored r.toLogCall).data r.isUnicodeData)).map
        fun record => (record.1, (lc.stored r.toLogCall).setData r.isUnicodeData record.2) := by
  obtain ⟨lc₁, hretrieve, hstores⟩ := Option.map_eq_some_iff.mp (retrieve_stores r.toLogCall h)
  rw [Log, hretrieve, ← hstores]
  simp only [Option.bind_eq_bind, Option.bind_some, Option.map_eq_bind]
  rfl

/-- **Every context keeps its shape.** -/
theorem left_shaped (h : Left formatValue lc) : ∀ u, (lc.data u).Shaped := by
  induction h with
  | create =>
    intro u
    cases u <;> exact .null
  | @log lc lc' r lRet _ hlog ih =>
    rw [log_eq formatValue r ih, Option.map_eq_some_iff] at hlog
    obtain ⟨record, hrecord, hsame⟩ := hlog
    cases hsame
    intro u
    by_cases hu : u = r.isUnicodeData
    · subst hu
      rw [data_setData]
      rw [data_stored] at hrecord
      rcases @renderRecord_cases Arg formatValue r _ _ (cleared_along (ih r.isUnicodeData)) with
        ⟨hnone, _⟩ | ⟨_, _, _, _, _, hend⟩ | ⟨_, _, _, _, _, hend⟩
      · rw [hnone] at hrecord
        cases hrecord
      · exact appendNewLine_shaped hend.along (hend.append ▸ hrecord)
      · exact appendNewLine_shaped hend.along (hend.append ▸ hrecord)
    · rw [data_setData_ne _ hu, data_stored]
      exact cleared_shaped (ih u)

/-- The stores of a thread, one after the other. -/
theorem run_stores {t o : Nat} {call : LogCall} (stores : List ContextStore) :
    ∀ a : AsyncLog, a.threads t = .filling o call stores →
      ∃ a', Transition.run AsyncLog.step a (List.replicate stores.length (.store t)) = some a' ∧
        a'.threads t = .filling o call [] ∧
        a'.contexts o = stores.foldl (ContextStore.apply call) (a.contexts o) := by
  induction stores with
  | nil => exact fun a ht => ⟨a, rfl, ht, rfl⟩
  | cons store stores ih =>
    intro a ht
    let a₁ := (a.setContext o (store.apply call (a.contexts o))).setThread t
      (.filling o call stores)
    have hstep : a.step (.store t) = some a₁ := by
      simp only [AsyncLog.step, ht, a₁]
    obtain ⟨a', hrun, hthread, hcontext⟩ := ih a₁ (by simp [a₁, AsyncLog.setThread])
    refine ⟨a', Transition.run_cons.mpr ⟨a₁, hstep, hrun⟩, hthread, hcontext.trans ?_⟩
    simp [a₁, AsyncLog.setThread, AsyncLog.setContext]

/-- The record is in a buffer. -/
theorem renderRecord_buffer {r : LogRequest Arg} {d : LogData} {record : Int × LogData}
    (h : renderRecord formatValue r d = some record) :
    ∃ cells, record.2.textBuffer = some cells := by
  simp only [renderRecord, appendNewLineToLOGDATA, Option.bind_eq_bind,
    Option.bind_eq_some_iff] at h
  obtain ⟨_, _, _, _, _, _, _, _, cells, _, h⟩ := h
  cases h
  exact ⟨cells, rfl⟩

theorem setData_rendered (call : LogCall) (lc : RecordContext) {d : LogData}
    {cells : List CharT} (h : d.textBuffer = some cells) :
    (lc.setData call.isUnicodeData d).toLogContext =
      AsyncLog.rendered call cells lc.toLogContext := by
  unfold AsyncLog.rendered
  cases call.isUnicodeData with
  | false => simp [RecordContext.setData, h]
  | true => simp [RecordContext.setData, h]

/-- **A call is one of the asynchronous logger**: the stores and the rendering of its thread leave
    its context as the call does. -/
theorem log_refines {r : LogRequest Arg} {lc' : RecordContext} {lRet : Int}
    (h : Left formatValue lc) (hlog : Log formatValue r lc = some (lRet, lc')) {a : AsyncLog}
    {t o : Nat} (ht : a.threads t = .filling o r.toLogCall ContextStore.all)
    (hcontext : a.contexts o = lc.toLogContext) :
    ∃ cells a', Transition.run AsyncLog.step a (List.replicate ContextStore.all.length (.store t) ++
        [.render t cells]) = some a' ∧
      a'.threads t = .filling o r.toLogCall [] ∧ a'.contexts o = lc'.toLogContext := by
  rw [log_eq formatValue r (left_shaped h), Option.map_eq_some_iff] at hlog
  obtain ⟨record, hrecord, hsame⟩ := hlog
  cases hsame
  obtain ⟨cells, hcells⟩ := renderRecord_buffer hrecord
  obtain ⟨a₁, hrun, hthread, hstores⟩ := run_stores ContextStore.all a ht
  have hstep : a₁.step (.render t cells) =
      some (a₁.setContext o (AsyncLog.rendered r.toLogCall cells (a₁.contexts o))) := by
    simp only [AsyncLog.step, hthread]
  refine ⟨cells, _, Transition.run_snoc.mpr ⟨a₁, hrun, hstep⟩, hthread, ?_⟩
  rw [setData_rendered r.toLogCall _ hcells]
  show Function.update a₁.contexts o _ o = _
  rw [Function.update_self, hstores, hcontext]
  rfl

/-- **A record stays within its buffer** — its line end right behind its text, with a NUL of the
    buffer behind it — exactly if all directives of the prefix and of the format are valid and
    there is a buffer or a text to render; from every context that earlier calls have left. -/
theorem log_in_bounds_iff (h : Left formatValue lc) (r : LogRequest Arg) :
    RecordInBounds formatValue r lc ↔ RecordSound r lc := by
  have heq := log_eq formatValue r (left_shaped h)
  rw [data_stored] at heq
  have hstart := cleared_along (left_shaped h r.isUnicodeData)
  rcases @renderRecord_cases Arg formatValue r _ _ hstart with
    ⟨hnone, hinvalid⟩ | ⟨hinvalid, prefixText, text, b, calls, hend⟩ |
      ⟨hpre, hformat, prefixText, text, b, hend⟩
  · refine iff_of_false ?_ fun hsound => hinvalid ⟨hsound.prefixValid, hsound.formatValid⟩
    rintro ⟨_, _, _, _, _, _, _, hlog, _⟩
    rw [heq, hnone] at hlog
    cases hlog
  · refine iff_of_false ?_ fun hsound => hinvalid hsound.formatValid
    rintro ⟨prefixText', text', lRet, lc', rest, hpre', htext', hlog, hcells⟩
    rw [hend.prefixString] at hpre'
    rw [hend.string] at htext'
    cases hpre'
    cases htext'
    rw [heq, Option.map_eq_some_iff] at hlog
    obtain ⟨record, hrecord, hsame⟩ := hlog
    cases hsame
    rw [data_setData] at hcells
    exact appendNewLine_inside hend.along (hend.append ▸ hrecord) hcells
  · have hbuffer : b.textBuffer ≠ none ↔ (lc.data r.isUnicodeData).textBuffer ≠ none ∨
        0 < renderCalls r.prefixEnv r.args.length (cstr r.prefixLog) +
          renderCalls r.formatEnv r.args.length r.format.chars := hend.along.allocation
    constructor
    · rintro ⟨_, _, lRet, lc', rest, _, _, hlog, _⟩
      refine ⟨hpre, hformat, hbuffer.mp fun hnull => ?_⟩
      rw [heq, hend.append, hnull] at hlog
      cases hlog
    · intro hsound
      obtain ⟨rest, happend⟩ := appendNewLine_end hend.along (hbuffer.mpr hsound.buffer)
      rw [← hend.append] at happend
      rw [happend] at heq
      refine ⟨prefixText, text, _, _, rest, hend.prefixString, hend.string, heq, ?_⟩
      rw [data_setData]

/-- A call without a prefix whose only argument is the logger's own. -/
def plainRequest (format : CText) : LogRequest Unit where
  isUnicodeData := false
  loggerConfiguration := 0
  currentLogLevel := 0
  prefixLog := []
  prefixEnv := fun _ _ => ⟨⟨[], List.not_mem_nil⟩, by decide⟩
  format := format
  formatEnv := fun _ _ => ⟨⟨[], List.not_mem_nil⟩, by decide⟩
  args := [()]

/-- Arguments without a text. -/
def plainValue (_ : Unit) (_ : Flags) (_ : List CharT) : CText := ⟨[], List.not_mem_nil⟩

/-- The record `ok` on a new context. -/
theorem plain_record_in_bounds :
    RecordSound (plainRequest ⟨['o'.toNat, 'k'.toNat], by decide⟩) .create ∧
      RecordInBounds plainValue (plainRequest ⟨['o'.toNat, 'k'.toNat], by decide⟩) .create := by
  have hsound : RecordSound (plainRequest ⟨['o'.toNat, 'k'.toNat], by decide⟩) .create := by
    refine ⟨fun d hd => ?_, fun d hd => ?_, .inr (by decide)⟩
    · obtain rfl := List.mem_singleton.mp hd
      exact ⟨_, rfl, by decide⟩
    · obtain rfl := List.mem_singleton.mp hd
      exact ⟨_, rfl, by decide⟩
  exact ⟨hsound, (log_in_bounds_iff .create _).mpr hsound⟩

/-- On a new context the format `%9` and the empty format store a line end outside. -/
theorem line_end_outside :
    Left plainValue .create ∧
      ¬ RecordInBounds plainValue (plainRequest ⟨['%'.toNat, '9'.toNat], by decide⟩) .create ∧
      ¬ RecordInBounds plainValue (plainRequest ⟨[], by decide⟩) .create := by
  refine ⟨.create, ?_, ?_⟩
  · rintro ⟨_, _, _, _, _, _, _, hlog, _⟩
    cases hlog
  · rintro ⟨_, _, _, _, _, _, _, hlog, _⟩
    cases hlog

end Context

end IMonPlatform.Logger
