import IMonPlatform.Format.ScratchBuffer

/-!
# The two models of `fmtParse` and `doFormat` agree

`fmtParse` and `doFormat` on lists stop when a text is copied behind the scratch buffer; on memory
they go on and record the store.  As long as every text fits the two do the same.

* `parseSpecial_eq`, `parseSpec_eq`, `parseDirective_eq` — the parts of a call on lists, by the
  directive.
* `fmtParse_agrees` — a call on lists fails exactly if the text behind `DT:` does not fit, and
  otherwise leaves what the call on memory leaves.
* `doFormat_agrees` — so does `doFormat`, for the renderer that is given texts.
-/

set_option autoImplicit false

namespace IMonPlatform.Format

open CString

variable {Arg σ : Type}

/-! ## One call -/

section Call

variable {env : EnvKind → ScratchText} {argCount : Int} {fmtSpec : FormatSpec}
  {format : List CharT}

theorem storeFrom_overwrite (s : Scratch) {text : List CharT}
    (h : text.length ≤ DEFAULT_BUFFER_SIZE) :
    (s.clear.storeFrom 0 text).fmtBuffer =
      overwrite (List.replicate DEFAULT_BUFFER_SIZE 0) text := by
  rw [Scratch.storeFrom_fmtBuffer text s.clear 0 (by simpa [Scratch.clear] using h)]
  simp only [Buffer.overwrite, Scratch.clear, overwrite, List.take_zero, List.nil_append,
    Nat.zero_add]

/-- The NUL that `itoa` stores is one that stands there already. -/
theorem storeFrom_itoa (s : Scratch) (text : ScratchText) :
    (s.clear.storeFrom 0 (text.chars ++ [0])).fmtBuffer =
      overwrite (List.replicate DEFAULT_BUFFER_SIZE 0) text.chars := by
  have hfits := text.fits
  have hlen : (text.chars ++ [0]).length ≤ DEFAULT_BUFFER_SIZE := by
    rw [List.length_append]
    exact hfits
  obtain ⟨room, hroom⟩ := Nat.exists_eq_add_of_lt hfits
  rw [storeFrom_overwrite s hlen]
  simp only [overwrite, List.drop_replicate, List.length_append, List.length_singleton, hroom]
  rw [show text.chars.length + room + 1 - text.chars.length = room + 1 by omega,
    show text.chars.length + room + 1 - (text.chars.length + 1) = room by omega,
    List.replicate_succ, List.append_assoc, List.singleton_append]

/-- What is done for the first word of a table is a chain of comparisons. -/
theorem firstWord_chain {β γ : Type} (f : Option β → γ) (word : List Char) (b : β)
    (table : List (List CharT × β)) :
    f (firstWord format ((word.map Char.toNat, b) :: table)) =
      if startsWith format word then f (some b) else f (firstWord format table) := by
  have hchain : firstWord format ((word.map Char.toNat, b) :: table) =
      if startsWith format word then some b else firstWord format table := rfl
  rw [hchain]
  split <;> rfl

/-- What a special word leaves. -/
def specialLeft (env : EnvKind → ScratchText) (argCount : Int) (fmtSpec : FormatSpec) (s : Scratch)
    (word : Option SpecialWord) : FormatSpec × List CharT :=
  ((special env argCount fmtSpec s.clear word).1,
    (special env argCount fmtSpec s.clear word).2.fmtBuffer)

theorem parseSpecial_eq (env : EnvKind → ScratchText) (argCount : Int) (format : List CharT)
    (fmtSpec : FormatSpec) (s : Scratch) :
    parseSpecial env argCount format fmtSpec (List.replicate DEFAULT_BUFFER_SIZE 0) =
      specialLeft env argCount fmtSpec s (firstWord format specialWords) := by
  have hitoa : ∀ text : ScratchText,
      overwrite (List.replicate DEFAULT_BUFFER_SIZE 0) text.chars =
        (s.clear.storeFrom 0 (text.chars ++ [0])).fmtBuffer :=
    fun text => (storeFrom_itoa s text).symm
  unfold specialWords
  simp only [firstWord_chain (specialLeft env argCount fmtSpec s)]
  rw [parseSpecial, hitoa, hitoa]
  rfl

/-- A call that copies nothing leaves the buffer as it was. -/
theorem storeFrom_nothing (s : Scratch) :
    (s.clear.storeFrom 0 []).fmtBuffer = List.replicate DEFAULT_BUFFER_SIZE 0 := rfl

theorem skipSpec_drop {word : List Char} (hstart : startsWith format word = true)
    (hword : '\x7d'.toNat ∉ word.map Char.toNat) :
    skipSpec (format.drop word.length) = skipSpec format := by
  obtain ⟨rest, rfl⟩ := exists_of_startsWith hstart
  have hlen : word.length = (word.map Char.toNat).length := (List.length_map _).symm
  rw [skipSpec_append hword, hlen, List.drop_left]

/-- A word other than `DT` sets its flag. -/
theorem parseSpec_flag {word : Option SpecWord} (hword : firstWord format specWords = word)
    (hne : word ≠ some .DT) (fmtSpec : FormatSpec) (s : Scratch) (rest : List CharT) :
    some (setFlag fmtSpec word, List.replicate DEFAULT_BUFFER_SIZE 0, rest) =
      if (copied format).length ≤ DEFAULT_BUFFER_SIZE then
        some (setFlag fmtSpec (firstWord format specWords),
          (s.clear.storeFrom 0 (copied format)).fmtBuffer, rest)
      else none := by
  rw [hword, copied_nil (hword ▸ hne), storeFrom_nothing]
  rfl

theorem startsWith_DT_colon (hDT : startsWith format ['D', 'T'] = true) :
    startsWith format ['D', 'T', ':'] = startsWith (format.drop 2) [':'] := by
  obtain ⟨rest, rfl⟩ := exists_of_startsWith hDT
  rfl

/-- The general syntax on lists. -/
theorem parseSpec_eq (format : List CharT) (fmtSpec : FormatSpec) (s : Scratch) :
    ∃ rest, skipSpec rest = skipSpec format ∧
      parseSpec format fmtSpec (List.replicate DEFAULT_BUFFER_SIZE 0) =
        if (copied format).length ≤ DEFAULT_BUFFER_SIZE then
          some (setFlag fmtSpec (firstWord format specWords),
            (s.clear.storeFrom 0 (copied format)).fmtBuffer, rest)
        else none := by
  have hword : firstWord format specWords = if startsWith format ['U'] then some .U
      else if startsWith format ['+'] then some .plus
      else if startsWith format ['D', 'T'] then some .DT
      else if startsWith format ['E', 'R', 'R'] then some .ERR
      else if startsWith format ['H', 'E', 'R', 'R'] then some .HERR else none := rfl
  unfold parseSpec
  by_cases hU : startsWith format ['U'] = true
  · rw [if_pos hU] at hword ⊢
    exact ⟨format, rfl, parseSpec_flag hword nofun fmtSpec s format⟩
  rw [if_neg hU] at hword ⊢
  by_cases hplus : startsWith format ['+'] = true
  · rw [if_pos hplus] at hword ⊢
    exact ⟨format, rfl, parseSpec_flag hword nofun fmtSpec s format⟩
  rw [if_neg hplus] at hword ⊢
  by_cases hDT : startsWith format ['D', 'T'] = true
  · rw [if_pos hDT] at hword ⊢
    have hskip : skipSpec (format.drop 2) = skipSpec format := skipSpec_drop hDT (by decide)
    by_cases hcolon : startsWith (format.drop 2) [':'] = true
    · have hstart : startsWith format ['D', 'T', ':'] = true := by
        rw [startsWith_DT_colon hDT, hcolon]
      have hcopied : copied format = (copyText (format.drop 3)).1 := if_pos hstart
      refine ⟨(copyText (format.drop 3)).2, ?_, ?_⟩
      · exact (copyText_skip _).trans (skipSpec_drop hstart (by decide))
      · rw [if_pos hcolon, hcopied, hword, List.length_replicate]
        split
        · rename_i hlen
          rw [storeFrom_overwrite s hlen]
          rfl
        · rfl
    · have hcopied : copied format = [] := if_neg (by rw [startsWith_DT_colon hDT]; exact hcolon)
      refine ⟨format.drop 2, hskip, ?_⟩
      rw [if_neg hcolon, hcopied, hword, storeFrom_nothing]
      rfl
  rw [if_neg hDT] at hword ⊢
  by_cases hERR : startsWith format ['E', 'R', 'R'] = true
  · rw [if_pos hERR] at hword ⊢
    exact ⟨_, skipSpec_drop hERR (by decide), parseSpec_flag hword nofun fmtSpec s _⟩
  rw [if_neg hERR] at hword ⊢
  by_cases hHERR : startsWith format ['H', 'E', 'R', 'R'] = true
  · rw [if_pos hHERR] at hword ⊢
    exact ⟨_, skipSpec_drop hHERR (by decide), parseSpec_flag hword nofun fmtSpec s _⟩
  rw [if_neg hHERR] at hword ⊢
  exact ⟨format, rfl, parseSpec_flag hword nofun fmtSpec s format⟩

/-- The call behind a `%`, on lists. -/
theorem parseDirective_eq (env : EnvKind → ScratchText) (argCount : Int) (format : List CharT)
    (s : Scratch) :
    parseDirective env argCount ⟨0, .zero⟩ (List.replicate DEFAULT_BUFFER_SIZE 0)
        ('%'.toNat :: format) =
      if (directiveAt format).1.copied.length ≤ DEFAULT_BUFFER_SIZE then
        some (((directiveAt format).1.parse env argCount s.clear).1,
          ((directiveAt format).1.parse env argCount s.clear).2.fmtBuffer, (directiveAt format).2.1,
          (directiveAt format).2.2)
      else none := by
  simp only [parseDirective, directiveAt]
  by_cases hper : startsWith format ['%'] = true
  · simp only [if_pos hper]
    rfl
  simp only [if_neg hper]
  by_cases hdigit : isdigit (format.headD 0) = true
  · have hrest : format.dropWhile isdigit = (strtoul format).2 := rfl
    have hindex : argIndexOf (digitsValue (format.takeWhile isdigit)) =
        toLong (strtoul format).1 := by
      rw [argIndexOf, strtoul]
    simp only [if_pos hdigit, hrest]
    by_cases hopen : startsWith (strtoul format).2 ['\x7b'] = true
    · simp only [if_pos hopen, Directive.parse, Directive.copied, hindex]
      by_cases hzero : toLong (strtoul format).1 = 0
      · simp only [hzero, parseSpecial_eq env argCount _ _ s]
        rfl
      · obtain ⟨rest, hskip, hparse⟩ := parseSpec_eq ((strtoul format).2.drop 1)
          ⟨toLong (strtoul format).1, .zero⟩ s
        simp only [if_neg hzero, hparse]
        by_cases hlen : (copied ((strtoul format).2.drop 1)).length ≤ DEFAULT_BUFFER_SIZE
        · simp only [if_pos hlen, hskip]
        · simp only [if_neg hlen]
    · simp only [if_neg hopen, Directive.parse, Directive.copied, hindex]
      rfl
  · simp only [if_neg hdigit]
    rfl

/-- What a call on memory leaves is what a call on lists leaves. -/
structure Agrees (q : ParsedAt) (p : Parsed) : Prop where
  fmtSpec : q.fmtSpec = p.fmtSpec
  fmtBuffer : q.scratch.fmtBuffer = p.fmtBuffer
  prefixText : q.prefixText = cells p.prefixText
  prefixLength : q.prefixLength = p.prefixLength
  format : q.format = cells p.format

/-- **A call on lists** is the call on memory, as long as the text behind `DT:` fits. -/
theorem fmtParse_agrees (env : EnvKind → ScratchText) (argCount : Int) (fmtSpec : FormatSpec)
    (h : 0 ∉ format) (s : Scratch)
    (hfits : ∀ d rest, nextDirective format = some (d, rest) →
      d.copied.length ≤ DEFAULT_BUFFER_SIZE) :
    ∃ p q, fmtParse env argCount fmtSpec (List.replicate DEFAULT_BUFFER_SIZE 0) format = some p ∧
      fmtParseAt env argCount fmtSpec s.clear (cells format) = some q ∧ Agrees q p ∧
      p.prefixLength ≤ p.prefixText.length ∧
      (p.fmtSpec.argIndex < 0 ∨ ∃ d, nextDirective format = some (d, p.format)) := by
  have hsplit := List.takeWhile_append_dropWhile (p := (· != '%'.toNat)) (l := format)
  have hlength := congrArg List.length hsplit
  rw [List.length_append] at hlength
  rw [fmtParseAt_cells h]
  unfold fmtParse
  unfold nextDirective at hfits
  cases hd : format.dropWhile (· != '%'.toNat) with
  | nil =>
    rw [hd, List.length_nil, Nat.add_zero] at hlength
    refine ⟨_, _, rfl, rfl, ⟨rfl, rfl, rfl, hlength.symm, rfl⟩, Nat.le_of_eq hlength, .inl ?_⟩
    show (-1 : Int) < 0
    decide
  | cons c tail =>
    have hc : c = '%'.toNat := dropWhile_stop hd
    rw [hd, List.length_cons] at hlength
    rw [hd] at hfits
    have hliteral := directiveAt_literal tail
    have hdirective := parseDirective_eq env argCount tail s
    rw [if_pos (hfits _ _ rfl)] at hdirective
    rw [hc]
    simp only [hdirective]
    refine ⟨_, _, rfl, rfl, ⟨rfl, rfl, rfl, rfl, rfl⟩, ?_, .inr ⟨(directiveAt tail).1, ?_⟩⟩
    · show (format.takeWhile (· != '%'.toNat)).length + (directiveAt tail).2.1 ≤ format.length
      omega
    · rw [nextDirective, hd]

end Call

/-! ## The loop -/

/-- The renderer that is given the text of a call. -/
def FormatCall.renderer (call : FormatCall Arg σ) : Renderer σ where
  render out rsh rshLength := some (call.render out (rendered rsh rshLength))

section Loop

variable (call : FormatCall Arg σ)

theorem formatRound_agrees {p : Parsed} {q : ParsedAt} (h : Agrees q p)
    (hlen : p.prefixLength ≤ p.prefixText.length) (out : σ) :
    formatRound call.renderer call.formatValue call.args p out = call.renderRound q out := by
  have hslice : call.renderer.renderIf (0 < p.prefixLength) out p.prefixText p.prefixLength =
      call.renderPrefix q out := by
    unfold Renderer.renderIf FormatCall.renderPrefix
    rw [h.prefixLength, h.prefixText]
    split
    · rename_i hpos
      have htext : rendered p.prefixText p.prefixLength = p.prefixText.take p.prefixLength := by
        rw [rendered, if_pos (Int.natCast_pos.mpr hpos), Int.toNat_natCast]
      rw [readBlock_cells hlen, Option.map_some, ← htext]
      rfl
    · rfl
  have hscratch : ∀ o, call.renderer.renderIf (p.fmtBuffer.headD 0 ≠ 0 ∧ p.fmtSpec.argIndex = 0) o
      p.fmtBuffer (-1) = some (if q.scratch.fmtBuffer.headD 0 ≠ 0 ∧ q.fmtSpec.argIndex = 0 then
        call.render o (cstr q.scratch.fmtBuffer) else (0, o)) := by
    intro o
    rw [h.fmtBuffer, h.fmtSpec, Renderer.renderIf]
    split
    · rw [← rendered_cstr]
      rfl
    · rfl
  have hvalue : ∀ o (text : CText), call.renderer.render o text.chars (-1) =
      some (call.render o text.chars) := by
    intro o text
    show some (call.render o (rendered text.chars (-1))) = some (call.render o text.chars)
    rw [rendered_cstr, cstr_eq_self text.nulFree]
  unfold formatRound FormatCall.renderRound
  simp only [hslice, hscratch, hvalue, Option.bind_eq_bind, Option.bind_some, h.fmtSpec,
    h.fmtBuffer]

/-- **The loop on lists** is the loop on memory, as long as every text behind `DT:` fits. -/
theorem doFormatLoop_agrees : ∀ (bound : Nat) (st : LoopState σ) (format : List CharT),
    0 ∉ format → st.format = cells format →
    (∀ d ∈ formatDirectives format, d.copied.length ≤ DEFAULT_BUFFER_SIZE) →
    doFormatLoop call.renderer call.formatValue call.env call.args bound st.round st.fmtSpec format
        st.nRetFormattedCount st.out =
      (call.loopAt bound st).map fun run => (run.result, run.last.out)
  | 0, _, _, _, _, _ => rfl
  | bound + 1, st, format, hnul, hst, hfits => by
    have hnext : ∀ d rest, nextDirective format = some (d, rest) →
        d.copied.length ≤ DEFAULT_BUFFER_SIZE := fun d rest hd =>
      hfits d (by rw [formatDirectives_next hd]; exact List.mem_cons_self ..)
    obtain ⟨p, q, hp, hq, hagrees, hlen, hrest⟩ := fmtParse_agrees (call.env st.round)
      call.args.length st.fmtSpec hnul st.scratch hnext
    rw [← hst] at hq
    have hround := formatRound_agrees call hagrees hlen st.out
    simp only [doFormatLoop, FormatCall.loopAt, FormatCall.roundAt, hp, hq, Option.bind_eq_bind,
      Option.bind_some, hround, hagrees.fmtSpec]
    by_cases hbad : 0 < p.fmtSpec.argIndex ∧ (call.args.length : Int) < p.fmtSpec.argIndex
    · simp only [if_pos hbad, Option.map_some]
    simp only [if_neg hbad]
    cases hr : call.renderRound q st.out with
    | none => rfl
    | some r =>
      simp only [Option.bind_some]
      by_cases hend : p.fmtSpec.argIndex < 0
      · simp only [if_pos hend, Option.map_some]
        rfl
      · obtain ⟨d, hd⟩ := hrest.resolve_left hend
        have hsuffix := (nextDirective_rest hd).1
        simp only [if_neg hend]
        have hrec := doFormatLoop_agrees bound (call.after st q r) p.format
          (fun hmem => hnul (hsuffix.subset hmem)) hagrees.format
          (fun d' hd' => hfits d' (by
            rw [formatDirectives_next hd]
            exact List.mem_cons_of_mem d hd'))
        rw [← hrec]
        simp only [FormatCall.after, hagrees.fmtSpec]

/-- **`doFormat` on lists** returns and renders what `doFormat` on memory does, as long as every
    text behind `DT:` fits. -/
theorem doFormat_agrees (format : CText) (out : σ)
    (hfits : ∀ d ∈ formatDirectives format.chars, d.copied.length ≤ DEFAULT_BUFFER_SIZE) :
    doFormat call.renderer call.formatValue call.env call.args format.chars out =
      (call.doFormatAt (format.chars.length + 1) (cells format.chars) out).map fun run =>
        (run.result, run.last.out) :=
  doFormatLoop_agrees call _ (.start (cells format.chars) out) format.chars format.nulFree rfl hfits

end Loop

end IMonPlatform.Format
