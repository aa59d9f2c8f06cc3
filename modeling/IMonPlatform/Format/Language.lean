import IMonPlatform.Format.DoFormat

/-!
# The format language

A format string as a row of pieces: literal text, `%%`, `%k` with or without `{spec}`, and the
directives `%0{TID}`, `%0{PID}`, `%0{DATE}`, `%0{TIME}`.  `meaning` is the text they stand for,
piece by piece, and `source` the string they are written as.

* `WellFormed` — the pieces of a format for `n` arguments; a bare `%k` must not run into a digit or
  a brace behind it.
* `parseDirective_percent`, `parseDirective_arg`, `parseDirective_spec`, `parseDirective_env` — what
  one call of the parser makes of a piece.
* `formatRound_string` — what one round appends to the string.
* `Renders` — the loop on the pieces behind a literal text; one lemma for each kind of piece.
* `format_language` — `doFormat` renders the meaning of the pieces and returns its length.
-/

set_option autoImplicit false

namespace IMonPlatform.Format

variable {Arg : Type}

/-! ## Pieces -/

inductive Piece where
  | literal (text : List CharT)
  /-- `%%` -/
  | percent
  /-- `%k` or `%k{spec}` -/
  | arg (digits : List CharT) (spec : Option (List CharT))
  /-- `%0{TID}` and its like. -/
  | env (kind : EnvKind)

def EnvKind.word : EnvKind → List Char
  | .TID => ['T', 'I', 'D']
  | .PID => ['P', 'I', 'D']
  | .DATE => ['D', 'A', 'T', 'E']
  | .TIME => ['T', 'I', 'M', 'E']

/-- How a piece is written. -/
def Piece.source : Piece → List CharT
  | .literal text => text
  | .percent => ['%'.toNat, '%'.toNat]
  | .arg digits none => '%'.toNat :: digits
  | .arg digits (some spec) => '%'.toNat :: (digits ++ '\x7b'.toNat :: (spec ++ ['\x7d'.toNat]))
  | .env kind =>
    '%'.toNat :: '0'.toNat :: '\x7b'.toNat :: (kind.word.map Char.toNat ++ ['\x7d'.toNat])

def source (ps : List Piece) : List CharT := ps.flatMap Piece.source

/-- The flags that a spec stands for. -/
def specFlags (spec : List CharT) : Flags :=
  { Flags.zero with
    upperLetter := startsWith spec ['U']
    plus := startsWith spec ['+']
    datetime := startsWith spec ['D', 'T']
    errorText := startsWith spec ['E', 'R', 'R']
    errorHRESULT := startsWith spec ['H', 'E', 'R', 'R'] }

/-- The text behind `DT:`. -/
def dtText (spec : List CharT) : List CharT :=
  if startsWith spec ['D', 'T', ':'] then spec.drop 3 else []

/-- A spec that ends at its own brace and fits into the scratch buffer. -/
structure SpecOk (spec : List CharT) : Prop where
  brace : '\x7d'.toNat ∉ spec
  nulFree : 0 ∉ spec
  fits : (dtText spec).length ≤ 255

/-- What may stand behind a bare `%k`. -/
def BareOk (next : List CharT) : Prop :=
  ∀ c ∈ next.head?, isdigit c = false ∧ c ≠ '\x7b'.toNat

/-- The row of pieces is a format for `n` arguments. -/
def WellFormed (n : Nat) : List Piece → Prop
  | [] => True
  | .literal text :: ps => ('%'.toNat ∉ text ∧ 0 ∉ text) ∧ WellFormed n ps
  | .percent :: ps => WellFormed n ps
  | .arg digits spec :: ps =>
    (digits ≠ [] ∧ (∀ c ∈ digits, isdigit c = true) ∧ 1 ≤ digitsValue digits ∧
      digitsValue digits ≤ n) ∧ spec.elim (BareOk (source ps)) SpecOk ∧ WellFormed n ps
  | .env _ :: ps => WellFormed n ps

section Meaning

variable (formatValue : Arg → Flags → List CharT → CText) (env : Nat → EnvKind → ScratchText)
  (args : List Arg)

/-- The text of an argument under a directive's own spec. -/
def argText (digits : List CharT) (spec : Option (List CharT)) : List CharT :=
  match args[digitsValue digits - 1]? with
  | none => []
  | some value => (formatValue value ((spec.map specFlags).getD .zero)
      ((spec.map dtText).getD [])).chars

/-- **What the pieces stand for**; `round` counts the directives. -/
def meaning : Nat → List Piece → List CharT
  | _, [] => []
  | round, .literal text :: ps => text ++ meaning round ps
  | round, .percent :: ps => '%'.toNat :: meaning (round + 1) ps
  | round, .arg digits spec :: ps =>
    argText formatValue args digits spec ++ meaning (round + 1) ps
  | round, .env kind :: ps => (env round kind).chars ++ meaning (round + 1) ps

end Meaning

/-! ## The parser on a piece -/

section Parser

variable {env : EnvKind → ScratchText} {argCount : Int} {fmtSpec : FormatSpec}
  {fmtBuffer literal : List CharT}

theorem literal_ne {c : CharT} (h : '%'.toNat ∉ literal) (hc : c ∈ literal) :
    (c != '%'.toNat) = true := by
  rw [bne_iff_ne]
  rintro rfl
  exact h hc

theorem fmtParse_end (env : EnvKind → ScratchText) (argCount : Int) (fmtSpec : FormatSpec)
    (fmtBuffer : List CharT) (hlit : '%'.toNat ∉ literal) :
    fmtParse env argCount fmtSpec fmtBuffer literal =
      some ⟨⟨-1, .zero⟩, fmtBuffer, literal, literal.length, []⟩ := by
  have hdrop : literal.dropWhile (· != '%'.toNat) = [] :=
    List.dropWhile_eq_nil_iff.mpr (fun c hc => literal_ne hlit hc)
  have htake : literal.takeWhile (· != '%'.toNat) = literal :=
    List.takeWhile_eq_self_iff.mpr (fun c hc => literal_ne hlit hc)
  unfold fmtParse
  rw [hdrop, htake]
  rfl

/-- The literal text in front of a directive only lengthens the slice. -/
theorem fmtParse_directive {format rest fmtBuffer' : List CharT} {fmtSpec' : FormatSpec}
    {more : Nat} (hlit : '%'.toNat ∉ literal)
    (h : parseDirective env argCount ⟨0, .zero⟩ fmtBuffer ('%'.toNat :: format) =
      some (fmtSpec', fmtBuffer', more, rest)) :
    fmtParse env argCount fmtSpec fmtBuffer (literal ++ '%'.toNat :: format) =
      some ⟨fmtSpec', fmtBuffer', literal ++ '%'.toNat :: format, literal.length + more, rest⟩ := by
  have hdrop : (literal ++ '%'.toNat :: format).dropWhile (· != '%'.toNat) =
      '%'.toNat :: format := by
    rw [List.dropWhile_append_of_pos (fun c hc => literal_ne hlit hc)]
    rfl
  have htake : (literal ++ '%'.toNat :: format).takeWhile (· != '%'.toNat) = literal := by
    rw [List.takeWhile_append_of_pos (fun c hc => literal_ne hlit hc)]
    simp
  unfold fmtParse
  rw [hdrop, htake, h]

theorem parseDirective_percent (rest : List CharT) :
    parseDirective env argCount ⟨0, .zero⟩ fmtBuffer ('%'.toNat :: '%'.toNat :: rest) =
      some (⟨0, .zero⟩, fmtBuffer, 1, rest) := by
  simp [parseDirective]

theorem strtoul_digits (digits rest : List CharT) (hdigits : ∀ c ∈ digits, isdigit c = true)
    (hrest : ∀ c ∈ rest.head?, isdigit c = false) :
    strtoul (digits ++ rest) = (min (digitsValue digits) (2 ^ 32 - 1), rest) := by
  have hstop : rest.takeWhile isdigit = [] ∧ rest.dropWhile isdigit = rest := by
    cases rest with
    | nil => exact ⟨rfl, rfl⟩
    | cons c rest =>
      have hc : isdigit c = false := hrest c rfl
      simp [hc]
  unfold strtoul
  rw [List.takeWhile_append_of_pos hdigits, List.dropWhile_append_of_pos hdigits, hstop.1, hstop.2,
    List.append_nil]

theorem toLong_small {v : Nat} (h : v < 2 ^ 31) : toLong (min v (2 ^ 32 - 1)) = v := by
  have hmin : min v (2 ^ 32 - 1) = v := by omega
  simp only [hmin]
  unfold toLong
  exact Int.bmod_eq_of_le (by omega) (by omega)

/-- A digit behind `%` starts an argument directive. -/
theorem parseDirective_number {digits : List CharT} (rest : List CharT) (hne : digits ≠ [])
    (hdigits : ∀ c ∈ digits, isdigit c = true) :
    startsWith (digits ++ rest) ['%'] = false ∧ isdigit ((digits ++ rest).headD 0) = true := by
  obtain ⟨c, ds, rfl⟩ := List.exists_cons_of_ne_nil hne
  have hc := hdigits c List.mem_cons_self
  refine ⟨?_, hc⟩
  simp only [List.cons_append, startsWith_cons, startsWith_nil, Bool.and_true, beq_eq_false_iff_ne]
  rintro rfl
  exact absurd hc (by decide)

/-- A bare `%k`. -/
theorem parseDirective_arg {digits rest : List CharT} (hne : digits ≠ [])
    (hdigits : ∀ c ∈ digits, isdigit c = true) (hsmall : digitsValue digits < 2 ^ 31)
    (hrest : BareOk rest) :
    parseDirective env argCount ⟨0, .zero⟩ fmtBuffer ('%'.toNat :: (digits ++ rest)) =
      some (⟨digitsValue digits, .zero⟩, fmtBuffer, 0, rest) := by
  obtain ⟨hpercent, hdigit⟩ := parseDirective_number rest hne hdigits
  have hbrace : startsWith rest ['\x7b'] = false := by
    cases rest with
    | nil => rfl
    | cons c rest =>
      have hc : c ≠ '\x7b'.toNat := (hrest c rfl).2
      simpa using hc.symm
  simp only [parseDirective, hpercent, hdigit,
    strtoul_digits digits rest hdigits (fun c hc => (hrest c hc).1), toLong_small hsmall, hbrace,
    Bool.false_eq_true, if_false, if_true]

/-- The brace that ends a spec is no part of a word. -/
theorem startsWith_stop (rest : List CharT) :
    ∀ {word : List Char}, '\x7d' ∉ word → ∀ spec : List CharT,
      startsWith (spec ++ '\x7d'.toNat :: rest) word = startsWith spec word
  | [], _, _ => by simp
  | w :: ws, hword, [] => by
    have hw : w ≠ '\x7d' := fun h => hword (h ▸ List.mem_cons_self)
    have hne : w.toNat ≠ '\x7d'.toNat := fun h => hw (Char.toNat_inj.mp h)
    rw [List.nil_append, startsWith_cons, beq_eq_false_iff_ne.mpr hne]
    rfl
  | w :: ws, hword, c :: spec => by
    have hws : '\x7d' ∉ ws := fun h => hword (List.mem_cons_of_mem w h)
    rw [List.cons_append, startsWith_cons, startsWith_cons, startsWith_stop rest hws spec]

theorem copyText_stop {text : List CharT} (rest : List CharT) (h : '\x7d'.toNat ∉ text) :
    copyText (text ++ '\x7d'.toNat :: rest) = (text, '\x7d'.toNat :: rest) := by
  induction text with
  | nil => simp [copyText]
  | cons c text ih =>
    have hc : c ≠ '\x7d'.toNat := fun he => h (he ▸ List.mem_cons_self)
    simp only [List.cons_append, copyText, if_neg hc,
      ih (fun hmem => h (List.mem_cons_of_mem c hmem))]

theorem skipSpec_stop {spec : List CharT} (rest : List CharT) (h : '\x7d'.toNat ∉ spec) :
    skipSpec (spec ++ '\x7d'.toNat :: rest) = rest := by
  have hskip : ∀ c ∈ spec, (c != '\x7d'.toNat) = true := by
    intro c hc
    rw [bne_iff_ne]
    rintro rfl
    exact h hc
  unfold skipSpec
  rw [List.dropWhile_append_of_pos hskip]
  simp

/-- A text that starts with a word is the word and a rest. -/
theorem exists_of_startsWith : ∀ {word : List Char} {text : List CharT},
    startsWith text word = true → ∃ rest, text = word.map Char.toNat ++ rest
  | [], text, _ => ⟨text, rfl⟩
  | w :: ws, [], h => by cases h
  | w :: ws, c :: text, h => by
    rw [startsWith_cons, Bool.and_eq_true, beq_iff_eq] at h
    obtain ⟨rest, hrest⟩ := exists_of_startsWith h.2
    exact ⟨rest, by rw [hrest, ← h.1]; rfl⟩

/-- **The spec of a directive**: its own flags, its own text in a clean scratch buffer, and the
    pointer still before its brace. -/
theorem parseSpec_stop {spec : List CharT} (hspec : SpecOk spec) (v : Int) (rest : List CharT)
    (hbuffer : 255 ≤ fmtBuffer.length) :
    ∃ left, '\x7d'.toNat ∉ left ∧
      parseSpec (spec ++ '\x7d'.toNat :: rest) ⟨v, .zero⟩ fmtBuffer =
        some (⟨v, specFlags spec⟩, overwrite fmtBuffer (dtText spec),
          left ++ '\x7d'.toNat :: rest) := by
  have hbrace := hspec.brace
  have hfits := hspec.fits
  unfold parseSpec
  rw [startsWith_stop rest (by decide), startsWith_stop rest (by decide),
    startsWith_stop rest (by decide), startsWith_stop rest (by decide),
    startsWith_stop rest (by decide)]
  by_cases hU : startsWith spec ['U']
  · obtain ⟨r, rfl⟩ := exists_of_startsWith hU
    exact ⟨_, hbrace, by simp [specFlags, Flags.zero, dtText, overwrite]⟩
  by_cases hplus : startsWith spec ['+']
  · obtain ⟨r, rfl⟩ := exists_of_startsWith hplus
    exact ⟨_, hbrace, by simp [specFlags, Flags.zero, dtText, overwrite]⟩
  by_cases hDT : startsWith spec ['D', 'T']
  · obtain ⟨r, rfl⟩ := exists_of_startsWith hDT
    have hr : '\x7d'.toNat ∉ r := fun hmem => hbrace (List.mem_append_right _ hmem)
    have hcolon : startsWith (r ++ 125 :: rest) [':'] = startsWith r [':'] :=
      startsWith_stop rest (by decide) r
    by_cases htext : startsWith r [':']
    · obtain ⟨text, rfl⟩ := exists_of_startsWith htext
      have hstop : copyText (text ++ 125 :: rest) = (text, 125 :: rest) :=
        copyText_stop rest (fun hmem => hr (List.mem_append_right _ hmem))
      have hroom : text.length ≤ fmtBuffer.length := by
        have : text.length ≤ 255 := by simpa [dtText] using hfits
        omega
      exact ⟨[], List.not_mem_nil, by simp [specFlags, Flags.zero, dtText, hstop, hroom]⟩
    · exact ⟨r, hr, by simp [specFlags, Flags.zero, dtText, overwrite, hcolon, htext]⟩
  by_cases hERR : startsWith spec ['E', 'R', 'R']
  · obtain ⟨r, rfl⟩ := exists_of_startsWith hERR
    have hr : '\x7d'.toNat ∉ r := fun hmem => hbrace (List.mem_append_right _ hmem)
    exact ⟨r, hr, by simp [specFlags, Flags.zero, dtText, overwrite]⟩
  by_cases hHERR : startsWith spec ['H', 'E', 'R', 'R']
  · obtain ⟨r, rfl⟩ := exists_of_startsWith hHERR
    have hr : '\x7d'.toNat ∉ r := fun hmem => hbrace (List.mem_append_right _ hmem)
    exact ⟨r, hr, by simp [specFlags, Flags.zero, dtText, overwrite]⟩
  · have hdt : startsWith spec ['D', 'T', ':'] = false := by
      by_contra hno
      obtain ⟨r, rfl⟩ := exists_of_startsWith (Bool.not_eq_false _ ▸ hno)
      simp at hDT
    refine ⟨spec, hbrace, ?_⟩
    simp [specFlags, Flags.zero, dtText, overwrite, hdt, hU, hplus, hDT, hERR, hHERR]

/-- `%k{spec}`. -/
theorem parseDirective_spec {digits spec rest : List CharT} (hne : digits ≠ [])
    (hdigits : ∀ c ∈ digits, isdigit c = true) (hpos : 1 ≤ digitsValue digits)
    (hsmall : digitsValue digits < 2 ^ 31) (hspec : SpecOk spec)
    (hbuffer : 255 ≤ fmtBuffer.length) :
    parseDirective env argCount ⟨0, .zero⟩ fmtBuffer
        ('%'.toNat :: (digits ++ '\x7b'.toNat :: (spec ++ '\x7d'.toNat :: rest))) =
      some (⟨digitsValue digits, specFlags spec⟩, overwrite fmtBuffer (dtText spec), 0, rest) := by
  obtain ⟨hpercent, hdigit⟩ := parseDirective_number
    ('\x7b'.toNat :: (spec ++ '\x7d'.toNat :: rest)) hne hdigits
  have hnumber := strtoul_digits digits ('\x7b'.toNat :: (spec ++ '\x7d'.toNat :: rest)) hdigits
    (fun c hc => by cases hc; decide)
  have hbrace : startsWith ('\x7b'.toNat :: (spec ++ '\x7d'.toNat :: rest)) ['\x7b'] = true := by
    simp
  have hzero : ((digitsValue digits : Nat) : Int) ≠ 0 := by omega
  obtain ⟨left, hleft, hparse⟩ := parseSpec_stop hspec (digitsValue digits) rest hbuffer
  simp only [parseDirective, hpercent, hdigit, hnumber, hbrace, toLong_small hsmall, if_neg hzero,
    Bool.false_eq_true, if_false, if_true, List.drop_succ_cons, List.drop_zero, hparse,
    skipSpec_stop rest hleft]

theorem parseSpecial_word (env : EnvKind → ScratchText) (argCount : Int) (fmtBuffer : List CharT)
    (kind : EnvKind) (rest : List CharT) :
    ∃ flags, parseSpecial env argCount (kind.word.map Char.toNat ++ rest) ⟨0, .zero⟩ fmtBuffer =
      (⟨0, flags⟩, overwrite fmtBuffer (env kind).chars) := by
  cases kind <;> exact ⟨_, rfl⟩

/-- `%0{TID}` and its like: the text of the environment is in the scratch buffer. -/
theorem parseDirective_env (env : EnvKind → ScratchText) (argCount : Int)
    (fmtBuffer : List CharT) (kind : EnvKind) (rest : List CharT) :
    ∃ flags, parseDirective env argCount ⟨0, .zero⟩ fmtBuffer ('%'.toNat :: '0'.toNat ::
        '\x7b'.toNat :: (kind.word.map Char.toNat ++ '\x7d'.toNat :: rest)) =
      some (⟨0, flags⟩, overwrite fmtBuffer (env kind).chars, 0, rest) := by
  have hword : '\x7d'.toNat ∉ kind.word.map Char.toNat := by cases kind <;> decide
  have hdigits : ∀ c ∈ ['0'.toNat], isdigit c = true := by decide
  obtain ⟨hpercent, hdigit⟩ := parseDirective_number
    ('\x7b'.toNat :: (kind.word.map Char.toNat ++ '\x7d'.toNat :: rest)) (by simp) hdigits
  have hnumber := strtoul_digits ['0'.toNat]
    ('\x7b'.toNat :: (kind.word.map Char.toNat ++ '\x7d'.toNat :: rest)) hdigits
    (fun c hc => by cases hc; decide)
  have hbrace : startsWith ('\x7b'.toNat ::
      (kind.word.map Char.toNat ++ '\x7d'.toNat :: rest)) ['\x7b'] = true := by simp
  have hzero : toLong (min (digitsValue ['0'.toNat]) (2 ^ 32 - 1)) = 0 := by decide
  obtain ⟨flags, hspecial⟩ := parseSpecial_word env argCount fmtBuffer kind
    ('\x7d'.toNat :: rest)
  rw [List.singleton_append] at hpercent hdigit hnumber
  refine ⟨flags, ?_⟩
  simp only [parseDirective, hpercent, hdigit, hnumber, hbrace, hzero, Bool.false_eq_true,
    if_false, if_true, List.drop_succ_cons, List.drop_zero, hspecial, skipSpec_stop rest hword]

end Parser

/-! ## One round -/

section Round

variable {formatValue : Arg → Flags → List CharT → CText} {args : List Arg}

/-- What a round appends. -/
def roundText (formatValue : Arg → Flags → List CharT → CText) (args : List Arg) (p : Parsed) :
    List CharT :=
  p.prefixText.take p.prefixLength ++
    if p.fmtSpec.argIndex = 0 then cstr p.fmtBuffer
    else if p.fmtSpec.argIndex < 0 then []
    else match args[(p.fmtSpec.argIndex - 1).toNat]? with
      | none => []
      | some value => (formatValue value p.fmtSpec.flags (cstr p.fmtBuffer)).chars

theorem renderIf_string (c : Prop) [Decidable c] (out rsh text : List CharT) (rshLength : Int)
    (hyes : c → rendered rsh rshLength = text) (hno : ¬ c → text = []) :
    stringRenderer.renderIf c out rsh rshLength = some (text.length, out ++ text) := by
  unfold Renderer.renderIf
  split
  · rename_i hc
    rw [stringRenderer_render, hyes hc]
  · rename_i hc
    rw [hno hc, List.append_nil]
    rfl

theorem cstr_eq_nil {cells : List CharT} (h : cells.headD 0 = 0) : cstr cells = [] := by
  cases cells with
  | nil => rfl
  | cons c cells =>
    have hc : c = 0 := h
    simp [cstr, hc]

/-- A round at an argument. -/
theorem roundText_arg (v : Nat) (hv : 1 ≤ v) (flags : Flags)
    (fmtBuffer literal format rest : List CharT) :
    roundText formatValue args
        ⟨⟨v, flags⟩, fmtBuffer, literal ++ format, literal.length + 0, rest⟩ =
      literal ++ match args[v - 1]? with
        | none => []
        | some value => (formatValue value flags (cstr fmtBuffer)).chars := by
  have hzero : (v : Int) ≠ 0 := by omega
  have hneg : ¬ (v : Int) < 0 := by omega
  have hindex : ((v : Int) - 1).toNat = v - 1 := by omega
  simp only [roundText, if_neg hzero, if_neg hneg, hindex, Nat.add_zero, List.take_left]

/-- **One round of the loop** with the string renderer. -/
theorem formatRound_string (p : Parsed) (out : List CharT)
    (harg : ¬ (0 < p.fmtSpec.argIndex ∧ args.length < p.fmtSpec.argIndex)) :
    formatRound stringRenderer formatValue args p out =
      some ((roundText formatValue args p).length, out ++ roundText formatValue args p) := by
  have hslice := renderIf_string (0 < p.prefixLength) out p.prefixText
    (p.prefixText.take p.prefixLength) p.prefixLength (fun h => by simp [rendered, h])
    (fun h => by simp [Nat.le_zero.mp (Nat.not_lt.mp h)])
  have hscratch := renderIf_string (p.fmtBuffer.headD 0 ≠ 0 ∧ p.fmtSpec.argIndex = 0)
    (out ++ p.prefixText.take p.prefixLength) p.fmtBuffer
    (if p.fmtSpec.argIndex = 0 then cstr p.fmtBuffer else []) (-1)
    (fun h => by rw [rendered_cstr, if_pos h.2])
    (fun h => by
      split
      · exact cstr_eq_nil (not_not.mp (fun hne => h ⟨hne, ‹_›⟩))
      · rfl)
  unfold formatRound roundText
  rw [hslice]
  simp only [Option.bind_eq_bind, Option.bind_some]
  rw [hscratch]
  simp only [Option.bind_some]
  by_cases hzero : p.fmtSpec.argIndex = 0
  · simp [hzero]
  · by_cases hneg : p.fmtSpec.argIndex < 0
    · simp [hzero, hneg, Int.le_of_lt hneg]
    · have hpos : ¬ p.fmtSpec.argIndex ≤ 0 := by omega
      have hindex : (p.fmtSpec.argIndex - 1).toNat < args.length := by omega
      simp only [if_neg hzero, if_neg hneg, if_neg hpos, List.getElem?_eq_getElem hindex,
        Option.bind_some, stringRenderer_render, rendered_cstr, List.append_nil]
      rw [cstr_eq_self (CText.nulFree _)]
      simp

end Round

/-! ## The whole format -/

section Language

variable {formatValue : Arg → Flags → List CharT → CText} {env : Nat → EnvKind → ScratchText}
  {args : List Arg}

/-- A round that is not the last one. -/
theorem doFormatLoop_round {bound round : Nat} {fmtSpec : FormatSpec} {format : List CharT}
    {p : Parsed} (hparse : fmtParse (env round) args.length fmtSpec
      (List.replicate DEFAULT_BUFFER_SIZE 0) format = some p)
    (hfrom : 0 ≤ p.fmtSpec.argIndex) (hto : p.fmtSpec.argIndex ≤ args.length) (count : Nat)
    (out : List CharT) :
    doFormatLoop stringRenderer formatValue env args (bound + 1) round fmtSpec format count out =
      doFormatLoop stringRenderer formatValue env args bound (round + 1) p.fmtSpec p.format
        (count + (roundText formatValue args p).length) (out ++ roundText formatValue args p) := by
  have hok : ¬ (0 < p.fmtSpec.argIndex ∧ (args.length : Int) < p.fmtSpec.argIndex) := by omega
  have hmore : ¬ p.fmtSpec.argIndex < 0 := by omega
  simp only [doFormatLoop, hparse, if_neg hok, formatRound_string p out hok, if_neg hmore]

/-- A text in a cleared scratch buffer. -/
theorem cstr_overwrite {text : List CharT} (h : 0 ∉ text) (n : Nat) :
    cstr (overwrite (List.replicate n 0) text) = text := by
  unfold cstr overwrite
  rw [List.drop_replicate, List.takeWhile_append_of_pos (fun c hc => ?_)]
  · cases n - text.length <;> simp [List.replicate_succ]
  · rw [bne_iff_ne]
    rintro rfl
    exact h hc

theorem cstr_cleared (n : Nat) : cstr (List.replicate n 0) = [] := by
  cases n <;> simp [cstr, List.replicate_succ]

theorem dtText_nulFree {spec : List CharT} (h : 0 ∉ spec) : 0 ∉ dtText spec := by
  unfold dtText
  split
  · exact fun hmem => h (List.mem_of_mem_drop hmem)
  · exact List.not_mem_nil

variable (formatValue env args) in
/-- The loop renders a row of pieces, with literal text in front that is still to be rendered. -/
def Renders (bound round : Nat) (literal : List CharT) (ps : List Piece) : Prop :=
  ∀ (fmtSpec : FormatSpec) (count : Nat) (out : List CharT),
    doFormatLoop stringRenderer formatValue env args bound round fmtSpec (literal ++ source ps)
        count out =
      some (some (count + (literal ++ meaning formatValue env args round ps).length),
        out ++ (literal ++ meaning formatValue env args round ps))

section Renders

variable {bound round : Nat} {literal : List CharT} {ps : List Piece}

theorem renders_nil (bound round : Nat) (hlit : '%'.toNat ∉ literal) :
    Renders formatValue env args (bound + 1) round literal [] := by
  intro fmtSpec count out
  have hsource : literal ++ source [] = literal := List.append_nil literal
  have hparse := fmtParse_end (env round) args.length fmtSpec
    (List.replicate DEFAULT_BUFFER_SIZE 0) hlit
  simp only [hsource, doFormatLoop, hparse]
  rw [if_neg (by omega), formatRound_string _ _ (by simp)]
  simp [roundText, meaning]

/-- Literal text joins the literal in front. -/
theorem renders_literal {text : List CharT}
    (h : Renders formatValue env args bound round (literal ++ text) ps) :
    Renders formatValue env args bound round literal (.literal text :: ps) := by
  intro fmtSpec count out
  have hsource : literal ++ source (.literal text :: ps) = literal ++ text ++ source ps :=
    (List.append_assoc literal text (source ps)).symm
  have hmeaning : literal ++ meaning formatValue env args round (.literal text :: ps) =
      literal ++ text ++ meaning formatValue env args round ps :=
    (List.append_assoc literal text _).symm
  rw [hsource, hmeaning]
  exact h fmtSpec count out

/-- One directive and the pieces behind it. -/
theorem renders_directive {piece : Piece} {format fmtBuffer : List CharT} (text : List CharT)
    {fmtSpec' : FormatSpec} {more : Nat} (ih : Renders formatValue env args bound (round + 1) [] ps)
    (hlit : '%'.toNat ∉ literal) (hsource : source (piece :: ps) = '%'.toNat :: format)
    (hmeaning : meaning formatValue env args round (piece :: ps) =
      text ++ meaning formatValue env args (round + 1) ps)
    (hdir : parseDirective (env round) args.length ⟨0, .zero⟩
      (List.replicate DEFAULT_BUFFER_SIZE 0) ('%'.toNat :: format) =
        some (fmtSpec', fmtBuffer, more, source ps))
    (hfrom : 0 ≤ fmtSpec'.argIndex) (hto : fmtSpec'.argIndex ≤ args.length)
    (htext : roundText formatValue args ⟨fmtSpec', fmtBuffer, literal ++ '%'.toNat :: format,
      literal.length + more, source ps⟩ = literal ++ text) :
    Renders formatValue env args (bound + 1) round literal (piece :: ps) := by
  intro fmtSpec count out
  have hrest : ∀ fmtSpec count out, doFormatLoop stringRenderer formatValue env args bound
      (round + 1) fmtSpec (source ps) count out =
      some (some (count + (meaning formatValue env args (round + 1) ps).length),
        out ++ meaning formatValue env args (round + 1) ps) := ih
  rw [hsource, hmeaning, doFormatLoop_round (fmtParse_directive hlit hdir) hfrom hto, htext, hrest]
  simp only [List.length_append, List.append_assoc, Nat.add_assoc]

theorem renders_percent (hlit : '%'.toNat ∉ literal)
    (ih : Renders formatValue env args bound (round + 1) [] ps) :
    Renders formatValue env args (bound + 1) round literal (.percent :: ps) := by
  refine renders_directive ['%'.toNat] ih hlit rfl rfl (parseDirective_percent (source ps))
    (Int.le_refl 0) (by simp) ?_
  -- the slice ends with the first of the two characters
  simp [roundText, cstr_cleared, List.take_length_add_append]

theorem renders_arg {digits : List CharT} (hlit : '%'.toNat ∉ literal) (hne : digits ≠ [])
    (hdigits : ∀ c ∈ digits, isdigit c = true) (hpos : 1 ≤ digitsValue digits)
    (hmax : digitsValue digits ≤ args.length) (hsmall : digitsValue digits < 2 ^ 31)
    (hbare : BareOk (source ps)) (ih : Renders formatValue env args bound (round + 1) [] ps) :
    Renders formatValue env args (bound + 1) round literal (.arg digits none :: ps) := by
  refine renders_directive (argText formatValue args digits none) ih hlit rfl rfl
    (parseDirective_arg hne hdigits hsmall hbare) (by simp) (by simpa using hmax) ?_
  rw [roundText_arg _ hpos, cstr_cleared]
  rfl

theorem renders_spec {digits spec : List CharT} (hlit : '%'.toNat ∉ literal) (hne : digits ≠ [])
    (hdigits : ∀ c ∈ digits, isdigit c = true) (hpos : 1 ≤ digitsValue digits)
    (hmax : digitsValue digits ≤ args.length) (hsmall : digitsValue digits < 2 ^ 31)
    (hspec : SpecOk spec) (ih : Renders formatValue env args bound (round + 1) [] ps) :
    Renders formatValue env args (bound + 1) round literal (.arg digits (some spec) :: ps) := by
  have hsource : source (.arg digits (some spec) :: ps) = '%'.toNat ::
      (digits ++ '\x7b'.toNat :: (spec ++ '\x7d'.toNat :: source ps)) := by
    simp [source, Piece.source]
  have hroom : 255 ≤ (List.replicate DEFAULT_BUFFER_SIZE (0 : CharT)).length := by
    rw [List.length_replicate]
    decide
  refine renders_directive (argText formatValue args digits (some spec)) ih hlit hsource rfl
    (parseDirective_spec hne hdigits hpos hsmall hspec hroom) (by simp) (by simpa using hmax) ?_
  rw [roundText_arg _ hpos, cstr_overwrite (dtText_nulFree hspec.nulFree)]
  rfl

theorem renders_env (kind : EnvKind) (hlit : '%'.toNat ∉ literal)
    (ih : Renders formatValue env args bound (round + 1) [] ps) :
    Renders formatValue env args (bound + 1) round literal (.env kind :: ps) := by
  have hsource : source (.env kind :: ps) = '%'.toNat :: '0'.toNat :: '\x7b'.toNat ::
      (kind.word.map Char.toNat ++ '\x7d'.toNat :: source ps) := by
    simp [source, Piece.source]
  obtain ⟨flags, hdir⟩ := parseDirective_env (env round) args.length
    (List.replicate DEFAULT_BUFFER_SIZE 0) kind (source ps)
  refine renders_directive (env round kind).chars ih hlit hsource rfl hdir (Int.le_refl 0)
    (by simp) ?_
  simp [roundText, cstr_overwrite (env round kind).nulFree]

end Renders

/-- **The loop on a row of pieces.**  Every directive takes a character and a round. -/
theorem renders_pieces (formatValue : Arg → Flags → List CharT → CText)
    (env : Nat → EnvKind → ScratchText) (hargs : args.length < 2 ^ 31) :
    ∀ (ps : List Piece) (literal : List CharT) (bound round : Nat), '%'.toNat ∉ literal →
      WellFormed args.length ps → (source ps).length < bound →
      Renders formatValue env args bound round literal ps := by
  intro ps
  induction ps with
  | nil =>
    intro literal bound round hlit _ hbound
    obtain ⟨bound, rfl⟩ : ∃ b, bound = b + 1 := ⟨bound - 1, by omega⟩
    exact renders_nil bound round hlit
  | cons piece ps ih =>
    intro literal bound round hlit hwf hbound
    have hsource : (source (piece :: ps)).length = piece.source.length + (source ps).length :=
      List.length_append
    obtain ⟨bound, rfl⟩ : ∃ b, bound = b + 1 := ⟨bound - 1, by omega⟩
    have hrest : 1 ≤ piece.source.length → WellFormed args.length ps →
        Renders formatValue env args bound (round + 1) [] ps := by
      intro hpiece hps
      exact ih [] bound (round + 1) List.not_mem_nil hps (by omega)
    cases piece with
    | literal text =>
      have hlit' : '%'.toNat ∉ literal ++ text := by
        rw [List.mem_append, not_or]
        exact ⟨hlit, hwf.1.1⟩
      exact renders_literal (ih (literal ++ text) _ round hlit' hwf.2 (by omega))
    | percent => exact renders_percent hlit (hrest (by simp [Piece.source]) hwf)
    | arg digits spec =>
      obtain ⟨⟨hne, hdigits, hpos, hmax⟩, hspec, hps⟩ := hwf
      have hsmall : digitsValue digits < 2 ^ 31 := Nat.lt_of_le_of_lt hmax hargs
      cases spec with
      | none =>
        exact renders_arg hlit hne hdigits hpos hmax hsmall hspec
          (hrest (by simp [Piece.source]) hps)
      | some spec =>
        exact renders_spec hlit hne hdigits hpos hmax hsmall hspec
          (hrest (by simp [Piece.source]) hps)
    | env kind => exact renders_env kind hlit (hrest (by simp [Piece.source]) hwf)

end Language

/-- **The formatter implements its format language.**  For every list of arguments and every format
    that is a well-formed row of pieces for it, `doFormat` with the string renderer gives the
    concatenation of what the pieces stand for, in order, and returns its length. -/
theorem format_language (formatValue : Arg → Flags → List CharT → CText)
    (env : Nat → EnvKind → ScratchText) (args : List Arg) (hargs : args.length < 2 ^ 31)
    (ps : List Piece) (hps : WellFormed args.length ps) :
    doFormat stringRenderer formatValue env args (source ps) [] =
      some (some (meaning formatValue env args 0 ps).length,
        meaning formatValue env args 0 ps) := by
  have h := renders_pieces formatValue env hargs ps [] ((source ps).length + 1) 0
    List.not_mem_nil hps (Nat.lt_succ_self _) ⟨0, .zero⟩ 0 []
  simpa [doFormat] using h

/-- An environment: thread 7 of process 42 on some day. -/
def sampleEnv : Nat → EnvKind → ScratchText
  | _, .TID => ⟨⟨['7'.toNat], by decide⟩, by decide⟩
  | _, .PID => ⟨⟨['4'.toNat, '2'.toNat], by decide⟩, by decide⟩
  | _, .DATE => ⟨⟨['D'.toNat], by decide⟩, by decide⟩
  | _, .TIME => ⟨⟨['T'.toNat], by decide⟩, by decide⟩

/-- `x%%%2{U}%0{PID}y%1` -/
def samplePieces : List Piece :=
  [.literal ['x'.toNat], .percent, .arg ['2'.toNat] (some ['U'.toNat]), .env .PID,
    .literal ['y'.toNat], .arg ['1'.toNat] none]

/-- With the C strings `ab` and `c` as arguments, the text is `x%c42yab`. -/
theorem format_language_sample :
    doFormat stringRenderer (fun (value : CText) _ _ => value) sampleEnv
        [⟨['a'.toNat, 'b'.toNat], by decide⟩, ⟨['c'.toNat], by decide⟩] (source samplePieces) [] =
      some (some 8, ['x', '%', 'c', '4', '2', 'y', 'a', 'b'].map Char.toNat) := by
  refine format_language _ sampleEnv _ (by decide) samplePieces ?_
  refine ⟨⟨by decide, by decide⟩, ⟨by decide, by decide, by decide, by decide⟩, ?_, ⟨by decide,
    by decide⟩, ⟨by decide, by decide, by decide, by decide⟩, ?_, trivial⟩
  · exact ⟨by decide, by decide, by decide⟩
  · intro c hc
    cases hc

end IMonPlatform.Format
