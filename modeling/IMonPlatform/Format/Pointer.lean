import IMonPlatform.Format.Language
import IMonPlatform.Lib.CString

/-!
# `fmtParse` over the memory it reads and writes

The same function once more, with its pointers: the format is a row of cells that ends with the
NUL, every read is checked against it, and every store into the scratch buffer is recorded with its
index.  A store outside the buffer is recorded like any other and taken to change nothing else that
the function uses (`format` is `__restrict`).

* `Access`, `Scratch` — the buffer with what was done to it: the stores, and its contents whenever
  `formatDateTime` or the renderer is given it to read.
* `copyAt` — the loop behind `DT:`, which advances inside its own test.
* `parseSpecialAt`, `parseSpecAt`, `parseDirectiveAt`, `fmtParseAt` — `none` is a read behind the
  NUL.
* `Directive`, `directiveAt` — what a directive says, read off the text.
* `fmtParseAt_cells` — on a NUL-terminated format a call reads no cell behind the NUL and does what
  the directive says.
-/

set_option autoImplicit false

namespace IMonPlatform.Format

open CString

/-! ## The scratch buffer -/

inductive Access where
  | store (index : Nat)
  /-- The buffer, as `formatDateTime` or the renderer finds it. -/
  | handed (fmtBuffer : List CharT)
  deriving DecidableEq

structure Scratch where
  fmtBuffer : List CharT
  accesses : List Access
  deriving DecidableEq

namespace Scratch

/-- `fmtBuffer[ index ] = c` -/
def store (s : Scratch) (index : Nat) (c : CharT) : Scratch :=
  ⟨s.fmtBuffer.set index c, s.accesses ++ [.store index]⟩

/-- A row of stores. -/
def storeFrom (s : Scratch) (index : Nat) : List CharT → Scratch
  | [] => s
  | c :: text => (s.store index c).storeFrom (index + 1) text

def hand (s : Scratch) : Scratch := ⟨s.fmtBuffer, s.accesses ++ [.handed s.fmtBuffer]⟩

/-- `memset( fmtBuffer, '\0', .. )` -/
def clear (s : Scratch) : Scratch := ⟨List.replicate DEFAULT_BUFFER_SIZE 0, s.accesses⟩

/-- `formatDateTime` on a buffer that is not empty: `strftime` reads it and the text comes back. -/
def formatDateTime (s : Scratch) (text : ScratchText) : Scratch :=
  ⟨overwrite (List.replicate DEFAULT_BUFFER_SIZE 0) text.chars, s.hand.accesses⟩

end Scratch

/-! ## Words -/

inductive SpecialWord where
  | TID
  | PID
  | FILE
  | FUNC
  | LINE
  | DATE
  | TIME
  | LOGGER
  | LOGLEVEL
  deriving DecidableEq

/-- The words behind `%0{`, in the order they are tried. -/
def specialWords : List (List CharT × SpecialWord) := [
  (['T', 'I', 'D'].map Char.toNat, .TID),
  (['P', 'I', 'D'].map Char.toNat, .PID),
  (['F', 'I', 'L', 'E'].map Char.toNat, .FILE),
  (['F', 'U', 'N', 'C'].map Char.toNat, .FUNC),
  (['L', 'I', 'N', 'E'].map Char.toNat, .LINE),
  (['D', 'A', 'T', 'E'].map Char.toNat, .DATE),
  (['T', 'I', 'M', 'E'].map Char.toNat, .TIME),
  (['L', 'O', 'G', 'G', 'E', 'R'].map Char.toNat, .LOGGER),
  (['L', 'O', 'G', 'L', 'E', 'V', 'E', 'L'].map Char.toNat, .LOGLEVEL)]

inductive SpecWord where
  | U
  | plus
  | DT
  | ERR
  | HERR
  deriving DecidableEq

/-- The words behind `%k{`, in the order they are tried. -/
def specWords : List (List CharT × SpecWord) := [
  (['U'].map Char.toNat, .U),
  (['+'].map Char.toNat, .plus),
  (['D', 'T'].map Char.toNat, .DT),
  (['E', 'R', 'R'].map Char.toNat, .ERR),
  (['H', 'E', 'R', 'R'].map Char.toNat, .HERR)]

def DEFAULT_DATE_FORMAT : List CharT := ['%', 'Y', '-', '%', 'm', '-', '%', 'd'].map Char.toNat

def DEFAULT_TIME_FORMAT : List CharT := ['%', 'H', ':', '%', 'M', ':', '%', 'S'].map Char.toNat

/-- What a call does for the word behind `%0{`. -/
def special (env : EnvKind → ScratchText) (argCount : Int) (fmtSpec : FormatSpec) (s : Scratch) :
    Option SpecialWord → FormatSpec × Scratch
  | none => (fmtSpec, s)
  | some .TID => (fmtSpec, s.storeFrom 0 ((env .TID).chars ++ [0]))
  | some .PID => (fmtSpec, s.storeFrom 0 ((env .PID).chars ++ [0]))
  | some .FILE => (⟨argCount, { fmtSpec.flags with loggerFileName := true }⟩, s)
  | some .FUNC => (⟨argCount, { fmtSpec.flags with loggerFuncName := true }⟩, s)
  | some .LINE => (⟨argCount, { fmtSpec.flags with loggerLineNumber := true }⟩, s)
  | some .DATE =>
    ({ fmtSpec with flags := { fmtSpec.flags with datetime := true } },
      (s.storeFrom 0 DEFAULT_DATE_FORMAT).formatDateTime (env .DATE))
  | some .TIME =>
    ({ fmtSpec with flags := { fmtSpec.flags with datetime := true } },
      (s.storeFrom 0 DEFAULT_TIME_FORMAT).formatDateTime (env .TIME))
  | some .LOGGER => (⟨argCount, { fmtSpec.flags with loggerName := true }⟩, s)
  | some .LOGLEVEL => (⟨argCount, { fmtSpec.flags with loggerLogLevel := true }⟩, s)

/-- The flag that a word behind `%k{` sets. -/
def setFlag (fmtSpec : FormatSpec) : Option SpecWord → FormatSpec
  | none => fmtSpec
  | some .U => { fmtSpec with flags := { fmtSpec.flags with upperLetter := true } }
  | some .plus => { fmtSpec with flags := { fmtSpec.flags with plus := true } }
  | some .DT => { fmtSpec with flags := { fmtSpec.flags with datetime := true } }
  | some .ERR => { fmtSpec with flags := { fmtSpec.flags with errorText := true } }
  | some .HERR => { fmtSpec with flags := { fmtSpec.flags with errorHRESULT := true } }

/-! ## One call -/

def parseSpecialAt (env : EnvKind → ScratchText) (argCount : Int) (format : List CharT)
    (fmtSpec : FormatSpec) (s : Scratch) : Option (FormatSpec × Scratch) :=
  (choose format specialWords).map (special env argCount fmtSpec s)

/-- `while( (*format) && (*++format != '}') ) *extraBuffer++ = *format;` -/
def copyAt (s : Scratch) (extraBuffer : Nat) : List CharT → Option (Scratch × List CharT)
  | [] => none
  | c :: format =>
    if c = 0 then some (s, c :: format)
    else
      match format.head? with
      | none => none
      | some d =>
        if d = '\x7d'.toNat then some (s, format)
        else copyAt (s.store extraBuffer d) (extraBuffer + 1) format

def parseSpecAt (format : List CharT) (fmtSpec : FormatSpec) (s : Scratch) :
    Option (FormatSpec × Scratch × List CharT) := do
  let word ← choose format specWords
  let fmtSpec := setFlag fmtSpec word
  match word with
  | none | some .U | some .plus => some (fmtSpec, s, format)
  | some .DT =>
    let format := format.drop 2
    let c ← format.head?
    if c = ':'.toNat then
      let copied ← copyAt s 0 format
      some (fmtSpec, copied.1, copied.2)
    else some (fmtSpec, s, format)
  | some .ERR => some (fmtSpec, s, format.drop 3)
  | some .HERR => some (fmtSpec, s, format.drop 4)

/-- `while( (*format) && (*format != '}') ) ++format;` and one step more at the `}`. -/
def skipSpecAt (format : List CharT) : Option (List CharT) := do
  let skipped ← spanWhile (before '\x7d'.toNat) format
  let c ← skipped.2.head?
  some (if c ≠ 0 ∧ c = '\x7d'.toNat then skipped.2.drop 1 else skipped.2)

/-- The call from the `%` on, as `parseDirective` returns it. -/
def parseDirectiveAt (env : EnvKind → ScratchText) (argCount : Int) (fmtSpec : FormatSpec)
    (s : Scratch) (format : List CharT) : Option (FormatSpec × Scratch × Nat × List CharT) := do
  let c ← format.head?
  if c = 0 then some ({ fmtSpec with argIndex := -1 }, s, 0, format)
  else
    let format := format.drop 1
    let c ← format.head?
    if c = '%'.toNat then some ({ fmtSpec with argIndex := 0 }, s, 1, format.drop 1)
    else if isdigit c = false then some (fmtSpec, s, 0, format)
    else
      let number ← spanWhile isdigit format
      let fmtSpec := { fmtSpec with argIndex := toLong (min (digitsValue number.1) (2 ^ 32 - 1)) }
      let format := number.2
      let c ← format.head?
      if c ≠ '\x7b'.toNat then some (fmtSpec, s, 0, format)
      else
        let format := format.drop 1
        if fmtSpec.argIndex = 0 then
          let r ← parseSpecialAt env argCount format fmtSpec s
          let format ← skipSpecAt format
          some (r.1, r.2, 0, format)
        else
          let r ← parseSpecAt format fmtSpec s
          let format ← skipSpecAt r.2.2
          some (r.1, r.2.1, 0, format)

/-- What a call leaves in its reference parameters; the two pointers are rows of cells. -/
structure ParsedAt where
  fmtSpec : FormatSpec
  scratch : Scratch
  prefixText : List CharT
  prefixLength : Nat
  format : List CharT

def fmtParseAt (env : EnvKind → ScratchText) (argCount : Int) (fmtSpec : FormatSpec)
    (s : Scratch) (format : List CharT) : Option ParsedAt := do
  let literal ← spanWhile (before '%'.toNat) format
  let r ← parseDirectiveAt env argCount { fmtSpec with flags := .zero, argIndex := 0 } s literal.2
  some {
    fmtSpec := r.1
    scratch := r.2.1
    prefixText := format
    prefixLength := literal.1.length + r.2.2.1
    format := r.2.2.2 }

/-! ## Directives -/

/-- What stands behind a `%`: its number, and the format behind its opening brace. -/
structure Directive where
  number : Option Nat
  spec : Option (List CharT)
  deriving DecidableEq

/-- The directive at the start of a text (its `%` is already taken), how much of the `%` is literal
    text, and the format behind it. -/
def directiveAt (format : List CharT) : Directive × Nat × List CharT :=
  if startsWith format ['%'] then (⟨none, none⟩, 1, format.drop 1)
  else if isdigit (format.headD 0) then
    let k := digitsValue (format.takeWhile isdigit)
    let rest := format.dropWhile isdigit
    if startsWith rest ['\x7b'] then (⟨some k, some (rest.drop 1)⟩, 0, skipSpec (rest.drop 1))
    else (⟨some k, none⟩, 0, rest)
  else (⟨none, none⟩, 0, format)

/-- The number as `argIndex` has it. -/
def argIndexOf (k : Nat) : Int := toLong (min k (2 ^ 32 - 1))

/-- What a spec has stored in the scratch buffer. -/
def copied (spec : List CharT) : List CharT :=
  if startsWith spec ['D', 'T', ':'] then (copyText (spec.drop 3)).1 else []

/-- What a directive makes of the spec record and the scratch buffer. -/
def Directive.parse (env : EnvKind → ScratchText) (argCount : Int) (s : Scratch) (d : Directive) :
    FormatSpec × Scratch :=
  match d.number, d.spec with
  | none, _ => (⟨0, .zero⟩, s)
  | some k, none => (⟨argIndexOf k, .zero⟩, s)
  | some k, some spec =>
    if argIndexOf k = 0 then special env argCount ⟨0, .zero⟩ s (firstWord spec specialWords)
    else (setFlag ⟨argIndexOf k, .zero⟩ (firstWord spec specWords), s.storeFrom 0 (copied spec))

/-! ## A call on a NUL-terminated format -/

section Cells

variable {env : EnvKind → ScratchText} {argCount : Int} {fmtSpec : FormatSpec} {s : Scratch}
  {format : List CharT}

theorem specialWords_nulFree : ∀ entry ∈ specialWords, 0 ∉ entry.1 := by decide

theorem specWords_nulFree : ∀ entry ∈ specWords, 0 ∉ entry.1 := by decide

theorem parseSpecialAt_cells (format : List CharT) :
    parseSpecialAt env argCount (cells format) fmtSpec s =
      some (special env argCount fmtSpec s (firstWord format specialWords)) := by
  rw [parseSpecialAt, choose_cells format specialWords specialWords_nulFree, Option.map_some]

/-- The loop stores what `copyText` returns; it reads the NUL and stops there. -/
theorem copyAt_cells {c : CharT} (hc : c ≠ 0) (h : 0 ∉ format) (s : Scratch) (i : Nat) :
    copyAt s i (c :: cells format) =
      some (s.storeFrom i (copyText format).1, cells (copyText format).2) := by
  induction format generalizing c s i with
  | nil => simp [copyAt, copyText, hc, Scratch.storeFrom]
  | cons d format ih =>
    have hd : d ≠ 0 := fun h0 => h (h0 ▸ List.mem_cons_self ..)
    have hformat : 0 ∉ format := fun hmem => h (List.mem_cons_of_mem d hmem)
    rw [copyAt, if_neg hc, cells_cons, List.head?_cons, copyText]
    by_cases hstop : d = '\x7d'.toNat
    · simp only [if_pos hstop]
      rfl
    · simp only [if_neg hstop]
      exact ih hd hformat (s.store i d) (i + 1)

theorem skipSpecAt_cells (h : 0 ∉ format) :
    skipSpecAt (cells format) = some (cells (skipSpec format)) := by
  unfold skipSpecAt skipSpec
  rw [spanWhile_before _ h]
  cases hd : format.dropWhile (· != '\x7d'.toNat) with
  | nil => rfl
  | cons c rest =>
    simp [dropWhile_stop hd]

/-- A spec is skipped from anywhere in front of its closing brace. -/
theorem skipSpec_append {word : List CharT} (h : '\x7d'.toNat ∉ word) (rest : List CharT) :
    skipSpec (word ++ rest) = skipSpec rest := by
  have hpass : ∀ c ∈ word, (c != '\x7d'.toNat) = true := fun c hc => by
    rw [bne_iff_ne]
    rintro rfl
    exact h hc
  rw [skipSpec, List.dropWhile_append_of_pos hpass, skipSpec]

theorem copyText_skip (format : List CharT) : skipSpec (copyText format).2 = skipSpec format := by
  induction format with
  | nil => rfl
  | cons c format ih =>
    rw [copyText]
    by_cases hc : c = '\x7d'.toNat
    · rw [if_pos hc]
    · rw [if_neg hc]
      have hword : '\x7d'.toNat ∉ [c] := by
        rw [List.mem_singleton]
        exact fun h => hc h.symm
      exact ih.trans (skipSpec_append hword format).symm

/-- The words are told apart by their first letters. -/
theorem firstWord_DT (format : List CharT) :
    firstWord format specWords = some .DT ↔ startsWith format ['D', 'T'] = true := by
  rcases format with _ | ⟨c, _ | ⟨d, rest⟩⟩
  · simp [firstWord, specWords]
  · simp [firstWord, specWords]
    grind
  · simp [firstWord, specWords]
    grind

theorem copied_nil {format : List CharT} (h : firstWord format specWords ≠ some .DT) :
    copied format = [] := by
  refine if_neg fun hstart => h ((firstWord_DT format).mpr ?_)
  obtain ⟨rest, rfl⟩ := exists_of_startsWith hstart
  rfl

/-- A pointer that has gone over a word without a brace. -/
theorem drop_word {format word rest : List CharT} (h : 0 ∉ format) (hformat : format = word ++ rest)
    (hword : '\x7d'.toNat ∉ word) :
    (cells format).drop word.length = cells rest ∧ skipSpec rest = skipSpec format ∧ 0 ∉ rest := by
  subst hformat
  refine ⟨?_, (skipSpec_append hword rest).symm, fun hmem => h (List.mem_append_right word hmem)⟩
  rw [drop_cells (by simp), List.drop_left]

/-- Behind `DT`: the text behind a colon is copied. -/
theorem behindDT_cells {rest : List CharT} (hfree : 0 ∉ rest) (fmtSpec : FormatSpec)
    (s : Scratch) :
    ∃ left, (if rest.headD 0 = ':'.toNat then
          (copyAt s 0 (cells rest)).bind fun copied => some (fmtSpec, copied.1, copied.2)
        else some (fmtSpec, s, cells rest)) =
      some (fmtSpec, s.storeFrom 0 (copied (['D', 'T'].map Char.toNat ++ rest)), cells left) ∧
      skipSpec left = skipSpec rest ∧ 0 ∉ left := by
  cases rest with
  | nil => exact ⟨[], rfl, rfl, hfree⟩
  | cons c text =>
    by_cases hc : c = ':'.toNat
    · have hne : c ≠ 0 := by rw [hc]; decide
      have hcopied : copied (['D', 'T'].map Char.toNat ++ c :: text) = (copyText text).1 := by
        rw [hc]
        rfl
      have htext : 0 ∉ text := fun hmem => hfree (List.mem_cons_of_mem c hmem)
      have hcolon : '\x7d'.toNat ∉ [c] := by rw [hc]; decide
      refine ⟨(copyText text).2, ?_, ?_, fun hmem => htext ((copyText_suffix text).subset hmem)⟩
      · rw [List.headD_cons, if_pos hc, cells_cons, copyAt_cells hne htext s 0, hcopied]
        rfl
      · rw [copyText_skip]
        exact (skipSpec_append hcolon text).symm
    · have hcopied : copied (['D', 'T'].map Char.toNat ++ c :: text) = [] := by
        refine if_neg fun hstart => hc ?_
        exact Eq.symm (by simpa using hstart)
      refine ⟨c :: text, ?_, rfl, hfree⟩
      rw [List.headD_cons, if_neg hc, hcopied]
      rfl

/-- The general syntax: the flag of the word, the stores of the text behind `DT:`, and a pointer in
    front of the closing brace. -/
theorem parseSpecAt_cells (h : 0 ∉ format) (fmtSpec : FormatSpec) (s : Scratch) :
    ∃ rest, parseSpecAt (cells format) fmtSpec s =
        some (setFlag fmtSpec (firstWord format specWords), s.storeFrom 0 (copied format),
          cells rest) ∧ skipSpec rest = skipSpec format ∧ 0 ∉ rest := by
  rw [parseSpecAt, choose_cells format specWords specWords_nulFree]
  have hDT := firstWord_DT format
  cases hword : firstWord format specWords with
  | none =>
    have hcopied : copied format = [] := copied_nil (by simp [hword])
    exact ⟨format, by simp [hcopied, Scratch.storeFrom], rfl, h⟩
  | some word =>
    obtain ⟨letters, rest, hmem, hformat⟩ := firstWord_mem hword
    cases word with
    | U | plus =>
      have hcopied : copied format = [] := copied_nil (by simp [hword])
      exact ⟨format, by simp [hcopied, Scratch.storeFrom], rfl, h⟩
    | ERR | HERR =>
      have hcopied : copied format = [] := copied_nil (by simp [hword])
      simp only [specWords, List.mem_cons, Prod.mk.injEq, reduceCtorEq, and_false, and_true,
        List.not_mem_nil, or_false, false_or] at hmem
      subst hmem
      obtain ⟨hdrop, hskip, hfree⟩ := drop_word h hformat (by decide)
      refine ⟨rest, ?_, hskip, hfree⟩
      rw [← hdrop, hcopied]
      rfl
    | DT =>
      simp only [specWords, List.mem_cons, Prod.mk.injEq, reduceCtorEq, and_false, and_true,
        List.not_mem_nil, or_false, false_or] at hmem
      subst hmem
      obtain ⟨hdrop, hskip, hfree⟩ := drop_word h hformat (by decide)
      have hdrop : (cells format).drop 2 = cells rest := hdrop
      obtain ⟨left, hbehind, hleft, hleftFree⟩ :=
        behindDT_cells hfree (setFlag fmtSpec (some .DT)) s
      refine ⟨left, ?_, hleft.trans hskip, hleftFree⟩
      simp only [Option.bind_eq_bind, Option.bind_some, hdrop, head_cells]
      rw [hformat]
      exact hbehind

/-- One character of a text, tested as the code tests it. -/
theorem startsWith_one (format : List CharT) (w : Char) (hw : w.toNat ≠ 0) :
    startsWith format [w] = true ↔ format.headD 0 = w.toNat := by
  cases format with
  | nil => simpa using Ne.symm hw
  | cons c format => simpa using eq_comm

theorem drop_one_cells {w : Char} (hw : w.toNat ≠ 0) (h : format.headD 0 = w.toNat) :
    (cells format).drop 1 = cells (format.drop 1) := by
  cases format with
  | nil => exact absurd h.symm hw
  | cons c format => rfl

/-- **The call behind a `%`** does what the directive says. -/
theorem parseDirectiveAt_cells (h : 0 ∉ format) :
    parseDirectiveAt env argCount ⟨0, .zero⟩ s ('%'.toNat :: cells format) =
      some (((directiveAt format).1.parse env argCount s).1,
        ((directiveAt format).1.parse env argCount s).2, (directiveAt format).2.1,
        cells (directiveAt format).2.2) := by
  have hpercent := startsWith_one format '%' (by decide)
  unfold parseDirectiveAt directiveAt
  simp only [List.head?_cons, Option.bind_eq_bind, Option.bind_some, List.drop_succ_cons,
    List.drop_zero, head_cells]
  rw [if_neg (by decide)]
  by_cases hper : format.headD 0 = '%'.toNat
  · rw [if_pos hper, if_pos (hpercent.mpr hper), drop_one_cells (by decide) hper]
    rfl
  rw [if_neg hper, if_neg (fun hs => hper (hpercent.mp hs))]
  by_cases hdigit : isdigit (format.headD 0) = true
  · have hrest : 0 ∉ format.dropWhile isdigit :=
      fun hmem => h ((List.dropWhile_suffix isdigit).subset hmem)
    have hbrace := startsWith_one (format.dropWhile isdigit) '\x7b' (by decide)
    rw [if_neg (by rw [hdigit]; decide), if_pos hdigit, spanWhile_cells (by decide)]
    simp only [Option.bind_some, head_cells]
    by_cases hopen : (format.dropWhile isdigit).headD 0 = '\x7b'.toNat
    · have hspec : 0 ∉ (format.dropWhile isdigit).drop 1 :=
        fun hmem => hrest (List.mem_of_mem_drop hmem)
      rw [if_neg (not_not_intro hopen), if_pos (hbrace.mpr hopen),
        drop_one_cells (by decide) hopen]
      by_cases hzero : argIndexOf (digitsValue (format.takeWhile isdigit)) = 0
      · rw [parseSpecialAt_cells, skipSpecAt_cells hspec]
        simp only [Directive.parse]
        unfold argIndexOf at hzero ⊢
        simp only [hzero, if_true, Option.bind_some]
      · obtain ⟨rest, hparse, hskip, hfree⟩ := parseSpecAt_cells hspec
          ⟨argIndexOf (digitsValue (format.takeWhile isdigit)), .zero⟩ s
        simp only [Directive.parse, if_neg hzero]
        unfold argIndexOf at hzero hparse ⊢
        simp only [if_neg hzero, hparse, Option.bind_some, skipSpecAt_cells hfree, hskip]
    · rw [if_pos hopen, if_neg (fun hs => hopen (hbrace.mp hs))]
      rfl
  · rw [if_pos (by simpa using hdigit), if_neg hdigit]
    rfl

/-- **A call on a NUL-terminated format** reads no cell behind the NUL: it reports the end of the
    format, or does what the next directive says. -/
theorem fmtParseAt_cells (h : 0 ∉ format) :
    fmtParseAt env argCount fmtSpec s (cells format) =
      match format.dropWhile (· != '%'.toNat) with
      | [] => some {
          fmtSpec := ⟨-1, .zero⟩
          scratch := s
          prefixText := cells format
          prefixLength := format.length
          format := cells [] }
      | _ :: tail => some {
          fmtSpec := ((directiveAt tail).1.parse env argCount s).1
          scratch := ((directiveAt tail).1.parse env argCount s).2
          prefixText := cells format
          prefixLength := (format.takeWhile (· != '%'.toNat)).length + (directiveAt tail).2.1
          format := cells (directiveAt tail).2.2 } := by
  have hsplit := List.takeWhile_append_dropWhile (p := (· != '%'.toNat)) (l := format)
  rw [fmtParseAt, spanWhile_before _ h]
  cases hd : format.dropWhile (· != '%'.toNat) with
  | nil =>
    rw [hd, List.append_nil] at hsplit
    simp only [Option.bind_eq_bind, Option.bind_some, hsplit]
    rfl
  | cons c tail =>
    have hc : c = '%'.toNat := dropWhile_stop hd
    have htail : 0 ∉ tail := fun hmem => h <| by
      rw [← hsplit, hd]
      exact List.mem_append_right _ (List.mem_cons_of_mem c hmem)
    subst hc
    simp only [Option.bind_eq_bind, Option.bind_some, cells_cons, parseDirectiveAt_cells htail]

end Cells

end IMonPlatform.Format
