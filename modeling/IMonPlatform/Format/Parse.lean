import Mathlib.Algebra.Ring.Nat
import Mathlib.Data.List.TakeWhile

/-!
# `fmtParse`: one directive of a format string

A format string is walked by a pointer; here the pointer is the list of the characters that are
left, so its end is the terminating NUL.  One call takes the literal text up to the next `%` and
the directive behind it.  The call gets the spec record and the scratch buffer that all directives
share, and hands over the literal text as a slice of the format: for `%%` the slice is one longer,
so that it ends with the first `%`.

* `FormatSpec`, `Flags` — the record; `flags = 0` resets every flag.
* `strtoul` — saturates; `toLong` — the assignment to `argIndex`.
* `parseSpecial` — `%0{..}`; `parseSpec` — `%k{..}`, which copies the text behind `DT:` into the
  scratch buffer.
* `fmtParse` — one call; `none` when it writes behind the scratch buffer.
* `fmtParse_rest` — a call goes forward until the end of the format is reported.
-/

set_option autoImplicit false

namespace IMonPlatform.Format

/-! ## Characters -/

/-- A `char` or `wchar_t`, as its number. -/
abbrev CharT := Nat

/-- A C string: its characters, without the NUL. -/
structure CText where
  chars : List CharT
  nulFree : 0 ∉ chars

def DEFAULT_BUFFER_SIZE : Nat := 256

/-- A text that was written to the scratch buffer by a library function. -/
structure ScratchText extends CText where
  fits : chars.length < DEFAULT_BUFFER_SIZE

/-- `format[0] == w[0] && format[1] == w[1] && ..` -/
def startsWith (format : List CharT) (word : List Char) : Bool :=
  (word.map Char.toNat).isPrefixOf format

@[simp] theorem startsWith_nil (format : List CharT) : startsWith format [] = true := by
  cases format <;> rfl

@[simp] theorem startsWith_end (w : Char) (ws : List Char) : startsWith [] (w :: ws) = false := rfl

@[simp] theorem startsWith_cons (c : CharT) (format : List CharT) (w : Char) (ws : List Char) :
    startsWith (c :: format) (w :: ws) = (w.toNat == c && startsWith format ws) := rfl

def isdigit (c : CharT) : Bool := '0'.toNat ≤ c && c ≤ '9'.toNat

/-- The characters up to the first NUL of a buffer. -/
def cstr (cells : List CharT) : List CharT := cells.takeWhile (· != 0)

/-- Characters copied to the start of a buffer. -/
def overwrite (cells text : List CharT) : List CharT := text ++ cells.drop text.length

/-! ## The spec record -/

structure Flags where
  upperLetter : Bool
  plus : Bool
  datetime : Bool
  errorText : Bool
  errorHRESULT : Bool
  loggerFuncName : Bool
  loggerFileName : Bool
  loggerLineNumber : Bool
  loggerName : Bool
  loggerLogLevel : Bool
  deriving DecidableEq

/-- `flags = 0`. -/
def Flags.zero : Flags :=
  ⟨false, false, false, false, false, false, false, false, false, false⟩

structure FormatSpec where
  argIndex : Int
  flags : Flags
  deriving DecidableEq

/-! ## Numbers -/

/-- The value of a row of digits. -/
def digitsValue (digits : List CharT) : Nat :=
  digits.foldl (fun v c => 10 * v + (c - '0'.toNat)) 0

/-- `strtoul` at a digit: `ULONG_MAX` for a value that is too large. -/
def strtoul (format : List CharT) : Nat × List CharT :=
  (min (digitsValue (format.takeWhile isdigit)) (2 ^ 32 - 1), format.dropWhile isdigit)

/-- An `unsigned long` assigned to a `long`. -/
def toLong (v : Nat) : Int := Int.bmod v (2 ^ 32)

/-! ## Directives -/

/-- The directives `%0{..}` that take no argument. -/
inductive EnvKind where
  | TID
  | PID
  | DATE
  | TIME
  deriving DecidableEq

/-- The special syntax `%0{..}`; the logger's words refer to the last argument. -/
def parseSpecial (env : EnvKind → ScratchText) (argCount : Int) (format : List CharT)
    (fmtSpec : FormatSpec) (fmtBuffer : List CharT) : FormatSpec × List CharT :=
  if startsWith format ['T', 'I', 'D'] then
    (fmtSpec, overwrite fmtBuffer (env .TID).chars)
  else if startsWith format ['P', 'I', 'D'] then
    (fmtSpec, overwrite fmtBuffer (env .PID).chars)
  else if startsWith format ['F', 'I', 'L', 'E'] then
    (⟨argCount, { fmtSpec.flags with loggerFileName := true }⟩, fmtBuffer)
  else if startsWith format ['F', 'U', 'N', 'C'] then
    (⟨argCount, { fmtSpec.flags with loggerFuncName := true }⟩, fmtBuffer)
  else if startsWith format ['L', 'I', 'N', 'E'] then
    (⟨argCount, { fmtSpec.flags with loggerLineNumber := true }⟩, fmtBuffer)
  else if startsWith format ['D', 'A', 'T', 'E'] then
    ({ fmtSpec with flags := { fmtSpec.flags with datetime := true } },
      overwrite fmtBuffer (env .DATE).chars)
  else if startsWith format ['T', 'I', 'M', 'E'] then
    ({ fmtSpec with flags := { fmtSpec.flags with datetime := true } },
      overwrite fmtBuffer (env .TIME).chars)
  else if startsWith format ['L', 'O', 'G', 'G', 'E', 'R'] then
    (⟨argCount, { fmtSpec.flags with loggerName := true }⟩, fmtBuffer)
  else if startsWith format ['L', 'O', 'G', 'L', 'E', 'V', 'E', 'L'] then
    (⟨argCount, { fmtSpec.flags with loggerLogLevel := true }⟩, fmtBuffer)
  else (fmtSpec, fmtBuffer)

/-- The loop behind `DT:`, which stores every character up to `}`; without a `}` it stores the NUL
    as well. -/
def copyText : List CharT → List CharT × List CharT
  | [] => ([0], [])
  | c :: format =>
    if c = '}'.toNat then ([], c :: format)
    else (c :: (copyText format).1, (copyText format).2)

/-- The general syntax `%k{..}`. -/
def parseSpec (format : List CharT) (fmtSpec : FormatSpec) (fmtBuffer : List CharT) :
    Option (FormatSpec × List CharT × List CharT) :=
  if startsWith format ['U'] then
    some ({ fmtSpec with flags := { fmtSpec.flags with upperLetter := true } }, fmtBuffer, format)
  else if startsWith format ['+'] then
    some ({ fmtSpec with flags := { fmtSpec.flags with plus := true } }, fmtBuffer, format)
  else if startsWith format ['D', 'T'] then
    if startsWith (format.drop 2) [':'] then
      if (copyText (format.drop 3)).1.length ≤ fmtBuffer.length then
        some ({ fmtSpec with flags := { fmtSpec.flags with datetime := true } },
          overwrite fmtBuffer (copyText (format.drop 3)).1, (copyText (format.drop 3)).2)
      else none
    else
      some ({ fmtSpec with flags := { fmtSpec.flags with datetime := true } }, fmtBuffer,
        format.drop 2)
  else if startsWith format ['E', 'R', 'R'] then
    some ({ fmtSpec with flags := { fmtSpec.flags with errorText := true } }, fmtBuffer,
      format.drop 3)
  else if startsWith format ['H', 'E', 'R', 'R'] then
    some ({ fmtSpec with flags := { fmtSpec.flags with errorHRESULT := true } }, fmtBuffer,
      format.drop 4)
  else some (fmtSpec, fmtBuffer, format)

/-- Behind the next `}`, or at the end. -/
def skipSpec (format : List CharT) : List CharT := (format.dropWhile (· != '}'.toNat)).drop 1

/-- What a call leaves in its reference parameters. -/
structure Parsed where
  fmtSpec : FormatSpec
  fmtBuffer : List CharT
  /-- The pointer `prefix`; the slice is `prefixLength` characters from here. -/
  prefixText : List CharT
  /-- A `long` in the source; no text of `2^31` characters fits into the address space of the Win32
      builds. -/
  prefixLength : Nat
  format : List CharT

/-- The call from the `%` on: the spec, the scratch buffer, how much of the `%` belongs to the
    slice, and where the pointer stands. -/
def parseDirective (env : EnvKind → ScratchText) (argCount : Int) (fmtSpec : FormatSpec)
    (fmtBuffer : List CharT) : List CharT → Option (FormatSpec × List CharT × Nat × List CharT)
  | [] => some ({ fmtSpec with argIndex := -1 }, fmtBuffer, 0, [])
  | _ :: format =>
    if startsWith format ['%'] then
      some ({ fmtSpec with argIndex := 0 }, fmtBuffer, 1, format.drop 1)
    else if isdigit (format.headD 0) then
      let number := strtoul format
      let fmtSpec := { fmtSpec with argIndex := toLong number.1 }
      if startsWith number.2 ['\x7b'] then
        if fmtSpec.argIndex = 0 then
          let special := parseSpecial env argCount (number.2.drop 1) fmtSpec fmtBuffer
          some (special.1, special.2, 0, skipSpec (number.2.drop 1))
        else
          match parseSpec (number.2.drop 1) fmtSpec fmtBuffer with
          | none => none
          | some (fmtSpec, fmtBuffer, format) => some (fmtSpec, fmtBuffer, 0, skipSpec format)
      else some (fmtSpec, fmtBuffer, 0, number.2)
    else some (fmtSpec, fmtBuffer, 0, format)

def fmtParse (env : EnvKind → ScratchText) (argCount : Int) (fmtSpec : FormatSpec)
    (fmtBuffer format : List CharT) : Option Parsed :=
  match parseDirective env argCount { fmtSpec with flags := .zero, argIndex := 0 } fmtBuffer
      (format.dropWhile (· != '%'.toNat)) with
  | none => none
  | some (fmtSpec, fmtBuffer, more, rest) => some {
      fmtSpec := fmtSpec
      fmtBuffer := fmtBuffer
      prefixText := format
      prefixLength := (format.takeWhile (· != '%'.toNat)).length + more
      format := rest }

/-! ## The pointer goes forward -/

theorem copyText_suffix : ∀ format : List CharT, (copyText format).2 <:+ format
  | [] => List.suffix_refl _
  | c :: format => by
    unfold copyText
    split
    · exact List.suffix_refl _
    · exact (copyText_suffix format).trans (List.suffix_cons c format)

theorem skipSpec_suffix (format : List CharT) : skipSpec format <:+ format :=
  (List.drop_suffix 1 _).trans (List.dropWhile_suffix _)

theorem parseSpec_suffix {format fmtBuffer fmtBuffer' rest : List CharT}
    {fmtSpec fmtSpec' : FormatSpec}
    (h : parseSpec format fmtSpec fmtBuffer = some (fmtSpec', fmtBuffer', rest)) :
    rest <:+ format := by
  unfold parseSpec at h
  split at h
  · cases h
    exact List.suffix_refl _
  split at h
  · cases h
    exact List.suffix_refl _
  split at h
  · split at h
    · split at h <;> cases h
      exact (copyText_suffix _).trans (List.drop_suffix 3 format)
    · cases h
      exact List.drop_suffix 2 format
  split at h
  · cases h
    exact List.drop_suffix 3 format
  split at h <;> cases h
  · exact List.drop_suffix 4 format
  · exact List.suffix_refl _

theorem strtoul_suffix (format : List CharT) : (strtoul format).2 <:+ format :=
  List.dropWhile_suffix _

/-- At a `%` the pointer goes forward by at least that character. -/
theorem parseDirective_suffix {env : EnvKind → ScratchText} {argCount : Int}
    {fmtSpec fmtSpec' : FormatSpec} {fmtBuffer fmtBuffer' format rest : List CharT} {c : CharT}
    {more : Nat} (h : parseDirective env argCount fmtSpec fmtBuffer (c :: format) =
      some (fmtSpec', fmtBuffer', more, rest)) : rest <:+ format := by
  have hdrop := (List.drop_suffix 1 _).trans (strtoul_suffix format)
  simp only [parseDirective] at h
  split at h
  · cases h
    exact List.drop_suffix 1 format
  split at h
  · split at h
    · split at h
      · cases h
        exact (skipSpec_suffix _).trans hdrop
      · split at h
        · cases h
        · rename_i hspec
          cases h
          exact (skipSpec_suffix _).trans ((parseSpec_suffix hspec).trans hdrop)
    · simp only [Option.some.injEq, Prod.mk.injEq] at h
      rw [← h.2.2.2]
      exact strtoul_suffix format
  · cases h
    exact List.suffix_refl _

/-- **A call goes forward**: it reports the end of the format, or the rest is shorter. -/
theorem fmtParse_rest {env : EnvKind → ScratchText} {argCount : Int} {fmtSpec : FormatSpec}
    {fmtBuffer format : List CharT} {p : Parsed}
    (h : fmtParse env argCount fmtSpec fmtBuffer format = some p) :
    p.prefixText = format ∧ p.format <:+ format ∧
      (p.fmtSpec.argIndex < 0 ∨ p.format.length < format.length) := by
  unfold fmtParse at h
  split at h
  · cases h
  · rename_i fmtSpec' fmtBuffer' more rest hdir
    cases h
    refine ⟨rfl, ?_⟩
    have hsuffix := List.dropWhile_suffix (l := format) (· != '%'.toNat)
    cases hd : format.dropWhile (· != '%'.toNat) with
    | nil =>
      rw [hd] at hdir
      cases hdir
      refine ⟨List.nil_suffix, .inl ?_⟩
      show (-1 : Int) < 0
      decide
    | cons c tail =>
      rw [hd] at hdir hsuffix
      have hrest := parseDirective_suffix hdir
      have htail := hrest.length_le
      have hlen := hsuffix.length_le
      rw [List.length_cons] at hlen
      refine ⟨hrest.trans ((List.suffix_cons c tail).trans hsuffix), .inr ?_⟩
      show rest.length < format.length
      omega

end IMonPlatform.Format
