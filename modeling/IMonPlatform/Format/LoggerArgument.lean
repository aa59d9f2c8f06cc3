import IMonPlatform.Format.Integer
import IMonPlatform.Format.Reading

/-!
# The hidden argument of the logger's `tsFormat`

`format_internal_logger` puts the logger's tuple behind the `n` arguments and calls `doFormat` with
`n + 1`, so that the special words `%0{FILE}` and its like can name it.  The range check of `doFormat`
is made with the same `n + 1`.

* `TyTpLoggerType` — the tuple, with the overload of `formatValue` that renders it.
* `LoggerArgs` — what the logger's `tsFormat` is given; `plain` and `logger` are the two calls.
* `directiveText_logger` — a directive that names one of the `n` arguments renders the same.
* `logger_agrees_iff` — on a format without `%0` the two agree, and report an index above `n`,
  exactly if the first such index is neither `n + 1` nor too large for a `long`.
-/

set_option autoImplicit false

namespace IMonPlatform.Format

open CString

variable {Arg : Type}

/-! ## The tuple -/

/-- The fields of the tuple for the character type of the renderer. -/
structure TyTpLoggerType where
  fileName : CText
  funcName : CText
  loggerName : CText
  logLevel : CText
  lineNumber : Fin (2 ^ 32)

def unknownLoggerType : CText :=
  ⟨['U', 'n', 'k', 'n', 'o', 'w', 'n', ' ', 'L', 'o', 'g', 'g', 'e', 'r', ' ', 'T', 'y', 'p',
    'e'].map Char.toNat, by decide⟩

namespace TyTpLoggerType

variable (tp : TyTpLoggerType)

/-- `get<8>()`, an `unsigned int`. -/
def line : IntegerValue where
  type := .unsignedInt
  value := tp.lineNumber.val
  inRange := by
    have hlt := tp.lineNumber.isLt
    show (0 : Int) ≤ tp.lineNumber.val ∧ (tp.lineNumber.val : Int) < 2 ^ 32
    omega

/-- What `formatNumber` leaves from its first digit on. -/
def lineText (flags : Flags) : CText where
  chars := (renderNumber flags tp.line).getD []
  nulFree := by
    unfold renderNumber
    cases formatNumber flags tp.line with
    | none => exact List.not_mem_nil
    | some b => exact cstr_nulFree _

/-- `formatValue` for the tuple. -/
def formatValue (flags : Flags) : CText :=
  if flags.loggerFileName then tp.fileName
  else if flags.loggerFuncName then tp.funcName
  else if flags.loggerName then tp.loggerName
  else if flags.loggerLogLevel then tp.logLevel
  else if flags.loggerLineNumber then tp.lineText flags
  else unknownLoggerType

/-- A word behind `%k{` asks for none of the fields. -/
theorem formatValue_setFlag (k : Int) (word : Option SpecWord) :
    tp.formatValue (setFlag ⟨k, .zero⟩ word).flags = unknownLoggerType := by
  rcases word with _ | word
  · rfl
  · cases word <;> rfl

end TyTpLoggerType

/-! ## The two calls -/

/-- What the logger's `tsFormat` is given; there is an overload for each positive number of
arguments. -/
structure LoggerArgs (Arg : Type) where
  plain : FormatArgs Arg
  tpLoggerType : TyTpLoggerType
  nonempty : plain.args ≠ []
  enlarged_lt : plain.args.length + 1 < 2 ^ 31

/-- `format_internal_logger`: `args[n + 1] = { arg0, .., tpLoggerType }` and the count `n + 1`. -/
def LoggerArgs.logger (l : LoggerArgs Arg) : FormatArgs (Arg ⊕ TyTpLoggerType) where
  formatValue
    | .inl value => l.plain.formatValue value
    | .inr tp => fun flags _ => tp.formatValue flags
  testsDatetime
    | .inl value => l.plain.testsDatetime value
    | .inr _ => false
  env := l.plain.env
  args := l.plain.args.map .inl ++ [.inr l.tpLoggerType]
  argCount_lt := by simpa using l.enlarged_lt

/-! ## One directive -/

section Directives

variable (l : LoggerArgs Arg)

theorem logger_length : l.logger.args.length = l.plain.args.length + 1 := by
  simp [LoggerArgs.logger]

/-- Only `%0{..}` looks at the argument count. -/
theorem parse_argCount (env : EnvKind → ScratchText) (n n' : Int) (s : Scratch) {d : Directive}
    (h : ∀ k ∈ d.number, argIndexOf k ≠ 0) : d.parse env n s = d.parse env n' s := by
  obtain ⟨number, spec⟩ := d
  cases number with
  | none => rfl
  | some k =>
    cases spec with
    | none => rfl
    | some spec =>
      have hk : argIndexOf k ≠ 0 := h k rfl
      simp only [Directive.parse, if_neg hk]

/-- The value of one of the `n` arguments. -/
theorem valueText_logger {fmtSpec : FormatSpec} (h : fmtSpec.argIndex ≤ l.plain.args.length)
    (fmtBuffer : List CharT) :
    l.logger.valueText fmtSpec fmtBuffer = l.plain.valueText fmtSpec fmtBuffer := by
  unfold FormatArgs.valueText
  by_cases hpos : fmtSpec.argIndex ≤ 0
  · rw [if_pos hpos, if_pos hpos]
  · have hlt : (fmtSpec.argIndex - 1).toNat < l.plain.args.length := by omega
    have hget : l.logger.args[(fmtSpec.argIndex - 1).toNat]? =
        some (.inl l.plain.args[(fmtSpec.argIndex - 1).toNat]) := by
      show (l.plain.args.map Sum.inl ++ [.inr l.tpLoggerType])[(fmtSpec.argIndex - 1).toNat]? = _
      rw [List.getElem?_append_left (by simpa using hlt), List.getElem?_map,
        List.getElem?_eq_getElem hlt, Option.map_some]
    rw [if_neg hpos, if_neg hpos, hget, List.getElem?_eq_getElem hlt]
    rfl

theorem directiveText_logger {d : Directive} (hzero : ∀ k ∈ d.number, k ≠ 0)
    (hrange : ∀ k ∈ d.number, k ≤ l.plain.args.length) (round : Nat) :
    l.logger.directiveText round d = l.plain.directiveText round d := by
  have hindex : ∀ k ∈ d.number, argIndexOf k ≠ 0 := by
    intro k hk
    have hpos := hzero k hk
    have hle := hrange k hk
    have hlt := l.plain.argCount_lt
    rw [argIndexOf_small (by omega)]
    omega
  have hlow := parse_inRange (l.plain.env round) l.plain.argCount_lt .blank hrange
  unfold FormatArgs.directiveText
  rw [show d.parse (l.logger.env round) l.logger.args.length .blank =
    d.parse (l.plain.env round) l.plain.args.length .blank from parse_argCount _ _ _ _ hindex]
  exact valueText_logger l hlow.2 _

/-- A directive that names the hidden argument. -/
theorem directiveText_hidden {d : Directive} (hnumber : d.number = some (l.plain.args.length + 1))
    (round : Nat) : l.logger.directiveText round d = unknownLoggerType.chars := by
  have hlt := l.enlarged_lt
  have hsmall : argIndexOf (l.plain.args.length + 1) = (l.plain.args.length + 1 : Nat) :=
    argIndexOf_small hlt
  have hne : argIndexOf (l.plain.args.length + 1) ≠ 0 := by omega
  have hflags : ∃ word, (d.parse (l.logger.env round) l.logger.args.length .blank).1 =
      setFlag ⟨(l.plain.args.length + 1 : Nat), .zero⟩ word := by
    cases hspec : d.spec with
    | none =>
      refine ⟨none, ?_⟩
      simp only [Directive.parse, hnumber, hspec, hsmall]
      rfl
    | some spec =>
      refine ⟨firstWord spec specWords, ?_⟩
      simp only [Directive.parse, hnumber, hspec, if_neg hne]
      rw [hsmall]
  obtain ⟨word, hword⟩ := hflags
  have hpos : ¬ ((l.plain.args.length + 1 : Nat) : Int) ≤ 0 := by omega
  have hindex : (((l.plain.args.length + 1 : Nat) : Int) - 1).toNat = l.plain.args.length := by
    omega
  have hget : l.logger.args[l.plain.args.length]? = some (.inr l.tpLoggerType) := by
    simp [LoggerArgs.logger]
  unfold FormatArgs.directiveText FormatArgs.valueText
  rw [hword, setFlag_argIndex]
  dsimp only
  rw [if_neg (by omega), if_neg hpos, hindex, hget, List.nil_append]
  exact congrArg CText.chars (l.tpLoggerType.formatValue_setFlag _ word)

end Directives

/-! ## The two readings -/

section Readings

variable (l : LoggerArgs Arg)

/-- A format without `%0`. -/
def NoZero (format : List CharT) : Prop := 0 ∉ formatNumbers format

theorem NoZero.next {format rest : List CharT} {d : Directive} (h : NoZero format)
    (hnext : nextDirective format = some (d, rest)) :
    (∀ k ∈ d.number, k ≠ 0) ∧ NoZero rest := by
  have hcons : formatNumbers format = d.number.toList ++ formatNumbers rest := by
    rw [formatNumbers, formatDirectives_next hnext]
    cases hnumber : d.number with
    | none => rw [List.filterMap_cons_none hnumber]; rfl
    | some k => rw [List.filterMap_cons_some hnumber]; rfl
  unfold NoZero at h ⊢
  rw [hcons, List.mem_append, not_or] at h
  refine ⟨fun k hk hzero => h.1 ?_, h.2⟩
  rw [hk, hzero]
  exact List.mem_singleton_self 0

/-- Unless the hidden argument is named first among the numbers above `n`, the readings agree. -/
theorem reading_logger (bound : Nat) : ∀ (round : Nat) (format : List CharT),
    NoZero format → firstBad l.plain.args.length format ≠ some (l.plain.args.length + 1) →
    l.logger.reading parsedPercent bound round format =
      l.plain.reading parsedPercent bound round format := by
  induction bound with
  | zero =>
    intro round format _ _
    rfl
  | succ bound ih =>
    intro round format hzero hbad
    cases hd : format.dropWhile (· != '%'.toNat) with
    | nil => rw [reading_end _ _ _ _ hd, reading_end _ _ _ _ hd]
    | cons c tail =>
      have hnext := nextDirective_eq hd
      obtain ⟨hpos, hzero'⟩ := hzero.next hnext
      have hlength := logger_length l
      by_cases hrange : ∀ k ∈ (directiveAt tail).1.number, k ≤ l.plain.args.length
      · have hrange' : ∀ k ∈ (directiveAt tail).1.number, k ≤ l.logger.args.length := by
          intro k hk
          have := hrange k hk
          omega
        rw [firstBad_taken hnext hrange] at hbad
        rw [reading_taken _ _ _ _ hd hrange, reading_taken _ _ _ _ hd hrange',
          directiveText_logger l hpos hrange, ih (round + 1) _ hzero' hbad]
      · obtain ⟨k, hnumber, hk⟩ := number_of_not_le hrange
        rw [firstBad_found hnext hnumber hk] at hbad
        have hk' : l.logger.args.length < k := by
          have hne : k ≠ l.plain.args.length + 1 := fun heq => hbad (congrArg some heq)
          omega
        rw [reading_bad _ _ _ _ hd hnumber hk, reading_bad _ _ _ _ hd hnumber hk']

/-- If it is named first, the logger renders it and what stands in front of it. -/
theorem reading_hidden (bound : Nat) : ∀ (round : Nat) (format : List CharT),
    NoZero format → firstBad l.plain.args.length format = some (l.plain.args.length + 1) →
    format.length < bound →
    (l.plain.reading parsedPercent bound round format).text.length <
      (l.logger.reading parsedPercent bound round format).text.length := by
  induction bound with
  | zero =>
    intro round format _ _ hlt
    omega
  | succ bound ih =>
    intro round format hzero hbad hlt
    cases hd : format.dropWhile (· != '%'.toNat) with
    | nil =>
      have hnext : nextDirective format = none := by rw [nextDirective, hd]
      rw [firstBad_end _ hnext] at hbad
      cases hbad
    | cons c tail =>
      have hnext := nextDirective_eq hd
      obtain ⟨hpos, hzero'⟩ := hzero.next hnext
      have hshort := (nextDirective_rest hnext).2
      have hlength := logger_length l
      have hlong := l.enlarged_lt
      by_cases hrange : ∀ k ∈ (directiveAt tail).1.number, k ≤ l.plain.args.length
      · have hrange' : ∀ k ∈ (directiveAt tail).1.number, k ≤ l.logger.args.length := by
          intro k hk
          have := hrange k hk
          omega
        rw [firstBad_taken hnext hrange] at hbad
        have hmore := ih (round + 1) _ hzero' hbad (by omega)
        rw [reading_taken _ _ _ _ hd hrange, reading_taken _ _ _ _ hd hrange',
          directiveText_logger l hpos hrange]
        simp only [List.length_append]
        omega
      · obtain ⟨k, hnumber, hk⟩ := number_of_not_le hrange
        rw [firstBad_found hnext hnumber hk] at hbad
        cases hbad
        have hrange' : ∀ k ∈ (directiveAt tail).1.number, k ≤ l.logger.args.length := by
          rw [hnumber]
          intro k hk
          cases hk
          omega
        have hname : 0 < unknownLoggerType.chars.length := by decide
        rw [reading_bad _ _ _ _ hd hnumber hk, if_pos hlong,
          reading_taken _ _ _ _ hd hrange', directiveText_hidden l hnumber]
        simp only [List.length_append, List.length_nil]
        omega

end Readings

/-! ## Agreement -/

/-- `tsFormat( tpLoggerType, format, args )` gives the text of `tsFormat( format, args )`, fails
exactly if that fails, and both fail if an index is above `n`. -/
def AgreesWithPlain (l : LoggerArgs Arg) (format : CText) : Prop :=
  ∃ run run', l.plain.call.doFormatAt (format.chars.length + 1) (cells format.chars) [] = some run ∧
    l.logger.call.doFormatAt (format.chars.length + 1) (cells format.chars) [] = some run' ∧
    run'.last.out = run.last.out ∧ (run'.result = none ↔ run.result = none) ∧
    ((∃ k ∈ formatNumbers format.chars, l.plain.args.length < k) →
      run.result = none ∧ run'.result = none)

theorem exists_bad_iff (n : Nat) (format : List CharT) :
    (∃ k ∈ formatNumbers format, n < k) ↔ ∃ k, firstBad n format = some k := by
  rw [firstBad, ← Option.isSome_iff_exists, List.find?_isSome]
  simp

/-- **The logger's `tsFormat` agrees with the plain one** on a format without `%0` exactly if the
first index above `n`, where there is one, is neither `n + 1` nor at least `2^31`. -/
theorem logger_agrees_iff (l : LoggerArgs Arg) (format : CText)
    (h : 0 ∉ formatNumbers format.chars) :
    AgreesWithPlain l format ↔
      ∀ k, (formatNumbers format.chars).find? (fun k => decide (l.plain.args.length < k)) = some k →
        k ≠ l.plain.args.length + 1 ∧ k < 2 ^ 31 := by
  change _ ↔ ∀ k, firstBad l.plain.args.length format.chars = some k → _
  obtain ⟨last, hrun, hout⟩ := doFormat_reading l.plain format []
  obtain ⟨last', hrun', hout'⟩ := doFormat_reading l.logger format []
  obtain ⟨run, hloop, hresult, -⟩ := loopAt_result l.plain.call format []
  have hplain : run = ⟨(l.plain.read parsedPercent format.chars).count, last⟩ :=
    Option.some.inj ((hloop 0).symm.trans hrun)
  rw [hplain] at hresult
  constructor
  · rintro ⟨run₁, run₂, h₁, h₂, htext, -, hboth⟩ k hk
    cases Option.some.inj (hrun.symm.trans h₁)
    cases Option.some.inj (hrun'.symm.trans h₂)
    rw [hout, hout', List.nil_append, List.nil_append] at htext
    constructor
    · rintro rfl
      have hlt := reading_hidden l (format.chars.length + 1) 0 format.chars h hk
        (Nat.lt_succ_self _)
      unfold FormatArgs.read at htext
      rw [htext] at hlt
      exact Nat.lt_irrefl _ hlt
    · obtain ⟨k', hk', hlong⟩ := hresult.mp (hboth ((exists_bad_iff _ _).mpr ⟨k, hk⟩)).1
      cases hk.symm.trans hk'
      exact hlong
  · intro hgood
    have heq : l.logger.read parsedPercent format.chars = l.plain.read parsedPercent format.chars :=
      reading_logger l _ 0 format.chars h fun hk => (hgood _ hk).1 rfl
    rw [heq] at hrun' hout'
    refine ⟨_, _, hrun, hrun', hout'.trans hout.symm, Iff.rfl, fun hbad => ?_⟩
    obtain ⟨k, hk⟩ := (exists_bad_iff _ _).mp hbad
    have hnone := hresult.mpr ⟨k, hk, (hgood k hk).2⟩
    exact ⟨hnone, hnone⟩

/-- The argument, in the function `f` of the file `c`. -/
def loggerWithOne : LoggerArgs Unit where
  plain := oneArgument
  tpLoggerType := ⟨⟨['c'.toNat], by decide⟩, ⟨['f'.toNat], by decide⟩, ⟨['r'.toNat], by decide⟩,
    ⟨['w'.toNat], by decide⟩, 7⟩
  nonempty := by decide
  enlarged_lt := by decide

/-- `%1 %3` is an error in both. -/
theorem index_three_agrees :
    AgreesWithPlain loggerWithOne ⟨['%', '1', ' ', '%', '3'].map Char.toNat, by decide⟩ := by
  refine (logger_agrees_iff loggerWithOne ⟨['%', '1', ' ', '%', '3'].map Char.toNat, by decide⟩
    (by decide)).mpr ?_
  intro k hk
  have hthree : some k = some 3 := hk.symm.trans (by decide)
  cases hthree
  decide

/-- `%2` is an error in the plain `tsFormat` and names the hidden argument in the logger's. -/
theorem index_two_differs :
    0 ∉ formatNumbers ['%'.toNat, '2'.toNat] ∧
      ¬ AgreesWithPlain loggerWithOne ⟨['%'.toNat, '2'.toNat], by decide⟩ := by
  refine ⟨by decide, ?_⟩
  rintro ⟨run, run', hrun, hrun', htext, -⟩
  have hplain : (loggerWithOne.plain.call.doFormatAt 3 (cells ['%'.toNat, '2'.toNat]) []).map
      (fun run => run.last.out) = some [] := by decide
  have hlogger : (loggerWithOne.logger.call.doFormatAt 3 (cells ['%'.toNat, '2'.toNat]) []).map
      (fun run => run.last.out) = some unknownLoggerType.chars := by decide
  have hrun : loggerWithOne.plain.call.doFormatAt 3 (cells ['%'.toNat, '2'.toNat]) [] = some run :=
    hrun
  have hrun' : loggerWithOne.logger.call.doFormatAt 3 (cells ['%'.toNat, '2'.toNat]) [] =
      some run' := hrun'
  rw [hrun, Option.map_some] at hplain
  rw [hrun', Option.map_some, htext] at hlogger
  exact absurd (hplain.symm.trans hlogger) (by decide)

end IMonPlatform.Format
