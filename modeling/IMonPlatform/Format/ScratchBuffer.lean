import IMonPlatform.Format.FormatReads
import IMonPlatform.Lib.Buffer

/-!
# The scratch buffer of `doFormat`

`fmtBuffer` has 256 cells.  The texts of the special words fit; the loop behind `DT:` is driven by
the format alone and stores as many characters as stand there.

* `Access.Within`, `Scratch.Sound` — a store is inside the buffer, a reader finds a NUL.
* `parse_sound` — what a directive does to the buffer, by the text it copies.
* `reached` — the directives up to the first one that names no argument.
* `DtFits` — the text behind `DT:` is short enough.
* `scratch_buffer_iff` — all stores are inside the buffer and all readers find a NUL exactly if
  every directive that is reached fits.
-/

set_option autoImplicit false

namespace IMonPlatform.Format

open CString

variable {Arg σ : Type}

/-! ## Accesses -/

/-- A store is inside the buffer; a reader finds a NUL in it. -/
def Access.Within : Access → Prop
  | .store index => index < DEFAULT_BUFFER_SIZE
  | .handed fmtBuffer => 0 ∈ fmtBuffer

namespace Scratch

def Sound (s : Scratch) : Prop := ∀ a ∈ s.accesses, a.Within

theorem clear_sound (s : Scratch) : s.clear.Sound ↔ s.Sound := Iff.rfl

theorem clear_nul (s : Scratch) : 0 ∈ s.clear.fmtBuffer :=
  List.mem_replicate.mpr ⟨by decide, rfl⟩

theorem hand_sound (s : Scratch) : s.hand.Sound ↔ s.Sound ∧ 0 ∈ s.fmtBuffer := by
  simp only [Sound, hand, List.forall_mem_append, List.forall_mem_singleton, Access.Within]

theorem storeFrom_accesses (text : List CharT) (s : Scratch) (i : Nat) :
    (s.storeFrom i text).accesses = s.accesses ++ (List.range' i text.length).map .store := by
  induction text generalizing s i with
  | nil => simp [storeFrom]
  | cons c text ih => simp [storeFrom, ih, store, List.range'_succ]

/-- A row of stores is inside the buffer exactly if it is not longer. -/
theorem storeFrom_sound (s : Scratch) (text : List CharT) :
    (s.storeFrom 0 text).Sound ↔ s.Sound ∧ text.length ≤ DEFAULT_BUFFER_SIZE := by
  simp only [Sound, storeFrom_accesses, List.forall_mem_append, List.forall_mem_map, Access.Within,
    List.mem_range'_1, Nat.zero_le, Nat.zero_add, true_and]
  refine and_congr_right fun _ => ⟨fun h => ?_, fun h i hi => Nat.lt_of_lt_of_le hi h⟩
  by_contra hlong
  exact Nat.lt_irrefl _ (h DEFAULT_BUFFER_SIZE (Nat.lt_of_not_le hlong))

theorem storeFrom_fmtBuffer (text : List CharT) (s : Scratch) (i : Nat)
    (h : i + text.length ≤ s.fmtBuffer.length) :
    (s.storeFrom i text).fmtBuffer = Buffer.overwrite s.fmtBuffer i text := by
  induction text generalizing s i with
  | nil => simp [storeFrom, Buffer.overwrite]
  | cons c text ih =>
    rw [List.length_cons] at h
    have hlen : (s.store i c).fmtBuffer.length = s.fmtBuffer.length := List.length_set
    rw [storeFrom, ih (s.store i c) (i + 1) (by omega)]
    exact Buffer.overwrite_set c text (by omega)

/-- A text that fits leaves a NUL in a cleared buffer unless it fills it. -/
theorem storeFrom_nul (s : Scratch) {text : List CharT} (h : text.length ≤ DEFAULT_BUFFER_SIZE) :
    0 ∈ (s.clear.storeFrom 0 text).fmtBuffer ↔ 0 ∈ text ∨ text.length < DEFAULT_BUFFER_SIZE := by
  rw [storeFrom_fmtBuffer text s.clear 0 (by simpa [clear] using h)]
  simp only [Buffer.overwrite, clear, List.take_zero, List.nil_append, Nat.zero_add,
    List.drop_replicate, List.mem_append, List.mem_replicate, ne_eq, and_true]
  exact or_congr_right (by omega)

end Scratch

/-! ## One directive -/

section Directives

variable {env : EnvKind → ScratchText} {s : Scratch}

/-- The texts of the special words fit, and a NUL stands behind them. -/
theorem special_sound (env : EnvKind → ScratchText) (n : Int) (fmtSpec : FormatSpec) (s : Scratch)
    (word : Option SpecialWord) :
    ((special env n fmtSpec s.clear word).2.Sound ↔ s.Sound) ∧
      0 ∈ (special env n fmtSpec s.clear word).2.fmtBuffer := by
  -- `itoa` stores the text and its NUL
  have hitoa : ∀ text : ScratchText, ((s.clear.storeFrom 0 (text.chars ++ [0])).Sound ↔ s.Sound) ∧
      0 ∈ (s.clear.storeFrom 0 (text.chars ++ [0])).fmtBuffer := by
    intro text
    have hlen : (text.chars ++ [0]).length ≤ DEFAULT_BUFFER_SIZE := by
      rw [List.length_append]
      exact text.fits
    rw [Scratch.storeFrom_sound, Scratch.storeFrom_nul s hlen]
    exact ⟨and_iff_left hlen, .inl (by simp)⟩
  -- the default pattern is short, and so is what `strftime` makes of it
  have hdate : ∀ (text : ScratchText) (pattern : List CharT), pattern.length < DEFAULT_BUFFER_SIZE →
      (((s.clear.storeFrom 0 pattern).formatDateTime text).Sound ↔ s.Sound) ∧
        0 ∈ ((s.clear.storeFrom 0 pattern).formatDateTime text).fmtBuffer := by
    intro text pattern hlen
    have hle := Nat.le_of_lt hlen
    constructor
    · show (s.clear.storeFrom 0 pattern).hand.Sound ↔ s.Sound
      rw [Scratch.hand_sound, Scratch.storeFrom_sound, Scratch.storeFrom_nul s hle]
      exact ⟨fun h => h.1.1, fun h => ⟨⟨h, hle⟩, .inr hlen⟩⟩
    · have hroom : DEFAULT_BUFFER_SIZE - text.chars.length ≠ 0 := by
        have := text.fits
        omega
      simp [Scratch.formatDateTime, overwrite, hroom]
  have hclear : (s.clear.Sound ↔ s.Sound) ∧ 0 ∈ s.clear.fmtBuffer :=
    ⟨s.clear_sound, s.clear_nul⟩
  rcases word with _ | word
  · exact hclear
  cases word with
  | TID | PID => exact hitoa _
  | FILE | FUNC | LINE | LOGGER | LOGLEVEL => exact hclear
  | DATE | TIME => exact hdate _ _ (by decide)

/-- What a directive copies into the scratch buffer. -/
def Directive.copied (d : Directive) : List CharT :=
  match d.number, d.spec with
  | some k, some spec => if argIndexOf k = 0 then [] else Format.copied spec
  | _, _ => []

/-- **The stores of a directive** are inside the buffer exactly if the text behind `DT:` is not
    longer than the buffer. -/
theorem parse_sound (env : EnvKind → ScratchText) (n : Int) (s : Scratch) (d : Directive) :
    ((d.parse env n s.clear).2.Sound ↔ s.Sound ∧ d.copied.length ≤ DEFAULT_BUFFER_SIZE) ∧
      (d.copied.length ≤ DEFAULT_BUFFER_SIZE →
        (0 ∈ (d.parse env n s.clear).2.fmtBuffer ↔
          0 ∈ d.copied ∨ d.copied.length < DEFAULT_BUFFER_SIZE)) := by
  have hclear := s.clear_nul
  have hpos : 0 < DEFAULT_BUFFER_SIZE := by decide
  rcases d with ⟨_ | k, _ | spec⟩
  case some.some =>
    by_cases hzero : argIndexOf k = 0
    · obtain ⟨hsound, hnul⟩ := special_sound env n ⟨0, .zero⟩ s (firstWord spec specialWords)
      simp [Directive.parse, Directive.copied, hzero, hsound, hnul, hpos]
    · simp only [Directive.parse, Directive.copied, if_neg hzero, Scratch.storeFrom_sound,
        Scratch.clear_sound, true_and]
      exact Scratch.storeFrom_nul s
  -- without a number or a spec nothing is stored
  all_goals simp [Directive.parse, Directive.copied, hclear, hpos, Scratch.clear_sound]

/-- The text behind `DT:`, up to the closing brace. -/
def dateText (spec : List CharT) : List CharT := (spec.drop 3).takeWhile (· != '\x7d'.toNat)

/-- The loop behind `DT:` stores the text, and the NUL where no brace closes it. -/
theorem copyText_eq (format : List CharT) :
    (copyText format).1 = format.takeWhile (· != '\x7d'.toNat) ++
      if '\x7d'.toNat ∈ format then [] else [0] := by
  induction format with
  | nil => rfl
  | cons c format ih =>
    rw [copyText]
    by_cases hc : c = '\x7d'.toNat
    · rw [if_pos hc, if_pos (hc ▸ List.mem_cons_self ..),
        List.takeWhile_cons_of_neg (by simpa using hc)]
      rfl
    · have hpass : (c != '\x7d'.toNat) = true := bne_iff_ne.mpr hc
      have hmem : '\x7d'.toNat ∈ c :: format ↔ '\x7d'.toNat ∈ format := by
        rw [List.mem_cons]
        exact or_iff_right fun h => hc h.symm
      rw [if_neg hc, ih, List.takeWhile_cons_of_pos (p := (· != '\x7d'.toNat)) hpass]
      simp only [hmem, List.cons_append]

theorem nul_mem_copied {spec : List CharT} (hnul : 0 ∉ spec)
    (hstart : startsWith spec ['D', 'T', ':'] = true) :
    (copied spec).length = (dateText spec).length + (if '\x7d'.toNat ∈ spec.drop 3 then 0 else 1) ∧
      (0 ∈ copied spec ↔ '\x7d'.toNat ∉ spec.drop 3) := by
  have htext : 0 ∉ dateText spec := fun hmem =>
    hnul (List.mem_of_mem_drop ((List.takeWhile_prefix _).subset hmem))
  rw [copied, if_pos hstart, copyText_eq, ← dateText]
  by_cases hclosed : '\x7d'.toNat ∈ spec.drop 3
  · rw [if_pos hclosed, if_pos hclosed, List.append_nil]
    exact ⟨rfl, iff_of_false htext (not_not_intro hclosed)⟩
  · rw [if_neg hclosed, if_neg hclosed]
    exact ⟨List.length_append, iff_of_true (by simp) hclosed⟩

end Directives

/-! ## The condition -/

namespace FormatCall

variable (call : FormatCall Arg σ)

/-- Argument `k` is printed by `formatDateTime` under a spec `DT`. -/
def PrintsDate (k : Nat) : Prop :=
  ∃ value, call.args[k - 1]? = some value ∧ call.testsDatetime value = true

/-- The text behind `DT:` has at most 255 characters, or exactly 256 that a brace closes and nobody
    reads. -/
def DtFits (d : Directive) : Prop :=
  ∀ k ∈ d.number, ∀ spec ∈ d.spec, k ≠ 0 → startsWith spec ['D', 'T', ':'] = true →
    (dateText spec).length ≤ 255 ∨
      (dateText spec).length = 256 ∧ '\x7d'.toNat ∈ spec.drop 3 ∧ ¬ call.PrintsDate k

end FormatCall

/-- The directives up to the first one that names no argument, this one included. -/
def reached (n : Nat) : List Directive → List Directive
  | [] => []
  | d :: ds => d :: if d.number.any (fun k => decide (n < k)) then [] else reached n ds

section Condition

variable (call : FormatCall Arg σ) {st : LoopState σ}

theorem argIndexOf_eq_zero {k : Nat} : argIndexOf k = 0 ↔ k = 0 := by
  rcases Nat.lt_or_ge k (2 ^ 31) with hk | hk
  · rw [argIndexOf_small hk]
    omega
  · have := argIndexOf_large hk
    omega

/-- The condition on a text, by what is stored; `P` stands for a reader. -/
theorem dateText_fits_iff {spec : List CharT} (hnul : 0 ∉ spec)
    (hstart : startsWith spec ['D', 'T', ':'] = true) (P : Prop) :
    ((dateText spec).length ≤ 255 ∨
        (dateText spec).length = 256 ∧ '\x7d'.toNat ∈ spec.drop 3 ∧ ¬ P) ↔
      (copied spec).length ≤ DEFAULT_BUFFER_SIZE ∧
        (P → 0 ∈ copied spec ∨ (copied spec).length < DEFAULT_BUFFER_SIZE) := by
  obtain ⟨hlen, hmem⟩ := nul_mem_copied hnul hstart
  have hsize : DEFAULT_BUFFER_SIZE = 256 := rfl
  rw [hsize]
  by_cases hclosed : '\x7d'.toNat ∈ spec.drop 3
  · rw [if_pos hclosed, Nat.add_zero] at hlen
    have hno : 0 ∉ copied spec := fun h => hmem.mp h hclosed
    rw [hlen]
    constructor
    · rintro (hshort | ⟨hfull, _, hunread⟩)
      · exact ⟨by omega, fun _ => .inr (by omega)⟩
      · exact ⟨by omega, fun hP => absurd hP hunread⟩
    · rintro ⟨hle, hread⟩
      by_cases hshort : (dateText spec).length ≤ 255
      · exact .inl hshort
      · refine .inr ⟨by omega, hclosed, fun hP => ?_⟩
        have hlt := (hread hP).resolve_left hno
        omega
  · rw [if_neg hclosed] at hlen
    rw [hlen]
    constructor
    · rintro (hshort | ⟨_, hin, _⟩)
      · exact ⟨by omega, fun _ => .inl (hmem.mpr hclosed)⟩
      · exact absurd hin hclosed
    · rintro ⟨hle, _⟩
      exact .inl (by omega)

/-- The condition, by what the directive copies. -/
theorem dtFits_iff {d : Directive} (hnul : ∀ spec ∈ d.spec, 0 ∉ spec) :
    call.DtFits d ↔ d.copied.length ≤ DEFAULT_BUFFER_SIZE ∧
      ∀ k ∈ d.number, call.PrintsDate k →
        0 ∈ d.copied ∨ d.copied.length < DEFAULT_BUFFER_SIZE := by
  have hpos : 0 < DEFAULT_BUFFER_SIZE := by decide
  rcases d with ⟨_ | k, _ | spec⟩
  case some.some =>
    by_cases hzero : k = 0
    · simp [FormatCall.DtFits, Directive.copied, argIndexOf_eq_zero, hzero, hpos]
    by_cases hstart : startsWith spec ['D', 'T', ':'] = true
    · have hfits := dateText_fits_iff (hnul spec rfl) hstart (call.PrintsDate k)
      simp only [FormatCall.DtFits, Directive.copied, argIndexOf_eq_zero, hzero, Option.mem_def,
        Option.some.injEq, forall_eq', ne_eq, not_false_eq_true, hstart, true_imp_iff]
      exact hfits
    · simp [FormatCall.DtFits, Directive.copied, argIndexOf_eq_zero, hzero, hstart, copied, hpos]
  all_goals simp [FormatCall.DtFits, Directive.copied, hpos]

theorem handRound_sound (p : ParsedAt) :
    (call.handRound p).Sound ↔
      p.scratch.Sound ∧ (call.hands p = true → 0 ∈ p.scratch.fmtBuffer) := by
  unfold FormatCall.handRound
  by_cases hhands : call.hands p = true
  · rw [if_pos hhands, Scratch.hand_sound]
    simp only [hhands, true_imp_iff]
  · rw [if_neg hhands]
    exact ⟨fun h => ⟨h, fun hyes => absurd hyes hhands⟩, fun h => h.1⟩

/-- A directive that copies something has a number and a spec `DT:`. -/
theorem copied_ne_nil {d : Directive} (h : d.copied ≠ []) :
    ∃ k spec, d.number = some k ∧ d.spec = some spec ∧ k ≠ 0 ∧
      firstWord spec specWords = some .DT := by
  rcases d with ⟨_ | k, _ | spec⟩
  case some.some =>
    have hzero : k ≠ 0 := by
      rintro rfl
      exact h (by simp only [Directive.copied, argIndexOf_eq_zero, if_true])
    refine ⟨k, spec, rfl, rfl, hzero, ?_⟩
    by_contra hword
    apply h
    simp only [Directive.copied, argIndexOf_eq_zero, if_neg hzero]
    exact copied_nil hword
  all_goals exact absurd rfl h

/-- The buffer with the text behind `DT:` is given to `formatDateTime` exactly if the argument is
    printed as a date. -/
theorem hands_iff {format rest : List CharT} {d : Directive} {literal k : Nat} (h : d.copied ≠ [])
    (hnumber : d.number = some k) (hrange : k ≤ call.args.length) :
    call.hands (parsedOf call st format d literal rest) = true ↔ call.PrintsDate k := by
  obtain ⟨k', spec, hnumber', hspec, hzero, hword⟩ := copied_ne_nil h
  cases hnumber.symm.trans hnumber'
  have hlt := call.argCount_lt
  have hk : argIndexOf k = k := argIndexOf_small (by omega)
  have hnat : ¬ (k : Int) = 0 := by omega
  have hparse : (parsedOf call st format d literal rest).fmtSpec =
      setFlag ⟨k, .zero⟩ (some .DT) := by
    simp only [parsedOf, Directive.parse, hnumber, hspec, hk, if_neg hnat, hword]
  have hindex : ((k : Int) - 1).toNat = k - 1 := by omega
  have hpos : ¬ (k : Int) < 0 := by omega
  simp only [FormatCall.hands, hparse, setFlag, if_neg hnat, if_neg hpos, hindex,
    FormatCall.PrintsDate, Bool.true_and]
  cases call.args[k - 1]? with
  | none => simp
  | some value => simp

/-- **A round that goes on** keeps the buffer sound exactly if its directive fits. -/
theorem round_sound {format rest : List CharT} {d : Directive} {literal : Nat}
    (hnul : ∀ spec ∈ d.spec, 0 ∉ spec) (hrange : ∀ k ∈ d.number, k ≤ call.args.length) :
    (call.handRound (parsedOf call st format d literal rest)).Sound ↔
      st.scratch.Sound ∧ call.DtFits d := by
  obtain ⟨hsound, hbuffer⟩ := parse_sound (call.env st.round) call.args.length st.scratch d
  rw [handRound_sound, dtFits_iff call hnul]
  constructor
  · rintro ⟨hall, hhands⟩
    obtain ⟨hst, hlen⟩ := hsound.mp hall
    refine ⟨hst, hlen, fun k hnumber hprints => ?_⟩
    by_cases hne : d.copied = []
    · rw [hne]
      exact .inr (by decide)
    · exact (hbuffer hlen).mp (hhands ((hands_iff call hne hnumber (hrange k hnumber)).mpr hprints))
  · rintro ⟨hst, hlen, hread⟩
    refine ⟨hsound.mpr ⟨hst, hlen⟩, fun hhands => (hbuffer hlen).mpr ?_⟩
    by_cases hne : d.copied = []
    · rw [hne]
      exact .inr (by decide)
    · obtain ⟨k, spec, hnumber, _⟩ := copied_ne_nil hne
      exact hread k hnumber ((hands_iff call hne hnumber (hrange k hnumber)).mp hhands)

/-- **A round that ends the loop at a directive**: nobody reads the buffer any more. -/
theorem stop_sound {format rest : List CharT} {d : Directive} {literal k : Nat}
    (hnul : ∀ spec ∈ d.spec, 0 ∉ spec) (hnumber : d.number = some k)
    (hrange : call.args.length < k) :
    (parsedOf call st format d literal rest).scratch.Sound ↔
      st.scratch.Sound ∧ call.DtFits d := by
  have hunread : ∀ k' ∈ d.number, ¬ call.PrintsDate k' := by
    rintro k' hk' ⟨value, hvalue, _⟩
    cases hnumber.symm.trans hk'
    obtain ⟨hlt, _⟩ := List.getElem?_eq_some_iff.mp hvalue
    omega
  rw [dtFits_iff call hnul]
  refine (parse_sound (call.env st.round) call.args.length st.scratch d).1.trans
    (and_congr_right fun _ => ⟨fun hlen => ⟨hlen, fun k' hk' hprints => ?_⟩, fun h => h.1⟩)
  exact absurd hprints (hunread k' hk')

/-! ## Runs -/

theorem forall_reached {n : Nat} {d : Directive} {ds : List Directive} {P : Directive → Prop}
    (hrange : ∀ k ∈ d.number, k ≤ n) :
    (∀ d' ∈ reached n (d :: ds), P d') ↔ P d ∧ ∀ d' ∈ reached n ds, P d' := by
  have hstay : d.number.any (fun k => decide (n < k)) = false := by
    cases hnumber : d.number with
    | none => rfl
    | some k => simpa using hrange k hnumber
  simp only [reached, hstay, Bool.false_eq_true, if_false, List.forall_mem_cons]

theorem forall_reached_last {n k : Nat} {d : Directive} {ds : List Directive}
    {P : Directive → Prop} (hnumber : d.number = some k) (hk : n < k) :
    (∀ d' ∈ reached n (d :: ds), P d') ↔ P d := by
  have hleave : d.number.any (fun k => decide (n < k)) = true := by
    rw [hnumber]
    exact decide_eq_true hk
  simp only [reached, hleave, if_true, List.forall_mem_singleton]

/-- The accesses of a run are sound exactly if every directive that is reached fits. -/
theorem run_sound (format : CText) (out : σ) :
    ∃ run, (∀ extra, call.doFormatAt (format.chars.length + 1 + extra) (cells format.chars) out =
        some run) ∧
      (run.last.scratch.Sound ↔ (LoopState.start (cells format.chars) out).scratch.Sound ∧
        ∀ d ∈ reached call.args.length (formatDirectives format.chars), call.DtFits d) := by
  refine loopAt_rule (P := fun format st run => run.last.scratch.Sound ↔ st.scratch.Sound ∧
      ∀ d ∈ reached call.args.length (formatDirectives format), call.DtFits d) call
    ?_ ?_ _ format.chars (.start (cells format.chars) out) rfl format.nulFree rfl
  · intro format st run hnul hcase
    have hspecs : ∀ {d rest}, nextDirective format = some (d, rest) → ∀ spec ∈ d.spec, 0 ∉ spec :=
      fun hnext spec hspec hmem => hnul ((nextDirective_spec hnext hspec).subset hmem)
    cases hcase with
    | finished n st' hnext _ _ hscratch =>
      rw [hscratch, Scratch.clear_sound, formatDirectives_end hnext]
      simp [reached]
    | reported d rest literal k st' hnext _ hnumber hrange hlong hscratch =>
      rw [hscratch, stop_sound call (hspecs hnext) hnumber hrange, formatDirectives_next hnext,
        forall_reached_last hnumber hrange]
    | missed d rest literal k n st' hnext _ hnumber hlong hscratch =>
      have hrange : call.args.length < k := Nat.lt_of_lt_of_le call.argCount_lt hlong
      rw [hscratch, stop_sound call (hspecs hnext) hnumber hrange, formatDirectives_next hnext,
        forall_reached_last hnumber hrange]
  · intro format rest st st' d literal run hnul hnext _ hrange hscratch hP
    have hspecs : ∀ spec ∈ d.spec, 0 ∉ spec :=
      fun spec hspec hmem => hnul ((nextDirective_spec hnext hspec).subset hmem)
    rw [hP, hscratch, round_sound call hspecs hrange, formatDirectives_next hnext,
      forall_reached hrange, and_assoc]

/-- Every store is inside the scratch buffer, and whoever is given it to read finds a NUL. -/
def ScratchSafe (format : CText) (out : σ) : Prop :=
  ∃ run, (∀ extra, call.doFormatAt (format.chars.length + 1 + extra) (cells format.chars) out =
      some run) ∧ ∀ a ∈ run.last.scratch.accesses, a.Within

/-- **When the scratch buffer is large enough**: exactly if every directive that is reached fits. -/
theorem scratch_buffer_iff (format : CText) (out : σ) :
    ScratchSafe call format out ↔
      ∀ d ∈ reached call.args.length (formatDirectives format.chars), call.DtFits d := by
  obtain ⟨run, hrun, hsound⟩ := run_sound call format out
  have hstart : (LoopState.start (cells format.chars) out).scratch.Sound :=
    fun a ha => absurd ha List.not_mem_nil
  constructor
  · rintro ⟨run', hrun', hwithin⟩
    cases (hrun' 0).symm.trans (hrun 0)
    exact (hsound.mp hwithin).2
  · intro hfits
    exact ⟨run, hrun, hsound.mpr ⟨hstart, hfits⟩⟩

end Condition

/-- `DT:`, a text of 257 letters and the closing brace. -/
def longSpec : List CharT :=
  ['D', 'T', ':'].map Char.toNat ++ List.replicate 257 'a'.toNat ++ ['\x7d'.toNat]

/-- `%1{DT:aa..a}` -/
def longDate : CText := ⟨['%', '1', '\x7b'].map Char.toNat ++ longSpec, by decide⟩

/-- The last letter is stored behind the buffer. -/
theorem long_date_overflows : ¬ ScratchSafe callWithOne longDate [] := by
  rintro ⟨run, hrun, hwithin⟩
  obtain ⟨run', hrun', hsound⟩ := run_sound callWithOne longDate []
  cases (hrun 0).symm.trans (hrun' 0)
  have hread : formatDirectives longDate.chars = [⟨some 1, some longSpec⟩] := by
    decide +kernel
  have hfits := (hsound.mp hwithin).2 ⟨some 1, some longSpec⟩
    (by rw [hread]; exact List.mem_cons_self ..)
  have hlen : (dateText longSpec).length = 257 := by decide +kernel
  rcases hfits 1 rfl longSpec rfl (by decide) (by decide) with hshort | ⟨hfull, _⟩
  · omega
  · omega

end IMonPlatform.Format
