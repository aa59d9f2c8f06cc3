import Mathlib.Algebra.Ring.Int.Defs
import IMonPlatform.Format.Language

/-!
# `formatValue` for the integer types

An integer is written digit by digit, backwards, into the scratch buffer, and the start of its text
is computed again from the number of characters.  A negative value goes through `_abs64`.

* `IntegerType`, `IntegerValue` — the types that have an overload, and a value of one of them.
* `formatNumberInternal`, `formatNumber`, `formatValue` — the functions; `none` is a loop that does
  not end.
* `IsDecimal` — what a decimal representation is; `readDecimal_of_isDecimal`.
* `storeDigits_spec` — the loop writes the digits of a value that is not negative.
* `integer_printed_iff` — every value of every type is printed as its decimal representation except
  the least `long long`, whose absolute value does not exist in 64 bits.
* `argText_integer` — so `doFormat` renders it for a bare `%k`.
-/

set_option autoImplicit false

namespace IMonPlatform.Format

/-! ## Types and values -/

/-- The integer types with an overload of `formatValue`, in the data model of the Win32 builds. -/
inductive IntegerType where
  | short
  | unsignedShort
  | int
  | long
  | unsignedInt
  | unsignedLong
  | longLong
  | unsignedLongLong
  deriving DecidableEq

def IntegerType.isSigned : IntegerType → Bool
  | .short | .int | .long | .longLong => true
  | .unsignedShort | .unsignedInt | .unsignedLong | .unsignedLongLong => false

def IntegerType.bits : IntegerType → Nat
  | .short | .unsignedShort => 16
  | .int | .long | .unsignedInt | .unsignedLong => 32
  | .longLong | .unsignedLongLong => 64

/-- The values of a type. -/
def IntegerType.Holds (t : IntegerType) (v : Int) : Prop :=
  if t.isSigned then -2 ^ (t.bits - 1) ≤ v ∧ v < 2 ^ (t.bits - 1) else 0 ≤ v ∧ v < 2 ^ t.bits

structure IntegerValue where
  type : IntegerType
  value : Int
  inRange : type.Holds value

/-- `_abs64`, which leaves the least value as it is. -/
def abs64 (v : Int) : Int := Int.bmod v.natAbs (2 ^ 64)

/-! ## Writing backwards -/

/-- The scratch buffer with the pointer that goes down in it. -/
structure Backwards where
  fmtBuffer : List CharT
  dest : Nat
  numberCount : Nat

/-- `*--fmtBuffer = c; ++numberCount;` -/
def Backwards.put (b : Backwards) (c : CharT) : Backwards :=
  ⟨b.fmtBuffer.set (b.dest - 1) c, b.dest - 1, b.numberCount + 1⟩

/-- `'0' + ( CharT )( value % 10 )`. -/
def digitChar (v : Int) : CharT := ('0'.toNat + v.tmod 10).toNat

/-- `for( ; value; value /= 10 )`, with a bound on its rounds. -/
def storeDigits : Nat → Int → Backwards → Option Backwards
  | 0, v, b => if v = 0 then some b else none
  | rounds + 1, v, b =>
    if v = 0 then some b else storeDigits rounds (v.tdiv 10) (b.put (digitChar v))

/-- The number of digits of a 64-bit value. -/
def maxDigits : Nat := 20

/-- The three branches of `formatNumberInternal` in front of the sign. -/
def formatDigits (isNegative : Bool) (value : Int) (b : Backwards) : Option Backwards :=
  if value = 0 then some (b.put '0'.toNat)
  else if isNegative then storeDigits maxDigits (abs64 value) b
  else storeDigits maxDigits value b

def formatNumberInternal (plus isNegative : Bool) (value : Int) (b : Backwards) :
    Option Backwards :=
  (formatDigits isNegative value b).map fun b =>
    if plus || isNegative then b.put (if isNegative then '-'.toNat else '+'.toNat) else b

/-- The two overloads of `formatNumber`: an unsigned value is never negative. -/
def formatNumber (flags : Flags) (x : IntegerValue) : Option Backwards :=
  formatNumberInternal flags.plus (x.type.isSigned && decide (x.value < 0)) x.value
    ⟨List.replicate DEFAULT_BUFFER_SIZE 0, DEFAULT_BUFFER_SIZE - 1, 0⟩

/-- `renderer.render( &fmtBuffer[ DEFAULT_BUFFER_SIZE - numberCount - 1 ], -1 )`. -/
def renderNumber (flags : Flags) (x : IntegerValue) : Option (List CharT) :=
  (formatNumber flags x).map fun b =>
    cstr (b.fmtBuffer.drop (DEFAULT_BUFFER_SIZE - b.numberCount - 1))

/-- The text that the overload of the value's type renders; `formatDateTime` and `formatErrorText`
    give the texts of the runtime library and of the system. -/
def formatValue (formatDateTime formatErrorText : Int → List CharT → CText) (x : IntegerValue)
    (flags : Flags) (fmtBuffer : List CharT) : Option (List CharT) :=
  match x.type with
  | .short | .unsignedShort | .unsignedLongLong => renderNumber flags x
  | .int | .longLong =>
    if flags.datetime then some (formatDateTime x.value fmtBuffer).chars else renderNumber flags x
  | .long =>
    if flags.datetime then some (formatDateTime x.value fmtBuffer).chars
    else if flags.errorHRESULT then some (formatErrorText x.value fmtBuffer).chars
    else renderNumber flags x
  | .unsignedInt | .unsignedLong =>
    if flags.errorText = false then renderNumber flags x
    else some (formatErrorText x.value fmtBuffer).chars

/-! ## Decimal representations -/

/-- Digits without a leading zero. -/
structure IsNumeral (n : Nat) (digits : List CharT) : Prop where
  isdigit : ∀ c ∈ digits, isdigit c = true
  nonempty : digits ≠ []
  leading : digits.head? = some '0'.toNat → digits = ['0'.toNat]
  value : digitsValue digits = n

/-- The sign of a representation. -/
def signText (plus : Bool) (v : Int) : List CharT :=
  if v < 0 then ['-'.toNat] else if plus then ['+'.toNat] else []

/-- A sign and the digits of the absolute value. -/
def IsDecimal (plus : Bool) (v : Int) (text : List CharT) : Prop :=
  ∃ digits, text = signText plus v ++ digits ∧ IsNumeral v.natAbs digits

/-- Read a decimal number. -/
def readDecimal (text : List CharT) : Option Int :=
  match text with
  | [] => none
  | c :: rest =>
    if c = '-'.toNat then
      if rest ≠ [] ∧ rest.all isdigit then some (-digitsValue rest) else none
    else if c = '+'.toNat then
      if rest ≠ [] ∧ rest.all isdigit then some (digitsValue rest) else none
    else if text.all isdigit then some (digitsValue text) else none

theorem IsNumeral.all_isdigit {n : Nat} {digits : List CharT} (h : IsNumeral n digits) :
    digits.all Format.isdigit = true :=
  List.all_eq_true.mpr h.isdigit

/-- A representation reads back as its value. -/
theorem readDecimal_of_isDecimal {plus : Bool} {v : Int} {text : List CharT}
    (h : IsDecimal plus v text) : readDecimal text = some v := by
  obtain ⟨digits, rfl, hnum⟩ := h
  have hread : digits ≠ [] ∧ digits.all isdigit = true := ⟨hnum.nonempty, hnum.all_isdigit⟩
  unfold signText
  split
  · rename_i hneg
    simp only [List.singleton_append, readDecimal, if_pos hread, if_true, hnum.value]
    congr 1
    omega
  · rename_i hneg
    have hvalue : ((digitsValue digits : Nat) : Int) = v := by rw [hnum.value]; omega
    split
    · have hsign : ('+'.toNat : CharT) ≠ '-'.toNat := by decide
      simp only [List.singleton_append, readDecimal, if_neg hsign, if_pos hread, if_true, hvalue]
    · obtain ⟨c, rest, rfl⟩ := List.exists_cons_of_ne_nil hnum.nonempty
      have hc := hnum.isdigit c List.mem_cons_self
      have hminus : c ≠ '-'.toNat := by rintro rfl; exact absurd hc (by decide)
      have hplus : c ≠ '+'.toNat := by rintro rfl; exact absurd hc (by decide)
      simp only [List.nil_append, readDecimal, if_neg hminus, if_neg hplus, if_pos hread.2, hvalue]

/-! ## The loop -/

/-- What stands behind the pointer after a store. -/
theorem Backwards.drop_put (b : Backwards) (c : CharT) (hdest : 0 < b.dest)
    (hlen : b.dest ≤ b.fmtBuffer.length) :
    (b.put c).fmtBuffer.drop (b.put c).dest = c :: b.fmtBuffer.drop b.dest := by
  have hlt : b.dest - 1 < (b.fmtBuffer.set (b.dest - 1) c).length := by
    rw [List.length_set]
    omega
  have hnext : b.dest - 1 + 1 = b.dest := by omega
  show (b.fmtBuffer.set (b.dest - 1) c).drop (b.dest - 1) = c :: b.fmtBuffer.drop b.dest
  rw [List.drop_eq_getElem_cons hlt, List.getElem_set_self, hnext,
    List.drop_set_of_lt (by omega)]

/-- What a sequence of stores leaves: the text behind the pointer, and as many characters counted.
    -/
structure Wrote (b b' : Backwards) (text : List CharT) : Prop where
  behind : b'.fmtBuffer.drop b'.dest = text ++ b.fmtBuffer.drop b.dest
  dest : b'.dest + text.length = b.dest
  count : b'.numberCount = b.numberCount + text.length
  length : b'.fmtBuffer.length = b.fmtBuffer.length

theorem wrote_put (b : Backwards) (c : CharT) (hdest : 0 < b.dest)
    (hlen : b.dest ≤ b.fmtBuffer.length) : Wrote b (b.put c) [c] := by
  refine ⟨b.drop_put c hdest hlen, ?_, rfl, List.length_set⟩
  show b.dest - 1 + 1 = b.dest
  omega

theorem Wrote.trans {b₁ b₂ b₃ : Backwards} {text₁ text₂ : List CharT} (h₁ : Wrote b₁ b₂ text₁)
    (h₂ : Wrote b₂ b₃ text₂) : Wrote b₁ b₃ (text₂ ++ text₁) := by
  have hdest₁ := h₁.dest
  have hdest₂ := h₂.dest
  have hcount₁ := h₁.count
  have hcount₂ := h₂.count
  refine ⟨?_, ?_, ?_, h₂.length.trans h₁.length⟩
  · rw [h₂.behind, h₁.behind, List.append_assoc]
  · rw [List.length_append]
    omega
  · rw [List.length_append]
    omega

theorem digitsValue_append_singleton (digits : List CharT) (c : CharT) :
    digitsValue (digits ++ [c]) = 10 * digitsValue digits + (c - '0'.toNat) := by
  simp [digitsValue, List.foldl_append]

/-- The character of the last digit. -/
theorem digitChar_natCast (n : Nat) : digitChar n = '0'.toNat + n % 10 := by
  unfold digitChar
  rw [Int.tmod_eq_emod_of_nonneg (by omega)]
  show ((48 : Int) + n % 10).toNat = 48 + n % 10
  omega

theorem isdigit_digitChar (n : Nat) : isdigit (digitChar n) = true := by
  rw [digitChar_natCast]
  unfold isdigit
  rw [Bool.and_eq_true, decide_eq_true_eq, decide_eq_true_eq]
  show 48 ≤ 48 + n % 10 ∧ 48 + n % 10 ≤ 57
  omega

/-- The numeral of a number with at least two digits is that of its tenth and the last digit. -/
theorem IsNumeral.snoc {n : Nat} {digits : List CharT} (h : IsNumeral (n / 10) digits)
    (hn : n / 10 ≠ 0) : IsNumeral n (digits ++ [digitChar n]) := by
  refine ⟨?_, List.append_ne_nil_of_right_ne_nil _ (List.cons_ne_nil _ _), ?_, ?_⟩
  · intro c hc
    rcases List.mem_append.mp hc with hc | hc
    · exact h.isdigit c hc
    · rw [List.mem_singleton.mp hc]
      exact isdigit_digitChar n
  · intro hhead
    -- a leading zero would be the whole numeral of the tenth
    have hfirst : digits.head? = some '0'.toNat := by
      obtain ⟨c, rest, rfl⟩ := List.exists_cons_of_ne_nil h.nonempty
      exact hhead
    have hzero : digitsValue digits = 0 := by rw [h.leading hfirst]; rfl
    rw [h.value] at hzero
    exact absurd hzero hn
  · rw [digitsValue_append_singleton, h.value, digitChar_natCast]
    omega

theorem isNumeral_digit {n : Nat} (hn : 0 < n) (hten : n < 10) : IsNumeral n [digitChar n] := by
  refine ⟨?_, List.cons_ne_nil _ _, ?_, ?_⟩
  · intro c hc
    rw [List.mem_singleton.mp hc]
    exact isdigit_digitChar n
  · intro hhead
    rw [List.head?_cons] at hhead
    rw [Option.some.inj hhead]
  · rw [← List.nil_append [digitChar n], digitsValue_append_singleton, digitChar_natCast]
    show 10 * 0 + ('0'.toNat + n % 10 - '0'.toNat) = n
    omega

/-- **The loop writes the numeral of a positive value** when there is room for its digits. -/
theorem storeDigits_spec : ∀ (rounds n : Nat) (b : Backwards), 0 < n → n < 10 ^ rounds →
    rounds ≤ b.dest → b.dest ≤ b.fmtBuffer.length →
    ∃ b' digits, storeDigits rounds n b = some b' ∧ Wrote b b' digits ∧ IsNumeral n digits ∧
      digits.length ≤ rounds := by
  intro rounds
  induction rounds with
  | zero =>
    intro n b hpos hlt
    omega
  | succ rounds ih =>
    intro n b hpos hlt hroom hlen
    have hput := wrote_put b (digitChar n) (by omega) hlen
    have hne : (n : Int) ≠ 0 := by omega
    have htenth : (n : Int).tdiv 10 = ((n / 10 : Nat) : Int) := by
      rw [Int.tdiv_eq_ediv_of_nonneg (by omega)]
      rfl
    simp only [storeDigits, if_neg hne, htenth]
    rcases Nat.eq_zero_or_pos (n / 10) with hzero | htail
    · have hten : n < 10 := by omega
      refine ⟨b.put (digitChar n), [digitChar n], ?_, hput, isNumeral_digit hpos hten, ?_⟩
      · rw [hzero]
        cases rounds <;> rfl
      · rw [List.length_singleton]
        omega
    · have hdest := hput.dest
      rw [List.length_singleton] at hdest
      obtain ⟨b', digits, hstore, hwrote, hnum, hle⟩ := ih (n / 10) (b.put (digitChar n)) htail
        (by rw [Nat.pow_succ] at hlt; omega) (by omega) (by rw [hput.length]; omega)
      refine ⟨b', digits ++ [digitChar n], hstore, hput.trans hwrote, hnum.snoc (by omega), ?_⟩
      rw [List.length_append, List.length_singleton]
      omega

/-! ## The text of a value -/

theorem isNumeral_zero : IsNumeral 0 ['0'.toNat] :=
  ⟨by decide, by decide, fun _ => rfl, rfl⟩

theorem abs64_eq {v : Int} (h : v.natAbs < 2 ^ 63) : abs64 v = v.natAbs := by
  unfold abs64
  exact Int.bmod_eq_of_le (by omega) (by omega)

/-- The digits of a value, from its loop. -/
theorem formatDigits_spec {v : Int} {b : Backwards} (habs : v < 0 → v.natAbs < 2 ^ 63)
    (hpos : v < 2 ^ 64) (hroom : maxDigits ≤ b.dest) (hlen : b.dest ≤ b.fmtBuffer.length) :
    ∃ b' digits, formatDigits (decide (v < 0)) v b = some b' ∧ Wrote b b' digits ∧
      IsNumeral v.natAbs digits ∧ digits.length ≤ maxDigits := by
  have hmax : maxDigits = 20 := rfl
  by_cases hzero : v = 0
  · subst hzero
    exact ⟨b.put '0'.toNat, ['0'.toNat], rfl, wrote_put b _ (by omega) hlen, isNumeral_zero,
      by decide⟩
  · have hbound : v.natAbs < 10 ^ maxDigits := by
      have hten : (10 : Nat) ^ 20 = 100000000000000000000 := rfl
      rw [hmax, hten]
      by_cases hneg : v < 0
      · have := habs hneg
        omega
      · omega
    obtain ⟨b', digits, hstore, hwrote, hnum, hle⟩ := storeDigits_spec maxDigits v.natAbs b
      (by omega) hbound hroom hlen
    refine ⟨b', digits, ?_, hwrote, hnum, hle⟩
    rw [formatDigits, if_neg hzero]
    by_cases hneg : v < 0
    · rw [if_pos (decide_eq_true hneg), abs64_eq (habs hneg)]
      exact hstore
    · have hcast : ((v.natAbs : Nat) : Int) = v := by omega
      rw [if_neg (by simpa using hneg), ← hcast]
      exact hstore

/-- **`formatNumberInternal` writes the decimal representation** of every value whose absolute value
    fits. -/
theorem formatNumberInternal_spec {v : Int} {b : Backwards} (plus : Bool)
    (habs : v < 0 → v.natAbs < 2 ^ 63) (hpos : v < 2 ^ 64) (hroom : maxDigits < b.dest)
    (hlen : b.dest ≤ b.fmtBuffer.length) :
    ∃ b' text, formatNumberInternal plus (decide (v < 0)) v b = some b' ∧ Wrote b b' text ∧
      IsDecimal plus v text ∧ text.length ≤ maxDigits + 1 := by
  obtain ⟨b₁, digits, hstore, hwrote, hnum, hle⟩ :=
    formatDigits_spec habs hpos (Nat.le_of_lt hroom) hlen
  have hdest := hwrote.dest
  have hroom₁ : 0 < b₁.dest := by omega
  have hlen₁ : b₁.dest ≤ b₁.fmtBuffer.length := by
    rw [hwrote.length]
    omega
  unfold formatNumberInternal
  rw [hstore, Option.map_some]
  by_cases hneg : v < 0
  · have hput := hwrote.trans (wrote_put b₁ '-'.toNat hroom₁ hlen₁)
    refine ⟨_, _, by simp only [hneg, decide_true, Bool.or_true, if_true], hput, ⟨digits, ?_, hnum⟩,
      ?_⟩
    · rw [signText, if_pos hneg]
    · rw [List.length_append, List.length_singleton]
      omega
  · cases plus with
    | true =>
      have hput := hwrote.trans (wrote_put b₁ '+'.toNat hroom₁ hlen₁)
      refine ⟨_, _, by simp only [hneg, decide_false, Bool.or_false, if_true, Bool.false_eq_true,
        if_false], hput, ⟨digits, ?_, hnum⟩, ?_⟩
      · rw [signText, if_neg hneg, if_pos rfl]
      · rw [List.length_append, List.length_singleton]
        omega
    | false =>
      refine ⟨b₁, digits, by simp only [hneg, decide_false, Bool.or_false, Bool.false_eq_true,
        if_false], hwrote, ⟨digits, ?_, hnum⟩, by omega⟩
      rw [signText, if_neg hneg]
      rfl

theorem IsDecimal.nulFree {plus : Bool} {v : Int} {text : List CharT} (h : IsDecimal plus v text) :
    0 ∉ text := by
  obtain ⟨digits, rfl, hnum⟩ := h
  intro hmem
  rcases List.mem_append.mp hmem with hmem | hmem
  · unfold signText at hmem
    split at hmem
    · exact absurd hmem (by decide)
    split at hmem
    · exact absurd hmem (by decide)
    · cases hmem
  · exact absurd (hnum.isdigit 0 hmem) (by decide)

/-- The text in front of a NUL. -/
theorem cstr_terminated {text : List CharT} (h : 0 ∉ text) : cstr (text ++ [0]) = text := by
  unfold cstr
  rw [List.takeWhile_append_of_pos]
  · simp
  · intro c hc
    rw [bne_iff_ne]
    rintro rfl
    exact h hc

/-- The range of a value: only a `long long` has the least 64-bit value. -/
theorem IntegerValue.bounds (x : IntegerValue) :
    -2 ^ 63 ≤ x.value ∧ x.value < 2 ^ 64 ∧ (x.type.isSigned = false → 0 ≤ x.value) := by
  obtain ⟨t, v, h⟩ := x
  cases t <;> simp [IntegerType.Holds, IntegerType.isSigned, IntegerType.bits] at h ⊢ <;> omega

theorem renderNumber_spec (flags : Flags) {x : IntegerValue} (h : x.value ≠ -2 ^ 63) :
    ∃ text, renderNumber flags x = some text ∧ IsDecimal flags.plus x.value text := by
  obtain ⟨hmin, hmax, hunsigned⟩ := x.bounds
  have hnegative : (x.type.isSigned && decide (x.value < 0)) = decide (x.value < 0) := by
    cases hs : x.type.isSigned with
    | true => rw [Bool.true_and]
    | false =>
      have := hunsigned hs
      simpa using this
  obtain ⟨b, text, hnumber, hwrote, hdec, hle⟩ := formatNumberInternal_spec
    (b := ⟨List.replicate DEFAULT_BUFFER_SIZE 0, DEFAULT_BUFFER_SIZE - 1, 0⟩) flags.plus
    (fun _ => by omega) hmax (by decide) (by rw [List.length_replicate]; decide)
  refine ⟨text, ?_, hdec⟩
  have hdest : b.dest + text.length = 255 := hwrote.dest
  have hcount : b.numberCount = 0 + text.length := hwrote.count
  have hstart : DEFAULT_BUFFER_SIZE - b.numberCount - 1 = b.dest := by
    have hsize : DEFAULT_BUFFER_SIZE = 256 := rfl
    omega
  have hbehind : b.fmtBuffer.drop b.dest = text ++ [0] := by
    have hlast : (List.replicate DEFAULT_BUFFER_SIZE (0 : CharT)).drop (DEFAULT_BUFFER_SIZE - 1) =
        [0] := by
      rw [List.drop_replicate]
      rfl
    rw [hwrote.behind, hlast]
  unfold renderNumber formatNumber
  rw [hnegative, hnumber, Option.map_some, hstart, hbehind, cstr_terminated hdec.nulFree]

/-! ## Printing -/

section Printing

variable (formatDateTime formatErrorText : Int → List CharT → CText)

/-- Under the plus flag alone every overload prints the number. -/
theorem formatValue_plus (x : IntegerValue) (plus : Bool) (fmtBuffer : List CharT) :
    formatValue formatDateTime formatErrorText x { Flags.zero with plus := plus } fmtBuffer =
      renderNumber { Flags.zero with plus := plus } x := by
  obtain ⟨t, v, h⟩ := x
  cases t <;> rfl

/-- `LLONG_MIN`. -/
def leastLongLong : IntegerValue :=
  ⟨.longLong, -2 ^ 63, by simp [IntegerType.Holds, IntegerType.isSigned, IntegerType.bits]⟩

theorem eq_leastLongLong {x : IntegerValue} (h : x.value = -2 ^ 63) : x = leastLongLong := by
  obtain ⟨t, v, hin⟩ := x
  cases h
  cases t with
  | longLong => rfl
  | short | unsignedShort | int | long | unsignedInt | unsignedLong | unsignedLongLong =>
    exact absurd hin (by simp [IntegerType.Holds, IntegerType.isSigned, IntegerType.bits])

/-- Every remainder of the least value is negative, so that no digit is written. -/
theorem renderNumber_least (plus : Bool) :
    renderNumber { Flags.zero with plus := plus } leastLongLong = some ('-'.toNat ::
      ([9, 2, 2, 3, 3, 7, 2, 0, 3, 6, 8, 5, 4, 7, 7, 5, 8, 0, 8].map ('0'.toNat - ·))) := by
  cases plus <;> decide +kernel

/-- The text of a value is its decimal representation and reads back as the value. -/
def PrintsDecimal (x : IntegerValue) (plus : Bool) (fmtBuffer : List CharT) : Prop :=
  ∃ text, formatValue formatDateTime formatErrorText x { Flags.zero with plus := plus } fmtBuffer =
    some text ∧ IsDecimal plus x.value text ∧ readDecimal text = some x.value

/-- **Integers are printed as their decimal value**, all but the least `long long`. -/
theorem integer_printed_iff (x : IntegerValue) (plus : Bool) (fmtBuffer : List CharT) :
    PrintsDecimal formatDateTime formatErrorText x plus fmtBuffer ↔ x.value ≠ -2 ^ 63 := by
  unfold PrintsDecimal
  rw [formatValue_plus]
  constructor
  · rintro ⟨text, htext, ⟨digits, hsign, hnum⟩, _⟩ hleast
    rw [eq_leastLongLong hleast, renderNumber_least plus, Option.some.injEq] at htext
    -- the first character behind the sign is an apostrophe
    have hsignText : signText plus x.value = ['-'.toNat] := by
      rw [hleast]
      rfl
    rw [← htext, hsignText, List.singleton_append, List.cons.injEq] at hsign
    have hdigit := hnum.isdigit 39 (by rw [← hsign.2]; decide)
    exact absurd hdigit (by decide)
  · intro hleast
    obtain ⟨text, htext, hdec⟩ :=
      renderNumber_spec { Flags.zero with plus := plus } hleast
    exact ⟨text, htext, hdec, readDecimal_of_isDecimal hdec⟩

/-- What `doFormat` renders for an integer argument. -/
def integerText (x : IntegerValue) (flags : Flags) (fmtBuffer : List CharT) : CText :=
  ⟨cstr ((formatValue formatDateTime formatErrorText x flags fmtBuffer).getD []), cstr_nulFree _⟩

/-- A bare `%k` stands for the decimal representation of its argument. -/
theorem argText_integer {args : List IntegerValue} {digits : List CharT} {x : IntegerValue}
    (hx : args[digitsValue digits - 1]? = some x) (h : x.value ≠ -2 ^ 63) :
    IsDecimal false x.value
      (argText (integerText formatDateTime formatErrorText) args digits none) := by
  obtain ⟨text, htext, hdec⟩ := renderNumber_spec .zero h
  have hvalue := formatValue_plus formatDateTime formatErrorText x false []
  have hprinted : formatValue formatDateTime formatErrorText x .zero [] = some text :=
    hvalue.trans htext
  simp only [argText, hx, integerText, Option.map_none, Option.getD_none, hprinted,
    Option.getD_some, cstr_eq_self hdec.nulFree]
  exact hdec

/-- The least `long long` is not printed as a number. -/
theorem least_not_printed :
    ¬ PrintsDecimal (fun _ _ => ⟨[], List.not_mem_nil⟩) (fun _ _ => ⟨[], List.not_mem_nil⟩)
      leastLongLong false [] := by
  rintro ⟨text, htext, _, hread⟩
  rw [formatValue_plus, renderNumber_least, Option.some.injEq] at htext
  subst htext
  exact absurd hread (by decide)

end Printing

end IMonPlatform.Format
