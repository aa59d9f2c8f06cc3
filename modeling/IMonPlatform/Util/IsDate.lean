import IMonPlatform.Util.StringReplace
import IMonPlatform.Util.DateTime

/-!
# `IsDate`

The layout is chosen by whether there is a dash; the fields stand at fixed places, and `_wtoi` reads
them.  It goes over blanks in front of a number and over what is behind it, and nothing looks at the
cells between and behind the fields.

* `IsDate` — the source's function.
* `LenientField`, `Lenient` — what is accepted of a field, and of a text.
* `DateText`, `Shaped` — the two formats, with the numbers in their ranges, and with any numbers.
* `isDate_exact_iff` — `IsDate` tells the two formats exactly from the texts that are shaped or not
  even lenient.
-/

set_option autoImplicit false

namespace IMonPlatform.DateTime

open Format (CharT isdigit digitsValue)
open Logger (Text text)

def DASH : CharT := '-'.toNat

/-! ## The function -/

/-- An `int` that is assigned to an `unsigned int`. -/
def toUnsigned (x : Int) : Nat := (x % 2 ^ 32).toNat

/-- The tests of the three numbers. -/
def testFields (nYear nMonth nDay : Nat) : Bool :=
  if nYear ≤ 0 ∨ 3000 < nYear then false
  else if nMonth ≤ 0 ∨ 12 < nMonth then false
  else if nDay ≤ 0 ∨ 31 < nDay then false
  else true

/-- `none` is `std::out_of_range`. -/
def IsDate (strString : Text) : Option Bool :=
  match find strString [DASH] 0 with
  | none =>
    if (text "YYYYmmdd").length ≤ strString.length then do
      let nYear ← substr strString 0 4
      let nMonth ← substr strString 4 2
      let nDay ← substr strString 6 2
      some (testFields (toUnsigned (wtoi nYear)) (toUnsigned (wtoi nMonth))
        (toUnsigned (wtoi nDay)))
    else some false
  | some _ =>
    if (text "YYYY-mm-dd").length ≤ strString.length then do
      let nYear ← substr strString 0 4
      let nMonth ← substr strString 5 2
      let nDay ← substr strString 8 2
      some (testFields (toUnsigned (wtoi nYear)) (toUnsigned (wtoi nMonth))
        (toUnsigned (wtoi nDay)))
    else some false

/-! ## Texts -/

/-- Four, two and two digits. -/
structure Fields (year month day : Text) : Prop where
  year_length : year.length = 4
  month_length : month.length = 2
  day_length : day.length = 2
  digits : ∀ c ∈ year ++ month ++ day, isdigit c = true

/-- The fields with a separator between them. -/
def arranged (sep year month day : Text) : Text := year ++ (sep ++ (month ++ (sep ++ day)))

def Shaped (s : Text) : Prop :=
  ∃ year month day, Fields year month day ∧
    (s = arranged [] year month day ∨ s = arranged [DASH] year month day)

/-- `YYYYmmdd` or `YYYY-mm-dd` -/
def DateText (s : Text) : Prop :=
  ∃ year month day, Fields year month day ∧
    (1 ≤ digitsValue year ∧ digitsValue year ≤ 3000) ∧
    (1 ≤ digitsValue month ∧ digitsValue month ≤ 12) ∧
    (1 ≤ digitsValue day ∧ digitsValue day ≤ 31) ∧
    (s = arranged [] year month day ∨ s = arranged [DASH] year month day)

/-- Blanks, a plus or none, and the digits of a number from one to the bound, with anything else
behind them. -/
def LenientField (field : Text) (max : Nat) : Prop :=
  ∃ blanks sign digits rest, field = blanks ++ (sign ++ (digits ++ rest)) ∧
    (∀ c ∈ blanks, isspace c = true) ∧ (sign = [] ∨ sign = ['+'.toNat]) ∧
    (∀ c ∈ digits, isdigit c = true) ∧ (∀ c, rest.head? = some c → isdigit c = false) ∧
    1 ≤ digitsValue digits ∧ digitsValue digits ≤ max

/-- The separator that `IsDate` goes by. -/
def separator (s : Text) : Text := if DASH ∈ s then [DASH] else []

/-- The text is long enough, and has such fields at the places of its layout. -/
def Lenient (s : Text) : Prop :=
  8 + 2 * (separator s).length ≤ s.length ∧ LenientField (s.take 4) 3000 ∧
    LenientField ((s.drop (4 + (separator s).length)).take 2) 12 ∧
    LenientField ((s.drop (6 + 2 * (separator s).length)).take 2) 31

/-! ## Fields -/

/-- What the tests ask of a field. -/
def InRange (field : Text) (max : Nat) : Prop :=
  0 < toUnsigned (wtoi field) ∧ toUnsigned (wtoi field) ≤ max

theorem digitsValue_lt (digits : Text) (h : ∀ c ∈ digits, isdigit c = true) :
    digitsValue digits < 10 ^ digits.length := by
  induction digits using List.reverseRecOn with
  | nil => exact Nat.one_pos
  | append_singleton digits c ih =>
    have hc : 48 ≤ c ∧ c ≤ 57 := by simpa [isdigit] using h c (by simp)
    have hlt := ih fun c hc => h c (List.mem_append_left _ hc)
    have hvalue : digitsValue (digits ++ [c]) = 10 * digitsValue digits + (c - '0'.toNat) := by
      simp [digitsValue, List.foldl_append]
    have hdigit : ∀ n : Nat, 48 ≤ n ∧ n ≤ 57 → n - '0'.toNat ≤ 9 := by
      intro n hn
      show n - 48 ≤ 9
      omega
    have hcell := hdigit c hc
    rw [hvalue, List.length_append, List.length_singleton, Nat.pow_succ]
    omega

theorem toUnsigned_natCast {n : Nat} (h : n < 2 ^ 32) : toUnsigned n = n := by
  rw [toUnsigned]
  omega

/-- A negative number is taken for a large one. -/
theorem toUnsigned_neg {n : Nat} (h : n < 10000) :
    ¬ (0 < toUnsigned (-(n : Int)) ∧ toUnsigned (-(n : Int)) ≤ 3000) := by
  rw [toUnsigned]
  omega

/-- A row of digits is in range if its number is. -/
theorem inRange_digits {field : Text} (h : ∀ c ∈ field, isdigit c = true) (hlen : field.length ≤ 4)
    (max : Nat) : InRange field max ↔ 1 ≤ digitsValue field ∧ digitsValue field ≤ max := by
  have hlt := digitsValue_lt field h
  have hpow := Nat.pow_le_pow_right (show 0 < 10 by omega) hlen
  rw [InRange, wtoi_digits h, toUnsigned_natCast (by omega)]
  exact Iff.rfl

theorem takeWhile_digits {digits rest : Text} (hdigits : ∀ c ∈ digits, isdigit c = true)
    (hrest : ∀ c, rest.head? = some c → isdigit c = false) :
    (digits ++ rest).takeWhile isdigit = digits := by
  rw [List.takeWhile_append_of_pos hdigits]
  cases rest with
  | nil => simp
  | cons c rest => simp [hrest c rfl]

theorem isdigit_iff (c : Nat) : isdigit c = true ↔ 48 ≤ c ∧ c ≤ 57 := by
  simp only [isdigit, Bool.and_eq_true, decide_eq_true_eq]
  rfl

/-- The blanks and the plus of a field are passed. -/
theorem wtoi_lenient {blanks sign digits rest : Text} (hblanks : ∀ c ∈ blanks, isspace c = true)
    (hsign : sign = [] ∨ sign = ['+'.toNat]) (hdigits : ∀ c ∈ digits, isdigit c = true)
    (hrest : ∀ c, rest.head? = some c → isdigit c = false) (hne : digits ≠ []) :
    wtoi (blanks ++ (sign ++ (digits ++ rest))) = digitsValue digits := by
  have hskip : ∀ c s, isspace c = false →
      (blanks ++ c :: s).dropWhile isspace = c :: s := by
    intro c s hc
    rw [List.dropWhile_append_of_pos hblanks, List.dropWhile_cons, if_neg (by simp [hc])]
  have hnumber := takeWhile_digits hdigits hrest
  obtain ⟨d, digits, rfl⟩ := List.exists_cons_of_ne_nil hne
  have hd := (isdigit_iff d).mp (hdigits d List.mem_cons_self)
  rw [List.cons_append] at hnumber
  rcases hsign with rfl | rfl
  · have hminus : ¬ d = '-'.toNat := by
      intro heq
      rw [heq] at hd
      exact absurd hd.1 (by decide)
    have hplus : ¬ d = '+'.toNat := by
      intro heq
      rw [heq] at hd
      exact absurd hd.1 (by decide)
    rw [wtoi, List.nil_append, List.cons_append, hskip d _ (isspace_digit hd.1)]
    dsimp only
    rw [if_neg hminus, if_neg hplus, hnumber]
  · rw [wtoi, List.singleton_append, hskip _ _ rfl]
    dsimp only
    rw [if_neg (by decide), if_pos rfl, List.cons_append, hnumber]

/-- Behind the digits at the front of a text there is none. -/
theorem behind_digits (s : Text) (c : CharT) (hc : (s.dropWhile isdigit).head? = some c) :
    isdigit c = false := by
  have hnot := List.head?_dropWhile_not isdigit s
  rw [hc] at hnot
  simpa using hnot

theorem digitsValue_front {s : Text} (hlen : s.length ≤ 4) :
    digitsValue (s.takeWhile isdigit) < 10000 := by
  have hlt := digitsValue_lt (s.takeWhile isdigit) fun c => List.mem_takeWhile_imp
  have hle := (List.takeWhile_prefix isdigit (l := s)).length_le
  have hpow := Nat.pow_le_pow_right (show 0 < 10 by omega) (Nat.le_trans hle hlen)
  omega

theorem lenientField_front {blanks sign s : Text} {max : Nat}
    (hblanks : ∀ c ∈ blanks, isspace c = true) (hsign : sign = [] ∨ sign = ['+'.toNat])
    (hrange : 1 ≤ digitsValue (s.takeWhile isdigit) ∧ digitsValue (s.takeWhile isdigit) ≤ max) :
    LenientField (blanks ++ (sign ++ s)) max := by
  refine ⟨blanks, sign, s.takeWhile isdigit, s.dropWhile isdigit, ?_, hblanks, hsign,
    fun c => List.mem_takeWhile_imp, behind_digits s, hrange⟩
  rw [List.takeWhile_append_dropWhile]

/-- **The tests let a field pass exactly if it is lenient.** -/
theorem inRange_iff {field : Text} (hlen : field.length ≤ 4) {max : Nat} (hmax : max ≤ 3000) :
    InRange field max ↔ LenientField field max := by
  constructor
  · intro h
    have hblanks : ∀ c ∈ field.takeWhile isspace, isspace c = true := fun c =>
      List.mem_takeWhile_imp
    have hsplit : field.takeWhile isspace ++ field.dropWhile isspace = field :=
      List.takeWhile_append_dropWhile
    have hlength : (field.dropWhile isspace).length ≤ 4 :=
      Nat.le_trans (List.dropWhile_suffix isspace).length_le hlen
    rw [InRange, wtoi] at h
    cases hfield : field.dropWhile isspace with
    | nil =>
      rw [hfield] at h
      exact absurd h.1 (by decide)
    | cons c rest =>
      rw [hfield] at h hsplit hlength
      have hvalue := digitsValue_front hlength
      have hvalue' : digitsValue (rest.takeWhile isdigit) < 10000 := by
        refine digitsValue_front ?_
        rw [List.length_cons] at hlength
        omega
      dsimp only at h
      rw [← hsplit]
      by_cases hminus : c = '-'.toNat
      · rw [if_pos hminus] at h
        exact absurd ⟨h.1, by omega⟩ (toUnsigned_neg hvalue')
      · rw [if_neg hminus] at h
        by_cases hplus : c = '+'.toNat
        · rw [if_pos hplus, toUnsigned_natCast (by omega)] at h
          rw [hplus]
          exact lenientField_front hblanks (.inr rfl) h
        · rw [if_neg hplus, toUnsigned_natCast (by omega)] at h
          exact lenientField_front hblanks (.inl rfl) h
  · rintro ⟨blanks, sign, digits, rest, rfl, hblanks, hsign, hdigits, hrest, hpos, hle⟩
    have hne : digits ≠ [] := by
      rintro rfl
      exact absurd hpos (by decide)
    rw [InRange, wtoi_lenient hblanks hsign hdigits hrest hne, toUnsigned_natCast (by omega)]
    exact ⟨hpos, hle⟩

/-! ## The layout -/

theorem testFields_iff {nYear nMonth nDay : Nat} : testFields nYear nMonth nDay = true ↔
    (0 < nYear ∧ nYear ≤ 3000) ∧ (0 < nMonth ∧ nMonth ≤ 12) ∧ (0 < nDay ∧ nDay ≤ 31) := by
  rw [testFields]
  split
  · exact ⟨nofun, fun h => by omega⟩
  · split
    · exact ⟨nofun, fun h => by omega⟩
    · split
      · exact ⟨nofun, fun h => by omega⟩
      · exact ⟨fun _ => by omega, fun _ => rfl⟩

theorem find_dash (s : Text) : (find s [DASH] 0).isSome = true ↔ DASH ∈ s := by
  rw [show find s [DASH] 0 = (Replace.firstAt [DASH] s).map (0 + ·) from find_append [] s [DASH],
    Option.isSome_map, Replace.firstAt_isSome_iff, List.singleton_infix_iff]

theorem substr_within {s : Text} {pos n : Nat} (h : pos ≤ s.length) :
    substr s pos n = some ((s.drop pos).take n) := if_pos h

/-- What a layout accepts: it has a length, and the places of the month and the day. -/
theorem layout_accepts (s : Text) {len month day : Nat} (hmonth : month ≤ len) (hday : day ≤ len) :
    ∃ b, (if len ≤ s.length then do
        let nYear ← substr s 0 4
        let nMonth ← substr s month 2
        let nDay ← substr s day 2
        some (testFields (toUnsigned (wtoi nYear)) (toUnsigned (wtoi nMonth))
          (toUnsigned (wtoi nDay)))
      else some false) = some b ∧
      (b = true ↔ len ≤ s.length ∧ InRange (s.take 4) 3000 ∧
        InRange ((s.drop month).take 2) 12 ∧ InRange ((s.drop day).take 2) 31) := by
  by_cases hlen : len ≤ s.length
  · rw [if_pos hlen, substr_within (Nat.zero_le _), substr_within (by omega),
      substr_within (by omega), List.drop_zero]
    refine ⟨_, rfl, ?_⟩
    rw [testFields_iff]
    exact ⟨fun h => ⟨hlen, h⟩, And.right⟩
  · rw [if_neg hlen]
    exact ⟨false, rfl, nofun, fun h => absurd h.1 hlen⟩

/-- **`IsDate` accepts the lenient texts**, and throws at none. -/
theorem isDate_eq (s : Text) : ∃ b, IsDate s = some b ∧ (b = true ↔ Lenient s) := by
  have hyear := inRange_iff (List.length_take_le 4 s) (Nat.le_refl 3000)
  have hfield : ∀ pos max, max ≤ 3000 →
      (InRange ((s.drop pos).take 2) max ↔ LenientField ((s.drop pos).take 2) max) := by
    intro pos max hmax
    have htake := List.length_take_le 2 (s.drop pos)
    exact inRange_iff (by omega) hmax
  rw [Lenient, ← hyear, ← hfield _ 12 (by omega), ← hfield _ 31 (by omega), separator, IsDate]
  cases hfind : find s [DASH] 0 with
  | none =>
    have hdash : DASH ∉ s := by
      rw [← find_dash, hfind]
      exact Bool.false_ne_true
    rw [if_neg hdash]
    exact layout_accepts s (by decide) (by decide)
  | some pos =>
    have hdash : DASH ∈ s := by
      rw [← find_dash, hfind]
      rfl
    rw [if_pos hdash]
    exact layout_accepts s (by decide) (by decide)

section Arranged

variable {year month day : Text}

theorem Fields.noDash (h : Fields year month day) : DASH ∉ year ++ month ++ day :=
  fun hmem => absurd (h.digits DASH hmem) (by decide)

/-- The separator of a text in one of the formats. -/
theorem separator_arranged (h : Fields year month day) {sep : Text}
    (hsep : sep = [] ∨ sep = [DASH]) : separator (arranged sep year month day) = sep := by
  rcases hsep with rfl | rfl
  · have hno := h.noDash
    rw [List.append_assoc] at hno
    exact if_neg hno
  · have hmem : DASH ∈ arranged [DASH] year month day := by simp [arranged]
    exact if_pos hmem

/-- **A text in one of the formats is lenient exactly if its numbers are in range.** -/
theorem lenient_arranged (h : Fields year month day) {sep : Text}
    (hsep : sep = [] ∨ sep = [DASH]) : Lenient (arranged sep year month day) ↔
      (1 ≤ digitsValue year ∧ digitsValue year ≤ 3000) ∧
      (1 ≤ digitsValue month ∧ digitsValue month ≤ 12) ∧
      (1 ≤ digitsValue day ∧ digitsValue day ≤ 31) := by
  obtain ⟨hyear, hmonth, hday, hdigits⟩ := h
  have hfield : ∀ field : Text, field ⊆ year ++ month ++ day → field.length ≤ 4 → ∀ max ≤ 3000,
      (LenientField field max ↔ 1 ≤ digitsValue field ∧ digitsValue field ≤ max) := by
    intro field hsub hlen max hmax
    rw [← inRange_iff hlen hmax, inRange_digits (fun c hc => hdigits c (hsub hc)) hlen]
  -- the fields of the layout stand where they are looked for
  have hy : (arranged sep year month day).take 4 = year := by
    rw [arranged, ← hyear, List.take_left]
  have hm : ((arranged sep year month day).drop (4 + sep.length)).take 2 = month := by
    rw [arranged, ← hyear, ← List.append_assoc, ← List.length_append, List.drop_left, ← hmonth,
      List.take_left]
  have hd : ((arranged sep year month day).drop (6 + 2 * sep.length)).take 2 = day := by
    have hfront : 6 + 2 * sep.length = (year ++ (sep ++ (month ++ sep))).length := by
      simp only [List.length_append]
      omega
    have hparts : arranged sep year month day = year ++ (sep ++ (month ++ sep)) ++ day := by
      simp only [arranged, List.append_assoc]
    rw [hfront, hparts, List.drop_left, List.take_of_length_le (Nat.le_of_eq hday)]
  have hlength : 8 + 2 * sep.length ≤ (arranged sep year month day).length := by
    simp only [arranged, List.length_append]
    omega
  rw [Lenient, separator_arranged ⟨hyear, hmonth, hday, hdigits⟩ hsep, hy, hm, hd,
    hfield year (by simp) (by omega) 3000 (by omega),
    hfield month (by simp) (by omega) 12 (by omega), hfield day (by simp) (by omega) 31 (by omega)]
  exact and_iff_right hlength

end Arranged

/-- **`IsDate` tells a date exactly where the text has one of the two layouts, or is not even
lenient.** -/
theorem isDate_exact_iff (s : Text) :
    (IsDate s = some true ↔ DateText s) ↔ Shaped s ∨ ¬ Lenient s := by
  obtain ⟨b, hdate, hb⟩ := isDate_eq s
  rw [hdate, Option.some.injEq, hb]
  have hshaped : Shaped s → (Lenient s ↔ DateText s) := by
    rintro ⟨year, month, day, hfields, hs⟩
    constructor
    · intro hlenient
      refine ⟨year, month, day, hfields, ?_⟩
      rcases hs with rfl | rfl
      · obtain ⟨hy, hm, hd⟩ := (lenient_arranged hfields (.inl rfl)).mp hlenient
        exact ⟨hy, hm, hd, .inl rfl⟩
      · obtain ⟨hy, hm, hd⟩ := (lenient_arranged hfields (.inr rfl)).mp hlenient
        exact ⟨hy, hm, hd, .inr rfl⟩
    · rintro ⟨year', month', day', hfields', hy, hm, hd, hs' | hs'⟩
      · rw [hs']
        exact (lenient_arranged hfields' (.inl rfl)).mpr ⟨hy, hm, hd⟩
      · rw [hs']
        exact (lenient_arranged hfields' (.inr rfl)).mpr ⟨hy, hm, hd⟩
  have hdate : DateText s → Shaped s := by
    rintro ⟨year, month, day, hfields, -, -, -, hs⟩
    exact ⟨year, month, day, hfields, hs⟩
  constructor
  · intro h
    by_cases hlenient : Lenient s
    · exact .inl (hdate (h.mp hlenient))
    · exact .inr hlenient
  · rintro (h | h)
    · exact hshaped h
    · exact ⟨fun hlenient => absurd hlenient h, fun hd => (hshaped (hdate hd)).mpr hd⟩

/-- A date with a cell too many is accepted. -/
theorem long_date_accepted :
    IsDate (text "2020-01-01x") = some true ∧ ¬ DateText (text "2020-01-01x") := by
  refine ⟨by decide, ?_⟩
  rintro ⟨year, month, day, hfields, -, -, -, hs⟩
  have hlen : (text "2020-01-01x").length = 11 := rfl
  rcases hs with hs | hs
  all_goals
    rw [hs] at hlen
    simp only [arranged, List.length_append, List.length_nil, List.length_singleton,
      hfields.year_length, hfields.month_length, hfields.day_length] at hlen
    omega

end IMonPlatform.DateTime
