import IMonPlatform.Logger.Rotation

/-!
# `formatElapsedTime`

Both overloads replace `%H`, `%M` and `%S` one after the other, by numbers, so that nothing that has
been put in is replaced again.  The overload of `std::wstring` starts from an empty text where there
is no `%H`.

* `formatElapsedTime`, `formatElapsedTimeCString` — the two overloads.
* `fillIn` — the text with all three directives filled in at once.
* `AgreeOn` — both return it; `agreeOn_iff` — for a text with `%H`, and for the empty one.
-/

set_option autoImplicit false

namespace IMonPlatform.ElapsedTime

open Format (CharT)
open Logger (Text text decimal)
open Replace

/-! ## The overloads -/

def sec (elapsedTimeSec : UInt32) : UInt32 := elapsedTimeSec % 60

def hour (elapsedTimeSec : UInt32) : UInt32 :=
  if 60 ≤ elapsedTimeSec / 60 then elapsedTimeSec / 60 / 60 else 0

def minute (elapsedTimeSec : UInt32) : UInt32 :=
  if 60 ≤ elapsedTimeSec / 60 then elapsedTimeSec / 60 % 60 else elapsedTimeSec / 60

/-- `format(L"%d", n)`; the directive takes the number for a signed one. -/
def formatD (n : UInt32) : Text :=
  if n.toNat < 2 ^ 31 then decimal n.toNat else '-'.toNat :: decimal (2 ^ 32 - n.toNat)

/-- The overload of `std::wstring`. -/
def formatElapsedTime (elapsedTimeSec : UInt32) (fmt : Text) : Option Text := do
  let formatText : Text := []
  let formatText ←
    match find fmt (text "%H") 0 with
    | none =>
      string_replace_all formatText (text "%M")
        (formatD (minute elapsedTimeSec + hour elapsedTimeSec * 60))
    | some _ => do
      let formatText ← string_replace_all fmt (text "%H") (formatD (hour elapsedTimeSec))
      string_replace_all formatText (text "%M") (formatD (minute elapsedTimeSec))
  string_replace_all formatText (text "%S") (formatD (sec elapsedTimeSec))

/-- `CString::Find`, which searches the text up to its NUL. -/
def cstringFind (s pattern : Text) : Option Nat := firstAt pattern (s.takeWhile (· ≠ 0))

/-- The overload of `CString`. -/
def formatElapsedTimeCString (elapsedTimeSec : UInt32) (fmt : Text) : Text :=
  let formatText :=
    if (cstringFind fmt (text "%H")).isSome = true then
      replaceAll (text "%M") (formatD (minute elapsedTimeSec))
        (replaceAll (text "%H") (formatD (hour elapsedTimeSec)) fmt)
    else
      replaceAll (text "%M") (formatD (minute elapsedTimeSec + hour elapsedTimeSec * 60)) fmt
  replaceAll (text "%S") (formatD (sec elapsedTimeSec)) formatText

/-! ## What they are for -/

/-- The three directives filled in at once. -/
def fillIn (h m s : Nat) : Text → Text :=
  fill '%'.toNat fun c =>
    if c = 'S'.toNat then some (decimal s)
    else if c = 'M'.toNat then some (decimal m)
    else if c = 'H'.toNat then some (decimal h)
    else none

/-- Both overloads return the text with the hours, minutes and seconds, or with the minutes in total
where there is no `%H`. -/
def AgreeOn (elapsedTimeSec : UInt32) (fmt : Text) : Prop :=
  ∃ h m s, 3600 * h + 60 * m + s = elapsedTimeSec.toNat ∧ m < 60 ∧ s < 60 ∧
    formatElapsedTime elapsedTimeSec fmt = some (formatElapsedTimeCString elapsedTimeSec fmt) ∧
    formatElapsedTime elapsedTimeSec fmt =
      some (fillIn h (if text "%H" <:+: fmt then m else 60 * h + m) s fmt)

/-! ## The numbers -/

section Numbers

variable (e : UInt32)

theorem sec_eq : (sec e).toNat = e.toNat % 60 := by
  rw [sec, UInt32.toNat_mod]
  rfl

theorem minutes_eq : (e / 60).toNat = e.toNat / 60 := by
  rw [UInt32.toNat_div]
  rfl

theorem sixty_le_iff : 60 ≤ e / 60 ↔ 60 ≤ e.toNat / 60 := by
  rw [UInt32.le_iff_toNat_le, minutes_eq]
  rfl

theorem hour_eq : (hour e).toNat = e.toNat / 3600 := by
  rw [hour]
  split
  · rw [UInt32.toNat_div, minutes_eq]
    show e.toNat / 60 / 60 = e.toNat / 3600
    omega
  · rename_i hlt
    rw [sixty_le_iff] at hlt
    show 0 = e.toNat / 3600
    omega

theorem minute_eq : (minute e).toNat = e.toNat / 60 % 60 := by
  rw [minute]
  split
  · rw [UInt32.toNat_mod, minutes_eq]
    rfl
  · rename_i hlt
    rw [sixty_le_iff] at hlt
    rw [minutes_eq]
    omega

/-- The total fits. -/
theorem total_eq : (minute e + hour e * 60).toNat = e.toNat / 60 := by
  have hlt := e.toNat_lt
  rw [UInt32.toNat_add, UInt32.toNat_mul, minute_eq, hour_eq]
  show (e.toNat / 60 % 60 + e.toNat / 3600 * 60 % 2 ^ 32) % 2 ^ 32 = e.toNat / 60
  omega

/-- None of the numbers is negative. -/
theorem formatD_eq {n : UInt32} {i : Nat} (h : n.toNat = i) (hi : i < 2 ^ 31) :
    formatD n = decimal i := by
  rw [formatD, h, if_pos hi]

end Numbers

theorem decimal_ne_nil (n : Nat) : decimal n ≠ [] := by
  rw [decimal, Ne, List.map_eq_nil_iff]
  exact Nat.toDigits_ne_nil

theorem decimal_digit {n c : Nat} (h : c ∈ decimal n) : 48 ≤ c ∧ c ≤ 57 := by
  obtain ⟨d, hd, rfl⟩ := List.mem_map.mp h
  have hdigit := Nat.isDigit_of_mem_toDigits (by omega) (by omega) hd
  rw [Char.isDigit_iff_toNat] at hdigit
  exact hdigit

/-! ## Replacing one after the other -/

/-- What is filled in are numbers. -/
def Numeric (f : CharT → Option Text) : Prop := ∀ c r, f c = some r → ∃ n, r = decimal n

theorem numeric_none : Numeric fun _ => none := fun _ _ h => nomatch h

theorem Numeric.insert {f : CharT → Option Text} (h : Numeric f) (d : CharT) (n : Nat) :
    Numeric fun c => if c = d then some (decimal n) else f c := by
  intro c r hr
  dsimp only at hr
  split at hr
  · exact ⟨n, (Option.some.inj hr).symm⟩
  · exact h c r hr

/-- No number has a `%` or a letter. -/
theorem Numeric.clean {f : CharT → Option Text} (h : Numeric f) {d : Nat} (hd : 57 < d)
    (hmarker : f '%'.toNat = none) : Clean '%'.toNat d f where
  ne := by
    show d ≠ (37 : Nat)
    omega
  marker_none := hmarker
  nonempty := by
    intro c hc
    obtain ⟨n, hn⟩ := h c _ hc
    exact decimal_ne_nil n hn.symm
  noMarker := by
    intro c r hr hmem
    obtain ⟨n, rfl⟩ := h c r hr
    have hle : 48 ≤ (37 : Nat) := (decimal_digit hmem).1
    omega
  noLetter := by
    intro c r hr hmem
    obtain ⟨n, rfl⟩ := h c r hr
    have hle := (decimal_digit hmem).2
    omega

theorem numeric_fillIn (h m s : Nat) : Numeric fun c : CharT =>
    if c = 'S'.toNat then some (decimal s)
    else if c = 'M'.toNat then some (decimal m)
    else if c = 'H'.toNat then some (decimal h)
    else none :=
  ((numeric_none.insert _ h).insert _ m).insert _ s

/-- **The three replacements fill in at once.** -/
theorem replaceAll_fillIn (h m s : Nat) (fmt : Text) :
    replaceAll (text "%S") (decimal s) (replaceAll (text "%M") (decimal m)
      (replaceAll (text "%H") (decimal h) fmt)) = fillIn h m s fmt := by
  have hH := numeric_none.clean (d := 'H'.toNat) (by decide) rfl
  have hM := (numeric_none.insert 'H'.toNat h).clean (d := 'M'.toNat) (by decide) rfl
  have hS := ((numeric_none.insert 'H'.toNat h).insert 'M'.toNat m).clean (d := 'S'.toNat)
    (by decide) rfl
  have hnothing : fill '%'.toNat (fun _ => none) fmt = fmt := fill_nothing fmt
  conv_lhs => rw [← hnothing]
  show replaceAll ['%'.toNat, 'S'.toNat] _ (replaceAll ['%'.toNat, 'M'.toNat] _
    (replaceAll ['%'.toNat, 'H'.toNat] _ _)) = _
  rw [replaceAll_fill hH rfl, replaceAll_fill hM rfl, replaceAll_fill hS rfl]
  rfl

/-- Without hours. -/
def fillMinutes (t s : Nat) : Text → Text :=
  fill '%'.toNat fun c =>
    if c = 'S'.toNat then some (decimal s)
    else if c = 'M'.toNat then some (decimal t)
    else none

theorem numeric_fillMinutes (t s : Nat) : Numeric fun c : CharT =>
    if c = 'S'.toNat then some (decimal s)
    else if c = 'M'.toNat then some (decimal t)
    else none :=
  (numeric_none.insert _ t).insert _ s

theorem replaceAll_fillMinutes (t s : Nat) (fmt : Text) :
    replaceAll (text "%S") (decimal s) (replaceAll (text "%M") (decimal t) fmt) =
      fillMinutes t s fmt := by
  have hM := numeric_none.clean (d := 'M'.toNat) (by decide) rfl
  have hS := (numeric_none.insert 'M'.toNat t).clean (d := 'S'.toNat) (by decide) rfl
  have hnothing : fill '%'.toNat (fun _ => none) fmt = fmt := fill_nothing fmt
  conv_lhs => rw [← hnothing]
  show replaceAll ['%'.toNat, 'S'.toNat] _ (replaceAll ['%'.toNat, 'M'.toNat] _ _) = _
  rw [replaceAll_fill hM rfl, replaceAll_fill hS rfl]
  rfl

/-- No `%H` is left where all three are filled in. -/
theorem fillIn_noHour (h m s : Nat) (fmt : Text) : ¬ text "%H" <:+: fillIn h m s fmt := by
  intro hin
  have hclean := (numeric_fillIn h m s).clean (d := 'H'.toNat) (by decide) rfl
  exact absurd ((infix_fill_iff hclean fmt).mp hin).1 (Option.some_ne_none (decimal h))

/-- A `%H` is left without hours. -/
theorem fillMinutes_hour {t s : Nat} {fmt : Text} (h : text "%H" <:+: fmt) :
    text "%H" <:+: fillMinutes t s fmt :=
  (infix_fill_iff ((numeric_fillMinutes t s).clean (d := 'H'.toNat) (by decide) rfl) fmt).mpr
    ⟨rfl, h⟩

theorem fillMinutes_ne_nil {t s : Nat} {fmt : Text} (h : fmt ≠ []) : fillMinutes t s fmt ≠ [] :=
  fill_ne_nil ((numeric_fillMinutes t s).clean (d := 'H'.toNat) (by decide) rfl).nonempty h

/-- Without a `%H` in the text it makes no difference what hours stand for. -/
theorem fillIn_eq_fillMinutes {fmt : Text} (hhour : ¬ text "%H" <:+: fmt) (h m s : Nat) :
    fillIn h m s fmt = fillMinutes m s fmt := by
  rw [← replaceAll_fillIn, replaceAll_of_notInfix hhour, replaceAll_fillMinutes]

/-! ## What the overloads return -/

section Overloads

variable (e : UInt32) (fmt : Text)

theorem find_isSome_iff (pattern : Text) :
    (find fmt pattern 0).isSome = true ↔ pattern <:+: fmt := by
  rw [show find fmt pattern 0 = (firstAt pattern fmt).map (0 + ·) from find_append [] fmt pattern,
    Option.isSome_map, firstAt_isSome_iff]

theorem directives_ne_nil : text "%H" ≠ [] ∧ text "%M" ≠ [] ∧ text "%S" ≠ [] :=
  ⟨List.cons_ne_nil _ _, List.cons_ne_nil _ _, List.cons_ne_nil _ _⟩

theorem formatElapsedTime_hour (h : text "%H" <:+: fmt) : formatElapsedTime e fmt =
    some (fillIn (e.toNat / 3600) (e.toNat / 60 % 60) (e.toNat % 60) fmt) := by
  have hlt := e.toNat_lt
  obtain ⟨hH, hM, hS⟩ := directives_ne_nil
  obtain ⟨pos, hpos⟩ := Option.isSome_iff_exists.mp ((find_isSome_iff fmt (text "%H")).mpr h)
  rw [formatElapsedTime, hpos]
  dsimp only
  rw [string_replace_all_eq hH, Option.bind_eq_bind, Option.bind_some,
    string_replace_all_eq hM, Option.bind_some, string_replace_all_eq hS,
    formatD_eq (hour_eq e) (by omega), formatD_eq (minute_eq e) (by omega),
    formatD_eq (sec_eq e) (by omega), replaceAll_fillIn]

/-- Without a `%H` the text is lost. -/
theorem formatElapsedTime_noHour (h : ¬ text "%H" <:+: fmt) :
    formatElapsedTime e fmt = some [] := by
  have hnone : find fmt (text "%H") 0 = none := by
    rw [← Option.not_isSome_iff_eq_none, find_isSome_iff]
    exact h
  obtain ⟨_, hM, hS⟩ := directives_ne_nil
  rw [formatElapsedTime, hnone]
  dsimp only
  rw [string_replace_all_eq hM, Option.bind_eq_bind, Option.bind_some, string_replace_all_eq hS]
  rfl

theorem formatElapsedTimeCString_eq : formatElapsedTimeCString e fmt =
    if text "%H" <:+: fmt.takeWhile (· ≠ 0) then
      fillIn (e.toNat / 3600) (e.toNat / 60 % 60) (e.toNat % 60) fmt
    else fillMinutes (e.toNat / 60) (e.toNat % 60) fmt := by
  have hlt := e.toNat_lt
  rw [formatElapsedTimeCString, formatD_eq (hour_eq e) (by omega),
    formatD_eq (minute_eq e) (by omega), formatD_eq (sec_eq e) (by omega),
    formatD_eq (total_eq e) (by omega), cstringFind]
  simp only [firstAt_isSome_iff]
  split
  · exact replaceAll_fillIn _ _ _ fmt
  · exact replaceAll_fillMinutes _ _ fmt

/-- The overload of `CString` writes what it is for, with and without hours. -/
theorem formatElapsedTimeCString_fillIn (hnul : fmt.takeWhile (· ≠ 0) = fmt) :
    formatElapsedTimeCString e fmt = fillIn (e.toNat / 3600)
      (if text "%H" <:+: fmt then e.toNat / 60 % 60 else 60 * (e.toNat / 3600) + e.toNat / 60 % 60)
      (e.toNat % 60) fmt := by
  rw [formatElapsedTimeCString_eq, hnul]
  split
  · rfl
  · rename_i hhour
    rw [fillIn_eq_fillMinutes hhour,
      show 60 * (e.toNat / 3600) + e.toNat / 60 % 60 = e.toNat / 60 by omega]

/-- **The overloads agree exactly on the texts with a `%H` in front of a NUL**, and on the empty
one. -/
theorem agreeOn_iff :
    AgreeOn e fmt ↔ fmt = [] ∨ text "%H" <:+: fmt.takeWhile (· ≠ 0) := by
  have hpre : fmt.takeWhile (· ≠ 0) <:+: fmt := (List.takeWhile_prefix _).isInfix
  constructor
  · rintro ⟨h, m, s, _, _, _, hagree, _⟩
    by_contra hcond
    rw [not_or] at hcond
    rw [formatElapsedTimeCString_eq, if_neg hcond.2] at hagree
    by_cases hhour : text "%H" <:+: fmt
    · -- a `%H` behind a NUL is left by the one and not by the other
      rw [formatElapsedTime_hour e fmt hhour, Option.some.injEq] at hagree
      have hleft : text "%H" <:+: fillMinutes (e.toNat / 60) (e.toNat % 60) fmt :=
        fillMinutes_hour hhour
      rw [← hagree] at hleft
      exact fillIn_noHour _ _ _ fmt hleft
    · rw [formatElapsedTime_noHour e fmt hhour, Option.some.injEq] at hagree
      exact fillMinutes_ne_nil hcond.1 hagree.symm
  · intro hcond
    refine ⟨e.toNat / 3600, e.toNat / 60 % 60, e.toNat % 60, by omega, by omega, by omega, ?_⟩
    rcases hcond with rfl | hhour
    · have hno : ¬ text "%H" <:+: ([] : Text) := fun hin =>
        directives_ne_nil.1 (List.infix_nil.mp hin)
      rw [formatElapsedTime_noHour e [] hno]
      exact ⟨rfl, rfl⟩
    · have hin : text "%H" <:+: fmt := hhour.trans hpre
      rw [formatElapsedTime_hour e fmt hin, formatElapsedTimeCString_eq, if_pos hhour, if_pos hin]
      exact ⟨rfl, rfl⟩

end Overloads

/-- A minute, without hours: the overload of `std::wstring` has no text. -/
theorem minutes_lost : formatElapsedTime 60 (text "%M:%S") = some [] ∧
    formatElapsedTimeCString 60 (text "%M:%S") = text "1:0" ∧ ¬ AgreeOn 60 (text "%M:%S") := by
  have hlost : formatElapsedTime 60 (text "%M:%S") = some [] := by decide
  have hkept : formatElapsedTimeCString 60 (text "%M:%S") = text "1:0" := by decide
  refine ⟨hlost, hkept, ?_⟩
  rintro ⟨h, m, s, _, _, _, hagree, _⟩
  rw [hlost, hkept] at hagree
  cases hagree

end IMonPlatform.ElapsedTime
