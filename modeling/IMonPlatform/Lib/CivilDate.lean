import Mathlib.Algebra.Ring.Int.Defs
import Mathlib.Data.Nat.Find

/-!
# Dates of the Gregorian calendar

A date is a year, a month counted from 0 and a day of the month counted from 1, of which the month
has that many.

* `CivilDate`, `Before` — dates and their order.
* `dayOfYear` — the days of the year before a date; `dayOfYear_lt_iff` — within one year it tells
  the order of two dates.
* `dayNumber` — the days before a date since 1 January of the year 1; `dayNumber_inj` — it tells the
  date.
* `ofDayNumber` — the date of a day number; the two are inverse.
-/

set_option autoImplicit false

/-- A leap year has a 29 February. -/
def isLeap (year : Int) : Bool :=
  decide (year % 4 = 0) && (decide (year % 100 ≠ 0) || decide (year % 400 = 0))

/-- The days of a month. -/
def monthLength (year : Int) (month : Nat) : Nat :=
  if month = 1 then if isLeap year then 29 else 28
  else if month = 3 ∨ month = 5 ∨ month = 8 ∨ month = 10 then 30
  else 31

/-- The days of a year before a month. -/
def daysBefore (year : Int) : Nat → Nat
  | 0 => 0
  | month + 1 => daysBefore year month + monthLength year month

structure CivilDate where
  year : Int
  month : Nat
  day : Nat
  month_lt : month < 12
  day_pos : 1 ≤ day
  day_le : day ≤ monthLength year month
  deriving DecidableEq

namespace CivilDate

theorem day_le_31 (a : CivilDate) : a.day ≤ 31 := by
  have hlength : monthLength a.year a.month ≤ 31 := by
    unfold monthLength
    split
    · split <;> omega
    · split <;> omega
  exact Nat.le_trans a.day_le hlength

/-- By the year, then the month, then the day. -/
def Before (a b : CivilDate) : Prop :=
  a.year < b.year ∨ a.year = b.year ∧ (a.month < b.month ∨ a.month = b.month ∧ a.day < b.day)

instance (a b : CivilDate) : Decidable (a.Before b) := inferInstanceAs (Decidable (_ ∨ _))

/-- The days of its year before a date. -/
def dayOfYear (a : CivilDate) : Nat := daysBefore a.year a.month + (a.day - 1)

@[ext] theorem ext {a b : CivilDate} (hyear : a.year = b.year) (hmonth : a.month = b.month)
    (hday : a.day = b.day) : a = b := by
  cases a
  cases b
  cases hyear
  cases hmonth
  cases hday
  rfl

theorem eq_or_before (a b : CivilDate) : a = b ∨ a.Before b ∨ b.Before a := by
  by_cases hab : a.Before b
  · exact .inr (.inl hab)
  by_cases hba : b.Before a
  · exact .inr (.inr hba)
  unfold Before at hab hba
  exact .inl (ext (by omega) (by omega) (by omega))

theorem daysBefore_mono (year : Int) {m m' : Nat} (h : m ≤ m') :
    daysBefore year m ≤ daysBefore year m' := by
  induction h with
  | refl => exact Nat.le_refl _
  | step _ ih =>
    rw [daysBefore]
    omega

/-- A later month begins behind every day of an earlier one. -/
theorem dayOfYear_lt_of_month {a b : CivilDate} (hyear : a.year = b.year)
    (hmonth : a.month < b.month) : a.dayOfYear < b.dayOfYear := by
  have hnext : daysBefore a.year (a.month + 1) ≤ daysBefore a.year b.month :=
    daysBefore_mono a.year hmonth
  rw [daysBefore] at hnext
  have hday := a.day_le
  have hpos := a.day_pos
  unfold dayOfYear
  rw [← hyear]
  omega

/-- **Within a year the day of the year tells the order.** -/
theorem dayOfYear_lt_iff {a b : CivilDate} (hyear : a.year = b.year) :
    a.dayOfYear < b.dayOfYear ↔ a.Before b := by
  have hbefore : ∀ {a b : CivilDate}, a.year = b.year → a.Before b →
      a.dayOfYear < b.dayOfYear := by
    rintro a b hyear (hlt | ⟨-, hmonth | ⟨hmonth, hday⟩⟩)
    · omega
    · exact dayOfYear_lt_of_month hyear hmonth
    · have hpos := a.day_pos
      unfold dayOfYear
      rw [hyear, hmonth]
      omega
  constructor
  · intro hlt
    rcases eq_or_before a b with rfl | h | h
    · omega
    · exact h
    · have := hbefore hyear.symm h
      omega
  · exact hbefore hyear

end CivilDate

/-! ## Day numbers -/

/-- The days since 1 January of the year 1 before a year. -/
def daysBeforeYear (year : Int) : Int :=
  365 * (year - 1) + (year - 1) / 4 - (year - 1) / 100 + (year - 1) / 400

theorem isLeap_iff (year : Int) :
    isLeap year = true ↔ year % 4 = 0 ∧ (year % 100 ≠ 0 ∨ year % 400 = 0) := by
  simp [isLeap]

theorem daysBefore_twelve (year : Int) :
    daysBefore year 12 = if isLeap year then 366 else 365 := by
  simp only [daysBefore, monthLength]
  cases isLeap year <;> rfl

theorem daysBeforeYear_succ (year : Int) :
    daysBeforeYear (year + 1) = daysBeforeYear year + daysBefore year 12 := by
  rw [daysBefore_twelve]
  unfold daysBeforeYear
  split
  · rename_i h
    rw [isLeap_iff] at h
    omega
  · rename_i h
    rw [isLeap_iff] at h
    omega

theorem daysBeforeYear_mono {y y' : Int} (h : y ≤ y') : daysBeforeYear y ≤ daysBeforeYear y' := by
  unfold daysBeforeYear
  omega

/-- The year that a day number is in. -/
def yearOfDay (n : Int) : Int :=
  let year := 400 * n / 146097 + 1
  if daysBeforeYear (year + 1) ≤ n then year + 1
  else if n < daysBeforeYear year then year - 1
  else year

theorem yearOfDay_spec (n : Int) :
    daysBeforeYear (yearOfDay n) ≤ n ∧ n < daysBeforeYear (yearOfDay n + 1) := by
  unfold yearOfDay daysBeforeYear
  dsimp only
  split
  · omega
  split
  · omega
  · omega

namespace CivilDate

theorem dayOfYear_lt (a : CivilDate) : a.dayOfYear < daysBefore a.year 12 := by
  have hnext : daysBefore a.year (a.month + 1) ≤ daysBefore a.year 12 :=
    daysBefore_mono a.year a.month_lt
  rw [daysBefore] at hnext
  have hday := a.day_le
  have hpos := a.day_pos
  unfold dayOfYear
  omega

/-- The days since 1 January of the year 1 before a date. -/
def dayNumber (a : CivilDate) : Int := daysBeforeYear a.year + a.dayOfYear

theorem dayNumber_lt_of_before {a b : CivilDate} (h : a.Before b) : a.dayNumber < b.dayNumber := by
  by_cases hyear : a.year = b.year
  · have hlt := (dayOfYear_lt_iff hyear).mpr h
    unfold dayNumber
    rw [hyear]
    omega
  · have hnext : a.year + 1 ≤ b.year := by
      unfold Before at h
      omega
    have hmono := daysBeforeYear_mono hnext
    have hlt := a.dayOfYear_lt
    rw [daysBeforeYear_succ] at hmono
    unfold dayNumber
    omega

/-- **The day number tells the date.** -/
theorem dayNumber_inj {a b : CivilDate} (h : a.dayNumber = b.dayNumber) : a = b := by
  rcases eq_or_before a b with heq | hlt | hlt
  · exact heq
  · have := dayNumber_lt_of_before hlt
    omega
  · have := dayNumber_lt_of_before hlt
    omega

/-- The month that a day of a year is in. -/
def monthOfDay (year : Int) (day : Nat) : Nat :=
  Nat.findGreatest (fun month => daysBefore year month ≤ day) 11

theorem monthOfDay_spec {year : Int} {day : Nat} (h : day < daysBefore year 12) :
    monthOfDay year day < 12 ∧ daysBefore year (monthOfDay year day) ≤ day ∧
      day < daysBefore year (monthOfDay year day + 1) := by
  have hle : monthOfDay year day ≤ 11 := Nat.findGreatest_le 11
  have hmonth : daysBefore year (monthOfDay year day) ≤ day :=
    Nat.findGreatest_spec (P := fun month => daysBefore year month ≤ day) (Nat.zero_le 11)
      (Nat.zero_le day)
  refine ⟨by omega, hmonth, ?_⟩
  by_contra hno
  rcases Nat.lt_or_ge (monthOfDay year day) 11 with hlt | hge
  · have hgreatest := Nat.findGreatest_is_greatest (P := fun month => daysBefore year month ≤ day)
      (Nat.lt_succ_self (monthOfDay year day)) hlt
    exact hgreatest (Nat.le_of_not_lt hno)
  · have heq : monthOfDay year day = 11 := by omega
    rw [heq] at hno
    exact hno h

/-- The day of its year that a day number is, counted from 0. -/
def dayInYear (n : Int) : Nat := (n - daysBeforeYear (yearOfDay n)).toNat

theorem dayInYear_lt (n : Int) : dayInYear n < daysBefore (yearOfDay n) 12 := by
  obtain ⟨hlow, hhigh⟩ := yearOfDay_spec n
  rw [daysBeforeYear_succ] at hhigh
  unfold dayInYear
  omega

def ofDayNumber (n : Int) : CivilDate where
  year := yearOfDay n
  month := monthOfDay (yearOfDay n) (dayInYear n)
  day := dayInYear n - daysBefore (yearOfDay n) (monthOfDay (yearOfDay n) (dayInYear n)) + 1
  month_lt := (monthOfDay_spec (dayInYear_lt n)).1
  day_pos := Nat.succ_pos _
  day_le := by
    obtain ⟨-, hlow, hnext⟩ := monthOfDay_spec (dayInYear_lt n)
    rw [daysBefore] at hnext
    omega

theorem dayNumber_ofDayNumber (n : Int) : (ofDayNumber n).dayNumber = n := by
  have hmonth := (monthOfDay_spec (dayInYear_lt n)).2.1
  have hlow := (yearOfDay_spec n).1
  have hday : (dayInYear n : Int) = n - daysBeforeYear (yearOfDay n) := by
    unfold dayInYear
    omega
  unfold dayNumber dayOfYear ofDayNumber
  dsimp only
  omega

theorem ofDayNumber_dayNumber (a : CivilDate) : ofDayNumber a.dayNumber = a :=
  dayNumber_inj (dayNumber_ofDayNumber _)

end CivilDate
