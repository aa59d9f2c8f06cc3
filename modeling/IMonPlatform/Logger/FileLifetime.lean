import IMonPlatform.Lib.CivilDate
import IMonPlatform.Logger.LogFiles

/-!
# How long a log file is used and how long it is kept

A logger leaves its file when the day of the year has become larger than that of the file, and
deletes the files whose last write is longer ago than the configured number of days, multiplied out
as an `unsigned int`.

* `daily` — a configuration after `CheckFileExist` on some date; `daily_rotation_iff` — when the day
  of the year tells whether a later time is on a later date.
* `retentionSpan`, `Due` — the span in the code, and a file that is too old by the configuration.
* `retention_exact_iff` — when exactly the files that are due are deleted.
-/

set_option autoImplicit false

namespace IMonPlatform.Logger

/-! ## Rotation -/

/-- `isSplitWhenDate` without a size limit, with a file of the date `D`; `tm_yday` is the day of the
year. -/
def daily (D : CivilDate) (lc : LoggerConfiguration) : LoggerConfiguration :=
  { lc with isSplitWhenDate := true, fileSizeLimit := 0, currentFileDate := D.dayOfYear }

/-- `CheckFileExist` on the date `D` makes such a configuration. -/
theorem CheckFileExist_daily (cal : Calendar) {lc : LoggerConfiguration} {a : Answers}
    (files : List LogFile) {D : CivilDate} (hD : cal.tm_yday a.dateTime = D.dayOfYear)
    (hsplit : lc.isSplitWhenDate = true) (hlimit : lc.fileSizeLimit = 0) :
    CheckFileExist cal lc a files = daily D (CheckFileExist cal lc a files) := by
  unfold CheckFileExist daily
  simp only [hD, ← hsplit, ← hlimit]

/-- What the check compares. -/
theorem CheckFileSizeAndDate_daily (D T : CivilDate) (lc : LoggerConfiguration)
    (w : WriteAnswers) :
    CheckFileSizeAndDate (daily D lc) { w with yday := some T.dayOfYear } = true ↔
      D.dayOfYear < T.dayOfYear := by
  have hcheck : CheckFileSizeAndDate (daily D lc) { w with yday := some T.dayOfYear } =
      decide (D.dayOfYear < T.dayOfYear) := rfl
  rw [hcheck, decide_eq_true_iff]

/-- **For every date from that of the file on, the check asks for a new file exactly on the later
ones, as long as the date is in the year of the file or on a later day of its year.** -/
theorem daily_rotation_iff (lc : LoggerConfiguration) (w : WriteAnswers) (D T : CivilDate)
    (hlater : ¬ T.Before D) :
    (CheckFileSizeAndDate (daily D lc) { w with yday := some T.dayOfYear } = true ↔
      D.Before T) ↔ D.year = T.year ∨ D.dayOfYear < T.dayOfYear := by
  rw [CheckFileSizeAndDate_daily]
  by_cases hyear : D.year = T.year
  · simp only [CivilDate.dayOfYear_lt_iff hyear, hyear, true_or]
  · have hbefore : D.Before T := by
      rcases CivilDate.eq_or_before D T with heq | h | h
      · exact absurd (congrArg CivilDate.year heq) hyear
      · exact h
      · exact absurd h hlater
    simp only [hbefore, hyear, iff_true, false_or]

def leapDay : CivilDate := ⟨2024, 1, 29, by decide, by decide, by decide⟩

def newYearsEve : CivilDate := ⟨2024, 11, 31, by decide, by decide, by decide⟩

def newYearsDay : CivilDate := ⟨2025, 0, 1, by decide, by decide, by decide⟩

/-- Answers of a system without log files. -/
def noFiles : WriteAnswers := ⟨[], answersAt 0, answersAt 0, fun _ => none, none⟩

/-- A file of 29 February is left on the last day of the year. -/
theorem leap_day_rotated :
    CheckFileSizeAndDate (daily leapDay plainFiles)
      { noFiles with yday := some newYearsEve.dayOfYear } = true :=
  ((daily_rotation_iff plainFiles noFiles leapDay newYearsEve (by decide)).mpr
    (.inl rfl)).mpr (by decide)

/-- A file of 31 December is kept on 1 January. -/
theorem new_year_not_rotated :
    ¬ (CheckFileSizeAndDate (daily newYearsEve plainFiles)
        { noFiles with yday := some newYearsDay.dayOfYear } = true ↔
      newYearsEve.Before newYearsDay) := by
  rw [CheckFileSizeAndDate_daily]
  decide

/-! ## Retention -/

/-- What the search of `CheckOldFileExist` reports. -/
def listed (lc : LoggerConfiguration) (files : List LogFile) : List LogFile :=
  find lc.filePath (lc.fileName ++ text "_") (text "." ++ lc.fileExt) files

/-- The age of a file in seconds, negative for a write in the future. -/
def age (now : Nat) (f : LogFile) : Int := (now : Int) - f.timeWrite

/-- `maxLogTimeSpan` -/
def retentionSpan (lc : LoggerConfiguration) : Int :=
  (lc.maxLogFileDateCount * 60 * 60 * 24 % 2 ^ 32 : Nat)

/-- The configured number of days, in seconds. -/
def retentionTime (lc : LoggerConfiguration) : Int := (lc.maxLogFileDateCount * 86400 : Nat)

/-- Files are deleted at all, and this one is old enough. -/
def Due (lc : LoggerConfiguration) (now : Nat) (f : LogFile) : Prop :=
  lc.maxLogFileDateCount ≠ 0 ∧ retentionTime lc ≤ age now f

/-- Of the listed files exactly those that are due are deleted, as far as `DeleteFile` succeeds. -/
def RetentionExact (lc : LoggerConfiguration) (a : Answers) (files : List LogFile) : Prop :=
  ∀ f ∈ files, f ∉ CheckOldFileExist lc a files ↔
    f ∈ listed lc files ∧ Due lc a.oldTime f ∧ a.deletes f = true

theorem outdated_iff {lc : LoggerConfiguration} {now : Nat} {f : LogFile} :
    outdated lc now f = true ↔ retentionSpan lc ≤ age now f := decide_eq_true_iff

/-- The files that `CheckOldFileExist` deletes. -/
theorem deleted_iff {lc : LoggerConfiguration} {a : Answers} {files : List LogFile} {f : LogFile}
    (hf : f ∈ files) :
    f ∉ CheckOldFileExist lc a files ↔ lc.maxLogFileDateCount ≠ 0 ∧ f ∈ listed lc files ∧
      retentionSpan lc ≤ age a.oldTime f ∧ a.deletes f = true := by
  rw [← outdated_iff]
  unfold CheckOldFileExist
  split
  · rename_i hzero
    exact ⟨fun h => absurd hf h, fun h => absurd hzero h.1⟩
  · rename_i hpos
    simp only [List.mem_filter, hf, true_and, listed]
    simp [hpos]

theorem retentionSpan_le (lc : LoggerConfiguration) : retentionSpan lc ≤ retentionTime lc := by
  unfold retentionSpan retentionTime
  have := Nat.mod_le (lc.maxLogFileDateCount * 60 * 60 * 24) (2 ^ 32)
  omega

/-- No deletable file has an age between the span of the code and the configured time. -/
def NoneBetween (lc : LoggerConfiguration) (a : Answers) (files : List LogFile) : Prop :=
  ∀ f ∈ listed lc files, a.deletes f = true →
    ¬ (retentionSpan lc ≤ age a.oldTime f ∧ age a.oldTime f < retentionTime lc)

theorem NoneBetween.exact {lc : LoggerConfiguration} {a : Answers} {files : List LogFile}
    (h : NoneBetween lc a files) : RetentionExact lc a files := by
  have hle := retentionSpan_le lc
  intro f hf
  rw [deleted_iff hf]
  constructor
  · rintro ⟨hcount, hlisted, hspan, hdeletes⟩
    have hnot := h f hlisted hdeletes
    exact ⟨hlisted, ⟨hcount, by omega⟩, hdeletes⟩
  · rintro ⟨hlisted, ⟨hcount, hdue⟩, hdeletes⟩
    exact ⟨hcount, hlisted, by omega, hdeletes⟩

/-- **Exactly the files that are due are deleted as long as none has an age between the span of the
code and the configured time.** -/
theorem retention_exact_iff (lc : LoggerConfiguration) (a : Answers) (files : List LogFile) :
    RetentionExact lc a files ↔ NoneBetween lc a files := by
  constructor
  · rintro h f hlisted hdeletes ⟨hspan, hyoung⟩
    have hf : f ∈ files := (List.mem_filter.mp hlisted).1
    have hcount : lc.maxLogFileDateCount ≠ 0 := by
      intro hzero
      unfold retentionSpan retentionTime at *
      rw [hzero] at hspan hyoung
      omega
    obtain ⟨-, ⟨-, hdue⟩, -⟩ := (h f hf).mp ((deleted_iff hf).mpr
      ⟨hcount, hlisted, hspan, hdeletes⟩)
    omega
  · exact NoneBetween.exact

/-- Up to 49710 days the span is the configured time. -/
theorem retention_of_small (lc : LoggerConfiguration) (a : Answers) (files : List LogFile)
    (hcount : lc.maxLogFileDateCount ≤ 49710) : RetentionExact lc a files := by
  have hspan : retentionSpan lc = retentionTime lc := by
    unfold retentionSpan retentionTime
    rw [Nat.mod_eq_of_lt (by omega)]
    omega
  refine NoneBetween.exact fun f _ _ => ?_
  omega

/-- A configuration that keeps files for 49711 days, which is a span of 63104 seconds. -/
def keepLong : LoggerConfiguration := { plainFiles with maxLogFileDateCount := 49711 }

/-- A file that was written a day ago is deleted. -/
theorem young_file_deleted :
    ¬ RetentionExact keepLong (answersAt 86400)
        [⟨text "c:\\log", text "app_1970-01-01-[0].log", 0⟩] := by
  intro h
  have hf := List.mem_singleton_self (⟨text "c:\\log", text "app_1970-01-01-[0].log", 0⟩ : LogFile)
  obtain ⟨-, ⟨-, hdue⟩, -⟩ := (h _ hf).mp (by decide)
  exact absurd hdue (by decide)

end IMonPlatform.Logger
