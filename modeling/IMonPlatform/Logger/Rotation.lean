import IMonPlatform.Format.Language
import IMonPlatform.Lib.Transition
import IMonPlatform.Logger.Configuration
import IMonPlatform.Util.StringReplace
import Mathlib.Data.List.Nodup

/-!
# Log files and their indices

`MakeLOGFile` deletes old log files, counts the files of today that match a pattern and takes that
count as the index of the file it opens.  Files are removed by their age, one by one, so a past
day may have lost its first files; the files of the current day are too young for that.

* `Calendar` — `_localtime64_s` and the text of a date.
* `LogFile`, `matchesStar` — a file of a directory, and a search pattern with one `*`.
* `CheckOldFileExist`, `CheckFileExist`, `MakeLOGFile` — the calls; `Answers` has what the system
  calls in them answer.
* `tsFormat_shared`, `tsFormat_split` — the names are those that the formatter makes.
* `LogDirectory.step` — the calls of all loggers, the clock, writes to files, and files removed
  by others.
* `Dense` — the indices of a base name and a date are `0 .. k - 1`.
* `rotation_dense` — so it is for the current date in every run, and `CheckFileExist` chooses `k`.
-/

set_option autoImplicit false

namespace IMonPlatform.Logger

/-! ## Names and patterns -/

def BRACKET_OPEN : Nat := '['.toNat

def BRACKET_CLOSE : Nat := ']'.toNat

/-- `_localtime64_s` and `GetFormattedDateText( t, L"%Y-%m-%d" )`, in a time zone whose days have
at most 48 hours. -/
structure Calendar where
  tm_yday : Nat → Nat
  dateText : Nat → Text
  length : ∀ t, (dateText t).length = 10
  bracket : ∀ t, BRACKET_OPEN ∉ dateText t
  interval : ∀ t₁ t₂ t₃, t₁ ≤ t₂ → t₂ ≤ t₃ → dateText t₁ = dateText t₃ → dateText t₂ = dateText t₃
  day : ∀ t₁ t₂, dateText t₁ = dateText t₂ → t₂ < t₁ + 2 * 24 * 60 * 60

/-- A retention of `count` days spares the files of the current date: its span fits 32 bits, and a
single day is enough only where no day has more than 24 hours. -/
structure Calendar.Retains (cal : Calendar) (count : Nat) : Prop where
  fits : count ≤ 49710
  oneDay : count = 1 →
    ∀ t₁ t₂, cal.dateText t₁ = cal.dateText t₂ → t₂ < t₁ + 24 * 60 * 60

/-- The decimal digits of an index. -/
def decimal (n : Nat) : Text := (Nat.toDigits 10 n).map Char.toNat

/-- `string_replace_all( loggerNameW, L"/", L"_" )`. -/
def replaceSlashes (name : Text) : Text :=
  name.map fun c => if c = '/'.toNat then '_'.toNat else c

theorem replaceSlashes_eq (name : Text) :
    string_replace_all name (text "/") (text "_") = some (replaceSlashes name) := by
  have hslash : text "/" ≠ [] := by decide
  rw [string_replace_all_eq hslash]
  exact congrArg some (Replace.replaceAll_singleton _ _ name)

/-- The part of a file name before the date. -/
def baseName (lc : LoggerConfiguration) : Text :=
  if lc.isSplitByLogger then lc.fileName ++ text "_" ++ replaceSlashes lc.loggerNameW
  else lc.fileName

/-- The part of a file name before the index. -/
def beforeIndex (base date : Text) : Text := base ++ text "_" ++ date ++ text "-["

/-- The part of a file name behind the index. -/
def afterIndex (fileExt : Text) : Text := text "]." ++ fileExt

/-- `base_date-[index].ext` -/
def indexedName (base date fileExt index : Text) : Text :=
  beforeIndex base date ++ index ++ afterIndex fileExt

/-- A file with its path, its name there, and the time of its last write as a search reports it.
Names are compared as the file system does. -/
structure LogFile where
  path : Text
  name : Text
  timeWrite : Nat
  deriving DecidableEq

/-- A name matches the pattern `before*after`. -/
def matchesStar (before after name : Text) : Bool :=
  before.isPrefixOf name && after.isSuffixOf name && before.length + after.length ≤ name.length

/-- What `_wfindfirst` and `_wfindnext` return. -/
def find (path before after : Text) (files : List LogFile) : List LogFile :=
  files.filter fun f => f.path = path ∧ matchesStar before after f.name

/-! ## `MakeLOGFile` -/

/-- What the system calls answer in a call of `MakeLOGFile`. -/
structure Answers where
  /-- `CreateDirectoryRecursively` -/
  created : Bool
  /-- The clock in `CheckOldFileExist`, twice in `CheckFileExist`, and when the file is opened. -/
  oldTime : Nat
  dateTime : Nat
  textTime : Nat
  openTime : Nat
  /-- `DeleteFile`, which fails for an open file. -/
  deletes : LogFile → Bool
  /-- `_wfopen` -/
  opens : Bool

/-- A file is too old; the span is an `unsigned int`. -/
def outdated (lc : LoggerConfiguration) (now : Nat) (f : LogFile) : Bool :=
  ((lc.maxLogFileDateCount * 60 * 60 * 24 % 2 ^ 32 : Nat) : Int) ≤ (now : Int) - f.timeWrite

def CheckOldFileExist (lc : LoggerConfiguration) (a : Answers) (files : List LogFile) :
    List LogFile :=
  if lc.maxLogFileDateCount = 0 then files
  else
    let found := find lc.filePath (lc.fileName ++ text "_") (text "." ++ lc.fileExt) files
    files.filter fun f => ¬ (f ∈ found ∧ outdated lc a.oldTime f ∧ a.deletes f)

/-- The name that `CheckFileExist` chooses, without the path. -/
def chosenName (cal : Calendar) (lc : LoggerConfiguration) (a : Answers) (index : Nat) : Text :=
  indexedName (baseName lc) (cal.dateText a.textTime) lc.fileExt (decimal index)

def CheckFileExist (cal : Calendar) (lc : LoggerConfiguration) (a : Answers)
    (files : List LogFile) : LoggerConfiguration :=
  let found := find lc.filePath (beforeIndex (baseName lc) (cal.dateText a.textTime))
    (afterIndex lc.fileExt) files
  { lc with
    currentFileDate := cal.tm_yday a.dateTime
    currentFileIndex := found.length
    currentFullFileName := lc.filePath ++ text "\\" ++ chosenName cal lc a found.length }

/-- `_wfopen( .., L"a+t" )` and the BOM: a file that is there is written to. -/
def openFile (path name : Text) (now : Nat) (files : List LogFile) : List LogFile :=
  if files.any fun f => f.path = path ∧ f.name = name then
    files.map fun f => if f.path = path ∧ f.name = name then { f with timeWrite := now } else f
  else files ++ [⟨path, name, now⟩]

/-- The configuration, the files, and whether there is an open file. -/
def MakeLOGFile (cal : Calendar) (a : Answers) (lc : LoggerConfiguration) (files : List LogFile) :
    LoggerConfiguration × List LogFile × Bool :=
  if a.created then
    let files := CheckOldFileExist lc a files
    let lc := CheckFileExist cal lc a files
    if a.opens then
      (lc, openFile lc.filePath (chosenName cal lc a lc.currentFileIndex) a.openTime files, true)
    else ({ lc with currentFullFileName := [] }, files, false)
  else (lc, files, false)

/-! ## Runs -/

structure LogDirectory where
  files : List LogFile
  now : Nat

inductive FileEvent where
  | clock (t : Nat)
  /-- `MakeLOGFile`, under `_csFile`. -/
  | make (lc : LoggerConfiguration) (a : Answers)
  /-- The search reports a later write of a file. -/
  | write (path name : Text) (t : Nat)
  /-- Someone else removes a file of another date. -/
  | remove (path name : Text)

/-- The clock never goes back. -/
def Answers.ordered (a : Answers) (now : Nat) : Prop :=
  now ≤ a.oldTime ∧ a.oldTime ≤ a.dateTime ∧ a.dateTime ≤ a.textTime ∧ a.textTime ≤ a.openTime

instance (a : Answers) (now : Nat) : Decidable (a.ordered now) :=
  inferInstanceAs (Decidable (_ ∧ _))

/-- The date in a name: what stands before `-[`. -/
def dateOf (name : Text) : Text :=
  let before := name.takeWhile (· ≠ BRACKET_OPEN)
  (before.drop (before.length - 11)).take 10

def LogDirectory.step (cal : Calendar) (s : LogDirectory) : FileEvent → Option LogDirectory
  | .clock t => if s.now ≤ t then some { s with now := t } else none
  | .make lc a =>
    if a.ordered s.now then some ⟨(MakeLOGFile cal a lc s.files).2.1, a.openTime⟩ else none
  | .write path name t =>
    if t ≤ s.now then
      some { s with
        files := s.files.map fun f =>
          if f.path = path ∧ f.name = name ∧ f.timeWrite ≤ t then { f with timeWrite := t } else f }
    else none
  | .remove path name =>
    if dateOf name ≠ cal.dateText s.now then
      some { s with files := s.files.filter fun f => ¬ (f.path = path ∧ f.name = name) }
    else none

/-- The indices of a base name and a date are `0 .. k - 1`. -/
def Dense (files : List LogFile) (path base date fileExt : Text) (k : Nat) : Prop :=
  ∀ index, (∃ f ∈ files, f.path = path ∧ f.name = indexedName base date fileExt index) ↔
    ∃ n < k, index = decimal n

/-- What a file name cannot have, the wildcards among it. -/
def reserved : Text := text "\\/:*?\"<>|"

/-- A base name and an extension that leave the brackets to the index. -/
structure WellNamed (base fileExt : Text) : Prop where
  legal : ∀ c ∈ base ++ fileExt, c ∉ reserved
  bracketOpen : BRACKET_OPEN ∉ base
  bracketClose : BRACKET_CLOSE ∉ fileExt

/-- The configuration of a call is well named and keeps the files of the current date. -/
def FileEvent.WellNamed (cal : Calendar) : FileEvent → Prop
  | .make lc _ =>
    Logger.WellNamed (baseName lc) lc.fileExt ∧ cal.Retains lc.maxLogFileDateCount
  | _ => True

/-! ## The names that `tsFormat` makes -/

section Format

open Format

variable (env : Nat → EnvKind → ScratchText)

/-- `tsFormat` of C strings. -/
def tsFormat (format : Text) (args : List CText) : Option Text :=
  (doFormat stringRenderer (fun (value : CText) _ _ => value) env args format []).map Prod.snd

theorem tsFormat_pieces (args : List CText) (hargs : args.length < 2 ^ 31) {ps : List Piece}
    (hps : WellFormed args.length ps) :
    tsFormat env (source ps) args =
      some (meaning (fun (value : CText) _ _ => value) env args 0 ps) := by
  have h := renders_pieces (fun (value : CText) _ _ => value) env hargs ps []
    ((source ps).length + 1) 0 List.not_mem_nil hps (Nat.lt_succ_self _) ⟨0, .zero⟩ 0 []
  simp only [List.nil_append] at h
  rw [tsFormat, doFormat, h]
  rfl

/-- The full name in a log that all loggers share. -/
theorem tsFormat_shared (path fileName date index fileExt : CText) :
    tsFormat env (text "%1\\%2_%3-[%4].%5") [path, fileName, date, index, fileExt] =
      some (path.chars ++ text "\\" ++
        indexedName fileName.chars date.chars fileExt.chars index.chars) := by
  let ps : List Piece := [.arg (text "1") none, .literal (text "\\"), .arg (text "2") none,
    .literal (text "_"), .arg (text "3") none, .literal (text "-["), .arg (text "4") none,
    .literal (text "]."), .arg (text "5") none]
  have hps : WellFormed 5 ps := by
    simp [ps, WellFormed, BareOk, source, Piece.source, text, isdigit, digitsValue]
  have h := tsFormat_pieces env [path, fileName, date, index, fileExt] (by simp) hps
  refine h.trans (congrArg some ?_)
  simp [ps, meaning, argText, indexedName, beforeIndex, afterIndex, digitsValue, text]

/-- The full name in a log of each logger's own. -/
theorem tsFormat_split (path fileName logger date index fileExt : CText) :
    tsFormat env (text "%1\\%2_%3_%4-[%5].%6") [path, fileName, logger, date, index, fileExt] =
      some (path.chars ++ text "\\" ++ indexedName (fileName.chars ++ text "_" ++ logger.chars)
        date.chars fileExt.chars index.chars) := by
  let ps : List Piece := [.arg (text "1") none, .literal (text "\\"), .arg (text "2") none,
    .literal (text "_"), .arg (text "3") none, .literal (text "_"), .arg (text "4") none,
    .literal (text "-["), .arg (text "5") none, .literal (text "]."), .arg (text "6") none]
  have hps : WellFormed 6 ps := by
    simp [ps, WellFormed, BareOk, source, Piece.source, text, isdigit, digitsValue]
  have h := tsFormat_pieces env [path, fileName, logger, date, index, fileExt] (by simp) hps
  refine h.trans (congrArg some ?_)
  simp [ps, meaning, argText, indexedName, beforeIndex, afterIndex, digitsValue, text]

end Format

/-! ## One name, one index -/

theorem decimal_injective {m n : Nat} (h : decimal m = decimal n) : m = n := by
  have hdigits : Nat.toDigits 10 m = Nat.toDigits 10 n :=
    List.map_injective_iff.mpr (fun _ _ hc => Char.toNat_inj.mp hc) h
  rw [← @Nat.ofDigitChars_ten_toDigits m, hdigits, Nat.ofDigitChars_ten_toDigits]

/-- The first occurrence of a character splits a text in one way. -/
theorem append_cons_inj {a a' b b' : Text} {c : Nat} (ha : c ∉ a) (ha' : c ∉ a')
    (h : a ++ c :: b = a' ++ c :: b') : a = a' ∧ b = b' := by
  induction a generalizing a' with
  | nil =>
    cases a' with
    | nil => exact ⟨rfl, (List.cons.inj h).2⟩
    | cons x a' =>
      obtain ⟨rfl, _⟩ := List.cons.inj h
      exact absurd List.mem_cons_self ha'
  | cons x a ih =>
    cases a' with
    | nil =>
      obtain ⟨rfl, _⟩ := List.cons.inj h
      exact absurd List.mem_cons_self ha
    | cons x' a' =>
      obtain ⟨rfl, htail⟩ := List.cons.inj h
      obtain ⟨rfl, hb⟩ := ih (fun hc => ha (List.mem_cons_of_mem _ hc))
        (fun hc => ha' (List.mem_cons_of_mem _ hc)) htail
      exact ⟨rfl, hb⟩

/-- So does the last one. -/
theorem append_cons_inj_last {a a' b b' : Text} {c : Nat} (hb : c ∉ b) (hb' : c ∉ b')
    (h : a ++ c :: b = a' ++ c :: b') : a = a' ∧ b = b' := by
  have hrev : b.reverse ++ c :: a.reverse = b'.reverse ++ c :: a'.reverse := by
    simpa using congrArg List.reverse h
  obtain ⟨h₁, h₂⟩ := append_cons_inj (by simpa using hb) (by simpa using hb') hrev
  exact ⟨List.reverse_injective h₂, List.reverse_injective h₁⟩

section Names

variable {cal : Calendar} {base base' fileExt fileExt' index index' : Text} {t t' : Nat}

theorem beforeIndex_eq (base date : Text) :
    beforeIndex base date = (base ++ text "_" ++ date ++ text "-") ++ [BRACKET_OPEN] := by
  simp [beforeIndex, text, BRACKET_OPEN]

/-- The only `[` before the index is the last character. -/
theorem bracket_not_mem_before (hbase : BRACKET_OPEN ∉ base) :
    BRACKET_OPEN ∉ base ++ text "_" ++ cal.dateText t ++ text "-" := by
  have hdate := cal.bracket t
  simp only [List.mem_append, not_or]
  refine ⟨⟨⟨hbase, by decide⟩, hdate⟩, by decide⟩

theorem beforeIndex_inj (hbase : BRACKET_OPEN ∉ base) (hbase' : BRACKET_OPEN ∉ base')
    {rest rest' : Text}
    (h : beforeIndex base (cal.dateText t) ++ rest = beforeIndex base' (cal.dateText t') ++ rest') :
    base = base' ∧ cal.dateText t = cal.dateText t' ∧ rest = rest' := by
  rw [beforeIndex_eq, beforeIndex_eq, List.append_assoc, List.append_assoc _ [_]] at h
  obtain ⟨hbefore, hrest⟩ := append_cons_inj (bracket_not_mem_before hbase)
    (bracket_not_mem_before hbase') h
  have hsame := List.append_cancel_right hbefore
  obtain ⟨hleft, hdate⟩ := List.append_inj' hsame (by rw [cal.length, cal.length])
  exact ⟨List.append_cancel_right hleft, hdate, hrest⟩

theorem afterIndex_inj (hext : BRACKET_CLOSE ∉ fileExt) (hext' : BRACKET_CLOSE ∉ fileExt')
    (h : index ++ afterIndex fileExt = index' ++ afterIndex fileExt') :
    index = index' ∧ fileExt = fileExt' := by
  have hdot : ∀ {e : Text}, BRACKET_CLOSE ∉ e → BRACKET_CLOSE ∉ '.'.toNat :: e := by
    intro e he
    simp only [List.mem_cons, not_or]
    exact ⟨by decide, he⟩
  obtain ⟨hindex, hrest⟩ := append_cons_inj_last (hdot hext) (hdot hext') h
  exact ⟨hindex, (List.cons.inj hrest).2⟩

/-- **A name has one base name, date, extension and index.** -/
theorem indexedName_inj (hwell : WellNamed base fileExt) (hwell' : WellNamed base' fileExt')
    (h : indexedName base (cal.dateText t) fileExt index =
      indexedName base' (cal.dateText t') fileExt' index') :
    base = base' ∧ cal.dateText t = cal.dateText t' ∧ fileExt = fileExt' ∧ index = index' := by
  unfold indexedName at h
  rw [List.append_assoc, List.append_assoc] at h
  obtain ⟨hbase, hdate, hrest⟩ := beforeIndex_inj hwell.bracketOpen hwell'.bracketOpen h
  obtain ⟨hindex, hext⟩ := afterIndex_inj hwell.bracketClose hwell'.bracketClose hrest
  exact ⟨hbase, hdate, hext, hindex⟩

/-- The date of a name. -/
theorem dateOf_indexedName (hbase : BRACKET_OPEN ∉ base) :
    dateOf (indexedName base (cal.dateText t) fileExt index) = cal.dateText t := by
  have hsplit : indexedName base (cal.dateText t) fileExt index =
      (base ++ text "_" ++ cal.dateText t ++ text "-") ++
        BRACKET_OPEN :: (index ++ afterIndex fileExt) := by
    rw [indexedName, beforeIndex_eq]
    simp
  have hbefore : (indexedName base (cal.dateText t) fileExt index).takeWhile (· ≠ BRACKET_OPEN) =
      base ++ text "_" ++ cal.dateText t ++ text "-" := by
    rw [hsplit, List.takeWhile_append_of_pos]
    · simp
    · intro c hc
      simp only [decide_not, Bool.not_eq_true', decide_eq_false_iff_not]
      rintro rfl
      exact bracket_not_mem_before hbase hc
  have hlen : (base ++ text "_" ++ cal.dateText t ++ text "-").length - 11 =
      (base ++ text "_").length := by
    rw [List.length_append, List.length_append, cal.length]
    rfl
  simp only [dateOf, hbefore]
  rw [hlen, List.append_assoc, List.drop_left, ← cal.length t, List.take_left]

end Names

/-! ## Counting -/

theorem matchesStar_iff {before after name : Text} :
    matchesStar before after name = true ↔ ∃ index, name = before ++ index ++ after := by
  simp only [matchesStar, Bool.and_eq_true, List.isPrefixOf_iff_prefix, List.isSuffixOf_iff_suffix,
    decide_eq_true_eq]
  constructor
  · rintro ⟨⟨⟨rest, rfl⟩, left, hleft⟩, hlen⟩
    rcases List.append_eq_append_iff.mp hleft with ⟨mid, rfl, rfl⟩ | ⟨mid, rfl, rfl⟩
    · -- the two ends would overlap
      simp only [List.length_append] at hlen
      obtain rfl : mid = [] := List.eq_nil_of_length_eq_zero (by omega)
      exact ⟨[], by simp⟩
    · exact ⟨mid, by rw [List.append_assoc]⟩
  · rintro ⟨index, rfl⟩
    refine ⟨⟨⟨index ++ after, by rw [List.append_assoc]⟩, before ++ index, rfl⟩, ?_⟩
    simp only [List.length_append]
    omega

theorem mem_find {path base date fileExt : Text} {files : List LogFile} {f : LogFile} :
    f ∈ find path (beforeIndex base date) (afterIndex fileExt) files ↔
      f ∈ files ∧ f.path = path ∧ ∃ index, f.name = indexedName base date fileExt index := by
  simp only [find, List.mem_filter, decide_eq_true_eq, matchesStar_iff, indexedName]

/-- No file stands twice in a directory. -/
def Distinct (files : List LogFile) : Prop := (files.map fun f => (f.path, f.name)).Nodup

/-- **The number of files found is the first free index.** -/
theorem length_find {path base date fileExt : Text} {files : List LogFile} {k : Nat}
    (hfiles : Distinct files) (h : Dense files path base date fileExt k) :
    (find path (beforeIndex base date) (afterIndex fileExt) files).length = k := by
  let found := find path (beforeIndex base date) (afterIndex fileExt) files
  let names := (List.range k).map fun n => indexedName base date fileExt (decimal n)
  have hfound : (found.map LogFile.name).Nodup := by
    have hpairs : (found.map LogFile.name).map (fun name => (path, name)) =
        found.map fun f => (f.path, f.name) := by
      rw [List.map_map]
      refine List.map_congr_left fun f hf => ?_
      rw [Function.comp_apply, (mem_find.mp hf).2.1]
    have hsub : (found.map fun f => (f.path, f.name)).Nodup :=
      hfiles.sublist (List.filter_sublist.map _)
    rw [← hpairs] at hsub
    exact List.Nodup.of_map _ hsub
  have hnames : names.Nodup := by
    refine List.Nodup.map (fun m n hmn => ?_) List.nodup_range
    have hindex := List.append_cancel_right hmn
    exact decimal_injective (List.append_cancel_left hindex)
  have hmem : ∀ name, name ∈ found.map LogFile.name ↔ name ∈ names := by
    intro name
    simp only [found, names, List.mem_map, mem_find, List.mem_range]
    constructor
    · rintro ⟨f, ⟨hf, hpath, index, hname⟩, rfl⟩
      obtain ⟨n, hn, rfl⟩ := (h index).mp ⟨f, hf, hpath, hname⟩
      exact ⟨n, hn, hname.symm⟩
    · rintro ⟨n, hn, rfl⟩
      obtain ⟨f, hf, hpath, hname⟩ := (h (decimal n)).mpr ⟨n, hn, rfl⟩
      exact ⟨f, ⟨hf, hpath, _, hname⟩, hname⟩
  have hlen := ((List.perm_ext_iff_of_nodup hfound hnames).mpr hmem).length_eq
  rw [List.length_map, List.length_map, List.length_range] at hlen
  exact hlen

/-- The first free index has no file. -/
theorem Dense.free {path base date fileExt : Text} {files : List LogFile} {k : Nat}
    (h : Dense files path base date fileExt k) :
    ¬ ∃ f ∈ files, f.path = path ∧ f.name = indexedName base date fileExt (decimal k) := by
  intro hf
  obtain ⟨n, hn, hk⟩ := (h _).mp hf
  obtain rfl := decimal_injective hk
  exact Nat.lt_irrefl _ hn

/-! ## The invariant -/

/-- What every call keeps: the indices of the current date and of later ones are dense, and a file
was last written on the date in its name or later. -/
structure Kept (cal : Calendar) (s : LogDirectory) : Prop where
  distinct : Distinct s.files
  named : ∀ f ∈ s.files, ∃ base fileExt n t, WellNamed base fileExt ∧
    f.name = indexedName base (cal.dateText t) fileExt (decimal n) ∧ t ≤ f.timeWrite ∧ t ≤ s.now
  dense : ∀ t, s.now ≤ t → ∀ path base fileExt, WellNamed base fileExt →
    ∃ k, Dense s.files path base (cal.dateText t) fileExt k

section Invariant

variable {cal : Calendar} {s s' : LogDirectory}

/-- The files that stay keep the indices of a date if all its files stay. -/
theorem Dense.subset {path base date fileExt : Text} {files files' : List LogFile} {k : Nat}
    (h : Dense files path base date fileExt k) (hsub : ∀ f ∈ files', f ∈ files)
    (hstay : ∀ f ∈ files, ∀ index, f.name = indexedName base date fileExt index → f ∈ files') :
    Dense files' path base date fileExt k := by
  intro index
  rw [← h index]
  constructor
  · rintro ⟨f, hf, hpath, hname⟩
    exact ⟨f, hsub f hf, hpath, hname⟩
  · rintro ⟨f, hf, hpath, hname⟩
    exact ⟨f, hstay f hf index hname, hpath, hname⟩

/-- A file of a date from now on was last written on that date or later. -/
theorem Kept.young (h : Kept cal s) {t : Nat} (ht : s.now ≤ t) {f : LogFile} (hf : f ∈ s.files)
    {base fileExt index : Text} (hwell : WellNamed base fileExt)
    (hname : f.name = indexedName base (cal.dateText t) fileExt index) :
    (∃ t' ≤ f.timeWrite, cal.dateText t' = cal.dateText t) ∧
      dateOf f.name = cal.dateText s.now := by
  obtain ⟨base', fileExt', n, t', hwell', hname', hwrite, hnow⟩ := h.named f hf
  obtain ⟨_, hdate, _, _⟩ := indexedName_inj hwell hwell' (hname.symm.trans hname')
  refine ⟨⟨t', hwrite, hdate.symm⟩, ?_⟩
  rw [hname', dateOf_indexedName hwell'.bracketOpen, ← hdate]
  exact (cal.interval t' s.now t hnow ht hdate.symm).symm

/-- **No file of a date from now on is deleted as old.** -/
theorem not_outdated (h : Kept cal s) {lc : LoggerConfiguration} {a : Answers}
    (hcount : cal.Retains lc.maxLogFileDateCount) (hpos : lc.maxLogFileDateCount ≠ 0) {t : Nat}
    (hnow : s.now ≤ t) (hold : a.oldTime ≤ t) {f : LogFile} (hf : f ∈ s.files)
    {base fileExt index : Text} (hwell : WellNamed base fileExt)
    (hname : f.name = indexedName base (cal.dateText t) fileExt index) :
    outdated lc a.oldTime f = false := by
  obtain ⟨⟨t', hwrite, hdate⟩, _⟩ := h.young hnow hf hwell hname
  have hfits := hcount.fits
  have hyoung : t < t' + lc.maxLogFileDateCount * 60 * 60 * 24 := by
    by_cases hone : lc.maxLogFileDateCount = 1
    · have hday := hcount.oneDay hone t' t hdate
      omega
    · have hday := cal.day t' t hdate
      omega
  rw [outdated, decide_eq_false_iff_not, Nat.mod_eq_of_lt (by omega)]
  push_cast
  omega

theorem checkOld_sublist (lc : LoggerConfiguration) (a : Answers) (files : List LogFile) :
    (CheckOldFileExist lc a files).Sublist files := by
  unfold CheckOldFileExist
  split
  · exact List.Sublist.refl _
  · exact List.filter_sublist

/-- A file that is not too old stays. -/
theorem mem_checkOld {lc : LoggerConfiguration} {a : Answers} {files : List LogFile} {f : LogFile}
    (hf : f ∈ files)
    (hyoung : lc.maxLogFileDateCount ≠ 0 → outdated lc a.oldTime f = false) :
    f ∈ CheckOldFileExist lc a files := by
  unfold CheckOldFileExist
  split
  · exact hf
  · rename_i hpos
    refine List.mem_filter.mpr ⟨hf, ?_⟩
    simp [hyoung hpos]

/-- Deleting old files keeps the indices of a date from now on. -/
theorem Kept.dense_checkOld (h : Kept cal s) {lc : LoggerConfiguration} {a : Answers}
    (hcount : cal.Retains lc.maxLogFileDateCount) {t : Nat} (hnow : s.now ≤ t)
    (hold : a.oldTime ≤ t)
    {path base fileExt : Text} (hwell : WellNamed base fileExt) {k : Nat}
    (hdense : Dense s.files path base (cal.dateText t) fileExt k) :
    Dense (CheckOldFileExist lc a s.files) path base (cal.dateText t) fileExt k := by
  refine hdense.subset (fun f hf => (checkOld_sublist lc a s.files).subset hf) ?_
  intro f hf index hname
  exact mem_checkOld hf fun hpos => not_outdated h hcount hpos hnow hold hf hwell hname

/-- A new file with the first free index. -/
theorem Dense.next {path base date fileExt : Text} {files : List LogFile} {k : Nat}
    (h : Dense files path base date fileExt k) (t : Nat) :
    Dense (files ++ [⟨path, indexedName base date fileExt (decimal k), t⟩]) path base date fileExt
      (k + 1) := by
  intro index
  constructor
  · rintro ⟨f, hf, hpath, hname⟩
    rcases List.mem_append.mp hf with hf | hf
    · obtain ⟨n, hn, hindex⟩ := (h index).mp ⟨f, hf, hpath, hname⟩
      exact ⟨n, by omega, hindex⟩
    · rw [List.mem_singleton.mp hf] at hname
      exact ⟨k, Nat.lt_succ_self k,
        (List.append_cancel_left (List.append_cancel_right hname)).symm⟩
  · rintro ⟨n, hn, rfl⟩
    rcases Nat.lt_succ_iff_lt_or_eq.mp hn with hn | rfl
    · obtain ⟨f, hf, hfile⟩ := (h (decimal n)).mpr ⟨n, hn, rfl⟩
      exact ⟨f, List.mem_append_left _ hf, hfile⟩
    · exact ⟨_, List.mem_append_right _ (List.mem_singleton.mpr rfl), rfl, rfl⟩

/-- A new file of another base name or date. -/
theorem Dense.other {path base date fileExt : Text} {files : List LogFile} {k : Nat}
    (h : Dense files path base date fileExt k) {f : LogFile}
    (hother : ¬ (f.path = path ∧ ∃ index, f.name = indexedName base date fileExt index)) :
    Dense (files ++ [f]) path base date fileExt k := by
  refine fun index => Iff.trans ?_ (h index)
  constructor
  · rintro ⟨f', hf, hpath, hname⟩
    rcases List.mem_append.mp hf with hf | hf
    · exact ⟨f', hf, hpath, hname⟩
    · obtain rfl := List.mem_singleton.mp hf
      exact absurd ⟨hpath, index, hname⟩ hother
  · rintro ⟨f', hf, hfile⟩
    exact ⟨f', List.mem_append_left _ hf, hfile⟩

/-- What a call of `MakeLOGFile` leaves, for the first free index `k`. -/
structure Made (cal : Calendar) (s : LogDirectory) (lc : LoggerConfiguration) (a : Answers)
    (k : Nat) : Prop where
  dense : Dense s.files lc.filePath (baseName lc) (cal.dateText a.textTime) lc.fileExt k
  chosen : CheckFileExist cal lc a (CheckOldFileExist lc a s.files) =
    { lc with
      currentFileDate := cal.tm_yday a.dateTime
      currentFileIndex := k
      currentFullFileName := lc.filePath ++ text "\\" ++ chosenName cal lc a k }
  files : (MakeLOGFile cal a lc s.files).2.1 =
    if a.created then
      CheckOldFileExist lc a s.files ++
        if a.opens then [⟨lc.filePath, chosenName cal lc a k, a.openTime⟩] else []
    else s.files

/-- **A call takes the first free index**, and its file is new. -/
theorem Kept.made (h : Kept cal s) {lc : LoggerConfiguration} {a : Answers}
    (hord : a.ordered s.now) (hwell : WellNamed (baseName lc) lc.fileExt)
    (hcount : cal.Retains lc.maxLogFileDateCount) : ∃ k, Made cal s lc a k := by
  obtain ⟨hnow, hdate, htext, hopen⟩ := hord
  obtain ⟨k, hdense⟩ := h.dense a.textTime (by omega) lc.filePath _ _ hwell
  have hdense' := @Kept.dense_checkOld cal s h lc a hcount a.textTime (by omega) (by omega)
    lc.filePath _ _ hwell k hdense
  have hdistinct : Distinct (CheckOldFileExist lc a s.files) :=
    List.Nodup.sublist ((checkOld_sublist lc a s.files).map _) h.distinct
  have hlen := length_find hdistinct hdense'
  have hchosen : CheckFileExist cal lc a (CheckOldFileExist lc a s.files) =
      { lc with
        currentFileDate := cal.tm_yday a.dateTime
        currentFileIndex := k
        currentFullFileName := lc.filePath ++ text "\\" ++ chosenName cal lc a k } := by
    simp only [CheckFileExist, hlen]
  refine ⟨k, hdense, hchosen, ?_⟩
  have hfree : ((CheckOldFileExist lc a s.files).any fun f =>
      f.path = lc.filePath ∧ f.name = chosenName cal lc a k) = false := by
    rw [List.any_eq_false]
    intro f hf hsame
    exact hdense'.free ⟨f, hf, of_decide_eq_true hsame⟩
  unfold MakeLOGFile
  simp only [hchosen]
  split
  · split
    · show openFile lc.filePath (chosenName cal lc a k) a.openTime _ = _
      rw [openFile, if_neg (by rw [hfree]; decide)]
    · simp
  · rfl

/-- The files after a call, at a date from then on. -/
theorem Made.dense_after {lc : LoggerConfiguration} {a : Answers} {k : Nat}
    (hmade : Made cal s lc a k) (h : Kept cal s) (hord : a.ordered s.now)
    (hwell : WellNamed (baseName lc) lc.fileExt) (hcount : cal.Retains lc.maxLogFileDateCount)
    {t : Nat} (ht : a.openTime ≤ t) {path base fileExt : Text} (hwell' : WellNamed base fileExt) :
    ∃ m, Dense (MakeLOGFile cal a lc s.files).2.1 path base (cal.dateText t) fileExt m := by
  obtain ⟨hnow, hdate, htext, hopen⟩ := hord
  obtain ⟨m, hdense⟩ := h.dense t (by omega) path base fileExt hwell'
  rw [hmade.files]
  split
  · have hold : Dense (CheckOldFileExist lc a s.files) path base (cal.dateText t) fileExt m :=
      h.dense_checkOld hcount (by omega) (by omega) hwell' hdense
    split
    · by_cases hsame : lc.filePath = path ∧
        ∃ index, chosenName cal lc a k = indexedName base (cal.dateText t) fileExt index
      · -- the new file has the index `m` there
        obtain ⟨rfl, index, hname⟩ := hsame
        obtain ⟨rfl, hdate', rfl, rfl⟩ := indexedName_inj hwell hwell' hname
        have hk : m = k := by
          rw [← length_find h.distinct hdense, ← length_find h.distinct hmade.dense, hdate']
        subst hk
        rw [hname]
        exact ⟨m + 1, hold.next a.openTime⟩
      · exact ⟨m, hold.other hsame⟩
    · rw [List.append_nil]
      exact ⟨m, hold⟩
  · exact ⟨m, hdense⟩

theorem Made.distinct_after {lc : LoggerConfiguration} {a : Answers} {k : Nat}
    (hmade : Made cal s lc a k) (h : Kept cal s) :
    Distinct (MakeLOGFile cal a lc s.files).2.1 := by
  have hsub := checkOld_sublist lc a s.files
  rw [hmade.files]
  split
  · have hold : Distinct (CheckOldFileExist lc a s.files) :=
      List.Nodup.sublist (hsub.map _) h.distinct
    split
    · unfold Distinct
      rw [List.map_append, List.nodup_append]
      refine ⟨hold, List.nodup_singleton _, ?_⟩
      intro file hfile other hother hsame
      subst hsame
      obtain ⟨f, hf, rfl⟩ := List.mem_map.mp hfile
      obtain ⟨hpath, hname⟩ := Prod.mk.inj (List.mem_singleton.mp hother)
      exact hmade.dense.free ⟨f, hsub.subset hf, hpath, hname⟩
    · rw [List.append_nil]
      exact hold
  · exact h.distinct

/-- A file after the call was there before, or it is the one that the call opened. -/
theorem Made.mem_after {lc : LoggerConfiguration} {a : Answers} {k : Nat}
    (hmade : Made cal s lc a k) {f : LogFile} (hf : f ∈ (MakeLOGFile cal a lc s.files).2.1) :
    f ∈ s.files ∨ f = ⟨lc.filePath, chosenName cal lc a k, a.openTime⟩ := by
  rw [hmade.files] at hf
  split at hf
  · rcases List.mem_append.mp hf with hf | hf
    · exact .inl ((checkOld_sublist lc a s.files).subset hf)
    · split at hf
      · exact .inr (List.mem_singleton.mp hf)
      · cases hf
  · exact .inl hf

theorem kept_make (h : Kept cal s) {lc : LoggerConfiguration} {a : Answers}
    (hord : a.ordered s.now) (hwell : WellNamed (baseName lc) lc.fileExt)
    (hcount : cal.Retains lc.maxLogFileDateCount) :
    Kept cal ⟨(MakeLOGFile cal a lc s.files).2.1, a.openTime⟩ := by
  obtain ⟨k, hmade⟩ := h.made hord hwell hcount
  have hlater : s.now ≤ a.openTime := by
    obtain ⟨hnow, hdate, htext, hopen⟩ := hord
    omega
  refine ⟨hmade.distinct_after h, ?_, fun t ht path base fileExt hwell' =>
    hmade.dense_after h hord hwell hcount ht hwell'⟩
  intro f hf
  rcases hmade.mem_after hf with hf | rfl
  · obtain ⟨base, fileExt, n, t, hwell', hname, hwrite, hnow⟩ := h.named f hf
    exact ⟨base, fileExt, n, t, hwell', hname, hwrite, by
      show t ≤ a.openTime
      omega⟩
  · have htext : a.textTime ≤ a.openTime := hord.2.2.2
    exact ⟨baseName lc, lc.fileExt, k, a.textTime, hwell, rfl, htext, htext⟩

/-- A later write changes no name. -/
theorem kept_write (h : Kept cal s) (path name : Text) (t : Nat) :
    Kept cal { s with
      files := s.files.map fun f =>
        if f.path = path ∧ f.name = name ∧ f.timeWrite ≤ t then { f with timeWrite := t }
        else f } := by
  let touch : LogFile → LogFile := fun f =>
    if f.path = path ∧ f.name = name ∧ f.timeWrite ≤ t then { f with timeWrite := t } else f
  have htouch : ∀ f, (touch f).path = f.path ∧ (touch f).name = f.name ∧
      f.timeWrite ≤ (touch f).timeWrite := by
    intro f
    simp only [touch]
    split
    · rename_i hlater
      exact ⟨rfl, rfl, hlater.2.2⟩
    · exact ⟨rfl, rfl, Nat.le_refl _⟩
  refine ⟨?_, ?_, ?_⟩
  · show Distinct (s.files.map touch)
    have hpairs : (s.files.map touch).map (fun f => (f.path, f.name)) =
        s.files.map fun f => (f.path, f.name) := by
      rw [List.map_map]
      refine List.map_congr_left fun f _ => ?_
      rw [Function.comp_apply, (htouch f).1, (htouch f).2.1]
    rw [Distinct, hpairs]
    exact h.distinct
  · intro f hf
    obtain ⟨f₀, hf₀, rfl⟩ := List.mem_map.mp hf
    obtain ⟨base, fileExt, n, t', hwell, hname, hwrite, hnow⟩ := h.named f₀ hf₀
    refine ⟨base, fileExt, n, t', hwell, (htouch f₀).2.1.trans hname, ?_, hnow⟩
    exact Nat.le_trans hwrite (htouch f₀).2.2
  · intro t' ht' path' base fileExt hwell
    obtain ⟨k, hdense⟩ := h.dense t' ht' path' base fileExt hwell
    refine ⟨k, fun index => Iff.trans ?_ (hdense index)⟩
    constructor
    · rintro ⟨f, hf, hpath, hname⟩
      obtain ⟨f₀, hf₀, rfl⟩ := List.mem_map.mp hf
      exact ⟨f₀, hf₀, (htouch f₀).1.symm.trans hpath, (htouch f₀).2.1.symm.trans hname⟩
    · rintro ⟨f, hf, hpath, hname⟩
      exact ⟨touch f, List.mem_map_of_mem hf, (htouch f).1.trans hpath,
        (htouch f).2.1.trans hname⟩

/-- A file of another date is of no date from now on. -/
theorem kept_remove (h : Kept cal s) {path name : Text}
    (hdate : dateOf name ≠ cal.dateText s.now) :
    Kept cal { s with files := s.files.filter fun f => ¬ (f.path = path ∧ f.name = name) } := by
  refine ⟨List.Nodup.sublist (List.filter_sublist.map _) h.distinct,
    fun f hf => h.named f (List.mem_of_mem_filter hf), fun t ht path' base fileExt hwell => ?_⟩
  obtain ⟨k, hdense⟩ := h.dense t ht path' base fileExt hwell
  refine ⟨k, hdense.subset (fun f hf => List.mem_of_mem_filter hf) fun f hf index hname => ?_⟩
  refine List.mem_filter.mpr ⟨hf, decide_eq_true ?_⟩
  rintro ⟨_, rfl⟩
  exact hdate (h.young ht hf hwell hname).2

theorem kept_step {e : FileEvent} (h : Kept cal s) (he : e.WellNamed cal)
    (hstep : s.step cal e = some s') : Kept cal s' := by
  cases e with
  | clock t =>
    simp only [LogDirectory.step] at hstep
    split at hstep <;> cases hstep
    rename_i hlater
    refine ⟨h.distinct, fun f hf => ?_, fun t' ht' => h.dense t' (Nat.le_trans hlater ht')⟩
    obtain ⟨base, fileExt, n, t', hwell, hname, hwrite, hnow⟩ := h.named f hf
    exact ⟨base, fileExt, n, t', hwell, hname, hwrite, Nat.le_trans hnow hlater⟩
  | make lc a =>
    simp only [LogDirectory.step] at hstep
    split at hstep <;> cases hstep
    rename_i hord
    exact kept_make h hord he.1 he.2
  | write path name t =>
    simp only [LogDirectory.step] at hstep
    split at hstep <;> cases hstep
    exact kept_write h path name t
  | remove path name =>
    simp only [LogDirectory.step] at hstep
    split at hstep <;> cases hstep
    rename_i hdate
    exact kept_remove h hdate

end Invariant

/-! ## The main result -/

/-- **The indices of the current date have no gap, and none is used twice**: in every run over an
empty directory the files of each base name on the current date have the indices `0 .. k - 1`, and a
call of `MakeLOGFile` chooses the index `k` of its date, which has no file yet; it stands in the
directory exactly if it could be opened. -/
theorem rotation_dense (cal : Calendar) (start : Nat) {es : List FileEvent} {s : LogDirectory}
    (hrun : Transition.run (LogDirectory.step cal) ⟨[], start⟩ es = some s)
    (hnames : ∀ e ∈ es, e.WellNamed cal) :
    (∀ path base fileExt, WellNamed base fileExt →
      ∃ k, Dense s.files path base (cal.dateText s.now) fileExt k) ∧
    ∀ lc a, FileEvent.WellNamed cal (.make lc a) → a.ordered s.now →
      ∃ k, Dense s.files lc.filePath (baseName lc) (cal.dateText a.textTime) lc.fileExt k ∧
        (CheckFileExist cal lc a (CheckOldFileExist lc a s.files)).currentFullFileName =
          lc.filePath ++ text "\\" ++ chosenName cal lc a k ∧
        (¬ ∃ f ∈ s.files, f.path = lc.filePath ∧ f.name = chosenName cal lc a k) ∧
        Dense (MakeLOGFile cal a lc s.files).2.1 lc.filePath (baseName lc)
          (cal.dateText a.textTime) lc.fileExt (if a.created ∧ a.opens then k + 1 else k) := by
  have hempty : Kept cal ⟨[], start⟩ :=
    ⟨List.nodup_nil, fun f hf => absurd hf List.not_mem_nil,
      fun t _ path base fileExt _ => ⟨0, fun index => by simp⟩⟩
  have hkept : Kept cal s := by
    refine Transition.run_preserves (fun s e s' hs he hstep => kept_step hs he hstep) es _ s hempty
      ?_ hrun
    exact Transition.meets_of_forall es _ fun e he _ => hnames e he
  refine ⟨hkept.dense s.now (Nat.le_refl _), ?_⟩
  rintro lc a ⟨hwell, hcount⟩ hord
  obtain ⟨k, hmade⟩ := hkept.made hord hwell hcount
  refine ⟨k, hmade.dense, by rw [hmade.chosen], hmade.dense.free, ?_⟩
  obtain ⟨hnow, hdate, htext, _⟩ := hord
  have hold : Dense (CheckOldFileExist lc a s.files) lc.filePath (baseName lc)
      (cal.dateText a.textTime) lc.fileExt k :=
    hkept.dense_checkOld hcount (by omega) (by omega) hwell hmade.dense
  rw [hmade.files]
  split
  · split
    · rename_i hcreated hopens
      rw [if_pos ⟨hcreated, hopens⟩]
      exact hold.next a.openTime
    · rename_i hopens
      rw [if_neg fun h => hopens h.2, List.append_nil]
      exact hold
  · rename_i hcreated
    rw [if_neg fun h => hcreated h.1]
    exact hmade.dense

/-- The days of 1970 in UTC. -/
def plainDate (t : Nat) : Text :=
  text "1970-01-0" ++ [if t / 86400 < 9 then 49 + t / 86400 else 1000 + t / 86400]

theorem plainDate_inj {t t' : Nat} (h : plainDate t = plainDate t') : t / 86400 = t' / 86400 := by
  have hlast : (if t / 86400 < 9 then 49 + t / 86400 else 1000 + t / 86400 : Nat) =
      if t' / 86400 < 9 then 49 + t' / 86400 else 1000 + t' / 86400 :=
    (List.cons.inj (List.append_cancel_left h)).1
  split at hlast <;> split at hlast <;> omega

def plainCalendar : Calendar where
  tm_yday t := t / 86400
  dateText := plainDate
  length t := rfl
  bracket t := by
    simp only [plainDate, List.mem_append, List.mem_singleton, not_or]
    refine ⟨by decide, ?_⟩
    unfold BRACKET_OPEN
    split
    · exact fun h => absurd h (by simp; omega)
    · exact fun h => absurd h (by simp; omega)
  interval t₁ t₂ t₃ h₁₂ h₂₃ h := by
    have hday := plainDate_inj h
    have hsame : t₂ / 86400 = t₃ / 86400 := by omega
    simp only [plainDate, hsame]
  day t₁ t₂ h := by
    have hday := plainDate_inj h
    omega

/-- The default configuration with a file name. -/
def plainFiles : LoggerConfiguration :=
  { LoggerConfiguration.create with
    filePath := text "c:\\log"
    fileName := text "app"
    fileExt := text "log" }

/-- Answers at one time, without an error. -/
def answersAt (t : Nat) : Answers := ⟨true, t, t, t, t, fun _ => true, true⟩

theorem plainCalendar_retains {count : Nat} (h : count ≤ 49710) : plainCalendar.Retains count := by
  refine ⟨h, fun _ t₁ t₂ hdate => ?_⟩
  have hday := plainDate_inj hdate
  omega

theorem plainFiles_wellNamed (a : Answers) :
    FileEvent.WellNamed plainCalendar (.make plainFiles a) :=
  ⟨⟨by decide, by decide, by decide⟩, plainCalendar_retains (by decide)⟩

/-- Two files of one day. -/
theorem rotation_dense_two :
    ∃ s, Transition.run (LogDirectory.step plainCalendar) ⟨[], 0⟩
        [.make plainFiles (answersAt 0), .make plainFiles (answersAt 80000)] = some s ∧
      ∀ path base fileExt, WellNamed base fileExt →
        ∃ k, Dense s.files path base (plainCalendar.dateText s.now) fileExt k := by
  obtain ⟨s, hs⟩ : ∃ s, Transition.run (LogDirectory.step plainCalendar) ⟨[], 0⟩
      [.make plainFiles (answersAt 0), .make plainFiles (answersAt 80000)] = some s := ⟨_, rfl⟩
  refine ⟨s, hs, (rotation_dense plainCalendar 0 hs ?_).1⟩
  intro e he
  simp only [List.mem_cons, List.not_mem_nil, or_false] at he
  rcases he with rfl | rfl <;> exact plainFiles_wellNamed _

/-- A week later the first file of that day is deleted and the second one is not yet. -/
theorem past_date_gap :
    ∃ s, Transition.run (LogDirectory.step plainCalendar) ⟨[], 0⟩
        [.make plainFiles (answersAt 0), .make plainFiles (answersAt 80000),
          .make plainFiles (answersAt 604810)] = some s ∧
      ¬ ∃ k, Dense s.files (text "c:\\log") (text "app") (plainCalendar.dateText 0)
        (text "log") k := by
  refine ⟨_, rfl, ?_⟩
  rintro ⟨k, hdense⟩
  obtain ⟨n, hn, hindex⟩ := (hdense (decimal 1)).mp (by decide)
  obtain rfl := decimal_injective hindex
  have hfirst := (hdense (decimal 0)).mpr ⟨0, by omega, rfl⟩
  exact absurd hfirst (by decide)

end IMonPlatform.Logger
