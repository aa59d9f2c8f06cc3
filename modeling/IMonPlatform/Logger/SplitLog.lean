import IMonPlatform.Logger.LogFiles

/-!
# A log file for each logger

With `isSplitByLogger` a logger makes its files itself: at its first record, and whenever
`CheckFileSizeAndDate` asks for a new one.  The loggers share the directory, the table of open files
and perhaps even the names: two loggers differ in their file names only as far as
`string_replace_all( loggerNameW, L"/", L"_" )` does.

* `SplitLog`, `SplitLog.step` — the writes of all loggers, while the clock goes on and others write
  to files and remove those of other dates.
* `segments_concat` — a list cut by a number that never decreases.
* `SplitKept`, `kept_make`, `kept_writeData` — the invariant, a new file and a write.
* `split_log_in_order` — no file is shared, and read by date and index the files of a logger give
  its records in order.
-/

set_option autoImplicit false

namespace IMonPlatform.Logger

/-! ## Runs -/

structure SplitLog where
  log : LogFiles
  now : Nat

inductive SplitEvent where
  /-- `WriteData` -/
  | write (e : LogFiles.WriteEvent)
  /-- What happens in the directory meanwhile; files are made by `WriteData` only. -/
  | directory (e : FileEvent)

/-- The logger of a record. -/
def SplitEvent.logger? : SplitEvent → Option Nat
  | .write e => some e.logger
  | .directory _ => none

/-- Files can be made. -/
def SplitEvent.Succeeds : SplitEvent → Prop
  | .write e => LogFiles.succeeds e.answers.make ∧ LogFiles.succeeds e.answers.rotate
  | .directory _ => True

/-- The clock never goes back; the answers of a call that is not made count for nothing. -/
def WriteAnswers.ordered (w : WriteAnswers) (now : Nat) : Prop :=
  w.make.ordered now ∧ w.rotate.ordered w.make.openTime

instance (w : WriteAnswers) (now : Nat) : Decidable (w.ordered now) :=
  inferInstanceAs (Decidable (_ ∧ _))

namespace SplitLog

def step (cal : Calendar) (s : SplitLog) : SplitEvent → Option SplitLog
  | .write e =>
    if e.answers.ordered s.now then
      some ⟨s.log.writeData cal e.logger e.answers, e.answers.rotate.openTime⟩
    else none
  | .directory (.make _ _) => none
  | .directory e => (LogDirectory.step cal ⟨s.log.files, s.now⟩ e).map fun d =>
      ⟨{ s.log with files := d.files }, d.now⟩

/-- The configuration of a logger with files of its own, and none yet. -/
def splitConfig (lc : LoggerConfiguration) : LoggerConfiguration :=
  { lc with isSplitByLogger := true, currentFullFileName := [] }

/-- Loggers without a file over a directory. -/
def start (files : List LogFile) (now : Nat) (loggers : Nat → LoggerConfiguration) : SplitLog :=
  ⟨⟨files, [], fun l => splitConfig (loggers l), [], []⟩, now⟩

end SplitLog

/-- The records of a logger, and the records in a file. -/
def LogFiles.recordsOf (s : LogFiles) (l : Nat) : List FileRecord :=
  s.records.filter fun r => r.logger = l

def LogFiles.contents (s : LogFiles) (file : Nat) : List FileRecord :=
  s.records.filter fun r => r.file = file

/-! ## Names -/

/-- The name that `CheckFileExist` gives to a logger's file with the date of `t` and the index
    `n`. -/
def fullName (cal : Calendar) (lc : LoggerConfiguration) (t n : Nat) : Text :=
  lc.filePath ++ text "\\" ++
    indexedName (baseName (SplitLog.splitConfig lc)) (cal.dateText t) lc.fileExt (decimal n)

/-- `\`, which stands in no part of a name. -/
def BACKSLASH : Nat := '\\'.toNat

/-- What two loggers have in common whose names differ in date and index only. -/
def SameNames (lc lc' : LoggerConfiguration) : Prop :=
  lc.filePath = lc'.filePath ∧
    baseName (SplitLog.splitConfig lc) = baseName (SplitLog.splitConfig lc') ∧
    lc.fileExt = lc'.fileExt

/-- A configuration whose names can be read back, and that keeps the files of the current date. -/
structure Plain (cal : Calendar) (lc : LoggerConfiguration) : Prop where
  named : WellNamed (baseName (SplitLog.splitConfig lc)) lc.fileExt
  count : cal.Retains lc.maxLogFileDateCount

section Names

variable {cal : Calendar} {lc lc' : LoggerConfiguration}

theorem backslash_decimal (n : Nat) : BACKSLASH ∉ decimal n := by
  intro h
  obtain ⟨c, hc, hcode⟩ := List.mem_map.mp h
  have hdigit := Nat.isDigit_of_mem_toDigits (by decide) (by decide) hc
  obtain rfl : c = '\\' := Char.toNat_inj.mp hcode
  exact absurd hdigit (by decide)

theorem backslash_name (hcal : ∀ t, BACKSLASH ∉ cal.dateText t) {base fileExt : Text}
    (hwell : WellNamed base fileExt) (t n : Nat) :
    BACKSLASH ∉ indexedName base (cal.dateText t) fileExt (decimal n) := by
  have hlegal : ∀ {part : Text}, (∀ c ∈ part, c ∈ base ++ fileExt) → BACKSLASH ∉ part := by
    intro part hpart h
    exact absurd (hwell.legal _ (hpart _ h)) (by decide)
  simp only [indexedName, beforeIndex, afterIndex, List.mem_append, not_or]
  refine ⟨⟨⟨⟨⟨hlegal fun c hc => List.mem_append_left _ hc, ?_⟩, hcal t⟩, ?_⟩,
    backslash_decimal n⟩, ?_, hlegal fun c hc => List.mem_append_right _ hc⟩ <;> decide

/-- **A full name has one path, base name, date, extension and index.** -/
theorem fullName_inj (hcal : ∀ t, BACKSLASH ∉ cal.dateText t) (hlc : Plain cal lc)
    (hlc' : Plain cal lc') {t t' n n' : Nat} (h : fullName cal lc t n = fullName cal lc' t' n') :
    SameNames lc lc' ∧ cal.dateText t = cal.dateText t' ∧ n = n' := by
  have hsplit : ∀ (lc : LoggerConfiguration) (t n : Nat), fullName cal lc t n = lc.filePath ++
      BACKSLASH :: indexedName (baseName (SplitLog.splitConfig lc)) (cal.dateText t) lc.fileExt
        (decimal n) := by
    intro lc t n
    rw [fullName, List.append_assoc]
    rfl
  rw [hsplit, hsplit] at h
  obtain ⟨hpath, hname⟩ := append_cons_inj_last (backslash_name hcal hlc.named t n)
    (backslash_name hcal hlc'.named t' n') h
  obtain ⟨hbase, hdate, hext, hindex⟩ := indexedName_inj hlc.named hlc'.named hname
  exact ⟨⟨hpath, hbase, hext⟩, hdate, decimal_injective hindex⟩

/-- Of two dates, one with an earlier time than the other is the earlier one. -/
theorem date_before {a a' t t' : Nat} (hle : a ≤ a') (ht : cal.dateText t = cal.dateText a)
    (ht' : cal.dateText t' = cal.dateText a') (hne : cal.dateText t ≠ cal.dateText t') :
    t < t' := by
  by_contra hlt
  rcases Nat.le_total a t' with h | h
  · -- a ≤ t' ≤ t
    have hsame := cal.interval a t' t h (by omega) ht.symm
    exact hne hsame.symm
  · -- t' ≤ a ≤ a'
    have hsame := cal.interval t' a a' h hle ht'
    exact hne (by rw [ht, hsame, ht'])

end Names

/-! ## Segments -/

section Segments

variable {α : Type} {segment : α → Nat}

theorem last_segment {n : Nat} : ∀ {xs : List α}, xs.Pairwise (fun x y => segment x ≤ segment y) →
    (∀ x ∈ xs, segment x < n + 1) →
    xs = xs.filter (fun x => segment x < n) ++ xs.filter fun x => segment x = n
  | [], _, _ => rfl
  | x :: xs, hpairs, hbound => by
    obtain ⟨hfirst, hrest⟩ := List.pairwise_cons.mp hpairs
    have htail := last_segment hrest fun y hy => hbound y (List.mem_cons_of_mem x hy)
    by_cases hx : segment x < n
    · have hne : segment x ≠ n := Nat.ne_of_lt hx
      rw [List.filter_cons_of_pos (by simpa using hx), List.filter_cons_of_neg (by simpa using hne),
        List.cons_append, ← htail]
    · -- from here on everything is in the last segment
      have hall : ∀ y ∈ x :: xs, segment y = n := by
        intro y hy
        have hy' := hbound y hy
        rcases List.mem_cons.mp hy with rfl | hmem
        · omega
        · have := hfirst y hmem
          omega
      rw [List.filter_eq_nil_iff.mpr, List.nil_append, List.filter_eq_self.mpr]
      · intro y hy
        simpa using hall y hy
      · intro y hy
        simp [hall y hy]

/-- **A list whose segments never decrease is its segments, one after another.** -/
theorem segments_concat : ∀ {n : Nat} {xs : List α},
    xs.Pairwise (fun x y => segment x ≤ segment y) → (∀ x ∈ xs, segment x < n) →
    xs = (List.range n).flatMap fun k => xs.filter fun x => segment x = k
  | 0, [], _, _ => rfl
  | 0, x :: _, _, hbound => absurd (hbound x List.mem_cons_self) (Nat.not_lt_zero _)
  | n + 1, xs, hpairs, hbound => by
    have hsub : ∀ y ∈ xs.filter (fun x => segment x < n), segment y < n := by
      intro y hy
      simpa using (List.mem_filter.mp hy).2
    have hinit := segments_concat (hpairs.sublist List.filter_sublist) hsub
    have hsame : ∀ k ∈ List.range n, ((xs.filter fun x => segment x < n).filter fun x =>
        segment x = k) = xs.filter fun x => segment x = k := by
      intro k hk
      rw [List.filter_filter]
      refine List.filter_congr fun x _ => ?_
      have := List.mem_range.mp hk
      by_cases hx : segment x = k <;> simp [hx, this]
    rw [List.range_succ, List.flatMap_append, List.flatMap_singleton,
      ← List.flatMap_congr hsame, ← hinit]
    exact last_segment hpairs hbound

end Segments

/-! ## The invariant -/

/-- A file with the date of `t` and the index `n` stands before one with the date of `t'` and the
    index `n'`. -/
def Before (cal : Calendar) (t n t' n' : Nat) : Prop :=
  if cal.dateText t = cal.dateText t' then n < n' else t < t'

/-- A logger's file has its entry in the table; while its date lasts nobody removes it. -/
structure FileKept (cal : Calendar) (lc : LoggerConfiguration) (s : SplitLog) (file t n : Nat) :
    Prop where
  dest : s.log.dest? (fullName cal lc t n) = some (some file)
  past : t ≤ s.now
  stands : ∀ t', s.now ≤ t' → cal.dateText t = cal.dateText t' →
    ∃ f ∈ s.log.files, f.path = lc.filePath ∧ f.name =
      indexedName (baseName (SplitLog.splitConfig lc)) (cal.dateText t) lc.fileExt (decimal n)

/-- The current file of a logger. -/
structure CurrentFile (owner : Nat → Nat) (s : LogFiles) (l file : Nat) : Prop where
  dest : s.dest? (s.loggers l).currentFullFileName = some (some file)
  bound : file < s.created.length
  owned : owner file = l
  latest : ∀ r ∈ s.recordsOf l, r.file ≤ file

/-- What the calls keep, with the logger that each file was made for. -/
structure SplitKept (cal : Calendar) (loggers : Nat → LoggerConfiguration) (owner : Nat → Nat)
    (s : SplitLog) : Prop where
  directory : Kept cal ⟨s.log.files, s.now⟩
  config : ∀ l, s.log.loggers l = { loggers l with
    isSplitByLogger := true
    currentFileDate := (s.log.loggers l).currentFileDate
    currentFileIndex := (s.log.loggers l).currentFileIndex
    currentFullFileName := (s.log.loggers l).currentFullFileName }
  opened : ∀ name dest, s.log.dest? name = some dest →
    ∃ file < s.log.created.length, dest = some file
  single : ∀ name name' file, s.log.dest? name = some (some file) →
    s.log.dest? name' = some (some file) → name = name'
  files : ∀ file < s.log.created.length, ∃ t n, FileKept cal (loggers (owner file)) s file t n
  current : ∀ l, (s.log.loggers l).currentFullFileName ≠ [] →
    ∃ file, CurrentFile owner s.log l file
  records : ∀ r ∈ s.log.records, r.file < s.log.created.length ∧ owner r.file = r.logger
  sorted : ∀ l, (s.log.recordsOf l).Pairwise fun r r' => r.file ≤ r'.file
  named : ∀ file file' t t' n n', file < file' →
    SameNames (loggers (owner file)) (loggers (owner file')) →
    s.log.dest? (fullName cal (loggers (owner file)) t n) = some (some file) →
    s.log.dest? (fullName cal (loggers (owner file')) t' n') = some (some file') →
    Before cal t n t' n'

section Invariant

variable {cal : Calendar} {loggers : Nat → LoggerConfiguration} {owner : Nat → Nat}
  {s : SplitLog}

/-- The directory and the clock have changed, and the files of the dates from now on still stand
there. -/
theorem SplitKept.directory_moves (h : SplitKept cal loggers owner s) {d : LogDirectory}
    (hloggers : ∀ l, Plain cal (loggers l)) (hkept : Kept cal d) (hnow : s.now ≤ d.now)
    (hstay : ∀ t, d.now ≤ t → ∀ base fileExt index, WellNamed base fileExt →
      ∀ f ∈ s.log.files, f.name = indexedName base (cal.dateText t) fileExt index →
        ∃ g ∈ d.files, g.path = f.path ∧ g.name = f.name) :
    SplitKept cal loggers owner ⟨{ s.log with files := d.files }, d.now⟩ := by
  refine ⟨hkept, h.config, h.opened, h.single, fun file hfile => ?_, fun l hl => ?_, h.records,
    h.sorted, h.named⟩
  · obtain ⟨t, n, hdest, hpast, hstands⟩ := h.files file hfile
    refine ⟨t, n, hdest, Nat.le_trans hpast hnow, fun t' ht' hdate => ?_⟩
    obtain ⟨f, hf, hpath, hname⟩ := hstands t' (Nat.le_trans hnow ht') hdate
    obtain ⟨g, hg, hgpath, hgname⟩ := hstay t' ht' _ _ _ (hloggers (owner file)).named f hf
      (hdate ▸ hname)
    exact ⟨g, hg, hgpath.trans hpath, hgname.trans hname⟩
  · obtain ⟨file, hdest, hbound, howned, hlatest⟩ := h.current l hl
    exact ⟨file, hdest, hbound, howned, hlatest⟩

/-- What happens in the directory besides the writes. -/
theorem SplitKept.directory_step (h : SplitKept cal loggers owner s)
    (hloggers : ∀ l, Plain cal (loggers l)) {e : FileEvent} {d : LogDirectory}
    (he : ∀ lc a, e ≠ .make lc a) (hstep : LogDirectory.step cal ⟨s.log.files, s.now⟩ e = some d) :
    SplitKept cal loggers owner ⟨{ s.log with files := d.files }, d.now⟩ := by
  have hwell : e.WellNamed cal := by
    cases e with
    | make lc a => exact absurd rfl (he lc a)
    | clock | write | remove => trivial
  have hkept := kept_step h.directory hwell hstep
  cases e with
  | make lc a => exact absurd rfl (he lc a)
  | clock t =>
    simp only [LogDirectory.step] at hstep
    split at hstep <;> cases hstep
    exact h.directory_moves hloggers hkept (by assumption) fun _ _ _ _ _ _ f hf _ =>
      ⟨f, hf, rfl, rfl⟩
  | write path name t =>
    simp only [LogDirectory.step] at hstep
    split at hstep <;> cases hstep
    refine h.directory_moves hloggers hkept (Nat.le_refl _) fun _ _ _ _ _ _ f hf _ => ?_
    refine ⟨_, List.mem_map_of_mem hf, ?_⟩
    split <;> exact ⟨rfl, rfl⟩
  | remove path name =>
    simp only [LogDirectory.step] at hstep
    split at hstep <;> cases hstep
    rename_i hdate
    refine h.directory_moves hloggers hkept (Nat.le_refl _) fun t ht _ _ _ hnamed f hf hname =>
      ⟨f, List.mem_filter.mpr ⟨hf, decide_eq_true ?_⟩, rfl, rfl⟩
    rintro ⟨_, rfl⟩
    exact hdate (h.directory.young ht hf hnamed hname).2

/-- A logger forgets its file, or keeps it. -/
theorem SplitKept.setLogger (h : SplitKept cal loggers owner s) {l : Nat}
    {lc : LoggerConfiguration} (hlc : lc = { s.log.loggers l with
      currentFileDate := lc.currentFileDate
      currentFileIndex := lc.currentFileIndex
      currentFullFileName := lc.currentFullFileName })
    (hname : lc.currentFullFileName = [] ∨
      lc.currentFullFileName = (s.log.loggers l).currentFullFileName) :
    SplitKept cal loggers owner ⟨s.log.setLogger l lc, s.now⟩ := by
  have hother : ∀ l', l' ≠ l → (s.log.setLogger l lc).loggers l' = s.log.loggers l' :=
    fun l' hl' => Function.update_of_ne hl' _ _
  have hown : (s.log.setLogger l lc).loggers l = lc := Function.update_self ..
  refine ⟨h.directory, fun l' => ?_, h.opened, h.single, fun file hfile => ?_, fun l' hl' => ?_,
    h.records, h.sorted, h.named⟩
  · by_cases hl' : l' = l
    · subst hl'
      dsimp only
      rw [hown, hlc, h.config l']
    · dsimp only
      rw [hother l' hl']
      exact h.config l'
  · obtain ⟨t, n, hdest, hpast, hstands⟩ := h.files file hfile
    exact ⟨t, n, hdest, hpast, hstands⟩
  · have hsame : ((s.log.setLogger l lc).loggers l').currentFullFileName =
        (s.log.loggers l').currentFullFileName := by
      by_cases hl : l' = l
      · subst hl
        rw [hown] at hl' ⊢
        exact hname.resolve_left hl'
      · rw [hother l' hl]
    obtain ⟨file, hdest, hbound, howned, hlatest⟩ := h.current l' (hsame ▸ hl')
    refine ⟨file, ?_, hbound, howned, hlatest⟩
    rw [hsame]
    exact hdest

/-- The table with a new file. -/
theorem dest_addFile (log : LogFiles) (l : Nat) (lc : LoggerConfiguration)
    (replaced : Option Nat) (name : Text) :
    (log.addFile l lc replaced).dest? name =
      if name = lc.currentFullFileName then some (some log.created.length) else log.dest? name := by
  unfold LogFiles.dest? LogFiles.addFile
  by_cases hname : name = lc.currentFullFileName
  · subst hname
    simp
  · rw [if_neg hname, List.find?_cons_of_neg (by simpa using Ne.symm hname), List.find?_filter]
    congr 1
    refine congrArg (fun p => List.find? p log.mapFileNameToDest) (funext fun e => ?_)
    by_cases he : e.1 = name
    · simp [he, hname]
    · simp [he]

/-- The files so far were made no later than `t`, and those with the names of `l` and the date of
`t` have smaller indices than `k`. -/
def Older (cal : Calendar) (loggers : Nat → LoggerConfiguration) (owner : Nat → Nat)
    (log : LogFiles) (l t k : Nat) : Prop :=
  ∀ file < log.created.length, ∃ t₁ n₁,
    log.dest? (fullName cal (loggers (owner file)) t₁ n₁) = some (some file) ∧ t₁ ≤ t ∧
      (SameNames (loggers (owner file)) (loggers l) → cal.dateText t₁ = cal.dateText t → n₁ < k)

/-- **The name of a new file is not in the table.** -/
theorem Older.fresh (h : SplitKept cal loggers owner s) (hcal : ∀ t, BACKSLASH ∉ cal.dateText t)
    (hloggers : ∀ l, Plain cal (loggers l)) {l t k : Nat}
    (ho : Older cal loggers owner s.log l t k) :
    s.log.dest? (fullName cal (loggers l) t k) = none := by
  cases hdest : s.log.dest? (fullName cal (loggers l) t k) with
  | none => rfl
  | some dest =>
    obtain ⟨file, hfile, rfl⟩ := h.opened _ _ hdest
    obtain ⟨t₁, n₁, hdest₁, _, hless⟩ := ho file hfile
    obtain ⟨hnames, hdate, hindex⟩ := fullName_inj hcal (hloggers (owner file)) (hloggers l)
      (h.single _ _ file hdest₁ hdest)
    exact absurd (hless hnames hdate) (by omega)

/-- **A new file stands after all files with the same names.** -/
theorem Older.before (h : SplitKept cal loggers owner s) (hcal : ∀ t, BACKSLASH ∉ cal.dateText t)
    (hloggers : ∀ l, Plain cal (loggers l)) {l t k : Nat} (ho : Older cal loggers owner s.log l t k)
    {file t₀ n₀ t' n' : Nat} (hfile : file < s.log.created.length)
    (hnames : SameNames (loggers (owner file)) (loggers l))
    (hdest : s.log.dest? (fullName cal (loggers (owner file)) t₀ n₀) = some (some file))
    (hnew : fullName cal (loggers l) t' n' = fullName cal (loggers l) t k) :
    Before cal t₀ n₀ t' n' := by
  obtain ⟨t₁, n₁, hdest₁, hle, hless⟩ := ho file hfile
  obtain ⟨-, hdate₀, rfl⟩ := fullName_inj hcal (hloggers (owner file)) (hloggers (owner file))
    (h.single _ _ file hdest hdest₁)
  obtain ⟨-, hdate', rfl⟩ := fullName_inj hcal (hloggers l) (hloggers l) hnew
  unfold Before
  split
  · rename_i hsame
    exact hless hnames (by rw [← hdate₀, hsame, hdate'])
  · rename_i hother
    exact date_before hle hdate₀ hdate' hother

/-- **A new file** for the logger `l`. -/
theorem SplitKept.addFile (h : SplitKept cal loggers owner s)
    (hcal : ∀ t, BACKSLASH ∉ cal.dateText t) (hloggers : ∀ l, Plain cal (loggers l)) {l t k : Nat}
    {lc : LoggerConfiguration} (hlc : lc = { s.log.loggers l with
      currentFileDate := lc.currentFileDate
      currentFileIndex := lc.currentFileIndex
      currentFullFileName := fullName cal (loggers l) t k })
    (ho : Older cal loggers owner s.log l t k) (hpast : t ≤ s.now)
    (hstands : ∀ t', s.now ≤ t' → cal.dateText t = cal.dateText t' →
      ∃ f ∈ s.log.files, f.path = (loggers l).filePath ∧ f.name = indexedName
        (baseName (SplitLog.splitConfig (loggers l))) (cal.dateText t) (loggers l).fileExt
          (decimal k)) (replaced : Option Nat) :
    SplitKept cal loggers (Function.update owner s.log.created.length l)
        ⟨s.log.addFile l lc replaced, s.now⟩ ∧
      CurrentFile (Function.update owner s.log.created.length l) (s.log.addFile l lc replaced) l
        s.log.created.length := by
  have hname : lc.currentFullFileName = fullName cal (loggers l) t k := by rw [hlc]
  have hfresh := ho.fresh h hcal hloggers
  have hbound : ∀ {name : Text} {file : Nat}, s.log.dest? name = some (some file) →
      file < s.log.created.length := by
    intro name file hdest
    obtain ⟨file', hfile', heq⟩ := h.opened _ _ hdest
    cases heq
    exact hfile'
  have hlength : (s.log.addFile l lc replaced).created.length = s.log.created.length + 1 := by
    simp [LogFiles.addFile]
  have howner : ∀ file < s.log.created.length,
      Function.update owner s.log.created.length l file = owner file :=
    fun file hfile => Function.update_of_ne (Nat.ne_of_lt hfile) _ _
  have hnewest : Function.update owner s.log.created.length l s.log.created.length = l :=
    Function.update_self ..
  -- an entry of the table is the new one, or an old one
  have hcases : ∀ {name : Text} {file : Nat},
      (s.log.addFile l lc replaced).dest? name = some (some file) ↔
        name = fullName cal (loggers l) t k ∧ file = s.log.created.length ∨
          s.log.dest? name = some (some file) := by
    intro name file
    rw [dest_addFile, hname]
    split
    · rename_i heq
      subst heq
      simp [hfresh, eq_comm]
    · rename_i hne
      simp [hne]
  have hcurrent : CurrentFile (Function.update owner s.log.created.length l)
      (s.log.addFile l lc replaced) l s.log.created.length := by
    refine ⟨?_, by omega, hnewest, fun r hr => ?_⟩
    · have hl : (s.log.addFile l lc replaced).loggers l = lc := Function.update_self ..
      rw [hl, hcases]
      exact .inl ⟨hname, rfl⟩
    · exact Nat.le_of_lt (h.records r (List.mem_of_mem_filter hr)).1
  refine ⟨⟨h.directory, fun l' => ?_, fun name dest hdest => ?_, fun name name' file h₁ h₂ => ?_,
    fun file hfile => ?_, fun l' hl' => ?_, fun r hr => ?_, h.sorted,
    fun file file' t₀ t' n₀ n' hlt hnames h₁ h₂ => ?_⟩, hcurrent⟩
  · by_cases hl' : l' = l
    · subst hl'
      have hl : (s.log.addFile l' lc replaced).loggers l' = lc := Function.update_self ..
      dsimp only
      rw [hl, hlc, h.config l']
    · have hother : (s.log.addFile l lc replaced).loggers l' = s.log.loggers l' :=
        Function.update_of_ne hl' _ _
      dsimp only
      rw [hother]
      exact h.config l'
  · dsimp only at hdest ⊢
    rw [dest_addFile] at hdest
    split at hdest
    · exact ⟨s.log.created.length, by omega, (Option.some.inj hdest).symm⟩
    · obtain ⟨file, hfile, heq⟩ := h.opened _ _ hdest
      exact ⟨file, by omega, heq⟩
  · rcases hcases.mp h₁ with ⟨rfl, rfl⟩ | h₁ <;> rcases hcases.mp h₂ with ⟨rfl, hfile⟩ | h₂
    · rfl
    · exact absurd (hbound h₂) (Nat.lt_irrefl _)
    · exact absurd (hbound h₁) (by omega)
    · exact h.single _ _ file h₁ h₂
  · dsimp only at hfile
    by_cases hlast : file = s.log.created.length
    · subst hlast
      rw [hnewest]
      exact ⟨t, k, hcases.mpr (.inl ⟨rfl, rfl⟩), hpast, hstands⟩
    · have hold : file < s.log.created.length := by omega
      obtain ⟨t₀, n₀, hdest, hpast₀, hstands₀⟩ := h.files file hold
      rw [howner file hold]
      exact ⟨t₀, n₀, hcases.mpr (.inr hdest), hpast₀, hstands₀⟩
  · by_cases hl : l' = l
    · subst hl
      exact ⟨_, hcurrent⟩
    · have hother : (s.log.addFile l lc replaced).loggers l' = s.log.loggers l' :=
        Function.update_of_ne hl _ _
      dsimp only at hl' ⊢
      rw [hother] at hl'
      obtain ⟨file, hdest, hfile, howned, hlatest⟩ := h.current l' hl'
      refine ⟨file, ?_, by omega, (howner file hfile).trans howned, hlatest⟩
      rw [hother]
      exact hcases.mpr (.inr hdest)
  · obtain ⟨hfile, howned⟩ := h.records r hr
    dsimp only
    exact ⟨by omega, (howner _ hfile).trans howned⟩
  · have hfile : file < s.log.created.length := by
      rcases hcases.mp h₂ with ⟨_, rfl⟩ | h₂
      · exact hlt
      · exact Nat.lt_trans hlt (hbound h₂)
    rw [howner file hfile] at h₁ hnames
    have hold := (hcases.mp h₁).resolve_left fun heq => Nat.ne_of_lt hfile heq.2
    rcases hcases.mp h₂ with ⟨heq, rfl⟩ | h₂
    · rw [hnewest] at hnames heq
      exact ho.before h hcal hloggers hfile hnames hold heq
    · rw [howner file' (hbound h₂)] at h₂ hnames
      exact h.named file file' t₀ t' n₀ n' hlt hnames hold h₂

/-- Time has passed. -/
theorem SplitKept.later (h : SplitKept cal loggers owner s) (hloggers : ∀ l, Plain cal (loggers l))
    {now : Nat} (hnow : s.now ≤ now) : SplitKept cal loggers owner ⟨s.log, now⟩ :=
  h.directory_step hloggers (fun _ _ he => by cases he)
    (show LogDirectory.step cal ⟨s.log.files, s.now⟩ (.clock now) = some ⟨s.log.files, now⟩ from
      if_pos hnow)

/-- What is left by a call that gets a file for `l`, or none. -/
structure OpenedFor (cal : Calendar) (loggers : Nat → LoggerConfiguration) (l now : Nat)
    (log : LogFiles) (out : Option Nat × LogFiles) : Prop where
  kept : ∃ owner, SplitKept cal loggers owner ⟨out.2, now⟩ ∧
    ∀ file, out.1 = some file → CurrentFile owner out.2 l file
  records : out.2.records = log.records

/-- What a logger's configuration has from the start. -/
structure Configured (lc lc₀ : LoggerConfiguration) : Prop where
  path : lc.filePath = lc₀.filePath
  base : baseName lc = baseName (SplitLog.splitConfig lc₀)
  ext : lc.fileExt = lc₀.fileExt
  count : lc.maxLogFileDateCount = lc₀.maxLogFileDateCount
  split : lc.isSplitByLogger = true

theorem SplitKept.configured (h : SplitKept cal loggers owner s) (l : Nat) :
    Configured (s.log.loggers l) (loggers l) := by
  rw [h.config l]
  exact ⟨rfl, rfl, rfl, rfl, rfl⟩

theorem Configured.wellNamed {lc lc₀ : LoggerConfiguration} (h : Configured lc lc₀)
    (hplain : Plain cal lc₀) :
    WellNamed (baseName lc) lc.fileExt ∧ cal.Retains lc.maxLogFileDateCount := by
  rw [h.base, h.ext, h.count]
  exact ⟨hplain.named, hplain.count⟩

/-- A file that is made has the date of the call and the first free index, and stands after the
files so far. -/
theorem SplitKept.older (h : SplitKept cal loggers owner s) {l : Nat} {a : Answers} {k : Nat}
    (hord : a.ordered s.now)
    (hmade : Made cal ⟨s.log.files, s.now⟩ (s.log.loggers l) a k) :
    Older cal loggers owner s.log l a.textTime k := by
  obtain ⟨hnow, hdate, htext, -⟩ := hord
  obtain ⟨hpath, hbase, hext, -, -⟩ := h.configured l
  intro file hfile
  obtain ⟨t₁, n₁, hdest, hpast, hstands⟩ := h.files file hfile
  refine ⟨t₁, n₁, hdest, by omega, fun hnames hsame => ?_⟩
  obtain ⟨f, hf, hfpath, hfname⟩ := hstands a.textTime (by omega) hsame
  obtain ⟨hp, hb, he⟩ := hnames
  obtain ⟨n, hn, hindex⟩ := (hmade.dense (decimal n₁)).mp
    ⟨f, hf, by rw [hfpath, hp, hpath], by rw [hfname, hb, he, hsame, hbase, hext]⟩
  rw [decimal_injective hindex]
  exact hn

/-- The directory after a call of `MakeLOGFile`. -/
theorem SplitKept.made (h : SplitKept cal loggers owner s) (hloggers : ∀ l, Plain cal (loggers l))
    {l : Nat} {a : Answers} {k : Nat} (hord : a.ordered s.now)
    (hmade : Made cal ⟨s.log.files, s.now⟩ (s.log.loggers l) a k) :
    SplitKept cal loggers owner
      ⟨{ s.log with files := (MakeLOGFile cal a (s.log.loggers l) s.log.files).2.1 },
        a.openTime⟩ := by
  obtain ⟨hwell, hcount⟩ := (h.configured l).wellNamed (hloggers l)
  have hkept := kept_make h.directory hord hwell hcount
  obtain ⟨hnow, hdate, htext, hopen⟩ := hord
  refine h.directory_moves hloggers hkept (by dsimp only; omega) fun t ht _ _ _ hnamed f hf
    hfname => ⟨f, ?_, rfl, rfl⟩
  have hfiles := hmade.files
  dsimp only at ht hfiles ⊢
  have hyoung : (s.log.loggers l).maxLogFileDateCount ≠ 0 →
      outdated (s.log.loggers l) a.oldTime f = false := fun hpos =>
    not_outdated h.directory hcount hpos (by dsimp only; omega) (by omega) hf hnamed hfname
  rw [hfiles]
  split
  · exact List.mem_append_left _ (mem_checkOld hf hyoung)
  · exact hf

/-- **`MakeLOGFile` for a logger.** -/
theorem makeLOGFile_opened (h : SplitKept cal loggers owner s)
    (hcal : ∀ t, BACKSLASH ∉ cal.dateText t) (hloggers : ∀ l, Plain cal (loggers l)) (l : Nat)
    {a : Answers} (hord : a.ordered s.now) (replaced : Option Nat) :
    OpenedFor cal loggers l a.openTime s.log (s.log.makeLOGFile cal l a replaced) ∧
      (LogFiles.succeeds a → (s.log.makeLOGFile cal l a replaced).1.isSome) := by
  obtain ⟨hpath, hbase, hext, -, -⟩ := h.configured l
  obtain ⟨hwell, hcount⟩ := (h.configured l).wellNamed (hloggers l)
  obtain ⟨k, hmade⟩ := h.directory.made hord hwell hcount
  have hmoved := h.made hloggers hord hmade
  have holder := h.older hord hmade
  obtain ⟨-, hchosen, hfiles⟩ := hmade
  have hname : (s.log.loggers l).filePath ++ text "\\" ++
      chosenName cal (s.log.loggers l) a k = fullName cal (loggers l) a.textTime k := by
    rw [chosenName, hbase, hext, hpath]
    rfl
  unfold LogFiles.makeLOGFile
  by_cases hcreated : a.created = true
  · by_cases hopens : a.opens = true
    · have hnew : (MakeLOGFile cal a (s.log.loggers l) s.log.files).1 =
          { s.log.loggers l with
            currentFileDate := cal.tm_yday a.dateTime
            currentFileIndex := k
            currentFullFileName := fullName cal (loggers l) a.textTime k } ∧
          (MakeLOGFile cal a (s.log.loggers l) s.log.files).2.2 = true := by
        simp [MakeLOGFile, hcreated, hopens, hchosen, hname]
      have hstands : ∃ f ∈ (MakeLOGFile cal a (s.log.loggers l) s.log.files).2.1,
          f.path = (loggers l).filePath ∧ f.name = indexedName
            (baseName (SplitLog.splitConfig (loggers l))) (cal.dateText a.textTime)
              (loggers l).fileExt (decimal k) := by
        dsimp only at hfiles
        rw [hfiles, if_pos hcreated, if_pos hopens]
        refine ⟨_, List.mem_append_right _ List.mem_cons_self, hpath, ?_⟩
        rw [chosenName, hbase, hext]
      obtain ⟨hsplit, hcurrent⟩ := hmoved.addFile hcal hloggers (hnew.1.trans (by rw [hnew.1]))
        holder hord.2.2.2 (fun _ _ _ => hstands) replaced
      rw [if_pos hnew.2]
      refine ⟨⟨⟨_, hsplit, fun file hfile => ?_⟩, rfl⟩, fun _ => rfl⟩
      cases hfile
      exact hcurrent
    · -- the logger has no file then
      have hnew : (MakeLOGFile cal a (s.log.loggers l) s.log.files).1 =
          { s.log.loggers l with
            currentFileDate := cal.tm_yday a.dateTime
            currentFileIndex := k
            currentFullFileName := [] } ∧
          (MakeLOGFile cal a (s.log.loggers l) s.log.files).2.2 = false := by
        simp [MakeLOGFile, hcreated, hopens, hchosen]
      rw [if_neg (by rw [hnew.2]; decide)]
      refine ⟨⟨⟨owner, ?_, fun file hfile => by cases hfile⟩, rfl⟩, fun hs => absurd hs.2 hopens⟩
      exact hmoved.setLogger (hnew.1.trans (by rw [hnew.1])) (.inl (by rw [hnew.1]))
  · -- the logger keeps its file
    have hnew : (MakeLOGFile cal a (s.log.loggers l) s.log.files).1 = s.log.loggers l ∧
        (MakeLOGFile cal a (s.log.loggers l) s.log.files).2.2 = false := by
      simp [MakeLOGFile, hcreated]
    rw [if_neg (by rw [hnew.2]; decide)]
    refine ⟨⟨⟨owner, ?_, fun file hfile => by cases hfile⟩, rfl⟩, fun hs => absurd hs.1 hcreated⟩
    exact hmoved.setLogger (hnew.1.trans (by rw [hnew.1])) (.inr (by rw [hnew.1]))

/-- **The file that a logger finds.** -/
theorem openDest_opened (h : SplitKept cal loggers owner s)
    (hcal : ∀ t, BACKSLASH ∉ cal.dateText t) (hloggers : ∀ l, Plain cal (loggers l)) (l : Nat)
    {w : WriteAnswers} (hord : w.make.ordered s.now) :
    OpenedFor cal loggers l w.make.openTime s.log (s.log.openDest cal l w) ∧
      (LogFiles.succeeds w.make → (s.log.openDest cal l w).1.isSome) := by
  unfold LogFiles.openDest
  split
  · rw [if_pos (h.configured l).split]
    exact makeLOGFile_opened h hcal hloggers l hord none
  · rename_i hname
    obtain ⟨file, hcurrent⟩ := h.current l hname
    rw [LogFiles.getFile_of_dest hcurrent.dest]
    have hnow : s.now ≤ w.make.openTime := by
      obtain ⟨h₁, h₂, h₃, h₄⟩ := hord
      omega
    refine ⟨⟨⟨owner, h.later hloggers hnow, fun file' hfile' => ?_⟩, rfl⟩, fun _ => rfl⟩
    cases hfile'
    exact hcurrent

/-- A record of `l` in its current file. -/
theorem SplitKept.put (h : SplitKept cal loggers owner s) {l file : Nat}
    (hcurrent : CurrentFile owner s.log l file) (overflow : Option Nat) :
    SplitKept cal loggers owner ⟨s.log.put l file overflow, s.now⟩ := by
  have hrecords : ∀ l', (s.log.put l file overflow).recordsOf l' = s.log.recordsOf l' ++
      if l = l' then [⟨l, file, s.log.created.length, overflow⟩] else [] := by
    intro l'
    simp only [LogFiles.recordsOf, LogFiles.put, List.filter_append, List.filter_singleton]
    by_cases hl : l = l' <;> simp [hl]
  refine ⟨h.directory, h.config, h.opened, h.single, fun file' hfile' => ?_, fun l' hl' => ?_,
    fun r hr => ?_, fun l' => ?_, h.named⟩
  · obtain ⟨t, n, hdest, hpast, hstands⟩ := h.files file' hfile'
    exact ⟨t, n, hdest, hpast, hstands⟩
  · obtain ⟨file', hdest, hbound, howned, hlatest⟩ := h.current l' hl'
    refine ⟨file', hdest, hbound, howned, fun r hr => ?_⟩
    rw [hrecords l'] at hr
    rcases List.mem_append.mp hr with hr | hr
    · exact hlatest r hr
    · by_cases hl : l = l'
      · rw [if_pos hl] at hr
        rw [List.mem_singleton.mp hr]
        subst hl
        -- the logger has one current file
        have hsame := hcurrent.dest.symm.trans hdest
        cases hsame
        exact Nat.le_refl _
      · rw [if_neg hl] at hr
        cases hr
  · rcases List.mem_append.mp hr with hr | hr
    · exact h.records r hr
    · rw [List.mem_singleton.mp hr]
      exact ⟨hcurrent.bound, hcurrent.owned⟩
  · dsimp only
    rw [hrecords l']
    split
    · rename_i hl
      subst hl
      rw [List.pairwise_append]
      refine ⟨h.sorted l, List.pairwise_singleton _ _, fun r hr r' hr' => ?_⟩
      rw [List.mem_singleton.mp hr']
      exact hcurrent.latest r hr
    · rw [List.append_nil]
      exact h.sorted l'

/-- **A write** adds at most one record, of its logger, and one if its files can be made. -/
theorem kept_writeData (h : SplitKept cal loggers owner s)
    (hcal : ∀ t, BACKSLASH ∉ cal.dateText t) (hloggers : ∀ l, Plain cal (loggers l)) (l : Nat)
    {w : WriteAnswers} (hord : w.ordered s.now) :
    (∃ owner', SplitKept cal loggers owner' ⟨s.log.writeData cal l w, w.rotate.openTime⟩) ∧
      (LogFiles.succeeds w.make ∧ LogFiles.succeeds w.rotate →
        (s.log.writeData cal l w).records.map FileRecord.logger =
          s.log.records.map FileRecord.logger ++ [l]) := by
  obtain ⟨⟨⟨owner₁, hkept₁, hfile₁⟩, hrecords₁⟩, hsome₁⟩ :=
    openDest_opened h hcal hloggers l hord.1
  have hlater : w.make.openTime ≤ w.rotate.openTime := by
    obtain ⟨h₁, h₂, h₃, h₄⟩ := hord.2
    omega
  unfold LogFiles.writeData
  rcases hopen : s.log.openDest cal l w with ⟨dest, log₁⟩
  rw [hopen] at hkept₁ hfile₁ hrecords₁ hsome₁
  cases dest with
  | none => exact ⟨⟨owner₁, hkept₁.later hloggers hlater⟩, fun hs => by cases hsome₁ hs.1⟩
  | some file =>
    dsimp only at hkept₁ hfile₁ hrecords₁ ⊢
    split
    · obtain ⟨⟨⟨owner₂, hkept₂, hfile₂⟩, hrecords₂⟩, hsome₂⟩ :=
        makeLOGFile_opened hkept₁ hcal hloggers l hord.2 (some file)
      rcases hmake : log₁.makeLOGFile cal l w.rotate (some file) with ⟨dest₂, log₂⟩
      rw [hmake] at hkept₂ hfile₂ hrecords₂ hsome₂
      cases dest₂ with
      | none => exact ⟨⟨owner₂, hkept₂⟩, fun hs => by cases hsome₂ hs.2⟩
      | some new =>
        dsimp only at hrecords₂
        refine ⟨⟨owner₂, hkept₂.put (hfile₂ new rfl) _⟩, fun _ => ?_⟩
        simp [LogFiles.put, hrecords₂, hrecords₁]
    · refine ⟨⟨owner₁, (hkept₁.put (hfile₁ file rfl) none).later hloggers hlater⟩, fun _ => ?_⟩
      simp [LogFiles.put, hrecords₁]

/-- Before the first write. -/
theorem start_kept {files : List LogFile} {now : Nat} (hfiles : Kept cal ⟨files, now⟩) :
    SplitKept cal loggers owner (SplitLog.start files now loggers) where
  directory := hfiles
  config := fun _ => rfl
  opened := fun _ _ h => by cases h
  single := fun _ _ _ h => by cases h
  files := fun file hfile => absurd hfile (Nat.not_lt_zero file)
  current := fun _ h => absurd rfl h
  records := fun _ h => by cases h
  sorted := fun _ => List.Pairwise.nil
  named := fun _ _ _ _ _ _ _ _ h => by cases h

end Invariant

/-! ## Runs -/

/-- Each file belongs to one logger and has its names, and the records of a logger are the contents
of its files, one file after another and in the order of their dates and indices. -/
structure SplitInOrder (cal : Calendar) (loggers : Nat → LoggerConfiguration) (owner : Nat → Nat)
    (log : LogFiles) : Prop where
  owned : ∀ r ∈ log.records, owner r.file = r.logger
  named : ∀ file < log.created.length, ∃ t n,
    log.dest? (fullName cal (loggers (owner file)) t n) = some (some file)
  parts : ∀ l, log.recordsOf l = (List.range log.created.length).flatMap fun file =>
    if owner file = l then log.contents file else []
  before : ∀ file file' t t' n n', file < file' →
    SameNames (loggers (owner file)) (loggers (owner file')) →
    log.dest? (fullName cal (loggers (owner file)) t n) = some (some file) →
    log.dest? (fullName cal (loggers (owner file')) t' n') = some (some file') →
    Before cal t n t' n'

section Runs

variable {cal : Calendar} {loggers : Nat → LoggerConfiguration} {owner : Nat → Nat}
  {s s' : SplitLog}

theorem SplitKept.inOrder (h : SplitKept cal loggers owner s) :
    SplitInOrder cal loggers owner s.log where
  owned := fun r hr => (h.records r hr).2
  named := fun file hfile => by
    obtain ⟨t, n, hdest, -, -⟩ := h.files file hfile
    exact ⟨t, n, hdest⟩
  parts := fun l => by
    have hbound : ∀ r ∈ s.log.recordsOf l, r.file < s.log.created.length := fun r hr =>
      (h.records r (List.mem_of_mem_filter hr)).1
    refine (segments_concat (h.sorted l) hbound).trans (List.flatMap_congr fun file _ => ?_)
    rw [LogFiles.recordsOf, List.filter_filter]
    by_cases howner : owner file = l
    · rw [if_pos howner]
      refine List.filter_congr fun r hr => ?_
      have hlogger := (h.records r hr).2
      by_cases hfile : r.file = file
      · simp [hfile, ← hlogger, howner]
      · simp [hfile]
    · rw [if_neg howner, List.filter_eq_nil_iff]
      intro r hr
      have hlogger := (h.records r hr).2
      by_cases hfile : r.file = file
      · subst hfile
        simp [← hlogger, howner]
      · simp [hfile]
  before := h.named

/-- **Every step** keeps the invariant, and adds the record of a write that finds its file. -/
theorem splitKept_step (hcal : ∀ t, BACKSLASH ∉ cal.dateText t)
    (hloggers : ∀ l, Plain cal (loggers l))
    (h : SplitKept cal loggers owner s) {e : SplitEvent}
    (hstep : SplitLog.step cal s e = some s') :
    (∃ owner', SplitKept cal loggers owner' s') ∧
      (e.Succeeds → s'.log.records.map FileRecord.logger =
        s.log.records.map FileRecord.logger ++ e.logger?.toList) := by
  cases e with
  | write e =>
    simp only [SplitLog.step] at hstep
    split at hstep
    · rename_i hord
      cases hstep
      exact kept_writeData h hcal hloggers e.logger hord
    · cases hstep
  | directory e =>
    cases e with
    | make lc a => cases hstep
    | clock | write | remove =>
      obtain ⟨d, hd, rfl⟩ := Option.map_eq_some_iff.mp hstep
      refine ⟨⟨owner, h.directory_step hloggers (fun _ _ he => by cases he) hd⟩, fun _ => ?_⟩
      exact (List.append_nil _).symm

theorem splitKept_run (hcal : ∀ t, BACKSLASH ∉ cal.dateText t)
    (hloggers : ∀ l, Plain cal (loggers l)) :
    ∀ {es : List SplitEvent} {s : SplitLog}, (∃ owner, SplitKept cal loggers owner s) →
      Transition.run (SplitLog.step cal) s es = some s' →
      (∃ owner, SplitKept cal loggers owner s') ∧
        ((∀ e ∈ es, e.Succeeds) → s'.log.records.map FileRecord.logger =
          s.log.records.map FileRecord.logger ++ es.filterMap SplitEvent.logger?)
  | [], s, hkept, hrun => by
    cases hrun
    exact ⟨hkept, fun _ => (List.append_nil _).symm⟩
  | e :: es, s, ⟨owner, hkept⟩, hrun => by
    obtain ⟨s₁, hstep, hrest⟩ := Transition.run_cons.mp hrun
    obtain ⟨hkept₁, hrecords₁⟩ := splitKept_step hcal hloggers hkept hstep
    obtain ⟨hkept', hrecords'⟩ := splitKept_run hcal hloggers hkept₁ hrest
    refine ⟨hkept', fun hall => ?_⟩
    rw [hrecords' fun e' he' => hall e' (List.mem_cons_of_mem e he'),
      hrecords₁ (hall e List.mem_cons_self), List.append_assoc]
    cases hlogger : e.logger? <;> simp [hlogger]

end Runs

/-- **A log file for each logger**: however the writes of the loggers interleave, whatever files
cannot be made and whatever others do to the directory meanwhile, no two loggers write to one file,
and a logger's files by date and index give all its records in the order in which they were written.
No record is missing if files can be made. -/
theorem split_log_in_order (cal : Calendar) (hcal : ∀ t, BACKSLASH ∉ cal.dateText t)
    {loggers : Nat → LoggerConfiguration} (hloggers : ∀ l, Plain cal (loggers l))
    {files : List LogFile} {now : Nat} (hfiles : Kept cal ⟨files, now⟩)
    {es : List SplitEvent} {s : SplitLog}
    (hrun : Transition.run (SplitLog.step cal) (SplitLog.start files now loggers) es = some s) :
    (∃ owner, SplitInOrder cal loggers owner s.log) ∧
      ((∀ e ∈ es, e.Succeeds) →
        s.log.records.map FileRecord.logger = es.filterMap SplitEvent.logger?) := by
  have hstart : ∃ owner, SplitKept cal loggers owner (SplitLog.start files now loggers) :=
    ⟨fun _ => 0, start_kept hfiles⟩
  obtain ⟨⟨owner, hkept⟩, hrecords⟩ := splitKept_run hcal hloggers hstart hrun
  exact ⟨⟨owner, hkept.inOrder⟩, hrecords⟩

/-- Two loggers, whose names give one file name. -/
def likeNamed (l : Nat) : LoggerConfiguration :=
  { plainFiles with
    loggerNameW := text (if l = 0 then "net/in" else "net_in")
    fileSizeLimit := 1
    isSplitWhenDate := false }

theorem likeNamed_plain (l : Nat) : Plain plainCalendar (likeNamed l) := by
  unfold likeNamed
  split <;> exact ⟨⟨by decide, by decide, by decide⟩, plainCalendar_retains (by decide)⟩

theorem plainCalendar_backslash (t : Nat) : BACKSLASH ∉ plainCalendar.dateText t := by
  intro h
  rcases List.mem_append.mp h with h | h
  · exact absurd h (by decide)
  · have hlast := List.mem_singleton.mp h
    unfold BACKSLASH at hlast
    split at hlast <;> simp at hlast <;> omega

/-- Each has its file of that day, and the first one then needs another. -/
theorem split_log_in_order_likeNamed :
    ∃ s, Transition.run (SplitLog.step plainCalendar) (SplitLog.start [] 0 likeNamed)
        [.write (LogFiles.recordAt 0 0 2), .write (LogFiles.recordAt 1 10 100),
          .directory (.clock 15), .write (LogFiles.recordAt 0 20 1048576)] = some s ∧
      (∃ owner, SplitInOrder plainCalendar likeNamed owner s.log) ∧
      s.log.records.map FileRecord.file = [0, 1, 2] := by
  obtain ⟨s, hs, hfiles⟩ : ∃ s, Transition.run (SplitLog.step plainCalendar)
      (SplitLog.start [] 0 likeNamed) [.write (LogFiles.recordAt 0 0 2),
        .write (LogFiles.recordAt 1 10 100), .directory (.clock 15),
        .write (LogFiles.recordAt 0 20 1048576)] = some s ∧
      s.log.records.map FileRecord.file = [0, 1, 2] := ⟨_, rfl, by decide⟩
  refine ⟨s, hs, (split_log_in_order plainCalendar plainCalendar_backslash likeNamed_plain ?_ hs).1,
    hfiles⟩
  exact ⟨List.nodup_nil, fun f hf => absurd hf List.not_mem_nil,
    fun t _ path base fileExt _ => ⟨0, fun index => by simp⟩⟩

end IMonPlatform.Logger
