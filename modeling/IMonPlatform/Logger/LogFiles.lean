import IMonPlatform.Logger.Rotation

/-!
# One log file for all loggers

Without a file per logger, `WriteData` sends the records of all loggers to one table of open files.
A logger keeps the name of its own current file: at its first record it takes the file that the
table gives first, and it is the only one to take over the new name when it makes a file.  The
other loggers go on with the old one.

* `LogFiles` — the directory, the table `_mapFileNameToDest` and the loggers; files are numbered in
  the order of their creation.
* `getFile`, `makeLOGFile`, `openDest`, `writeData` — the file part of `WriteData`.
* `Undisturbed` — the logger has written since the latest file was made, or it writes for the first
  time and there is at most one file.
* `one_shared_file` — in a run of such writes each record goes to the latest file, and a file that
  has become too large is followed by exactly one new file.
-/

set_option autoImplicit false

namespace IMonPlatform.Logger

/-! ## The file part of `WriteData` -/

/-- A record that was written to a file. -/
structure FileRecord where
  logger : Nat
  file : Nat
  /-- The number of files that have been created by then. -/
  created : Nat
  /-- The file that was found too large for it. -/
  overflow : Option Nat
  deriving DecidableEq

structure LogFiles where
  files : List LogFile
  /-- Names and open files; the file is `none` for a pair of `NULL`. -/
  mapFileNameToDest : List (Text × Option Nat)
  loggers : Nat → LoggerConfiguration
  /-- The files that were created, each with the file it replaces. -/
  created : List (Option Nat)
  records : List FileRecord

/-- What the system answers in a call of `WriteData`. -/
structure WriteAnswers where
  /-- The name of `_mapFileNameToDest.begin()`. -/
  first : Text
  /-- In `MakeLOGFile` for a logger without a file, and for one that needs a new one. -/
  make : Answers
  rotate : Answers
  /-- `_wstat64` -/
  stat : Text → Option Nat
  /-- `tm_yday` of the current time. -/
  yday : Option Nat

/-- The file has reached its size limit. -/
def sizeExceeded (lc : LoggerConfiguration) (w : WriteAnswers) : Bool :=
  lc.fileSizeLimit ≠ 0 &&
    match w.stat lc.currentFullFileName with
    | none => false
    | some size => lc.fileSizeLimit * (1024 * 1024) ≤ size

/-- The day of the year is later than that of the file. -/
def dateChanged (lc : LoggerConfiguration) (w : WriteAnswers) : Bool :=
  lc.isSplitWhenDate &&
    match w.yday with
    | none => false
    | some yday => lc.currentFileDate < yday

def CheckFileSizeAndDate (lc : LoggerConfiguration) (w : WriteAnswers) : Bool :=
  sizeExceeded lc w || dateChanged lc w

namespace LogFiles

/-- The entry of a name in the table. -/
def dest? (s : LogFiles) (name : Text) : Option (Option Nat) :=
  (s.mapFileNameToDest.find? fun e => e.1 = name).map Prod.snd

/-- `_mapFileNameToDest[ name ]`, which makes an entry for a name that has none. -/
def getFile (s : LogFiles) (name : Text) : Option Nat × LogFiles :=
  match s.dest? name with
  | some file => (file, s)
  | none => (none, { s with mapFileNameToDest := (name, none) :: s.mapFileNameToDest })

def setLogger (s : LogFiles) (l : Nat) (lc : LoggerConfiguration) : LogFiles :=
  { s with loggers := Function.update s.loggers l lc }

/-- `GetFile( lc )`: the logger takes the first file of the table. -/
def getFirstFile (s : LogFiles) (l : Nat) (first : Text) : Option Nat × LogFiles :=
  (s.setLogger l { s.loggers l with currentFullFileName := first }).getFile first

/-- The table and the logger with a new file. -/
def addFile (s : LogFiles) (l : Nat) (lc : LoggerConfiguration) (replaced : Option Nat) :
    LogFiles where
  files := s.files
  mapFileNameToDest := (lc.currentFullFileName, some s.created.length) ::
    s.mapFileNameToDest.filter fun e => e.1 ≠ lc.currentFullFileName
  loggers := Function.update s.loggers l lc
  created := s.created ++ [replaced]
  records := s.records

/-- `MakeLOGFile`, with the file that is replaced. -/
def makeLOGFile (cal : Calendar) (s : LogFiles) (l : Nat) (a : Answers) (replaced : Option Nat) :
    Option Nat × LogFiles :=
  let made := MakeLOGFile cal a (s.loggers l) s.files
  let s := { s with files := made.2.1 }
  if made.2.2 then (some s.created.length, s.addFile l made.1 replaced)
  else (none, s.setLogger l made.1)

/-- The file of a logger, before its size and date are checked. -/
def openDest (cal : Calendar) (s : LogFiles) (l : Nat) (w : WriteAnswers) :
    Option Nat × LogFiles :=
  if (s.loggers l).currentFullFileName = [] then
    if (s.loggers l).isSplitByLogger then s.makeLOGFile cal l w.make none
    else if s.mapFileNameToDest ≠ [] then s.getFirstFile l w.first
    else s.makeLOGFile cal l w.make none
  else s.getFile (s.loggers l).currentFullFileName

/-- `fputws`, or `Push` to the queue of the file. -/
def put (s : LogFiles) (l file : Nat) (overflow : Option Nat) : LogFiles :=
  { s with records := s.records ++ [⟨l, file, s.created.length, overflow⟩] }

def writeData (cal : Calendar) (s : LogFiles) (l : Nat) (w : WriteAnswers) : LogFiles :=
  match s.openDest cal l w with
  | (none, s) => s
  | (some file, s) =>
    if CheckFileSizeAndDate (s.loggers l) w then
      match s.makeLOGFile cal l w.rotate (some file) with
      | (none, s') => s'
      | (some new, s') =>
        s'.put l new (if sizeExceeded (s.loggers l) w then some file else none)
    else s.put l file none

/-- A record of a logger. -/
structure WriteEvent where
  logger : Nat
  answers : WriteAnswers

/-- A file can be created. -/
def succeeds (a : Answers) : Prop := a.created = true ∧ a.opens = true

instance (a : Answers) : Decidable (succeeds a) := inferInstanceAs (Decidable (_ ∧ _))

/-- Every file creation succeeds, and the first entry of the table is one of its entries. -/
def Enabled (s : LogFiles) (w : WriteAnswers) : Prop :=
  succeeds w.make ∧ succeeds w.rotate ∧
    (s.mapFileNameToDest = [] ∨ w.first ∈ s.mapFileNameToDest.map Prod.fst)

instance (s : LogFiles) (w : WriteAnswers) : Decidable (s.Enabled w) :=
  inferInstanceAs (Decidable (_ ∧ _))

def step (cal : Calendar) (s : LogFiles) (e : WriteEvent) : Option LogFiles :=
  if s.Enabled e.answers then some (s.writeData cal e.logger e.answers) else none

/-- Loggers that share one file, none of them with a file yet. -/
def start (files : List LogFile) (loggers : Nat → LoggerConfiguration) : LogFiles where
  files := files
  mapFileNameToDest := []
  loggers := fun l => { loggers l with currentFullFileName := [], isSplitByLogger := false }
  created := []
  records := []

/-- Each record is in the file created last before it, so that records with no new file between
them are in the same one; and a file that was found too large has exactly one successor. -/
structure OneFile (s : LogFiles) : Prop where
  latest : ∀ r ∈ s.records, r.file + 1 = r.created
  shared : ∀ r ∈ s.records, ∀ r' ∈ s.records, r.created = r'.created → r.file = r'.file
  successor : ∀ r ∈ s.records, ∀ f, r.overflow = some f → ∃! i : Nat, s.created[i]? = some (some f)

/-- The logger has written since the latest file was made, or it writes for the first time and
there is at most one file. -/
def Undisturbed (s : LogFiles) (e : WriteEvent) : Prop :=
  (∃ r ∈ s.records, r.logger = e.logger ∧ r.created = s.created.length) ∨
    (s.loggers e.logger).currentFullFileName = [] ∧ s.created.length ≤ 1

/-! ## The invariant -/

/-- The latest file is the current one of a logger. -/
structure Latest (s : LogFiles) (l file : Nat) : Prop where
  name : (s.loggers l).currentFullFileName ≠ []
  dest : s.dest? (s.loggers l).currentFullFileName = some (some file)
  last : file + 1 = s.created.length

/-- What the table and the files keep. -/
structure Tracked (s : LogFiles) : Prop where
  unsplit : ∀ l, (s.loggers l).isSplitByLogger = false
  keys : ∀ e ∈ s.mapFileNameToDest, e.1 ≠ []
  filled : s.mapFileNameToDest = [] → s.created = []
  single : s.created.length ≤ 1 → ∀ e ∈ s.mapFileNameToDest, e.2 = some 0 ∧ s.created.length = 1
  chain : ∀ i < s.created.length, s.created[i]? = some (if i = 0 then none else some (i - 1))

/-- What the records keep. -/
structure Recorded (s : LogFiles) : Prop where
  latest : ∀ r ∈ s.records, r.file + 1 = r.created
  bound : ∀ r ∈ s.records, r.created ≤ s.created.length
  overflow : ∀ r ∈ s.records, ∀ f, r.overflow = some f → f + 1 < s.created.length
  current : ∀ r ∈ s.records, r.created = s.created.length → Latest s r.logger r.file

section Invariant

variable {cal : Calendar} {s : LogFiles} {l : Nat}

/-- The table gives a file of a logger without a change. -/
theorem getFile_of_dest {name : Text} {file : Option Nat} (h : s.dest? name = some file) :
    s.getFile name = (file, s) := by
  simp only [getFile, h]

theorem mem_of_dest {name : Text} {file : Option Nat} (h : s.dest? name = some file) :
    (name, file) ∈ s.mapFileNameToDest := by
  obtain ⟨⟨name', file'⟩, hfind, rfl⟩ := Option.map_eq_some_iff.mp h
  obtain rfl : name' = name := by simpa using List.find?_some hfind
  exact List.mem_of_find?_eq_some hfind

theorem dest_of_mem {name : Text} (h : name ∈ s.mapFileNameToDest.map Prod.fst) :
    ∃ file, s.dest? name = some file := by
  obtain ⟨e, he, rfl⟩ := List.mem_map.mp h
  cases hfind : s.mapFileNameToDest.find? fun e' => e'.1 = e.1 with
  | none => exact absurd (decide_eq_true rfl) (List.find?_eq_none.mp hfind e he)
  | some e' => exact ⟨e'.2, by rw [dest?, hfind]; rfl⟩

/-- The configuration that a successful call leaves. -/
theorem made_configuration (cal : Calendar) {a : Answers} (ha : succeeds a)
    (lc : LoggerConfiguration) (files : List LogFile) :
    (MakeLOGFile cal a lc files).2.2 = true ∧
      (MakeLOGFile cal a lc files).1.currentFullFileName ≠ [] ∧
      (MakeLOGFile cal a lc files).1.isSplitByLogger = lc.isSplitByLogger := by
  unfold MakeLOGFile
  rw [if_pos ha.1]
  simp only
  rw [if_pos ha.2]
  refine ⟨rfl, ?_, rfl⟩
  simp [CheckFileExist, text]

theorem addFile_latest {lc : LoggerConfiguration} (hname : lc.currentFullFileName ≠ [])
    (replaced : Option Nat) : Latest (s.addFile l lc replaced) l s.created.length := by
  refine ⟨?_, ?_, ?_⟩
  · simpa [addFile] using hname
  · simp [addFile, dest?]
  · simp [addFile]

theorem addFile_tracked (h : Tracked s) {lc : LoggerConfiguration}
    (hname : lc.currentFullFileName ≠ []) (hsplit : lc.isSplitByLogger = false) :
    Tracked (s.addFile l lc
      (if s.created.length = 0 then none else some (s.created.length - 1))) := by
  refine ⟨?_, ?_, ?_, ?_, ?_⟩
  · intro l'
    by_cases hl : l' = l
    · subst hl
      simpa [addFile] using hsplit
    · simpa [addFile, Function.update_of_ne hl] using h.unsplit l'
  · intro e he
    rcases List.mem_cons.mp he with rfl | he
    · exact hname
    · exact h.keys e (List.mem_of_mem_filter he)
  · intro hempty
    cases hempty
  · intro hlen e he
    -- it is the first file, and the table was empty
    have hnone : s.created.length = 0 := by
      simp only [addFile, List.length_append, List.length_singleton] at hlen
      omega
    rcases List.mem_cons.mp he with rfl | he
    · simp [addFile, hnone]
    · have hone := (h.single (by omega) e (List.mem_of_mem_filter he)).2
      omega
  · intro i hi
    simp only [addFile, List.length_append, List.length_singleton] at hi ⊢
    rcases Nat.lt_succ_iff_lt_or_eq.mp hi with hlt | rfl
    · rw [List.getElem?_append_left hlt]
      exact h.chain i hlt
    · rw [List.getElem?_append_right (Nat.le_refl _), Nat.sub_self]
      rfl

/-- **A new file**: it is the latest one and that of its logger. -/
theorem makeLOGFile_spec (cal : Calendar) (h : Tracked s) (l : Nat) {a : Answers}
    (ha : succeeds a) :
    ∃ s', s.makeLOGFile cal l a
        (if s.created.length = 0 then none else some (s.created.length - 1)) =
          (some s.created.length, s') ∧
      Tracked s' ∧ Latest s' l s.created.length ∧ s'.records = s.records ∧
      s'.created.length = s.created.length + 1 := by
  obtain ⟨hopened, hname, hsplit⟩ := made_configuration cal ha (s.loggers l) s.files
  rw [h.unsplit l] at hsplit
  have hfiles : Tracked { s with files := (MakeLOGFile cal a (s.loggers l) s.files).2.1 } :=
    ⟨h.unsplit, h.keys, h.filled, h.single, h.chain⟩
  refine ⟨_, ?_, addFile_tracked hfiles hname hsplit, addFile_latest hname _, rfl, ?_⟩
  · simp only [makeLOGFile]
    rw [if_pos hopened]
  · simp [addFile]

/-- After a new file no record is one of the latest file. -/
theorem Recorded.grown {s' : LogFiles} (h : Recorded s) (hrecords : s'.records = s.records)
    (hcreated : s'.created.length = s.created.length + 1) : Recorded s' := by
  refine ⟨?_, ?_, ?_, ?_⟩
  · rw [hrecords]
    exact h.latest
  · intro r hr
    have := h.bound r (hrecords ▸ hr)
    omega
  · intro r hr f hf
    have := h.overflow r (hrecords ▸ hr) f hf
    omega
  · intro r hr hlast
    have := h.bound r (hrecords ▸ hr)
    omega

/-- A logger without a file takes the only one. -/
theorem getFirstFile_spec (h : Tracked s) (hr : Recorded s)
    (hcurrent : (s.loggers l).currentFullFileName = []) (hlen : s.created.length ≤ 1)
    {first : Text} (hfirst : first ∈ s.mapFileNameToDest.map Prod.fst) :
    ∃ s₁, s.getFirstFile l first = (some 0, s₁) ∧ Tracked s₁ ∧ Recorded s₁ ∧ Latest s₁ l 0 := by
  obtain ⟨file, hdest⟩ := dest_of_mem hfirst
  obtain ⟨hfile, hone⟩ := h.single hlen _ (mem_of_dest hdest)
  obtain rfl : file = some 0 := hfile
  have hdest' : (s.setLogger l { s.loggers l with currentFullFileName := first }).dest? first =
      some (some 0) := hdest
  refine ⟨_, getFile_of_dest hdest', ⟨?_, h.keys, h.filled, h.single, h.chain⟩,
    ⟨hr.latest, hr.bound, hr.overflow, ?_⟩, ⟨?_, ?_, hone.symm⟩⟩
  · intro l'
    by_cases hl : l' = l
    · subst hl
      simpa [setLogger] using h.unsplit l'
    · simpa [setLogger, Function.update_of_ne hl] using h.unsplit l'
  · intro r hmem hlast
    have hlatest := hr.current r hmem hlast
    have hl : r.logger ≠ l := by
      rintro rfl
      exact hlatest.name hcurrent
    refine ⟨?_, ?_, hlatest.last⟩
    · simpa [setLogger, Function.update_of_ne hl] using hlatest.name
    · simpa [setLogger, Function.update_of_ne hl, dest?] using hlatest.dest
  · simpa [setLogger] using h.keys _ (mem_of_dest hdest)
  · simpa [setLogger] using hdest'

/-- **The file that a logger finds** is the latest one. -/
theorem openDest_spec (cal : Calendar) (h : Tracked s) (hr : Recorded s) {w : WriteAnswers}
    (hen : s.Enabled w) (hund : s.Undisturbed ⟨l, w⟩) :
    ∃ file s₁, s.openDest cal l w = (some file, s₁) ∧ Tracked s₁ ∧ Recorded s₁ ∧
      Latest s₁ l file := by
  unfold openDest
  rcases hund with ⟨r, hmem, hlogger, hlast⟩ | ⟨hcurrent, hlen⟩
  · -- the logger has written since the latest file was made
    have hlatest := hr.current r hmem hlast
    rw [show r.logger = l from hlogger] at hlatest
    rw [if_neg hlatest.name, getFile_of_dest hlatest.dest]
    exact ⟨r.file, s, rfl, h, hr, hlatest⟩
  · rw [if_pos hcurrent, h.unsplit l, if_neg (by decide)]
    split
    · rename_i hfilled
      obtain ⟨s₁, heq, htracked, hrecorded, hlatest⟩ :=
        getFirstFile_spec h hr hcurrent hlen (hen.2.2.resolve_left hfilled)
      exact ⟨0, s₁, heq, htracked, hrecorded, hlatest⟩
    · rename_i hempty
      have hnone : s.created = [] := h.filled (not_not.mp hempty)
      obtain ⟨s₁, heq, htracked, hlatest, hrecords, hgrown⟩ := makeLOGFile_spec cal h l hen.1
      rw [if_pos (by rw [hnone]; rfl)] at heq
      exact ⟨_, s₁, heq, htracked, hr.grown hrecords hgrown, hlatest⟩

/-- A record in the latest file. -/
theorem Recorded.put (h : Recorded s) {file : Nat} (hlatest : Latest s l file)
    {overflow : Option Nat} (hover : ∀ f, overflow = some f → f + 1 < s.created.length) :
    Recorded (s.put l file overflow) := by
  have hcases : ∀ r ∈ (s.put l file overflow).records,
      r ∈ s.records ∨ r = ⟨l, file, s.created.length, overflow⟩ := by
    intro r hr
    simpa [LogFiles.put] using hr
  refine ⟨?_, ?_, ?_, ?_⟩
  · intro r hr
    rcases hcases r hr with hr | rfl
    · exact h.latest r hr
    · exact hlatest.last
  · intro r hr
    rcases hcases r hr with hr | rfl
    · exact h.bound r hr
    · exact Nat.le_refl _
  · intro r hr
    rcases hcases r hr with hr | rfl
    · exact h.overflow r hr
    · exact hover
  · intro r hr hlast
    rcases hcases r hr with hr | rfl
    · have hold := h.current r hr hlast
      exact ⟨hold.name, hold.dest, hold.last⟩
    · exact ⟨hlatest.name, hlatest.dest, hlatest.last⟩

theorem Tracked.put (h : Tracked s) (file : Nat) (overflow : Option Nat) :
    Tracked (s.put l file overflow) :=
  ⟨h.unsplit, h.keys, h.filled, h.single, h.chain⟩

/-- **One write** of an undisturbed logger. -/
theorem writeData_spec (cal : Calendar) (h : Tracked s) (hr : Recorded s) {w : WriteAnswers}
    (hen : s.Enabled w) (hund : s.Undisturbed ⟨l, w⟩) :
    Tracked (s.writeData cal l w) ∧ Recorded (s.writeData cal l w) := by
  obtain ⟨file, s₁, hopen, htracked, hrecorded, hlatest⟩ := openDest_spec cal h hr hen hund
  unfold writeData
  simp only [hopen]
  split
  · -- the size or the date asks for a new file
    obtain ⟨s₂, hmake, htracked', hlatest', hrecords, hgrown⟩ :=
      makeLOGFile_spec cal htracked l hen.2.1
    have hlast := hlatest.last
    rw [if_neg (by omega), show s₁.created.length - 1 = file by omega] at hmake
    simp only [hmake]
    refine ⟨htracked'.put _ _, (hrecorded.grown hrecords hgrown).put hlatest' ?_⟩
    intro f hf
    split at hf <;> cases hf
    omega
  · exact ⟨htracked.put _ _, hrecorded.put hlatest (fun f hf => by cases hf)⟩

/-- Each file but the first replaces the one before it. -/
theorem Tracked.successor (h : Tracked s) {f : Nat} (hf : f + 1 < s.created.length) :
    ∃! i : Nat, s.created[i]? = some (some f) := by
  refine ⟨f + 1, ?_, ?_⟩
  · simpa using h.chain (f + 1) hf
  · intro i hi
    have hlt : i < s.created.length := (List.getElem?_eq_some_iff.mp hi).1
    rw [h.chain i hlt] at hi
    split at hi
    · cases hi
    · have := Option.some.inj (Option.some.inj hi)
      omega

end Invariant

/-! ## The main result -/

/-- **One shared file**: in every run in which each logger writes undisturbed, each record is in the
file created last before it, and a file that was found too large has exactly one successor. -/
theorem one_shared_file (cal : Calendar) (files : List LogFile)
    (loggers : Nat → LoggerConfiguration) {es : List WriteEvent} {s : LogFiles}
    (hrun : Transition.run (step cal) (start files loggers) es = some s)
    (hund : Transition.Meets (step cal) Undisturbed (start files loggers) es) : OneFile s := by
  have hstart : Tracked (start files loggers) ∧ Recorded (start files loggers) := by
    refine ⟨⟨fun _ => rfl, ?_, fun _ => rfl, ?_, ?_⟩, ⟨?_, ?_, ?_, ?_⟩⟩
    · exact fun e he => absurd he List.not_mem_nil
    · exact fun _ e he => absurd he List.not_mem_nil
    · exact fun i hi => absurd hi (Nat.not_lt_zero i)
    all_goals exact fun r hr => absurd hr List.not_mem_nil
  obtain ⟨htracked, hrecorded⟩ : Tracked s ∧ Recorded s := by
    refine Transition.run_preserves (I := fun s => Tracked s ∧ Recorded s)
      (fun s e s' hs he hstep => ?_) es _ s hstart hund hrun
    unfold step at hstep
    split at hstep <;> cases hstep
    rename_i hen
    exact writeData_spec cal hs.1 hs.2 hen he
  refine ⟨hrecorded.latest, ?_, ?_⟩
  · intro r hr r' hr' hsame
    have hlast := hrecorded.latest r hr
    have hlast' := hrecorded.latest r' hr'
    omega
  · exact fun r hr f hf => htracked.successor (hrecorded.overflow r hr f hf)

/-- A limit of one megabyte and no new file for a new day. -/
def limited : LoggerConfiguration :=
  { plainFiles with fileSizeLimit := 1, isSplitWhenDate := false }

/-- A record of a logger whose file has this size. -/
def recordAt (l t size : Nat) : WriteEvent :=
  ⟨l, ⟨text "c:\\log\\app_1970-01-01-[0].log", answersAt t, answersAt t, fun _ => some size, none⟩⟩

/-- Two loggers write to one file, and the first one makes the next. -/
theorem undisturbed_records :
    ∃ s, Transition.run (step plainCalendar) (start [] fun _ => limited)
        [recordAt 0 0 2, recordAt 1 10 100, recordAt 0 20 1048576] = some s ∧ OneFile s := by
  obtain ⟨s, hs⟩ : ∃ s, Transition.run (step plainCalendar) (start [] fun _ => limited)
      [recordAt 0 0 2, recordAt 1 10 100, recordAt 0 20 1048576] = some s := ⟨_, rfl⟩
  refine ⟨s, hs, one_shared_file plainCalendar [] _ hs ?_⟩
  refine Transition.meets_cons rfl (.inr ⟨rfl, by decide⟩) ?_
  refine Transition.meets_cons rfl (.inr ⟨rfl, by decide⟩) ?_
  refine Transition.meets_cons rfl (.inl ⟨⟨0, 0, 1, none⟩, by decide, rfl, by decide⟩) ?_
  trivial

/-- The second logger goes on with the old file. -/
theorem old_file_goes_on :
    ∃ s, Transition.run (step plainCalendar) (start [] fun _ => limited)
        [recordAt 0 0 2, recordAt 1 10 100, recordAt 0 20 1048576, recordAt 1 30 100] = some s ∧
      ¬ OneFile s := by
  refine ⟨_, rfl, fun h => ?_⟩
  have hlast := h.latest ⟨1, 0, 2, none⟩ (by decide)
  cases hlast

end LogFiles

end IMonPlatform.Logger
