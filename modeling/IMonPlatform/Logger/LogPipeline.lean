import Mathlib.Algebra.Order.BigOperators.Group.List
import Mathlib.Algebra.Order.Group.Nat
import IMonPlatform.Logger.AsyncLog
import IMonPlatform.Logger.RecordFlow

/-!
# The way of a record into its file

The threads of a running logger with asynchronous configurations: the `Log` calls and `workerThread`
as in `AsyncLog`, `WriteData` with the file part, and `workerFileThread`, which writes what the
batch queues of the files hold, at most 256 records of a file in a round.

* `LogPipeline.step` — one step of any thread.
* `LogSetting.sentTo` — the records for a file, in the order of their pushes.
* `files_in_order_iff` — a file holds the first records pushed for it, in order, exactly as long as
  no record is written to it directly while others wait in its batch queue.
* `batch_refines_plain` — the batch writer is the plain one with records still to be written.
* `pipeline_drains_iff` — what was pushed can be brought into the files unless a record is for a
  batch queue and `workerFileThread` was not started.
-/

set_option autoImplicit false

namespace IMonPlatform.Logger

open Transition
open Format (CharT cstr)
open scoped List

/-- An open file, and the `isUseBatchFileWrite` of the logger whose record goes there. -/
structure FileDest where
  file : Nat
  isUseBatchFileWrite : Bool
  deriving DecidableEq

/-- A text that `WriteData` sends to a file, with the number of its record. -/
structure SentText where
  number : Nat
  text : List CharT
  deriving DecidableEq

/-- What the threads find. -/
structure LogSetting where
  CA2U : List CharT → List CharT
  /-- Where `WriteData` sends its n-th record; `none` without `LT_FILE` or an open file. -/
  dest : Nat → Option FileDest
  /-- Of `_defaultConfiguration`: `InitLogger` has started `workerFileThread`. -/
  isUseBatchFileWrite : Bool

structure LogPipeline where
  log : AsyncLog
  /-- `_fileWriteQueue`, with its keys; a missing key has an empty queue. -/
  files : List Nat
  fileWriteQueue : Nat → List SentText
  /-- The files that `workerFileThread` has still to visit, and its `nCurrentCount`; `none` while
      it sleeps. -/
  round : Option (List Nat × Nat)
  /-- What `fputws` has put into a file, and how much of it `fflush` has passed on. -/
  written : Nat → List SentText
  flushed : Nat → Nat

inductive PipelineEvent where
  /-- A step of `AsyncLog` other than `WriteData`. -/
  | log (e : AsyncEvent)
  | writeData
  /-- `workerFileThread` wakes up and enters `_csFactory`; the map is visited in this order. -/
  | beginRound (order : List Nat)
  /-- A step of its loops. -/
  | visit

namespace LogSetting

/-- The text that both ways into a file write. -/
def recordText (g : LogSetting) (lc : LogContext) : List CharT :=
  if lc.isUnicodeData then cstr (lc.logDataW.getD []) else cstr (g.CA2U (lc.logDataA.getD []))

/-- What of these records goes to a file. -/
def sentTo (g : LogSetting) (file : Nat) (records : List (Nat × LogContext)) : List SentText :=
  records.zipIdx.filterMap fun r =>
    if (g.dest r.2).map FileDest.file = some file then some ⟨r.2, g.recordText r.1.2⟩ else none

/-- The same loggers without batch writing. -/
def plain (g : LogSetting) : LogSetting :=
  { g with dest := fun n => (g.dest n).map fun d => ⟨d.file, false⟩ }

end LogSetting

namespace LogPipeline

def start : LogPipeline := ⟨AsyncLog.initLogger, [], fun _ => [], none, fun _ => [], fun _ => 0⟩

def fputws (s : LogPipeline) (file : Nat) (record : SentText) : LogPipeline :=
  { s with written := Function.update s.written file (s.written file ++ [record]) }

def fflush (s : LogPipeline) (file : Nat) : LogPipeline :=
  { s with flushed := Function.update s.flushed file (s.written file).length }

def pushBatch (s : LogPipeline) (file : Nat) (record : SentText) : LogPipeline :=
  { s with
    files := if file ∈ s.files then s.files else file :: s.files
    fileWriteQueue :=
      Function.update s.fileWriteQueue file (s.fileWriteQueue file ++ [record]) }

/-- The end of the file part of `WriteData`. -/
def writeText (s : LogPipeline) (record : SentText) : Option FileDest → LogPipeline
  | none => s
  | some d =>
    if d.isUseBatchFileWrite then s.pushBatch d.file record
    else (s.fputws d.file record).fflush d.file

/-- A step of the loops of `workerFileThread`. -/
def visitFile (s : LogPipeline) : List Nat → Nat → LogPipeline
  | [], _ => { s with round := none }
  | file :: rest, nCurrentCount =>
    match s.fileWriteQueue file with
    | [] =>
      if 0 < nCurrentCount then { s.fflush file with round := some (rest, 0) }
      else { s with round := some (rest, 0) }
    | record :: records =>
      let s := { s.fputws file record with
        fileWriteQueue := Function.update s.fileWriteQueue file records }
      if RecordFlow.nMaxCountPerOnce ≤ nCurrentCount + 1 then
        { s.fflush file with round := some (rest, 0) }
      else { s with round := some (file :: rest, nCurrentCount + 1) }

def step (g : LogSetting) (s : LogPipeline) : PipelineEvent → Option LogPipeline
  | .log .writeData => none
  | .log e => (s.log.step e).map fun log => { s with log }
  | .writeData =>
    match s.log.worker with
    | .popped o => (s.log.step .writeData).map fun log =>
        { s with log }.writeText ⟨s.log.passed.length, g.recordText (s.log.contexts o)⟩
          (g.dest s.log.passed.length)
    | _ => none
  | .beginRound order =>
    if g.isUseBatchFileWrite ∧ s.round = none ∧ order.Perm s.files then
      some { s with round := some (order, 0) }
    else none
  | .visit => s.round.map fun r => s.visitFile r.1 r.2

/-- A record is written to its file directly only when no other waits in its batch queue. -/
def KeepsOrder (g : LogSetting) (s : LogPipeline) : PipelineEvent → Prop
  | .writeData => ∀ d, g.dest s.log.passed.length = some d → d.isUseBatchFileWrite = false →
      s.fileWriteQueue d.file = []
  | _ => True

/-- Steps of the two threads of the logger alone. -/
def Background : PipelineEvent → Prop
  | .log .pop | .log .checkIn | .writeData | .beginRound _ | .visit => True
  | .log _ => False

/-- Steps of `workerFileThread`. -/
def FileThread : PipelineEvent → Prop
  | .beginRound _ | .visit => True
  | .log _ | .writeData => False

/-- What remains of a run when records are written at once. -/
def plainEvent : PipelineEvent → Option PipelineEvent
  | .log e => some (.log e)
  | .writeData => some .writeData
  | .beginRound _ | .visit => none

end LogPipeline

open LogPipeline

variable {g : LogSetting} {s s' : LogPipeline}

/-! ## Steps of `AsyncLog` -/

/-- A step passes a record on in `WriteData` only. -/
theorem passed_step {l l' : AsyncLog} {e : AsyncEvent} (h : l.step e = some l')
    (he : e ≠ .writeData) : l'.passed = l.passed := by
  cases e with
  | writeData => exact absurd rfl he
  | checkOut t =>
    simp only [AsyncLog.step, AsyncLog.checkOut] at h
    split at h <;> cases h <;> rfl
  | _ =>
    simp only [AsyncLog.step] at h
    split at h <;> cases h
    rfl

/-- A record is passed to `WriteData`. -/
def passOn (l : AsyncLog) (o : Nat) : AsyncLog :=
  { l with worker := .writing o, passed := l.passed ++ [(o, l.contexts o)] }

theorem writeData_step {l : AsyncLog} {o : Nat} (hw : l.worker = .popped o) :
    l.step .writeData = some (passOn l o) := by
  simp only [AsyncLog.step, hw]
  rfl

/-! ## The records for a file -/

theorem sentTo_prefix (g : LogSetting) (f : Nat) {rs rs' : List (Nat × LogContext)}
    (h : rs <+: rs') : g.sentTo f rs <+: g.sentTo f rs' := by
  obtain ⟨more, rfl⟩ := h
  rw [LogSetting.sentTo, LogSetting.sentTo, List.zipIdx_append, List.filterMap_append]
  exact List.prefix_append ..

theorem sentTo_snoc (g : LogSetting) (f : Nat) (rs : List (Nat × LogContext)) (o : Nat)
    (lc : LogContext) :
    g.sentTo f (rs ++ [(o, lc)]) = g.sentTo f rs ++
      if (g.dest rs.length).map FileDest.file = some f then [⟨rs.length, g.recordText lc⟩]
      else [] := by
  rw [LogSetting.sentTo, List.zipIdx_append, List.filterMap_append]
  congr 1
  by_cases h : (g.dest rs.length).map FileDest.file = some f
  · simp only [List.zipIdx_cons, List.zipIdx_nil, Nat.zero_add, List.filterMap_cons, if_pos h,
      List.filterMap_nil]
  · simp only [List.zipIdx_cons, List.zipIdx_nil, Nat.zero_add, List.filterMap_cons, if_neg h,
      List.filterMap_nil]

/-- A record for the file has a number and a destination. -/
theorem mem_sentTo {f : Nat} {rs : List (Nat × LogContext)} {r : SentText}
    (h : r ∈ g.sentTo f rs) :
    r.number < rs.length ∧ (g.dest r.number).map FileDest.file = some f := by
  obtain ⟨⟨x, n⟩, hx, hr⟩ := List.mem_filterMap.mp h
  simp only [Option.ite_none_right_eq_some, Option.some.injEq] at hr
  obtain ⟨hdest, rfl⟩ := hr
  exact ⟨by have := List.snd_lt_of_mem_zipIdx hx; simpa using this, hdest⟩

/-! ## What a step does -/

/-- What a step does to a file and its batch queue. -/
inductive FileStep (g : LogSetting) (s s' : LogPipeline) (e : PipelineEvent) (f : Nat) : Prop where
  /-- At most the first record of the queue moves into the file. -/
  | moved (hsent : g.sentTo f s'.log.passed = g.sentTo f s.log.passed)
      (hall : s'.written f ++ s'.fileWriteQueue f = s.written f ++ s.fileWriteQueue f)
      (hgrow : s.written f <+: s'.written f) (hquiet : e ≠ .visit → s'.written f = s.written f)
  | queued (record : SentText) (hdest : g.dest record.number = some ⟨f, true⟩)
      (hsent : g.sentTo f s'.log.passed = g.sentTo f s.log.passed ++ [record])
      (hwritten : s'.written f = s.written f)
      (hqueue : s'.fileWriteQueue f = s.fileWriteQueue f ++ [record]) (hkey : f ∈ s'.files)
  | put (record : SentText) (he : e = .writeData)
      (hnumber : record.number = s.log.passed.length)
      (hdest : g.dest record.number = some ⟨f, false⟩)
      (hsent : g.sentTo f s'.log.passed = g.sentTo f s.log.passed ++ [record])
      (hwritten : s'.written f = s.written f ++ [record])
      (hqueue : s'.fileWriteQueue f = s.fileWriteQueue f)

/-- A step of `AsyncLog` besides `WriteData`. -/
theorem log_cases {e : AsyncEvent} (h : step g s (.log e) = some s') :
    e ≠ .writeData ∧ ∃ log, s.log.step e = some log ∧ s' = { s with log } := by
  cases e <;> simp only [step, Option.map_eq_some_iff, reduceCtorEq] at h
  all_goals
    obtain ⟨log, hlog, rfl⟩ := h
    exact ⟨nofun, log, hlog, rfl⟩

theorem writeData_cases (h : step g s .writeData = some s') :
    ∃ o, s.log.worker = .popped o ∧
      s' = LogPipeline.writeText { s with log := passOn s.log o }
        ⟨s.log.passed.length, g.recordText (s.log.contexts o)⟩ (g.dest s.log.passed.length) := by
  simp only [step] at h
  split at h
  · rename_i o hw
    rw [writeData_step hw] at h
    exact ⟨o, hw, (Option.some.inj h).symm⟩
  · cases h

@[simp] theorem writeText_log (record : SentText) (d : Option FileDest) :
    (s.writeText record d).log = s.log := by
  unfold writeText
  repeat' split
  all_goals rfl

theorem beginRound_cases {order : List Nat} (h : step g s (.beginRound order) = some s') :
    g.isUseBatchFileWrite = true ∧ s.round = none ∧ order.Perm s.files ∧
      s' = { s with round := some (order, 0) } := by
  simp only [step] at h
  split at h
  · rename_i hc
    cases h
    exact ⟨hc.1, hc.2.1, hc.2.2, rfl⟩
  · cases h

theorem visit_cases (h : step g s .visit = some s') :
    ∃ files n, s.round = some (files, n) ∧ s' = s.visitFile files n := by
  obtain ⟨r, hr, rfl⟩ := Option.map_eq_some_iff.mp h
  exact ⟨r.1, r.2, hr, rfl⟩

@[simp] theorem visitFile_log (files : List Nat) (n : Nat) :
    (s.visitFile files n).log = s.log := by
  unfold visitFile
  repeat' split
  all_goals rfl

/-- A visit moves records from a queue to its file. -/
theorem visitFile_all (files : List Nat) (n f : Nat) :
    (s.visitFile files n).written f ++ (s.visitFile files n).fileWriteQueue f =
      s.written f ++ s.fileWriteQueue f ∧
    s.written f <+: (s.visitFile files n).written f := by
  cases files with
  | nil => exact ⟨rfl, List.prefix_rfl⟩
  | cons file rest =>
    cases hq : s.fileWriteQueue file with
    | nil =>
      simp only [visitFile, hq]
      split <;> exact ⟨rfl, List.prefix_rfl⟩
    | cons record records =>
      have hboth : Function.update s.written file (s.written file ++ [record]) f ++
          Function.update s.fileWriteQueue file records f = s.written f ++ s.fileWriteQueue f ∧
          s.written f <+: Function.update s.written file (s.written file ++ [record]) f := by
        by_cases hf : f = file
        · subst hf
          simp [hq]
        · simp [Function.update_of_ne hf]
      simp only [visitFile, hq]
      split <;> exact hboth

/-- A record of a plain logger is put into its file. -/
theorem put_cases (h : step g s .writeData = some s') {f : Nat}
    (hdest : g.dest s.log.passed.length = some ⟨f, false⟩) :
    ∃ record : SentText, record.number = s.log.passed.length ∧
      g.sentTo f s'.log.passed = g.sentTo f s.log.passed ++ [record] ∧
      s'.written f = s.written f ++ [record] ∧ s'.fileWriteQueue f = s.fileWriteQueue f := by
  obtain ⟨o, _, rfl⟩ := writeData_cases h
  have hsent : g.sentTo f (passOn s.log o).passed = _ :=
    sentTo_snoc g f s.log.passed o (s.log.contexts o)
  rw [hdest, if_pos (show (some (FileDest.mk f false)).map FileDest.file = some f from rfl)]
    at hsent
  refine ⟨⟨s.log.passed.length, g.recordText (s.log.contexts o)⟩, rfl, ?_, ?_, ?_⟩
  · rw [writeText_log, hsent]
  · rw [hdest]
    exact Function.update_self ..
  · rw [hdest]
    rfl

theorem step_file {e : PipelineEvent} (h : step g s e = some s') (f : Nat) :
    FileStep g s s' e f := by
  cases e with
  | log e =>
    obtain ⟨he, log, hlog, rfl⟩ := log_cases h
    exact .moved (congrArg _ (passed_step hlog he)) rfl List.prefix_rfl fun _ => rfl
  | beginRound order =>
    obtain ⟨_, _, _, rfl⟩ := beginRound_cases h
    exact .moved rfl rfl List.prefix_rfl fun _ => rfl
  | visit =>
    obtain ⟨files, n, _, rfl⟩ := visit_cases h
    obtain ⟨hall, hgrow⟩ := visitFile_all (s := s) files n f
    exact .moved (by rw [visitFile_log]) hall hgrow fun hne => absurd rfl hne
  | writeData =>
    obtain ⟨o, hw, rfl⟩ := writeData_cases h
    have hsent : g.sentTo f (passOn s.log o).passed = _ :=
      sentTo_snoc g f s.log.passed o (s.log.contexts o)
    cases hd : g.dest s.log.passed.length with
    | none =>
      rw [hd] at hsent
      exact .moved (hsent.trans (by simp)) rfl List.prefix_rfl fun _ => rfl
    | some d =>
      obtain ⟨file, batch⟩ := d
      rw [hd] at hsent
      by_cases hf : f = file
      · subst hf
        cases batch with
        | true =>
          rw [if_pos (show (some (FileDest.mk f true)).map FileDest.file = some f from rfl)]
            at hsent
          refine .queued _ hd hsent rfl (Function.update_self ..) ?_
          show f ∈ if f ∈ s.files then s.files else f :: s.files
          split
          · assumption
          · exact List.mem_cons_self
        | false =>
          obtain ⟨record, hnumber, hput, hwritten, hqueue⟩ := put_cases h hd
          rw [hd] at hput hwritten hqueue
          exact .put record rfl hnumber (hnumber ▸ hd) hput hwritten hqueue
      · have hne : ¬ (some (FileDest.mk file batch)).map FileDest.file = some f :=
          fun he => hf (Option.some.inj he).symm
        rw [if_neg hne, List.append_nil] at hsent
        cases batch with
        | true =>
          refine .moved hsent ?_ List.prefix_rfl fun _ => rfl
          show s.written f ++ Function.update s.fileWriteQueue file _ f = _
          rw [Function.update_of_ne hf]
        | false =>
          have hw' : Function.update s.written file (s.written file ++
              [⟨s.log.passed.length, g.recordText (s.log.contexts o)⟩]) f = s.written f :=
            Function.update_of_ne hf ..
          exact .moved hsent (congrArg (· ++ s.fileWriteQueue f) hw') (hw' ▸ List.prefix_rfl)
            fun _ => hw'

/-! ## The invariant -/

/-- Every record passed to `WriteData` for a file is in the file or in its queue, once. -/
structure Delivered (g : LogSetting) (s : LogPipeline) : Prop where
  owned : AsyncLog.Owned s.log
  all : ∀ f, (s.written f ++ s.fileWriteQueue f).Perm (g.sentTo f s.log.passed)
  queued : ∀ f, ∀ r ∈ s.fileWriteQueue f, g.dest r.number = some ⟨f, true⟩
  keys : ∀ f, s.fileWriteQueue f ≠ [] → f ∈ s.files
  flushed : ∀ f, s.flushed f = (s.written f).length ∨
    ∃ rest n, s.round = some (f :: rest, n) ∧ 0 < n
  asleep : g.isUseBatchFileWrite = false →
    s.round = none ∧ ∀ f, ∀ r ∈ s.written f, g.dest r.number = some ⟨f, false⟩

theorem delivered_start (g : LogSetting) : Delivered g start where
  owned := AsyncLog.owned_initLogger
  all _ := .refl _
  queued _ _ hr := absurd hr List.not_mem_nil
  keys _ hq := absurd rfl hq
  flushed _ := .inl rfl
  asleep _ := ⟨rfl, fun _ _ hr => absurd hr List.not_mem_nil⟩

/-- What a move takes out of the queue is at its front. -/
theorem queue_suffix {w w' q q' : List SentText} (hall : w' ++ q' = w ++ q) (hgrow : w <+: w') :
    q' <:+ q := by
  obtain ⟨m, rfl⟩ := hgrow
  rw [List.append_assoc, List.append_cancel_left_eq] at hall
  exact ⟨m, hall⟩

theorem owned_log_step {e : PipelineEvent} (ho : AsyncLog.Owned s.log)
    (h : step g s e = some s') : AsyncLog.Owned s'.log := by
  cases e with
  | log e =>
    obtain ⟨_, log, hlog, rfl⟩ := log_cases h
    exact AsyncLog.owned_step _ e _ ho hlog
  | beginRound order =>
    obtain ⟨_, _, _, rfl⟩ := beginRound_cases h
    exact ho
  | visit =>
    obtain ⟨files, n, _, rfl⟩ := visit_cases h
    rw [visitFile_log]
    exact ho
  | writeData =>
    obtain ⟨o, hw, rfl⟩ := writeData_cases h
    rw [writeText_log]
    exact AsyncLog.owned_step s.log .writeData _ ho (writeData_step hw)

/-- The keys of the batch queues stay. -/
theorem files_step {e : PipelineEvent} (h : step g s e = some s') : s.files ⊆ s'.files := by
  cases e with
  | log e =>
    obtain ⟨_, log, _, rfl⟩ := log_cases h
    exact fun _ hf => hf
  | beginRound order =>
    obtain ⟨_, _, _, rfl⟩ := beginRound_cases h
    exact fun _ hf => hf
  | visit =>
    obtain ⟨files, n, _, rfl⟩ := visit_cases h
    unfold visitFile
    repeat' split
    all_goals exact fun _ hf => hf
  | writeData =>
    obtain ⟨o, _, rfl⟩ := writeData_cases h
    cases hd : g.dest s.log.passed.length with
    | none => exact fun _ hf => hf
    | some d =>
      obtain ⟨file, batch⟩ := d
      cases batch with
      | false => exact fun _ hf => hf
      | true =>
        intro f hf
        show f ∈ if file ∈ s.files then s.files else file :: s.files
        split
        · exact hf
        · exact List.mem_cons_of_mem _ hf

/-- Whatever is in a file has been passed on, except for the file of the running visit. -/
theorem flushed_step {e : PipelineEvent} (h : step g s e = some s')
    (hf : ∀ f, s.flushed f = (s.written f).length ∨
      ∃ rest n, s.round = some (f :: rest, n) ∧ 0 < n) (f : Nat) :
    s'.flushed f = (s'.written f).length ∨ ∃ rest n, s'.round = some (f :: rest, n) ∧ 0 < n := by
  cases e with
  | log e =>
    obtain ⟨_, log, _, rfl⟩ := log_cases h
    exact hf f
  | beginRound order =>
    obtain ⟨_, hround, _, rfl⟩ := beginRound_cases h
    rcases hf f with heq | ⟨rest, n, hrest, _⟩
    · exact .inl heq
    · rw [hround] at hrest
      cases hrest
  | writeData =>
    obtain ⟨o, _, rfl⟩ := writeData_cases h
    cases hd : g.dest s.log.passed.length with
    | none => exact hf f
    | some d =>
      obtain ⟨file, batch⟩ := d
      cases batch with
      | true => exact hf f
      | false =>
        by_cases hne : f = file
        · subst hne
          left
          show Function.update s.flushed f _ f = (Function.update s.written f _ f).length
          simp [fputws]
        · have hsame := hf f
          simp only [writeText, fflush, fputws, Function.update_of_ne hne, Bool.false_eq_true,
            if_false]
          exact hsame
  | visit =>
    obtain ⟨files, n, hround, rfl⟩ := visit_cases h
    have hothers : ∀ file rest, files = file :: rest → f ≠ file →
        s.flushed f = (s.written f).length := by
      rintro file rest rfl hne
      rcases hf f with heq | ⟨rest', n', hrest, _⟩
      · exact heq
      · rw [hround] at hrest
        cases hrest
        exact absurd rfl hne
    cases files with
    | nil =>
      rcases hf f with heq | ⟨rest', n', hrest, _⟩
      · exact .inl heq
      · rw [hround] at hrest
        cases hrest
    | cons file rest =>
      by_cases hne : f = file
      · subst hne
        cases hq : s.fileWriteQueue f with
        | nil =>
          simp only [visitFile, hq]
          split
          · left
            show Function.update s.flushed f _ f = (s.written f).length
            rw [Function.update_self]
          · rename_i hn
            rcases hf f with heq | ⟨rest', n', hrest, hpos⟩
            · exact .inl heq
            · rw [hround] at hrest
              cases hrest
              exact absurd hpos hn
        | cons record records =>
          simp only [visitFile, hq]
          split
          · left
            show Function.update s.flushed f _ f = (Function.update s.written f _ f).length
            simp [fputws]
          · exact .inr ⟨rest, n + 1, rfl, Nat.succ_pos n⟩
      · left
        have hsame := hothers file rest rfl hne
        cases hq : s.fileWriteQueue file with
        | nil =>
          simp only [visitFile, hq]
          split <;> simp [fflush, Function.update_of_ne hne, hsame]
        | cons record records =>
          simp only [visitFile, hq]
          split <;> simp [fflush, fputws, Function.update_of_ne hne, hsame]

/-- Without `workerFileThread` only records of plain loggers reach a file. -/
theorem asleep_step {e : PipelineEvent} (h : step g s e = some s')
    (hg : g.isUseBatchFileWrite = false)
    (ha : s.round = none ∧ ∀ f, ∀ r ∈ s.written f, g.dest r.number = some ⟨f, false⟩) :
    s'.round = none ∧ ∀ f, ∀ r ∈ s'.written f, g.dest r.number = some ⟨f, false⟩ := by
  obtain ⟨hround, hwritten⟩ := ha
  cases e with
  | log e =>
    obtain ⟨_, log, _, rfl⟩ := log_cases h
    exact ⟨hround, hwritten⟩
  | beginRound order =>
    rw [(beginRound_cases h).1] at hg
    cases hg
  | visit =>
    obtain ⟨files, n, hsome, _⟩ := visit_cases h
    rw [hround] at hsome
    cases hsome
  | writeData =>
    refine ⟨?_, fun f r hr => ?_⟩
    · obtain ⟨o, _, rfl⟩ := writeData_cases h
      unfold writeText
      repeat' split
      all_goals exact hround
    · cases hstep : step_file h f with
      | moved _ _ _ hquiet => exact hwritten f r (hquiet nofun ▸ hr)
      | queued record _ _ hw _ _ => exact hwritten f r (hw ▸ hr)
      | put record _ _ hdest _ hw _ =>
        rw [hw, List.mem_append, List.mem_singleton] at hr
        rcases hr with hr | rfl
        · exact hwritten f r hr
        · exact hdest

theorem delivered_step {e : PipelineEvent} (hd : Delivered g s) (h : step g s e = some s') :
    Delivered g s' where
  owned := owned_log_step hd.owned h
  flushed := flushed_step h hd.flushed
  asleep hg := asleep_step h hg (hd.asleep hg)
  all f := by
    have hall := hd.all f
    cases step_file h f with
    | moved hsent hmoved _ _ => rwa [hsent, hmoved]
    | queued record _ hsent hwritten hqueue _ =>
      rw [hsent, hwritten, hqueue, ← List.append_assoc]
      exact hall.append_right _
    | put record _ _ _ hsent hwritten hqueue =>
      rw [hsent, hwritten, hqueue]
      calc s.written f ++ [record] ++ s.fileWriteQueue f
          _ = s.written f ++ ([record] ++ s.fileWriteQueue f) := List.append_assoc ..
          _ ~ s.written f ++ (s.fileWriteQueue f ++ [record]) :=
            List.perm_append_comm.append_left _
          _ = s.written f ++ s.fileWriteQueue f ++ [record] := (List.append_assoc ..).symm
          _ ~ g.sentTo f s.log.passed ++ [record] := hall.append_right _
  queued f r hr := by
    cases step_file h f with
    | moved _ hmoved hgrow _ =>
      exact hd.queued f r ((queue_suffix hmoved hgrow).subset hr)
    | queued record hdest _ _ hqueue _ =>
      rw [hqueue, List.mem_append, List.mem_singleton] at hr
      rcases hr with hr | rfl
      · exact hd.queued f r hr
      · exact hdest
    | put _ _ _ _ _ _ hqueue => exact hd.queued f r (hqueue ▸ hr)
  keys f hne := by
    cases step_file h f with
    | moved _ hmoved hgrow _ =>
      refine files_step h (hd.keys f fun hnil => hne ?_)
      exact List.suffix_nil.mp (hnil ▸ queue_suffix hmoved hgrow)
    | queued _ _ _ _ _ hkey => exact hkey
    | put _ _ _ _ _ _ hqueue => exact files_step h (hd.keys f (hqueue ▸ hne))

theorem delivered_run {es : List PipelineEvent} (h : run (step g) start es = some s) :
    Delivered g s :=
  run_invariant (fun _ _ _ hd hs => delivered_step hd hs) (delivered_start g) h

/-! ## The order in a file -/

/-- The file and its queue hold the records in their order. -/
def InOrder (g : LogSetting) (s : LogPipeline) : Prop :=
  ∀ f, s.written f ++ s.fileWriteQueue f = g.sentTo f s.log.passed

theorem inOrder_start (g : LogSetting) : InOrder g start := fun f => by
  show [] = g.sentTo f []
  rfl

theorem inOrder_step {e : PipelineEvent} (ho : InOrder g s) (hk : KeepsOrder g s e)
    (h : step g s e = some s') : InOrder g s' := by
  intro f
  cases step_file h f with
  | moved hsent hmoved _ _ => rw [hsent, hmoved, ho f]
  | queued record _ hsent hwritten hqueue _ =>
    rw [hsent, hwritten, hqueue, ← List.append_assoc, ho f]
  | put record he hnumber hdest hsent hwritten hqueue =>
    subst he
    have hempty : s.fileWriteQueue f = [] := hk _ (hnumber ▸ hdest) rfl
    have hall := ho f
    rw [hempty, List.append_nil] at hall
    rw [hsent, hwritten, hqueue, hempty, List.append_nil, hall]

/-- In order, a file holds the first records pushed for it. -/
theorem prefix_of_inOrder (hd : Delivered g s) (ho : InOrder g s) (f : Nat) :
    s.written f <+: g.sentTo f s.log.pushed :=
  (List.prefix_append _ (s.fileWriteQueue f)).trans
    (ho f ▸ sentTo_prefix g f hd.owned.intact.passed_prefix)

/-- A record that overtakes others is in the file before one with a smaller number. -/
theorem overtaken {e : PipelineEvent} (hd : Delivered g s) (ho : InOrder g s)
    (hk : ¬ KeepsOrder g s e) (h : step g s e = some s') :
    ∃ f, ¬ s'.written f <+: g.sentTo f s'.log.pushed := by
  have hd' := delivered_step hd h
  cases e with
  | writeData =>
    simp only [KeepsOrder, not_forall] at hk
    obtain ⟨d, hdest, hplain, hqueue⟩ := hk
    obtain ⟨f, batch⟩ := d
    subst hplain
    refine ⟨f, fun hprefix => ?_⟩
    obtain ⟨first, rest, hfirst⟩ := List.exists_cons_of_ne_nil hqueue
    obtain ⟨record, hnumber, hsent, hwritten, _⟩ := put_cases h hdest
    have hall : g.sentTo f s'.log.passed = s.written f ++ (first :: rest ++ [record]) := by
      rw [hsent, ← ho f, hfirst, List.append_assoc]
    have hlong : s.written f ++ (first :: rest ++ [record]) <+: g.sentTo f s'.log.pushed :=
      hall ▸ sentTo_prefix g f hd'.owned.intact.passed_prefix
    rw [hwritten] at hprefix
    have hboth := List.prefix_of_prefix_length_le hprefix hlong (by simp)
    rw [List.prefix_append_right_inj, List.cons_append, List.cons_prefix_cons] at hboth
    have hmem : record ∈ g.sentTo f s.log.passed := by
      rw [← ho f, hfirst, hboth.1]
      exact List.mem_append_right _ List.mem_cons_self
    have hlt := (mem_sentTo hmem).1
    omega
  | _ => exact absurd trivial hk

/-- **The order in the files, exactly**: in every run a file holds the first records pushed for it,
    with the texts they had then and in the order of the pushes, as long as no record is written
    directly while others wait in the batch queue of its file, and no longer; and whatever the run,
    each record passed to `WriteData` is in its file or in the queue once, and what is in a file has
    been flushed unless `workerFileThread` is just writing there. -/
theorem files_in_order_iff (g : LogSetting) (es : List PipelineEvent) :
    (Always (step g) (fun s => ∀ f, s.written f <+: g.sentTo f s.log.pushed) start es ↔
      Meets (step g) (KeepsOrder g) start es) ∧
    ∀ s, run (step g) start es = some s → s.log.passed <+: s.log.pushed ∧ ∀ f,
      (s.written f ++ s.fileWriteQueue f).Perm (g.sentTo f s.log.passed) ∧
      (s.flushed f = (s.written f).length ∨
        ∃ rest n, s.round = some (f :: rest, n) ∧ 0 < n) := by
  refine ⟨?_, fun s hrun => ?_⟩
  · refine always_iff_meets (I := fun s => Delivered g s ∧ InOrder g s)
      (fun s hi => prefix_of_inOrder hi.1 hi.2) ?_ ?_ es start
      ⟨delivered_start g, inOrder_start g⟩
    · exact fun s e s' hi hk h => ⟨delivered_step hi.1 h, inOrder_step hi.2 hk h⟩
    · intro s e s' hi hk h hall
      obtain ⟨f, hf⟩ := overtaken hi.1 hi.2 hk h
      exact hf (hall f)
  · have hd := delivered_run hrun
    exact ⟨hd.owned.intact.passed_prefix, fun f => ⟨hd.all f, hd.flushed f⟩⟩

/-! ## The plain path -/

theorem sentTo_plain (g : LogSetting) (f : Nat) (rs : List (Nat × LogContext)) :
    g.plain.sentTo f rs = g.sentTo f rs := by
  have hdest : ∀ n, (g.plain.dest n).map FileDest.file = (g.dest n).map FileDest.file := by
    intro n
    simp only [LogSetting.plain, Option.map_map]
    rfl
  simp only [LogSetting.sentTo, hdest]
  rfl

/-- The plain logger that has handled the same records. -/
structure PlainOf (g : LogSetting) (s p : LogPipeline) : Prop where
  log : p.log = s.log
  round : p.round = none
  queue : ∀ f, p.fileWriteQueue f = []
  delivered : Delivered g.plain p
  order : InOrder g.plain p

/-- Plain records keep a plain logger plain. -/
theorem plain_step {p p' : LogPipeline} {e : PipelineEvent} {l : AsyncLog}
    (hqueue : ∀ f, p.fileWriteQueue f = []) (hd : Delivered g.plain p) (ho : InOrder g.plain p)
    (h : step g.plain p e = some p') (hlog : p'.log = l) (hround : p'.round = none)
    (hs : s'.log = l) : PlainOf g s' p' where
  log := hlog.trans hs.symm
  round := hround
  delivered := delivered_step hd h
  order := by
    refine inOrder_step ho ?_ h
    cases e with
    | writeData => exact fun d _ _ => hqueue d.file
    | _ => trivial
  queue f := by
    cases step_file h f with
    | moved _ hmoved hgrow _ =>
      exact List.suffix_nil.mp (hqueue f ▸ queue_suffix hmoved hgrow)
    | queued record hdest _ _ _ _ =>
      obtain ⟨d, _, hd'⟩ := Option.map_eq_some_iff.mp hdest
      cases hd'
    | put _ _ _ _ _ _ hsame => exact hsame.trans (hqueue f)

theorem round_writeText (record : SentText) (d : Option FileDest) :
    (s.writeText record d).round = s.round := by
  unfold writeText
  repeat' split
  all_goals rfl

/-- A step of the batch writer is a step of the plain one, or leaves it where it is. -/
theorem plain_follows {p : LogPipeline} {e : PipelineEvent} (hp : PlainOf g s p)
    (h : step g s e = some s') :
    (plainEvent e = none → PlainOf g s' p) ∧
      ∀ e', plainEvent e = some e' → ∃ p', step g.plain p e' = some p' ∧ PlainOf g s' p' := by
  cases e with
  | beginRound order =>
    obtain ⟨_, _, _, rfl⟩ := beginRound_cases h
    exact ⟨fun _ => ⟨hp.log, hp.round, hp.queue, hp.delivered, hp.order⟩, nofun⟩
  | visit =>
    obtain ⟨files, n, _, rfl⟩ := visit_cases h
    exact ⟨fun _ => ⟨hp.log.trans (visitFile_log files n).symm, hp.round, hp.queue, hp.delivered,
      hp.order⟩, nofun⟩
  | log e =>
    obtain ⟨he, log, hlog, rfl⟩ := log_cases h
    have hstep : step g.plain p (.log e) = some { p with log } := by
      rw [← hp.log] at hlog
      cases e <;> simp_all [step]
    refine ⟨nofun, fun e' he' => ?_⟩
    cases he'
    exact ⟨_, hstep, plain_step hp.queue hp.delivered hp.order hstep rfl hp.round rfl⟩
  | writeData =>
    obtain ⟨o, hw, rfl⟩ := writeData_cases h
    rw [← hp.log] at hw
    have hstep : step g.plain p .writeData = some (LogPipeline.writeText
        { p with log := passOn p.log o }
        ⟨p.log.passed.length, g.plain.recordText (p.log.contexts o)⟩
        (g.plain.dest p.log.passed.length)) := by
      simp only [step, hw, writeData_step hw, Option.map_some]
    refine ⟨nofun, fun e' he' => ?_⟩
    cases he'
    refine ⟨_, hstep, plain_step hp.queue hp.delivered hp.order hstep (writeText_log ..) ?_ ?_⟩
    · rw [round_writeText]
      exact hp.round
    · rw [writeText_log, hp.log]

/-- **The batch writer refines the plain path**: to every run belongs the run of the same loggers
    without batch writing, in which the same records are handled at the same steps.  Its files hold,
    flushed, what the files and the batch queues hold together; and if no record overtakes others,
    each file of the batch writer is the beginning of the plain file and its queue is the rest. -/
theorem batch_refines_plain (g : LogSetting) {es : List PipelineEvent} {s : LogPipeline}
    (hrun : run (step g) start es = some s) :
    ∃ p, run (step g.plain) start (es.filterMap plainEvent) = some p ∧ p.log = s.log ∧
      (∀ f, p.fileWriteQueue f = [] ∧ p.flushed f = (p.written f).length ∧
        (s.written f ++ s.fileWriteQueue f).Perm (p.written f)) ∧
      (Meets (step g) (KeepsOrder g) start es →
        ∀ f, p.written f = s.written f ++ s.fileWriteQueue f) := by
  have hstart : PlainOf g start start :=
    ⟨rfl, rfl, fun _ => rfl, delivered_start _, inOrder_start _⟩
  obtain ⟨p, hp, hrel⟩ := run_follows (R := PlainOf g) plainEvent
    (fun s p e s' hR hs => plain_follows hR hs) es start s start hstart hrun
  have hwritten : ∀ f, p.written f = g.sentTo f s.log.passed := by
    intro f
    have horder := hrel.order f
    rwa [hrel.queue f, List.append_nil, sentTo_plain, hrel.log] at horder
  refine ⟨p, hp, hrel.log, fun f => ⟨hrel.queue f, ?_, ?_⟩, fun hk f => ?_⟩
  · rcases hrel.delivered.flushed f with heq | ⟨rest, n, hround, _⟩
    · exact heq
    · rw [hrel.round] at hround
      cases hround
  · rw [hwritten f]
    exact (delivered_run hrun).all f
  · have horder := run_preserves (I := fun s => InOrder g s)
      (fun s e s' hi hk hs => inOrder_step hi hk hs) es start s (inOrder_start g) hk hrun
    rw [hwritten f, horder f]

/-- All records go to one file, by way of its batch queue. -/
def batchSetting : LogSetting := ⟨id, fun _ => some ⟨0, true⟩, true⟩

/-- A record from its `Log` call to the batch queue. -/
def batchedRecord : List PipelineEvent :=
  [.log (.log 0 ⟨true, 0, 3⟩), .log (.checkOut 0), .log (.store 0), .log (.store 0),
    .log (.store 0), .log (.store 0), .log (.store 0), .log (.render 0 [72, 105, 0]),
    .log (.push 0), .log .pop, .writeData]

set_option maxRecDepth 20000 in
theorem batchedRecord_runs : ∃ s, run (step batchSetting) start batchedRecord = some s ∧
    s.log.pushed.length = 1 ∧ s.fileWriteQueue 0 = [⟨0, [72, 105]⟩] := ⟨_, rfl, rfl, rfl⟩

/-- The plain logger has the waiting record in its file. -/
theorem batch_refines_plain_record : ∃ s p,
    run (step batchSetting) start batchedRecord = some s ∧
    run (step batchSetting.plain) start (batchedRecord.filterMap plainEvent) = some p ∧
    s.fileWriteQueue 0 = [⟨0, [72, 105]⟩] ∧
    (s.written 0 ++ s.fileWriteQueue 0).Perm (p.written 0) := by
  obtain ⟨s, hs, _, hqueue⟩ := batchedRecord_runs
  obtain ⟨p, hp, _, hall, _⟩ := batch_refines_plain batchSetting hs
  exact ⟨s, p, hs, hp, hqueue, (hall 0).2.2⟩

/-! ## Emptying the queues -/

/-- The two threads of the logger push no record. -/
theorem background_pushed {e : PipelineEvent} (he : Background e) (h : step g s e = some s') :
    s'.log.pushed = s.log.pushed := by
  cases e with
  | beginRound order =>
    obtain ⟨_, _, _, rfl⟩ := beginRound_cases h
    rfl
  | visit =>
    obtain ⟨files, n, _, rfl⟩ := visit_cases h
    rw [visitFile_log]
  | writeData =>
    obtain ⟨o, _, rfl⟩ := writeData_cases h
    rw [writeText_log]
    rfl
  | log e =>
    obtain ⟨_, log, hlog, rfl⟩ := log_cases h
    cases e with
    | pop =>
      simp only [AsyncLog.step] at hlog
      split at hlog <;> cases hlog
      rfl
    | checkIn =>
      simp only [AsyncLog.step] at hlog
      split at hlog <;> cases hlog
      rfl
    | _ => exact he.elim

/-- The work that `workerThread` has before it. -/
def LogPipeline.workerLeft (s : LogPipeline) : Nat :=
  3 * s.log.queue.length +
    match s.log.worker with
    | .idle => 0
    | .popped _ => 2
    | .writing _ => 1

/-- `workerThread` has a step until its queue is empty. -/
theorem worker_step (g : LogSetting) (hleft : ¬ (s.log.queue = [] ∧ s.log.worker = .idle)) :
    ∃ e s', step g s e = some s' ∧ Background e ∧ s'.workerLeft < s.workerLeft := by
  cases hw : s.log.worker with
  | popped o =>
    have hstep : step g s .writeData = some (LogPipeline.writeText
        { s with log := passOn s.log o }
        ⟨s.log.passed.length, g.recordText (s.log.contexts o)⟩
        (g.dest s.log.passed.length)) := by
      simp only [step, hw, writeData_step hw, Option.map_some]
    refine ⟨.writeData, _, hstep, trivial, ?_⟩
    simp only [LogPipeline.workerLeft, writeText_log, passOn, hw]
    omega
  | writing o =>
    have hstep : step g s (.log .checkIn) = some { s with log := { s.log with
        rbAllocator := s.log.rbAllocator.checkIn (some o)
        worker := .idle
        checkedOut := s.log.checkedOut.erase o } } := by
      simp only [step, AsyncLog.step, hw, Option.map_some]
    refine ⟨.log .checkIn, _, hstep, trivial, ?_⟩
    simp only [LogPipeline.workerLeft, hw]
    omega
  | idle =>
    cases hq : s.log.queue with
    | nil => exact absurd ⟨hq, hw⟩ hleft
    | cons o queue =>
      have hstep : step g s (.log .pop) =
          some { s with log := { s.log with queue, worker := .popped o } } := by
        simp only [step, AsyncLog.step, hw, hq, Option.map_some]
      refine ⟨.log .pop, _, hstep, trivial, ?_⟩
      simp only [LogPipeline.workerLeft, hw, hq, List.length_cons]
      omega

/-- The records in the batch queues. -/
def LogPipeline.waiting (s : LogPipeline) : Nat :=
  (s.files.map fun f => (s.fileWriteQueue f).length).sum

theorem queues_empty (hd : Delivered g s) (h : s.waiting = 0) (f : Nat) :
    s.fileWriteQueue f = [] := by
  by_contra hne
  have hmem : (s.fileWriteQueue f).length ∈ s.files.map fun f => (s.fileWriteQueue f).length :=
    List.mem_map_of_mem (hd.keys f hne)
  have hzero := List.sum_eq_zero_iff_forall_eq_nat.mp h _ hmem
  exact hne (List.eq_nil_of_length_eq_zero hzero)

/-- A visit goes to the next file of the round, from an empty queue, or takes a record out of it. -/
theorem visitFile_cases (file : Nat) (rest : List Nat) (n : Nat) :
    (s.visitFile (file :: rest) n).files = s.files ∧
      (s.fileWriteQueue file = [] ∧
          (s.visitFile (file :: rest) n).fileWriteQueue = s.fileWriteQueue ∧
          (s.visitFile (file :: rest) n).round = some (rest, 0) ∨
        ∃ record records, s.fileWriteQueue file = record :: records ∧
          (s.visitFile (file :: rest) n).fileWriteQueue =
            Function.update s.fileWriteQueue file records ∧
          ((s.visitFile (file :: rest) n).round = some (rest, 0) ∨
            (s.visitFile (file :: rest) n).round = some (file :: rest, n + 1))) := by
  cases hq : s.fileWriteQueue file with
  | nil =>
    refine ⟨?_, .inl ⟨rfl, ?_, ?_⟩⟩
    all_goals
      simp only [visitFile, hq]
      split <;> rfl
  | cons record records =>
    simp only [visitFile, hq]
    split
    · exact ⟨rfl, .inr ⟨record, records, rfl, rfl, .inl rfl⟩⟩
    · exact ⟨rfl, .inr ⟨record, records, rfl, rfl, .inr rfl⟩⟩

/-- A record that leaves its queue no longer waits. -/
theorem waiting_take (hd : Delivered g s) {t : LogPipeline} {file : Nat} {record : SentText}
    {records : List SentText} (hq : s.fileWriteQueue file = record :: records)
    (hfiles : t.files = s.files)
    (ht : t.fileWriteQueue = Function.update s.fileWriteQueue file records) :
    t.waiting < s.waiting := by
  have hmem : file ∈ s.files := hd.keys file (by simp [hq])
  simp only [LogPipeline.waiting, hfiles, ht]
  refine List.sum_lt_sum _ _ (fun f _ => ?_) ⟨file, hmem, ?_⟩
  · by_cases hf : f = file
    · subst hf
      simp [hq]
    · rw [Function.update_of_ne hf]
  · simp [hq]

/-- A round comes to its end, and it takes records if one of its files has any. -/
theorem round_ends : ∀ (k : Nat) (s : LogPipeline) (files : List Nat) (n : Nat), Delivered g s →
    s.round = some (files, n) → s.waiting + files.length ≤ k →
    ∃ es t, run (step g) s es = some t ∧ (∀ e ∈ es, FileThread e) ∧ Delivered g t ∧
      t.log = s.log ∧ t.files = s.files ∧ t.round = none ∧ t.waiting ≤ s.waiting ∧
      ((∃ f ∈ files, s.fileWriteQueue f ≠ []) → t.waiting < s.waiting) := by
  intro k
  induction k with
  | zero =>
    intro s files n hd hround hk
    have hnil : files = [] := List.eq_nil_of_length_eq_zero (by omega)
    subst hnil
    have hstep : step g s .visit = some { s with round := none } := by
      simp only [step, hround, Option.map_some]
      rfl
    refine ⟨[.visit], _, run_cons.mpr ⟨_, hstep, rfl⟩, by simp [FileThread],
      delivered_step hd hstep, rfl, rfl, rfl, Nat.le_refl _, ?_⟩
    rintro ⟨f, hf, _⟩
    exact absurd hf List.not_mem_nil
  | succ k ih =>
    intro s files n hd hround hk
    have hstep : step g s .visit = some (s.visitFile files n) := by
      simp only [step, hround, Option.map_some]
    have hd' := delivered_step hd hstep
    cases files with
    | nil =>
      refine ⟨[.visit], _, run_cons.mpr ⟨_, hstep, rfl⟩, by simp [FileThread], hd', rfl, rfl,
        rfl, Nat.le_refl _, ?_⟩
      rintro ⟨f, hf, _⟩
      exact absurd hf List.not_mem_nil
    | cons file rest =>
      obtain ⟨hfiles, ⟨hempty, hqueue, hnext⟩ | ⟨record, records, hq, hqueue, hnext⟩⟩ :=
        visitFile_cases (s := s) file rest n
      · have hsame : (s.visitFile (file :: rest) n).waiting = s.waiting := by
          simp only [LogPipeline.waiting, hfiles, hqueue]
        obtain ⟨es, t, hrun, hes, hdt, hlog, hft, hnone, hle, htake⟩ :=
          ih _ rest 0 hd' hnext (by simp only [List.length_cons] at hk; omega)
        refine ⟨.visit :: es, t, run_cons.mpr ⟨_, hstep, hrun⟩,
          List.forall_mem_cons.mpr ⟨trivial, hes⟩, hdt, hlog.trans (visitFile_log ..),
          hft.trans hfiles, hnone, by omega, ?_⟩
        rintro ⟨f, hf, hne⟩
        rcases List.mem_cons.mp hf with rfl | hf
        · exact absurd hempty hne
        · have hlt := htake ⟨f, hf, by rwa [hqueue]⟩
          omega
      · have hless := waiting_take hd hq hfiles hqueue
        have hround' : ∃ files' n', (s.visitFile (file :: rest) n).round = some (files', n') ∧
            files'.length ≤ (file :: rest).length := by
          rcases hnext with hnext | hnext
          · exact ⟨rest, 0, hnext, by simp⟩
          · exact ⟨file :: rest, n + 1, hnext, Nat.le_refl _⟩
        obtain ⟨files', n', hnext', hlen⟩ := hround'
        obtain ⟨es, t, hrun, hes, hdt, hlog, hft, hnone, hle, _⟩ :=
          ih _ files' n' hd' hnext' (by omega)
        exact ⟨.visit :: es, t, run_cons.mpr ⟨_, hstep, hrun⟩,
          List.forall_mem_cons.mpr ⟨trivial, hes⟩, hdt, hlog.trans (visitFile_log ..),
          hft.trans hfiles, hnone, by omega, fun _ => by omega⟩

/-- Rounds that start while records wait empty the queues. -/
theorem rounds_drain (hg : g.isUseBatchFileWrite = true) :
    ∀ (k : Nat) (s : LogPipeline), Delivered g s → s.round = none → s.waiting ≤ k →
    ∃ es t, run (step g) s es = some t ∧ (∀ e ∈ es, FileThread e) ∧ Delivered g t ∧
      t.log = s.log ∧ t.round = none ∧ ∀ f, t.fileWriteQueue f = [] := by
  intro k
  induction k with
  | zero =>
    intro s hd hround hk
    exact ⟨[], s, rfl, fun e he => absurd he List.not_mem_nil, hd, rfl, hround,
      queues_empty hd (by omega)⟩
  | succ k ih =>
    intro s hd hround hk
    by_cases hall : ∀ f, s.fileWriteQueue f = []
    · exact ⟨[], s, rfl, fun e he => absurd he List.not_mem_nil, hd, rfl, hround, hall⟩
    · obtain ⟨f, hf⟩ := not_forall.mp hall
      have hstep : step g s (.beginRound s.files) = some { s with round := some (s.files, 0) } := by
        simp only [step]
        exact if_pos ⟨hg, hround, .refl _⟩
      have hd' := delivered_step hd hstep
      obtain ⟨es₁, t₁, hrun₁, hes₁, hd₁, hlog₁, _, hnone₁, _, htake⟩ :=
        round_ends _ _ s.files 0 hd' rfl (Nat.le_refl _)
      have hless : t₁.waiting < s.waiting := htake ⟨f, hd.keys f hf, hf⟩
      obtain ⟨es₂, t, hrun₂, hes₂, hdt, hlog, hnone, hempty⟩ := ih t₁ hd₁ hnone₁ (by omega)
      refine ⟨.beginRound s.files :: (es₁ ++ es₂), t,
        run_cons.mpr ⟨_, hstep, run_append.mpr ⟨t₁, hrun₁, hrun₂⟩⟩, ?_, hdt,
        hlog.trans hlog₁, hnone, hempty⟩
      refine List.forall_mem_cons.mpr ⟨trivial, fun e he => ?_⟩
      exact (List.mem_append.mp he).elim (hes₁ e) (hes₂ e)

/-- With `workerFileThread` the batch queues can be emptied. -/
theorem files_drain (hg : g.isUseBatchFileWrite = true) (hd : Delivered g s) :
    ∃ es t, run (step g) s es = some t ∧ (∀ e ∈ es, FileThread e) ∧ Delivered g t ∧
      t.log = s.log ∧ t.round = none ∧ ∀ f, t.fileWriteQueue f = [] := by
  cases hround : s.round with
  | none => exact rounds_drain hg _ s hd hround (Nat.le_refl _)
  | some r =>
    obtain ⟨files, n⟩ := r
    obtain ⟨es₁, t₁, hrun₁, hes₁, hd₁, hlog₁, _, hnone₁, _, _⟩ :=
      round_ends _ s files n hd hround (Nat.le_refl _)
    obtain ⟨es₂, t, hrun₂, hes₂, hdt, hlog, hnone, hempty⟩ :=
      rounds_drain hg _ t₁ hd₁ hnone₁ (Nat.le_refl _)
    refine ⟨es₁ ++ es₂, t, run_append.mpr ⟨t₁, hrun₁, hrun₂⟩, fun e he => ?_, hdt,
      hlog.trans hlog₁, hnone, hempty⟩
    exact (List.mem_append.mp he).elim (hes₁ e) (hes₂ e)

theorem fileThread_background {e : PipelineEvent} (h : FileThread e) : Background e := by
  cases e with
  | beginRound | visit => trivial
  | log | writeData => exact h.elim

theorem fileThread_keepsOrder {e : PipelineEvent} (h : FileThread e) (s : LogPipeline) :
    KeepsOrder g s e := by
  cases e with
  | beginRound | visit => trivial
  | log | writeData => exact h.elim

/-- `workerFileThread` runs, or no record pushed so far is for a batch queue. -/
def Drainable (g : LogSetting) (s : LogPipeline) : Prop :=
  g.isUseBatchFileWrite = true ∨ ∀ n < s.log.pushed.length, ∀ d, g.dest n = some d →
    d.isUseBatchFileWrite = false

/-- The batch queues can be emptied before the worker goes on. -/
theorem empty_first (hd : Delivered g s) (hdrain : Drainable g s) :
    ∃ es t, run (step g) s es = some t ∧ (∀ e ∈ es, FileThread e) ∧ Delivered g t ∧
      t.log = s.log ∧ t.round = none ∧ ∀ f, t.fileWriteQueue f = [] := by
  cases hg : g.isUseBatchFileWrite with
  | true => exact files_drain hg hd
  | false =>
    have hdests := hdrain.resolve_left (by rw [hg]; exact Bool.false_ne_true)
    refine ⟨[], s, rfl, fun e he => absurd he List.not_mem_nil, hd, rfl, (hd.asleep hg).1,
      fun f => ?_⟩
    by_contra hne
    obtain ⟨r, rest, hr⟩ := List.exists_cons_of_ne_nil hne
    have hmem : r ∈ s.fileWriteQueue f := hr ▸ List.mem_cons_self
    have hsent := mem_sentTo ((hd.all f).mem_iff.mp (List.mem_append_right _ hmem))
    have hlen := hd.owned.intact.passed_prefix.length_le
    have hfalse := hdests r.number (by omega) _ (hd.queued f r hmem)
    cases hfalse

/-- Nothing is under way. -/
structure Drained (s : LogPipeline) : Prop where
  queue : s.log.queue = []
  worker : s.log.worker = .idle
  round : s.round = none
  files : ∀ f, s.fileWriteQueue f = []

/-- **The two threads of the logger bring everything into the files**, and no record overtakes
    another one on the way. -/
theorem drains : ∀ (k : Nat) (s : LogPipeline), Delivered g s → Drainable g s →
    s.workerLeft ≤ k →
    ∃ es t, run (step g) s es = some t ∧ (∀ e ∈ es, Background e) ∧
      Meets (step g) (KeepsOrder g) s es ∧ Delivered g t ∧ t.log.pushed = s.log.pushed ∧
      Drained t := by
  intro k
  induction k with
  | zero =>
    intro s hd hdrain hk
    obtain ⟨es, t, hrun, hes, hdt, hlog, hround, hempty⟩ := empty_first hd hdrain
    have hdone : t.log.queue = [] ∧ t.log.worker = .idle := by
      by_contra hleft
      obtain ⟨_, _, _, _, hlt⟩ := worker_step g hleft
      simp only [LogPipeline.workerLeft, hlog] at hlt hk
      omega
    exact ⟨es, t, hrun, fun e he => fileThread_background (hes e he),
      meets_of_forall es s fun e he s => fileThread_keepsOrder (hes e he) s, hdt, congrArg _ hlog,
      ⟨hdone.1, hdone.2, hround, hempty⟩⟩
  | succ k ih =>
    intro s hd hdrain hk
    obtain ⟨es, t, hrun, hes, hdt, hlog, hround, hempty⟩ := empty_first hd hdrain
    have hes' : ∀ e ∈ es, Background e := fun e he => fileThread_background (hes e he)
    have hmeets : Meets (step g) (KeepsOrder g) s es :=
      meets_of_forall es s fun e he s => fileThread_keepsOrder (hes e he) s
    by_cases hleft : t.log.queue = [] ∧ t.log.worker = .idle
    · exact ⟨es, t, hrun, hes', hmeets, hdt, congrArg _ hlog, ⟨hleft.1, hleft.2, hround, hempty⟩⟩
    · obtain ⟨e, t', hstep, he, hlt⟩ := worker_step g hleft
      have hpushed : t'.log.pushed = s.log.pushed := by rw [background_pushed he hstep, hlog]
      have hkeep : KeepsOrder g t e := by
        cases e with
        | writeData => exact fun d _ _ => hempty d.file
        | _ => trivial
      have hless : t'.workerLeft ≤ k := by
        simp only [LogPipeline.workerLeft, hlog] at hlt hk ⊢
        omega
      obtain ⟨es₂, u, hrun₂, hes₂, hmeets₂, hdu, hpushed₂, hdone⟩ :=
        ih t' (delivered_step hdt hstep) (by rwa [Drainable, hpushed]) hless
      refine ⟨es ++ e :: es₂, u, run_append.mpr ⟨t, hrun, run_cons.mpr ⟨t', hstep, hrun₂⟩⟩, ?_,
        meets_append hmeets fun m hm => ?_, hdu, hpushed₂.trans hpushed, hdone⟩
      · intro e' he'
        rcases List.mem_append.mp he' with hin | hin
        · exact hes' e' hin
        · exact (List.mem_cons.mp hin).elim (fun heq => heq ▸ he) (hes₂ e')
      · rw [hrun, Option.some.injEq] at hm
        exact hm ▸ meets_cons hstep hkeep hmeets₂

/-- Every file holds, flushed, what was pushed for it. -/
def AllWritten (g : LogSetting) (pushed : List (Nat × LogContext)) (t : LogPipeline) : Prop :=
  ∀ f, (t.written f).Perm (g.sentTo f pushed) ∧ t.flushed f = (t.written f).length

theorem passed_of_drained (hd : Delivered g s) (h : Drained s) : s.log.pushed = s.log.passed := by
  rw [hd.owned.intact.in_order, h.worker, h.queue]
  exact List.append_nil _

theorem flushed_of_drained (hd : Delivered g s) (h : Drained s) (f : Nat) :
    s.flushed f = (s.written f).length := by
  rcases hd.flushed f with heq | ⟨rest, n, hsome, _⟩
  · exact heq
  · rw [h.round] at hsome
    cases hsome

theorem allWritten_of_drained (hd : Delivered g s) (h : Drained s) :
    AllWritten g s.log.pushed s := by
  intro f
  refine ⟨?_, flushed_of_drained hd h f⟩
  have hall := hd.all f
  rwa [h.files f, List.append_nil, ← passed_of_drained hd h] at hall

/-- **When the records reach their files**: from a state that a run reaches, the two threads of the
    logger can bring everything that was pushed into its file and flush it, if and only if
    `workerFileThread` runs or no record pushed so far is for a batch queue. -/
theorem pipeline_drains_iff (g : LogSetting) {es : List PipelineEvent} {s : LogPipeline}
    (hrun : run (step g) start es = some s) :
    (∃ es' t, run (step g) s es' = some t ∧ (∀ e ∈ es', Background e) ∧
      AllWritten g s.log.pushed t) ↔
    (g.isUseBatchFileWrite = true ∨ ∀ n < s.log.pushed.length, ∀ d, g.dest n = some d →
      d.isUseBatchFileWrite = false) := by
  have hd := delivered_run hrun
  constructor
  · rintro ⟨es', t, hrun', _, hall⟩
    cases hg : g.isUseBatchFileWrite with
    | true => exact .inl rfl
    | false =>
      refine .inr fun n hn d hdest => ?_
      obtain ⟨f, batch⟩ := d
      have hrunt := run_append.mpr ⟨s, hrun, hrun'⟩
      have hplain := ((delivered_run hrunt).asleep hg).2
      have hmem : (⟨n, g.recordText s.log.pushed[n].2⟩ : SentText) ∈ g.sentTo f s.log.pushed := by
        refine List.mem_filterMap.mpr ⟨(s.log.pushed[n], n), ?_, ?_⟩
        · exact List.mk_mem_zipIdx_iff_getElem?.mpr (List.getElem?_eq_getElem hn)
        · rw [hdest]
          exact if_pos rfl
      have hwritten := hplain f _ ((hall f).1.mem_iff.mpr hmem)
      rw [hdest] at hwritten
      cases hwritten
      rfl
  · intro hcond
    obtain ⟨es', t, hrun', hes', _, hdt, hpushed, hdone⟩ := drains _ s hd hcond (Nat.le_refl _)
    exact ⟨es', t, hrun', hes', hpushed ▸ allWritten_of_drained hdt hdone⟩

/-- The record that waits can be brought into its file. -/
theorem pipeline_drains_record : ∃ s es' t,
    run (step batchSetting) start batchedRecord = some s ∧ s.log.pushed.length = 1 ∧
    run (step batchSetting) s es' = some t ∧ AllWritten batchSetting s.log.pushed t := by
  obtain ⟨s, hs, hlen, _⟩ := batchedRecord_runs
  obtain ⟨es', t, ht, _, hall⟩ := (pipeline_drains_iff batchSetting hs).mpr (.inl rfl)
  exact ⟨s, es', t, hs, hlen, ht, hall⟩

end IMonPlatform.Logger
