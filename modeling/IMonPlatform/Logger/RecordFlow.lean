import IMonPlatform.Logger.StopLogger

/-!
# Log records at shutdown

The records on their way through the log queue, the worker and the batch queues of the files, over
the threads of `Factory`.  The worker tests `_isExit` after it has popped a record, and neither
worker empties its queues once the flag is set.

* `RecordFlow.step` — one step, with what it does to the records.
* `RecordFlow.Kept` — once both workers are joined, the records logged before `StopLogger` have
  reached their sinks and nothing is queued.
* `RecordFlow.NothingWaits` — when `_isExit` is set, no record waits for one of the workers, and
  none is pushed afterwards.
* `shutdown_keeps_records` — a run whose steps meet this loses no record.
-/

set_option autoImplicit false

namespace IMonPlatform.Logger

open Transition

/-- The transfer methods `LT_*` that `WriteData` tests for; it hands nothing over for `LT_STREAM`,
`LT_EVENTLOG` and `LT_CONSOLE`. -/
inductive LogSink where
  | debugger
  | stderr
  | stdout
  | file
  | callback
  deriving DecidableEq

/-- A record, numbered in the order of the pushes, with what its configuration says. -/
structure LogRecord where
  id : Nat
  logTransferMethods : List LogSink
  isUseBatchFileWrite : Bool
  deriving DecidableEq

structure RecordFlow where
  factory : Factory
  /-- The records pushed so far. -/
  count : Nat
  /-- The records whose `Log` call returned before `StopLogger` was called. -/
  logged : List LogRecord
  queue : List LogRecord
  /-- The record that `workerThread` has popped and not yet written. -/
  lc : Option LogRecord
  /-- `_fileWriteQueue`, with its keys; a missing key has an empty queue. -/
  files : List Nat
  fileWriteQueue : Nat → List LogRecord
  /-- The files that `workerFileThread` has still to visit, and its `nCurrentCount`. -/
  pending : List Nat
  nCurrentCount : Nat
  /-- What was handed to which sink. -/
  handed : List (LogRecord × LogSink)

inductive RecordEvent where
  /-- The push of a `Log` call, which then returns. -/
  | log (logTransferMethods : List LogSink) (isUseBatchFileWrite : Bool)
  | stop
  /-- A step of `workerThread` other than `WriteData`. -/
  | worker
  /-- `WriteData`, with the file of the record if one can be opened. -/
  | writeData (file : Option Nat)
  /-- A step of `workerFileThread`, with the order in which the map is visited. -/
  | file (order : List Nat)
  | getLogger (t : Nat)

namespace RecordFlow

/-- A running logger, with or without batch writing. -/
def running (isUseBatchFileWrite : Bool) : RecordFlow where
  factory := Factory.running isUseBatchFileWrite
  count := 0
  logged := []
  queue := []
  lc := none
  files := []
  fileWriteQueue := fun _ => []
  pending := []
  nCurrentCount := 0
  handed := []

def nMaxCountPerOnce : Nat := 256

def setFactory (s : RecordFlow) (factory : Factory) : RecordFlow := { s with factory }

/-- The push at the end of `Log`. -/
def log (s : RecordFlow) (logTransferMethods : List LogSink) (isUseBatchFileWrite : Bool) :
    RecordFlow :=
  let record := ⟨s.count, logTransferMethods, isUseBatchFileWrite⟩
  { s with
    count := s.count + 1
    logged := if s.factory.stop = .idle then s.logged ++ [record] else s.logged
    queue := s.queue ++ [record] }

/-- A record goes to the batch queue of its file. -/
def pushBatch (s : RecordFlow) (file : Nat) (record : LogRecord) : RecordFlow :=
  { s with
    files := if file ∈ s.files then s.files else file :: s.files
    fileWriteQueue :=
      Function.update s.fileWriteQueue file (s.fileWriteQueue file ++ [record]) }

/-- The part of `WriteData` that writes to files. -/
def writeFile (s : RecordFlow) (record : LogRecord) : Option Nat → RecordFlow
  | none => s
  | some file =>
    if record.isUseBatchFileWrite then s.pushBatch file record
    else { s with handed := s.handed ++ [(record, .file)] }

/-- The part of `WriteData` for the other sinks. -/
def handOver (s : RecordFlow) (record : LogRecord) : RecordFlow :=
  { s with
    lc := none
    handed := s.handed ++ (record.logTransferMethods.filter (· ≠ .file)).map (record, ·) }

def writeData (s : RecordFlow) (record : LogRecord) (file : Option Nat) : RecordFlow :=
  if .file ∈ record.logTransferMethods then (s.handOver record).writeFile record file
  else s.handOver record

/-- The loops of `workerFileThread` inside `_csFactory`; `none` when all files are done. -/
def flush (s : RecordFlow) : Option RecordFlow :=
  match s.pending with
  | [] => none
  | file :: rest =>
    match s.fileWriteQueue file with
    | [] => some { s with pending := rest, nCurrentCount := 0 }
    | record :: records =>
      let s := { s with
        fileWriteQueue := Function.update s.fileWriteQueue file records
        handed := s.handed ++ [(record, LogSink.file)] }
      if nMaxCountPerOnce ≤ s.nCurrentCount + 1 then
        some { s with pending := rest, nCurrentCount := 0 }
      else some { s with nCurrentCount := s.nCurrentCount + 1 }

def stepWorker (s : RecordFlow) : Option RecordFlow :=
  match s.factory.worker, s.queue with
  | .tryPop, record :: queue =>
    (s.factory.stepWorker true).map { s with queue, lc := some record }.setFactory
  | .writeData, _ => none
  | _, _ => (s.factory.stepWorker false).map s.setFactory

def stepWriteData (s : RecordFlow) (file : Option Nat) : Option RecordFlow :=
  match s.factory.worker, s.lc with
  | .writeData, some record =>
    (s.factory.stepWorker false).map (s.writeData record file).setFactory
  | _, _ => none

def stepFile (s : RecordFlow) (order : List Nat) : Option RecordFlow :=
  match s.factory.file with
  | .enter =>
    if order.Perm s.files then
      s.factory.stepFile.map { s with pending := order, nCurrentCount := 0 }.setFactory
    else none
  | .flush =>
    match s.flush with
    | some s' => some s'
    | none => s.factory.stepFile.map s.setFactory
  | _ => s.factory.stepFile.map s.setFactory

/-- At its end `StopLogger` deletes the batch queues. -/
def stepStop (s : RecordFlow) : Option RecordFlow :=
  match s.factory.stop with
  | .release =>
    s.factory.stepStop.map { s with files := [], fileWriteQueue := fun _ => [] }.setFactory
  | _ => s.factory.stepStop.map s.setFactory

def step (s : RecordFlow) : RecordEvent → Option RecordFlow
  | .log methods batch => some (s.log methods batch)
  | .stop => s.stepStop
  | .worker => s.stepWorker
  | .writeData file => s.stepWriteData file
  | .file order => s.stepFile order
  | .getLogger t => (s.factory.stepGetLogger t).map s.setFactory

/-- Both workers have been joined. -/
def Joined (s : RecordFlow) : Prop := s.factory.stop = .release ∨ s.factory.stop = .returned

/-- Behind the joins, every record logged before `StopLogger` has reached all its sinks, and no
record is queued. -/
def Kept (s : RecordFlow) : Prop :=
  s.Joined →
    (∀ record ∈ s.logged, ∀ sink ∈ record.logTransferMethods, (record, sink) ∈ s.handed) ∧
      s.queue = [] ∧ ∀ file, s.fileWriteQueue file = []

/-- The record goes to a batch queue. -/
def LogRecord.Batched (record : LogRecord) : Prop :=
  .file ∈ record.logTransferMethods ∧ record.isUseBatchFileWrite = true

/-- No record waits for a worker: all queues are empty, and a record that the worker has popped is
in `WriteData` and not for a batch queue. -/
structure Idle (s : RecordFlow) : Prop where
  queue : s.queue = []
  fileWriteQueue : ∀ file, s.fileWriteQueue file = []
  lc : ∀ record, s.lc = some record → s.factory.worker = .writeData ∧ ¬ LogRecord.Batched record

/-- Nothing waits when `_isExit` is set, nothing is pushed afterwards, and a record for a file
finds one. -/
def NothingWaits (s : RecordFlow) : RecordEvent → Prop
  | .stop => s.factory.stop = .setExit → s.Idle
  | .log _ _ => s.factory.isExit = false
  | .writeData file => ∀ record, s.lc = some record → .file ∈ record.logTransferMethods →
      file.isSome = true
  | .worker | .file _ | .getLogger _ => True

/-! ## The invariant -/

/-- Where a record is that has not reached a sink yet. -/
def Accounted (s : RecordFlow) (record : LogRecord) (sink : LogSink) : Prop :=
  (record, sink) ∈ s.handed ∨ record ∈ s.queue ∨ s.lc = some record ∨
    sink = .file ∧ ∃ file, record ∈ s.fileWriteQueue file

structure Inv (s : RecordFlow) : Prop where
  stopOk : s.factory.StopOk
  accounted : ∀ record ∈ s.logged, ∀ sink ∈ record.logTransferMethods, s.Accounted record sink
  lc : ∀ record, s.lc = some record → s.factory.worker = .testBreak ∨ s.factory.worker = .writeData
  idle : s.factory.isExit = true → s.Idle

theorem inv_running (batch : Bool) : Inv (running batch) where
  stopOk := Factory.stopOk_running batch
  accounted := by simp [running]
  lc := by simp [running]
  idle := by simp [running, Factory.running]

theorem kept_of_inv (s : RecordFlow) (h : Inv s) : s.Kept := by
  intro hjoined
  have hphase : 6 ≤ Factory.phase s.factory.stop := by
    rcases hjoined with hpc | hpc <;> rw [hpc] <;> decide
  have hidle := h.idle (h.stopOk.isExit (by omega))
  have hended := h.stopOk.joined (by omega)
  refine ⟨?_, hidle.queue, hidle.fileWriteQueue⟩
  intro record hrecord sink hsink
  rcases h.accounted record hrecord sink hsink with hh | hq | hlc | ⟨-, file, hb⟩
  · exact hh
  · rw [hidle.queue] at hq
    cases hq
  · rw [(hidle.lc record hlc).1] at hended
    cases hended
  · rw [hidle.fileWriteQueue file] at hb
    cases hb

variable {s s' : RecordFlow}

/-- A step of a thread that touches neither the records nor what they depend on. -/
theorem Inv.setFactory (h : Inv s) {f : Factory} (hok : f.StopOk)
    (hw : f.worker = s.factory.worker) (hexit : f.isExit = s.factory.isExit) :
    Inv (s.setFactory f) := by
  refine ⟨hok, h.accounted, ?_, ?_⟩
  · intro record hlc
    simp only [RecordFlow.setFactory, hw]
    exact h.lc record hlc
  · intro hflag
    have hidle := h.idle (hexit ▸ hflag)
    refine ⟨hidle.queue, hidle.fileWriteQueue, ?_⟩
    simp only [RecordFlow.setFactory, hw]
    exact hidle.lc

/-! ### Every step keeps it -/

theorem inv_log (h : Inv s) (methods : List LogSink) (batch : Bool)
    (hc : s.factory.isExit = false) : Inv (s.log methods batch) := by
  refine ⟨h.stopOk, ?_, h.lc, ?_⟩
  · intro record hrecord sink hsink
    have hold : record ∈ s.logged → (s.log methods batch).Accounted record sink := by
      intro hmem
      rcases h.accounted record hmem sink hsink with hh | hq | hlc | hb
      · exact .inl hh
      · exact .inr (.inl (List.mem_append_left _ hq))
      · exact .inr (.inr (.inl hlc))
      · exact .inr (.inr (.inr hb))
    simp only [log] at hrecord
    split at hrecord
    · rcases List.mem_append.mp hrecord with hmem | hmem
      · exact hold hmem
      · exact .inr (.inl (List.mem_append_right _ hmem))
    · exact hold hrecord
  · intro hflag
    rw [show s.factory.isExit = true from hflag] at hc
    cases hc

/-- `StopLogger` leaves the worker alone, and only its step `_isExit = true` sets the flag. -/
theorem stepStop_frame {f f' : Factory} (hs : f.stepStop = some f') :
    f'.worker = f.worker ∧ (f'.isExit = true → f.isExit = true ∨ f.stop = .setExit) := by
  unfold Factory.stepStop at hs
  cases hpc : f.stop with
  | idle | setExit | setInit | release =>
    simp only [hpc, Option.some.injEq] at hs
    subst hs
    simp
  | enter | joinWorker | joinFile =>
    simp only [hpc] at hs
    split at hs
    · cases hs
      simp
    · cases hs
  | returned => simp [hpc] at hs

theorem inv_stop (h : Inv s) (hc : s.NothingWaits .stop) (hs : s.stepStop = some s') : Inv s' := by
  have hflag : ∀ f, s.factory.stepStop = some f → f.isExit = true → s.Idle := by
    intro f hf hexit
    rcases (stepStop_frame hf).2 hexit with hold | hset
    · exact h.idle hold
    · exact hc hset
  unfold stepStop at hs
  split at hs
  · rename_i hpc
    obtain ⟨f, hf, rfl⟩ := Option.map_eq_some_iff.mp hs
    have hidle := h.idle (h.stopOk.isExit (by rw [hpc]; decide))
    obtain ⟨hw, -⟩ := stepStop_frame hf
    refine ⟨Factory.stopOk_stop h.stopOk hf, ?_, ?_, ?_⟩
    · intro record hrecord sink hsink
      rcases h.accounted record hrecord sink hsink with hh | hq | hlc | ⟨-, file, hb⟩
      · exact .inl hh
      · exact .inr (.inl hq)
      · exact .inr (.inr (.inl hlc))
      · rw [hidle.fileWriteQueue file] at hb
        cases hb
    · simp only [setFactory, hw]
      exact h.lc
    · intro _
      refine ⟨hidle.queue, fun _ => rfl, ?_⟩
      simp only [setFactory, hw]
      exact hidle.lc
  · obtain ⟨f, hf, rfl⟩ := Option.map_eq_some_iff.mp hs
    obtain ⟨hw, -⟩ := stepStop_frame hf
    refine ⟨Factory.stopOk_stop h.stopOk hf, h.accounted, ?_, ?_⟩
    · simp only [setFactory, hw]
      exact h.lc
    · intro hexit
      have hidle := hflag f hf hexit
      refine ⟨hidle.queue, hidle.fileWriteQueue, ?_⟩
      simp only [setFactory, hw]
      exact hidle.lc

/-- A popped record is at the test, so the flag is not set and `WriteData` comes next. -/
theorem Inv.lc_next (h : Inv s) {f : Factory} (hf : s.factory.stepWorker false = some f)
    (hwrite : s.factory.worker ≠ .writeData) {record : LogRecord} (hlc : s.lc = some record) :
    f.worker = .writeData ∧ s.factory.isExit = false := by
  rcases h.lc record hlc with hw | hw
  · cases hx : s.factory.isExit with
    | false =>
      simp only [Factory.stepWorker, hw, hx, Bool.false_eq_true, if_false,
        Option.some.injEq] at hf
      subst hf
      exact ⟨rfl, rfl⟩
    | true =>
      have htest := ((h.idle hx).lc record hlc).1
      rw [hw] at htest
      cases htest
  · exact (hwrite hw).elim

theorem inv_worker (h : Inv s) (hs : s.stepWorker = some s') : Inv s' := by
  unfold stepWorker at hs
  split at hs
  · rename_i record queue hpc hq
    obtain ⟨f, hf, rfl⟩ := Option.map_eq_some_iff.mp hs
    -- With the flag set, the queue would be empty.
    have hexit : s.factory.isExit = false := by
      cases hx : s.factory.isExit with
      | false => rfl
      | true =>
        rw [(h.idle hx).queue] at hq
        cases hq
    have hok := Factory.stopOk_step s.factory (.worker true) f h.stopOk hf
    simp only [Factory.stepWorker, hpc, if_true, Option.some.injEq] at hf
    subst hf
    refine ⟨hok, ?_, fun _ _ => .inl rfl, ?_⟩
    · intro r hr sink hsink
      rcases h.accounted r hr sink hsink with hh | hmem | hlc | hb
      · exact .inl hh
      · rw [hq] at hmem
        rcases List.mem_cons.mp hmem with rfl | hmem
        · exact .inr (.inr (.inl rfl))
        · exact .inr (.inl hmem)
      · rcases h.lc r hlc with hw | hw <;> rw [hpc] at hw <;> cases hw
      · exact .inr (.inr (.inr hb))
    · intro hflag
      rw [show s.factory.isExit = true from hflag] at hexit
      cases hexit
  · cases hs
  · rename_i hwrite _
    obtain ⟨f, hf, rfl⟩ := Option.map_eq_some_iff.mp hs
    have hok := Factory.stopOk_step s.factory (.worker false) f h.stopOk hf
    obtain ⟨pc, hf'⟩ := Factory.stepWorker_eq hf
    refine ⟨hok, h.accounted, ?_, ?_⟩
    · intro record hrecord
      exact .inr (h.lc_next hf hwrite hrecord).1
    · intro hflag
      have hx : s.factory.isExit = true := by simpa [setFactory, hf'] using hflag
      have hidle := h.idle hx
      refine ⟨hidle.queue, hidle.fileWriteQueue, fun record hrecord => ?_⟩
      rw [(h.lc_next hf hwrite hrecord).2] at hx
      cases hx

/-- What `WriteData` does to the records: it hands a record over or puts it into a batch queue. -/
structure Wrote (s s' : RecordFlow) (record : LogRecord) : Prop where
  lc : s'.lc = none
  queue : s'.queue = s.queue
  logged : s'.logged = s.logged
  handed : ∀ p ∈ s.handed, p ∈ s'.handed
  others : ∀ sink ∈ record.logTransferMethods, sink ≠ .file → (record, sink) ∈ s'.handed
  batch : ∀ f, ∀ r ∈ s.fileWriteQueue f, r ∈ s'.fileWriteQueue f
  direct : ¬ LogRecord.Batched record → s'.fileWriteQueue = s.fileWriteQueue

theorem wrote_handOver (s : RecordFlow) (record : LogRecord) :
    Wrote s (s.handOver record) record := by
  refine ⟨rfl, rfl, rfl, ?_, ?_, fun _ _ h => h, fun _ => rfl⟩
  · exact fun p hp => List.mem_append_left _ hp
  · intro sink hsink hne
    apply List.mem_append_right
    simp [hsink, hne]

/-- The record reaches the file or the batch queue of the file. -/
theorem mem_writeFile (s : RecordFlow) (record : LogRecord) (f : Nat) :
    (record, .file) ∈ (s.writeFile record (some f)).handed ∨
      record ∈ (s.writeFile record (some f)).fileWriteQueue f := by
  simp only [writeFile]
  split
  · right
    simp [pushBatch]
  · left
    exact List.mem_append_right _ (List.mem_singleton_self _)

theorem wrote_writeData (s : RecordFlow) (record : LogRecord) (file : Option Nat) :
    Wrote s (s.writeData record file) record := by
  have hw := wrote_handOver s record
  unfold writeData
  split
  · rename_i hfile
    cases file with
    | none => exact hw
    | some f =>
      simp only [writeFile]
      split
      · rename_i hbatch
        refine ⟨hw.lc, hw.queue, hw.logged, hw.handed, hw.others, ?_, ?_⟩
        · intro f' r hr
          simp only [pushBatch, Function.update_apply]
          split
          · rename_i heq
            exact List.mem_append_left _ (heq ▸ hr)
          · exact hr
        · exact fun hnot => absurd ⟨hfile, hbatch⟩ hnot
      · exact ⟨hw.lc, hw.queue, hw.logged, fun p hp => List.mem_append_left _ (hw.handed p hp),
          fun sink hsink hne => List.mem_append_left _ (hw.others sink hsink hne), hw.batch,
          hw.direct⟩
  · exact hw

/-- A record that finds a file reaches all its sinks, or waits in a batch queue. -/
theorem writeData_reaches {record : LogRecord} {file : Option Nat}
    (hfile : .file ∈ record.logTransferMethods → file.isSome = true) {sink : LogSink}
    (hsink : sink ∈ record.logTransferMethods) :
    (record, sink) ∈ (s.writeData record file).handed ∨
      sink = .file ∧ ∃ f, record ∈ (s.writeData record file).fileWriteQueue f := by
  by_cases heq : sink = .file
  · subst heq
    obtain ⟨f, rfl⟩ := Option.isSome_iff_exists.mp (hfile hsink)
    rw [writeData, if_pos hsink]
    rcases mem_writeFile (s.handOver record) record f with h | h
    · exact .inl h
    · exact .inr ⟨rfl, f, h⟩
  · exact .inl ((wrote_writeData s record file).others sink hsink heq)

theorem inv_writeData (h : Inv s) {file : Option Nat} (hc : s.NothingWaits (.writeData file))
    (hs : s.stepWriteData file = some s') : Inv s' := by
  unfold stepWriteData at hs
  split at hs
  · rename_i record hpc hlc
    obtain ⟨f, hf, rfl⟩ := Option.map_eq_some_iff.mp hs
    have hok := Factory.stopOk_step s.factory (.worker false) f h.stopOk hf
    obtain ⟨pc, hf'⟩ := Factory.stepWorker_eq hf
    have hwrote := wrote_writeData s record file
    have hnone : ∀ r, (s.writeData record file).lc ≠ some r := by
      intro r
      rw [hwrote.lc]
      simp
    refine ⟨hok, ?_, fun r hr => absurd hr (hnone r), ?_⟩
    · intro r hr sink hsink
      have hr' : r ∈ s.logged := by
        rw [← hwrote.logged]
        exact hr
      rcases h.accounted r hr' sink hsink with hh | hq | hheld | ⟨hsf, f', hb⟩
      · exact .inl (hwrote.handed _ hh)
      · exact .inr (.inl (hwrote.queue.symm ▸ hq))
      · rw [hlc] at hheld
        cases hheld
        rcases writeData_reaches (hc record hlc) hsink with hd | hd
        · exact .inl hd
        · exact .inr (.inr (.inr hd))
      · exact .inr (.inr (.inr ⟨hsf, f', hwrote.batch f' r hb⟩))
    · intro hflag
      have hidle := h.idle (by simpa [setFactory, hf'] using hflag)
      refine ⟨hwrote.queue.trans hidle.queue, ?_, fun r hr => absurd hr (hnone r)⟩
      intro f'
      exact (congrFun (hwrote.direct (hidle.lc record hlc).2) f').trans (hidle.fileWriteQueue f')
  · cases hs

/-- A step of the flushing loops writes the first record of a batch queue to its file. -/
theorem inv_flush (h : Inv s) (hs : s.flush = some s') : Inv s' := by
  unfold flush at hs
  split at hs
  · cases hs
  · rename_i file rest hpending
    split at hs
    · cases hs
      exact ⟨h.stopOk, h.accounted, h.lc, fun hflag => ⟨(h.idle hflag).queue,
        (h.idle hflag).fileWriteQueue, (h.idle hflag).lc⟩⟩
    · rename_i record records hq
      have hinv : ∀ rest' n, Inv { s with
          fileWriteQueue := Function.update s.fileWriteQueue file records
          handed := s.handed ++ [(record, LogSink.file)]
          pending := rest'
          nCurrentCount := n } := by
        intro rest' n
        refine ⟨h.stopOk, ?_, h.lc, ?_⟩
        · intro r hr sink hsink
          rcases h.accounted r hr sink hsink with hh | hmem | hlc | ⟨hsf, f', hb⟩
          · exact .inl (List.mem_append_left _ hh)
          · exact .inr (.inl hmem)
          · exact .inr (.inr (.inl hlc))
          · by_cases heq : f' = file
            · rw [heq, hq] at hb
              rcases List.mem_cons.mp hb with rfl | hb
              · left
                rw [hsf]
                exact List.mem_append_right _ (List.mem_singleton_self _)
              · refine .inr (.inr (.inr ⟨hsf, file, ?_⟩))
                simpa using hb
            · refine .inr (.inr (.inr ⟨hsf, f', ?_⟩))
              simpa [Function.update_of_ne heq] using hb
        · intro hflag
          rw [(h.idle hflag).fileWriteQueue file] at hq
          cases hq
      simp only at hs
      split at hs <;> cases hs
      · exact hinv rest 0
      · exact hinv s.pending (s.nCurrentCount + 1)

theorem inv_file (h : Inv s) {order : List Nat} (hs : s.stepFile order = some s') : Inv s' := by
  -- Every step of the thread itself leaves the records alone.
  have hframe : ∀ (r : RecordFlow) f, Inv r → r.factory.stepFile = some f →
      Inv (r.setFactory f) := by
    intro r f hr hf
    obtain ⟨-, hw, hexit, -⟩ := Factory.stepFile_frame hf
    exact hr.setFactory (Factory.stopOk_step r.factory .file f hr.stopOk hf) hw hexit
  unfold stepFile at hs
  split at hs
  · split at hs
    · obtain ⟨f, hf, rfl⟩ := Option.map_eq_some_iff.mp hs
      have hinv : Inv { s with pending := order, nCurrentCount := 0 } :=
        ⟨h.stopOk, h.accounted, h.lc, fun hflag => ⟨(h.idle hflag).queue,
          (h.idle hflag).fileWriteQueue, (h.idle hflag).lc⟩⟩
      exact hframe _ f hinv hf
    · cases hs
  · split at hs
    · rename_i s₁ hflush
      cases hs
      exact inv_flush h hflush
    · obtain ⟨f, hf, rfl⟩ := Option.map_eq_some_iff.mp hs
      exact hframe s f h hf
  · obtain ⟨f, hf, rfl⟩ := Option.map_eq_some_iff.mp hs
    exact hframe s f h hf

theorem inv_step (s : RecordFlow) (e : RecordEvent) (s' : RecordFlow) (h : Inv s)
    (hc : s.NothingWaits e) (hs : s.step e = some s') : Inv s' := by
  cases e with
  | log methods batch =>
    cases hs
    exact inv_log h methods batch hc
  | stop => exact inv_stop h hc hs
  | worker => exact inv_worker h hs
  | writeData file => exact inv_writeData h hc hs
  | file order => exact inv_file h hs
  | getLogger t =>
    obtain ⟨f, hf, rfl⟩ := Option.map_eq_some_iff.mp hs
    obtain ⟨-, -, hw, hexit, -⟩ := Factory.stepGetLogger_frame hf
    exact h.setFactory (Factory.stopOk_step s.factory (.getLogger t) f h.stopOk hf) hw hexit

/-- **Shutdown loses no record if none waits for a worker when the flag is set**, none is pushed
afterwards, and every record for a file finds one. -/
theorem shutdown_keeps_records (batch : Bool) (es : List RecordEvent) :
    Meets step NothingWaits (running batch) es → Always step Kept (running batch) es :=
  always_of_meets kept_of_inv inv_step es _ (inv_running batch)

/-- One record for the debugger and a batch queue and one for a file at once; the batch queue is
served before the stop. -/
def servedBeforeStop : List RecordEvent :=
  [.log [.debugger, .file] true, .log [.file] false,
    .worker, .worker, .writeData (some 0), .worker,
    .worker, .worker, .writeData (some 1), .worker,
    .file [], .file [], .file [0], .file [], .file [], .file [], .file [],
    .stop, .stop, .stop, .stop, .worker, .worker, .worker, .stop, .file [], .stop, .stop]

theorem written_before_stop_kept :
    ∃ s, run step (running true) servedBeforeStop = some s ∧ s.factory.stop = .returned ∧
      s.logged = [⟨0, [.debugger, .file], true⟩, ⟨1, [.file], false⟩] ∧ s.Kept := by
  refine ⟨_, rfl, rfl, rfl, shutdown_keeps_records true servedBeforeStop ?_ _ _
    (List.prefix_refl _) rfl⟩
  -- both records find a file
  have hsome : ∀ (f : Nat) (s : RecordFlow), s.NothingWaits (.writeData (some f)) :=
    fun _ _ _ _ _ => rfl
  refine meets_cons rfl rfl <| meets_cons rfl rfl <| meets_cons rfl trivial <|
    meets_cons rfl trivial <| meets_cons rfl (hsome 0 _) <| meets_cons rfl trivial <|
    meets_cons rfl trivial <| meets_cons rfl trivial <| meets_cons rfl (hsome 1 _) <|
    meets_cons rfl trivial ?_
  refine meets_cons rfl trivial <| meets_cons rfl trivial <| meets_cons rfl trivial <|
    meets_cons rfl trivial <| meets_cons rfl trivial <| meets_cons rfl trivial <|
    meets_cons rfl trivial ?_
  -- the batch queue of file 0 has been written when the flag is set
  refine meets_cons rfl nofun <| meets_cons rfl nofun <| meets_cons rfl (fun _ => ?_) <|
    meets_cons rfl nofun <| meets_cons rfl trivial <| meets_cons rfl trivial <|
    meets_cons rfl trivial <| meets_cons rfl nofun <| meets_cons rfl trivial <|
    meets_cons rfl nofun <| meets_cons rfl nofun trivial
  refine ⟨rfl, fun f => ?_, nofun⟩
  by_cases hf : f = 0
  · subst hf
    rfl
  · have hempty : Function.update (Function.update (fun _ => []) 0
        [(⟨0, [.debugger, .file], true⟩ : LogRecord)]) 0 [] f = [] := by
      rw [Function.update_of_ne hf, Function.update_of_ne hf]
    exact hempty

/-- The worker drops a record that it pops after the flag is set; a record in a batch queue stays
there. -/
theorem shutdown_loses_records :
    ¬ Always step Kept (running false)
      [.log [.debugger] false, .stop, .stop, .stop, .stop, .worker, .worker, .stop, .stop] ∧
    ¬ Always step Kept (running true)
      [.log [.file] true, .worker, .worker, .writeData (some 0), .worker, .stop, .stop, .stop,
        .stop, .worker, .worker, .worker, .stop, .file [], .stop] := by
  constructor
  · intro h
    obtain ⟨hlost, -⟩ := h _ _ (List.prefix_refl _) rfl (.inl rfl)
    have := hlost ⟨0, [.debugger], false⟩ List.mem_cons_self .debugger List.mem_cons_self
    cases this
  · intro h
    obtain ⟨-, -, hqueued⟩ := h _ _ (List.prefix_refl _) rfl (.inl rfl)
    have := hqueued 0
    cases this

end RecordFlow

end IMonPlatform.Logger
