import Mathlib.Logic.Function.Basic
import IMonPlatform.Lib.Transition

/-!
# `StopLogger` and the worker threads

`StopLogger` joins both workers inside `_csFactory`, and `workerFileThread` enters `_csFactory` in
every round, between its test of `_isExit` at the head of the loop and the one at its end.  A step
is one access of a thread to the shared flags or to the lock, one sleep or one join; `GetLogger`
may be called by any number of threads.

* `Factory.step` — one step of `StopLogger`, of a worker or of a `GetLogger` call.
* `Factory.Deadlocked` — `StopLogger` waits for a worker that has no step while `StopLogger` owns
  the lock.
* `Factory.AwakeAtExit` — when `_isExit` is set, the file worker is not between its first test and
  the lock.
* `stop_not_deadlocked` — a run whose steps meet this never deadlocks, and a step against it leads
  to a deadlock; `stop_never_returns` — from then on `StopLogger` does not return.
-/

set_option autoImplicit false

namespace IMonPlatform.Logger

open Transition

inductive StopPc where
  | idle
  /-- Before `EnterCriticalSection( &_csFactory )`. -/
  | enter
  /-- Before `_isExit = true`. -/
  | setExit
  /-- Before `_isInit = false`. -/
  | setInit
  | joinWorker
  | joinFile
  /-- Behind both joins, up to `LeaveCriticalSection`. -/
  | release
  | returned
  deriving DecidableEq

/-- `workerThread`. -/
inductive WorkerThreadPc where
  /-- Before `Try_and_pop`. -/
  | tryPop
  /-- Behind a failed `Try_and_pop`, before the test of `_isExit`. -/
  | testLoop
  | sleep
  /-- Before `if( _isExit == true )`. -/
  | testBreak
  | writeData
  /-- Before the test of the `do`-`while` loop. -/
  | testWhile
  | ended
  deriving DecidableEq

/-- `workerFileThread`. -/
inductive FileThreadPc where
  /-- Before `if( _isExit == true )`. -/
  | testBreak
  | sleep
  /-- Before it enters `_csFactory`. -/
  | enter
  /-- Inside `_csFactory`. -/
  | flush
  /-- Before the test of the `do`-`while` loop. -/
  | testWhile
  | ended
  deriving DecidableEq

/-- A call of `GetLogger`. -/
inductive GetLoggerPc where
  | idle
  | enter
  | inside
  deriving DecidableEq

inductive FactoryThread where
  | stop
  | file
  | getLogger (t : Nat)
  deriving DecidableEq

structure Factory where
  isExit : Bool
  isInit : Bool
  /-- The owner of `_csFactory`. -/
  csFactory : Option FactoryThread
  stop : StopPc
  worker : WorkerThreadPc
  file : FileThreadPc
  getLogger : Nat → GetLoggerPc

/-- The next step of a thread; for `workerThread`, whether there is something to pop. -/
inductive FactoryEvent where
  | stop
  | worker (popped : Bool)
  | file
  | getLogger (t : Nat)

namespace Factory

/-- A running logger; without batch writing there is no file worker to join. -/
def running (isUseBatchFileWrite : Bool) : Factory where
  isExit := false
  isInit := true
  csFactory := none
  stop := .idle
  worker := .tryPop
  file := if isUseBatchFileWrite then .testBreak else .ended
  getLogger := fun _ => .idle

def stepStop (s : Factory) : Option Factory :=
  match s.stop with
  | .idle => some { s with stop := if s.isInit then .enter else .returned }
  | .enter =>
    match s.csFactory with
    | none => some { s with csFactory := some .stop, stop := .setExit }
    | some _ => none
  | .setExit => some { s with isExit := true, stop := .setInit }
  | .setInit => some { s with isInit := false, stop := .joinWorker }
  | .joinWorker =>
    match s.worker with
    | .ended => some { s with stop := .joinFile }
    | _ => none
  | .joinFile =>
    match s.file with
    | .ended => some { s with stop := .release }
    | _ => none
  | .release => some { s with csFactory := none, stop := .returned }
  | .returned => none

def stepWorker (s : Factory) (popped : Bool) : Option Factory :=
  match s.worker with
  | .tryPop => some { s with worker := if popped then .testBreak else .testLoop }
  | .testLoop => some { s with worker := if s.isExit then .testBreak else .sleep }
  | .sleep => some { s with worker := .tryPop }
  | .testBreak => some { s with worker := if s.isExit then .ended else .writeData }
  | .writeData => some { s with worker := .testWhile }
  | .testWhile => some { s with worker := if s.isExit then .ended else .tryPop }
  | .ended => none

def stepFile (s : Factory) : Option Factory :=
  match s.file with
  | .testBreak => some { s with file := if s.isExit then .ended else .sleep }
  | .sleep => some { s with file := .enter }
  | .enter =>
    match s.csFactory with
    | none => some { s with csFactory := some .file, file := .flush }
    | some _ => none
  | .flush => some { s with csFactory := none, file := .testWhile }
  | .testWhile => some { s with file := if s.isExit then .ended else .testBreak }
  | .ended => none

def stepGetLogger (s : Factory) (t : Nat) : Option Factory :=
  match s.getLogger t with
  | .idle =>
    -- Without `_isInit`, `GetLogger` returns before the lock.
    if s.isInit then some { s with getLogger := Function.update s.getLogger t .enter } else some s
  | .enter =>
    match s.csFactory with
    | none => some { s with
        csFactory := some (.getLogger t)
        getLogger := Function.update s.getLogger t .inside }
    | some _ => none
  | .inside => some { s with
      csFactory := none
      getLogger := Function.update s.getLogger t .idle }

def step (s : Factory) : FactoryEvent → Option Factory
  | .stop => s.stepStop
  | .worker popped => s.stepWorker popped
  | .file => s.stepFile
  | .getLogger t => s.stepGetLogger t

/-- `StopLogger` waits to join a worker that cannot go on while `StopLogger` owns the lock. -/
def Deadlocked (s : Factory) : Prop :=
  s.csFactory = some .stop ∧
    ((s.stop = .joinWorker ∧ s.worker ≠ .ended ∧ ∀ popped, s.step (.worker popped) = none) ∨
      (s.stop = .joinFile ∧ s.file ≠ .ended ∧ s.step .file = none))

/-- When `_isExit` is set, the file worker is not between its test of `_isExit` and the lock. -/
def AwakeAtExit (s : Factory) : FactoryEvent → Prop
  | .stop => s.stop = .setExit → s.file ≠ .sleep ∧ s.file ≠ .enter
  | _ => True

/-! ## The invariant -/

/-- `StopLogger` is between taking and releasing the lock. -/
def owns : StopPc → Bool
  | .setExit | .setInit | .joinWorker | .joinFile | .release => true
  | .idle | .enter | .returned => false

/-- `StopLogger` has set `_isExit` and still has the lock. -/
def exiting : StopPc → Bool
  | .setInit | .joinWorker | .joinFile | .release => true
  | .idle | .enter | .setExit | .returned => false

/-- The lock has the owner that the threads' positions say. -/
structure LockOk (s : Factory) : Prop where
  stop : s.csFactory = some .stop ↔ owns s.stop = true
  file : s.file = .flush → s.csFactory = some .file
  getLogger : ∀ t, s.getLogger t = .inside → s.csFactory = some (.getLogger t)

theorem lockOk_running (batch : Bool) : LockOk (running batch) where
  stop := by simp [running, owns]
  file := by cases batch <;> simp [running]
  getLogger := by simp [running]

variable {s s' : Factory}

theorem lockOk_stop (h : LockOk s) (hs : s.stepStop = some s') : LockOk s' := by
  obtain ⟨hstop, hfile, hget⟩ := h
  unfold stepStop at hs
  cases hpc : s.stop with
  | idle =>
    simp only [hpc, Option.some.injEq] at hs
    subst hs
    refine ⟨?_, hfile, hget⟩
    rw [hpc] at hstop
    cases s.isInit <;> exact hstop
  | enter =>
    simp only [hpc] at hs
    split at hs
    · rename_i hcs
      cases hs
      refine ⟨by simp [owns], fun hf => ?_, fun t ht => ?_⟩
      · exact absurd (hfile hf) (by rw [hcs]; simp)
      · exact absurd (hget t ht) (by rw [hcs]; simp)
    · cases hs
  | setExit | setInit =>
    simp only [hpc, Option.some.injEq] at hs
    subst hs
    rw [hpc] at hstop
    exact ⟨hstop, hfile, hget⟩
  | joinWorker | joinFile =>
    simp only [hpc] at hs
    split at hs
    · cases hs
      rw [hpc] at hstop
      exact ⟨hstop, hfile, hget⟩
    · cases hs
  | release =>
    simp only [hpc, Option.some.injEq] at hs
    subst hs
    rw [hpc] at hstop
    have hcs := hstop.mpr rfl
    refine ⟨by simp [owns], fun hf => ?_, fun t ht => ?_⟩
    · exact absurd (hfile hf) (by rw [hcs]; simp)
    · exact absurd (hget t ht) (by rw [hcs]; simp)
  | returned => simp [hpc] at hs

/-- `workerThread` touches neither the lock nor the flags. -/
theorem stepWorker_eq {popped : Bool} (hs : s.stepWorker popped = some s') :
    ∃ pc, s' = { s with worker := pc } := by
  unfold stepWorker at hs
  split at hs <;> cases hs
  all_goals exact ⟨_, rfl⟩

theorem lockOk_file (h : LockOk s) (hs : s.stepFile = some s') : LockOk s' := by
  obtain ⟨hstop, hfile, hget⟩ := h
  unfold stepFile at hs
  cases hpc : s.file with
  | testBreak | testWhile =>
    simp only [hpc, Option.some.injEq] at hs
    subst hs
    refine ⟨hstop, ?_, hget⟩
    cases s.isExit <;> simp
  | sleep =>
    simp only [hpc, Option.some.injEq] at hs
    subst hs
    exact ⟨hstop, by simp, hget⟩
  | enter =>
    simp only [hpc] at hs
    split at hs
    · rename_i hcs
      cases hs
      rw [hcs] at hstop
      refine ⟨by simpa using hstop, by simp, fun t ht => ?_⟩
      exact absurd (hget t ht) (by rw [hcs]; simp)
    · cases hs
  | flush =>
    simp only [hpc, Option.some.injEq] at hs
    subst hs
    have hcs := hfile hpc
    rw [hcs] at hstop
    refine ⟨by simpa using hstop, by simp, fun t ht => ?_⟩
    exact absurd (hget t ht) (by rw [hcs]; simp)
  | ended => simp [hpc] at hs

theorem lockOk_getLogger (h : LockOk s) {t : Nat} (hs : s.stepGetLogger t = some s') :
    LockOk s' := by
  obtain ⟨hstop, hfile, hget⟩ := h
  unfold stepGetLogger at hs
  -- The other threads' positions after this thread moved to one outside the lock.
  have hother : ∀ pc t', pc ≠ .inside → Function.update s.getLogger t pc t' = .inside →
      t' ≠ t ∧ s.getLogger t' = .inside := by
    intro pc t' hpc ht'
    by_cases heq : t' = t
    · subst heq
      rw [Function.update_self] at ht'
      exact absurd ht' hpc
    · rw [Function.update_of_ne heq] at ht'
      exact ⟨heq, ht'⟩
  cases hpc : s.getLogger t with
  | idle =>
    simp only [hpc] at hs
    split at hs
    · cases hs
      exact ⟨hstop, hfile, fun t' ht' => hget t' (hother _ t' (by simp) ht').2⟩
    · cases hs
      exact ⟨hstop, hfile, hget⟩
  | enter =>
    simp only [hpc] at hs
    split at hs
    · rename_i hcs
      cases hs
      rw [hcs] at hstop hfile hget
      refine ⟨by simpa using hstop, fun hf => by simpa using hfile hf, fun t' ht' => ?_⟩
      by_cases heq : t' = t
      · rw [heq]
      · simp only [Function.update_of_ne heq] at ht'
        simpa using hget t' ht'
    · cases hs
  | inside =>
    simp only [hpc, Option.some.injEq] at hs
    subst hs
    have hcs := hget t hpc
    rw [hcs] at hstop hfile hget
    refine ⟨by simpa using hstop, fun hf => by simpa using hfile hf, fun t' ht' => ?_⟩
    obtain ⟨hne, ht'⟩ := hother _ t' (by simp) ht'
    have := hget t' ht'
    simp only [Option.some.injEq, FactoryThread.getLogger.injEq] at this
    exact absurd this.symm hne

theorem lockOk_step (s : Factory) (e : FactoryEvent) (s' : Factory) (h : LockOk s)
    (hs : s.step e = some s') : LockOk s' := by
  cases e with
  | stop => exact lockOk_stop h hs
  | worker popped =>
    obtain ⟨pc, rfl⟩ := stepWorker_eq hs
    exact ⟨h.stop, h.file, h.getLogger⟩
  | file => exact lockOk_file h hs
  | getLogger t => exact lockOk_getLogger h hs

/-- `GetLogger` changes only the lock and its own position. -/
theorem stepGetLogger_frame {t : Nat} (hs : s.stepGetLogger t = some s') :
    s'.stop = s.stop ∧ s'.file = s.file ∧ s'.worker = s.worker ∧ s'.isExit = s.isExit ∧
      s'.isInit = s.isInit := by
  unfold stepGetLogger at hs
  split at hs
  · split at hs <;> cases hs <;> exact ⟨rfl, rfl, rfl, rfl, rfl⟩
  · split at hs
    · cases hs
      exact ⟨rfl, rfl, rfl, rfl, rfl⟩
    · cases hs
  · cases hs
    exact ⟨rfl, rfl, rfl, rfl, rfl⟩

/-- The file worker changes only the lock and its own position. -/
theorem stepFile_frame (hs : s.stepFile = some s') :
    s'.stop = s.stop ∧ s'.worker = s.worker ∧ s'.isExit = s.isExit ∧ s'.isInit = s.isInit := by
  unfold stepFile at hs
  split at hs
  case h_3 =>
    split at hs
    · cases hs
      exact ⟨rfl, rfl, rfl, rfl⟩
    · cases hs
  all_goals cases hs
  all_goals exact ⟨rfl, rfl, rfl, rfl⟩

/-! ### The flags and the first join by the progress of `StopLogger` -/

/-- How far `StopLogger` is. -/
def phase : StopPc → Nat
  | .idle => 0
  | .enter => 1
  | .setExit => 2
  | .setInit => 3
  | .joinWorker => 4
  | .joinFile => 5
  | .release => 6
  | .returned => 7

structure StopOk (s : Factory) : Prop where
  isInit : phase s.stop ≤ 3 → s.isInit = true
  isExit : 3 ≤ phase s.stop → s.isExit = true
  joined : 5 ≤ phase s.stop → s.worker = .ended

theorem stopOk_running (batch : Bool) : StopOk (running batch) :=
  ⟨fun _ => rfl, by simp [running, phase], by simp [running, phase]⟩

theorem stopOk_stop (h : StopOk s) (hs : s.stepStop = some s') : StopOk s' := by
  obtain ⟨hinit, hexit, hjoined⟩ := h
  unfold stepStop at hs
  cases hpc : s.stop with
  | idle =>
    rw [hpc] at hinit
    simp only [hpc, hinit (Nat.zero_le 3), if_true, Option.some.injEq] at hs
    subst hs
    exact ⟨fun _ => rfl, by simp [phase], by simp [phase]⟩
  | enter =>
    rw [hpc] at hinit
    simp only [hpc] at hs
    split at hs
    · cases hs
      exact ⟨fun _ => hinit (by decide), by simp [phase], by simp [phase]⟩
    · cases hs
  | setExit =>
    rw [hpc] at hinit
    simp only [hpc, Option.some.injEq] at hs
    subst hs
    exact ⟨fun _ => hinit (by decide), fun _ => rfl, by simp [phase]⟩
  | setInit =>
    rw [hpc] at hexit
    simp only [hpc, Option.some.injEq] at hs
    subst hs
    exact ⟨by simp [phase], fun _ => hexit (by decide), by simp [phase]⟩
  | joinWorker =>
    rw [hpc] at hexit
    simp only [hpc] at hs
    split at hs
    · rename_i hw
      cases hs
      exact ⟨by simp [phase], fun _ => hexit (by decide), fun _ => hw⟩
    · cases hs
  | joinFile =>
    rw [hpc] at hexit hjoined
    simp only [hpc] at hs
    split at hs
    · cases hs
      exact ⟨by simp [phase], fun _ => hexit (by decide), fun _ => hjoined (by decide)⟩
    · cases hs
  | release =>
    rw [hpc] at hexit hjoined
    simp only [hpc, Option.some.injEq] at hs
    subst hs
    exact ⟨by simp [phase], fun _ => hexit (by decide), fun _ => hjoined (by decide)⟩
  | returned => simp [hpc] at hs

theorem stopOk_step (s : Factory) (e : FactoryEvent) (s' : Factory) (h : StopOk s)
    (hs : s.step e = some s') : StopOk s' := by
  cases e with
  | stop => exact stopOk_stop h hs
  | worker popped =>
    have hne : s.worker ≠ .ended := by
      intro hw
      simp [step, stepWorker, hw] at hs
    obtain ⟨pc, rfl⟩ := stepWorker_eq hs
    exact ⟨h.isInit, h.isExit, fun hph => absurd (h.joined hph) hne⟩
  | file =>
    obtain ⟨hstop, hw, hexit, hinit⟩ := stepFile_frame hs
    constructor <;> simp only [hstop, hw, hexit, hinit]
    · exact h.isInit
    · exact h.isExit
    · exact h.joined
  | getLogger t =>
    obtain ⟨hstop, -, hw, hexit, hinit⟩ := stepGetLogger_frame hs
    constructor <;> simp only [hstop, hw, hexit, hinit]
    · exact h.isInit
    · exact h.isExit
    · exact h.joined

/-! ## Runs that meet the condition -/

/-- The file worker meets a test of `_isExit` before the lock. -/
def Outside (pc : FileThreadPc) : Prop := pc = .testBreak ∨ pc = .testWhile ∨ pc = .ended

structure Safe (s : Factory) : Prop where
  lock : LockOk s
  outside : exiting s.stop = true → s.isExit = true ∧ Outside s.file

theorem safe_running (batch : Bool) : Safe (running batch) :=
  ⟨lockOk_running batch, by simp [running, exiting]⟩

theorem safe_stop (h : Safe s) (hc : s.AwakeAtExit .stop) (hs : s.stepStop = some s') :
    exiting s'.stop = true → s'.isExit = true ∧ Outside s'.file := by
  have hout := h.outside
  unfold stepStop at hs
  cases hpc : s.stop with
  | idle =>
    simp only [hpc, Option.some.injEq] at hs
    subst hs
    cases s.isInit <;> simp [exiting]
  | enter =>
    simp only [hpc] at hs
    split at hs
    · cases hs
      simp [exiting]
    · cases hs
  | setExit =>
    simp only [hpc, Option.some.injEq] at hs
    subst hs
    intro _
    refine ⟨rfl, ?_⟩
    obtain ⟨hsleep, henter⟩ := hc hpc
    have hcs : s.csFactory = some .stop := h.lock.stop.mpr (by rw [hpc]; rfl)
    have hflush : s.file ≠ .flush := by
      intro hf
      rw [h.lock.file hf] at hcs
      cases hcs
    unfold Outside
    cases hf : s.file <;> simp_all
  | setInit =>
    simp only [hpc, Option.some.injEq] at hs
    subst hs
    rw [hpc] at hout
    exact fun _ => hout rfl
  | joinWorker | joinFile =>
    simp only [hpc] at hs
    split at hs
    · cases hs
      rw [hpc] at hout
      exact fun _ => hout rfl
    · cases hs
  | release =>
    simp only [hpc, Option.some.injEq] at hs
    subst hs
    simp [exiting]
  | returned => simp [hpc] at hs

theorem safe_file (h : Safe s) (hs : s.stepFile = some s') :
    exiting s'.stop = true → s'.isExit = true ∧ Outside s'.file := by
  obtain ⟨hstop, -, hsame, -⟩ := stepFile_frame hs
  intro hexit
  rw [hstop] at hexit
  obtain ⟨hflag, hout⟩ := h.outside hexit
  refine ⟨hsame.trans hflag, ?_⟩
  unfold stepFile at hs
  rcases hout with hf | hf | hf
  · simp only [hf, hflag, if_true, Option.some.injEq] at hs
    subst hs
    exact .inr (.inr rfl)
  · simp only [hf, hflag, if_true, Option.some.injEq] at hs
    subst hs
    exact .inr (.inr rfl)
  · simp [hf] at hs

theorem safe_step (s : Factory) (e : FactoryEvent) (s' : Factory) (h : Safe s)
    (hc : s.AwakeAtExit e) (hs : s.step e = some s') : Safe s' := by
  refine ⟨lockOk_step s e s' h.lock hs, ?_⟩
  cases e with
  | stop => exact safe_stop h hc hs
  | worker popped =>
    obtain ⟨pc, rfl⟩ := stepWorker_eq hs
    exact h.outside
  | file => exact safe_file h hs
  | getLogger t =>
    obtain ⟨hstop, hfile, -, hexit, -⟩ := stepGetLogger_frame hs
    rw [hstop, hfile, hexit]
    exact h.outside

/-- `workerThread` always has a step until it ends. -/
theorem stepWorker_enabled (h : s.worker ≠ .ended) (popped : Bool) :
    s.stepWorker popped ≠ none := by
  unfold stepWorker
  cases hw : s.worker <;> simp_all

theorem safe_not_deadlocked (s : Factory) (h : Safe s) : ¬ s.Deadlocked := by
  rintro ⟨-, ⟨-, hw, hnone⟩ | ⟨hstop, hf, hnone⟩⟩
  · exact stepWorker_enabled hw true (hnone true)
  · obtain ⟨-, hout⟩ := h.outside (by rw [hstop]; rfl)
    rcases hout with hpc | hpc | hpc
    · simp [step, stepFile, hpc] at hnone
    · simp [step, stepFile, hpc] at hnone
    · exact hf hpc

/-! ## The other runs -/

/-- `StopLogger` has the lock and waits, or will wait, for a file worker that needs it. -/
structure Doomed (s : Factory) : Prop where
  lock : LockOk s
  flag : s.isExit = true
  stop : s.stop = .setInit ∨ s.stop = .joinWorker ∨ s.stop = .joinFile
  file : s.file = .sleep ∨ s.file = .enter

theorem Doomed.csFactory (h : Doomed s) : s.csFactory = some .stop := by
  apply h.lock.stop.mpr
  rcases h.stop with hpc | hpc | hpc <;> rw [hpc] <;> rfl

theorem doomed_of_asleep (h : LockOk s) (hc : ¬ s.AwakeAtExit .stop)
    (hs : s.step .stop = some s') : Doomed s' := by
  have hlock := lockOk_step s .stop s' h hs
  unfold AwakeAtExit at hc
  simp only [Classical.not_imp, not_and_or, not_not] at hc
  obtain ⟨hpc, hfile⟩ := hc
  simp only [step, stepStop, hpc, Option.some.injEq] at hs
  subst hs
  exact ⟨hlock, rfl, .inl rfl, hfile⟩

theorem doomed_step (s : Factory) (e : FactoryEvent) (s' : Factory) (h : Doomed s)
    (hs : s.step e = some s') : Doomed s' := by
  have hlock := lockOk_step s e s' h.lock hs
  cases e with
  | stop =>
    simp only [step, stepStop] at hs
    rcases h.stop with hpc | hpc | hpc
    · simp only [hpc, Option.some.injEq] at hs
      subst hs
      exact ⟨hlock, h.flag, .inr (.inl rfl), h.file⟩
    · simp only [hpc] at hs
      split at hs
      · cases hs
        exact ⟨hlock, h.flag, .inr (.inr rfl), h.file⟩
      · cases hs
    · rcases h.file with hf | hf <;> simp [hpc, hf] at hs
  | worker popped =>
    obtain ⟨pc, rfl⟩ := stepWorker_eq hs
    exact ⟨hlock, h.flag, h.stop, h.file⟩
  | file =>
    simp only [step, stepFile] at hs
    rcases h.file with hf | hf
    · simp only [hf, Option.some.injEq] at hs
      subst hs
      exact ⟨hlock, h.flag, h.stop, .inr rfl⟩
    · simp [hf, h.csFactory] at hs
  | getLogger t =>
    obtain ⟨hstop, hfile, -, hexit, -⟩ := stepGetLogger_frame hs
    exact ⟨hlock, hexit.trans h.flag, by rw [hstop]; exact h.stop, by rw [hfile]; exact h.file⟩

/-- The steps that `workerThread` takes to its end once `_isExit` is set. -/
def roundsToEnd : WorkerThreadPc → Nat
  | .tryPop => 3
  | .testLoop => 2
  | .sleep => 4
  | .testBreak => 1
  | .writeData => 2
  | .testWhile => 1
  | .ended => 0

theorem run_worker_ends (h : s.isExit = true) :
    run step s (List.replicate (roundsToEnd s.worker) (.worker false)) =
      some { s with worker := .ended } := by
  obtain ⟨isExit, isInit, cs, stop, worker, file, get⟩ := s
  cases h
  cases worker <;> rfl

/-- From a doomed state the worker ends, `StopLogger` goes on to the second join and the file
worker to the lock. -/
theorem doomed_deadlocks (h : Doomed s) :
    ∃ es t, run step s es = some t ∧ t.Deadlocked := by
  have hjoin : ∃ es t, run step s es = some t ∧ Doomed t ∧ t.stop = .joinFile := by
    have hlast : ∀ m : Factory, Doomed m → m.stop = .joinWorker →
        ∃ es t, run step m es = some t ∧ Doomed t ∧ t.stop = .joinFile := by
      intro m hm hpc
      have hend := run_worker_ends hm.flag
      have hrun : run step m (List.replicate (roundsToEnd m.worker) (.worker false) ++ [.stop]) =
          some { m with worker := .ended, stop := .joinFile } :=
        run_snoc.mpr ⟨_, hend, by simp [step, stepStop, hpc]⟩
      exact ⟨_, _, hrun, run_invariant doomed_step hm hrun, rfl⟩
    rcases h.stop with hpc | hpc | hpc
    · have hstep : s.step .stop = some { s with isInit := false, stop := .joinWorker } := by
        simp [step, stepStop, hpc]
      obtain ⟨es, t, hrun, ht⟩ := hlast _ (doomed_step s _ _ h hstep) rfl
      exact ⟨.stop :: es, t, run_cons.mpr ⟨_, hstep, hrun⟩, ht⟩
    · exact hlast s h hpc
    · exact ⟨[], s, rfl, h, hpc⟩
  obtain ⟨es, t, hrun, ht, hpc⟩ := hjoin
  rcases ht.file with hf | hf
  · have hstep : t.step .file = some { t with file := .enter } := by simp [step, stepFile, hf]
    have hrun' := run_snoc.mpr ⟨t, hrun, hstep⟩
    refine ⟨_, _, hrun', ht.csFactory, .inr ⟨hpc, ?_, ?_⟩⟩
    · simp
    · simp [step, stepFile, ht.csFactory]
  · refine ⟨es, t, hrun, ht.csFactory, .inr ⟨hpc, ?_, ?_⟩⟩
    · simp [hf]
    · simp [step, stepFile, hf, ht.csFactory]

/-- **`StopLogger` cannot deadlock with the workers if the file worker is not between its first
test of `_isExit` and `_csFactory` when the flag is set**; from every reachable state where it is,
setting the flag leads on to a deadlock. -/
theorem stop_not_deadlocked (batch : Bool) (es : List FactoryEvent) :
    (Meets step AwakeAtExit (running batch) es →
      Always step (fun s => ¬ s.Deadlocked) (running batch) es) ∧
    ∀ s s', run step (running batch) es = some s → ¬ s.AwakeAtExit .stop →
      s.step .stop = some s' → ∃ es' t, run step s' es' = some t ∧ t.Deadlocked := by
  refine ⟨always_of_meets safe_not_deadlocked safe_step es _ (safe_running batch), ?_⟩
  intro s s' hrun hc hs
  have hlock := run_invariant lockOk_step (lockOk_running batch) hrun
  exact doomed_deadlocks (doomed_of_asleep hlock hc hs)

/-- A stop while the file worker is at its first test, and one while it sleeps. -/
theorem stop_awake_and_asleep :
    Always step (fun s => ¬ s.Deadlocked) (running true) [.stop, .stop, .stop, .file] ∧
      ∃ es t, run step (running true) ([.file, .stop, .stop, .stop] ++ es) = some t ∧
        t.Deadlocked := by
  refine ⟨(stop_not_deadlocked true _).1 ?_, ?_⟩
  · refine meets_cons rfl (fun h => by cases h) (meets_cons rfl (fun h => by cases h)
      (meets_cons rfl (fun _ => ⟨by decide, by decide⟩) (meets_cons rfl trivial trivial)))
  · obtain ⟨es, t, hrun, ht⟩ := (stop_not_deadlocked true [.file, .stop, .stop]).2 _ _ rfl
      (fun h => (h rfl).1 rfl) rfl
    exact ⟨es, t, run_append.mpr ⟨_, rfl, hrun⟩, ht⟩

/-- After such a step `StopLogger` never returns, whatever the threads do. -/
theorem stop_never_returns (h : LockOk s) (hc : ¬ s.AwakeAtExit .stop)
    (hs : s.step .stop = some s') {es : List FactoryEvent} {t : Factory}
    (hrun : run step s' es = some t) : t.stop ≠ .returned := by
  have hdoomed := run_invariant doomed_step (doomed_of_asleep h hc hs) hrun
  rcases hdoomed.stop with hpc | hpc | hpc <;> simp [hpc]

/-- The file worker is asleep when the flag is set, wakes up and finds the lock taken. -/
theorem asleep_deadlocks :
    ¬ Always step (fun s => ¬ s.Deadlocked) (running true)
      [.file, .stop, .stop, .stop, .stop, .worker false, .worker false, .worker false, .stop,
        .file] := by
  intro h
  refine h _ _ (List.prefix_refl _) rfl ⟨rfl, .inr ⟨rfl, ?_, rfl⟩⟩
  decide

end Factory

end IMonPlatform.Logger
