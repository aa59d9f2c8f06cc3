import IMonPlatform.Format.Parse
import IMonPlatform.Util.RoundRobinAllocator

/-!
# Asynchronous logging

A `Log` call takes a context out of the pool, fills it by several stores and pushes its address;
the worker pops an address, hands it to `CLogUtil::WriteData` and gives the context back.  Each
locked section and each store of a thread is a step of its own, so a run is an interleaving of any
number of `Log` calls with the worker.

* `AsyncLog.step` — one step of a thread or of the worker, from the first `InitLogger` on.
* `AsyncLog.Intact` — what was passed to `WriteData` is a prefix of what was pushed, contents
  included, and nothing is checked out twice.
* `AsyncLog.Owned` — a checked out context has exactly one owner: a thread, the queue or the
  worker.
* `async_records_intact` — every run is `Intact`.
-/

set_option autoImplicit false

namespace IMonPlatform.Logger

open Transition
open Format (CharT)

/-- `LOG_CONTEXT`; buffers and the configuration are pointers of the context's own. -/
structure LogContext where
  logLevel : Nat
  logDataA : Option (List CharT)
  logDataW : Option (List CharT)
  isUnicodeData : Bool
  loggerConfiguration : Option Nat
  deriving DecidableEq

/-- A call of `Log` by a logger with its configuration's address. -/
structure LogCall where
  isUnicodeData : Bool
  loggerConfiguration : Nat
  currentLogLevel : Nat

/-- The stores of `retrieveLOGContext` and `Log` before the text is rendered. -/
inductive ContextStore where
  | isUnicodeData
  | loggerConfiguration
  | clearA
  | clearW
  | logLevel

namespace ContextStore

/-- In the order of the source. -/
def all : List ContextStore := [.isUnicodeData, .loggerConfiguration, .clearA, .clearW, .logLevel]

/-- `memset` of a buffer that is there. -/
def cleared (data : Option (List CharT)) : Option (List CharT) :=
  data.map fun cells => List.replicate cells.length 0

def apply (call : LogCall) (lc : LogContext) : ContextStore → LogContext
  | .isUnicodeData => { lc with isUnicodeData := call.isUnicodeData }
  | .loggerConfiguration => { lc with loggerConfiguration := some call.loggerConfiguration }
  | .clearA => { lc with logDataA := cleared lc.logDataA }
  | .clearW => { lc with logDataW := cleared lc.logDataW }
  | .logLevel => { lc with logLevel := call.currentLogLevel }

end ContextStore

/-- Where a thread is in `Log`. -/
inductive LogPc where
  | idle
  /-- In the loop of `CheckOutLOGContext`. -/
  | checkOut (call : LogCall)
  /-- Filling a context, with the stores before rendering still to come. -/
  | filling (o : Nat) (call : LogCall) (stores : List ContextStore)

/-- The context a thread fills. -/
def LogPc.context : LogPc → Option Nat
  | .idle => none
  | .checkOut _ => none
  | .filling o _ _ => some o

inductive WorkerPc where
  | idle
  /-- Behind `Try_and_pop`. -/
  | popped (o : Nat)
  /-- In `WriteData`, before its `CheckIn`. -/
  | writing (o : Nat)

/-- The context the worker has. -/
def WorkerPc.context : WorkerPc → Option Nat
  | .idle => none
  | .popped o => some o
  | .writing o => some o

/-- The context in the worker's hand, not yet passed on. -/
@[simp] def WorkerPc.hand : WorkerPc → List Nat
  | .idle => []
  | .popped o => [o]
  | .writing _ => []

structure AsyncLog where
  rbAllocator : CRoundRobinAllocator
  contexts : Nat → LogContext
  threads : Nat → LogPc
  queue : List Nat
  worker : WorkerPc
  /-- The contexts checked out and not yet checked in. -/
  checkedOut : List Nat
  /-- What was pushed, with the contents at that time. -/
  pushed : List (Nat × LogContext)
  /-- What was passed to `WriteData`, with the contents at that time. -/
  passed : List (Nat × LogContext)

inductive AsyncEvent where
  | log (t : Nat) (call : LogCall)
  | checkOut (t : Nat)
  | store (t : Nat)
  /-- The renderers and `appendNewLineToLOGDATA` leave this in the buffer. -/
  | render (t : Nat) (cells : List CharT)
  | push (t : Nat)
  | pop
  | writeData
  | checkIn

namespace AsyncLog

/-- `tagLogContext()`. -/
def newContext : LogContext := ⟨0, none, none, false, none⟩

/-- Behind the first `InitLogger`. -/
def initLogger : AsyncLog where
  rbAllocator := ((CRoundRobinAllocator.create 256).createPool 0).1
  contexts := fun _ => newContext
  threads := fun _ => .idle
  queue := []
  worker := .idle
  checkedOut := []
  pushed := []
  passed := []

def setThread (s : AsyncLog) (t : Nat) (pc : LogPc) : AsyncLog :=
  { s with threads := Function.update s.threads t pc }

def setContext (s : AsyncLog) (o : Nat) (lc : LogContext) : AsyncLog :=
  { s with contexts := Function.update s.contexts o lc }

/-- The text goes to the buffer of the call's character type. -/
def rendered (call : LogCall) (cells : List CharT) (lc : LogContext) : LogContext :=
  if call.isUnicodeData then { lc with logDataW := some cells }
  else { lc with logDataA := some cells }

def checkOut (s : AsyncLog) (t : Nat) : Option AsyncLog :=
  match s.threads t, s.rbAllocator.checkOut with
  | .checkOut call, (.object o, a) =>
    some ({ s with rbAllocator := a, checkedOut := o :: s.checkedOut }.setThread t
      (.filling o call ContextStore.all))
  -- `SleepEx`, then the loop goes on.
  | .checkOut _, (.null, a) => some { s with rbAllocator := a }
  | _, _ => none

def step (s : AsyncLog) : AsyncEvent → Option AsyncLog
  | .log t call =>
    match s.threads t with
    | .idle => some (s.setThread t (.checkOut call))
    | _ => none
  | .checkOut t => s.checkOut t
  | .store t =>
    match s.threads t with
    | .filling o call (store :: stores) =>
      some ((s.setContext o (store.apply call (s.contexts o))).setThread t
        (.filling o call stores))
    | _ => none
  | .render t cells =>
    match s.threads t with
    | .filling o call [] => some (s.setContext o (rendered call cells (s.contexts o)))
    | _ => none
  | .push t =>
    match s.threads t with
    | .filling o _ [] =>
      some ({ s with
        queue := s.queue ++ [o]
        pushed := s.pushed ++ [(o, s.contexts o)] }.setThread t .idle)
    | _ => none
  | .pop =>
    match s.worker, s.queue with
    | .idle, o :: queue => some { s with queue := queue, worker := .popped o }
    | _, _ => none
  | .writeData =>
    match s.worker with
    | .popped o => some { s with worker := .writing o, passed := s.passed ++ [(o, s.contexts o)] }
    | _ => none
  | .checkIn =>
    match s.worker with
    | .writing o =>
      some { s with
        rbAllocator := s.rbAllocator.checkIn (some o)
        worker := .idle
        checkedOut := s.checkedOut.erase o }
    | _ => none

/-- Contexts with their contents now. -/
def withContents (s : AsyncLog) (os : List Nat) : List (Nat × LogContext) :=
  os.map fun o => (o, s.contexts o)

/-- Records are passed to `WriteData` once, in the order and with the contents of their push, keep
these contents until the `CheckIn`, and no context is checked out twice. -/
structure Intact (s : AsyncLog) : Prop where
  in_order : s.pushed = s.passed ++ s.withContents (s.worker.hand ++ s.queue)
  writing : ∀ o, s.worker = .writing o → s.passed.getLast? = some (o, s.contexts o)
  checkedOut_nodup : s.checkedOut.Nodup

/-! ## Ownership -/

/-- Every checked out context is marked in the pool's table and has one owner. -/
structure Owned (s : AsyncLog) : Prop where
  poolSize_eq : s.rbAllocator.poolSize = 256
  vecPool_eq : s.rbAllocator.vecPool = List.range s.rbAllocator.poolSize
  using_table : ∀ o ∈ s.checkedOut, o < 256 ∧ s.rbAllocator.mapUsingTable o = true
  thread_out : ∀ t o, (s.threads t).context = some o → o ∈ s.checkedOut
  queue_out : ∀ o ∈ s.queue, o ∈ s.checkedOut
  worker_out : ∀ o, s.worker.context = some o → o ∈ s.checkedOut
  thread_thread : ∀ t t' o, (s.threads t).context = some o → (s.threads t').context = some o →
    t = t'
  thread_queue : ∀ t o, (s.threads t).context = some o → o ∉ s.queue
  thread_worker : ∀ t o, (s.threads t).context = some o → s.worker.context ≠ some o
  queue_nodup : s.queue.Nodup
  worker_queue : ∀ o, s.worker.context = some o → o ∉ s.queue
  intact : s.Intact

theorem owned_initLogger : Owned initLogger where
  poolSize_eq := by rw [initLogger, CRoundRobinAllocator.createPool_eq]; rfl
  vecPool_eq := by
    rw [initLogger, CRoundRobinAllocator.createPool_eq]
    simp [CRoundRobinAllocator.create]
  using_table := by simp [initLogger]
  thread_out := by simp [initLogger, LogPc.context]
  queue_out := by simp [initLogger]
  worker_out := by simp [initLogger, WorkerPc.context]
  thread_thread := by simp [initLogger, LogPc.context]
  thread_queue := by simp [initLogger, LogPc.context]
  thread_worker := by simp [initLogger, LogPc.context]
  queue_nodup := by simp [initLogger]
  worker_queue := by simp [initLogger, WorkerPc.context]
  intact := ⟨by simp [initLogger, withContents], by simp [initLogger], by simp [initLogger]⟩

variable {s s' : AsyncLog}

/-- A store to a context that is neither queued nor with the worker changes no record. -/
theorem Intact.setContext (h : Intact s) {o : Nat} (hq : o ∉ s.queue)
    (hw : s.worker.context ≠ some o) (lc : LogContext) : Intact (s.setContext o lc) := by
  have hhand : o ∉ s.worker.hand := by
    cases hwk : s.worker <;> simp_all [WorkerPc.context]
    exact fun h => hw h.symm
  refine ⟨?_, ?_, h.checkedOut_nodup⟩
  · have hsame : (s.setContext o lc).withContents (s.worker.hand ++ s.queue) =
        s.withContents (s.worker.hand ++ s.queue) := by
      apply List.map_congr_left
      intro o' ho'
      have hne : o' ≠ o := by
        rintro rfl
        exact (List.mem_append.mp ho').elim hhand hq
      simp [AsyncLog.setContext, Function.update_of_ne hne]
    exact h.in_order.trans (by rw [← hsame]; rfl)
  · intro o' ho'
    have hne : o' ≠ o := by
      rintro rfl
      apply hw
      rw [show s.worker = .writing o' from ho']
      rfl
    have := h.writing o' ho'
    simpa [AsyncLog.setContext, Function.update_of_ne hne] using this

theorem Owned.setContext (h : Owned s) {t o : Nat} (ht : (s.threads t).context = some o)
    (lc : LogContext) : Owned (s.setContext o lc) :=
  { h with intact := h.intact.setContext (h.thread_queue t o ht) (h.thread_worker t o ht) lc }

/-- A thread moves on with the context it has. -/
theorem Owned.setThread (h : Owned s) {t : Nat} {pc : LogPc}
    (hpc : pc.context = (s.threads t).context) : Owned (s.setThread t pc) := by
  have hsame : ∀ t', ((s.setThread t pc).threads t').context = (s.threads t').context := by
    intro t'
    by_cases ht : t' = t
    · subst ht
      simp [AsyncLog.setThread, hpc]
    · simp [AsyncLog.setThread, Function.update_of_ne ht]
  exact { h with
    thread_out := fun t' o ho => h.thread_out t' o (hsame t' ▸ ho)
    thread_thread := fun t₁ t₂ o h₁ h₂ => h.thread_thread t₁ t₂ o (hsame t₁ ▸ h₁) (hsame t₂ ▸ h₂)
    thread_queue := fun t' o ho => h.thread_queue t' o (hsame t' ▸ ho)
    thread_worker := fun t' o ho => h.thread_worker t' o (hsame t' ▸ ho)
    intact := ⟨h.intact.in_order, h.intact.writing, h.intact.checkedOut_nodup⟩ }

/-- What a thread holds after it moved. -/
theorem context_setThread {t t' o : Nat} {pc : LogPc}
    (h : ((s.setThread t pc).threads t').context = some o) :
    (t' = t ∧ pc.context = some o) ∨ (t' ≠ t ∧ (s.threads t').context = some o) := by
  by_cases ht : t' = t
  · subst ht
    exact .inl ⟨rfl, by simpa [AsyncLog.setThread] using h⟩
  · exact .inr ⟨ht, by simpa [AsyncLog.setThread, Function.update_of_ne ht] using h⟩

/-! ### Every step keeps it -/

theorem owned_log (h : Owned s) {t : Nat} {call : LogCall}
    (hs : s.step (.log t call) = some s') : Owned s' := by
  simp only [step] at hs
  split at hs
  · rename_i ht
    cases hs
    exact h.setThread (by rw [ht]; rfl)
  · cases hs

/-- A context that nobody has becomes the thread's. -/
theorem Owned.handOut (h : Owned s) {a : CRoundRobinAllocator} {t o : Nat} {call : LogCall}
    (hsize : a.poolSize = s.rbAllocator.poolSize) (hpool : a.vecPool = s.rbAllocator.vecPool)
    (htable : a.mapUsingTable = Function.update s.rbAllocator.mapUsingTable o true)
    (hlt : o < 256) (hfree : o ∉ s.checkedOut) :
    Owned ({ s with rbAllocator := a, checkedOut := o :: s.checkedOut }.setThread t
      (.filling o call ContextStore.all)) := by
  constructor
  case poolSize_eq => exact hsize.trans h.poolSize_eq
  case vecPool_eq =>
    show a.vecPool = List.range a.poolSize
    rw [hpool, hsize]
    exact h.vecPool_eq
  case using_table =>
    show ∀ o' ∈ o :: s.checkedOut, o' < 256 ∧ a.mapUsingTable o' = true
    rw [htable]
    intro o' ho'
    rcases List.mem_cons.mp ho' with rfl | ho'
    · exact ⟨hlt, Function.update_self ..⟩
    · have hne : o' ≠ o := fun heq => hfree (heq ▸ ho')
      rw [Function.update_of_ne hne]
      exact h.using_table o' ho'
  case thread_out =>
    intro t' o' ho'
    rcases context_setThread ho' with ⟨-, hpc⟩ | ⟨-, ho'⟩
    · cases hpc
      exact List.mem_cons_self
    · exact List.mem_cons_of_mem _ (h.thread_out t' o' ho')
  case queue_out => exact fun o' ho' => List.mem_cons_of_mem _ (h.queue_out o' ho')
  case worker_out => exact fun o' ho' => List.mem_cons_of_mem _ (h.worker_out o' ho')
  case thread_thread =>
    intro t₁ t₂ o' h₁ h₂
    rcases context_setThread h₁ with ⟨heq₁, hpc⟩ | ⟨-, ho₁⟩
    · cases hpc
      rcases context_setThread h₂ with ⟨heq₂, -⟩ | ⟨-, ho₂⟩
      · exact heq₁.trans heq₂.symm
      · exact absurd (h.thread_out t₂ _ ho₂) hfree
    · rcases context_setThread h₂ with ⟨-, hpc⟩ | ⟨-, ho₂⟩
      · cases hpc
        exact absurd (h.thread_out t₁ _ ho₁) hfree
      · exact h.thread_thread t₁ t₂ o' ho₁ ho₂
  case thread_queue =>
    intro t' o' ho'
    rcases context_setThread ho' with ⟨-, hpc⟩ | ⟨-, ho'⟩
    · cases hpc
      exact fun hq => hfree (h.queue_out _ hq)
    · exact h.thread_queue t' o' ho'
  case thread_worker =>
    intro t' o' ho'
    rcases context_setThread ho' with ⟨-, hpc⟩ | ⟨-, ho'⟩
    · cases hpc
      exact fun hw => hfree (h.worker_out _ hw)
    · exact h.thread_worker t' o' ho'
  case queue_nodup => exact h.queue_nodup
  case worker_queue => exact h.worker_queue
  case intact =>
    exact ⟨h.intact.in_order, h.intact.writing,
      List.nodup_cons.mpr ⟨hfree, h.intact.checkedOut_nodup⟩⟩

/-- `CheckOut` hands out a context that nobody has: those checked out are marked in the table. -/
theorem owned_checkOut (h : Owned s) {t : Nat} (hs : s.step (.checkOut t) = some s') :
    Owned s' := by
  have hpos : 0 < s.rbAllocator.poolSize := by rw [h.poolSize_eq]; decide
  have hlt := CRoundRobinAllocator.cursor_lt hpos
  simp only [step, checkOut] at hs
  unfold CRoundRobinAllocator.checkOut at hs
  cases ht : s.threads t with
  | idle => simp [ht] at hs
  | filling o call stores => simp [ht] at hs
  | checkOut call =>
    cases htable : s.rbAllocator.mapUsingTable s.rbAllocator.cursor with
    | true =>
      rw [if_pos htable] at hs
      simp only [ht, Option.some.injEq] at hs
      subst hs
      exact { h with intact := ⟨h.intact.in_order, h.intact.writing, h.intact.checkedOut_nodup⟩ }
    | false =>
      rw [if_neg (by rw [htable]; decide), CRoundRobinAllocator.cell_range h.vecPool_eq hlt] at hs
      simp only [ht, Option.some.injEq] at hs
      subst hs
      refine h.handOut rfl rfl rfl (h.poolSize_eq ▸ hlt) fun hmem => ?_
      rw [(h.using_table _ hmem).2] at htable
      cases htable

theorem owned_store (h : Owned s) {t : Nat} (hs : s.step (.store t) = some s') : Owned s' := by
  simp only [step] at hs
  split at hs
  · rename_i o call store stores ht
    cases hs
    have hholds : (s.threads t).context = some o := by rw [ht]; rfl
    exact (h.setContext hholds _).setThread hholds.symm
  · cases hs

theorem owned_render (h : Owned s) {t : Nat} {cells : List CharT}
    (hs : s.step (.render t cells) = some s') : Owned s' := by
  simp only [step] at hs
  split at hs
  · rename_i o call ht
    cases hs
    exact h.setContext (by rw [ht]; rfl) _
  · cases hs

/-- The thread's context becomes the last of the queue. -/
theorem owned_push (h : Owned s) {t : Nat} (hs : s.step (.push t) = some s') : Owned s' := by
  simp only [step] at hs
  split at hs
  · rename_i o call ht
    cases hs
    have hholds : (s.threads t).context = some o := by rw [ht]; rfl
    have hother : ∀ t' o', ((s.setThread t .idle).threads t').context = some o' →
        (s.threads t').context = some o' ∧ o' ≠ o := by
      intro t' o' ho'
      rcases context_setThread ho' with ⟨-, hpc⟩ | ⟨hne, ho'⟩
      · cases hpc
      · refine ⟨ho', ?_⟩
        rintro rfl
        exact hne (h.thread_thread t' t _ ho' hholds)
    constructor
    case poolSize_eq => exact h.poolSize_eq
    case vecPool_eq => exact h.vecPool_eq
    case using_table => exact h.using_table
    case thread_out => exact fun t' o' ho' => h.thread_out t' o' (hother t' o' ho').1
    case queue_out =>
      intro o' ho'
      rcases List.mem_append.mp ho' with ho' | ho'
      · exact h.queue_out o' ho'
      · rw [List.mem_singleton.mp ho']
        exact h.thread_out t o hholds
    case worker_out => exact h.worker_out
    case thread_thread =>
      exact fun t₁ t₂ o' h₁ h₂ => h.thread_thread t₁ t₂ o' (hother t₁ o' h₁).1 (hother t₂ o' h₂).1
    case thread_queue =>
      intro t' o' ho' hq
      rcases List.mem_append.mp hq with hq | hq
      · exact h.thread_queue t' o' (hother t' o' ho').1 hq
      · exact (hother t' o' ho').2 (List.mem_singleton.mp hq)
    case thread_worker => exact fun t' o' ho' => h.thread_worker t' o' (hother t' o' ho').1
    case queue_nodup =>
      apply List.nodup_append.mpr
      refine ⟨h.queue_nodup, List.nodup_singleton o, ?_⟩
      rintro o' ho' _ hmem rfl
      rw [List.mem_singleton.mp hmem] at ho'
      exact h.thread_queue t o hholds ho'
    case worker_queue =>
      intro o' ho' hq
      rcases List.mem_append.mp hq with hq | hq
      · exact h.worker_queue o' ho' hq
      · rw [List.mem_singleton.mp hq] at ho'
        exact h.thread_worker t o hholds ho'
    case intact =>
      refine ⟨?_, h.intact.writing, h.intact.checkedOut_nodup⟩
      have := h.intact.in_order
      simp only [setThread, withContents, List.map_append] at this ⊢
      rw [this]
      simp
  · cases hs

theorem owned_pop (h : Owned s) (hs : s.step .pop = some s') : Owned s' := by
  simp only [step] at hs
  split at hs
  · rename_i o queue hw hq
    cases hs
    have hsub : ∀ o' ∈ queue, o' ∈ s.queue := by
      intro o' ho'
      rw [hq]
      exact List.mem_cons_of_mem o ho'
    have hmem : o ∈ s.queue := by
      rw [hq]
      exact List.mem_cons_self
    have hnodup := h.queue_nodup
    rw [hq] at hnodup
    obtain ⟨hnot, hnodup⟩ := List.nodup_cons.mp hnodup
    constructor
    case poolSize_eq => exact h.poolSize_eq
    case vecPool_eq => exact h.vecPool_eq
    case using_table => exact h.using_table
    case thread_out => exact h.thread_out
    case queue_out => exact fun o' ho' => h.queue_out o' (hsub o' ho')
    case worker_out =>
      intro o' ho'
      cases ho'
      exact h.queue_out o hmem
    case thread_thread => exact h.thread_thread
    case thread_queue => exact fun t o' ho' hq' => h.thread_queue t o' ho' (hsub o' hq')
    case thread_worker =>
      intro t o' ho' hw'
      cases hw'
      exact h.thread_queue t o ho' hmem
    case queue_nodup => exact hnodup
    case worker_queue =>
      intro o' ho'
      cases ho'
      exact hnot
    case intact =>
      refine ⟨?_, by simp, h.intact.checkedOut_nodup⟩
      have := h.intact.in_order
      simp only [hw, hq, WorkerPc.hand, List.nil_append, List.singleton_append] at this ⊢
      exact this
  · cases hs

theorem owned_writeData (h : Owned s) (hs : s.step .writeData = some s') : Owned s' := by
  simp only [step] at hs
  split at hs
  · rename_i o hw
    cases hs
    have hcontext : s.worker.context = some o := by rw [hw]; rfl
    refine { h with
      worker_out := fun o' ho' => h.worker_out o' (hcontext.trans ho')
      thread_worker := fun t o' ho' hw' => h.thread_worker t o' ho' (hcontext.trans hw')
      worker_queue := fun o' ho' => h.worker_queue o' (hcontext.trans ho')
      intact := ⟨?_, ?_, h.intact.checkedOut_nodup⟩ }
    · have := h.intact.in_order
      simp only [hw, WorkerPc.hand, withContents, List.map_append, List.map_cons,
        List.map_nil, List.nil_append] at this ⊢
      rw [this, List.append_assoc]
    · intro o' ho'
      cases ho'
      simp
  · cases hs

/-- The worker's context goes back to the pool: only its own mark is cleared. -/
theorem owned_checkIn (h : Owned s) (hs : s.step .checkIn = some s') : Owned s' := by
  simp only [step] at hs
  split at hs
  · rename_i o hw
    cases hs
    have hcontext : s.worker.context = some o := by rw [hw]; rfl
    have hout := h.worker_out o hcontext
    have hlt : o < s.rbAllocator.poolSize := by
      rw [h.poolSize_eq]
      exact (h.using_table o hout).1
    have hnodup := h.intact.checkedOut_nodup
    have hkeep : ∀ o' ∈ s.checkedOut, o' ≠ o → o' ∈ s.checkedOut.erase o :=
      fun o' ho' hne => (List.mem_erase_of_ne hne).mpr ho'
    rw [CRoundRobinAllocator.checkIn_range h.vecPool_eq hlt]
    constructor
    case poolSize_eq => exact h.poolSize_eq
    case vecPool_eq => exact h.vecPool_eq
    case using_table =>
      intro o' ho'
      obtain ⟨hne, ho'⟩ := (List.Nodup.mem_erase_iff hnodup).mp ho'
      refine ⟨(h.using_table o' ho').1, ?_⟩
      exact (Function.update_of_ne hne ..).trans (h.using_table o' ho').2
    case thread_out =>
      intro t o' ho'
      apply hkeep o' (h.thread_out t o' ho')
      rintro rfl
      exact h.thread_worker t _ ho' hcontext
    case queue_out =>
      intro o' ho'
      apply hkeep o' (h.queue_out o' ho')
      rintro rfl
      exact h.worker_queue _ hcontext ho'
    case worker_out => simp [WorkerPc.context]
    case thread_thread => exact h.thread_thread
    case thread_queue => exact h.thread_queue
    case thread_worker => simp [WorkerPc.context]
    case queue_nodup => exact h.queue_nodup
    case worker_queue => simp [WorkerPc.context]
    case intact =>
      refine ⟨?_, by simp, hnodup.erase o⟩
      have := h.intact.in_order
      rw [hw] at this
      exact this
  · cases hs

theorem owned_step (s : AsyncLog) (e : AsyncEvent) (s' : AsyncLog) (h : Owned s)
    (hs : s.step e = some s') : Owned s' := by
  cases e with
  | log t call => exact owned_log h hs
  | checkOut t => exact owned_checkOut h hs
  | store t => exact owned_store h hs
  | render t cells => exact owned_render h hs
  | push t => exact owned_push h hs
  | pop => exact owned_pop h hs
  | writeData => exact owned_writeData h hs
  | checkIn => exact owned_checkIn h hs

/-- What has been passed to `WriteData` is a prefix of what was pushed. -/
theorem Intact.passed_prefix (h : Intact s) : s.passed <+: s.pushed :=
  ⟨_, h.in_order.symm⟩

/-- **In every interleaving the records reach `WriteData` once, in the order of their pushes and
with the contents they were pushed with**, and no context is handed out while it is in use. -/
theorem async_records_intact (es : List AsyncEvent) :
    Always step (fun s => s.passed <+: s.pushed ∧ s.Intact) initLogger es := by
  intro es₁ s _ hrun
  have hintact := (run_invariant owned_step owned_initLogger hrun).intact
  exact ⟨hintact.passed_prefix, hintact⟩

end AsyncLog

end IMonPlatform.Logger
