import IMonPlatform.Util.ConcurrentQueue

/-!
# The destructor of `CGPBManagerV2`

`~CGPBManagerV2` sets `_isExit`, stops the two queues and joins the threads that loop on them: any
number in `dispatchReceiveMessage` and one in `dispatchSendMessage`.  A thread tests `_isExit` at
its loop head and behind `pop`, nowhere else.

* `WorkQueue` — a queue and the threads that loop on it; `WorkQueue.step` is one step of them.
* `Shutdown` — both queues and the destructor.
* `Releasable` — no thread stands before the end of its wait loop while nothing is left, and every
  blocked thread has a notification to come.
* `drain` — a releasable queue lets all its threads end.
* `stop_releases_iff` — a stopped `pop` returns exactly when something is left, and `join_all`
  returns without a further `push` exactly when both queues are releasable.
-/

set_option autoImplicit false

namespace IMonPlatform

open CConcurrentQueue Transition

variable {T : Type}

/-! ## State and steps -/

/-- A dispatch thread. -/
inductive LoopPc where
  /-- Before `while( _isExit == false )`. -/
  | head
  /-- In `pop`. -/
  | popping
  /-- Before the test of `_isExit` behind `pop`. -/
  | popped
  /-- With a packet. -/
  | working
  | ended
  deriving DecidableEq

/-- A queue with the threads `0, …, threads - 1` that loop on it. -/
structure WorkQueue (T : Type) where
  queue : CConcurrentQueue T
  threads : Nat
  loops : Nat → LoopPc

inductive WorkEvent (T : Type) where
  /-- The loop head of thread `t`; `busy`: `dispatchSendMessage` sleeps and starts again. -/
  | head (t : Nat) (busy : Bool)
  /-- A step within `pop`, a `push`, or a notification that follows it. -/
  | queue (e : QueueEvent T)
  /-- `pop` returns to the loop. -/
  | popped (t : Nat)
  | check (t : Nat)
  | done (t : Nat)

namespace WorkQueue

def create (threads : Nat) : WorkQueue T where
  queue := .create
  threads := threads
  loops t := if t < threads then .head else .ended

@[simp] def setLoop (w : WorkQueue T) (t : Nat) (pc : LoopPc) : WorkQueue T :=
  { w with loops := Function.update w.loops t pc }

def head (isExit : Bool) (w : WorkQueue T) (t : Nat) (busy : Bool) : Option (WorkQueue T) :=
  match w.loops t with
  | .head =>
    if isExit then some (w.setLoop t .ended)
    else if busy then some w
    else
      match w.queue.call t with
      | none => none
      | some q => some ({ w with queue := q }.setLoop t .popping)
  | _ => none

def popped (w : WorkQueue T) (t : Nat) : Option (WorkQueue T) :=
  match w.loops t, w.queue.pops t with
  | .popping, .returned _ => some (w.setLoop t .popped)
  | _, _ => none

def check (isExit : Bool) (w : WorkQueue T) (t : Nat) : Option (WorkQueue T) :=
  match w.loops t with
  | .popped => some (w.setLoop t (if isExit then .ended else .working))
  | _ => none

def done (w : WorkQueue T) (t : Nat) : Option (WorkQueue T) :=
  match w.loops t with
  | .working => some (w.setLoop t .head)
  | _ => none

/-- `pop` is called by the loop, and `stopAllPop` by the destructor. -/
def queueStep (w : WorkQueue T) (e : QueueEvent T) : Option (WorkQueue T) :=
  match e with
  | .call _ | .stop | .notifyAll => none
  | e =>
    match CConcurrentQueue.step w.queue e with
    | none => none
    | some q => some { w with queue := q }

def step (isExit : Bool) (w : WorkQueue T) : WorkEvent T → Option (WorkQueue T)
  | .head t busy => w.head isExit t busy
  | .queue e => w.queueStep e
  | .popped t => w.popped t
  | .check t => w.check isExit t
  | .done t => w.done t

end WorkQueue

/-- The destructor. -/
inductive DtorPc where
  | alive
  /-- `_isExit` is set. -/
  | exit
  /-- The flag of `_incomingQueue` is set. -/
  | incoming
  /-- Its poppers are notified. -/
  | notified
  /-- The flag of `_outgoingQueue` is set. -/
  | outgoing
  /-- Its poppers are notified: in `join_all`. -/
  | joining
  | joined
  deriving DecidableEq

structure Shutdown (T : Type) where
  isExit : Bool
  incomingQueue : WorkQueue T
  outgoingQueue : WorkQueue T
  dtor : DtorPc

inductive ShutdownEvent (T : Type) where
  | incoming (e : WorkEvent T)
  | outgoing (e : WorkEvent T)
  | dtor

namespace Shutdown

def create (nDispatcherThreadCount : Nat) : Shutdown T where
  isExit := false
  incomingQueue := .create nDispatcherThreadCount
  outgoingQueue := .create 1
  dtor := .alive

/-- The next statement of `~CGPBManagerV2`. -/
def dtorStep (m : Shutdown T) : Option (Shutdown T) :=
  match m.dtor with
  | .alive => some { m with isExit := true, dtor := .exit }
  | .exit => some { m with
      incomingQueue := { m.incomingQueue with queue := m.incomingQueue.queue.stop }
      dtor := .incoming }
  | .incoming =>
    match m.incomingQueue.queue.notifyAll with
    | none => none
    | some q => some { m with
        incomingQueue := { m.incomingQueue with queue := q }
        dtor := .notified }
  | .notified => some { m with
      outgoingQueue := { m.outgoingQueue with queue := m.outgoingQueue.queue.stop }
      dtor := .outgoing }
  | .outgoing =>
    match m.outgoingQueue.queue.notifyAll with
    | none => none
    | some q => some { m with
        outgoingQueue := { m.outgoingQueue with queue := q }
        dtor := .joining }
  | .joining =>
    if (∀ t < m.incomingQueue.threads, m.incomingQueue.loops t = .ended) ∧
        (∀ t < m.outgoingQueue.threads, m.outgoingQueue.loops t = .ended) then
      some { m with dtor := .joined }
    else none
  | .joined => none

def step (m : Shutdown T) : ShutdownEvent T → Option (Shutdown T)
  | .incoming e =>
    match WorkQueue.step m.isExit m.incomingQueue e with
    | none => none
    | some w => some { m with incomingQueue := w }
  | .outgoing e =>
    match WorkQueue.step m.isExit m.outgoingQueue e with
    | none => none
    | some w => some { m with outgoingQueue := w }
  | .dtor => m.dtorStep

end Shutdown

/-! ## Properties -/

/-- A step of the threads themselves, or the notification that a past `push` still owes. -/
def WorkEvent.quiet : WorkEvent T → Bool
  | .queue e => e.quiet
  | _ => true

def ShutdownEvent.quiet : ShutdownEvent T → Bool
  | .incoming e | .outgoing e => e.quiet
  | .dtor => true

/-- Something is left for the threads in their wait loop, and a notification is under way for each
    blocked one. -/
structure Releasable (w : WorkQueue T) : Prop where
  left : ∀ t < w.threads, w.queue.InLoop t → w.queue.remaining ≠ []
  notified : w.queue.cvCond.length ≤ w.queue.pushing

/-- Loops and poppers fit together. -/
structure Fitting (w : WorkQueue T) : Prop where
  consistent : Consistent w.queue
  popping : ∀ t, w.loops t = .popping → w.queue.pops t ≠ .idle
  outside : ∀ t, w.loops t ≠ .popping → w.queue.pops t = .idle ∨ ∃ v, w.queue.pops t = .returned v
  beyond : ∀ t, w.threads ≤ t → w.loops t = .ended

/-! ## Loops and poppers -/

section Steps

variable {w w' : WorkQueue T} {isExit : Bool} {t : Nat}

theorem create_fitting (threads : Nat) : Fitting (WorkQueue.create threads : WorkQueue T) := by
  refine ⟨create_consistent, fun t ht => ?_, fun t _ => .inl rfl, fun t ht => ?_⟩
  · simp only [WorkQueue.create] at ht
    split at ht <;> cases ht
  · simp only [WorkQueue.create] at ht ⊢
    exact if_neg (Nat.not_lt.mpr ht)

theorem head_cases {busy : Bool} (h : w.head isExit t busy = some w') :
    w.loops t = .head ∧ (isExit = true ∧ w' = w.setLoop t .ended ∨ isExit = false ∧ (w' = w ∨
      ∃ q, w.queue.call t = some q ∧ w' = { w with queue := q }.setLoop t .popping)) := by
  unfold WorkQueue.head at h
  split at h
  · refine ⟨‹_›, ?_⟩
    split at h
    · cases h
      exact .inl ⟨‹_›, rfl⟩
    · rename_i hexit
      refine .inr ⟨by simpa using hexit, ?_⟩
      split at h
      · cases h
        exact .inl rfl
      · split at h <;> cases h
        exact .inr ⟨_, ‹_›, rfl⟩
  · cases h

theorem popped_cases (h : w.popped t = some w') :
    w.loops t = .popping ∧ (∃ val, w.queue.pops t = .returned val) ∧
      w' = w.setLoop t .popped := by
  unfold WorkQueue.popped at h
  split at h <;> cases h
  exact ⟨‹_›, ⟨_, ‹_›⟩, rfl⟩

theorem check_cases (h : w.check isExit t = some w') :
    w.loops t = .popped ∧ w' = w.setLoop t (if isExit then .ended else .working) := by
  unfold WorkQueue.check at h
  split at h <;> cases h
  exact ⟨‹_›, rfl⟩

theorem done_cases (h : w.done t = some w') :
    w.loops t = .working ∧ w' = w.setLoop t .head := by
  unfold WorkQueue.done at h
  split at h <;> cases h
  exact ⟨‹_›, rfl⟩

theorem queueStep_cases {e : QueueEvent T} (h : w.queueStep e = some w') :
    (∀ u, e ≠ .call u) ∧ ∃ q, CConcurrentQueue.step w.queue e = some q ∧
      w' = { w with queue := q } := by
  unfold WorkQueue.queueStep at h
  split at h
  · cases h
  · cases h
  · cases h
  · rename_i hcall _ _
    split at h <;> cases h
    exact ⟨hcall, _, ‹_›, rfl⟩

/-- A loop that is outside `pop` goes on outside `pop`. -/
theorem Fitting.setLoop (hf : Fitting w) {pc : LoopPc} (hold : w.loops t ≠ .ended)
    (hout : w.queue.pops t = .idle ∨ ∃ val, w.queue.pops t = .returned val)
    (hnew : pc ≠ .popping) : Fitting (w.setLoop t pc) := by
  refine ⟨hf.consistent, fun u hu => ?_, fun u hu => ?_, fun u hu => ?_⟩
  · by_cases hut : u = t
    · subst hut
      simp [hnew] at hu
    · exact hf.popping u (by simpa [Function.update_of_ne hut] using hu)
  · by_cases hut : u = t
    · subst hut
      exact hout
    · exact hf.outside u (by simpa [Function.update_of_ne hut] using hu)
  · have hut : u ≠ t := by
      rintro rfl
      exact hold (hf.beyond u hu)
    simpa [Function.update_of_ne hut] using hf.beyond u hu

theorem work_step_fitting {e : WorkEvent T} (hf : Fitting w)
    (h : WorkQueue.step isExit w e = some w') : Fitting w' ∧ w'.threads = w.threads := by
  cases e with
  | head t busy =>
    obtain ⟨hl, ⟨_, rfl⟩ | ⟨_, rfl | ⟨q, hcall, rfl⟩⟩⟩ := head_cases h
    · exact ⟨hf.setLoop (by simp [hl]) (hf.outside t (by simp [hl])) (by simp), rfl⟩
    · exact ⟨hf, rfl⟩
    · refine ⟨⟨step_consistent (e := .call t) hf.consistent hcall, fun u hu => ?_, fun u hu => ?_,
        fun u hu => ?_⟩, rfl⟩
      all_goals obtain ⟨_, rfl⟩ := call_cases hcall
      · by_cases hut : u = t
        · subst hut
          simp
        · simpa [Function.update_of_ne hut] using
            hf.popping u (by simpa [Function.update_of_ne hut] using hu)
      · have hut : u ≠ t := by
          rintro rfl
          simp at hu
        simpa [Function.update_of_ne hut] using
          hf.outside u (by simpa [Function.update_of_ne hut] using hu)
      · have hut : u ≠ t := by
          rintro rfl
          rw [hf.beyond u hu] at hl
          cases hl
        simpa [Function.update_of_ne hut] using hf.beyond u hu
  | queue e =>
    obtain ⟨hcall, q, hq, rfl⟩ := queueStep_cases h
    refine ⟨⟨step_consistent hf.consistent hq, fun u hu => ?_, fun u hu => ?_, hf.beyond⟩, rfl⟩
    · exact step_called (hf.popping u hu) hq
    · rw [step_outside hcall (hf.outside u hu) hq]
      exact hf.outside u hu
  | popped t =>
    obtain ⟨hl, hret, rfl⟩ := popped_cases h
    exact ⟨hf.setLoop (by simp [hl]) (.inr hret) (by simp), rfl⟩
  | check t =>
    obtain ⟨hl, rfl⟩ := check_cases h
    exact ⟨hf.setLoop (by simp [hl]) (hf.outside t (by simp [hl])) (by split <;> simp), rfl⟩
  | done t =>
    obtain ⟨hl, rfl⟩ := done_cases h
    exact ⟨hf.setLoop (by simp [hl]) (hf.outside t (by simp [hl])) (by simp), rfl⟩

/-- Only the queue's own steps change the queue when the threads are leaving. -/
theorem work_step_queue {e : WorkEvent T} (h : WorkQueue.step true w e = some w') :
    w'.queue = w.queue ∨
      ∃ e', e = .queue e' ∧ CConcurrentQueue.step w.queue e' = some w'.queue := by
  cases e with
  | head t busy =>
    obtain ⟨_, ⟨_, rfl⟩ | ⟨hno, _⟩⟩ := head_cases h
    · exact .inl rfl
    · cases hno
  | queue e =>
    obtain ⟨_, q, hq, rfl⟩ := queueStep_cases h
    exact .inr ⟨e, rfl, hq⟩
  | popped t =>
    obtain ⟨_, _, rfl⟩ := popped_cases h
    exact .inl rfl
  | check t =>
    obtain ⟨_, rfl⟩ := check_cases h
    exact .inl rfl
  | done t =>
    obtain ⟨_, rfl⟩ := done_cases h
    exact .inl rfl

theorem work_step_isStop {e : WorkEvent T} (hstop : w.queue.isStop = true)
    (h : WorkQueue.step isExit w e = some w') : w'.queue.isStop = true := by
  cases e with
  | head t busy =>
    obtain ⟨_, ⟨_, rfl⟩ | ⟨_, rfl | ⟨q, hcall, rfl⟩⟩⟩ := head_cases h
    · exact hstop
    · exact hstop
    · exact step_isStop (e := .call t) hstop hcall
  | queue e =>
    obtain ⟨_, q, hq, rfl⟩ := queueStep_cases h
    exact step_isStop hstop hq
  | popped t =>
    obtain ⟨_, _, rfl⟩ := popped_cases h
    exact hstop
  | check t =>
    obtain ⟨_, rfl⟩ := check_cases h
    exact hstop
  | done t =>
    obtain ⟨_, rfl⟩ := done_cases h
    exact hstop

/-! ## A queue that does not let its threads go -/

/-- A thread stays in its wait loop with nothing left, or blocked without a notification. -/
def Stuck (w : WorkQueue T) : Prop :=
  (∃ t < w.threads, w.queue.InLoop t ∧ w.queue.remaining = []) ∨
    w.queue.pushing < w.queue.cvCond.length

theorem stuck_iff : Stuck w ↔ ¬ Releasable w := by
  constructor
  · rintro (⟨t, ht, hl, hrem⟩ | hlt) hr
    · exact hr.left t ht hl hrem
    · exact absurd hr.notified (Nat.not_le.mpr hlt)
  · intro hr
    by_contra hs
    refine hr ⟨fun t ht hl hrem => hs (.inl ⟨t, ht, hl, hrem⟩), ?_⟩
    exact Nat.le_of_not_lt (fun hlt => hs (.inr hlt))

/-- Such a thread has not ended. -/
theorem stuck_not_ended (hf : Fitting w) (hs : Stuck w) :
    ∃ t < w.threads, w.loops t ≠ .ended := by
  have hloop : ∀ t, w.queue.InLoop t → w.loops t = .popping := by
    intro t hl
    by_contra hne
    rcases hf.outside t hne with h | ⟨v, h⟩ <;> rcases hl with h' | h' <;> rw [h] at h' <;> cases h'
  rcases hs with ⟨t, ht, hl, _⟩ | hlt
  · exact ⟨t, ht, by rw [hloop t hl]; simp⟩
  · obtain ⟨t, ht⟩ := List.exists_mem_of_length_pos (Nat.lt_of_le_of_lt (Nat.zero_le _) hlt)
    have hpop := hloop t (.inr (hf.consistent.blocked t ht))
    refine ⟨t, Nat.lt_of_not_le (fun hge => ?_), by rw [hpop]; simp⟩
    rw [hf.beyond t hge] at hpop
    cases hpop

theorem work_step_stuck {e : WorkEvent T} (hf : Fitting w) (hstop : w.queue.isStop = true)
    (hquiet : e.quiet = true) (hs : Stuck w) (h : WorkQueue.step true w e = some w') :
    Stuck w' := by
  have hthreads := (work_step_fitting hf h).2
  rcases work_step_queue h with heq | ⟨e', rfl, hq⟩
  · unfold Stuck
    rw [heq, hthreads]
    exact hs
  · rcases hs with ⟨t, ht, hl, hrem⟩ | hlt
    · have hpush : e'.isPush = false := by
        cases e' <;> first | rfl | cases hquiet
      refine .inl ⟨t, hthreads ▸ ht, step_inLoop hrem hl hq, ?_⟩
      exact (step_remaining hf.consistent hstop hpush hq).2.trans hrem
    · exact .inr (step_unnotified hquiet hlt hq)

/-! ## A queue that lets its threads go -/

/-- Quiet steps of the queue are steps of the work queue. -/
theorem run_queue (isExit : Bool) :
    ∀ {es : List (QueueEvent T)} {w : WorkQueue T} {q : CConcurrentQueue T},
    es.all QueueEvent.quiet → run CConcurrentQueue.step w.queue es = some q →
      run (WorkQueue.step isExit) w (es.map .queue) = some { w with queue := q }
  | [], w, q, _, h => by
    cases h
    rfl
  | e :: es, w, q, hes, h => by
    obtain ⟨q₁, hstep, hrun⟩ := run_cons.mp h
    obtain ⟨he, hes⟩ := List.all_cons ▸ hes |> Bool.and_eq_true_iff.mp
    refine run_cons.mpr ⟨{ w with queue := q₁ }, ?_,
      run_queue isExit (w := { w with queue := q₁ }) hes hrun⟩
    cases e with
    | call u => cases he
    | stop => cases he
    | notifyAll => cases he
    | _ => simp [WorkQueue.step, WorkQueue.queueStep, hstep]

theorem quiet_map {es : List (QueueEvent T)} (h : es.all QueueEvent.quiet) :
    (es.map WorkEvent.queue).all WorkEvent.quiet := by
  rw [List.all_map]
  exact h

/-- Nobody holds the mutex and nobody is blocked. -/
structure Calm (w : WorkQueue T) : Prop where
  fitting : Fitting w
  stop : w.queue.isStop = true
  free : w.queue.mutex = none
  unblocked : w.queue.cvCond = []
  left : ∀ t < w.threads, w.queue.InLoop t → w.queue.queue ≠ []

/-- The blocked threads are notified one after the other. -/
theorem notify_blocked : ∀ {n : Nat} {q : CConcurrentQueue T}, q.cvCond.length = n →
    n ≤ q.pushing → ∃ es k, es.all QueueEvent.quiet ∧
      run CConcurrentQueue.step q es = some { q with cvCond := [], pushing := k }
  | 0, q, hlen, _ => by
    refine ⟨[], q.pushing, rfl, ?_⟩
    rw [run_nil, ← List.length_eq_zero_iff.mp hlen]
  | n + 1, q, hlen, hle => by
    obtain ⟨t, rest, hcv⟩ := List.exists_cons_of_length_eq_add_one hlen
    obtain ⟨k, hk⟩ : ∃ k, q.pushing = k + 1 := ⟨q.pushing - 1, by omega⟩
    have hstep : CConcurrentQueue.step q (.notifyOne (some t)) =
        some { q with pushing := k, cvCond := rest } := by
      simp [CConcurrentQueue.step, notifyOne, hk, hcv]
    obtain ⟨es, k', hquiet, hrun⟩ :=
      notify_blocked (n := n) (q := { q with pushing := k, cvCond := rest })
        (by simpa [hcv] using hlen) (by simp only; omega)
    exact ⟨.notifyOne (some t) :: es, k', by simpa [QueueEvent.quiet] using hquiet,
      run_cons.mpr ⟨_, hstep, hrun⟩⟩

/-- A releasable queue becomes calm. -/
theorem reach_calm (hf : Fitting w) (hstop : w.queue.isStop = true) (hr : Releasable w) :
    ∃ es w', es.all WorkEvent.quiet ∧ run (WorkQueue.step true) w es = some w' ∧ Calm w' ∧
      w'.threads = w.threads := by
  obtain ⟨es₁, q₁, hquiet₁, hrun₁, hfree, hstop₁, hq₁, hcv₁, hpush₁, hpops⟩ :=
    free_mutex hf.consistent hstop
  obtain ⟨es₂, k, hquiet₂, hrun₂⟩ := notify_blocked (q := q₁) rfl
    (by rw [hcv₁, hpush₁]; exact hr.notified)
  have hquiet : (es₁ ++ es₂).all QueueEvent.quiet := by simp [hquiet₁, hquiet₂]
  have hrun := run_queue true (w := w) hquiet (run_append.mpr ⟨q₁, hrun₁, hrun₂⟩)
  refine ⟨_, _, quiet_map hquiet, hrun, ⟨?_, hstop₁, hfree, rfl, fun t ht hl => ?_⟩, rfl⟩
  · exact run_invariant (fun _ _ _ hi hs => (work_step_fitting hi hs).1) hf hrun
  · show q₁.queue ≠ []
    rw [hq₁]
    refine hr.left t ht ?_
    rcases hpops t with h | ⟨_, val, h⟩
    · unfold InLoop
      rw [← h]
      exact hl
    · rcases hl with h' | h' <;> exact absurd (h.symm.trans h') (by simp)

/-- Calm is kept when the queue is, up to one popper that returns. -/
theorem Calm.of_run (hc : Calm w) {es : List (WorkEvent T)} {pc : LoopPc}
    (hrun : run (WorkQueue.step true) w es = some (w.setLoop t pc)) : Calm (w.setLoop t pc) :=
  ⟨run_invariant (fun _ _ _ hi hs => (work_step_fitting hi hs).1) hc.fitting hrun, hc.stop,
    hc.free, hc.unblocked, hc.left⟩

/-- A popper leaves its loop: it returns because the queue is stopped. -/
theorem Calm.pop (hc : Calm w) (ht : t < w.threads) (hl : w.queue.InLoop t) :
    ∃ es w', es.all WorkEvent.quiet ∧ run (WorkQueue.step true) w es = some w' ∧ Calm w' ∧
      w'.threads = w.threads ∧ w'.loops = w.loops ∧ w'.queue.pops t = .returned none := by
  have hleave := leave_loop hc.free hc.stop (hc.left t ht hl)
    (hl.imp id (fun h => ⟨h, by simp [hc.unblocked]⟩))
  have hquiet : ([.test t, .readStop t] : List (QueueEvent T)).all QueueEvent.quiet := rfl
  have hrun := run_queue true (w := w) hquiet hleave
  refine ⟨_, _, quiet_map hquiet, hrun, ⟨?_, hc.stop, hc.free, hc.unblocked, fun u hu hlu => ?_⟩,
    rfl, rfl, by simp⟩
  · exact run_invariant (fun _ _ _ hi hs => (work_step_fitting hi hs).1) hc.fitting hrun
  · refine hc.left u hu ?_
    have hut : u ≠ t := by
      rintro rfl
      rcases hlu with h | h <;> simp at h
    unfold InLoop at hlu ⊢
    simpa [Function.update_of_ne hut] using hlu

/-- Behind `pop` the thread sees `_isExit` and ends. -/
theorem Calm.leave (hc : Calm w) (hl : w.loops t = .popping)
    (hret : ∃ val, w.queue.pops t = .returned val) :
    ∃ es, es.all WorkEvent.quiet ∧
      run (WorkQueue.step true) w es = some (w.setLoop t .ended) ∧ Calm (w.setLoop t .ended) := by
  obtain ⟨val, hval⟩ := hret
  have hrun : run (WorkQueue.step true) w [.popped t, .check t] = some (w.setLoop t .ended) := by
    simp [run, WorkQueue.step, WorkQueue.popped, hl, hval, WorkQueue.check]
  exact ⟨_, rfl, hrun, hc.of_run hrun⟩

/-- Every thread of a calm queue can be brought to its end, and the ended ones stay so. -/
theorem Calm.end_thread (hc : Calm w) (ht : t < w.threads) :
    ∃ es w', es.all WorkEvent.quiet ∧ run (WorkQueue.step true) w es = some w' ∧ Calm w' ∧
      w'.threads = w.threads ∧ w'.loops = Function.update w.loops t .ended := by
  cases hl : w.loops t with
  | head =>
    have hrun : run (WorkQueue.step true) w [.head t false] = some (w.setLoop t .ended) := by
      simp [run, WorkQueue.step, WorkQueue.head, hl]
    exact ⟨_, _, rfl, hrun, hc.of_run hrun, rfl, rfl⟩
  | popping =>
    cases hpc : w.queue.pops t with
    | idle => exact absurd hpc (hc.fitting.popping t hl)
    | tested =>
      have := (hc.fitting.consistent.holder t).mpr (.inl hpc)
      rw [hc.free] at this
      cases this
    | take =>
      have := (hc.fitting.consistent.holder t).mpr (.inr hpc)
      rw [hc.free] at this
      cases this
    | returned val =>
      obtain ⟨es, hquiet, hrun, hc'⟩ := hc.leave hl ⟨val, hpc⟩
      exact ⟨es, _, hquiet, hrun, hc', rfl, rfl⟩
    | enter | wait =>
      obtain ⟨es₁, w₁, hquiet₁, hrun₁, hc₁, hth, hloops, hret⟩ := hc.pop ht (by simp [InLoop, hpc])
      obtain ⟨es₂, hquiet₂, hrun₂, hc₂⟩ := hc₁.leave (by rw [hloops]; exact hl) ⟨_, hret⟩
      refine ⟨es₁ ++ es₂, _, by simp [hquiet₁, hquiet₂], run_append.mpr ⟨w₁, hrun₁, hrun₂⟩, hc₂,
        hth, ?_⟩
      simp [hloops]
  | popped =>
    have hrun : run (WorkQueue.step true) w [.check t] = some (w.setLoop t .ended) := by
      simp [run, WorkQueue.step, WorkQueue.check, hl]
    exact ⟨_, _, rfl, hrun, hc.of_run hrun, rfl, rfl⟩
  | working =>
    have hrun : run (WorkQueue.step true) w [.done t, .head t false] =
        some (w.setLoop t .ended) := by
      simp [run, WorkQueue.step, WorkQueue.done, WorkQueue.head, hl]
    exact ⟨_, _, rfl, hrun, hc.of_run hrun, rfl, rfl⟩
  | ended => exact ⟨[], w, rfl, rfl, hc, rfl, by rw [← hl, Function.update_eq_self]⟩

/-- The threads below `n` end one after the other. -/
theorem Calm.end_threads : ∀ (n : Nat) {w : WorkQueue T}, Calm w → n ≤ w.threads →
    ∃ es w', es.all WorkEvent.quiet ∧ run (WorkQueue.step true) w es = some w' ∧ Calm w' ∧
      w'.threads = w.threads ∧ ∀ t < n, w'.loops t = .ended
  | 0, w, hc, _ => ⟨[], w, rfl, rfl, hc, rfl, fun _ h => absurd h (Nat.not_lt_zero _)⟩
  | n + 1, w, hc, hn => by
    obtain ⟨es₁, w₁, hquiet₁, hrun₁, hc₁, hth₁, hended⟩ :=
      Calm.end_threads n hc (Nat.le_of_succ_le hn)
    obtain ⟨es₂, w₂, hquiet₂, hrun₂, hc₂, hth₂, hloops⟩ := hc₁.end_thread (t := n) (by omega)
    refine ⟨es₁ ++ es₂, w₂, by simp [hquiet₁, hquiet₂], run_append.mpr ⟨w₁, hrun₁, hrun₂⟩, hc₂,
      hth₂.trans hth₁, fun t ht => ?_⟩
    rw [hloops]
    by_cases htn : t = n
    · subst htn
      simp
    · rw [Function.update_of_ne htn]
      exact hended t (by omega)

/-- **A releasable queue lets all its threads end.** -/
theorem drain (hf : Fitting w) (hstop : w.queue.isStop = true) (hr : Releasable w) :
    ∃ es w', es.all WorkEvent.quiet ∧ run (WorkQueue.step true) w es = some w' ∧
      ∀ t < w'.threads, w'.loops t = .ended := by
  obtain ⟨es₁, w₁, hquiet₁, hrun₁, hc₁, hth₁⟩ := reach_calm hf hstop hr
  obtain ⟨es₂, w₂, hquiet₂, hrun₂, _, hth₂, hended⟩ := hc₁.end_threads w₁.threads (Nat.le_refl _)
  refine ⟨es₁ ++ es₂, w₂, by simp [hquiet₁, hquiet₂], run_append.mpr ⟨w₁, hrun₁, hrun₂⟩, ?_⟩
  rw [hth₂]
  exact hended

end Steps

/-! ## The destructor -/

section Dtor

variable {m m' : Shutdown T}

/-- What the destructor has done so far. -/
structure Orderly (m : Shutdown T) : Prop where
  incoming : Fitting m.incomingQueue
  outgoing : Fitting m.outgoingQueue
  exit : m.dtor ≠ .alive → m.isExit = true
  stop_incoming : m.dtor ≠ .alive → m.dtor ≠ .exit → m.incomingQueue.queue.isStop = true
  stop_outgoing : m.dtor = .outgoing ∨ m.dtor = .joining ∨ m.dtor = .joined →
    m.outgoingQueue.queue.isStop = true

theorem create_orderly (n : Nat) : Orderly (Shutdown.create n : Shutdown T) :=
  ⟨create_fitting n, create_fitting 1, fun h => absurd rfl h, fun h => absurd rfl h,
    fun h => by simp [Shutdown.create] at h⟩

/-- `stopAllPop` leaves the poppers where they are. -/
theorem Fitting.setQueue {w : WorkQueue T} {q : CConcurrentQueue T} {e : QueueEvent T}
    (hf : Fitting w) (h : CConcurrentQueue.step w.queue e = some q) (hp : q.pops = w.queue.pops) :
    Fitting { w with queue := q } :=
  ⟨step_consistent hf.consistent h, by simpa [hp] using hf.popping,
    by simpa [hp] using hf.outside, hf.beyond⟩

theorem notifyAll_pops {q q' : CConcurrentQueue T} (h : q.notifyAll = some q') :
    q'.pops = q.pops ∧ q'.isStop = q.isStop := by
  unfold CConcurrentQueue.notifyAll at h
  split at h <;> cases h
  exact ⟨rfl, rfl⟩

theorem dtorStep_orderly (ho : Orderly m) (h : m.dtorStep = some m') : Orderly m' := by
  unfold Shutdown.dtorStep at h
  split at h
  · rename_i hd
    cases h
    exact ⟨ho.incoming, ho.outgoing, fun _ => rfl, fun _ h => absurd rfl h, by simp⟩
  · rename_i hd
    cases h
    exact ⟨ho.incoming.setQueue (e := .stop) rfl rfl, ho.outgoing,
      fun _ => ho.exit (by simp [hd]), fun _ _ => rfl, by simp⟩
  · rename_i hd
    split at h
    · cases h
    · rename_i q hq
      cases h
      obtain ⟨hp, hs⟩ := notifyAll_pops hq
      refine ⟨ho.incoming.setQueue (e := .notifyAll) hq hp, ho.outgoing,
        fun _ => ho.exit (by simp [hd]), fun _ _ => ?_, by simp⟩
      exact hs.trans (ho.stop_incoming (by simp [hd]) (by simp [hd]))
  · rename_i hd
    cases h
    exact ⟨ho.incoming, ho.outgoing.setQueue (e := .stop) rfl rfl,
      fun _ => ho.exit (by simp [hd]), fun _ _ => ho.stop_incoming (by simp [hd]) (by simp [hd]),
      fun _ => rfl⟩
  · rename_i hd
    split at h
    · cases h
    · rename_i q hq
      cases h
      obtain ⟨hp, hs⟩ := notifyAll_pops hq
      refine ⟨ho.incoming, ho.outgoing.setQueue (e := .notifyAll) hq hp,
        fun _ => ho.exit (by simp [hd]),
        fun _ _ => ho.stop_incoming (by simp [hd]) (by simp [hd]), fun _ => ?_⟩
      exact hs.trans (ho.stop_outgoing (by simp [hd]))
  · rename_i hd
    split at h <;> cases h
    exact ⟨ho.incoming, ho.outgoing, fun _ => ho.exit (by simp [hd]),
      fun _ _ => ho.stop_incoming (by simp [hd]) (by simp [hd]),
      fun _ => ho.stop_outgoing (by simp [hd])⟩
  · cases h

theorem shutdown_step_cases {e : ShutdownEvent T} (h : Shutdown.step m e = some m') :
    (∃ e' w, e = .incoming e' ∧ WorkQueue.step m.isExit m.incomingQueue e' = some w ∧
      m' = { m with incomingQueue := w }) ∨
    (∃ e' w, e = .outgoing e' ∧ WorkQueue.step m.isExit m.outgoingQueue e' = some w ∧
      m' = { m with outgoingQueue := w }) ∨ m.dtorStep = some m' := by
  cases e with
  | incoming e =>
    simp only [Shutdown.step] at h
    split at h <;> cases h
    exact .inl ⟨e, _, rfl, ‹_›, rfl⟩
  | outgoing e =>
    simp only [Shutdown.step] at h
    split at h <;> cases h
    exact .inr (.inl ⟨e, _, rfl, ‹_›, rfl⟩)
  | dtor => exact .inr (.inr h)

theorem shutdown_step_orderly {e : ShutdownEvent T} (ho : Orderly m)
    (h : Shutdown.step m e = some m') : Orderly m' := by
  rcases shutdown_step_cases h with ⟨e', w, _, hw, rfl⟩ | ⟨e', w, _, hw, rfl⟩ | h
  · exact ⟨(work_step_fitting ho.incoming hw).1, ho.outgoing, ho.exit,
      fun h1 h2 => work_step_isStop (ho.stop_incoming h1 h2) hw, ho.stop_outgoing⟩
  · exact ⟨ho.incoming, (work_step_fitting ho.outgoing hw).1, ho.exit, ho.stop_incoming,
      fun h => work_step_isStop (ho.stop_outgoing h) hw⟩
  · exact dtorStep_orderly ho h

/-- `join_all` blocks while one of the queues is stuck. -/
theorem join_blocked {e : ShutdownEvent T} (ho : Orderly m) (hd : m.dtor = .joining)
    (hs : Stuck m.incomingQueue ∨ Stuck m.outgoingQueue) (hquiet : e.quiet = true)
    (h : Shutdown.step m e = some m') :
    m'.dtor = .joining ∧ (Stuck m'.incomingQueue ∨ Stuck m'.outgoingQueue) := by
  have hexit := ho.exit (by simp [hd])
  rcases shutdown_step_cases h with ⟨e', w, rfl, hw, rfl⟩ | ⟨e', w, rfl, hw, rfl⟩ | h
  · rw [hexit] at hw
    refine ⟨hd, hs.imp (fun hs => ?_) id⟩
    exact work_step_stuck ho.incoming (ho.stop_incoming (by simp [hd]) (by simp [hd])) hquiet hs hw
  · rw [hexit] at hw
    refine ⟨hd, hs.imp id (fun hs => ?_)⟩
    exact work_step_stuck ho.outgoing (ho.stop_outgoing (by simp [hd])) hquiet hs hw
  · unfold Shutdown.dtorStep at h
    rw [hd] at h
    simp only at h
    split at h
    · rename_i hended
      rcases hs with hs | hs
      · obtain ⟨t, ht, hne⟩ := stuck_not_ended ho.incoming hs
        exact absurd (hended.1 t ht) hne
      · obtain ⟨t, ht, hne⟩ := stuck_not_ended ho.outgoing hs
        exact absurd (hended.2 t ht) hne
    · cases h

/-- Runs of one queue within the manager. -/
theorem run_incoming : ∀ {es : List (WorkEvent T)} {m : Shutdown T} {w : WorkQueue T},
    run (WorkQueue.step m.isExit) m.incomingQueue es = some w →
      run Shutdown.step m (es.map .incoming) = some { m with incomingQueue := w }
  | [], m, w, h => by
    cases h
    rfl
  | e :: es, m, w, h => by
    obtain ⟨w₁, hstep, hrun⟩ := run_cons.mp h
    refine run_cons.mpr ⟨{ m with incomingQueue := w₁ }, by simp [Shutdown.step, hstep], ?_⟩
    exact run_incoming (m := { m with incomingQueue := w₁ }) hrun

theorem run_outgoing : ∀ {es : List (WorkEvent T)} {m : Shutdown T} {w : WorkQueue T},
    run (WorkQueue.step m.isExit) m.outgoingQueue es = some w →
      run Shutdown.step m (es.map .outgoing) = some { m with outgoingQueue := w }
  | [], m, w, h => by
    cases h
    rfl
  | e :: es, m, w, h => by
    obtain ⟨w₁, hstep, hrun⟩ := run_cons.mp h
    refine run_cons.mpr ⟨{ m with outgoingQueue := w₁ }, by simp [Shutdown.step, hstep], ?_⟩
    exact run_outgoing (m := { m with outgoingQueue := w₁ }) hrun

theorem join_returns (ho : Orderly m) (hd : m.dtor = .joining) (hin : Releasable m.incomingQueue)
    (hout : Releasable m.outgoingQueue) :
    ∃ es m', es.all ShutdownEvent.quiet ∧ run Shutdown.step m es = some m' ∧
      m'.dtor = .joined := by
  have hexit := ho.exit (by simp [hd])
  obtain ⟨es₁, w₁, hquiet₁, hrun₁, hended₁⟩ :=
    drain ho.incoming (ho.stop_incoming (by simp [hd]) (by simp [hd])) hin
  obtain ⟨es₂, w₂, hquiet₂, hrun₂, hended₂⟩ :=
    drain ho.outgoing (ho.stop_outgoing (by simp [hd])) hout
  rw [← hexit] at hrun₁ hrun₂
  have hall := run_outgoing (m := { m with incomingQueue := w₁ }) hrun₂
  refine ⟨es₁.map .incoming ++ (es₂.map .outgoing ++ [.dtor]),
    { m with incomingQueue := w₁, outgoingQueue := w₂, dtor := .joined }, ?_, ?_, rfl⟩
  · simp only [List.all_append, List.all_map, Bool.and_eq_true]
    exact ⟨hquiet₁, hquiet₂, rfl⟩
  · refine run_append.mpr ⟨_, run_incoming hrun₁, run_append.mpr ⟨_, hall, ?_⟩⟩
    simp only [run, Shutdown.step, Shutdown.dtorStep, hd]
    rw [if_pos ⟨hended₁, hended₂⟩]

/-- `join_all` returns exactly when both queues are releasable. -/
theorem join_returns_iff (ho : Orderly m) (hd : m.dtor = .joining) :
    (∃ es m', es.all ShutdownEvent.quiet ∧ run Shutdown.step m es = some m' ∧
        m'.dtor = .joined) ↔ Releasable m.incomingQueue ∧ Releasable m.outgoingQueue := by
  refine ⟨?_, fun ⟨hin, hout⟩ => join_returns ho hd hin hout⟩
  rintro ⟨es, m', hquiet, hrun, hjoined⟩
  by_contra hno
  have hs : Stuck m.incomingQueue ∨ Stuck m.outgoingQueue := by
    rw [stuck_iff, stuck_iff]
    exact not_and_or.mp hno
  have hinv : Orderly m' ∧ m'.dtor = .joining ∧
      (Stuck m'.incomingQueue ∨ Stuck m'.outgoingQueue) := by
    refine run_preserves (C := fun _ e => e.quiet = true) (I := fun m => Orderly m ∧
      m.dtor = .joining ∧ (Stuck m.incomingQueue ∨ Stuck m.outgoingQueue)) ?_ es m m'
      ⟨ho, hd, hs⟩ (meets_of_forall es m (fun e he _ => List.all_eq_true.mp hquiet e he)) hrun
    rintro m e m' ⟨ho, hd, hs⟩ he h
    exact ⟨shutdown_step_orderly ho h, join_blocked ho hd hs he h⟩
  rw [hinv.2.1] at hjoined
  cases hjoined

theorem run_orderly {n : Nat} {es : List (ShutdownEvent T)}
    (h : run Shutdown.step (Shutdown.create n) es = some m) : Orderly m :=
  run_invariant (fun _ _ _ hi hs => shutdown_step_orderly hi hs) (create_orderly n) h

end Dtor

/-- **What stopping releases.**  In every reachable state of a queue whose flag is set, a `pop` call
    that starts or is woken returns without a further `push` exactly when something is left in the
    queue behind the thread that holds the mutex.  In every run of a manager that has come to
    `join_all`, the call returns without a further `push` exactly when something is left for each
    thread in its wait loop, and each blocked thread is still to be notified. -/
theorem stop_releases_iff :
    (∀ (es : List (QueueEvent T)) q, run CConcurrentQueue.step .create es = some q →
      q.isStop = true → ∀ t, (q.pops t = .enter ∨ q.pops t = .wait ∧ t ∉ q.cvCond) →
        (Released q t ↔ q.remaining ≠ [])) ∧
    ∀ (n : Nat) (es : List (ShutdownEvent T)) m,
      run Shutdown.step (Shutdown.create n) es = some m → m.dtor = .joining →
        ((∃ es' m', es'.all ShutdownEvent.quiet ∧ run Shutdown.step m es' = some m' ∧
            m'.dtor = .joined) ↔
          Releasable m.incomingQueue ∧ Releasable m.outgoingQueue) := by
  refine ⟨fun es q hrun hstop t ht => ?_, fun n es m hrun hd => ?_⟩
  · exact pop_released_iff (run_consistent hrun) hstop ht
  · exact join_returns_iff (run_orderly hrun) hd

/-- A thread waits for its first packet, and the manager is destroyed: the popper wakes up, sees an
    empty queue and waits again. -/
theorem stop_does_not_release :
    (∃ q : CConcurrentQueue Nat, run CConcurrentQueue.step .create
        [.call 0, .test 0, .stop, .notifyAll] = some q ∧ q.isStop = true ∧
      (q.pops 0 = .wait ∧ 0 ∉ q.cvCond) ∧ ¬ Released q 0) ∧
    ∃ m : Shutdown Nat, run Shutdown.step (Shutdown.create 1)
        ([.incoming (.head 0 false), .incoming (.queue (.test 0))] ++
          List.replicate 5 .dtor) = some m ∧ m.dtor = .joining ∧
      ¬ ∃ es' m', es'.all ShutdownEvent.quiet ∧ run Shutdown.step m es' = some m' ∧
        m'.dtor = .joined := by
  constructor
  · refine ⟨_, rfl, rfl, ⟨rfl, by decide⟩, fun hrel => ?_⟩
    have hc := @run_consistent Nat [.call 0, .test 0, .stop, .notifyAll] _ rfl
    exact (pop_released_iff hc rfl (.inr ⟨rfl, by decide⟩)).mp hrel rfl
  · have hrun : ∃ m : Shutdown Nat, run Shutdown.step (Shutdown.create 1)
        ([.incoming (.head 0 false), .incoming (.queue (.test 0))] ++ List.replicate 5 .dtor) =
        some m ∧ m.dtor = .joining ∧ m.incomingQueue.threads = 1 ∧
          m.incomingQueue.queue.InLoop 0 ∧ m.incomingQueue.queue.remaining = [] :=
      ⟨_, rfl, rfl, rfl, .inr rfl, rfl⟩
    obtain ⟨m, hrun, hd, hth, hl, hrem⟩ := hrun
    refine ⟨m, hrun, hd, fun hjoin => ?_⟩
    obtain ⟨hin, _⟩ := (join_returns_iff (run_orderly hrun) hd).mp hjoin
    exact hin.left 0 (by rw [hth]; decide) hl hrem

end IMonPlatform
