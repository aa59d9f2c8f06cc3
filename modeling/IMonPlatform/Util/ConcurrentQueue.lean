import Mathlib.Logic.Function.Basic
import Mathlib.Data.List.Basic
import IMonPlatform.Lib.Transition

/-!
# `CConcurrentQueue`

A queue under a mutex with a condition variable.  `pop` waits while the queue is empty and looks at
`_isStop` only behind its wait loop; `stopAllPop` sets the flag without the mutex and notifies all.
A step is a locked section of a `pop` up to its next access to shared data, the locked section of a
`push`, a notification, or the store to the flag; a thread may also wake up for no reason.

* `CConcurrentQueue.step` — one step of any thread.
* `remaining` — what is left for the poppers that have not passed their wait loop.
* `step_remaining` — once the flag is set, only a `push` changes it.
* `pop_released_iff` — a `pop` that starts or is woken after the flag was set returns without a
  further `push` exactly when something is left.
-/

set_option autoImplicit false

namespace IMonPlatform

open Transition

variable {T : Type}

/-- A thread in `pop`. -/
inductive PopPc (T : Type) where
  | idle
  /-- Before it locks the mutex. -/
  | enter
  /-- In `_cvCond.wait`: blocked as long as the condition variable holds the thread. -/
  | wait
  /-- Behind the wait loop, with the mutex, before the test of `_isStop`. -/
  | tested
  /-- Behind that test, with the mutex. -/
  | take
  /-- Returned, with the item it took. -/
  | returned (val : Option T)

structure CConcurrentQueue (T : Type) where
  isStop : Bool
  queue : List T
  /-- The owner of `_mutex`. -/
  mutex : Option Nat
  /-- The threads blocked in `_cvCond`. -/
  cvCond : List Nat
  /-- `push` calls before their `notify_one`. -/
  pushing : Nat
  /-- `stopAllPop` calls before their `notify_all`. -/
  stopping : Nat
  pops : Nat → PopPc T

inductive QueueEvent (T : Type) where
  | call (t : Nat)
  /-- Lock the mutex, at the start or after a wait, and test whether the queue is empty. -/
  | test (t : Nat)
  | readStop (t : Nat)
  | take (t : Nat)
  | push (item : T)
  | notifyOne (t : Option Nat)
  | stop
  | notifyAll
  /-- A thread wakes up without a notification. -/
  | spurious (t : Nat)

namespace CConcurrentQueue

def create : CConcurrentQueue T := ⟨false, [], none, [], 0, 0, fun _ => .idle⟩

@[simp] def setPop (q : CConcurrentQueue T) (t : Nat) (pc : PopPc T) : CConcurrentQueue T :=
  { q with pops := Function.update q.pops t pc }

def call (q : CConcurrentQueue T) (t : Nat) : Option (CConcurrentQueue T) :=
  match q.pops t with
  | .idle | .returned _ => some (q.setPop t .enter)
  | _ => none

/-- The wait loop: with the mutex, wait or go on. -/
def waitLoop (q : CConcurrentQueue T) (t : Nat) : Option (CConcurrentQueue T) :=
  match q.mutex, q.queue with
  | none, [] => some ({ q with cvCond := q.cvCond ++ [t] }.setPop t .wait)
  | none, _ :: _ => some ({ q with mutex := some t }.setPop t .tested)
  | some _, _ => none

def test (q : CConcurrentQueue T) (t : Nat) : Option (CConcurrentQueue T) :=
  match q.pops t with
  | .enter => q.waitLoop t
  | .wait => if t ∈ q.cvCond then none else q.waitLoop t
  | _ => none

def readStop (q : CConcurrentQueue T) (t : Nat) : Option (CConcurrentQueue T) :=
  match q.pops t with
  | .tested =>
    if q.isStop then some ({ q with mutex := none }.setPop t (.returned none))
    else some (q.setPop t .take)
  | _ => none

def take (q : CConcurrentQueue T) (t : Nat) : Option (CConcurrentQueue T) :=
  match q.pops t, q.queue with
  | .take, val :: rest =>
    some ({ q with queue := rest, mutex := none }.setPop t (.returned (some val)))
  | _, _ => none

def push (q : CConcurrentQueue T) (item : T) : Option (CConcurrentQueue T) :=
  match q.mutex with
  | none => some { q with queue := q.queue ++ [item], pushing := q.pushing + 1 }
  | some _ => none

/-- `notify_one` by a `push`: one of the blocked threads is woken, if there is one. -/
def notifyOne (q : CConcurrentQueue T) (t : Option Nat) : Option (CConcurrentQueue T) :=
  match q.pushing, t with
  | n + 1, some t =>
    if t ∈ q.cvCond then some { q with pushing := n, cvCond := q.cvCond.erase t } else none
  | n + 1, none => if q.cvCond = [] then some { q with pushing := n } else none
  | 0, _ => none

def stop (q : CConcurrentQueue T) : CConcurrentQueue T :=
  { q with isStop := true, stopping := q.stopping + 1 }

def notifyAll (q : CConcurrentQueue T) : Option (CConcurrentQueue T) :=
  match q.stopping with
  | n + 1 => some { q with stopping := n, cvCond := [] }
  | 0 => none

def spurious (q : CConcurrentQueue T) (t : Nat) : Option (CConcurrentQueue T) :=
  if t ∈ q.cvCond then some { q with cvCond := q.cvCond.erase t } else none

def step (q : CConcurrentQueue T) : QueueEvent T → Option (CConcurrentQueue T)
  | .call t => q.call t
  | .test t => q.test t
  | .readStop t => q.readStop t
  | .take t => q.take t
  | .push item => q.push item
  | .notifyOne t => q.notifyOne t
  | .stop => some q.stop
  | .notifyAll => q.notifyAll
  | .spurious t => q.spurious t

/-- What is left in the queue when the thread that holds the mutex has left it. -/
def remaining (q : CConcurrentQueue T) : List T :=
  match q.mutex with
  | none => q.queue
  | some t =>
    match q.pops t with
    | .take => q.queue.tail
    | _ => q.queue

/-- The thread has not passed its wait loop. -/
def InLoop (q : CConcurrentQueue T) (t : Nat) : Prop := q.pops t = .enter ∨ q.pops t = .wait

/-- Mutex, queue and condition variable fit the program counters. -/
structure Consistent (q : CConcurrentQueue T) : Prop where
  holder : ∀ t, q.mutex = some t ↔ q.pops t = .tested ∨ q.pops t = .take
  nonempty : ∀ t, q.mutex = some t → q.queue ≠ []
  blocked : ∀ t ∈ q.cvCond, q.pops t = .wait

end CConcurrentQueue

/-- A step within `pop`, or the notification that a past `push` still owes. -/
def QueueEvent.quiet : QueueEvent T → Bool
  | .test _ | .readStop _ | .take _ | .notifyOne _ => true
  | _ => false

def QueueEvent.isPush : QueueEvent T → Bool
  | .push _ => true
  | _ => false

open CConcurrentQueue

/-! ## What a step does -/

section Steps

variable {q q' : CConcurrentQueue T} {t : Nat}

/-- The wait loop needs the mutex; with an empty queue it blocks the thread. -/
theorem waitLoop_cases (h : q.waitLoop t = some q') :
    q.mutex = none ∧
      (q.queue = [] ∧ q' = { q with cvCond := q.cvCond ++ [t] }.setPop t .wait ∨
        q.queue ≠ [] ∧ q' = { q with mutex := some t }.setPop t .tested) := by
  unfold waitLoop at h
  split at h <;> cases h
  · exact ⟨‹_›, .inl ⟨‹_›, rfl⟩⟩
  · rename_i hq
    exact ⟨‹_›, .inr ⟨by simp [hq], rfl⟩⟩

theorem test_cases (h : q.test t = some q') :
    (q.pops t = .enter ∨ q.pops t = .wait ∧ t ∉ q.cvCond) ∧ q.mutex = none ∧
      (q.queue = [] ∧ q' = { q with cvCond := q.cvCond ++ [t] }.setPop t .wait ∨
        q.queue ≠ [] ∧ q' = { q with mutex := some t }.setPop t .tested) := by
  unfold CConcurrentQueue.test at h
  split at h
  · exact ⟨.inl ‹_›, waitLoop_cases h⟩
  · split at h
    · cases h
    · exact ⟨.inr ⟨‹_›, ‹_›⟩, waitLoop_cases h⟩
  · cases h

theorem readStop_cases (h : q.readStop t = some q') :
    q.pops t = .tested ∧
      (q.isStop = true ∧ q' = { q with mutex := none }.setPop t (.returned none) ∨
        q.isStop = false ∧ q' = q.setPop t .take) := by
  unfold readStop at h
  split at h
  · split at h <;> cases h
    · exact ⟨‹_›, .inl ⟨‹_›, rfl⟩⟩
    · rename_i hstop
      exact ⟨‹_›, .inr ⟨by simpa using hstop, rfl⟩⟩
  · cases h

theorem take_cases (h : q.take t = some q') :
    ∃ val rest, q.pops t = .take ∧ q.queue = val :: rest ∧
      q' = { q with queue := rest, mutex := none }.setPop t (.returned (some val)) := by
  unfold CConcurrentQueue.take at h
  split at h <;> cases h
  exact ⟨_, _, ‹_›, ‹_›, rfl⟩

theorem call_cases (h : q.call t = some q') :
    (q.pops t = .idle ∨ ∃ val, q.pops t = .returned val) ∧ q' = q.setPop t .enter := by
  unfold CConcurrentQueue.call at h
  split at h <;> cases h
  · exact ⟨.inl ‹_›, rfl⟩
  · exact ⟨.inr ⟨_, ‹_›⟩, rfl⟩

/-- A notification or a wake-up takes threads from the condition variable, and leaves the rest. -/
structure Wakes (q q' : CConcurrentQueue T) : Prop where
  isStop : q.isStop = true → q'.isStop = true
  queue : q'.queue = q.queue
  mutex : q'.mutex = q.mutex
  pops : q'.pops = q.pops
  cvCond : ∀ t ∈ q'.cvCond, t ∈ q.cvCond

theorem notifyOne_cases {o : Option Nat} (h : q.notifyOne o = some q') :
    ∃ n, q.pushing = n + 1 ∧
      ((∃ t, o = some t ∧ t ∈ q.cvCond ∧
          q' = { q with pushing := n, cvCond := q.cvCond.erase t }) ∨
        (o = none ∧ q.cvCond = [] ∧ q' = { q with pushing := n })) := by
  unfold notifyOne at h
  split at h
  · rename_i n t hn
    split at h <;> cases h
    exact ⟨n, hn, .inl ⟨t, rfl, ‹_›, rfl⟩⟩
  · rename_i n hn
    split at h <;> cases h
    exact ⟨n, hn, .inr ⟨rfl, ‹_›, rfl⟩⟩
  · cases h

/-- **What a step does**: the threads in `pop` move, an item is pushed, or threads are woken. -/
theorem queue_step_cases {e : QueueEvent T} (h : CConcurrentQueue.step q e = some q') :
    (∃ t, e = .call t ∧ q.call t = some q') ∨ (∃ t, e = .test t ∧ q.test t = some q') ∨
    (∃ t, e = .readStop t ∧ q.readStop t = some q') ∨ (∃ t, e = .take t ∧ q.take t = some q') ∨
    (∃ item, e = .push item ∧ q.mutex = none ∧
      q' = { q with queue := q.queue ++ [item], pushing := q.pushing + 1 }) ∨ Wakes q q' := by
  cases e with
  | call t => exact .inl ⟨t, rfl, h⟩
  | test t => exact .inr (.inl ⟨t, rfl, h⟩)
  | readStop t => exact .inr (.inr (.inl ⟨t, rfl, h⟩))
  | take t => exact .inr (.inr (.inr (.inl ⟨t, rfl, h⟩)))
  | push item =>
    simp only [CConcurrentQueue.step, CConcurrentQueue.push] at h
    split at h <;> cases h
    exact .inr (.inr (.inr (.inr (.inl ⟨item, rfl, ‹_›, rfl⟩))))
  | notifyOne o =>
    obtain ⟨n, _, ⟨t, _, _, rfl⟩ | ⟨_, _, rfl⟩⟩ := notifyOne_cases h
    · exact .inr (.inr (.inr (.inr (.inr ⟨id, rfl, rfl, rfl, fun _ => List.mem_of_mem_erase⟩))))
    · exact .inr (.inr (.inr (.inr (.inr ⟨id, rfl, rfl, rfl, fun _ h => h⟩))))
  | stop =>
    cases h
    exact .inr (.inr (.inr (.inr (.inr ⟨fun _ => rfl, rfl, rfl, rfl, fun _ h => h⟩))))
  | notifyAll =>
    simp only [CConcurrentQueue.step, notifyAll] at h
    split at h <;> cases h
    exact .inr (.inr (.inr (.inr (.inr ⟨id, rfl, rfl, rfl, fun _ h => by cases h⟩))))
  | spurious t =>
    simp only [CConcurrentQueue.step, spurious] at h
    split at h <;> cases h
    exact .inr (.inr (.inr (.inr (.inr ⟨id, rfl, rfl, rfl, fun _ => List.mem_of_mem_erase⟩))))

/-! ## Consistency -/

theorem create_consistent : Consistent (CConcurrentQueue.create : CConcurrentQueue T) := by
  constructor <;> simp [CConcurrentQueue.create]

/-- A thread outside the mutex moves to another place outside it. -/
theorem CConcurrentQueue.Consistent.outside (hc : Consistent q) {pc : PopPc T} {cv : List Nat}
    (hold : q.pops t ≠ .tested ∧ q.pops t ≠ .take) (hnew : pc ≠ .tested ∧ pc ≠ .take)
    (hcv : ∀ u ∈ cv, u = t ∧ pc = .wait ∨ u ≠ t ∧ u ∈ q.cvCond) :
    Consistent ({ q with cvCond := cv }.setPop t pc) := by
  refine ⟨fun u => ?_, hc.nonempty, fun u hu => ?_⟩
  · by_cases hut : u = t
    · subst hut
      simpa [hnew] using fun hm => hold.1 (((hc.holder u).mp hm).resolve_right hold.2)
    · simpa [Function.update_of_ne hut] using hc.holder u
  · rcases hcv u hu with ⟨rfl, rfl⟩ | ⟨hut, hu⟩
    · simp
    · simpa [Function.update_of_ne hut] using hc.blocked u hu

theorem blocked_ne (hc : Consistent q) (ht : q.pops t ≠ .wait) {u : Nat} (hu : u ∈ q.cvCond) :
    u ≠ t := by
  rintro rfl
  exact ht (hc.blocked u hu)

/-- The thread that holds the mutex leaves it. -/
theorem CConcurrentQueue.Consistent.leave (hc : Consistent q) {val : Option T} {rest : List T}
    (hm : q.pops t = .tested ∨ q.pops t = .take) :
    Consistent ({ q with queue := rest, mutex := none }.setPop t (.returned val)) := by
  have hmt := (hc.holder t).mpr hm
  refine ⟨fun u => ?_, fun u hu => ?_, fun u hu => ?_⟩
  · by_cases hut : u = t
    · subst hut
      simp
    · have hno : ¬ (q.pops u = .tested ∨ q.pops u = .take) := by
        rw [← hc.holder u, hmt]
        exact fun h => hut (Option.some.inj h).symm
      simpa [Function.update_of_ne hut] using hno
  · cases hu
  · have hut : u ≠ t := blocked_ne hc (by rcases hm with h | h <;> simp [h]) hu
    simpa [Function.update_of_ne hut] using hc.blocked u hu

theorem Wakes.consistent (hw : Wakes q q') (hc : Consistent q) : Consistent q' := by
  refine ⟨fun t => ?_, fun t ht => ?_, fun t ht => ?_⟩
  · rw [hw.mutex, hw.pops]
    exact hc.holder t
  · rw [hw.queue]
    exact hc.nonempty t (hw.mutex ▸ ht)
  · rw [hw.pops]
    exact hc.blocked t (hw.cvCond t ht)

theorem test_consistent (hc : Consistent q) (h : q.test t = some q') : Consistent q' := by
  obtain ⟨hpc, hfree, ⟨_, rfl⟩ | ⟨hne, rfl⟩⟩ := test_cases h
  · refine hc.outside (by rcases hpc with h | ⟨h, _⟩ <;> simp [h]) (by simp) (fun u hu => ?_)
    by_cases hut : u = t
    · exact .inl ⟨hut, rfl⟩
    · refine .inr ⟨hut, ?_⟩
      simpa [hut] using hu
  · -- the thread becomes the holder
    refine ⟨fun u => ?_, fun _ _ => hne, fun u hu => ?_⟩
    · by_cases hut : u = t
      · subst hut
        simp
      · have hno : ¬ (q.pops u = .tested ∨ q.pops u = .take) := by
          rw [← hc.holder u, hfree]
          exact fun h => by cases h
        simpa [Function.update_of_ne hut, Ne.symm hut] using hno
    · have hut : u ≠ t := by
        rintro rfl
        rcases hpc with h | ⟨_, h⟩
        · exact blocked_ne hc (by simp [h]) hu rfl
        · exact h hu
      simpa [Function.update_of_ne hut] using hc.blocked u hu

theorem step_consistent {e : QueueEvent T} (hc : Consistent q)
    (h : CConcurrentQueue.step q e = some q') : Consistent q' := by
  rcases queue_step_cases h with ⟨t, _, h⟩ | ⟨t, _, h⟩ | ⟨t, _, h⟩ | ⟨t, _, h⟩ |
    ⟨item, _, hm, rfl⟩ | hw
  · obtain ⟨hpc, rfl⟩ := call_cases h
    refine hc.outside (by rcases hpc with h | ⟨_, h⟩ <;> simp [h]) (by simp)
      (fun u hu => .inr ⟨?_, hu⟩)
    exact blocked_ne hc (by rcases hpc with h | ⟨_, h⟩ <;> simp [h]) hu
  · exact test_consistent hc h
  · obtain ⟨hpc, ⟨_, rfl⟩ | ⟨_, rfl⟩⟩ := readStop_cases h
    · exact hc.leave (.inl hpc)
    · -- the mutex stays with the thread
      refine ⟨fun u => ?_, hc.nonempty, fun u hu => ?_⟩
      · by_cases hut : u = t
        · subst hut
          simpa using (hc.holder u).mpr (.inl hpc)
        · simpa [Function.update_of_ne hut] using hc.holder u
      · have hut : u ≠ t := blocked_ne hc (by simp [hpc]) hu
        simpa [Function.update_of_ne hut] using hc.blocked u hu
  · obtain ⟨_, _, hpc, _, rfl⟩ := take_cases h
    exact hc.leave (.inr hpc)
  · refine ⟨hc.holder, fun t ht => ?_, hc.blocked⟩
    rw [hm] at ht
    cases ht
  · exact hw.consistent hc

/-! ## After `stopAllPop` -/

/-- Outside the mutex nothing is about to be taken. -/
theorem remaining_of_free (h : q.mutex = none) : q.remaining = q.queue := by
  simp [remaining, h]

theorem remaining_congr (hq : q'.queue = q.queue) (hm : q'.mutex = q.mutex)
    (hp : ∀ u, q.mutex = some u → q'.pops u = q.pops u) : q'.remaining = q.remaining := by
  unfold remaining
  rw [hm, hq]
  cases hmu : q.mutex with
  | none => rfl
  | some u => simp only [hp u hmu]

/-- **Once the flag is set, only a `push` changes what is left.** -/
theorem step_remaining {e : QueueEvent T} (hc : Consistent q) (hstop : q.isStop = true)
    (he : e.isPush = false) (h : CConcurrentQueue.step q e = some q') :
    q'.isStop = true ∧ q'.remaining = q.remaining := by
  rcases queue_step_cases h with ⟨t, _, h⟩ | ⟨t, _, h⟩ | ⟨t, _, h⟩ | ⟨t, _, h⟩ |
    ⟨item, rfl, _, _⟩ | hw
  · obtain ⟨hpc, rfl⟩ := call_cases h
    refine ⟨hstop, remaining_congr rfl rfl (fun u hu => ?_)⟩
    have hut : u ≠ t := by
      rintro rfl
      have := (hc.holder u).mp hu
      rcases hpc with h | ⟨_, h⟩ <;> simp [h] at this
    simp [Function.update_of_ne hut]
  · obtain ⟨_, hfree, ⟨_, rfl⟩ | ⟨_, rfl⟩⟩ := test_cases h
    · exact ⟨hstop, by simp [remaining, hfree]⟩
    · exact ⟨hstop, by simp [remaining, hfree]⟩
  · obtain ⟨hpc, ⟨_, rfl⟩ | ⟨hgo, _⟩⟩ := readStop_cases h
    · refine ⟨hstop, ?_⟩
      simp [remaining, (hc.holder t).mpr (.inl hpc), hpc]
    · rw [hstop] at hgo
      cases hgo
  · obtain ⟨_, _, hpc, hq, rfl⟩ := take_cases h
    refine ⟨hstop, ?_⟩
    simp [remaining, (hc.holder t).mpr (.inr hpc), hpc, hq]
  · cases he
  · exact ⟨hw.isStop hstop, remaining_congr hw.queue hw.mutex (fun u _ => by rw [hw.pops])⟩

/-- With nothing left, a thread does not come out of its wait loop. -/
theorem step_inLoop {e : QueueEvent T} (hrem : q.remaining = []) (hl : q.InLoop t)
    (h : CConcurrentQueue.step q e = some q') : q'.InLoop t := by
  have hother : ∀ {u pc}, q'.pops = Function.update q.pops u pc → u ≠ t → q'.InLoop t := by
    intro u pc hp hut
    unfold InLoop
    rw [hp, Function.update_of_ne (Ne.symm hut)]
    exact hl
  have hout : q.pops t ≠ .idle ∧ (∀ v, q.pops t ≠ .returned v) ∧ q.pops t ≠ .tested ∧
      q.pops t ≠ .take := by
    rcases hl with h | h <;> simp [h]
  rcases queue_step_cases h with ⟨u, _, h⟩ | ⟨u, _, h⟩ | ⟨u, _, h⟩ | ⟨u, _, h⟩ |
    ⟨item, _, _, rfl⟩ | hw
  · obtain ⟨hpc, rfl⟩ := call_cases h
    refine hother rfl (fun hut => ?_)
    subst hut
    rcases hpc with h | ⟨v, h⟩
    · exact hout.1 h
    · exact hout.2.1 v h
  · obtain ⟨_, hfree, ⟨_, rfl⟩ | ⟨hne, _⟩⟩ := test_cases h
    · by_cases hut : u = t
      · subst hut
        exact .inr (by simp)
      · exact hother rfl hut
    · rw [remaining_of_free hfree] at hrem
      exact absurd hrem hne
  · obtain ⟨hpc, ⟨_, rfl⟩ | ⟨_, rfl⟩⟩ := readStop_cases h <;>
      exact hother rfl (fun hut => hout.2.2.1 (hut ▸ hpc))
  · obtain ⟨_, _, hpc, _, rfl⟩ := take_cases h
    exact hother rfl (fun hut => hout.2.2.2 (hut ▸ hpc))
  · exact hl
  · unfold InLoop
    rw [hw.pops]
    exact hl

/-- With something left, no thread is blocked anew. -/
theorem step_unblocked {e : QueueEvent T} (hrem : q.remaining ≠ [])
    (h : CConcurrentQueue.step q e = some q') : ∀ u ∈ q'.cvCond, u ∈ q.cvCond := by
  rcases queue_step_cases h with ⟨t, _, h⟩ | ⟨t, _, h⟩ | ⟨t, _, h⟩ | ⟨t, _, h⟩ |
    ⟨item, _, _, rfl⟩ | hw
  · obtain ⟨_, rfl⟩ := call_cases h
    exact fun _ hu => hu
  · obtain ⟨_, hfree, ⟨hnil, _⟩ | ⟨_, rfl⟩⟩ := test_cases h
    · rw [remaining_of_free hfree] at hrem
      exact absurd hnil hrem
    · exact fun _ hu => hu
  · obtain ⟨_, ⟨_, rfl⟩ | ⟨_, rfl⟩⟩ := readStop_cases h <;> exact fun _ hu => hu
  · obtain ⟨_, _, _, _, rfl⟩ := take_cases h
    exact fun _ hu => hu
  · exact fun _ hu => hu
  · exact hw.cvCond

/-- A thread in `pop` stays in it or has returned. -/
theorem step_called {e : QueueEvent T} (ht : q.pops t ≠ .idle)
    (h : CConcurrentQueue.step q e = some q') : q'.pops t ≠ .idle := by
  have hother : ∀ {u pc}, q'.pops = Function.update q.pops u pc → pc ≠ .idle →
      q'.pops t ≠ .idle := by
    intro u pc hp hpc
    rw [hp]
    by_cases hut : t = u
    · subst hut
      simpa using hpc
    · simpa [Function.update_of_ne hut] using ht
  rcases queue_step_cases h with ⟨u, _, h⟩ | ⟨u, _, h⟩ | ⟨u, _, h⟩ | ⟨u, _, h⟩ |
    ⟨item, _, _, rfl⟩ | hw
  · obtain ⟨_, rfl⟩ := call_cases h
    exact hother rfl (by simp)
  · obtain ⟨_, _, ⟨_, rfl⟩ | ⟨_, rfl⟩⟩ := test_cases h <;> exact hother rfl (by simp)
  · obtain ⟨_, ⟨_, rfl⟩ | ⟨_, rfl⟩⟩ := readStop_cases h <;> exact hother rfl (by simp)
  · obtain ⟨_, _, _, _, rfl⟩ := take_cases h
    exact hother rfl (by simp)
  · exact ht
  · rw [hw.pops]
    exact ht

/-- The flag is never taken back. -/
theorem step_isStop {e : QueueEvent T} (hstop : q.isStop = true)
    (h : CConcurrentQueue.step q e = some q') : q'.isStop = true := by
  rcases queue_step_cases h with ⟨u, _, h⟩ | ⟨u, _, h⟩ | ⟨u, _, h⟩ | ⟨u, _, h⟩ |
    ⟨item, _, _, rfl⟩ | hw
  · obtain ⟨_, rfl⟩ := call_cases h
    exact hstop
  · obtain ⟨_, _, ⟨_, rfl⟩ | ⟨_, rfl⟩⟩ := test_cases h <;> exact hstop
  · obtain ⟨_, ⟨_, rfl⟩ | ⟨_, rfl⟩⟩ := readStop_cases h <;> exact hstop
  · obtain ⟨_, _, _, _, rfl⟩ := take_cases h
    exact hstop
  · exact hstop
  · exact hw.isStop hstop

/-- A thread outside `pop` only moves by calling it. -/
theorem step_outside {e : QueueEvent T} (he : ∀ u, e ≠ .call u)
    (ht : q.pops t = .idle ∨ ∃ val, q.pops t = .returned val)
    (h : CConcurrentQueue.step q e = some q') : q'.pops t = q.pops t := by
  have hother : ∀ {u pc}, q'.pops = Function.update q.pops u pc →
      (q.pops u ≠ .idle ∧ ∀ val, q.pops u ≠ .returned val) → q'.pops t = q.pops t := by
    rintro u pc hp ⟨hidle, hret⟩
    have hut : t ≠ u := by
      rintro rfl
      rcases ht with h | ⟨val, h⟩
      · exact hidle h
      · exact hret val h
    rw [hp, Function.update_of_ne hut]
  rcases queue_step_cases h with ⟨u, hcall, _⟩ | ⟨u, _, h⟩ | ⟨u, _, h⟩ | ⟨u, _, h⟩ |
    ⟨item, _, _, rfl⟩ | hw
  · exact absurd hcall (he u)
  · obtain ⟨hpc, _, ⟨_, rfl⟩ | ⟨_, rfl⟩⟩ := test_cases h <;>
      exact hother rfl (by rcases hpc with h | ⟨h, _⟩ <;> simp [h])
  · obtain ⟨hpc, ⟨_, rfl⟩ | ⟨_, rfl⟩⟩ := readStop_cases h <;> exact hother rfl (by simp [hpc])
  · obtain ⟨_, _, hpc, _, rfl⟩ := take_cases h
    exact hother rfl (by simp [hpc])
  · rfl
  · rw [hw.pops]

/-- Without enough notifications, some thread stays blocked. -/
theorem step_unnotified {e : QueueEvent T} (hquiet : e.quiet = true)
    (hlt : q.pushing < q.cvCond.length) (h : CConcurrentQueue.step q e = some q') :
    q'.pushing < q'.cvCond.length := by
  cases e with
  | test t =>
    obtain ⟨_, _, ⟨_, rfl⟩ | ⟨_, rfl⟩⟩ := test_cases h
    · simp only [setPop, List.length_append, List.length_singleton]
      omega
    · exact hlt
  | readStop t =>
    obtain ⟨_, ⟨_, rfl⟩ | ⟨_, rfl⟩⟩ := readStop_cases h <;> exact hlt
  | take t =>
    obtain ⟨_, _, _, _, rfl⟩ := take_cases h
    exact hlt
  | notifyOne o =>
    obtain ⟨n, hn, ⟨t, _, hmem, rfl⟩ | ⟨_, hnil, _⟩⟩ := notifyOne_cases h
    · simp only [List.length_erase_of_mem hmem]
      omega
    · simp [hnil] at hlt
  | _ => cases hquiet

/-- The holder of the mutex gives it back in one step. -/
theorem free_mutex (hc : Consistent q) (hstop : q.isStop = true) :
    ∃ es q₁, es.all QueueEvent.quiet ∧ run CConcurrentQueue.step q es = some q₁ ∧
      q₁.mutex = none ∧ q₁.isStop = true ∧ q₁.queue = q.remaining ∧ q₁.cvCond = q.cvCond ∧
      q₁.pushing = q.pushing ∧
      ∀ u, q₁.pops u = q.pops u ∨ (q.mutex = some u ∧ ∃ val, q₁.pops u = .returned val) := by
  cases hm : q.mutex with
  | none => exact ⟨[], q, rfl, rfl, hm, hstop, (remaining_of_free hm).symm, rfl, rfl,
      fun u => .inl rfl⟩
  | some t =>
    have hpops : ∀ val u, (Function.update q.pops t (.returned val) u : PopPc T) = q.pops u ∨
        (some t = some u ∧
          ∃ val', Function.update q.pops t (.returned val) u = .returned val') := by
      intro val u
      by_cases hut : u = t
      · subst hut
        exact .inr ⟨rfl, val, by simp⟩
      · exact .inl (Function.update_of_ne hut _ _)
    rcases (hc.holder t).mp hm with hpc | hpc
    · refine ⟨[.readStop t], { q with mutex := none }.setPop t (.returned none), rfl, ?_, rfl,
        hstop, ?_, rfl, rfl, hpops none⟩
      · simp [run, CConcurrentQueue.step, readStop, hpc, hstop]
      · simp [remaining, hm, hpc]
    · obtain ⟨val, rest, hq⟩ := List.exists_cons_of_ne_nil (hc.nonempty t hm)
      refine ⟨[.take t], { q with queue := rest, mutex := none }.setPop t (.returned (some val)),
        rfl, ?_, rfl, hstop, ?_, rfl, rfl, hpops (some val)⟩
      · simp [run, CConcurrentQueue.step, CConcurrentQueue.take, hpc, hq]
      · simp [remaining, hm, hpc, hq]

/-- A thread that is not blocked leaves its wait loop and returns in two steps. -/
theorem leave_loop (hfree : q.mutex = none) (hstop : q.isStop = true) (hne : q.queue ≠ [])
    (ht : q.pops t = .enter ∨ q.pops t = .wait ∧ t ∉ q.cvCond) :
    run CConcurrentQueue.step q [.test t, .readStop t] = some (q.setPop t (.returned none)) := by
  obtain ⟨val, rest, hq⟩ := List.exists_cons_of_ne_nil hne
  have htest : q.test t = some ({ q with mutex := some t }.setPop t .tested) := by
    rcases ht with h | ⟨h, hcv⟩
    · simp [CConcurrentQueue.test, waitLoop, h, hfree, hq]
    · simp [CConcurrentQueue.test, waitLoop, h, hcv, hfree, hq]
  simp [run, CConcurrentQueue.step, htest, readStop, hstop, hfree]

theorem pop_returns (hc : Consistent q) (hstop : q.isStop = true) (hrem : q.remaining ≠ [])
    (ht : q.pops t ≠ .idle) (hcv : t ∉ q.cvCond) :
    ∃ es q', es.all QueueEvent.quiet ∧ run CConcurrentQueue.step q es = some q' ∧
      ∃ val, q'.pops t = .returned val := by
  obtain ⟨es, q₁, hquiet, hrun, hfree, hstop₁, hq₁, hcv₁, _, hpops⟩ := free_mutex hc hstop
  have hc₁ : Consistent q₁ := run_invariant (fun _ _ _ hi hs => step_consistent hi hs) hc hrun
  cases hpc : q₁.pops t with
  | idle =>
    rcases hpops t with h | ⟨_, val, h⟩
    · exact absurd (h ▸ hpc) ht
    · rw [h] at hpc
      cases hpc
  | enter =>
    refine ⟨es ++ [.test t, .readStop t], q₁.setPop t (.returned none),
      by simp [hquiet, QueueEvent.quiet], ?_, none, by simp⟩
    exact run_append.mpr ⟨q₁, hrun, leave_loop hfree hstop₁ (hq₁ ▸ hrem) (.inl hpc)⟩
  | wait =>
    refine ⟨es ++ [.test t, .readStop t], q₁.setPop t (.returned none),
      by simp [hquiet, QueueEvent.quiet], ?_, none, by simp⟩
    exact run_append.mpr ⟨q₁, hrun, leave_loop hfree hstop₁ (hq₁ ▸ hrem)
      (.inr ⟨hpc, hcv₁ ▸ hcv⟩)⟩
  | tested =>
    have := (hc₁.holder t).mpr (.inl hpc)
    rw [hfree] at this
    cases this
  | take =>
    have := (hc₁.holder t).mpr (.inr hpc)
    rw [hfree] at this
    cases this
  | returned val => exact ⟨es, q₁, hquiet, hrun, val, hpc⟩

end Steps

theorem run_consistent {es : List (QueueEvent T)} {q : CConcurrentQueue T}
    (h : run CConcurrentQueue.step .create es = some q) : Consistent q :=
  run_invariant (fun _ _ _ hi hs => step_consistent hi hs) create_consistent h

/-- A run without a `push`. -/
def PushFree (es : List (QueueEvent T)) : Prop := ∀ e ∈ es, e.isPush = false

theorem pushFree_of_quiet {es : List (QueueEvent T)} (h : es.all QueueEvent.quiet) :
    PushFree es := by
  intro e he
  have := List.all_eq_true.mp h e he
  cases e <;> first | rfl | cases this

/-- A `pop` call returns without a further `push`: it is not blocked again, and wherever it and the
    other threads get without a `push`, their own steps and the notifications under way let it
    return. -/
def Released (q : CConcurrentQueue T) (t : Nat) : Prop :=
  ∀ es q', PushFree es → run CConcurrentQueue.step q es = some q' →
    t ∉ q'.cvCond ∧ ∃ es' q'', es'.all QueueEvent.quiet ∧
      run CConcurrentQueue.step q' es' = some q'' ∧ ∃ val, q''.pops t = .returned val

/-- **When a stopped queue releases a popper.**  In a state with the flag set, a `pop` that starts
    or is woken returns without a further `push` exactly when something is left in the queue. -/
theorem pop_released_iff {q : CConcurrentQueue T} (hc : Consistent q) (hstop : q.isStop = true)
    {t : Nat} (ht : q.pops t = .enter ∨ q.pops t = .wait ∧ t ∉ q.cvCond) :
    Released q t ↔ q.remaining ≠ [] := by
  constructor
  · intro hrel hrem
    obtain ⟨_, es, q', hquiet, hrun, val, hval⟩ := hrel [] q (fun _ h => by cases h) rfl
    -- the thread is still in its loop after the run
    have hinv : (Consistent q' ∧ q'.isStop = true) ∧ q'.remaining = [] ∧ q'.InLoop t := by
      refine run_preserves (C := fun _ e => e.isPush = false) (I := fun q =>
        (Consistent q ∧ q.isStop = true) ∧ q.remaining = [] ∧ q.InLoop t) ?_ es q q'
        ⟨⟨hc, hstop⟩, hrem, ht.imp id And.left⟩
        (meets_of_forall es q (fun e he _ => pushFree_of_quiet hquiet e he)) hrun
      rintro q e q' ⟨⟨hc, hstop⟩, hrem, hl⟩ he h
      obtain ⟨hstop', hrem'⟩ := step_remaining hc hstop he h
      exact ⟨⟨step_consistent hc h, hstop'⟩, hrem'.trans hrem, step_inLoop hrem hl h⟩
    rcases hinv.2.2 with h | h <;> rw [hval] at h <;> cases h
  · intro hrem es q' hfree hrun
    have hinv : (Consistent q' ∧ q'.isStop = true) ∧ q'.remaining ≠ [] ∧ q'.pops t ≠ .idle ∧
        t ∉ q'.cvCond := by
      refine run_preserves (C := fun _ e => e.isPush = false) (I := fun q =>
        (Consistent q ∧ q.isStop = true) ∧ q.remaining ≠ [] ∧ q.pops t ≠ .idle ∧ t ∉ q.cvCond)
        ?_ es q q' ⟨⟨hc, hstop⟩, hrem, ?_, ?_⟩
        (meets_of_forall es q (fun e he _ => hfree e he)) hrun
      · rintro q e q' ⟨⟨hc, hstop⟩, hrem, hidle, hcv⟩ he h
        obtain ⟨hstop', hrem'⟩ := step_remaining hc hstop he h
        exact ⟨⟨step_consistent hc h, hstop'⟩, hrem' ▸ hrem, step_called hidle h,
          fun hmem => hcv (step_unblocked hrem h t hmem)⟩
      · rcases ht with h | ⟨h, _⟩ <;> simp [h]
      · rcases ht with h | ⟨_, h⟩
        · exact fun hmem => blocked_ne hc (by simp [h]) hmem rfl
        · exact h
    obtain ⟨⟨hc', hstop'⟩, hrem', hidle', hcv'⟩ := hinv
    exact ⟨hcv', pop_returns hc' hstop' hrem' hidle' hcv'⟩

end IMonPlatform
