import Mathlib.Data.List.Basic
import Mathlib.Logic.Function.Basic
import IMonPlatform.Lib.Transition

/-!
# `CSharedQueue`

A queue under a critical section that every member function holds from its first line to its last.
`Wait_and_pop` waits for an item by sleeping inside the section, so that nobody can push one.

* `CSharedQueue.step` — one step of any thread.
* `step_queueOk` — the section excludes and the queue is first in, first out.
* `stuck_forever` — a `Wait_and_pop` that sleeps never wakes up to an item, and no other call of any
  member function ever returns.
* `shared_queue_live_iff` — this happens exactly when `Wait_and_pop` enters on an empty queue;
  otherwise calls can return.
-/

set_option autoImplicit false

namespace IMonPlatform

open Transition

variable {T : Type}

/-- A member function with its argument. -/
inductive SharedOp (T : Type) where
  | Push (item : T)
  | Try_and_pop
  | Wait_and_pop
  | IsEmpty
  | Size
  deriving DecidableEq, Repr

/-- What a member function gives back. -/
inductive SharedResult (T : Type) where
  | done
  | popped (item : Option T)
  | empty (isEmpty : Bool)
  | size (n : Nat)
  deriving DecidableEq, Repr

/-- A thread outside, in front of the critical section, or in it. -/
inductive SharedPc (T : Type) where
  | out
  | waiting (op : SharedOp T)
  | inside (op : SharedOp T)
  deriving DecidableEq, Repr

structure CSharedQueue (T : Type) where
  queue : List T
  /-- The owner of `_cs`. -/
  cs : Option Nat
  threads : Nat → SharedPc T
  pushed : List T
  popped : List T
  returned : List (Nat × SharedResult T)

inductive SharedEvent (T : Type) where
  | call (t : Nat) (op : SharedOp T)
  | enter (t : Nat)
  | run (t : Nat)

/-- The section of a member function; `none` when it sleeps and tests again. -/
def SharedOp.body (queue : List T) : SharedOp T → Option (List T × SharedResult T)
  | .Push item => some (queue ++ [item], .done)
  | .Try_and_pop =>
    match queue with
    | [] => some ([], .popped none)
    | item :: rest => some (rest, .popped (some item))
  | .Wait_and_pop =>
    match queue with
    | [] => none
    | item :: rest => some (rest, .popped (some item))
  | .IsEmpty => some (queue, .empty queue.isEmpty)
  | .Size => some (queue, .size queue.length)

/-- The items that a member function brings and takes. -/
def SharedOp.brings : SharedOp T → List T
  | .Push item => [item]
  | _ => []

def SharedResult.takes : SharedResult T → List T
  | .popped (some item) => [item]
  | _ => []

namespace CSharedQueue

def create : CSharedQueue T := ⟨[], none, fun _ => .out, [], [], []⟩

/-- A thread leaves the section with a result. -/
def leave (q : CSharedQueue T) (t : Nat) (op : SharedOp T) (queue : List T)
    (result : SharedResult T) : CSharedQueue T :=
  { queue := queue
    cs := none
    threads := Function.update q.threads t .out
    pushed := q.pushed ++ op.brings
    popped := q.popped ++ result.takes
    returned := q.returned ++ [(t, result)] }

def step (q : CSharedQueue T) : SharedEvent T → Option (CSharedQueue T)
  | .call t op =>
    match q.threads t with
    | .out => some { q with threads := Function.update q.threads t (.waiting op) }
    | _ => none
  | .enter t =>
    match q.threads t, q.cs with
    | .waiting op, none =>
      some { q with cs := some t, threads := Function.update q.threads t (.inside op) }
    | _, _ => none
  | .run t =>
    match q.threads t with
    | .inside op =>
      match op.body q.queue with
      | none => some q
      | some (queue, result) => some (q.leave t op queue result)
    | _ => none

/-- A thread sleeps in `Wait_and_pop`. -/
def Stuck (q : CSharedQueue T) : Prop :=
  q.queue = [] ∧ ∃ t, q.threads t = .inside .Wait_and_pop

/-- `Wait_and_pop` does not enter the section while the queue is empty. -/
def FindsItem (q : CSharedQueue T) : SharedEvent T → Prop
  | .enter t => q.threads t = .waiting .Wait_and_pop → q.queue ≠ []
  | _ => True

/-- The section excludes, and what was popped and what is left was pushed in this order. -/
structure QueueOk (q : CSharedQueue T) : Prop where
  owner : ∀ t op, q.threads t = .inside op → q.cs = some t
  held : ∀ t, q.cs = some t → ∃ op, q.threads t = .inside op
  fifo : q.pushed = q.popped ++ q.queue

variable {q q' : CSharedQueue T}

theorem create_queueOk : QueueOk (create : CSharedQueue T) := ⟨nofun, nofun, rfl⟩

/-! ## What a step does -/

theorem call_cases {t : Nat} {op : SharedOp T} (h : q.step (.call t op) = some q') :
    q.threads t = .out ∧ q' = { q with threads := Function.update q.threads t (.waiting op) } := by
  simp only [CSharedQueue.step] at h
  split at h
  · rename_i hout
    cases h
    exact ⟨hout, rfl⟩
  · cases h

theorem enter_cases {t : Nat} (h : q.step (.enter t) = some q') :
    ∃ op, q.threads t = .waiting op ∧ q.cs = none ∧
      q' = { q with cs := some t, threads := Function.update q.threads t (.inside op) } := by
  simp only [CSharedQueue.step] at h
  split at h
  · rename_i op hwait hfree
    cases h
    exact ⟨op, hwait, hfree, rfl⟩
  · cases h

/-- A thread in the section sleeps, in `Wait_and_pop` on an empty queue, or leaves. -/
theorem run_cases {t : Nat} (h : q.step (.run t) = some q') :
    ∃ op, q.threads t = .inside op ∧
      (op.body q.queue = none ∧ q' = q ∨
        ∃ queue result, op.body q.queue = some (queue, result) ∧
          q' = q.leave t op queue result) := by
  simp only [CSharedQueue.step] at h
  split at h
  · rename_i op hin
    refine ⟨op, hin, ?_⟩
    split at h
    · rename_i hbody
      cases h
      exact .inl ⟨hbody, rfl⟩
    · rename_i queue result hbody
      cases h
      exact .inr ⟨queue, result, hbody, rfl⟩
  · cases h

theorem body_none_iff {queue : List T} {op : SharedOp T} :
    op.body queue = none ↔ op = .Wait_and_pop ∧ queue = [] := by
  cases op <;> cases queue <;> simp [SharedOp.body]

/-- A section takes items from the front and brings them to the back. -/
theorem body_fifo {queue queue' : List T} {op : SharedOp T} {result : SharedResult T}
    (h : op.body queue = some (queue', result)) :
    queue ++ op.brings = result.takes ++ queue' := by
  cases op with
  | Push item =>
    cases h
    rfl
  | Try_and_pop =>
    cases queue <;> cases h <;> simp [SharedOp.brings, SharedResult.takes]
  | Wait_and_pop =>
    cases queue <;> cases h
    simp [SharedOp.brings, SharedResult.takes]
  | IsEmpty =>
    cases h
    simp [SharedOp.brings, SharedResult.takes]
  | Size =>
    cases h
    simp [SharedOp.brings, SharedResult.takes]

/-- **A step keeps the section and the order.** -/
theorem step_queueOk {e : SharedEvent T} (hq : QueueOk q) (h : q.step e = some q') :
    QueueOk q' := by
  obtain ⟨howner, hheld, hfifo⟩ := hq
  cases e with
  | call t op =>
    obtain ⟨hout, rfl⟩ := call_cases h
    refine ⟨fun t' op' ht' => ?_, fun t' ht' => ?_, hfifo⟩
    · by_cases ht : t' = t
      · subst ht
        simp at ht'
      · simp only [Function.update_of_ne ht] at ht'
        exact howner t' op' ht'
    · obtain ⟨op', hin⟩ := hheld t' ht'
      have ht : t' ≠ t := by
        rintro rfl
        rw [hout] at hin
        cases hin
      exact ⟨op', by simp only [Function.update_of_ne ht, hin]⟩
  | enter t =>
    obtain ⟨op, hwait, hfree, rfl⟩ := enter_cases h
    refine ⟨fun t' op' ht' => ?_, fun t' ht' => ?_, hfifo⟩
    · by_cases ht : t' = t
      · rw [ht]
      · simp only [Function.update_of_ne ht] at ht'
        rw [howner t' op' ht'] at hfree
        cases hfree
    · cases ht'
      exact ⟨op, Function.update_self ..⟩
  | run t =>
    obtain ⟨op, hin, ⟨_, rfl⟩ | ⟨queue, result, hbody, rfl⟩⟩ := run_cases h
    · exact ⟨howner, hheld, hfifo⟩
    · refine ⟨fun t' op' ht' => ?_, nofun, ?_⟩
      · by_cases ht : t' = t
        · subst ht
          simp [leave] at ht'
        · simp only [leave, Function.update_of_ne ht] at ht'
          have hsame := (howner t' op' ht').symm.trans (howner t op hin)
          exact absurd (Option.some.inj hsame) ht
      · show q.pushed ++ op.brings = q.popped ++ result.takes ++ queue
        rw [hfifo, List.append_assoc, body_fifo hbody, List.append_assoc]

/-! ## Sleeping in the section -/

/-- The sleeping thread keeps the section, so nothing changes but the calls that are made. -/
theorem stuck_step {e : SharedEvent T} (hq : QueueOk q) (hs : Stuck q) (h : q.step e = some q') :
    Stuck q' ∧ q'.pushed = q.pushed ∧ q'.popped = q.popped ∧ q'.returned = q.returned := by
  obtain ⟨hempty, t, hin⟩ := hs
  have hcs := hq.owner t _ hin
  cases e with
  | call t' op =>
    obtain ⟨hout, rfl⟩ := call_cases h
    have ht : t ≠ t' := by
      rintro rfl
      rw [hout] at hin
      cases hin
    refine ⟨⟨hempty, t, ?_⟩, rfl, rfl, rfl⟩
    show Function.update q.threads t' _ t = _
    rw [Function.update_of_ne ht, hin]
  | enter t' =>
    obtain ⟨_, _, hfree, _⟩ := enter_cases h
    rw [hcs] at hfree
    cases hfree
  | run t' =>
    obtain ⟨op, hin', ⟨_, rfl⟩ | ⟨queue, result, hbody, _⟩⟩ := run_cases h
    · exact ⟨⟨hempty, t, hin⟩, rfl, rfl, rfl⟩
    · have hsame : t' = t := Option.some.inj ((hq.owner t' op hin').symm.trans hcs)
      rw [hsame, hin] at hin'
      cases hin'
      rw [body_none_iff.mpr ⟨rfl, hempty⟩] at hbody
      cases hbody

/-- **A sleep in the section lasts for ever**, and with it every call in front of the section. -/
theorem stuck_forever {es : List (SharedEvent T)} (hq : QueueOk q) (hs : Stuck q)
    (h : run CSharedQueue.step q es = some q') :
    Stuck q' ∧ q'.pushed = q.pushed ∧ q'.popped = q.popped ∧ q'.returned = q.returned := by
  have hinv := run_invariant
    (I := fun q' => QueueOk q' ∧ Stuck q' ∧ q'.pushed = q.pushed ∧ q'.popped = q.popped ∧
      q'.returned = q.returned) ?_ ⟨hq, hs, rfl, rfl, rfl⟩ h
  · exact hinv.2
  · rintro q₁ e q₂ ⟨hq₁, hs₁, h1, h2, h3⟩ hstep
    obtain ⟨hs₂, h1', h2', h3'⟩ := stuck_step hq₁ hs₁ hstep
    exact ⟨step_queueOk hq₁ hstep, hs₂, h1'.trans h1, h2'.trans h2, h3'.trans h3⟩

/-! ## Calls that return -/

/-- The thread in the section can leave it, unless it sleeps. -/
theorem leaves {t : Nat} {op : SharedOp T} (hin : q.threads t = .inside op) (hs : ¬ Stuck q) :
    ∃ queue result, op.body q.queue = some (queue, result) ∧
      q.step (.run t) = some (q.leave t op queue result) := by
  cases hbody : op.body q.queue with
  | none =>
    obtain ⟨rfl, hempty⟩ := body_none_iff.mp hbody
    exact absurd ⟨hempty, t, hin⟩ hs
  | some r => exact ⟨r.1, r.2, rfl, by simp only [CSharedQueue.step, hin, hbody]⟩

/-- A section takes at most one item. -/
theorem body_length {queue queue' : List T} {op : SharedOp T} {result : SharedResult T}
    (h : op.body queue = some (queue', result)) : queue.length ≤ queue'.length + 1 := by
  have hfifo := congrArg List.length (body_fifo h)
  have htakes : result.takes.length ≤ 1 := by
    unfold SharedResult.takes
    split <;> simp
  simp only [List.length_append] at hfifo
  omega

/-- The section can be made free. -/
theorem frees (hq : QueueOk q) (hs : ¬ Stuck q) {t : Nat} {op : SharedOp T}
    (hwait : q.threads t = .waiting op) :
    ∃ es q', run CSharedQueue.step q es = some q' ∧ q'.cs = none ∧ q'.threads t = .waiting op ∧
      q.queue.length ≤ q'.queue.length + 1 := by
  cases hcs : q.cs with
  | none => exact ⟨[], q, rfl, hcs, hwait, Nat.le_succ _⟩
  | some holder =>
    obtain ⟨op', hin⟩ := hq.held holder hcs
    obtain ⟨queue, result, hbody, hstep⟩ := leaves hin hs
    have hne : t ≠ holder := by
      rintro rfl
      rw [hin] at hwait
      cases hwait
    refine ⟨[.run holder], q.leave holder op' queue result, run_cons.mpr ⟨_, hstep, rfl⟩, rfl, ?_,
      body_length hbody⟩
    show Function.update q.threads holder _ t = _
    rw [Function.update_of_ne hne, hwait]

/-- **A waiting call can return** while nobody sleeps in the section; a `Wait_and_pop` needs an item
    besides the one that the owner of the section may take. -/
theorem call_returns (hq : QueueOk q) (hs : ¬ Stuck q) {t : Nat} {op : SharedOp T}
    (hwait : q.threads t = .waiting op) (hop : op = .Wait_and_pop → 2 ≤ q.queue.length) :
    ∃ es q' result, run CSharedQueue.step q es = some q' ∧ q'.threads t = .out ∧
      (t, result) ∈ q'.returned := by
  obtain ⟨es, q₁, hrun, hfree, hwait₁, hlen⟩ := frees hq hs hwait
  have henter : q₁.step (.enter t) =
      some { q₁ with cs := some t, threads := Function.update q₁.threads t (.inside op) } := by
    simp only [CSharedQueue.step, hwait₁, hfree]
  cases hbody : op.body q₁.queue with
  | none =>
    obtain ⟨rfl, hempty⟩ := body_none_iff.mp hbody
    have htwo := hop rfl
    rw [hempty] at hlen
    simp at hlen
    omega
  | some r =>
    have hleave : CSharedQueue.step
        { q₁ with cs := some t, threads := Function.update q₁.threads t (.inside op) } (.run t) =
          some (leave { q₁ with
            cs := some t, threads := Function.update q₁.threads t (.inside op) } t op r.1 r.2) := by
      simp only [CSharedQueue.step, Function.update_self, hbody]
    refine ⟨es ++ [.enter t, .run t], _, r.2,
      run_append.mpr ⟨q₁, hrun, run_cons.mpr ⟨_, henter, run_cons.mpr ⟨_, hleave, rfl⟩⟩⟩, ?_, ?_⟩
    · exact Function.update_self ..
    · exact List.mem_append_right _ (List.mem_singleton.mpr rfl)

/-! ## Runs -/

/-- **The queue lives exactly as long as `Wait_and_pop` finds an item.**  For every interleaving of
    any number of threads: no thread ever sleeps in the section if and only if no `Wait_and_pop`
    enters it on an empty queue; the items come out in the order in which they went in; while nobody
    sleeps a waiting call can return; and once somebody sleeps no call ever returns again. -/
theorem shared_queue_live_iff (es : List (SharedEvent T)) :
    (Always CSharedQueue.step (fun q => ¬ Stuck q) (create : CSharedQueue T) es ↔
      Meets CSharedQueue.step FindsItem create es) ∧
    ∀ q, run CSharedQueue.step (create : CSharedQueue T) es = some q →
      q.pushed = q.popped ++ q.queue ∧
      (¬ Stuck q → ∀ t op, q.threads t = .waiting op →
        (op = .Wait_and_pop → 2 ≤ q.queue.length) →
        ∃ es' q' result, run CSharedQueue.step q es' = some q' ∧ q'.threads t = .out ∧
          (t, result) ∈ q'.returned) ∧
      (Stuck q → ∀ es' q', run CSharedQueue.step q es' = some q' →
        Stuck q' ∧ q'.popped = q.popped ∧ q'.returned = q.returned) := by
  refine ⟨?_, fun q hrun => ?_⟩
  · refine always_iff_meets (I := fun q => QueueOk q ∧ ¬ Stuck q) (fun q hi => hi.2) ?_ ?_ es create
      ⟨create_queueOk, fun hs => by simp [Stuck, create] at hs⟩
    · rintro q e q' ⟨hq, hs⟩ hfinds hstep
      refine ⟨step_queueOk hq hstep, ?_⟩
      rintro ⟨hempty, t, hin⟩
      cases e with
      | call t' op =>
        obtain ⟨_, rfl⟩ := call_cases hstep
        by_cases ht : t = t'
        · subst ht
          simp at hin
        · simp only [Function.update_of_ne ht] at hin
          exact hs ⟨hempty, t, hin⟩
      | enter t' =>
        obtain ⟨op, hwait, _, rfl⟩ := enter_cases hstep
        by_cases ht : t = t'
        · subst ht
          simp only [Function.update_self, SharedPc.inside.injEq] at hin
          exact hfinds (hin ▸ hwait) hempty
        · simp only [Function.update_of_ne ht] at hin
          exact hs ⟨hempty, t, hin⟩
      | run t' =>
        obtain ⟨op, hin', ⟨_, rfl⟩ | ⟨queue, result, _, rfl⟩⟩ := run_cases hstep
        · exact hs ⟨hempty, t, hin⟩
        · -- whoever leaves was the only one in the section
          by_cases ht : t = t'
          · subst ht
            simp [leave] at hin
          · simp only [leave, Function.update_of_ne ht] at hin
            exact ht (Option.some.inj ((hq.owner t _ hin).symm.trans (hq.owner t' op hin')))
    · rintro q e q' ⟨hq, hs⟩ hfinds hstep hlive
      cases e with
      | enter t =>
        obtain ⟨op, _, _, rfl⟩ := enter_cases hstep
        simp only [FindsItem, Classical.not_imp, not_not] at hfinds
        obtain ⟨hwait', hempty⟩ := hfinds
        rename_i hwait _
        rw [hwait'] at hwait
        cases hwait
        exact hlive ⟨hempty, t, Function.update_self ..⟩
      | _ => exact hfinds trivial
  · have hq : QueueOk q := run_invariant (fun _ _ _ hi hs => step_queueOk hi hs) create_queueOk hrun
    refine ⟨hq.fifo, fun hs t op hwait hop => call_returns hq hs hwait hop, fun hs es' q' h => ?_⟩
    obtain ⟨hs', _, hpopped, hreturned⟩ := stuck_forever hq hs h
    exact ⟨hs', hpopped, hreturned⟩

end CSharedQueue

end IMonPlatform
