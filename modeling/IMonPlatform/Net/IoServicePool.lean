import IMonPlatform.Net.Instances

/-!
# `CIoServicePool::getNextIoService` under concurrent calls

The pool hands out its services in turn.  The index is read, incremented, compared with the size of
the pool and set back to zero in four steps without a lock, so another call may read it in between,
or step over the one value that the comparison tests for.

* `SharedIoServicePool.step` — the next step of a thread.
* `call_alone` — a call that no other one overlaps is the call of the pool's own model.
* `Counted` — the invariant, by the number of calls at each point; `counted_step`.
* `round_robin_in_range` — if a call starts only when no other one is in progress, or when all the
  increments that are due keep the index below the size, every read is in range.
-/

set_option autoImplicit false

namespace IMonPlatform

open Transition

variable {Service : Type}

/-- A thread in `getNextIoService`. -/
inductive NextPc where
  /-- Outside. -/
  | idle
  /-- The service is read, the index not yet incremented. -/
  | increment
  /-- Before the comparison. -/
  | compare
  /-- The comparison has found the end of the pool. -/
  | reset
  deriving DecidableEq

/-- `m_vecSpIoService`: at least one service, and a size that is a `size_t` of the Win32 builds. -/
structure IoServices (Service : Type) where
  services : List Service
  nonempty : 1 ≤ services.length
  size_lt : services.length < 2 ^ 32

structure SharedIoServicePool (Service : Type) where
  vecSpIoService : IoServices Service
  dxNextSpIoService : Nat
  calls : List NextPc
  /-- The indices with which the vector was read. -/
  reads : List Nat

namespace SharedIoServicePool

def size (pool : SharedIoServicePool Service) : Nat := pool.vecSpIoService.services.length

/-- A new pool and its callers. -/
def create (vec : IoServices Service) (threads : Nat) : SharedIoServicePool Service :=
  ⟨vec, 0, List.replicate threads .idle, []⟩

/-- The next step of thread `t`. -/
def step (pool : SharedIoServicePool Service) (t : Nat) : Option (SharedIoServicePool Service) :=
  match pool.calls[t]? with
  | none => none
  | some .idle => some { pool with
      calls := pool.calls.set t .increment
      reads := pool.reads ++ [pool.dxNextSpIoService] }
  | some .increment => some { pool with
      calls := pool.calls.set t .compare
      dxNextSpIoService := (pool.dxNextSpIoService + 1) % 2 ^ 32 }
  | some .compare =>
    if pool.dxNextSpIoService = pool.size then some { pool with calls := pool.calls.set t .reset }
    else some { pool with calls := pool.calls.set t .idle }
  | some .reset => some { pool with calls := pool.calls.set t .idle, dxNextSpIoService := 0 }

/-- Number of threads at a point. -/
def standing (pool : SharedIoServicePool Service) (pc : NextPc) : Nat := pool.calls.count pc

/-- Number of calls in progress. -/
def inProgress (pool : SharedIoServicePool Service) : Nat :=
  pool.standing .increment + pool.standing .compare + pool.standing .reset

/-- Every read was in range. -/
def InRange (pool : SharedIoServicePool Service) : Prop := ∀ i ∈ pool.reads, i < pool.size

/-- The condition on a step that starts a call: no other call is in progress, or the index stays
    below the size with all increments that are due. -/
def StartsApart (pool : SharedIoServicePool Service) (t : Nat) : Prop :=
  pool.calls[t]? = some .idle →
    pool.inProgress = 0 ∨ pool.dxNextSpIoService + pool.standing .increment + 1 < pool.size

/-- What the condition maintains: the increments that are due stay below the size, or one call alone
    is on its way to the reset. -/
structure Counted (pool : SharedIoServicePool Service) : Prop where
  inRange : pool.InRange
  index : (pool.dxNextSpIoService + pool.standing .increment < pool.size ∧
      pool.standing .reset = 0) ∨
    (pool.inProgress = 1 ∧ pool.dxNextSpIoService + pool.standing .increment = pool.size)

/-! ## Steps -/

/-- A thread that goes from one point to another is counted there. -/
theorem standing_set {pool : SharedIoServicePool Service} {t : Nat} {old : NextPc} (new pc : NextPc)
    (h : pool.calls[t]? = some old) :
    (pool.calls.set t new).count pc + (if old = pc then 1 else 0) =
      pool.standing pc + (if new = pc then 1 else 0) := by
  obtain ⟨ht, rfl⟩ := List.getElem?_eq_some_iff.mp h
  rw [List.count_set ht]
  simp only [beq_iff_eq]
  unfold standing
  split
  · rename_i hpc
    have hpos : 0 < pool.calls.count pc :=
      List.count_pos_iff.mpr (hpc ▸ List.getElem_mem ht)
    omega
  · omega

/-- The three counts after a thread has moved. -/
theorem counts_set {pool : SharedIoServicePool Service} {t : Nat} {old : NextPc} (new : NextPc)
    (h : pool.calls[t]? = some old) :
    (pool.calls.set t new).count .increment + (if old = .increment then 1 else 0) =
        pool.standing .increment + (if new = .increment then 1 else 0) ∧
      (pool.calls.set t new).count .compare + (if old = .compare then 1 else 0) =
        pool.standing .compare + (if new = .compare then 1 else 0) ∧
      (pool.calls.set t new).count .reset + (if old = .reset then 1 else 0) =
        pool.standing .reset + (if new = .reset then 1 else 0) :=
  ⟨standing_set new _ h, standing_set new _ h, standing_set new _ h⟩

theorem create_counted (vec : IoServices Service) (threads : Nat) :
    Counted (create vec threads) := by
  refine ⟨fun i hi => absurd hi List.not_mem_nil, .inl ⟨?_, ?_⟩⟩
  · simp only [standing, create, size, List.count_replicate]
    exact vec.nonempty
  · simp only [standing, create, List.count_replicate]
    rfl

theorem counted_step {pool pool' : SharedIoServicePool Service} {t : Nat} (h : Counted pool)
    (hstart : pool.StartsApart t) (hstep : step pool t = some pool') : Counted pool' := by
  obtain ⟨hrange, hindex⟩ := h
  have hsize : 1 ≤ pool.size := pool.vecSpIoService.nonempty
  have hlt : pool.size < 2 ^ 32 := pool.vecSpIoService.size_lt
  unfold inProgress at hindex
  unfold step at hstep
  split at hstep
  · cases hstep
  · -- the read
    rename_i hpc
    cases hstep
    have hcond := hstart hpc
    unfold inProgress at hcond
    obtain ⟨hinc, hcmp, hres⟩ := counts_set .increment hpc
    simp only [reduceCtorEq, if_true, if_false, Nat.add_zero] at hinc hcmp hres
    constructor
    · intro i hi
      rcases List.mem_append.mp hi with hi | hi
      · exact hrange i hi
      · rw [List.mem_singleton.mp hi]
        show pool.dxNextSpIoService < pool.size
        omega
    · simp only [standing, inProgress, size] at *
      omega
  · -- the increment
    rename_i hpc
    cases hstep
    obtain ⟨hinc, hcmp, hres⟩ := counts_set .compare hpc
    simp only [reduceCtorEq, if_true, if_false, Nat.add_zero] at hinc hcmp hres
    have hwrap : (pool.dxNextSpIoService + 1) % 2 ^ 32 = pool.dxNextSpIoService + 1 :=
      Nat.mod_eq_of_lt (by omega)
    refine ⟨hrange, ?_⟩
    simp only [standing, inProgress, size, hwrap] at *
    omega
  · -- the comparison
    rename_i hpc
    split at hstep
    · rename_i hend
      cases hstep
      obtain ⟨hinc, hcmp, hres⟩ := counts_set .reset hpc
      simp only [reduceCtorEq, if_true, if_false, Nat.add_zero] at hinc hcmp hres
      refine ⟨hrange, ?_⟩
      simp only [standing, inProgress, size] at *
      omega
    · rename_i hend
      cases hstep
      obtain ⟨hinc, hcmp, hres⟩ := counts_set .idle hpc
      simp only [reduceCtorEq, if_true, if_false, Nat.add_zero] at hinc hcmp hres
      refine ⟨hrange, ?_⟩
      simp only [standing, inProgress, size] at *
      omega
  · -- the reset
    rename_i hpc
    cases hstep
    obtain ⟨hinc, hcmp, hres⟩ := counts_set .idle hpc
    simp only [reduceCtorEq, if_true, if_false, Nat.add_zero] at hinc hcmp hres
    refine ⟨hrange, ?_⟩
    simp only [standing, inProgress, size] at *
    omega

/-! ## A call alone -/

/-- **A call that no other one overlaps** does what `CIoServicePool::getNextIoService` does. -/
theorem call_alone {pool : SharedIoServicePool IoService} {t : Nat}
    (hidle : pool.calls[t]? = some .idle) (hlt : pool.dxNextSpIoService < pool.size) :
    ∃ n pool', run step pool (List.replicate n t) = some pool' ∧ pool'.calls = pool.calls ∧
      (pool'.reads = pool.reads ++ [(CIoServicePool.getNextIoService
        ⟨pool.vecSpIoService.services, pool.dxNextSpIoService⟩).1]) ∧
      pool'.dxNextSpIoService = (CIoServicePool.getNextIoService
        ⟨pool.vecSpIoService.services, pool.dxNextSpIoService⟩).2.dxNextSpIoService := by
  obtain ⟨ht, hcall⟩ := List.getElem?_eq_some_iff.mp hidle
  have hsize : pool.size < 2 ^ 32 := pool.vecSpIoService.size_lt
  have hwrap : (pool.dxNextSpIoService + 1) % 2 ^ 32 = pool.dxNextSpIoService + 1 :=
    Nat.mod_eq_of_lt (by omega)
  have hback : pool.calls.set t .idle = pool.calls := by
    rw [← hcall, List.set_getElem_self]
  have hset : ∀ pc : NextPc, (pool.calls.set t pc)[t]? = some pc := fun pc => by
    rw [List.getElem?_set_self ht]
  -- the call takes the reset exactly if it has read the last index
  by_cases hend : pool.dxNextSpIoService + 1 = pool.size
  · refine ⟨4, { pool with
      dxNextSpIoService := 0
      reads := pool.reads ++ [pool.dxNextSpIoService] }, ?_, rfl, rfl, (if_pos hend).symm⟩
    unfold size at hend
    simp only [List.replicate, run, step, hidle, hset, hwrap, size, List.set_set, if_pos hend,
      hback]
  · refine ⟨3, { pool with
      dxNextSpIoService := pool.dxNextSpIoService + 1
      reads := pool.reads ++ [pool.dxNextSpIoService] }, ?_, rfl, rfl, (if_neg hend).symm⟩
    unfold size at hend
    simp only [List.replicate, run, step, hidle, hset, hwrap, hend, size, List.set_set, if_false,
      hback]

/-! ## Runs -/

instance (pool : SharedIoServicePool Service) (t : Nat) : Decidable (pool.StartsApart t) :=
  inferInstanceAs (Decidable (_ → _))

/-- **The index stays in range** in every run in which a call starts only while no other one is in
    progress, or while all the increments that are due stay below the size of the pool. -/
theorem round_robin_in_range (vec : IoServices Service) (threads : Nat) (ts : List Nat)
    (hmeets : Meets step StartsApart (create vec threads) ts) :
    Always step InRange (create vec threads) ts :=
  always_of_meets (fun _ h => h.inRange) (fun _ _ _ h hc hs => counted_step h hc hs) ts _
    (create_counted vec threads) hmeets

/-- A pool of four services. -/
def fourServices : IoServices Nat := ⟨[0, 1, 2, 3], by decide, by decide⟩

/-- Two calls that overlap in the middle of the pool. -/
theorem round_robin_two_calls :
    ∃ pool, run step (create fourServices 2) [0, 1, 0, 1, 0, 1] = some pool ∧ pool.InRange := by
  refine ⟨_, rfl, round_robin_in_range fourServices 2 [0, 1, 0, 1, 0, 1] ?_ _ _
    (List.prefix_refl _) rfl⟩
  exact meets_cons rfl (by decide) (meets_cons rfl (by decide) (meets_cons rfl (by decide)
    (meets_cons rfl (by decide) (meets_cons rfl (by decide) (meets_cons rfl (by decide) trivial)))))

/-- The index of a pool of one service is read between its increment and its reset. -/
theorem index_past_the_end :
    ∃ pool, run step (create (⟨[0], by decide, by decide⟩ : IoServices Nat) 2) [0, 0, 1] =
      some pool ∧ ¬ pool.InRange := by
  refine ⟨_, rfl, fun h => ?_⟩
  exact absurd (h 1 (by decide)) (by decide)

end SharedIoServicePool

end IMonPlatform
