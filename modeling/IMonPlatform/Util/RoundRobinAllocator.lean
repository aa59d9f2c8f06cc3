import Mathlib.Logic.Function.Basic
import Mathlib.Data.List.Nodup
import Mathlib.Algebra.Ring.Nat
import IMonPlatform.Lib.Transition

/-!
# `CRoundRobinAllocator`

A pool of objects that are handed out in turn.  `CreatePool` appends new objects to `_vecPool`,
`DeletePool` deletes the objects but keeps their pointers, and `CheckOut` reads only the first
`_poolSize` cells.  Objects are identities: `new` gives the next number.

* `CRoundRobinAllocator` — the pool with its operations.
* `PoolRun.step` — a sequence of calls, `CheckOut` and `CheckIn` only between a `CreatePool` and
  the next `DeletePool`; what was handed out and deleted is recorded.
* `PoolRun.Sound` — every object handed out was live and of the latest pool, every object is
  deleted once.
* `pool_sound_iff` — a run is sound exactly as long as it stays within one session.
-/

set_option autoImplicit false

namespace IMonPlatform

open Transition

structure CRoundRobinAllocator where
  poolSize : Nat
  vecPool : List Nat
  /-- A missing key reads as `false`. -/
  mapUsingTable : Nat → Bool
  lCurrentIndex : Nat

/-- What `CheckOut` returns. -/
inductive CheckedOut where
  | null
  | object (o : Nat)
  /-- A read behind the last cell of `_vecPool`. -/
  | outside
  deriving DecidableEq

namespace CRoundRobinAllocator

def create (maxPoolSize : Nat) : CRoundRobinAllocator := ⟨maxPoolSize, [], fun _ => false, 0⟩

/-- One round of the loop of `CreatePool`; `next` is the identity of the next new object. -/
def pushNew (s : CRoundRobinAllocator × Nat) (idx : Nat) : CRoundRobinAllocator × Nat :=
  ({ s.1 with
      vecPool := s.1.vecPool ++ [s.2]
      mapUsingTable := Function.update s.1.mapUsingTable idx false }, s.2 + 1)

def createPool (a : CRoundRobinAllocator) (next : Nat) : CRoundRobinAllocator × Nat :=
  (List.range a.poolSize).foldl pushNew (a, next)

/-- The objects deleted, in order; the pool itself is not changed. -/
def deletePool (a : CRoundRobinAllocator) : List Nat := a.vecPool

/-- The first statement of `CheckOut` wraps the index. -/
def cursor (a : CRoundRobinAllocator) : Nat :=
  if a.poolSize ≤ a.lCurrentIndex then 0 else a.lCurrentIndex

/-- `_vecPool[ idx ]`. -/
def cell (a : CRoundRobinAllocator) (idx : Nat) : CheckedOut :=
  match a.vecPool[idx]? with
  | some o => .object o
  | none => .outside

def checkOut (a : CRoundRobinAllocator) : CheckedOut × CRoundRobinAllocator :=
  if a.mapUsingTable a.cursor = true then (.null, { a with lCurrentIndex := a.cursor })
  else
    (a.cell a.cursor,
      { a with
        mapUsingTable := Function.update a.mapUsingTable a.cursor true
        lCurrentIndex := a.cursor + 1 })

/-- The loop stops at the first cell with the object; `NULL` is in no cell. -/
def checkIn (a : CRoundRobinAllocator) (object : Option Nat) : CRoundRobinAllocator :=
  match (List.range a.poolSize).find? fun idx => a.vecPool[idx]?.any fun o => object = some o with
  | some idx => { a with mapUsingTable := Function.update a.mapUsingTable idx false }
  | none => a

/-! ## The operations field by field -/

theorem foldl_pushNew (a : CRoundRobinAllocator) (next n : Nat) :
    (List.range n).foldl pushNew (a, next) =
      ({ a with
          vecPool := a.vecPool ++ (List.range n).map (next + ·)
          mapUsingTable := fun i => if i < n then false else a.mapUsingTable i }, next + n) := by
  induction n with
  | zero => simp
  | succ n ih =>
    rw [List.range_succ, List.foldl_append, ih]
    simp only [List.foldl_cons, List.foldl_nil, pushNew, List.map_append, List.map_cons,
      List.map_nil, List.append_assoc, Nat.add_assoc, Prod.mk.injEq, and_true,
      CRoundRobinAllocator.mk.injEq, true_and]
    funext i
    rw [Function.update_apply]
    rcases Nat.lt_trichotomy i n with h | h | h
    · rw [if_neg (by omega), if_pos h, if_pos (by omega)]
    · rw [if_pos h, if_pos (by omega)]
    · rw [if_neg (by omega), if_neg (by omega), if_neg (by omega)]

theorem createPool_eq (a : CRoundRobinAllocator) (next : Nat) :
    a.createPool next =
      ({ a with
          vecPool := a.vecPool ++ (List.range a.poolSize).map (next + ·)
          mapUsingTable := fun i => if i < a.poolSize then false else a.mapUsingTable i },
        next + a.poolSize) :=
  foldl_pushNew a next a.poolSize

theorem cursor_lt {a : CRoundRobinAllocator} (h : 0 < a.poolSize) : a.cursor < a.poolSize := by
  unfold cursor
  split <;> omega

theorem checkOut_frame (a : CRoundRobinAllocator) :
    a.checkOut.2.poolSize = a.poolSize ∧ a.checkOut.2.vecPool = a.vecPool := by
  unfold checkOut
  split <;> exact ⟨rfl, rfl⟩

/-- Everything a `CheckIn` can do. -/
theorem checkIn_cases (a : CRoundRobinAllocator) (object : Option Nat) :
    ((∀ idx < a.poolSize, ∀ o, a.vecPool[idx]? = some o → object ≠ some o) ∧
      a.checkIn object = a) ∨
    ∃ idx o, idx < a.poolSize ∧ a.vecPool[idx]? = some o ∧ object = some o ∧
      a.checkIn object = { a with mapUsingTable := Function.update a.mapUsingTable idx false } := by
  unfold checkIn
  split
  · rename_i idx h
    have hfound := List.find?_some h
    have hidx := List.mem_of_find?_eq_some h
    cases ho : a.vecPool[idx]? with
    | none => simp [ho] at hfound
    | some o =>
      rw [ho, Option.any_some, decide_eq_true_eq] at hfound
      exact .inr ⟨idx, o, List.mem_range.mp hidx, ho, hfound, rfl⟩
  · rename_i h
    refine .inl ⟨?_, rfl⟩
    intro idx hidx o ho heq
    have hnot := List.find?_eq_none.mp h idx (List.mem_range.mpr hidx)
    simp [ho, heq] at hnot

/-! ### The first session, where cell `o` holds object `o` -/

theorem cell_range {a : CRoundRobinAllocator} (hvec : a.vecPool = List.range a.poolSize) {idx : Nat}
    (h : idx < a.poolSize) : a.cell idx = .object idx := by
  unfold cell
  rw [hvec, List.getElem?_range h]

theorem checkIn_range {a : CRoundRobinAllocator} (hvec : a.vecPool = List.range a.poolSize)
    {o : Nat} (h : o < a.poolSize) :
    a.checkIn (some o) = { a with mapUsingTable := Function.update a.mapUsingTable o false } := by
  rcases a.checkIn_cases (some o) with ⟨hnot, -⟩ | ⟨idx, o', hidx, hcell, heq, hin⟩
  · exact absurd rfl (hnot o h o (by rw [hvec, List.getElem?_range h]))
  · rw [hvec, List.getElem?_range hidx] at hcell
    cases hcell
    cases heq
    exact hin

end CRoundRobinAllocator

/-! ## Sequences of calls -/

/-- A result of `CheckOut`, with the pool and the deletions it came upon. -/
structure Handed where
  result : CheckedOut
  latest : List Nat
  deleted : List Nat

/-- No object, or a live one of the latest pool. -/
def Handed.Good (h : Handed) : Prop :=
  match h.result with
  | .null => True
  | .object o => o ∈ h.latest ∧ o ∉ h.deleted
  | .outside => False

inductive PoolEvent where
  | createPool
  | deletePool
  | checkOut
  | checkIn (object : Option Nat)

structure PoolRun where
  allocator : CRoundRobinAllocator
  /-- The identity of the next new object. -/
  next : Nat
  /-- The number of `CreatePool` calls. -/
  creates : Nat
  /-- The objects of the latest `CreatePool`. -/
  latest : List Nat
  deleted : List Nat
  /-- Between a `CreatePool` and the next `DeletePool`. -/
  isOpen : Bool
  handed : List Handed

namespace PoolRun

def create (maxPoolSize : Nat) : PoolRun :=
  ⟨CRoundRobinAllocator.create maxPoolSize, 0, 0, [], [], false, []⟩

def step (s : PoolRun) : PoolEvent → Option PoolRun
  | .createPool =>
    let made := s.allocator.createPool s.next
    some { s with
      allocator := made.1
      next := made.2
      creates := s.creates + 1
      latest := List.range' s.next (made.2 - s.next)
      isOpen := true }
  | .deletePool =>
    some { s with deleted := s.deleted ++ s.allocator.deletePool, isOpen := false }
  | .checkOut =>
    if s.isOpen then
      some { s with
        allocator := s.allocator.checkOut.2
        handed := s.handed ++ [⟨s.allocator.checkOut.1, s.latest, s.deleted⟩] }
    else none
  | .checkIn object =>
    if s.isOpen then some { s with allocator := s.allocator.checkIn object } else none

/-- Every object handed out was live and of the latest pool; no object is deleted twice, and after
a `DeletePool` every object has been deleted. -/
def Sound (s : PoolRun) : Prop :=
  (∀ h ∈ s.handed, h.Good) ∧ s.deleted.Nodup ∧ (s.isOpen = false → ∀ o < s.next, o ∈ s.deleted)

/-- The step belongs to the first session. -/
def OneSession (s : PoolRun) : PoolEvent → Prop
  | .createPool | .checkIn _ => True
  | .deletePool => s.allocator.poolSize = 0 ∨ s.deleted = []
  | .checkOut => s.creates = 1 ∧ 0 < s.allocator.poolSize

/-- The states of a run whose steps all belong to one session. -/
structure Inv (s : PoolRun) : Prop where
  sound : s.Sound
  next_eq : s.next = s.creates * s.allocator.poolSize
  /-- The pointers of all pools so far. -/
  vecPool_eq : s.allocator.vecPool = List.range s.next
  latest_eq : s.latest = List.range' (s.next - s.allocator.poolSize)
    (if s.creates = 0 then 0 else s.allocator.poolSize)
  deleted_lt : ∀ o ∈ s.deleted, o < s.next
  open_creates : s.isOpen = true → 0 < s.creates
  first_deleted : s.isOpen = true → s.creates = 1 → s.deleted = []
  /-- Outside the first session nothing is checked out. -/
  free : s.creates ≠ 1 ∨ s.allocator.poolSize = 0 → ∀ i, s.allocator.mapUsingTable i = false
  free_above : ∀ i, s.allocator.poolSize ≤ i → s.allocator.mapUsingTable i = false

theorem inv_create (maxPoolSize : Nat) : Inv (create maxPoolSize) where
  sound := ⟨by simp [create], by simp [create], by simp [create]⟩
  next_eq := by simp [create]
  vecPool_eq := rfl
  latest_eq := by simp [create]
  deleted_lt := by simp [create]
  open_creates := by simp [create]
  first_deleted := by simp [create]
  free := by simp [create, CRoundRobinAllocator.create]
  free_above := by simp [create, CRoundRobinAllocator.create]

variable {s s' : PoolRun}

theorem Inv.deleted_nil (hi : Inv s) (h : s.next = 0) : s.deleted = [] := by
  apply List.eq_nil_iff_forall_not_mem.mpr
  intro o ho
  have := hi.deleted_lt o ho
  omega

/-- The cell of the next `CheckOut` holds the object with its own number, which is below the
first pool's size. -/
theorem Inv.cell_cursor (hi : Inv s) (hopen : s.isOpen = true) (hpos : 0 < s.allocator.poolSize) :
    s.allocator.cell s.allocator.cursor = .object s.allocator.cursor := by
  have hlt := CRoundRobinAllocator.cursor_lt hpos
  have hle : s.allocator.poolSize ≤ s.next := by
    rw [hi.next_eq]
    exact Nat.le_mul_of_pos_left _ (hi.open_creates hopen)
  unfold CRoundRobinAllocator.cell
  rw [hi.vecPool_eq, List.getElem?_range (by omega)]

/-! ### What a step within one session keeps -/

theorem inv_createPool (hi : Inv s) (hs : s.step .createPool = some s') : Inv s' := by
  simp only [step, CRoundRobinAllocator.createPool_eq, Option.some.injEq] at hs
  subst hs
  refine ⟨⟨hi.sound.1, hi.sound.2.1, by simp⟩, ?_, ?_, ?_, ?_, by simp, ?_, ?_, ?_⟩
  · simp only [hi.next_eq, Nat.add_mul, Nat.one_mul]
  · simp only [hi.vecPool_eq, List.range_add]
  · simp
  · intro o ho
    have := hi.deleted_lt o ho
    simp only
    omega
  · intro _ h1
    apply hi.deleted_nil
    have : s.creates = 0 := by simpa using h1
    rw [hi.next_eq, this, Nat.zero_mul]
  · intro _ i
    by_cases h : i < s.allocator.poolSize
    · simp [h]
    · simp [h, hi.free_above i (by omega)]
  · intro i h
    simp [hi.free_above i h]

theorem inv_deletePool (hi : Inv s) (hc : s.OneSession .deletePool)
    (hs : s.step .deletePool = some s') : Inv s' := by
  simp only [step, CRoundRobinAllocator.deletePool, Option.some.injEq] at hs
  subst hs
  have hnil : s.deleted = [] := by
    rcases hc with h0 | h0
    · apply hi.deleted_nil
      rw [hi.next_eq, h0, Nat.mul_zero]
    · exact h0
  refine ⟨⟨hi.sound.1, ?_, ?_⟩, hi.next_eq, hi.vecPool_eq, hi.latest_eq, ?_, by simp, by simp,
    hi.free, hi.free_above⟩
  all_goals simp only [hnil, List.nil_append, hi.vecPool_eq]
  · exact List.nodup_range
  · intro _ o ho
    exact List.mem_range.mpr ho
  · intro o ho
    exact List.mem_range.mp ho

theorem inv_checkOut (hi : Inv s) (hc : s.OneSession .checkOut)
    (hs : s.step .checkOut = some s') : Inv s' := by
  obtain ⟨h1, hpos⟩ := hc
  have hlt := CRoundRobinAllocator.cursor_lt hpos
  simp only [step] at hs
  split at hs
  · rename_i hopen
    cases hs
    have hnil := hi.first_deleted hopen h1
    have hnext : s.next = s.allocator.poolSize := by rw [hi.next_eq, h1, Nat.one_mul]
    have hgood : (⟨s.allocator.checkOut.1, s.latest, s.deleted⟩ : Handed).Good := by
      unfold CRoundRobinAllocator.checkOut
      split
      · trivial
      · rw [hi.cell_cursor hopen hpos, hi.latest_eq, hnil, if_neg (by omega)]
        refine ⟨?_, List.not_mem_nil⟩
        rw [List.mem_range'_1]
        omega
    have hsound : ∀ h ∈ s.handed ++ [⟨s.allocator.checkOut.1, s.latest, s.deleted⟩], h.Good := by
      intro h hmem
      rcases List.mem_append.mp hmem with hm | hm
      · exact hi.sound.1 h hm
      · rw [List.mem_singleton.mp hm]
        exact hgood
    have habove : ∀ i, s.allocator.poolSize ≤ i →
        s.allocator.checkOut.2.mapUsingTable i = false := by
      intro i hle
      unfold CRoundRobinAllocator.checkOut
      split
      · exact hi.free_above i hle
      · simp only
        rw [Function.update_of_ne (by omega)]
        exact hi.free_above i hle
    obtain ⟨hsize, hvec⟩ := s.allocator.checkOut_frame
    refine ⟨⟨hsound, hi.sound.2⟩, ?_, ?_, ?_, hi.deleted_lt, hi.open_creates, hi.first_deleted,
      ?_, ?_⟩
    · rw [hsize]
      exact hi.next_eq
    · rw [hvec]
      exact hi.vecPool_eq
    · rw [hsize]
      exact hi.latest_eq
    · rw [hsize]
      rintro (hne | hzero)
      · exact absurd h1 hne
      · omega
    · rw [hsize]
      exact habove
  · cases hs

theorem inv_checkIn (hi : Inv s) {object : Option Nat}
    (hs : s.step (.checkIn object) = some s') : Inv s' := by
  simp only [step] at hs
  split at hs
  · cases hs
    rcases s.allocator.checkIn_cases object with ⟨-, h⟩ | ⟨idx, o, -, -, -, h⟩
    · rw [h]
      exact hi
    · rw [h]
      have hlower : ∀ i, s.allocator.mapUsingTable i = false →
          Function.update s.allocator.mapUsingTable idx false i = false := by
        intro i hfalse
        rw [Function.update_apply, hfalse, ite_self]
      exact ⟨hi.sound, hi.next_eq, hi.vecPool_eq, hi.latest_eq, hi.deleted_lt, hi.open_creates,
        hi.first_deleted, fun hne i => hlower i (hi.free hne i),
        fun i hle => hlower i (hi.free_above i hle)⟩
  · cases hs

theorem inv_step (s : PoolRun) (e : PoolEvent) (s' : PoolRun) (hi : Inv s)
    (hc : s.OneSession e) (hs : s.step e = some s') : Inv s' := by
  cases e with
  | createPool => exact inv_createPool hi hs
  | deletePool => exact inv_deletePool hi hc hs
  | checkOut => exact inv_checkOut hi hc hs
  | checkIn object => exact inv_checkIn hi hs

/-! ### What a step outside it breaks -/

/-- A later `CheckOut` finds a cell of the first pool. -/
theorem checkOut_unsound (hi : Inv s) (hc : ¬ s.OneSession .checkOut)
    (hs : s.step .checkOut = some s') : ¬ s'.Sound := by
  simp only [step] at hs
  split at hs
  · rename_i hopen
    cases hs
    intro hsound
    have hgood := hsound.1 _ (List.mem_append_right _ (List.mem_singleton_self _))
    have hbad : s.creates ≠ 1 ∨ s.allocator.poolSize = 0 := by
      by_contra h
      exact hc ⟨by tauto, by omega⟩
    unfold CRoundRobinAllocator.checkOut at hgood
    rw [if_neg (by rw [hi.free hbad]; decide)] at hgood
    by_cases hpos : 0 < s.allocator.poolSize
    · have hlt := CRoundRobinAllocator.cursor_lt hpos
      have hcreates := hi.open_creates hopen
      rw [hi.cell_cursor hopen hpos, hi.latest_eq, if_neg (by omega)] at hgood
      have hmem := (List.mem_range'_1.mp hgood.1).1
      have htwo : 2 * s.allocator.poolSize ≤ s.next := by
        rw [hi.next_eq]
        exact Nat.mul_le_mul_right _ (by omega)
      omega
    · have hempty : s.allocator.vecPool = [] := by
        rw [hi.vecPool_eq, hi.next_eq, show s.allocator.poolSize = 0 by omega]
        rfl
      simp [CRoundRobinAllocator.cell, hempty, Handed.Good] at hgood
  · cases hs

/-- A later `DeletePool` deletes the first pool again. -/
theorem deletePool_unsound (hi : Inv s) (hc : ¬ s.OneSession .deletePool)
    (hs : s.step .deletePool = some s') : ¬ s'.Sound := by
  simp only [step, CRoundRobinAllocator.deletePool, Option.some.injEq] at hs
  subst hs
  rintro ⟨-, hnodup, -⟩
  obtain ⟨o, ho⟩ := List.exists_mem_of_ne_nil s.deleted (fun h => hc (.inr h))
  simp only at hnodup
  rw [hi.vecPool_eq] at hnodup
  exact (List.disjoint_of_nodup_append hnodup) ho (List.mem_range.mpr (hi.deleted_lt o ho))

theorem step_unsound (s : PoolRun) (e : PoolEvent) (s' : PoolRun) (hi : Inv s)
    (hc : ¬ s.OneSession e) (hs : s.step e = some s') : ¬ s'.Sound := by
  cases e with
  | createPool => exact absurd trivial hc
  | deletePool => exact deletePool_unsound hi hc hs
  | checkOut => exact checkOut_unsound hi hc hs
  | checkIn object => exact absurd trivial hc

/-- **A sequence of calls is sound exactly if it stays within one session**: no `CheckOut` after
a second `CreatePool`, no second `DeletePool` of objects, and a pool that is not empty. -/
theorem pool_sound_iff (maxPoolSize : Nat) (es : List PoolEvent) :
    Always step Sound (create maxPoolSize) es ↔
      Meets step OneSession (create maxPoolSize) es :=
  always_iff_meets (fun _ hi => hi.sound) inv_step step_unsound es _ (inv_create maxPoolSize)

/-- The first `CheckOut` of a second session returns an object deleted with the first one, and its
`DeletePool` deletes that object again. -/
theorem second_session_unsound :
    ¬ Always step Sound (create 1)
      [.createPool, .deletePool, .createPool, .checkOut, .checkIn (some 0), .deletePool] := by
  rw [always_iff_meets (fun _ hi => hi.sound) inv_step step_unsound _ _ (inv_create 1)]
  intro h
  have h4 := ((((h _ rfl).2 _ rfl).2 _ rfl).2 _ rfl).1
  exact absurd h4.1 (by decide)

end PoolRun

end IMonPlatform
