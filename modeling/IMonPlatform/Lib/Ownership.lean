import Mathlib.Data.List.Nodup
import Mathlib.Logic.Function.Basic

/-!
# Blocks of memory and their owners

Objects that each hold at most one block of a heap, in a language where a pointer can be overwritten
without the block being given back.

* `Heap`, `Heap.new`, `Heap.delete` — blocks are handed out once; a block is live until it is given
  back.
* `Accounted h own lost` — the live blocks are those of the owners, which no two of them share, and
  those that have been lost.
* `Accounted.new`, `Accounted.delete`, `Accounted.move`, `Accounted.forget` — what the operations of
  an owner do to the account.
-/

set_option autoImplicit false

namespace Ownership

variable {α κ : Type*}

/-- A heap: what the live blocks hold, and the first address that has never been handed out. -/
structure Heap (α : Type*) where
  block : Nat → Option α
  fresh : Nat

namespace Heap

def empty : Heap α := ⟨fun _ => none, 0⟩

/-- A new block that holds `a`, at the address `h.fresh`. -/
def new (h : Heap α) (a : α) : Heap α :=
  ⟨Function.update h.block h.fresh (some a), h.fresh + 1⟩

def delete (h : Heap α) (p : Nat) : Heap α := { h with block := Function.update h.block p none }

variable (h : Heap α)

@[simp] theorem new_fresh (a : α) : (h.new a).fresh = h.fresh + 1 := rfl

@[simp] theorem delete_fresh (p : Nat) : (h.delete p).fresh = h.fresh := rfl

@[simp] theorem new_block_self (a : α) : (h.new a).block h.fresh = some a :=
  Function.update_self ..

theorem new_block_of_ne (a : α) {p : Nat} (hp : p ≠ h.fresh) : (h.new a).block p = h.block p :=
  Function.update_of_ne hp _ _

@[simp] theorem delete_block_self (p : Nat) : (h.delete p).block p = none :=
  Function.update_self ..

theorem delete_block_of_ne {p q : Nat} (hq : q ≠ p) : (h.delete p).block q = h.block q :=
  Function.update_of_ne hq _ _

end Heap

/-- Where the live blocks are. -/
structure Accounted (h : Heap α) (own : κ → Option Nat) (lost : List Nat) : Prop where
  fresh : ∀ p, h.fresh ≤ p → h.block p = none
  distinct : ∀ k k' p, own k = some p → own k' = some p → k = k'
  live : ∀ p, (h.block p).isSome ↔ (∃ k, own k = some p) ∨ p ∈ lost
  apart : ∀ k p, own k = some p → p ∉ lost
  nodup : lost.Nodup

theorem accounted_empty : Accounted (Heap.empty : Heap α) (fun _ : κ => none) [] where
  fresh _ _ := rfl
  distinct _ _ _ h := nomatch h
  live _ := by simp [Heap.empty]
  apart _ _ h := nomatch h
  nodup := List.nodup_nil

variable {h : Heap α} {own : κ → Option Nat} {lost : List Nat}

theorem Accounted.owner_live (ha : Accounted h own lost) {k : κ} {p : Nat} (hk : own k = some p) :
    ∃ a, h.block p = some a :=
  Option.isSome_iff_exists.mp ((ha.live p).mpr (.inl ⟨k, hk⟩))

theorem Accounted.owner_lt (ha : Accounted h own lost) {k : κ} {p : Nat} (hk : own k = some p) :
    p < h.fresh := by
  obtain ⟨a, hp⟩ := ha.owner_live hk
  by_contra hle
  rw [ha.fresh p (Nat.not_lt.mp hle)] at hp
  cases hp

variable [DecidableEq κ]

/-- **An owner lets go of its block**, which stays behind. -/
theorem Accounted.forget (ha : Accounted h own lost) (k : κ) :
    Accounted h (Function.update own k none) (lost ++ (own k).toList) := by
  have hother : ∀ k' p, Function.update own k none k' = some p → k' ≠ k ∧ own k' = some p := by
    intro k' p hk'
    by_cases hkk : k' = k
    · subst hkk
      simp at hk'
    · rw [Function.update_of_ne hkk] at hk'
      exact ⟨hkk, hk'⟩
  refine ⟨ha.fresh, fun k₁ k₂ p h₁ h₂ => ?_, fun p => ?_, fun k' p hk' hp => ?_, ?_⟩
  · exact ha.distinct k₁ k₂ p (hother k₁ p h₁).2 (hother k₂ p h₂).2
  · rw [ha.live, List.mem_append]
    constructor
    · rintro (⟨k', hk'⟩ | hp)
      · by_cases hkk : k' = k
        · subst hkk
          exact .inr (.inr (by simp [hk']))
        · exact .inl ⟨k', by rw [Function.update_of_ne hkk, hk']⟩
      · exact .inr (.inl hp)
    · rintro (⟨k', hk'⟩ | hp | hp)
      · exact .inl ⟨k', (hother k' p hk').2⟩
      · exact .inr hp
      · exact .inl ⟨k, Option.mem_toList.mp hp⟩
  · obtain ⟨hne, hold⟩ := hother k' p hk'
    rcases List.mem_append.mp hp with hp | hp
    · exact ha.apart k' p hold hp
    · exact hne (ha.distinct k' k p hold (Option.mem_toList.mp hp))
  · cases hk : own k with
    | none => simpa using ha.nodup
    | some p =>
      refine List.nodup_append.mpr ⟨ha.nodup, List.nodup_singleton p, fun q hq r hr => ?_⟩
      rw [Option.toList_some, List.mem_singleton] at hr
      rintro rfl
      exact ha.apart k q (hr ▸ hk) hq

/-- **An owner without a block gets a new one.** -/
theorem Accounted.new (ha : Accounted h own lost) {k : κ} (hk : own k = none) (a : α) :
    Accounted (h.new a) (Function.update own k (some h.fresh)) lost := by
  have hcases : ∀ k' p, Function.update own k (some h.fresh) k' = some p →
      k' = k ∧ p = h.fresh ∨ k' ≠ k ∧ own k' = some p := by
    intro k' p hk'
    by_cases hkk : k' = k
    · subst hkk
      rw [Function.update_self, Option.some.injEq] at hk'
      exact .inl ⟨rfl, hk'.symm⟩
    · rw [Function.update_of_ne hkk] at hk'
      exact .inr ⟨hkk, hk'⟩
  have hnot : h.fresh ∉ lost := by
    intro hmem
    have hlive := (ha.live h.fresh).mpr (.inr hmem)
    rw [ha.fresh h.fresh (Nat.le_refl _)] at hlive
    cases hlive
  refine ⟨fun p hp => ?_, fun k₁ k₂ p h₁ h₂ => ?_, fun p => ?_, fun k' p hk' => ?_, ha.nodup⟩
  · rw [Heap.new_fresh] at hp
    rw [h.new_block_of_ne a (by omega)]
    exact ha.fresh p (by omega)
  · rcases hcases k₁ p h₁ with ⟨hk₁, hp₁⟩ | ⟨_, hold₁⟩ <;>
      rcases hcases k₂ p h₂ with ⟨hk₂, hp₂⟩ | ⟨_, hold₂⟩
    · exact hk₁.trans hk₂.symm
    · exact absurd (ha.owner_lt hold₂) (by omega)
    · exact absurd (ha.owner_lt hold₁) (by omega)
    · exact ha.distinct k₁ k₂ p hold₁ hold₂
  · by_cases hp : p = h.fresh
    · subst hp
      simp only [Heap.new_block_self, Option.isSome_some, true_iff]
      exact .inl ⟨k, Function.update_self ..⟩
    · rw [h.new_block_of_ne a hp, ha.live]
      constructor
      · rintro (⟨k', hk'⟩ | hmem)
        · have hne : k' ≠ k := by
            rintro rfl
            rw [hk] at hk'
            cases hk'
          exact .inl ⟨k', by rw [Function.update_of_ne hne, hk']⟩
        · exact .inr hmem
      · rintro (⟨k', hk'⟩ | hmem)
        · rcases hcases k' p hk' with ⟨_, hfresh⟩ | ⟨_, hold⟩
          · exact absurd hfresh hp
          · exact .inl ⟨k', hold⟩
        · exact .inr hmem
  · rcases hcases k' p hk' with ⟨_, rfl⟩ | ⟨_, hold⟩
    · exact hnot
    · exact ha.apart k' p hold

/-- **An owner gives its block back.** -/
theorem Accounted.delete (ha : Accounted h own lost) {k : κ} {p : Nat} (hk : own k = some p) :
    Accounted (h.delete p) (Function.update own k none) lost := by
  have hother : ∀ k' q, Function.update own k none k' = some q →
      k' ≠ k ∧ own k' = some q ∧ q ≠ p := by
    intro k' q hk'
    by_cases hkk : k' = k
    · subst hkk
      simp at hk'
    · rw [Function.update_of_ne hkk] at hk'
      refine ⟨hkk, hk', ?_⟩
      rintro rfl
      exact hkk (ha.distinct k' k q hk' hk)
  refine ⟨fun q hq => ?_, fun k₁ k₂ q h₁ h₂ => ?_, fun q => ?_, fun k' q hk' => ?_, ha.nodup⟩
  · have hlt := ha.owner_lt hk
    rw [Heap.delete_fresh] at hq
    rw [h.delete_block_of_ne (by omega)]
    exact ha.fresh q hq
  · exact ha.distinct k₁ k₂ q (hother k₁ q h₁).2.1 (hother k₂ q h₂).2.1
  · by_cases hq : q = p
    · subst hq
      simp only [Heap.delete_block_self, Option.isSome_none, Bool.false_eq_true, false_iff, not_or]
      refine ⟨?_, ha.apart k q hk⟩
      rintro ⟨k', hk'⟩
      exact (hother k' q hk').2.2 rfl
    · rw [h.delete_block_of_ne hq, ha.live]
      constructor
      · rintro (⟨k', hk'⟩ | hmem)
        · have hne : k' ≠ k := by
            rintro rfl
            rw [hk, Option.some.injEq] at hk'
            exact hq hk'.symm
          exact .inl ⟨k', by rw [Function.update_of_ne hne, hk']⟩
        · exact .inr hmem
      · rintro (⟨k', hk'⟩ | hmem)
        · exact .inl ⟨k', (hother k' q hk').2.1⟩
        · exact .inr hmem
  · exact ha.apart k' q (hother k' q hk').2.1

/-- **A block changes its owner**; the new owner had none. -/
theorem Accounted.move (ha : Accounted h own lost) {k k' : κ} (hne : k ≠ k')
    (hk : own k = none) :
    Accounted h (Function.update (Function.update own k (own k')) k' none) lost := by
  have hcases : ∀ k₁ p, Function.update (Function.update own k (own k')) k' none k₁ = some p →
      k₁ = k ∧ own k' = some p ∨ k₁ ≠ k' ∧ k₁ ≠ k ∧ own k₁ = some p := by
    intro k₁ p h₁
    by_cases hk' : k₁ = k'
    · subst hk'
      simp at h₁
    · rw [Function.update_of_ne hk'] at h₁
      by_cases hkk : k₁ = k
      · subst hkk
        rw [Function.update_self] at h₁
        exact .inl ⟨rfl, h₁⟩
      · rw [Function.update_of_ne hkk] at h₁
        exact .inr ⟨hk', hkk, h₁⟩
  refine ⟨ha.fresh, fun k₁ k₂ p h₁ h₂ => ?_, fun p => ?_, fun k₁ p h₁ => ?_, ha.nodup⟩
  · rcases hcases k₁ p h₁ with ⟨rfl, hold₁⟩ | ⟨hne₁, _, hold₁⟩ <;>
      rcases hcases k₂ p h₂ with ⟨rfl, hold₂⟩ | ⟨hne₂, _, hold₂⟩
    · rfl
    · exact absurd (ha.distinct k₂ k' p hold₂ hold₁) hne₂
    · exact absurd (ha.distinct k₁ k' p hold₁ hold₂) hne₁
    · exact ha.distinct k₁ k₂ p hold₁ hold₂
  · rw [ha.live]
    constructor
    · rintro (⟨k₁, h₁⟩ | hmem)
      · by_cases hk' : k₁ = k'
        · subst hk'
          refine .inl ⟨k, ?_⟩
          rw [Function.update_of_ne hne, Function.update_self, h₁]
        · have hkk : k₁ ≠ k := by
            rintro rfl
            rw [hk] at h₁
            cases h₁
          exact .inl ⟨k₁, by rw [Function.update_of_ne hk', Function.update_of_ne hkk, h₁]⟩
      · exact .inr hmem
    · rintro (⟨k₁, h₁⟩ | hmem)
      · rcases hcases k₁ p h₁ with ⟨_, hold⟩ | ⟨_, _, hold⟩
        · exact .inl ⟨k', hold⟩
        · exact .inl ⟨k₁, hold⟩
      · exact .inr hmem
  · rcases hcases k₁ p h₁ with ⟨_, hold⟩ | ⟨_, _, hold⟩
    · exact ha.apart k' p hold
    · exact ha.apart k₁ p hold

end Ownership
