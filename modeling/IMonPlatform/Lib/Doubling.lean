import Mathlib.Order.Basic
import Mathlib.Data.Nat.Find
import Mathlib.Algebra.Order.Ring.Nat
import Mathlib.Tactic.Ring

/-!
# Asking again with more room

A question is asked with a size.  It is answered, or it says with which size it is to be asked
again; the answer to the k-th question may depend on k.

* `retry` — the loop; `none` is a loop that needs more rounds.
* `Posed` — the questions the loop comes to: those before were refused.
* `retry_ends` — if every refusal at least doubles the size, the number of questions is at most
  logarithmic in the size from which on nothing is refused.
* `retry_doubled` — the loop on a row of sizes each of which is the double of the one before.
-/

set_option autoImplicit false

namespace Doubling

variable {α : Type*} (ask : Nat → Nat → α ⊕ Nat)

def retry : Nat → Nat → Nat → Option α
  | 0, _, _ => none
  | rounds + 1, k, size =>
    match ask k size with
    | .inl a => some a
    | .inr next => retry rounds (k + 1) next

/-- The k-th question is asked with this size: each one before was refused, and told the size of the
next one. -/
inductive Posed (k₀ size₀ : Nat) : Nat → Nat → Prop where
  | first : Posed k₀ size₀ k₀ size₀
  | again {k size next : Nat} (h : Posed k₀ size₀ k size) (hrefused : ask k size = .inr next) :
    Posed k₀ size₀ (k + 1) next

variable {ask}

theorem retry_answer {k size : Nat} {a : α} (h : ask k size = .inl a) (rounds : Nat) :
    retry ask (rounds + 1) k size = some a := by
  rw [retry, h]

theorem retry_again {k size next : Nat} (h : ask k size = .inr next) (rounds : Nat) :
    retry ask (rounds + 1) k size = retry ask rounds (k + 1) next := by
  rw [retry, h]

/-- What the loop returns is the answer to a question it came to. -/
theorem retry_some {k₀ size₀ : Nat} : ∀ {rounds k size : Nat} {a : α}, Posed ask k₀ size₀ k size →
    retry ask rounds k size = some a →
    ∃ j < rounds, ∃ last, Posed ask k₀ size₀ (k + j) last ∧ ask (k + j) last = .inl a
  | 0, _, _, _, _, h => by cases h
  | rounds + 1, k, size, a, hposed, h => by
    cases hask : ask k size with
    | inl b =>
      rw [retry_answer hask] at h
      cases h
      exact ⟨0, Nat.succ_pos rounds, size, hposed, hask⟩
    | inr next =>
      rw [retry_again hask] at h
      obtain ⟨j, hj, last, hlast, ha⟩ := retry_some (hposed.again hask) h
      rw [Nat.add_assoc, Nat.add_comm 1 j] at hlast ha
      exact ⟨j + 1, Nat.succ_lt_succ hj, last, hlast, ha⟩

/-- **Doubling ends**: below the limit a question may be refused `n` times. -/
theorem retry_ends {limit : Nat} (hgrow : ∀ k size next, ask k size = .inr next → 2 * size ≤ next)
    (hlimit : ∀ k size next, ask k size = .inr next → size < limit) :
    ∀ (n k size : Nat), limit ≤ 2 ^ n * size → ∃ a, retry ask (n + 1) k size = some a := by
  intro n
  induction n with
  | zero =>
    intro k size hsize
    rw [pow_zero, one_mul] at hsize
    cases hask : ask k size with
    | inl a => exact ⟨a, retry_answer hask 0⟩
    | inr next => exact absurd (hlimit k size next hask) (by omega)
  | succ n ih =>
    intro k size hsize
    cases hask : ask k size with
    | inl a => exact ⟨a, retry_answer hask (n + 1)⟩
    | inr next =>
      rw [retry_again hask]
      refine ih (k + 1) next ?_
      calc limit ≤ 2 ^ (n + 1) * size := hsize
        _ = 2 ^ n * (2 * size) := by ring
        _ ≤ 2 ^ n * next := Nat.mul_le_mul_left _ (hgrow k size next hask)

/-- **The first question that is answered**, after refusals that double the size. -/
theorem retry_doubled {a : α} : ∀ (j k size rounds : Nat), j < rounds →
    (∀ i < j, ask (k + i) (2 ^ i * size) = .inr (2 * (2 ^ i * size))) →
    ask (k + j) (2 ^ j * size) = .inl a → retry ask rounds k size = some a
  | 0, k, size, rounds, hlt, _, ha => by
    obtain ⟨rounds, rfl⟩ : ∃ r, rounds = r + 1 := ⟨rounds - 1, by omega⟩
    rw [pow_zero, one_mul] at ha
    exact retry_answer ha rounds
  | j + 1, k, size, rounds, hlt, hrefused, ha => by
    obtain ⟨rounds, rfl⟩ : ∃ r, rounds = r + 1 := ⟨rounds - 1, by omega⟩
    have hfirst := hrefused 0 (Nat.succ_pos j)
    rw [pow_zero, one_mul, Nat.add_zero] at hfirst
    rw [retry_again hfirst]
    have hsize : ∀ i, 2 ^ i * (2 * size) = 2 ^ (i + 1) * size := by
      intro i
      ring
    refine retry_doubled j (k + 1) (2 * size) rounds (by omega) (fun i hi => ?_) ?_
    · rw [hsize, Nat.add_assoc, Nat.add_comm 1 i]
      exact hrefused (i + 1) (by omega)
    · rw [hsize, Nat.add_assoc, Nat.add_comm 1 j]
      exact ha

end Doubling
