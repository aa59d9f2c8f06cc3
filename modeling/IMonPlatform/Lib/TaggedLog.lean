import Mathlib.Data.List.Basic
import Mathlib.Data.List.Nodup

/-!
# Logs whose entries carry their author

Several parties append to one log; `entriesOf log t` is what party `t` appended, in order.

* `entriesOf_append` — the entries of an author are appended log by log.
* `entriesOf_map_self`, `entriesOf_map_ne` — entries that all have one author.
* `authors_nodup` — if every party has appended at most once, the authors are different.
-/

set_option autoImplicit false

namespace TaggedLog

variable {τ α : Type*} [DecidableEq τ]

/-- The entries of author `t`. -/
def entriesOf (log : List (τ × α)) (t : τ) : List α :=
  (log.filter (fun e => decide (e.1 = t))).map Prod.snd

@[simp] theorem entriesOf_append (log log' : List (τ × α)) (t : τ) :
    entriesOf (log ++ log') t = entriesOf log t ++ entriesOf log' t := by
  simp [entriesOf]

@[simp] theorem entriesOf_map_self (t : τ) (xs : List α) :
    entriesOf (xs.map (Prod.mk t)) t = xs := by
  simp [entriesOf, List.filter_map, Function.comp_def]

theorem entriesOf_map_ne {t u : τ} (h : u ≠ t) (xs : List α) :
    entriesOf (xs.map (Prod.mk u)) t = [] := by
  simp [entriesOf, List.filter_map, Function.comp_def, h]

@[simp] theorem entriesOf_singleton_self (t : τ) (x : α) : entriesOf [(t, x)] t = [x] :=
  entriesOf_map_self t [x]

theorem entriesOf_singleton_ne {t u : τ} (h : u ≠ t) (x : α) : entriesOf [(u, x)] t = [] :=
  entriesOf_map_ne h [x]

theorem mem_entriesOf {log : List (τ × α)} {t : τ} {x : α} :
    x ∈ entriesOf log t ↔ (t, x) ∈ log := by
  simp [entriesOf]

/-- Authors of at most one entry each are different. -/
theorem authors_nodup {log : List (τ × α)} (h : ∀ t, (entriesOf log t).length ≤ 1) :
    (log.map Prod.fst).Nodup := by
  refine List.nodup_iff_count_le_one.mpr fun t => ?_
  have hentries := h t
  rw [entriesOf, List.length_map, ← List.countP_eq_length_filter] at hentries
  rw [List.count_eq_countP, List.countP_map]
  exact hentries

end TaggedLog
