import IMonPlatform.Lib.DepthFirst
import Mathlib.Data.Finset.Card

/-!
# Depth-first search with marks in a table

A recursive procedure looks up the entry of a node in a table.  If the entry is done it returns;
otherwise it finishes the entry and calls itself on every successor.  Several nodes may have the
same entry, so that a node can find its entry done by another one, and then nothing happens to the
nodes behind it.

* `search` — the procedure, with a bound on the depth of its calls.
* `White` — the nodes reached along nodes whose entries are not done.
* `Searched` — what a search from a list of nodes leaves; `search_searched`.
* `Aligned` — nodes with one entry have successors with the same entries.
* `Searched.done_iff` — then the entries that are done afterwards are those that were done and those
  of the white nodes.
* `Searched.all_done_iff` — when all nodes behind the first one are done.
* `search_returns` — a search returns where finitely many entries are in reach.
-/

set_option autoImplicit false

namespace MarkedSearch

open Relation DepthFirst

variable {α κ β : Type*} [DecidableEq κ]

section Procedure

variable (succ : α → List α) (key : α → κ) (done : β → Bool) (finish : β → β)

def search : Nat → (κ → β) → α → Option (κ → β)
  | 0, _, _ => none
  | n + 1, τ, a =>
    if done (τ (key a)) then some τ
    else (succ a).foldlM (search n) (Function.update τ (key a) (finish (τ (key a))))

omit [DecidableEq κ] in
/-- A path from `a` over nodes whose entries are not done. -/
inductive White (τ : κ → β) (a : α) : α → Prop where
  | here : done (τ (key a)) = false → White τ a a
  | step {b c : α} : White τ a b → c ∈ succ b → done (τ (key c)) = false → White τ a c

/-- What a search from the nodes `starts` leaves. -/
structure Searched (τ τ' : κ → β) (starts : List α) : Prop where
  grew : ∀ k, τ' k = τ k ∨ done (τ k) = false ∧ τ' k = finish (τ k)
  started : ∀ a ∈ starts, done (τ' (key a)) = true
  /-- Only entries of white nodes are finished. -/
  sound : ∀ k, done (τ k) = false → done (τ' k) = true →
    ∃ a ∈ starts, ∃ w, White succ key done τ a w ∧ key w = k
  /-- Every new entry is that of a node whose successors are done. -/
  closed : ∀ k, done (τ k) = false → done (τ' k) = true →
    ∃ a ∈ starts, ∃ e, ReflTransGen (Edge succ) a e ∧ key e = k ∧
      ∀ c ∈ succ e, done (τ' (key c)) = true

/-- Nodes behind `a` with one entry have successors with the same entries, apart from that entry
itself. -/
def Aligned (a : α) : Prop :=
  ∀ q q', ReflTransGen (Edge succ) a q → ReflTransGen (Edge succ) a q' → key q = key q' →
    ∀ c ∈ succ q, key c = key q ∨ ∃ c' ∈ succ q', key c' = key c

/-- Each node behind `a` has an entry that is done or that of a white node. -/
def Exposed (τ : κ → β) (a : α) : Prop :=
  ∀ q, ReflTransGen (Edge succ) a q →
    done (τ (key q)) = true ∨ ∃ w, White succ key done τ a w ∧ key w = key q

end Procedure

variable {succ : α → List α} {key : α → κ} {done : β → Bool} {finish : β → β}
  {τ μ τ' : κ → β} {a : α}

/-! ## White nodes -/

omit [DecidableEq κ] in
theorem White.undone {w : α} (h : White succ key done τ a w) : done (τ (key w)) = false := by
  cases h with
  | here ha => exact ha
  | step _ _ hw => exact hw

omit [DecidableEq κ] in
theorem White.cons {b w : α} (ha : done (τ (key a)) = false) (hb : b ∈ succ a)
    (h : White succ key done τ b w) : White succ key done τ a w := by
  induction h with
  | here hb' => exact .step (.here ha) hb hb'
  | step _ hc hw ih => exact .step ih hc hw

omit [DecidableEq κ] in
/-- Where nothing behind `a` is done, all of it is white. -/
theorem exposed_of_undone
    (h : ∀ q, ReflTransGen (Edge succ) a q → done (τ (key q)) = false) :
    Exposed succ key done τ a := by
  intro q hq
  refine .inr ⟨q, ?_, rfl⟩
  induction hq with
  | refl => exact .here (h a .refl)
  | tail hab hbc ih => exact .step ih hbc (h _ (hab.tail hbc))

omit [DecidableEq κ] in
/-- White nodes of a later table are white in an earlier one. -/
theorem White.mono (hdone : ∀ k, done (μ k) = false → done (τ k) = false) {w : α}
    (h : White succ key done μ a w) : White succ key done τ a w := by
  induction h with
  | here ha => exact .here (hdone _ ha)
  | step _ hc hw ih => exact .step ih hc (hdone _ hw)

/-! ## One search -/

omit [DecidableEq κ] in
theorem Searched.kept {starts : List α} (h : Searched succ key done finish τ τ' starts) {k : κ}
    (hk : done (τ k) = true) : τ' k = τ k := by
  rcases h.grew k with heq | ⟨hundone, -⟩
  · exact heq
  · rw [hk] at hundone
    cases hundone

omit [DecidableEq κ] in
theorem Searched.mono {starts : List α} (h : Searched succ key done finish τ τ' starts) {k : κ}
    (hk : done (τ' k) = false) : done (τ k) = false := by
  cases hτ : done (τ k) with
  | false => rfl
  | true =>
    rw [h.kept hτ, hτ] at hk
    cases hk

omit [DecidableEq κ] in
theorem searched_nil (τ : κ → β) : Searched succ key done finish τ τ [] where
  grew _ := .inl rfl
  started a ha := by cases ha
  sound k h h' := by
    rw [h] at h'
    cases h'
  closed k h h' := by
    rw [h] at h'
    cases h'

omit [DecidableEq κ] in
/-- One start and then the others. -/
theorem Searched.cons (hfinish : ∀ b, done (finish b) = true) {starts : List α}
    (hfirst : Searched succ key done finish τ μ [a])
    (hrest : Searched succ key done finish μ τ' starts) :
    Searched succ key done finish τ τ' (a :: starts) := by
  have hdone : ∀ k, done (μ k) = true → done (τ' k) = true := by
    intro k hk
    rw [hrest.kept hk, hk]
  refine ⟨?_, ?_, ?_, ?_⟩
  · intro k
    rcases hfirst.grew k with heq | ⟨hundone, hfin⟩
    · rw [← heq]
      exact hrest.grew k
    · right
      have hk : done (μ k) = true := by rw [hfin, hfinish]
      exact ⟨hundone, by rw [hrest.kept hk, hfin]⟩
  · intro b hb
    rcases List.mem_cons.mp hb with rfl | hb
    · exact hdone _ (hfirst.started b List.mem_cons_self)
    · exact hrest.started b hb
  · intro k hk hk'
    cases hμ : done (μ k) with
    | true =>
      obtain ⟨b, hb, w, hw, hkey⟩ := hfirst.sound k hk hμ
      obtain rfl := List.mem_singleton.mp hb
      exact ⟨b, List.mem_cons_self, w, hw, hkey⟩
    | false =>
      obtain ⟨b, hb, w, hw, hkey⟩ := hrest.sound k hμ hk'
      exact ⟨b, List.mem_cons_of_mem a hb, w, hw.mono fun _ => hfirst.mono, hkey⟩
  · intro k hk hk'
    cases hμ : done (μ k) with
    | true =>
      obtain ⟨b, hb, e, he, hkey, hsucc⟩ := hfirst.closed k hk hμ
      obtain rfl := List.mem_singleton.mp hb
      exact ⟨b, List.mem_cons_self, e, he, hkey, fun c hc => hdone _ (hsucc c hc)⟩
    | false =>
      obtain ⟨b, hb, e, he, hkey, hsucc⟩ := hrest.closed k hμ hk'
      exact ⟨b, List.mem_cons_of_mem a hb, e, he, hkey, hsucc⟩

/-- A node whose entry is not done, by the search from its successors. -/
theorem Searched.above (hfinish : ∀ b, done (finish b) = true) (ha : done (τ (key a)) = false)
    (h : Searched succ key done finish
      (Function.update τ (key a) (finish (τ (key a)))) τ' (succ a)) :
    Searched succ key done finish τ τ' [a] := by
  have hown : done (Function.update τ (key a) (finish (τ (key a))) (key a)) = true := by
    rw [Function.update_self, hfinish]
  have hother : ∀ k, k ≠ key a →
      Function.update τ (key a) (finish (τ (key a))) k = τ k := fun k hk =>
    Function.update_of_ne hk _ _
  refine ⟨?_, ?_, ?_, ?_⟩
  · intro k
    by_cases hk : k = key a
    · subst hk
      exact .inr ⟨ha, by rw [h.kept hown, Function.update_self]⟩
    · rw [← hother k hk]
      exact h.grew k
  · intro b hb
    obtain rfl := List.mem_singleton.mp hb
    rw [h.kept hown, hown]
  · intro k hk hk'
    refine ⟨a, List.mem_cons_self, ?_⟩
    by_cases hka : k = key a
    · exact ⟨a, .here ha, hka.symm⟩
    · rw [← hother k hka] at hk
      obtain ⟨b, hb, w, hw, hkey⟩ := h.sound k hk hk'
      refine ⟨w, .cons ha hb (hw.mono ?_), hkey⟩
      intro k' hk'
      by_cases hka' : k' = key a
      · rw [hka', hown] at hk'
        cases hk'
      · rwa [hother k' hka'] at hk'
  · intro k hk hk'
    refine ⟨a, List.mem_cons_self, ?_⟩
    by_cases hka : k = key a
    · exact ⟨a, .refl, hka.symm, h.started⟩
    · rw [← hother k hka] at hk
      obtain ⟨b, hb, e, he, hkey, hsucc⟩ := h.closed k hk hk'
      exact ⟨e, .head hb he, hkey, hsucc⟩

omit [DecidableEq κ] in
/-- A node whose entry is done. -/
theorem searched_done (ha : done (τ (key a)) = true) : Searched succ key done finish τ τ [a] where
  grew _ := .inl rfl
  started b hb := by
    rw [List.mem_singleton.mp hb]
    exact ha
  sound := fun k hk hk' => by
    rw [hk] at hk'
    cases hk'
  closed := fun k hk hk' => by
    rw [hk] at hk'
    cases hk'

/-- **What a search leaves.** -/
theorem search_searched (hfinish : ∀ b, done (finish b) = true) {n : Nat} :
    ∀ {τ τ' : κ → β} {a : α}, search succ key done finish n τ a = some τ' →
      Searched succ key done finish τ τ' [a] := by
  induction n with
  | zero =>
    intro τ τ' a h
    cases h
  | succ n ih =>
    have hlist : ∀ (starts : List α) (τ τ' : κ → β),
        starts.foldlM (search succ key done finish n) τ = some τ' →
        Searched succ key done finish τ τ' starts := by
      intro starts
      induction starts with
      | nil =>
        intro τ τ' h
        cases h
        exact searched_nil τ
      | cons b starts ihstarts =>
        intro τ τ' h
        obtain ⟨μ, hb, hrest⟩ := foldlM_cons_some h
        exact (ih hb).cons hfinish (ihstarts μ τ' hrest)
    intro τ τ' a h
    rw [search] at h
    split at h
    · rename_i ha
      cases h
      exact searched_done ha
    · rename_i ha
      exact (hlist _ _ _ h).above hfinish (Bool.eq_false_iff.mpr ha)

/-! ## Which entries are done -/

omit [DecidableEq κ] in
/-- The entry of a white node is done: it was finished for a node whose successors are done. -/
theorem Searched.white (hal : Aligned succ key a) (h : Searched succ key done finish τ τ' [a])
    {w : α} (hw : White succ key done τ a w) : done (τ' (key w)) = true := by
  have hreach : ∀ {w}, White succ key done τ a w → ReflTransGen (Edge succ) a w := by
    intro w hw
    induction hw with
    | here _ => exact .refl
    | step _ hc _ ih => exact ih.tail hc
  induction hw with
  | here _ => exact h.started a List.mem_cons_self
  | step hb hc _ ih =>
    obtain ⟨a', ha', e, he, hkey, hsucc⟩ := h.closed _ hb.undone ih
    obtain rfl := List.mem_singleton.mp ha'
    rcases hal _ e (hreach hb) he hkey.symm _ hc with heq | ⟨c', hc', heq⟩
    · rw [heq]
      exact ih
    · rw [← heq]
      exact hsucc c' hc'

omit [DecidableEq κ] in
/-- **Which entries are done after a search.** -/
theorem Searched.done_iff (hal : Aligned succ key a)
    (h : Searched succ key done finish τ τ' [a]) (k : κ) :
    done (τ' k) = true ↔ done (τ k) = true ∨ ∃ w, White succ key done τ a w ∧ key w = k := by
  constructor
  · intro hk'
    cases hk : done (τ k) with
    | true => exact .inl rfl
    | false =>
      obtain ⟨a', ha', hw⟩ := h.sound k hk hk'
      obtain rfl := List.mem_singleton.mp ha'
      exact .inr hw
  · rintro (hk | ⟨w, hw, rfl⟩)
    · rw [h.kept hk, hk]
    · exact h.white hal hw

omit [DecidableEq κ] in
/-- **When all nodes behind the first one are done.** -/
theorem Searched.all_done_iff (hal : Aligned succ key a)
    (h : Searched succ key done finish τ τ' [a]) :
    (∀ q, ReflTransGen (Edge succ) a q → done (τ' (key q)) = true) ↔
      Exposed succ key done τ a :=
  forall_congr' fun q => imp_congr_right fun _ => h.done_iff hal (key q)

/-! ## When a search returns -/

omit [DecidableEq κ] in
theorem card_undone_le {keys : Finset κ} {starts : List α}
    (h : Searched succ key done finish τ τ' starts) :
    (keys.filter fun k => done (τ' k) = false).card ≤
      (keys.filter fun k => done (τ k) = false).card := by
  apply Finset.card_le_card
  intro k hk
  rw [Finset.mem_filter] at hk ⊢
  exact ⟨hk.1, h.mono hk.2⟩

/-- **A search returns where finitely many entries are in reach**: every call that goes on finishes
one of them. -/
theorem search_returns (hfinish : ∀ b, done (finish b) = true) (keys : Finset κ) :
    ∀ (n : Nat) (τ : κ → β) (a : α),
      (∀ q, ReflTransGen (Edge succ) a q → key q ∈ keys) →
      (keys.filter fun k => done (τ k) = false).card < n →
      ∃ τ', search succ key done finish n τ a = some τ' := by
  intro n
  induction n with
  | zero => exact fun _ _ _ h => absurd h (Nat.not_lt_zero _)
  | succ n ih =>
    intro τ a hkeys hcard
    rw [search]
    split
    · exact ⟨τ, rfl⟩
    · rename_i ha
      have ha : done (τ (key a)) = false := Bool.eq_false_iff.mpr ha
      have hfewer : (keys.filter fun k =>
          done (Function.update τ (key a) (finish (τ (key a))) k) = false).card < n := by
        refine Nat.lt_of_lt_of_le (Finset.card_lt_card ?_) (Nat.lt_succ_iff.mp hcard)
        rw [Finset.ssubset_iff_of_subset ?_]
        · refine ⟨key a, Finset.mem_filter.mpr ⟨hkeys a .refl, ha⟩, fun hmem => ?_⟩
          have hfalse := (Finset.mem_filter.mp hmem).2
          rw [Function.update_self, hfinish] at hfalse
          cases hfalse
        · intro k hk
          rw [Finset.mem_filter] at hk ⊢
          refine ⟨hk.1, ?_⟩
          by_cases hka : k = key a
          · rw [hka]
            exact ha
          · rw [← hk.2, Function.update_of_ne hka]
      have hcalls : ∀ b ∈ succ a, ∀ σ,
          (keys.filter fun k => done (σ k) = false).card < n →
          ∃ σ', search succ key done finish n σ b = some σ' ∧
            (keys.filter fun k => done (σ' k) = false).card < n := by
        intro b hb σ hσ
        obtain ⟨σ', hσ'⟩ := ih σ b (fun q hq => hkeys q (.head hb hq)) hσ
        exact ⟨σ', hσ', Nat.lt_of_le_of_lt (card_undone_le (search_searched hfinish hσ')) hσ⟩
      obtain ⟨τ', hτ', -⟩ := foldlM_returns_keeping hcalls hfewer
      exact ⟨τ', hτ'⟩

end MarkedSearch
