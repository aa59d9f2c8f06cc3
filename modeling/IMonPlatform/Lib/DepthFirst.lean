import Mathlib.Logic.Relation
import Mathlib.Logic.Function.Basic
import Mathlib.Data.List.Nodup

/-!
# Depth-first assignment over a graph

A recursive procedure gives a node its value, calls itself on every successor and then finishes
the node's own value; there is no list of visited nodes.  The number of nested calls is bounded by
a fuel argument, and `none` means that the bound was reached.

* `visit` — the procedure; `Edge` — the successor relation.
* `visit_acyclic` — a call that returns started at a node on no cycle.
* `visit_reached`, `visit_unreached` — such a call gives exactly the reachable nodes their finished
  value.
* `visit_returns` — it returns where a rank decreases along the edges.
* `calls` — the nodes in the order in which they are visited; `calls_nodup` — each of them once where
  every node has one predecessor.
-/

set_option autoImplicit false

namespace DepthFirst

open Relation

variable {α β : Type*}

/-! ## Folds that may fail -/

section Folds

variable {γ : Type*} {f : γ → α → Option γ}

theorem foldlM_cons_some {σ τ : γ} {b : α} {bs : List α}
    (h : (b :: bs).foldlM f σ = some τ) : ∃ μ, f σ b = some μ ∧ bs.foldlM f μ = some τ := by
  rw [List.foldlM_cons] at h
  exact Option.bind_eq_some_iff.mp h

theorem foldlM_returns {bs : List α} :
    ∀ {σ τ : γ}, bs.foldlM f σ = some τ → ∀ b ∈ bs, ∃ σ₁ τ₁, f σ₁ b = some τ₁ := by
  induction bs with
  | nil => simp
  | cons c bs ih =>
    intro σ τ h b hb
    obtain ⟨μ, hc, hbs⟩ := foldlM_cons_some h
    rcases List.mem_cons.mp hb with rfl | hb
    · exact ⟨σ, μ, hc⟩
    · exact ih hbs b hb

/-- What every call keeps, the fold keeps; with it the fold returns if every call does. -/
theorem foldlM_returns_keeping {P : γ → Prop} {bs : List α}
    (hf : ∀ b ∈ bs, ∀ σ, P σ → ∃ τ, f σ b = some τ ∧ P τ) {σ : γ} (hσ : P σ) :
    ∃ τ, bs.foldlM f σ = some τ ∧ P τ := by
  induction bs generalizing σ with
  | nil => exact ⟨σ, rfl, hσ⟩
  | cons b bs ih =>
    obtain ⟨μ, hμ, hkept⟩ := hf b List.mem_cons_self σ hσ
    obtain ⟨τ, hτ, hP⟩ := ih (fun b' hb' => hf b' (List.mem_cons_of_mem b hb')) hkept
    refine ⟨τ, ?_, hP⟩
    rw [List.foldlM_cons]
    exact Option.bind_eq_some_iff.mpr ⟨μ, hμ, hτ⟩

theorem foldlM_returns_of_forall {bs : List α} (hf : ∀ b ∈ bs, ∀ σ, ∃ τ, f σ b = some τ)
    (σ : γ) : ∃ τ, bs.foldlM f σ = some τ := by
  have hall : ∀ b ∈ bs, ∀ σ, True → ∃ τ, f σ b = some τ ∧ True := by
    intro b hb σ _
    obtain ⟨τ, hτ⟩ := hf b hb σ
    exact ⟨τ, hτ, trivial⟩
  obtain ⟨τ, hτ, -⟩ := foldlM_returns_keeping hall (σ := σ) trivial
  exact ⟨τ, hτ⟩

end Folds

theorem mapM_some {f : α → Option (List α)} {bs : List α} :
    ∀ {ls : List (List α)}, bs.mapM f = some ls →
      (∀ b ∈ bs, ∃ l, f b = some l) ∧ ls = bs.map fun b => (f b).getD [] := by
  induction bs with
  | nil =>
    intro ls h
    cases h
    simp
  | cons b bs ih =>
    intro ls h
    rw [List.mapM_cons] at h
    obtain ⟨l, hl, h⟩ := Option.bind_eq_some_iff.mp h
    obtain ⟨rest, hrest, h⟩ := Option.bind_eq_some_iff.mp h
    cases h
    obtain ⟨hall, rfl⟩ := ih hrest
    refine ⟨?_, by simp [hl]⟩
    intro c hc
    rcases List.mem_cons.mp hc with rfl | hc
    · exact ⟨l, hl⟩
    · exact hall c hc

theorem mapM_returns {f : α → Option (List α)} {bs : List α}
    (h : ∀ b ∈ bs, ∃ l, f b = some l) : ∃ ls, bs.mapM f = some ls := by
  induction bs with
  | nil => exact ⟨[], rfl⟩
  | cons b bs ih =>
    obtain ⟨l, hl⟩ := h b List.mem_cons_self
    obtain ⟨ls, hls⟩ := ih fun c hc => h c (List.mem_cons_of_mem b hc)
    exact ⟨l :: ls, by rw [List.mapM_cons, hl, hls]; rfl⟩

/-! ## The procedure -/

variable [DecidableEq α] {succ : α → List α} {start : α → β} {finish : α → β → β}

/-- Give `a` its first value, visit its successors, finish `a`. -/
def visit (succ : α → List α) (start : α → β) (finish : α → β → β) :
    Nat → (α → β) → α → Option (α → β)
  | 0, _, _ => none
  | n + 1, σ, a =>
    match (succ a).foldlM (visit succ start finish n) (Function.update σ a (start a)) with
    | none => none
    | some τ => some (Function.update τ a (finish a (τ a)))

/-- `b` is a successor of `a`. -/
def Edge (succ : α → List α) (a b : α) : Prop := b ∈ succ a

/-- A call that returns, taken apart. -/
theorem visit_succ {n : Nat} {σ τ : α → β} {a : α}
    (h : visit succ start finish (n + 1) σ a = some τ) :
    ∃ μ, (succ a).foldlM (visit succ start finish n) (Function.update σ a (start a)) = some μ ∧
      τ = Function.update μ a (finish a (μ a)) := by
  rw [visit] at h
  split at h
  · cases h
  · rename_i μ hμ
    cases h
    exact ⟨μ, hμ, rfl⟩

/-! ## A call that returns is on no cycle -/

theorem visit_returns_of_transGen {a b : α} (hab : TransGen (Edge succ) a b) :
    ∀ {n : Nat} {σ τ : α → β}, visit succ start finish n σ a = some τ →
      ∃ m < n, ∃ σ₁ τ₁, visit succ start finish m σ₁ b = some τ₁ := by
  have hedge : ∀ {x y : α} {n : Nat} {σ τ : α → β}, Edge succ x y →
      visit succ start finish n σ x = some τ →
      ∃ m < n, ∃ σ₁ τ₁, visit succ start finish m σ₁ y = some τ₁ := by
    intro x y n σ τ hxy h
    cases n with
    | zero => cases h
    | succ n =>
      obtain ⟨μ, hμ, -⟩ := visit_succ h
      exact ⟨n, Nat.lt_succ_self n, foldlM_returns hμ y hxy⟩
  induction hab with
  | single hxy => exact fun h => hedge hxy h
  | tail _ hyz ih =>
    intro n σ τ h
    obtain ⟨m, hm, σ₁, τ₁, h₁⟩ := ih h
    obtain ⟨m', hm', hz⟩ := hedge hyz h₁
    exact ⟨m', Nat.lt_trans hm' hm, hz⟩

/-- **A node on a cycle does not return.** -/
theorem visit_acyclic {a : α} (ha : TransGen (Edge succ) a a) (n : Nat) (σ : α → β) :
    visit succ start finish n σ a = none := by
  induction n using Nat.strongRecOn generalizing σ with
  | ind n ih =>
    cases h : visit succ start finish n σ a with
    | none => rfl
    | some τ =>
      obtain ⟨m, hm, σ₁, τ₁, h₁⟩ := visit_returns_of_transGen ha h
      rw [ih m hm σ₁] at h₁
      cases h₁

/-! ## What a call that returns has done -/

/-- The reached nodes have their finished value, the others are as before. -/
def Assigned (start : α → β) (finish : α → β → β) (σ τ : α → β) (reached : α → Prop) : Prop :=
  ∀ x, (reached x → τ x = finish x (start x)) ∧ (¬ reached x → τ x = σ x)

omit [DecidableEq α] in
theorem foldlM_assigned {f : (α → β) → α → Option (α → β)}
    (hf : ∀ σ b τ, f σ b = some τ →
      Assigned start finish σ τ (ReflTransGen (Edge succ) b)) {bs : List α} :
    ∀ {σ τ : α → β}, bs.foldlM f σ = some τ →
      Assigned start finish σ τ fun x => ∃ b ∈ bs, ReflTransGen (Edge succ) b x := by
  induction bs with
  | nil =>
    intro σ τ h x
    cases h
    simp
  | cons b bs ih =>
    intro σ τ h x
    obtain ⟨μ, hb, hbs⟩ := foldlM_cons_some h
    have hμ := hf σ b μ hb x
    have hτ := ih hbs x
    constructor
    · rintro ⟨b', hb', hx⟩
      by_cases hlater : ∃ b ∈ bs, ReflTransGen (Edge succ) b x
      · exact hτ.1 hlater
      · rcases List.mem_cons.mp hb' with rfl | hb'
        · exact (hτ.2 hlater).trans (hμ.1 hx)
        · exact absurd ⟨b', hb', hx⟩ hlater
    · intro hnot
      have hlater : ¬ ∃ b ∈ bs, ReflTransGen (Edge succ) b x :=
        fun ⟨b', hb', hx⟩ => hnot ⟨b', List.mem_cons_of_mem b hb', hx⟩
      have hnow : ¬ ReflTransGen (Edge succ) b x :=
        fun hx => hnot ⟨b, List.mem_cons_self, hx⟩
      exact (hτ.2 hlater).trans (hμ.2 hnow)

theorem visit_assigned {n : Nat} :
    ∀ {σ : α → β} {a : α} {τ : α → β}, visit succ start finish n σ a = some τ →
      Assigned start finish σ τ (ReflTransGen (Edge succ) a) := by
  induction n with
  | zero =>
    intro σ a τ h
    cases h
  | succ n ih =>
    intro σ a τ h x
    have hcycle : ¬ TransGen (Edge succ) a a := by
      intro ha
      rw [visit_acyclic ha] at h
      cases h
    obtain ⟨μ, hμ, rfl⟩ := visit_succ h
    have hbelow := foldlM_assigned (fun σ b τ => ih) hμ
    by_cases hxa : x = a
    · subst hxa
      have hself : ¬ ∃ b ∈ succ x, ReflTransGen (Edge succ) b x :=
        fun ⟨b, hb, hx⟩ => hcycle (TransGen.head' hb hx)
      have hstart : μ x = start x := by
        rw [(hbelow x).2 hself, Function.update_self]
      refine ⟨fun _ => ?_, fun hnot => absurd .refl hnot⟩
      rw [Function.update_self, hstart]
    · rw [Function.update_of_ne hxa]
      constructor
      · intro hx
        apply (hbelow x).1
        rcases ReflTransGen.cases_head hx with heq | ⟨b, hb, hbx⟩
        · exact absurd heq.symm hxa
        · exact ⟨b, hb, hbx⟩
      · intro hnot
        have hnone : ¬ ∃ b ∈ succ a, ReflTransGen (Edge succ) b x :=
          fun ⟨b, hb, hx⟩ => hnot (ReflTransGen.head hb hx)
        rw [(hbelow x).2 hnone, Function.update_of_ne hxa]

/-- **The reachable nodes get their finished value.** -/
theorem visit_reached {n : Nat} {σ τ : α → β} {a x : α}
    (h : visit succ start finish n σ a = some τ) (hx : ReflTransGen (Edge succ) a x) :
    τ x = finish x (start x) :=
  (visit_assigned h x).1 hx

/-- **The other nodes keep what they had.** -/
theorem visit_unreached {n : Nat} {σ τ : α → β} {a x : α}
    (h : visit succ start finish n σ a = some τ) (hx : ¬ ReflTransGen (Edge succ) a x) :
    τ x = σ x :=
  (visit_assigned h x).2 hx

/-! ## When a call returns -/

/-- **A call returns where a rank decreases along the edges.** -/
theorem visit_returns {a : α} (rank : α → Nat)
    (hrank : ∀ x, ReflTransGen (Edge succ) a x → ∀ y, Edge succ x y → rank y < rank x)
    (σ : α → β) : ∃ n τ, visit succ start finish n σ a = some τ := by
  have hall : ∀ n x, ReflTransGen (Edge succ) a x → rank x < n →
      ∀ σ, ∃ τ, visit succ start finish n σ x = some τ := by
    intro n
    induction n with
    | zero => exact fun x _ hx => absurd hx (Nat.not_lt_zero _)
    | succ n ih =>
      intro x hax hx σ
      have hsucc : ∀ y ∈ succ x, ∀ σ, ∃ τ, visit succ start finish n σ y = some τ := by
        intro y hy
        have hlt := hrank x hax y hy
        exact ih y (hax.tail hy) (by omega)
      obtain ⟨μ, hμ⟩ := foldlM_returns_of_forall hsucc (Function.update σ x (start x))
      exact ⟨_, by rw [visit, hμ]⟩
  exact ⟨rank a + 1, hall (rank a + 1) a .refl (Nat.lt_succ_self _) σ⟩

/-! ## The visits of a call -/

/-- The nodes that a call visits, in the order of the visits. -/
def calls (succ : α → List α) : Nat → α → Option (List α)
  | 0, _ => none
  | n + 1, a => ((succ a).mapM (calls succ n)).map fun below => a :: below.flatten

omit [DecidableEq α] in
/-- The visits of a call, taken apart. -/
theorem calls_succ {n : Nat} {a : α} {l : List α} (h : calls succ (n + 1) a = some l) :
    (∀ b ∈ succ a, ∃ below, calls succ n b = some below) ∧
      l = a :: (succ a).flatMap fun b => (calls succ n b).getD [] := by
  obtain ⟨ls, hls, rfl⟩ := Option.map_eq_some_iff.mp h
  obtain ⟨hall, rfl⟩ := mapM_some hls
  exact ⟨hall, by rw [List.flatMap_def]⟩

/-- The visits can be listed for exactly the calls that return. -/
theorem calls_iff_visit {n : Nat} : ∀ {a : α} {σ : α → β},
    (∃ l, calls succ n a = some l) ↔ ∃ τ, visit succ start finish n σ a = some τ := by
  induction n with
  | zero => simp [calls, visit]
  | succ n ih =>
    intro a σ
    constructor
    · rintro ⟨l, h⟩
      obtain ⟨hall, -⟩ := calls_succ h
      have hsucc : ∀ b ∈ succ a, ∀ σ, ∃ τ, visit succ start finish n σ b = some τ :=
        fun b hb σ => ih.mp (hall b hb)
      obtain ⟨μ, hμ⟩ := foldlM_returns_of_forall hsucc (Function.update σ a (start a))
      exact ⟨_, by rw [visit, hμ]⟩
    · rintro ⟨τ, h⟩
      obtain ⟨μ, hμ, -⟩ := visit_succ h
      have hsucc : ∀ b ∈ succ a, ∃ l, calls succ n b = some l := fun b hb => by
        obtain ⟨σ₁, τ₁, h₁⟩ := foldlM_returns hμ b hb
        exact ih.mpr ⟨τ₁, h₁⟩
      obtain ⟨ls, hls⟩ := mapM_returns hsucc
      exact ⟨_, by rw [calls, hls]; rfl⟩

omit [DecidableEq α] in
/-- Only reachable nodes are visited. -/
theorem mem_calls {n : Nat} : ∀ {a x : α} {l : List α}, calls succ n a = some l → x ∈ l →
    ReflTransGen (Edge succ) a x := by
  induction n with
  | zero =>
    intro a x l h
    cases h
  | succ n ih =>
    intro a x l h hx
    obtain ⟨hall, rfl⟩ := calls_succ h
    rcases List.mem_cons.mp hx with rfl | hx
    · exact .refl
    · obtain ⟨b, hb, hxb⟩ := List.mem_flatMap.mp hx
      obtain ⟨below, hbelow⟩ := hall b hb
      rw [hbelow, Option.getD_some] at hxb
      exact ReflTransGen.head hb (ih hbelow hxb)

omit [DecidableEq α] in
/-- Two nodes above the same one are above each other where every node has one predecessor. -/
theorem reach_total (hone : ∀ x y b, Edge succ x b → Edge succ y b → x = y) {x a b : α}
    (ha : ReflTransGen (Edge succ) a x) (hb : ReflTransGen (Edge succ) b x) :
    ReflTransGen (Edge succ) a b ∨ ReflTransGen (Edge succ) b a := by
  induction ha with
  | refl => exact .inr hb
  | tail hay hyz ih =>
    rcases ReflTransGen.cases_tail hb with rfl | ⟨y', hby, hyz'⟩
    · exact .inl (hay.tail hyz)
    · obtain rfl := hone _ _ _ hyz hyz'
      exact ih hby

/-- **Each node is visited once** where every node has one predecessor. -/
theorem calls_nodup (hone : ∀ x y b, Edge succ x b → Edge succ y b → x = y)
    (hnodup : ∀ a, (succ a).Nodup) {n : Nat} :
    ∀ {a : α} {l : List α}, calls succ n a = some l → l.Nodup := by
  induction n with
  | zero =>
    intro a l h
    cases h
  | succ n ih =>
    intro a l h
    have hcycle : ¬ TransGen (Edge succ) a a := by
      intro ha
      have hvisit : ∃ τ, visit succ id (fun _ => id) (n + 1) id a = some τ :=
        calls_iff_visit.mp ⟨l, h⟩
      obtain ⟨τ, hτ⟩ := hvisit
      rw [visit_acyclic ha] at hτ
      cases hτ
    obtain ⟨hall, rfl⟩ := calls_succ h
    rw [List.nodup_cons, List.nodup_flatMap]
    refine ⟨?_, ?_, ?_⟩
    · intro ha
      obtain ⟨b, hb, hab⟩ := List.mem_flatMap.mp ha
      obtain ⟨below, hbelow⟩ := hall b hb
      rw [hbelow, Option.getD_some] at hab
      exact hcycle (TransGen.head' hb (mem_calls hbelow hab))
    · intro b hb
      obtain ⟨below, hbelow⟩ := hall b hb
      rw [hbelow, Option.getD_some]
      exact ih hbelow
    · -- A node below two children would put the one child below the other, so below `a` itself.
      have hapart : ∀ b c, b ∈ succ a → c ∈ succ a → b ≠ c →
          ¬ ReflTransGen (Edge succ) b c := by
        intro b c hb hc hne hbc
        rcases ReflTransGen.cases_tail hbc with heq | ⟨y, hby, hyc⟩
        · exact hne heq.symm
        · obtain rfl := hone _ _ _ hc hyc
          exact hcycle (TransGen.head' hb hby)
      refine (hnodup a).imp_of_mem ?_
      intro b c hb hc hne x hxb hxc
      obtain ⟨belowB, hbelowB⟩ := hall b hb
      obtain ⟨belowC, hbelowC⟩ := hall c hc
      have hxb : x ∈ belowB := by simpa [hbelowB] using hxb
      have hxc : x ∈ belowC := by simpa [hbelowC] using hxc
      rcases reach_total hone (mem_calls hbelowB hxb) (mem_calls hbelowC hxc) with h | h
      · exact hapart b c hb hc hne h
      · exact hapart c b hc hb hne.symm h

end DepthFirst
