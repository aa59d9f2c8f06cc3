import Mathlib.Logic.Basic

/-!
# Two programs step by step

Calls that return or throw and leave a state, on two types of states.  Two calls agree if from
related states they have the same result and leave related states.

* `andThen`, `handle` — one call after another, and an exception handler.
* `Agrees` — the judgement; `agrees_andThen`, `agrees_handle`, `agrees_modify`, `agrees_at` — its
  rules.
* `results` — the results of a row of calls; `agrees_results` — rows of calls that agree;
  `results_of_related` — what holds of every result.
-/

set_option autoImplicit false

namespace Relational

variable {σ τ ε α β : Type*}

def andThen (x : σ → Except ε α × σ) (f : α → σ → Except ε β × σ) : σ → Except ε β × σ :=
  fun s =>
    match x s with
    | (.ok a, s') => f a s'
    | (.error e, s') => (.error e, s')

/-- The handler goes on from what the call has left. -/
def handle (caught : ε → Bool) (x handler : σ → Except ε α × σ) : σ → Except ε α × σ := fun s =>
  match x s with
  | (.error e, s') => if caught e then handler s' else (.error e, s')
  | (.ok a, s') => (.ok a, s')

/-- From related states the two calls have the same result, and leave related states. -/
def Agrees (R : σ → τ → Prop) (x : σ → Except ε α × σ) (y : τ → Except ε α × τ) : Prop :=
  ∀ s t, R s t → (x s).1 = (y t).1 ∧ R (x s).2 (y t).2

section Rules

variable {R : σ → τ → Prop}

theorem agrees_result (r : Except ε α) : Agrees R (fun s => (r, s)) fun t => (r, t) :=
  fun _ _ h => ⟨rfl, h⟩

/-- A call that depends on the state it finds. -/
theorem agrees_at {x : σ → Except ε α × σ} {y : τ → Except ε α × τ}
    (h : ∀ s t, R s t → ∃ (x' : σ → Except ε α × σ) (y' : τ → Except ε α × τ),
      x s = x' s ∧ y t = y' t ∧ Agrees R x' y') : Agrees R x y := by
  intro s t hR
  obtain ⟨x', y', hx, hy, hagrees⟩ := h s t hR
  rw [hx, hy]
  exact hagrees s t hR

theorem agrees_modify {f : σ → σ} {g : τ → τ} (h : ∀ s t, R s t → R (f s) (g t)) (a : α) :
    Agrees R (fun s => ((.ok a : Except ε α), f s)) fun t => (.ok a, g t) :=
  fun s t hR => ⟨rfl, h s t hR⟩

theorem agrees_andThen {x : σ → Except ε α × σ} {y : τ → Except ε α × τ}
    {f : α → σ → Except ε β × σ} {g : α → τ → Except ε β × τ} (hx : Agrees R x y)
    (hf : ∀ a, Agrees R (f a) (g a)) : Agrees R (andThen x f) (andThen y g) := by
  intro s t hR
  obtain ⟨hresult, hstate⟩ := hx s t hR
  unfold andThen
  rcases hxs : x s with ⟨r, s'⟩
  rcases hyt : y t with ⟨r', t'⟩
  rw [hxs, hyt] at hresult hstate
  cases hresult
  cases r with
  | ok a => exact hf a s' t' hstate
  | error e => exact ⟨rfl, hstate⟩

theorem agrees_handle {caught : ε → Bool} {x handler : σ → Except ε α × σ}
    {y handler' : τ → Except ε α × τ} (hx : Agrees R x y) (hh : Agrees R handler handler') :
    Agrees R (handle caught x handler) (handle caught y handler') := by
  intro s t hR
  obtain ⟨hresult, hstate⟩ := hx s t hR
  unfold handle
  rcases hxs : x s with ⟨r, s'⟩
  rcases hyt : y t with ⟨r', t'⟩
  rw [hxs, hyt] at hresult hstate
  cases hresult
  cases r with
  | ok a => exact ⟨rfl, hstate⟩
  | error e =>
    dsimp only
    split
    · exact hh s' t' hstate
    · exact ⟨rfl, hstate⟩

end Rules

/-! ## Rows of calls -/

variable {ι : Type*}

/-- The results of a row of calls, and what they leave. -/
def results (call : ι → σ → Except ε α × σ) : List ι → σ → List (Except ε α) × σ
  | [], s => ([], s)
  | op :: ops, s =>
    let r := call op s
    let rest := results call ops r.2
    (r.1 :: rest.1, rest.2)

/-- **Rows of calls that agree** have the same results. -/
theorem agrees_results {R : σ → τ → Prop} {call : ι → σ → Except ε α × σ}
    {call' : ι → τ → Except ε α × τ} (h : ∀ op, Agrees R (call op) (call' op)) :
    ∀ (ops : List ι) (s : σ) (t : τ), R s t →
      (results call ops s).1 = (results call' ops t).1 ∧
        R (results call ops s).2 (results call' ops t).2
  | [], _, _, hR => ⟨rfl, hR⟩
  | op :: ops, s, t, hR => by
    obtain ⟨hresult, hstate⟩ := h op s t hR
    obtain ⟨hresults, hlast⟩ := agrees_results h ops _ _ hstate
    exact ⟨by rw [results, results, hresult, hresults], hlast⟩

theorem results_of_related {R : σ → τ → Prop} {call : ι → σ → Except ε α × σ}
    {call' : ι → τ → Except ε α × τ} (h : ∀ op, Agrees R (call op) (call' op))
    {P : Except ε α → Prop} (hP : ∀ op s t, R s t → P (call op s).1) :
    ∀ (ops : List ι) (s : σ) (t : τ), R s t → ∀ r ∈ (results call ops s).1, P r
  | [], _, _, _, _, hr => absurd hr List.not_mem_nil
  | op :: ops, s, t, hR, r, hr => by
    rcases List.mem_cons.mp hr with rfl | hr
    · exact hP op s t hR
    · exact results_of_related h hP ops _ _ (h op s t hR).2 r hr

end Relational
