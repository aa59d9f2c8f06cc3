import Mathlib.Data.List.Basic

/-!
# Runs of a partial step function

A system of concurrent parties is given by a state type `σ`, a type `ε` of atomic events and a
partial function `step : σ → ε → Option σ` (`none`: the event is not enabled).  An interleaving
is a list of events.

* `run` — execute a list of events.
* `Meets C` — every step taken along a run satisfies the condition `C` on the state before the
  step and the event.
* `Always P` — `P` holds in every state reached along a run.
* `outputs` — what the steps of a run give out.
* `run_preserves` — an invariant kept by every step that meets `C` holds at the end of every
  run whose steps all meet `C`; `run_invariant` is the case without a condition.
* `meets_imp` — under an invariant, a run that meets one condition meets another.
* `always_of_meets` — what such an invariant implies holds in every state of such a run.
* `always_iff_meets` — if moreover a step that violates `C` destroys `P`, then `P` holds along a
  run exactly when every step of the run meets `C`; `always_iff_meets_within`, among the runs that
  meet another condition.
* `run_component` — a part of the state that moves by steps of its own.
* `exists_replicate_stuck` — an event that decreases a measure can be repeated until it is no
  longer enabled.
* `exists_run_until` — if in every state of an invariant that is not yet done some event of a kind
  decreases a measure, a run of such events reaches a state that is done.
* `run_follows` — a relation that follows every step of one system by a step or a stutter of
  another follows its runs.
-/

set_option autoImplicit false

namespace Transition

variable {σ ε : Type*}

/-- Execute a list of events; `none` as soon as one of them is not enabled. -/
def run (step : σ → ε → Option σ) : σ → List ε → Option σ
  | s, [] => some s
  | s, e :: es =>
    match step s e with
    | none => none
    | some s' => run step s' es

/-- Every step taken along the run satisfies `C`. -/
def Meets (step : σ → ε → Option σ) (C : σ → ε → Prop) : σ → List ε → Prop
  | _, [] => True
  | s, e :: es => ∀ s', step s e = some s' → C s e ∧ Meets step C s' es

/-- `P` holds in every state reached along the run. -/
def Always (step : σ → ε → Option σ) (P : σ → Prop) (s : σ) (es : List ε) : Prop :=
  ∀ es₁ t, es₁ <+: es → run step s es₁ = some t → P t

/-- What the steps taken along the run give out, in order. -/
def outputs {ο : Type*} (step : σ → ε → Option σ) (out : σ → ε → Option ο) : σ → List ε → List ο
  | _, [] => []
  | s, e :: es =>
    match step s e with
    | none => []
    | some s' => (out s e).toList ++ outputs step out s' es

variable {step : σ → ε → Option σ} {C : σ → ε → Prop} {I P : σ → Prop}

@[simp] theorem run_nil (s : σ) : run step s [] = some s := rfl

theorem run_cons {s t : σ} {e : ε} {es : List ε} :
    run step s (e :: es) = some t ↔ ∃ s', step s e = some s' ∧ run step s' es = some t := by
  simp only [run]
  cases step s e <;> simp

theorem run_append {t : σ} {es₁ es₂ : List ε} {s : σ} :
    run step s (es₁ ++ es₂) = some t ↔
      ∃ m, run step s es₁ = some m ∧ run step m es₂ = some t := by
  induction es₁ generalizing s with
  | nil => simp
  | cons e es₁ ih =>
    simp only [List.cons_append, run_cons, ih]
    constructor
    · rintro ⟨s', hs, m, h₁, h₂⟩
      exact ⟨m, ⟨s', hs, h₁⟩, h₂⟩
    · rintro ⟨m, ⟨s', hs, h₁⟩, h₂⟩
      exact ⟨s', hs, m, h₁, h₂⟩

theorem run_snoc {s t : σ} {es : List ε} {e : ε} :
    run step s (es ++ [e]) = some t ↔ ∃ m, run step s es = some m ∧ step m e = some t := by
  rw [run_append]
  simp [run_cons]

theorem outputs_append {ο : Type*} {out : σ → ε → Option ο} {t : σ} {es₁ es₂ : List ε} {s : σ}
    (h : run step s es₁ = some t) :
    outputs step out s (es₁ ++ es₂) = outputs step out s es₁ ++ outputs step out t es₂ := by
  induction es₁ generalizing s with
  | nil =>
    cases h
    rfl
  | cons e es₁ ih =>
    obtain ⟨s', hs, ht⟩ := run_cons.mp h
    simp only [List.cons_append, outputs, hs, ih ht, List.append_assoc]

/-- **Guarded invariant rule.** -/
theorem run_preserves (hstep : ∀ s e s', I s → C s e → step s e = some s' → I s') :
    ∀ (es : List ε) (s t : σ), I s → Meets step C s es → run step s es = some t → I t
  | [], s, t, hi, _, h => by simp at h; exact h ▸ hi
  | e :: es, s, t, hi, hc, h => by
    obtain ⟨s', hs, ht⟩ := run_cons.mp h
    obtain ⟨hce, hces⟩ := hc s' hs
    exact run_preserves hstep es s' t (hstep s e s' hi hce hs) hces ht

/-- A condition implies another one in the states of an invariant that it maintains. -/
theorem meets_imp {D : σ → ε → Prop}
    (hstep : ∀ s e s', I s → C s e → step s e = some s' → I s')
    (himp : ∀ s e, I s → C s e → D s e) :
    ∀ (es : List ε) (s : σ), I s → Meets step C s es → Meets step D s es
  | [], _, _, _ => trivial
  | e :: es, s, hi, h => fun s' hs =>
    ⟨himp s e hi (h s' hs).1,
      meets_imp hstep himp es s' (hstep s e s' hi (h s' hs).1 hs) (h s' hs).2⟩

/-- A condition on the events alone. -/
theorem meets_of_forall : ∀ (es : List ε) (s : σ), (∀ e ∈ es, ∀ s, C s e) → Meets step C s es
  | [], _, _ => trivial
  | e :: es, s, h => fun s' _ => ⟨h e List.mem_cons_self s,
      meets_of_forall es s' (fun e' he' => h e' (List.mem_cons_of_mem e he'))⟩

theorem meets_cons {s s' : σ} {e : ε} {es : List ε} (hs : step s e = some s') (hc : C s e)
    (h : Meets step C s' es) : Meets step C s (e :: es) := by
  intro t ht
  rw [hs] at ht
  cases ht
  exact ⟨hc, h⟩

/-- Conditions that can be decided can be decided along a run. -/
instance decidableMeets [∀ s e, Decidable (C s e)] :
    ∀ (es : List ε) (s : σ), Decidable (Meets step C s es)
  | [], _ => isTrue trivial
  | e :: es, s =>
    match h : step s e with
    | none => isTrue fun _ hs => nomatch h.symm.trans hs
    | some s' =>
      have := decidableMeets es s'
      decidable_of_iff (C s e ∧ Meets step C s' es)
        ⟨fun hm => meets_cons h hm.1 hm.2, fun hm => hm s' h⟩

theorem meets_and {D : σ → ε → Prop} : ∀ {es : List ε} {s : σ}, Meets step D s es →
    Meets step C s es → Meets step (fun s e => D s e ∧ C s e) s es
  | [], _, _, _ => trivial
  | _ :: _, _, hd, hc => fun s' hs =>
    ⟨⟨(hd s' hs).1, (hc s' hs).1⟩, meets_and (hd s' hs).2 (hc s' hs).2⟩

theorem meets_append {es₁ es₂ : List ε} {s : σ} (h₁ : Meets step C s es₁)
    (h₂ : ∀ m, run step s es₁ = some m → Meets step C m es₂) : Meets step C s (es₁ ++ es₂) := by
  induction es₁ generalizing s with
  | nil => exact h₂ s rfl
  | cons e es₁ ih =>
    intro s' hs
    obtain ⟨hc, hrest⟩ := h₁ s' hs
    exact ⟨hc, ih hrest fun m hm => h₂ m (run_cons.mpr ⟨s', hs, hm⟩)⟩

/-- **Invariant rule**: what every step preserves holds at the end of every run. -/
theorem run_invariant (hstep : ∀ s e s', I s → step s e = some s' → I s') {es : List ε}
    {s t : σ} (hi : I s) (h : run step s es = some t) : I t :=
  run_preserves (C := fun _ _ => True) (fun s e s' hi _ hs => hstep s e s' hi hs) es s t hi
    (meets_of_forall es s (fun _ _ _ => trivial)) h

/-- **Component rule**: if every step leaves a component of the state alone or is a step of it, then
    the component of a run is one that the component's own steps reach. -/
theorem run_component {σ' ε' : Type*} {step' : σ' → ε' → Option σ'} (f : σ → σ')
    (hstep : ∀ s e s', step s e = some s' → f s' = f s ∨ ∃ e', step' (f s) e' = some (f s'))
    {es : List ε} {s t : σ} (h : run step s es = some t) :
    ∃ es', run step' (f s) es' = some (f t) := by
  refine run_invariant (I := fun t => ∃ es', run step' (f s) es' = some (f t)) ?_ ⟨[], rfl⟩ h
  rintro m e m' ⟨es', hes⟩ hs
  rcases hstep m e m' hs with hsame | ⟨e', he⟩
  · exact ⟨es', by rw [hsame]; exact hes⟩
  · exact ⟨es' ++ [e'], run_snoc.mpr ⟨_, hes, he⟩⟩

theorem always_cons {s s' : σ} {e : ε} {es : List ε} (hs : step s e = some s')
    (h : Always step P s (e :: es)) : Always step P s' es := by
  intro es₁ t hpre ht
  exact h (e :: es₁) t (List.cons_prefix_cons.mpr ⟨rfl, hpre⟩) (run_cons.mpr ⟨s', hs, ht⟩)

/-- **Safety under a condition**: what an invariant kept by the steps that meet `C` implies holds
    in every state of a run whose steps all meet `C`. -/
theorem always_of_meets (hIP : ∀ s, I s → P s)
    (hstep : ∀ s e s', I s → C s e → step s e = some s' → I s') :
    ∀ (es : List ε) (s : σ), I s → Meets step C s es → Always step P s es
  | [], s, hi, _ => by
    intro es₁ t hpre ht
    rw [List.prefix_nil.mp hpre, run_nil, Option.some.injEq] at ht
    exact ht ▸ hIP s hi
  | e :: es, s, hi, hmeets => by
    intro es₁ t hpre ht
    cases es₁ with
    | nil =>
      rw [run_nil, Option.some.injEq] at ht
      exact ht ▸ hIP s hi
    | cons e₁ es₁ =>
      obtain ⟨rfl, hpre'⟩ := List.cons_prefix_cons.mp hpre
      obtain ⟨s', hs, ht'⟩ := run_cons.mp ht
      obtain ⟨hc, hrest⟩ := hmeets s' hs
      exact always_of_meets hIP hstep es s' (hstep s e₁ s' hi hc hs) hrest es₁ t hpre' ht'

/-- **Exact condition for a safety property of runs** whose steps all meet `D`.  `I` is the
    inductive invariant that the condition `C` maintains and that implies `P`; a step against `C`
    breaks `P`. -/
theorem always_iff_meets_within {D : σ → ε → Prop} (hIP : ∀ s, I s → P s)
    (hstep : ∀ s e s', I s → D s e → C s e → step s e = some s' → I s')
    (hbad : ∀ s e s', I s → D s e → ¬ C s e → step s e = some s' → ¬ P s') :
    ∀ (es : List ε) (s : σ), I s → Meets step D s es →
      (Always step P s es ↔ Meets step C s es) := by
  intro es s hi hd
  constructor
  · intro hall
    induction es generalizing s with
    | nil => trivial
    | cons e es ih =>
      intro s' hs
      obtain ⟨hde, hds⟩ := hd s' hs
      have hP' : P s' := hall [e] s' ⟨es, rfl⟩ (by simp [run_cons, hs])
      have hc : C s e := by
        by_contra hc
        exact hbad s e s' hi hde hc hs hP'
      exact ⟨hc, ih s' (hstep s e s' hi hde hc hs) hds (always_cons hs hall)⟩
  · intro hc
    exact always_of_meets (C := fun s e => D s e ∧ C s e) hIP
      (fun s e s' hi h hs => hstep s e s' hi h.1 h.2 hs) es s hi (meets_and hd hc)

/-- The case without a second condition. -/
theorem always_iff_meets (hIP : ∀ s, I s → P s)
    (hstep : ∀ s e s', I s → C s e → step s e = some s' → I s')
    (hbad : ∀ s e s', I s → ¬ C s e → step s e = some s' → ¬ P s') :
    ∀ (es : List ε) (s : σ), I s → (Always step P s es ↔ Meets step C s es) :=
  fun es s hi => always_iff_meets_within (D := fun _ _ => True) hIP
    (fun s e s' hi _ => hstep s e s' hi) (fun s e s' hi _ => hbad s e s' hi) es s hi
    (meets_of_forall es s (fun _ _ _ => trivial))

/-- **Progress rule**: an event that keeps `I` and decreases a measure runs until it is
    disabled. -/
theorem exists_replicate_stuck (μ : σ → Nat) {e : ε}
    (hI : ∀ s s', I s → step s e = some s' → I s')
    (hμ : ∀ s s', I s → step s e = some s' → μ s' < μ s) :
    ∀ (n : Nat) (s : σ), I s → μ s ≤ n →
      ∃ k t, run step s (List.replicate k e) = some t ∧ step t e = none := by
  intro n
  induction n with
  | zero =>
    intro s hi hs
    refine ⟨0, s, rfl, ?_⟩
    cases h : step s e with
    | none => rfl
    | some s' =>
      have := hμ s s' hi h
      omega
  | succ n ih =>
    intro s hi hs
    cases h : step s e with
    | none => exact ⟨0, s, rfl, h⟩
    | some s' =>
      obtain ⟨k, t, hk, ht⟩ := ih s' (hI s s' hi h) (by have := hμ s s' hi h; omega)
      exact ⟨k + 1, t, run_cons.mpr ⟨s', h, hk⟩, ht⟩

/-- **Liveness rule**: events of the kind `E`, chosen by the state, reach `Done`. -/
theorem exists_run_until {E : ε → Prop} {Done : σ → Prop} (μ : σ → Nat)
    (hstep : ∀ s, I s → ¬ Done s → ∃ e s', step s e = some s' ∧ E e ∧ I s' ∧ μ s' < μ s) :
    ∀ (n : Nat) (s : σ), I s → μ s ≤ n →
      ∃ es t, run step s es = some t ∧ (∀ e ∈ es, E e) ∧ I t ∧ Done t := by
  intro n
  induction n with
  | zero =>
    intro s hi hs
    by_cases hd : Done s
    · exact ⟨[], s, rfl, fun e he => absurd he List.not_mem_nil, hi, hd⟩
    · obtain ⟨e, s', _, _, _, hlt⟩ := hstep s hi hd
      omega
  | succ n ih =>
    intro s hi hs
    by_cases hd : Done s
    · exact ⟨[], s, rfl, fun e he => absurd he List.not_mem_nil, hi, hd⟩
    · obtain ⟨e, s', he, hE, hi', hlt⟩ := hstep s hi hd
      obtain ⟨es, t, hrun, hes, ht⟩ := ih s' hi' (by omega)
      exact ⟨e :: es, t, run_cons.mpr ⟨s', he, hrun⟩, List.forall_mem_cons.mpr ⟨hE, hes⟩, ht⟩

/-- **Simulation rule**: the steps of `step` are steps of `step'` under other names, or stutters. -/
theorem run_follows {σ' ε' : Type*} {step' : σ' → ε' → Option σ'} {R : σ → σ' → Prop}
    (name : ε → Option ε')
    (hstep : ∀ s t e s', R s t → step s e = some s' →
      (name e = none → R s' t) ∧
      ∀ e', name e = some e' → ∃ t', step' t e' = some t' ∧ R s' t') :
    ∀ (es : List ε) (s s' : σ) (t : σ'), R s t → run step s es = some s' →
      ∃ t', run step' t (es.filterMap name) = some t' ∧ R s' t'
  | [], s, s', t, hR, h => by
    rw [run_nil, Option.some.injEq] at h
    exact ⟨t, rfl, h ▸ hR⟩
  | e :: es, s, s', t, hR, h => by
    obtain ⟨m, hm, hrest⟩ := run_cons.mp h
    obtain ⟨hstutter, hfollow⟩ := hstep s t e m hR hm
    cases hname : name e with
    | none =>
      obtain ⟨t', hrun, hR'⟩ := run_follows name hstep es m s' t (hstutter hname) hrest
      exact ⟨t', by rw [List.filterMap_cons_none hname, hrun], hR'⟩
    | some e' =>
      obtain ⟨t₁, ht₁, hR₁⟩ := hfollow e' hname
      obtain ⟨t', hrun, hR'⟩ := run_follows name hstep es m s' t₁ hR₁ hrest
      refine ⟨t', ?_, hR'⟩
      rw [List.filterMap_cons_some hname]
      exact run_cons.mpr ⟨t₁, ht₁, hrun⟩

end Transition
