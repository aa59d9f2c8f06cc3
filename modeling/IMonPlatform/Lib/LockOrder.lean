import Mathlib.Logic.Function.Basic
import Mathlib.Logic.Relation
import Mathlib.Data.Set.Basic

/-!
# Recursive locks, interleavings and deadlock

Each thread of a pool runs a list of `enter` / `leave` actions on recursive locks.  A thread may
enter a lock that no other thread holds; entering it again while holding it always succeeds.

* `Deadlock` — a set of threads each of which waits for a lock held by another thread of the set.
* `Guarded G` — whenever a thread enters a lock `l` while holding `held`, `G held l`;
  `reachable_disciplined`: a discipline that every thread's program obeys is obeyed in every
  reachable pool.
* `no_deadlock_of_ascending` — threads that enter locks in ascending rank never deadlock.
* `two_waiting_holders` — a deadlock contains two different threads that hold a lock and wait
  for one they do not hold; `no_deadlock_of_flat` — so it needs two threads that nest locks.
* `reachable_alone` — a thread runs on as long as no other thread holds the locks it enters;
  `deadlock_of_crossed` — so two threads that nest two locks in opposite order can deadlock.
* `Neutral`, `Guarded.flatMap` — programs composed of balanced operations.
-/

set_option autoImplicit false

namespace LockOrder

variable {ι Lock : Type*}

inductive Act (Lock : Type*) where
  | enter (l : Lock)
  | leave (l : Lock)

/-- What a thread still has to do, and the locks it holds, one entry for each nested `enter`. -/
structure Thread (Lock : Type*) where
  todo : List (Act Lock)
  held : List Lock

/-- A thread whose next action enters a lock held by another thread waits for it. -/
def Waits (p : ι → Thread Lock) (t : ι) (l : Lock) (u : ι) : Prop :=
  (p t).todo.head? = some (.enter l) ∧ u ≠ t ∧ l ∈ (p u).held

def Deadlock (p : ι → Thread Lock) : Prop :=
  ∃ T : Set ι, T.Nonempty ∧ ∀ t ∈ T, ∃ l, ∃ u ∈ T, Waits p t l u

/-- No lock is held by two threads. -/
def Exclusive (p : ι → Thread Lock) : Prop :=
  ∀ t u l, l ∈ (p t).held → l ∈ (p u).held → t = u

variable [DecidableEq Lock]

/-- The locks held after an action. -/
def Act.apply : Act Lock → List Lock → List Lock
  | .enter l, held => l :: held
  | .leave l, held => held.erase l

/-- The locks held after a list of actions. -/
def after (held : List Lock) (as : List (Act Lock)) : List Lock :=
  as.foldl (fun h a => a.apply h) held

/-- Every `enter` of the list obeys the discipline `G`. -/
def Guarded (G : List Lock → Lock → Prop) : List Lock → List (Act Lock) → Prop
  | _, [] => True
  | held, a :: as => (∀ l, a = .enter l → G held l) ∧ Guarded G (a.apply held) as

/-- Locks are entered in ascending rank, or entered again. -/
def Ascending (rank : Lock → Nat) (held : List Lock) (l : Lock) : Prop :=
  l ∈ held ∨ ∀ k ∈ held, rank k < rank l

/-- No new lock is entered while another one is held. -/
def Flat (held : List Lock) (l : Lock) : Prop := l ∈ held ∨ held = []

theorem after_append (held : List Lock) (as bs : List (Act Lock)) :
    after held (as ++ bs) = after (after held as) bs := by
  simp [after]

theorem guarded_append {G : List Lock → Lock → Prop} {as bs : List (Act Lock)} :
    ∀ {held : List Lock}, Guarded G held (as ++ bs) ↔
      Guarded G held as ∧ Guarded G (after held as) bs := by
  induction as with
  | nil => intro held; simp [Guarded, after]
  | cons a as ih =>
    intro held
    simp only [List.cons_append, Guarded, ih, and_assoc]
    rfl

/-! ## Balanced operations -/

/-- The actions leave the held locks as they were. -/
def Neutral (as : List (Act Lock)) : Prop := ∀ held, after held as = held

theorem neutral_nil : Neutral ([] : List (Act Lock)) := fun _ => rfl

theorem Neutral.append {as bs : List (Act Lock)} (ha : Neutral as) (hb : Neutral bs) :
    Neutral (as ++ bs) := by
  intro held
  rw [after_append, ha, hb]

theorem Neutral.bracket {as : List (Act Lock)} (ha : Neutral as) (l : Lock) :
    Neutral (.enter l :: as ++ [.leave l]) := by
  intro held
  rw [after_append]
  show ((after (l :: held) as).erase l) = held
  rw [ha, List.erase_cons_head]

theorem Neutral.flatMap {β : Type*} {f : β → List (Act Lock)} (hf : ∀ b, Neutral (f b)) :
    ∀ bs : List β, Neutral (bs.flatMap f)
  | [] => neutral_nil
  | b :: bs => (hf b).append (Neutral.flatMap hf bs)

/-- A program of balanced operations obeys a discipline if every operation does. -/
theorem Guarded.flatMap {β : Type*} {G : List Lock → Lock → Prop} {f : β → List (Act Lock)}
    {held : List Lock} (hf : ∀ b, Neutral (f b)) :
    ∀ {bs : List β}, (∀ b ∈ bs, Guarded G held (f b)) → Guarded G held (bs.flatMap f)
  | [], _ => trivial
  | b :: bs, h => by
    rw [List.flatMap_cons, guarded_append, hf b held]
    exact ⟨h b List.mem_cons_self,
      Guarded.flatMap hf (fun b' hb' => h b' (List.mem_cons_of_mem _ hb'))⟩

/-! ## Interleavings -/

variable [DecidableEq ι]

/-- One action of one thread. -/
inductive Step (p : ι → Thread Lock) : (ι → Thread Lock) → Prop where
  | act (t : ι) (a : Act Lock) (as : List (Act Lock)) (htodo : (p t).todo = a :: as)
      (hfree : ∀ l, a = .enter l → ∀ u, u ≠ t → l ∉ (p u).held) :
      Step p (Function.update p t ⟨as, a.apply (p t).held⟩)

def Reachable (p q : ι → Thread Lock) : Prop := Relation.ReflTransGen Step p q

theorem step_exclusive {p q : ι → Thread Lock} (hp : Exclusive p) (h : Step p q) : Exclusive q := by
  cases h with
  | act t a as htodo hfree =>
    -- an entered lock is free elsewhere; a left lock was held before
    have hold : ∀ l, l ∈ a.apply (p t).held → ∀ u, u ≠ t → l ∉ (p u).held := by
      intro l hl u hu hlu
      cases a with
      | enter k =>
        rcases List.mem_cons.mp hl with rfl | hl
        · exact hfree l rfl u hu hlu
        · exact hu (hp u t l hlu hl)
      | leave k => exact hu (hp u t l hlu (List.mem_of_mem_erase hl))
    intro u v l hu hv
    by_cases hut : u = t <;> by_cases hvt : v = t
    · rw [hut, hvt]
    · subst hut
      rw [Function.update_self] at hu
      rw [Function.update_of_ne hvt] at hv
      exact absurd hv (hold l hu v hvt)
    · subst hvt
      rw [Function.update_self] at hv
      rw [Function.update_of_ne hut] at hu
      exact absurd hu (hold l hv u hut)
    · rw [Function.update_of_ne hut] at hu
      rw [Function.update_of_ne hvt] at hv
      exact hp u v l hu hv

theorem reachable_exclusive {p q : ι → Thread Lock} (hp : Exclusive p) (h : Reachable p q) :
    Exclusive q := by
  induction h with
  | refl => exact hp
  | tail _ hs ih => exact step_exclusive ih hs

/-- Every thread obeys its discipline in what it still has to do. -/
def Disciplined (G : ι → List Lock → Lock → Prop) (p : ι → Thread Lock) : Prop :=
  ∀ t, Guarded (G t) (p t).held (p t).todo

theorem step_disciplined {G : ι → List Lock → Lock → Prop} {p q : ι → Thread Lock}
    (hp : Disciplined G p) (h : Step p q) : Disciplined G q := by
  cases h with
  | act t a as htodo hfree =>
    intro u
    by_cases hut : u = t
    · subst hut
      rw [Function.update_self]
      have := hp u
      rw [htodo] at this
      exact this.2
    · rw [Function.update_of_ne hut]
      exact hp u

theorem reachable_disciplined {G : ι → List Lock → Lock → Prop} {p q : ι → Thread Lock}
    (hp : Disciplined G p) (h : Reachable p q) : Disciplined G q := by
  induction h with
  | refl => exact hp
  | tail _ hs ih => exact step_disciplined ih hs

omit [DecidableEq ι] in
/-- What the discipline says about the lock a thread is about to enter. -/
theorem Disciplined.next {G : ι → List Lock → Lock → Prop} {p : ι → Thread Lock}
    (hp : Disciplined G p) {t : ι} {l : Lock} (h : (p t).todo.head? = some (.enter l)) :
    G t (p t).held l := by
  have ht := hp t
  cases htodo : (p t).todo with
  | nil => rw [htodo] at h; cases h
  | cons a as =>
    rw [htodo] at h ht
    exact ht.1 l (Option.some.inj h)

omit [DecidableEq Lock] [DecidableEq ι] in
/-- Somebody else holds what a waiting thread waits for. -/
theorem Exclusive.not_held {p : ι → Thread Lock} (hx : Exclusive p) {t u : ι} {l : Lock}
    (h : Waits p t l u) : l ∉ (p t).held :=
  fun hl => h.2.1 (hx u t l h.2.2 hl)

omit [DecidableEq ι] in
/-- **Lock order.**  Threads that enter locks in ascending bounded rank never deadlock. -/
theorem no_deadlock_of_ascending {rank : Lock → Nat} {N : Nat} (hN : ∀ l, rank l ≤ N)
    {p : ι → Thread Lock} (hx : Exclusive p) (hp : Disciplined (fun _ => Ascending rank) p) :
    ¬ Deadlock p := by
  rintro ⟨T, ⟨t₀, ht₀⟩, hT⟩
  -- following the waits-for edges, the rank of the awaited lock grows without bound
  have hclimb : ∀ n, ∃ t ∈ T, ∃ l, (p t).todo.head? = some (.enter l) ∧ n ≤ rank l := by
    intro n
    induction n with
    | zero =>
      obtain ⟨l, u, _, hw⟩ := hT t₀ ht₀
      exact ⟨t₀, ht₀, l, hw.1, Nat.zero_le _⟩
    | succ n ih =>
      obtain ⟨t, ht, l, hl, hn⟩ := ih
      obtain ⟨l', u, hu, hw⟩ := hT t ht
      obtain rfl : l' = l := by
        have := hw.1.symm.trans hl
        simpa using this
      obtain ⟨k, v, _, hwu⟩ := hT u hu
      refine ⟨u, hu, k, hwu.1, ?_⟩
      rcases hp.next hwu.1 with hk | hk
      · exact absurd hk (hx.not_held hwu)
      · have := hk l' hw.2.2
        omega
  obtain ⟨t, _, l, _, hl⟩ := hclimb (N + 1)
  have := hN l
  omega

omit [DecidableEq Lock] [DecidableEq ι] in
/-- A deadlock contains two threads that hold a lock while they wait for another. -/
theorem two_waiting_holders {p : ι → Thread Lock} (hx : Exclusive p) (h : Deadlock p) :
    ∃ t u l k, t ≠ u ∧ (p t).todo.head? = some (.enter l) ∧ l ∉ (p t).held ∧ (p t).held ≠ [] ∧
      (p u).todo.head? = some (.enter k) ∧ k ∉ (p u).held ∧ (p u).held ≠ [] := by
  obtain ⟨T, ⟨t₀, ht₀⟩, hT⟩ := h
  obtain ⟨l₀, t, ht, hw₀⟩ := hT t₀ ht₀
  obtain ⟨l, u, hu, hw⟩ := hT t ht
  obtain ⟨k, v, _, hwu⟩ := hT u hu
  exact ⟨t, u, l, k, hw.2.1.symm, hw.1, hx.not_held hw, List.ne_nil_of_mem hw₀.2.2, hwu.1,
    hx.not_held hwu, List.ne_nil_of_mem hw.2.2⟩

omit [DecidableEq ι] in
/-- One thread that nests locks among threads that do not cannot deadlock. -/
theorem no_deadlock_of_flat (t₀ : ι) {G : ι → List Lock → Lock → Prop} {p : ι → Thread Lock}
    (hx : Exclusive p) (hp : Disciplined G p) (hflat : ∀ t, t ≠ t₀ → G t = Flat) :
    ¬ Deadlock p := by
  intro hd
  obtain ⟨t, u, l, k, htu, hl, hlt, hheld, hk, hku, hheldu⟩ := two_waiting_holders hx hd
  have hmust : ∀ {v : ι} {j : Lock}, (p v).todo.head? = some (.enter j) → j ∉ (p v).held →
      (p v).held ≠ [] → v = t₀ := by
    intro v j hj hjv hne
    by_contra hv
    have := hp.next hj
    rw [hflat v hv] at this
    rcases this with h | h
    · exact hjv h
    · exact hne h
  exact htu ((hmust hl hlt hheld).trans (hmust hk hku hheldu).symm)

/-- **Running one thread alone**: its actions are enabled while nobody else holds its locks. -/
theorem reachable_alone {p : ι → Thread Lock} {t : ι} :
    ∀ (as bs : List (Act Lock)) (held : List Lock), p t = ⟨as ++ bs, held⟩ →
      (∀ l, .enter l ∈ as → ∀ u, u ≠ t → l ∉ (p u).held) →
      Reachable p (Function.update p t ⟨bs, after held as⟩) := by
  intro as
  induction as generalizing p with
  | nil =>
    intro bs held hpt _
    have : Function.update p t ⟨bs, after held []⟩ = p := by
      rw [Function.update_eq_self_iff, hpt]
      rfl
    rw [this]
    exact .refl
  | cons a as ih =>
    intro bs held hpt hfree
    have hstep : Step p (Function.update p t ⟨as ++ bs, a.apply (p t).held⟩) := by
      refine .act t a (as ++ bs) (by rw [hpt]; rfl) (fun l hl u hu => ?_)
      exact hfree l (by rw [hl]; exact List.mem_cons_self) u hu
    have hrest := ih (p := Function.update p t ⟨as ++ bs, a.apply (p t).held⟩) bs
      (a.apply held) (by rw [Function.update_self, hpt]) (fun l hl u hu => by
        rw [Function.update_of_ne hu]
        exact hfree l (List.mem_cons_of_mem _ hl) u hu)
    rw [Function.update_idem] at hrest
    exact Relation.ReflTransGen.head hstep hrest

/-- A thread that starts without locks and runs a balanced program alone holds none again. -/
theorem reachable_neutral {p : ι → Thread Lock} {t : ι} {as bs : List (Act Lock)}
    (hnone : ∀ v, (p v).held = []) (ht : (p t).todo = as ++ bs) (has : Neutral as) :
    Reachable p (Function.update p t ⟨bs, []⟩) ∧
      ∀ v, (Function.update p t ⟨bs, []⟩ v).held = [] := by
  constructor
  · have hpt : p t = ⟨as ++ bs, []⟩ := by rw [← ht, ← hnone t]
    have hrun := reachable_alone as bs [] hpt (fun l _ v _ => by simp [hnone])
    rwa [has] at hrun
  · intro v
    by_cases hv : v = t
    · rw [hv, Function.update_self]
    · rw [Function.update_of_ne hv]
      exact hnone v

/-- **Crossed locks.**  Two threads can deadlock if one enters `a` and then `b` at once, the other
    `b` and then `a`: both run up to that point, enter their first lock and wait for the other. -/
theorem deadlock_of_crossed {p : ι → Thread Lock} {t u : ι} {a b : Lock} (htu : t ≠ u)
    (hab : a ≠ b) (hnone : ∀ v, (p v).held = []) {pre₁ post₁ pre₂ post₂ : List (Act Lock)}
    (ht : (p t).todo = pre₁ ++ .enter a :: .enter b :: post₁) (hpre₁ : Neutral pre₁)
    (hu : (p u).todo = pre₂ ++ .enter b :: .enter a :: post₂) (hpre₂ : Neutral pre₂) :
    ∃ q, Reachable p q ∧ Deadlock q := by
  obtain ⟨hrun₁, hnone₁⟩ := reachable_neutral hnone ht hpre₁
  generalize hp₁ : Function.update p t ⟨.enter a :: .enter b :: post₁, []⟩ = p₁ at hrun₁ hnone₁
  have hu₁ : (p₁ u).todo = pre₂ ++ .enter b :: .enter a :: post₂ := by
    rw [← hp₁, Function.update_of_ne htu.symm, hu]
  obtain ⟨hrun₂, hnone₂⟩ := reachable_neutral hnone₁ hu₁ hpre₂
  generalize hp₂ : Function.update p₁ u ⟨.enter b :: .enter a :: post₂, []⟩ = p₂ at hrun₂ hnone₂
  have ht₂ : p₂ t = ⟨[.enter a] ++ .enter b :: post₁, []⟩ := by
    rw [← hp₂, Function.update_of_ne htu, ← hp₁, Function.update_self]
    rfl
  have hu₂ : p₂ u = ⟨[.enter b] ++ .enter a :: post₂, []⟩ := by
    rw [← hp₂, Function.update_self]
    rfl
  have hrun₃ := reachable_alone _ _ [] hu₂ (fun l _ v _ => by simp [hnone₂])
  have ht₃ : Function.update p₂ u ⟨.enter a :: post₂, after [] [.enter b]⟩ t =
      ⟨[.enter a] ++ .enter b :: post₁, []⟩ := by
    rw [Function.update_of_ne htu, ht₂]
  have hrun₄ := reachable_alone _ _ [] ht₃ (fun l hl v hv => by
    obtain rfl : l = a := by simpa using hl
    by_cases hvu : v = u
    · rw [hvu, Function.update_self]
      simpa [after, Act.apply] using hab
    · rw [Function.update_of_ne hvu]
      simp [hnone₂])
  refine ⟨_, ((hrun₁.trans hrun₂).trans hrun₃).trans hrun₄, {t, u}, ⟨t, .inl rfl⟩, ?_⟩
  rintro v (rfl | rfl)
  · refine ⟨b, u, .inr rfl, ?_, htu.symm, ?_⟩
    · rw [Function.update_self]
      rfl
    · rw [Function.update_of_ne htu.symm, Function.update_self]
      exact List.mem_cons_self
  · refine ⟨a, t, .inl rfl, ?_, htu, ?_⟩
    · rw [Function.update_of_ne htu.symm, Function.update_self]
      rfl
    · rw [Function.update_self]
      exact List.mem_cons_self

end LockOrder
