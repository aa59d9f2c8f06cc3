import Mathlib.Data.List.Nodup
import Mathlib.Data.List.Perm.Subperm
import Mathlib.Logic.Function.Basic
import Mathlib.Logic.Relation

/-!
# Results and the sources they were made from

* `Matched R xs ys` — every entry of `ys` has an entry of `xs` of its own that it is related to.
  Nothing is used twice, so results matched with results are matched with their sources
  (`Matched.trans`), there are at most as many (`Matched.length_le`), and keys that are different
  among the sources are different among the results (`Matched.nodup`).
* `Custody R src held place out` — sources are used one by one: while a position is `held` nothing
  has been made of it; what was made of it is put in a place (`Custody.put`) and goes `out` from
  there (`Custody.emit`).
* `Custody.matched` — whatever is out is matched with the sources.
-/

set_option autoImplicit false

namespace Matching

variable {α β γ κ : Type*}

/-! ## Matching -/

/-- Every entry of `ys` has an entry of `xs` of its own that it is related to. -/
def Matched (R : α → β → Prop) (xs : List α) (ys : List β) : Prop :=
  ∃ f : Nat → Nat, (∀ (k : Nat) (y : β), ys[k]? = some y → ∃ x, xs[f k]? = some x ∧ R x y) ∧
    ∀ k k', k < ys.length → k' < ys.length → f k = f k' → k = k'

variable {R : α → β → Prop} {xs : List α} {ys : List β}

theorem Matched.mono {S : α → β → Prop} (h : Matched R xs ys) (hRS : ∀ x y, R x y → S x y) :
    Matched S xs ys := by
  obtain ⟨f, hrel, hinj⟩ := h
  refine ⟨f, fun k y hk => ?_, hinj⟩
  obtain ⟨x, hx, hR⟩ := hrel k y hk
  exact ⟨x, hx, hRS x y hR⟩

/-- **Matchings compose.** -/
theorem Matched.trans {S : β → γ → Prop} {zs : List γ} (h : Matched R xs ys)
    (h' : Matched S ys zs) : Matched (Relation.Comp R S) xs zs := by
  obtain ⟨f, hf, hfinj⟩ := h
  obtain ⟨g, hg, hginj⟩ := h'
  have hlt : ∀ k, k < zs.length → g k < ys.length := by
    intro k hk
    obtain ⟨y, hy, _⟩ := hg k _ (List.getElem?_eq_getElem hk)
    exact (List.getElem?_eq_some_iff.mp hy).1
  refine ⟨fun k => f (g k), fun k z hk => ?_, fun k k' hk hk' heq => ?_⟩
  · obtain ⟨y, hy, hS⟩ := hg k z hk
    obtain ⟨x, hx, hR⟩ := hf (g k) y hy
    exact ⟨x, hx, y, hR, hS⟩
  · exact hginj k k' hk hk' (hfinj _ _ (hlt k hk) (hlt k' hk') heq)

/-- A new source has a new result. -/
theorem Matched.snoc (h : Matched R xs ys) {x : α} {y : β} (hxy : R x y) :
    Matched R (xs ++ [x]) (ys ++ [y]) := by
  obtain ⟨f, hrel, hinj⟩ := h
  have hlt : ∀ k, k < ys.length → f k < xs.length := by
    intro k hk
    obtain ⟨x', hx', _⟩ := hrel k _ (List.getElem?_eq_getElem hk)
    exact (List.getElem?_eq_some_iff.mp hx').1
  refine ⟨fun k => if k < ys.length then f k else xs.length, fun k z hk => ?_,
    fun k k' hk hk' heq => ?_⟩
  · by_cases hold : k < ys.length
    · rw [List.getElem?_append_left hold] at hk
      obtain ⟨x', hx', hR⟩ := hrel k z hk
      refine ⟨x', ?_, hR⟩
      show (xs ++ [x])[if k < ys.length then f k else xs.length]? = some x'
      rw [if_pos hold, List.getElem?_append_left (hlt k hold), hx']
    · have hlast : k < (ys ++ [y]).length := (List.getElem?_eq_some_iff.mp hk).1
      simp only [List.length_append, List.length_singleton] at hlast
      have hsame : k = ys.length := by omega
      subst hsame
      rw [List.getElem?_concat_length, Option.some.injEq] at hk
      refine ⟨x, ?_, hk ▸ hxy⟩
      show (xs ++ [x])[if ys.length < ys.length then f ys.length else xs.length]? = some x
      rw [if_neg hold, List.getElem?_concat_length]
  · simp only [List.length_append, List.length_singleton] at hk hk'
    simp only at heq
    by_cases hold : k < ys.length <;> by_cases hold' : k' < ys.length
    · rw [if_pos hold, if_pos hold'] at heq
      exact hinj k k' hold hold' heq
    · rw [if_pos hold, if_neg hold'] at heq
      have := hlt k hold
      omega
    · rw [if_neg hold, if_pos hold'] at heq
      have := hlt k' hold'
      omega
    · omega

theorem matched_beginning {xs xs' : List α} (h : xs <+: xs') : Matched Eq xs' xs := by
  obtain ⟨l, rfl⟩ := h
  refine ⟨id, fun k x hk => ⟨x, ?_, rfl⟩, fun k k' _ _ heq => heq⟩
  rw [id, List.getElem?_append_left (List.getElem?_eq_some_iff.mp hk).1, hk]

/-- What a filter lets through is matched with what it was given. -/
theorem matched_filterMap (g : α → Option β) (xs : List α) :
    Matched (fun x y => g x = some y) xs (xs.filterMap g) := by
  induction xs with
  | nil =>
    exact ⟨id, fun k y hk => by simp at hk, fun k k' hk => absurd hk (Nat.not_lt_zero k)⟩
  | cons x xs ih =>
    obtain ⟨f, hrel, hinj⟩ := ih
    cases hx : g x with
    | none =>
      rw [List.filterMap_cons_none hx]
      refine ⟨fun k => f k + 1, fun k y hk => ?_, fun k k' hk hk' heq => ?_⟩
      · simpa using hrel k y hk
      · exact hinj k k' hk hk' (Nat.succ.inj heq)
    | some y₀ =>
      rw [List.filterMap_cons_some hx]
      -- the first result belongs to the first source
      refine ⟨fun k => if k = 0 then 0 else f (k - 1) + 1, fun k y hk => ?_, fun k k' hk hk' heq => ?_⟩
      · cases k with
        | zero =>
          rw [List.getElem?_cons_zero, Option.some.injEq] at hk
          exact ⟨x, rfl, hk ▸ hx⟩
        | succ k => simpa using hrel k y (by simpa using hk)
      · cases k with
        | zero =>
          cases k' with
          | zero => rfl
          | succ k' => simp at heq
        | succ k =>
          cases k' with
          | zero => simp at heq
          | succ k' =>
            have hsame := hinj k k' (Nat.lt_of_succ_lt_succ hk) (Nat.lt_of_succ_lt_succ hk')
              (Nat.succ.inj heq)
            rw [hsame]

/-- Sources that no result was made of may be filtered out. -/
theorem Matched.filterMap_source {S : γ → β → Prop} (h : Matched R xs ys) (g : α → Option γ)
    (hg : ∀ x y, R x y → ∃ z, g x = some z ∧ S z y) : Matched S (xs.filterMap g) ys := by
  obtain ⟨f, hrel, hinj⟩ := h
  -- the place of a position among those that stay
  have hplace : ∀ (n : Nat) (x : α) (z : γ), xs[n]? = some x → g x = some z →
      (xs.filterMap g)[((xs.take n).filterMap g).length]? = some z ∧
        ((xs.take (n + 1)).filterMap g).length = ((xs.take n).filterMap g).length + 1 := by
    intro n x z hx hz
    obtain ⟨hlt, hget⟩ := List.getElem?_eq_some_iff.mp hx
    have hnext : (xs.take (n + 1)).filterMap g = (xs.take n).filterMap g ++ [z] := by
      rw [List.take_add_one, hx, List.filterMap_append]
      simp [hz]
    have hsplit : xs.filterMap g =
        (xs.take n).filterMap g ++ [z] ++ (xs.drop (n + 1)).filterMap g := by
      rw [← hnext, ← List.filterMap_append, List.take_append_drop]
    refine ⟨?_, by rw [hnext, List.length_append, List.length_singleton]⟩
    rw [hsplit, List.append_assoc, List.getElem?_append_right (Nat.le_refl _), Nat.sub_self]
    rfl
  have hmono : ∀ n n', n ≤ n' →
      ((xs.take n).filterMap g).length ≤ ((xs.take n').filterMap g).length := by
    intro n n' hle
    exact ((List.take_sublist_take_left hle).filterMap g).length_le
  refine ⟨fun k => ((xs.take (f k)).filterMap g).length, fun k y hk => ?_,
    fun k k' hk hk' heq => hinj k k' hk hk' ?_⟩
  · obtain ⟨x, hx, hR⟩ := hrel k y hk
    obtain ⟨z, hz, hS⟩ := hg x y hR
    exact ⟨z, (hplace _ x z hx hz).1, hS⟩
  · obtain ⟨x, hx, hR⟩ := hrel k _ (List.getElem?_eq_getElem hk)
    obtain ⟨z, hz, _⟩ := hg x _ hR
    obtain ⟨x', hx', hR'⟩ := hrel k' _ (List.getElem?_eq_getElem hk')
    obtain ⟨z', hz', _⟩ := hg x' _ hR'
    have hnext := (hplace _ x z hx hz).2
    have hnext' := (hplace _ x' z' hx' hz').2
    simp only at heq
    rcases Nat.lt_trichotomy (f k) (f k') with hlt | hsame | hlt
    · have := hmono (f k + 1) (f k') hlt
      omega
    · exact hsame
    · have := hmono (f k' + 1) (f k) hlt
      omega

theorem Matched.mem (h : Matched R xs ys) :
    Matched (fun x y => x ∈ xs ∧ y ∈ ys ∧ R x y) xs ys := by
  obtain ⟨f, hrel, hinj⟩ := h
  refine ⟨f, fun k y hk => ?_, hinj⟩
  obtain ⟨x, hx, hR⟩ := hrel k y hk
  exact ⟨x, hx, List.mem_of_getElem? hx, List.mem_of_getElem? hk, hR⟩

theorem Matched.exists_source (h : Matched R xs ys) {y : β} (hy : y ∈ ys) : ∃ x ∈ xs, R x y := by
  obtain ⟨f, hrel, -⟩ := h
  obtain ⟨k, hk⟩ := List.mem_iff_getElem?.mp hy
  obtain ⟨x, hx, hR⟩ := hrel k y hk
  exact ⟨x, List.mem_of_getElem? hx, hR⟩

theorem Matched.length_le (h : Matched R xs ys) : ys.length ≤ xs.length := by
  obtain ⟨f, hrel, hinj⟩ := h
  have hnodup : ((List.range ys.length).map f).Nodup := by
    refine List.Nodup.map_on (fun k hk k' hk' heq => ?_) List.nodup_range
    exact hinj k k' (List.mem_range.mp hk) (List.mem_range.mp hk') heq
  have hsub : (List.range ys.length).map f ⊆ List.range xs.length := by
    intro n hn
    obtain ⟨k, hk, rfl⟩ := List.mem_map.mp hn
    obtain ⟨x, hx, _⟩ := hrel k _ (List.getElem?_eq_getElem (List.mem_range.mp hk))
    exact List.mem_range.mpr (List.getElem?_eq_some_iff.mp hx).1
  simpa using (hnodup.subperm hsub).length_le

/-- Keys that are different among the sources are different among the results. -/
theorem Matched.nodup {a : α → κ} {b : β → κ} (h : Matched R xs ys)
    (hab : ∀ x y, R x y → a x = b y) (hx : (xs.map a).Nodup) : (ys.map b).Nodup := by
  obtain ⟨f, hrel, hinj⟩ := h
  rw [List.nodup_iff_injective_getElem]
  rintro ⟨k, hk⟩ ⟨k', hk'⟩ heq
  rw [List.length_map] at hk hk'
  obtain ⟨x, hfx, hR⟩ := hrel k _ (List.getElem?_eq_getElem hk)
  obtain ⟨x', hfx', hR'⟩ := hrel k' _ (List.getElem?_eq_getElem hk')
  simp only [List.getElem_map] at heq
  have hkey : a x = a x' := (hab _ _ hR).trans (heq.trans (hab _ _ hR').symm)
  -- equal keys are at one position of the sources
  obtain ⟨hlt, hget⟩ := List.getElem?_eq_some_iff.mp hfx
  obtain ⟨hlt', hget'⟩ := List.getElem?_eq_some_iff.mp hfx'
  have hplace : f k < (xs.map a).length := by rwa [List.length_map]
  have hplace' : f k' < (xs.map a).length := by rwa [List.length_map]
  have hsame : (xs.map a)[f k] = (xs.map a)[f k'] := by
    simp only [List.getElem_map, hget, hget', hkey]
  exact Fin.ext (hinj k k' hk hk' (hx.getElem_inj_iff.mp hsame))

/-! ## Custody -/

/-- The custody of sources under given choices of the positions that results were made from. -/
structure CustodyBy (R : α → β → Prop) (src : List α) (held : Nat → Prop) (place : κ → Option β)
    (out : List β) (f : Nat → Nat) (g : κ → Nat) : Prop where
  out_rel : ∀ (k : Nat) (y : β), out[k]? = some y → ∃ x, src[f k]? = some x ∧ R x y
  place_rel : ∀ c y, place c = some y → ∃ x, src[g c]? = some x ∧ R x y
  out_inj : ∀ k k', k < out.length → k' < out.length → f k = f k' → k = k'
  place_inj : ∀ c c', (place c).isSome → (place c').isSome → g c = g c' → c = c'
  apart : ∀ k c, k < out.length → (place c).isSome → f k ≠ g c
  out_free : ∀ k, k < out.length → ¬ held (f k)
  place_free : ∀ c, (place c).isSome → ¬ held (g c)

/-- Everything in a place or out was made of a source of its own, which is not held any more. -/
def Custody (R : α → β → Prop) (src : List α) (held : Nat → Prop) (place : κ → Option β)
    (out : List β) : Prop :=
  ∃ f g, CustodyBy R src held place out f g

variable {src : List α} {held held' : Nat → Prop} {place : κ → Option β} {out : List β}

theorem custody_start (R : α → β → Prop) (held : Nat → Prop) :
    Custody R [] held (fun _ : κ => (none : Option β)) [] :=
  ⟨id, fun _ => 0, nofun, nofun, nofun, nofun, nofun, nofun, nofun⟩

theorem Custody.matched (h : Custody R src held place out) : Matched R src out := by
  obtain ⟨f, g, hc⟩ := h
  exact ⟨f, hc.out_rel, hc.out_inj⟩

/-- Sources are added, and positions are taken in hand only if they are new. -/
theorem Custody.extend (h : Custody R src held place out) (l : List α)
    (hheld : ∀ n, held' n → held n ∨ src.length ≤ n) :
    Custody R (src ++ l) held' place out := by
  obtain ⟨f, g, hc⟩ := h
  have hold : ∀ n x, src[n]? = some x → (src ++ l)[n]? = some x ∧ n < src.length := by
    intro n x hx
    have hlt := (List.getElem?_eq_some_iff.mp hx).1
    exact ⟨by rw [List.getElem?_append_left hlt, hx], hlt⟩
  refine ⟨f, g, ?_, ?_, hc.out_inj, hc.place_inj, hc.apart, ?_, ?_⟩
  · intro k y hk
    obtain ⟨x, hx, hR⟩ := hc.out_rel k y hk
    exact ⟨x, (hold _ x hx).1, hR⟩
  · intro c y hy
    obtain ⟨x, hx, hR⟩ := hc.place_rel c y hy
    exact ⟨x, (hold _ x hx).1, hR⟩
  · intro k hk hh
    obtain ⟨x, hx, _⟩ := hc.out_rel k _ (List.getElem?_eq_getElem hk)
    rcases hheld _ hh with hh | hge
    · exact hc.out_free k hk hh
    · exact absurd (hold _ x hx).2 (Nat.not_lt.mpr hge)
  · intro c hs hh
    obtain ⟨y, hy⟩ := Option.isSome_iff_exists.mp hs
    obtain ⟨x, hx, _⟩ := hc.place_rel c y hy
    rcases hheld _ hh with hh | hge
    · exact hc.place_free c hs hh
    · exact absurd (hold _ x hx).2 (Nat.not_lt.mpr hge)

/-- Positions go out of hand, or change hands. -/
theorem Custody.release (h : Custody R src held place out) (hheld : ∀ n, held' n → held n) :
    Custody R src held' place out := by
  have hext := h.extend [] fun n hn => .inl (hheld n hn)
  rwa [List.append_nil] at hext

variable [DecidableEq κ]

/-- **What is made of a held position is put in an empty place.** -/
theorem Custody.put (h : Custody R src held place out) {n : Nat} {x : α} {c : κ} {y : β}
    (hn : held n) (hx : src[n]? = some x) (hR : R x y) (hempty : place c = none)
    (hheld : ∀ k, held' k → held k ∧ k ≠ n) :
    Custody R src held' (Function.update place c (some y)) out := by
  obtain ⟨f, g, hc⟩ := h
  have hold : ∀ c', (Function.update place c (some y) c').isSome → c' = c ∨
      c' ≠ c ∧ (place c').isSome := by
    intro c' hs
    by_cases hcc : c' = c
    · exact .inl hcc
    · rw [Function.update_of_ne hcc] at hs
      exact .inr ⟨hcc, hs⟩
  -- the positions used before are out of hand, so they differ from `n`
  have hplace : ∀ c', (place c').isSome → g c' ≠ n := by
    rintro c' hs rfl
    exact hc.place_free c' hs hn
  refine ⟨f, Function.update g c n, hc.out_rel, ?_, hc.out_inj, ?_, ?_, ?_, ?_⟩
  · intro c' y' hy'
    by_cases hcc : c' = c
    · subst hcc
      rw [Function.update_self, Option.some.injEq] at hy'
      rw [Function.update_self]
      exact ⟨x, hx, hy' ▸ hR⟩
    · rw [Function.update_of_ne hcc] at hy' ⊢
      exact hc.place_rel c' y' hy'
  · intro c₁ c₂ h₁ h₂ heq
    rcases hold c₁ h₁ with rfl | ⟨hne₁, hs₁⟩ <;> rcases hold c₂ h₂ with rfl | ⟨hne₂, hs₂⟩
    · rfl
    · rw [Function.update_self, Function.update_of_ne hne₂] at heq
      exact absurd heq.symm (hplace c₂ hs₂)
    · rw [Function.update_self, Function.update_of_ne hne₁] at heq
      exact absurd heq (hplace c₁ hs₁)
    · rw [Function.update_of_ne hne₁, Function.update_of_ne hne₂] at heq
      exact hc.place_inj c₁ c₂ hs₁ hs₂ heq
  · intro k c' hk hs
    rcases hold c' hs with rfl | ⟨hne, hs⟩
    · rw [Function.update_self]
      rintro rfl
      exact hc.out_free k hk hn
    · rw [Function.update_of_ne hne]
      exact hc.apart k c' hk hs
  · exact fun k hk hh => hc.out_free k hk (hheld _ hh).1
  · intro c' hs hh
    rcases hold c' hs with rfl | ⟨hne, hs⟩
    · rw [Function.update_self] at hh
      exact (hheld _ hh).2 rfl
    · rw [Function.update_of_ne hne] at hh
      exact hc.place_free c' hs (hheld _ hh).1

/-- **What is in a place goes out.** -/
theorem Custody.emit (h : Custody R src held place out) {c : κ} {y : β} (hy : place c = some y) :
    Custody R src held (Function.update place c none) (out ++ [y]) := by
  obtain ⟨f, g, hc⟩ := h
  have hold : ∀ c', (Function.update place c none c').isSome → c' ≠ c ∧ (place c').isSome := by
    intro c' hs
    by_cases hcc : c' = c
    · subst hcc
      simp at hs
    · rw [Function.update_of_ne hcc] at hs
      exact ⟨hcc, hs⟩
  have hsome : (place c).isSome := by
    rw [hy]
    rfl
  have hlast : ∀ k, k < (out ++ [y]).length → k < out.length ∨ k = out.length := by
    intro k hk
    rw [List.length_append, List.length_singleton] at hk
    omega
  have hself : Function.update f out.length (g c) out.length = g c := Function.update_self ..
  have hother : ∀ k, k < out.length → Function.update f out.length (g c) k = f k :=
    fun k hk => Function.update_of_ne (Nat.ne_of_lt hk) _ _
  refine ⟨Function.update f out.length (g c), g, ?_, ?_, ?_, ?_, ?_, ?_, ?_⟩
  · intro k y' hk
    rcases hlast k (List.getElem?_eq_some_iff.mp hk).1 with hlt | rfl
    · rw [List.getElem?_append_left hlt] at hk
      rw [hother k hlt]
      exact hc.out_rel k y' hk
    · rw [List.getElem?_concat_length, Option.some.injEq] at hk
      rw [hself]
      exact hc.place_rel c y' (hk ▸ hy)
  · intro c' y' hy'
    obtain ⟨hne, _⟩ := hold c' (by rw [hy']; rfl)
    rw [Function.update_of_ne hne] at hy'
    exact hc.place_rel c' y' hy'
  · intro k k' hk hk' heq
    rcases hlast k hk with hlt | rfl <;> rcases hlast k' hk' with hlt' | rfl
    · rw [hother k hlt, hother k' hlt'] at heq
      exact hc.out_inj k k' hlt hlt' heq
    · rw [hother k hlt, hself] at heq
      exact absurd heq (hc.apart k c hlt hsome)
    · rw [hother k' hlt', hself] at heq
      exact absurd heq.symm (hc.apart k' c hlt' hsome)
    · rfl
  · intro c₁ c₂ h₁ h₂ heq
    exact hc.place_inj c₁ c₂ (hold c₁ h₁).2 (hold c₂ h₂).2 heq
  · intro k c' hk hs
    obtain ⟨hne, hs⟩ := hold c' hs
    rcases hlast k hk with hlt | rfl
    · rw [hother k hlt]
      exact hc.apart k c' hlt hs
    · rw [hself]
      exact fun heq => hne (hc.place_inj c' c hs hsome heq.symm)
  · intro k hk hh
    rcases hlast k hk with hlt | rfl
    · rw [hother k hlt] at hh
      exact hc.out_free k hlt hh
    · rw [hself] at hh
      exact hc.place_free c hsome hh
  · exact fun c' hs hh => hc.place_free c' (hold c' hs).2 hh

end Matching
