import IMonPlatform.Lib.Doubling
import IMonPlatform.Format.DoFormat

/-!
# `format_arg_list`

The loop behind both overloads of `format`: a buffer of 512 characters is doubled until
`_vsnprintf_s` no longer says that it has truncated the text.  The length is an `int`, and -1 is
also what `_vsnprintf_s` says when it cannot format at all.

* `vsnprintf_s` — the function of the runtime library, for the text that a format and its arguments
  stand for.
* `askBuffer`, `format_arg_list` — a round, and the function.
* `Round`, `last_round` — what a round comes to, and the round that ends the function.
* `format_arg_list_iff` — for which texts and which memory the function returns, throws, or leaves
  the range of `int`.
-/

set_option autoImplicit false

namespace IMonPlatform.FormatArgList

open Doubling
open Format (CharT cstr)

/-! ## The function -/

/-- What a call ends with. -/
inductive Outcome where
  | returned (s : List CharT)
  /-- `new` has thrown. -/
  | bad_alloc
  /-- `length *= 2` has left the range of `int`. -/
  | overflow
  deriving DecidableEq

/-- `_vsnprintf_s( buffer, length, _TRUNCATE, fmt, args )`: its result, and the text in the buffer,
    which holds zeros before.  `none` is a text that cannot be formatted. -/
def vsnprintf_s (text : Option (List CharT)) (length : Nat) : Int × List CharT :=
  match text with
  | none => (-1, [])
  | some t => if t.length < length then (t.length, t) else (-1, t.take (length - 1))

section Loop

-- `new`: a block of so many characters can be had
variable (new : Nat → Bool) (text : Option (List CharT))

/-- A round of the loop; it ends the function or goes on with the next length. -/
def askBuffer (length : Nat) : Outcome ⊕ Nat :=
  if new (length + 1) = false then .inl .bad_alloc
  else
    let result := vsnprintf_s text length
    if 2 ^ 31 ≤ 2 * length then .inl .overflow
    else if result.1 = -1 then .inr (2 * length)
    else .inl (.returned (cstr result.2))

/-- `fmt` may be `NULL`; the 22nd length is behind the range of `int`. -/
def format_arg_list (fmt : Bool) : Option Outcome :=
  if fmt = false then some (.returned []) else retry (fun _ => askBuffer new text) 22 0 512

end Loop

/-! ## A round -/

section Round

variable {new : Nat → Bool} {text : Option (List CharT)}

/-- What a round with this length comes to. -/
inductive Round (new : Nat → Bool) (text : Option (List CharT)) (length : Nat) :
    Outcome ⊕ Nat → Prop where
  | bad_alloc (hnew : new (length + 1) = false) : Round new text length (.inl .bad_alloc)
  | overflow (hnew : new (length + 1) = true) (hlarge : 2 ^ 31 ≤ 2 * length) :
      Round new text length (.inl .overflow)
  | refused (hnew : new (length + 1) = true) (hsmall : 2 * length < 2 ^ 31)
      (hlong : ∀ t, text = some t → length ≤ t.length) :
      Round new text length (.inr (2 * length))
  | returned (hnew : new (length + 1) = true) (hsmall : 2 * length < 2 ^ 31) {t : List CharT}
      (htext : text = some t) (hfits : t.length < length) :
      Round new text length (.inl (.returned (cstr t)))

theorem askBuffer_round (new : Nat → Bool) (text : Option (List CharT)) (length : Nat) :
    Round new text length (askBuffer new text length) := by
  unfold askBuffer
  split
  · rename_i hnew
    exact .bad_alloc hnew
  · rename_i hnew
    rw [Bool.not_eq_false] at hnew
    dsimp only
    split
    · rename_i hlarge
      exact .overflow hnew hlarge
    · rename_i hlarge
      rw [Nat.not_le] at hlarge
      cases text with
      | none => exact .refused hnew hlarge fun t ht => by cases ht
      | some t =>
        by_cases hfits : t.length < length
        · have hcount : ¬ ((t.length : Int) = -1) := by omega
          simp only [vsnprintf_s, if_pos hfits, if_neg hcount]
          exact .returned hnew hlarge rfl hfits
        · simp only [vsnprintf_s, if_neg hfits, if_true]
          refine .refused hnew hlarge fun t' ht' => ?_
          cases ht'
          omega

/-- **The round that ends the function**: all rounds before it are refused. -/
theorem last_round (new : Nat → Bool) (text : Option (List CharT)) :
    ∃ j ≤ 21, ∃ o, Round new text (2 ^ j * 512) (.inl o) ∧
      (∀ i < j, Round new text (2 ^ i * 512) (.inr (2 * (2 ^ i * 512)))) ∧
      format_arg_list new text true = some o := by
  have hends : ∃ j o, askBuffer new text (2 ^ j * 512) = .inl o := by
    refine ⟨21, ?_⟩
    have hround := askBuffer_round new text (2 ^ 21 * 512)
    cases hask : askBuffer new text (2 ^ 21 * 512) with
    | inl o => exact ⟨o, rfl⟩
    | inr next =>
      rw [hask] at hround
      cases hround with
      | refused _ hsmall _ => omega
  classical
  obtain ⟨o, ho⟩ := Nat.find_spec hends
  have hrefused : ∀ i < Nat.find hends,
      askBuffer new text (2 ^ i * 512) = .inr (2 * (2 ^ i * 512)) := by
    intro i hi
    have hround := askBuffer_round new text (2 ^ i * 512)
    cases hask : askBuffer new text (2 ^ i * 512) with
    | inl o => exact absurd ⟨o, hask⟩ (Nat.find_min hends hi)
    | inr next =>
      rw [hask] at hround
      cases hround
      rfl
  have hlast : Nat.find hends ≤ 21 := by
    by_contra hlt
    have hround := askBuffer_round new text (2 ^ 21 * 512)
    rw [hrefused 21 (by omega)] at hround
    cases hround with
    | refused _ hsmall _ => omega
  refine ⟨Nat.find hends, hlast, o, ho ▸ askBuffer_round .., fun i hi => ?_, ?_⟩
  · exact hrefused i hi ▸ askBuffer_round ..
  · exact @retry_doubled _ (fun _ => askBuffer new text) o (Nat.find hends) 0 512 22 (by omega)
      hrefused ho

end Round

/-- **What `format` comes to**, for every text and whatever memory can be had: it always ends; it
    returns the text, up to its first NUL, exactly if the text can be formatted, is shorter than
    2^29 characters, and every buffer up to the first that is longer than the text can be had; and
    its length leaves the range of `int` exactly if all buffers can be had and the text cannot be
    formatted or is not shorter than that. -/
theorem format_arg_list_iff (new : Nat → Bool) (text : Option (List CharT)) :
    ∃ o, format_arg_list new text true = some o ∧
      (∀ s, o = .returned s ↔ ∃ t, text = some t ∧ s = cstr t ∧
        ∃ j ≤ 20, t.length < 2 ^ j * 512 ∧ ∀ i ≤ j, new (2 ^ i * 512 + 1) = true) ∧
      (o = .overflow ↔ (∀ i ≤ 21, new (2 ^ i * 512 + 1) = true) ∧
        ∀ t, text = some t → 2 ^ 29 ≤ t.length) := by
  obtain ⟨j, hj, o, hround, hrefused, hformat⟩ := last_round new text
  have hmono : ∀ {i k : Nat}, i ≤ k → 2 ^ i * 512 ≤ 2 ^ k * 512 := fun h =>
    Nat.mul_le_mul_right 512 (Nat.pow_le_pow_right (by decide) h)
  have hbefore : ∀ i < j, new (2 ^ i * 512 + 1) = true ∧
      ∀ t, text = some t → 2 ^ i * 512 ≤ t.length := by
    intro i hi
    cases hrefused i hi with
    | refused hnew _ hlong => exact ⟨hnew, hlong⟩
  have hnews : new (2 ^ j * 512 + 1) = true → ∀ i ≤ j, new (2 ^ i * 512 + 1) = true := by
    intro hnew i hi
    rcases Nat.lt_or_eq_of_le hi with hlt | rfl
    · exact (hbefore i hlt).1
    · exact hnew
  refine ⟨o, hformat, fun s => ⟨?_, ?_⟩, ?_, ?_⟩
  · rintro rfl
    cases hround with
    | @returned hnew hsmall t htext hfits =>
      refine ⟨t, htext, rfl, j, ?_, hfits, hnews hnew⟩
      by_contra hlt
      have hlarge : 2 ^ 21 * 512 ≤ 2 ^ j * 512 := hmono (by omega)
      omega
  · rintro ⟨t, htext, rfl, k, hk, hfits, hall⟩
    have hjk : j ≤ k := by
      by_contra hlt
      have hlong := (hbefore k (by omega)).2 t htext
      omega
    cases hround with
    | bad_alloc hnew =>
      rw [hall j hjk] at hnew
      cases hnew
    | overflow _ hlarge =>
      have hle : 2 ^ j * 512 ≤ 2 ^ 20 * 512 := hmono (by omega)
      omega
    | returned _ _ htext' _ =>
      rw [htext] at htext'
      cases htext'
      rfl
  · rintro rfl
    cases hround with
    | overflow hnew hlarge =>
      have hlast : j = 21 := by
        by_contra hne
        have hle : 2 ^ j * 512 ≤ 2 ^ 20 * 512 := hmono (by omega)
        omega
      subst hlast
      exact ⟨hnews hnew, (hbefore 20 (by omega)).2⟩
  · rintro ⟨hall, hlong⟩
    cases hround with
    | bad_alloc hnew =>
      rw [hall j hj] at hnew
      cases hnew
    | overflow => rfl
    | returned _ hsmall htext hfits =>
      have hle : 2 ^ j * 512 ≤ 2 ^ 20 * 512 := by
        refine hmono ?_
        by_contra hlt
        have hlarge : 2 ^ 21 * 512 ≤ 2 ^ j * 512 := hmono (by omega)
        omega
      have := hlong _ htext
      omega

/-- Texts of 512 characters take a second buffer. -/
example : format_arg_list (fun _ => true) (some (List.replicate 512 65)) true =
    some (.returned (List.replicate 512 65)) := by decide +kernel

end IMonPlatform.FormatArgList
