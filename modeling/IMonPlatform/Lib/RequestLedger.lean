import Mathlib.Data.List.Nodup
import Mathlib.Logic.Function.Basic

/-!
# Ledger of outstanding requests

A sender with a queue of accepted requests, one request in its hand, a record of the requests it
has written, by key, and a list of the answered ones.  A refused request goes back to the queue.

* `Move` — the moves of a sender that loses nothing.
* `Move.balanced` — with distinct keys, every move keeps the number of places of each request equal
  to the number of times it was accepted (`Balanced`).
* `Balanced.places_eq_one` — so every accepted request is in exactly one place.
-/

set_option autoImplicit false

namespace RequestLedger

variable {α κ : Type*}

/-- The request in the sender's hand, before and after it has been recorded. -/
inductive Hand (α : Type*) where
  | empty
  | taken (e : α)
  | recorded (e : α)

def Hand.toList : Hand α → List α
  | .empty => []
  | .taken e | .recorded e => [e]

structure Ledger (α κ : Type*) where
  waiting : List α
  hand : Hand α
  records : κ → Option α
  answered : List α
  /-- Everything accepted so far. -/
  accepted : List α

variable [DecidableEq α] {key : α → κ} {L L' : Ledger α κ}

/-- In how many places a request is: waiting, in hand, recorded and no longer in hand, or
    answered. -/
def Ledger.places (L : Ledger α κ) (key : α → κ) (e : α) : Nat :=
  L.waiting.count e + L.hand.toList.count e +
    (if L.records (key e) = some e ∧ e ∉ L.hand.toList then 1 else 0) + L.answered.count e

/-- One move; a reply to a request counts only when the request is recorded and out of hand. -/
inductive Move [DecidableEq κ] (key : α → κ) : Ledger α κ → Ledger α κ → Prop
  | accept {L : Ledger α κ} {e : α} (hfresh : key e ∉ L.accepted.map key) :
      Move key L { L with waiting := L.waiting ++ [e], accepted := L.accepted ++ [e] }
  | take {L : Ledger α κ} {e : α} {rest : List α} (hw : L.waiting = e :: rest)
      (hh : L.hand = .empty) : Move key L { L with waiting := rest, hand := .taken e }
  | record {L : Ledger α κ} {e : α} (hh : L.hand = .taken e) :
      Move key L { L with
        hand := .recorded e, records := Function.update L.records (key e) (some e) }
  | finish {L : Ledger α κ} {e : α} (hh : L.hand = .recorded e) :
      Move key L { L with hand := .empty }
  | refuse {L : Ledger α κ} {q : α} (hr : L.records (key q) = some q) (hh : q ∉ L.hand.toList) :
      Move key L { L with
        waiting := L.waiting ++ [q], records := Function.update L.records (key q) none }
  | answer {L : Ledger α κ} {q : α} (hr : L.records (key q) = some q) (hh : q ∉ L.hand.toList) :
      Move key L { L with
        answered := L.answered ++ [q], records := Function.update L.records (key q) none }

/-- The books are balanced. -/
structure Balanced (key : α → κ) (L : Ledger α κ) : Prop where
  places : ∀ e, L.places key e = L.accepted.count e
  distinct : (L.accepted.map key).Nodup
  record_key : ∀ k q, L.records k = some q → key q = k
  taken : ∀ e, L.hand = .taken e → L.records (key e) = none
  recorded : ∀ e, L.hand = .recorded e → L.records (key e) = some e

theorem Balanced.count_le_one (h : Balanced key L) (e : α) : L.accepted.count e ≤ 1 :=
  List.nodup_iff_count_le_one.mp (List.Nodup.of_map key h.distinct) e

/-- **Every accepted request is in exactly one place.** -/
theorem Balanced.places_eq_one (h : Balanced key L) {e : α} (he : e ∈ L.accepted) :
    L.places key e = 1 := by
  have hle := h.count_le_one e
  have hpos := List.count_pos_iff.mpr he
  rw [h.places]
  omega

/-- Requests recorded or waiting have been accepted; among those, the key decides. -/
theorem Balanced.eq_of_key (h : Balanced key L) {a b : α} (ha : 0 < L.places key a)
    (hb : 0 < L.places key b) (hk : key a = key b) : a = b := by
  rw [h.places, List.count_pos_iff] at ha hb
  exact List.inj_on_of_nodup_map h.distinct ha hb hk

theorem places_of_hand {e : α} (he : e ∈ L.hand.toList) : 0 < L.places key e := by
  have := List.count_pos_iff.mpr he
  unfold Ledger.places
  omega

theorem Balanced.accepted_of_hand (h : Balanced key L) {e : α} (he : e ∈ L.hand.toList) :
    e ∈ L.accepted := by
  have hpos : 0 < L.places key e := places_of_hand he
  rwa [h.places, List.count_pos_iff] at hpos

theorem places_of_record {q : α} (hr : L.records (key q) = some q) : 0 < L.places key q := by
  by_cases hq : q ∈ L.hand.toList
  · exact places_of_hand hq
  · unfold Ledger.places
    rw [if_pos ⟨hr, hq⟩]
    omega

/-- A request about to be taken is not on record: it would be in two places. -/
theorem Balanced.take_unrecorded (h : Balanced key L) {e : α} {rest : List α}
    (hw : L.waiting = e :: rest) (hh : L.hand = .empty) : L.records (key e) = none := by
  have hle := h.count_le_one e
  have hbal := h.places e
  have hpos : 0 < L.places key e := by
    unfold Ledger.places
    rw [hw, List.count_cons_self]
    omega
  cases hr : L.records (key e) with
  | none => rfl
  | some q =>
    have hkey := h.record_key _ _ hr
    have hq : q = e := h.eq_of_key (places_of_record (hkey ▸ hr)) hpos hkey
    subst hq
    unfold Ledger.places at hbal
    rw [hw, hh, List.count_cons_self, if_pos ⟨hr, by simp [Hand.toList]⟩] at hbal
    omega

omit [DecidableEq α] in
/-- Writing the record under the key of `q` leaves the records of other requests as they were,
    when only `q` may have been recorded there. -/
theorem record_update [DecidableEq κ] {q e : α} {v : Option α}
    (hold : ∀ r, L.records (key q) = some r → r = q) (hnew : ∀ r, v = some r → r = q)
    (hne : e ≠ q) :
    Function.update L.records (key q) v (key e) = some e ↔ L.records (key e) = some e := by
  by_cases hk : key e = key q
  · rw [hk, Function.update_self]
    exact ⟨fun h => absurd (hnew e h) hne, fun h => absurd (hold e h) hne⟩
  · rw [Function.update_of_ne hk]

theorem Balanced.accept (h : Balanced key L) {e : α} (hfresh : key e ∉ L.accepted.map key) :
    Balanced key { L with waiting := L.waiting ++ [e], accepted := L.accepted ++ [e] } := by
  refine ⟨fun a => ?_, ?_, h.record_key, h.taken, h.recorded⟩
  · have := h.places a
    simp only [Ledger.places, List.count_append] at this ⊢
    omega
  · rw [List.map_append, List.nodup_append]
    refine ⟨h.distinct, by simp, ?_⟩
    rintro a ha b hb rfl
    rw [List.map_singleton, List.mem_singleton] at hb
    exact hfresh (hb ▸ ha)

theorem Balanced.take (h : Balanced key L) {e : α} {rest : List α} (hw : L.waiting = e :: rest)
    (hh : L.hand = .empty) : Balanced key { L with waiting := rest, hand := .taken e } := by
  have hnone := h.take_unrecorded hw hh
  refine ⟨fun a => ?_, h.distinct, h.record_key, ?_, nofun⟩
  · have := h.places a
    simp only [Ledger.places, hw, hh, Hand.toList, List.count_nil, List.count_cons] at this ⊢
    by_cases hae : e = a
    · subst hae
      simp only [hnone, reduceCtorEq, false_and, if_false] at this ⊢
      omega
    · simpa [hae, Ne.symm hae] using this
  · rintro a ⟨⟩
    exact hnone

theorem Balanced.record [DecidableEq κ] (h : Balanced key L) {e : α} (hh : L.hand = .taken e) :
    Balanced key { L with
      hand := .recorded e, records := Function.update L.records (key e) (some e) } := by
  have hnone := h.taken e hh
  refine ⟨fun a => ?_, h.distinct, ?_, nofun, ?_⟩
  · have := h.places a
    simp only [Ledger.places, hh, Hand.toList] at this ⊢
    by_cases hae : a = e
    · subst hae
      simpa using this
    · rw [← this]
      simp only [record_update (L := L) (fun r hr => by rw [hnone] at hr; cases hr)
        (fun r hr => (Option.some.inj hr).symm) hae]
  · intro k q hq
    replace hq : Function.update L.records (key e) (some e) k = some q := hq
    by_cases hk : k = key e
    · rw [hk, Function.update_self] at hq
      cases hq
      exact hk.symm
    · rw [Function.update_of_ne hk] at hq
      exact h.record_key k q hq
  · rintro a ⟨⟩
    exact Function.update_self ..

theorem Balanced.finish (h : Balanced key L) {e : α} (hh : L.hand = .recorded e) :
    Balanced key { L with hand := .empty } := by
  have hrec := h.recorded e hh
  refine ⟨fun a => ?_, h.distinct, h.record_key, nofun, nofun⟩
  have := h.places a
  simp only [Ledger.places, hh, Hand.toList, List.count_nil, List.count_cons] at this ⊢
  by_cases hae : e = a
  · subst hae
    simpa [hrec] using this
  · simpa [hae, Ne.symm hae] using this

/-- A recorded request that is not in hand leaves the record for the queue or for the answers. -/
theorem Balanced.settle [DecidableEq κ] (h : Balanced key L) {q : α}
    (hr : L.records (key q) = some q) (hh : q ∉ L.hand.toList) {waiting answered : List α}
    (hmoved : ∀ a, waiting.count a + answered.count a =
      L.waiting.count a + L.answered.count a + [q].count a) :
    Balanced key ⟨waiting, L.hand, Function.update L.records (key q) none, answered,
      L.accepted⟩ := by
  have hother : ∀ a, L.hand.toList = [a] → key a = key q → L.records (key a) ≠ some a := by
    intro a ha hk hrec
    rw [hk, hr, Option.some.injEq] at hrec
    exact hh (by rw [ha, hrec]; exact List.mem_singleton_self a)
  refine ⟨fun a => ?_, h.distinct, ?_, ?_, ?_⟩
  · have hbal := h.places a
    have hm := hmoved a
    simp only [Ledger.places] at hbal ⊢
    by_cases haq : a = q
    · subst haq
      rw [if_pos ⟨hr, hh⟩] at hbal
      simp only [Function.update_self, reduceCtorEq, false_and, if_false]
      simp only [List.count_singleton_self] at hm
      omega
    · have hrec := record_update (L := L) (v := none) (fun r hr' => by
        rw [hr] at hr'
        exact (Option.some.inj hr').symm) nofun haq
      have hzero : [q].count a = 0 := List.count_eq_zero.mpr (by simpa using haq)
      simp only [hrec]
      omega
  · intro k r hk
    replace hk : Function.update L.records (key q) none k = some r := hk
    by_cases hkq : k = key q
    · rw [hkq, Function.update_self] at hk
      cases hk
    · rw [Function.update_of_ne hkq] at hk
      exact h.record_key k r hk
  · intro a ha
    by_cases hk : key a = key q
    · exact hk ▸ Function.update_self ..
    · exact (Function.update_of_ne hk ..).trans (h.taken a ha)
  · intro a ha
    have hrec := h.recorded a ha
    have hk : key a ≠ key q := fun hk => hother a (by rw [ha]; rfl) hk hrec
    exact (Function.update_of_ne hk ..).trans hrec

/-- **Every move keeps the books balanced.** -/
theorem Move.balanced [DecidableEq κ] (hm : Move key L L') (h : Balanced key L) :
    Balanced key L' := by
  cases hm with
  | accept hfresh => exact h.accept hfresh
  | take hw hh => exact h.take hw hh
  | record hh => exact h.record hh
  | finish hh => exact h.finish hh
  | refuse hr hh =>
    apply h.settle hr hh
    intro a
    rw [List.count_append]
    omega
  | answer hr hh =>
    apply h.settle hr hh
    intro a
    rw [List.count_append]
    omega

end RequestLedger
