import IMonPlatform.Lib.CString
import IMonPlatform.Logger.Configuration

/-!
# `convertMultiSZToVector`

A multi-string is a row of strings, each with its NUL, and one more NUL behind the last of them.  The
loop goes from string to string and keeps the length of the one that comes next; it ends where that
is zero.

* `convertMultiSZToVector` — the source's function on the cells that may be read.
* `Entry`, `multiSZ` — the strings of a multi-string, and its cells.
* `multiLoop_entries`, `entries_of_multiLoop` — the loop and what is left of a multi-string.
* `multi_sz_decoded` — a multi-string is decoded to its strings, whatever is behind it.
* `multiSZ_of_decoded` — nothing else is decoded.
-/

set_option autoImplicit false

namespace IMonPlatform.MultiString

open CString
open Format (CharT)
open Logger (Text text)

/-! ## The function -/

def wcslen (s : List CharT) : Option Nat := (stringAt s).map List.length

/-- The loop; `none` is a read behind the cells, or a loop that needs more rounds. -/
def multiLoop (pwszText : List CharT) : Nat → Nat → Nat → List Text → Option (List Text)
  | 0, _, _, _ => none
  | rounds + 1, index, len, vecRet =>
    if 0 < len then do
      let item ← stringAt (pwszText.drop index)
      let next ← wcslen (pwszText.drop (index + (len + 1)))
      multiLoop pwszText rounds (index + (len + 1)) next (vecRet ++ [item])
    else some vecRet

/-- Every round goes over a cell, and a round more ends the loop. -/
def convertMultiSZToVector (pwszText : List CharT) : Option (List Text) := do
  let len ← wcslen pwszText
  multiLoop pwszText (pwszText.length + 1) 0 len []

/-! ## Multi-strings -/

structure Entry where
  text : Text
  nonempty : text ≠ []
  noNul : 0 ∉ text

/-- Each string with its NUL, and one more NUL. -/
def multiSZ (entries : List Entry) : List CharT :=
  entries.flatMap (fun entry => entry.text ++ [0]) ++ [0]

/-- The length of the string that comes next. -/
def nextLength : List Entry → Nat
  | [] => 0
  | entry :: _ => entry.text.length

theorem multiSZ_cons (entry : Entry) (entries : List Entry) (behind : List CharT) :
    multiSZ (entry :: entries) ++ behind = entry.text ++ 0 :: (multiSZ entries ++ behind) := by
  simp [multiSZ]

theorem multiSZ_length (entries : List Entry) : entries.length < (multiSZ entries).length := by
  induction entries with
  | nil => exact Nat.one_pos
  | cons entry entries ih =>
    have hcells := congrArg List.length (multiSZ_cons entry entries [])
    simp only [List.append_nil, List.length_append, List.length_cons] at hcells
    rw [List.length_cons]
    omega

/-- The length that the loop computes ahead. -/
theorem wcslen_multiSZ (entries : List Entry) (behind : List CharT) :
    wcslen (multiSZ entries ++ behind) = some (nextLength entries) := by
  cases entries with
  | nil =>
    have hnone : (0 : CharT) ∉ ([] : Text) := List.not_mem_nil
    rw [wcslen, show multiSZ [] ++ behind = [] ++ 0 :: behind from rfl, stringAt_append hnone]
    rfl
  | cons entry entries =>
    rw [wcslen, multiSZ_cons, stringAt_append entry.noNul]
    rfl

/-! ## The loop -/

/-- The cells behind a string and its NUL. -/
theorem drop_string {pwszText item behind : List CharT} {index : Nat}
    (h : pwszText.drop index = item ++ 0 :: behind) :
    pwszText.drop (index + (item.length + 1)) = behind := by
  have hparts : item ++ 0 :: behind = (item ++ [0]) ++ behind := by simp
  rw [← List.drop_drop, h, hparts, ← List.length_singleton, ← List.length_append, List.drop_left]

/-- **The loop over the rest of a multi-string**: the index is at its first string, and the length
is the one of that string. -/
theorem multiLoop_entries {pwszText : List CharT} (behind : List CharT) :
    ∀ (entries : List Entry) (rounds index : Nat) (vecRet : List Text), entries.length < rounds →
    pwszText.drop index = multiSZ entries ++ behind →
    multiLoop pwszText rounds index (nextLength entries) vecRet =
      some (vecRet ++ entries.map Entry.text) := by
  intro entries
  induction entries with
  | nil =>
    intro rounds index vecRet hlt hcells
    obtain ⟨rounds, rfl⟩ := Nat.exists_eq_add_one_of_ne_zero (Nat.ne_of_gt hlt)
    rw [multiLoop, nextLength, if_neg (Nat.lt_irrefl 0), List.map_nil, List.append_nil]
  | cons entry entries ih =>
    intro rounds index vecRet hlt hcells
    obtain ⟨rounds, rfl⟩ := Nat.exists_eq_add_one_of_ne_zero (Nat.ne_of_gt (Nat.zero_lt_of_lt hlt))
    rw [List.length_cons] at hlt
    rw [multiSZ_cons] at hcells
    have hpos : 0 < entry.text.length := List.length_pos_iff.mpr entry.nonempty
    have hitem : stringAt (pwszText.drop index) = some entry.text := by
      rw [hcells, stringAt_append entry.noNul]
    have hrest := drop_string hcells
    have hnext : wcslen (pwszText.drop (index + (entry.text.length + 1))) =
        some (nextLength entries) := by
      rw [hrest, wcslen_multiSZ]
    rw [multiLoop, nextLength, if_pos hpos, hitem, hnext, Option.bind_eq_bind, Option.bind_some,
      Option.bind_eq_bind, Option.bind_some, ih rounds _ _ (by omega) hrest, List.map_cons,
      List.append_assoc, List.singleton_append]

/-- **The cells that the loop has gone over are a multi-string** of what it returns. -/
theorem entries_of_multiLoop {pwszText : List CharT} : ∀ (rounds index len : Nat)
    (vecRet items : List Text), wcslen (pwszText.drop index) = some len →
    multiLoop pwszText rounds index len vecRet = some items →
    ∃ entries behind, pwszText.drop index = multiSZ entries ++ behind ∧
      items = vecRet ++ entries.map Entry.text := by
  intro rounds
  induction rounds with
  | zero =>
    intro index len vecRet items _ hloop
    cases hloop
  | succ rounds ih =>
    intro index len vecRet items hlen hloop
    obtain ⟨item, hitem, rfl⟩ := Option.map_eq_some_iff.mp hlen
    obtain ⟨hnul, behind, hcells⟩ := stringAt_eq_some_iff.mp hitem
    rw [multiLoop] at hloop
    by_cases hpos : 0 < item.length
    · rw [if_pos hpos, hitem, Option.bind_eq_bind, Option.bind_some] at hloop
      obtain ⟨next, hnext, hrounds⟩ := Option.bind_eq_some_iff.mp hloop
      obtain ⟨entries, behind', hmulti, rfl⟩ := ih _ _ _ _ hnext hrounds
      refine ⟨⟨item, List.length_pos_iff.mp hpos, hnul⟩ :: entries, behind', ?_, ?_⟩
      · rw [multiSZ_cons, ← hmulti, drop_string hcells, hcells]
      · rw [List.map_cons, List.append_assoc, List.singleton_append]
    · obtain rfl : item = [] := List.length_eq_zero_iff.mp (Nat.eq_zero_of_not_pos hpos)
      rw [if_neg hpos] at hloop
      obtain rfl := Option.some.inj hloop
      exact ⟨[], behind, hcells, (List.append_nil vecRet).symm⟩

/-- **A multi-string is decoded to its strings, whatever is behind its final NUL.**  With
nothing behind it a read there is `none`, so that no cell after the NUL is read. -/
theorem multi_sz_decoded (entries : List Entry) (behind : List CharT) :
    convertMultiSZToVector (multiSZ entries ++ behind) = some (entries.map Entry.text) := by
  have hrounds : entries.length < (multiSZ entries ++ behind).length + 1 := by
    have hlen := multiSZ_length entries
    rw [List.length_append]
    omega
  rw [convertMultiSZToVector, wcslen_multiSZ, Option.bind_eq_bind, Option.bind_some]
  exact multiLoop_entries behind entries _ 0 [] hrounds rfl

example : convertMultiSZToVector [97, 0, 98, 99, 0, 0] = some [[97], [98, 99]] := by decide

/-- **Nothing else is decoded**: what is returned are the strings of a multi-string at the front of
the cells. -/
theorem multiSZ_of_decoded {pwszText : List CharT} {items : List Text}
    (h : convertMultiSZToVector pwszText = some items) :
    ∃ entries behind, pwszText = multiSZ entries ++ behind ∧ items = entries.map Entry.text := by
  obtain ⟨len, hlen, hloop⟩ := Option.bind_eq_some_iff.mp h
  exact entries_of_multiLoop _ 0 len [] items hlen hloop

/-- Cells behind the last NUL. -/
theorem multiSZ_of_decoded_two : ∃ entries behind, ([97, 0, 98, 99, 0, 0, 100] : List CharT) =
    multiSZ entries ++ behind ∧ ([[97], [98, 99]] : List Text) = entries.map Entry.text :=
  multiSZ_of_decoded (by decide)

end IMonPlatform.MultiString
