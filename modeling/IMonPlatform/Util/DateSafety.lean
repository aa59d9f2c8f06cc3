import IMonPlatform.Util.DateTime

/-!
# Exceptions of `GetTimeValueFromFormat`

The format alone moves the cursor in the text.  A directive in a text that is too short for it reads
from behind the end, unless it is `%p`, which looks at the length first.

* `chain`, `layout` — the letters that are read behind each `%`, and behind each other cell.
* `lastRead` — the cells in front of the last directive that reads.
* `returns_iff` — the function returns a value exactly if the text has these cells.
-/

set_option autoImplicit false

namespace IMonPlatform.DateTime

open Format (CharT)
open Logger (Text text)

/-! ## The layout of a format -/

/-- The letters that are taken one after the other. -/
def chain : List Letter → Text → List Letter
  | [], _ => []
  | f :: fs, s => if s.head? = some f.char then f :: chain fs s.tail else chain fs s

/-- The letters of each round; the number counts the cells that a round has taken. -/
def layout : Nat → Text → List (List Letter)
  | _, [] => []
  | left + 1, _ :: s => layout left s
  | 0, c :: s =>
    if c = '%'.toNat then chain letters s :: layout (chain letters s).length s
    else [] :: layout 0 s

def advances (fs : List Letter) : Nat := (fs.map Letter.advance).sum

/-- The cells in front of the last letter that reads. -/
def lastIn : List Letter → Option Nat
  | [] => none
  | f :: fs =>
    match lastIn fs with
    | some n => some (f.advance + n)
    | none => if f = .p then none else some 0

def lastRound : List (List Letter) → Option Nat
  | [] => none
  | fs :: rounds =>
    match lastRound rounds with
    | some n => some (advances fs + 1 + n)
    | none => lastIn fs

/-- The cells in front of the last directive that reads: a directive has as many as it writes, but
`%p` has two. -/
def lastRead (fmt : Text) : Option Nat := lastRound (layout 0 fmt)

/-- The text has the cells, if the cursor stands at `nIdx`. -/
def Fits (dateTimeText : Text) (nIdx : Nat) (cells : Option Nat) : Prop :=
  ∀ n, cells = some n → nIdx + n ≤ dateTimeText.length

section Safety

variable {k : Markers} {s : Text}

theorem fits_none (nIdx : Nat) : Fits s nIdx none := nofun

theorem fits_some {nIdx n : Nat} : Fits s nIdx (some n) ↔ nIdx + n ≤ s.length :=
  ⟨fun h => h n rfl, fun h _ hn => Option.some.inj hn ▸ h⟩

/-! ## A round -/

/-- `%p` looks at the length of the text first. -/
theorem marked_isSome (nIdx : Nat) (marker : Text) : ∃ b, marked s nIdx marker = some b := by
  by_cases hle : nIdx ≤ s.length
  · exact marked_some hle marker
  · refine ⟨false, if_neg ?_⟩
    omega

theorem read_p (nIdx : Nat) (tm : Tm) : ∃ tm', Letter.read k s nIdx tm .p = some tm' := by
  obtain ⟨isAM, hAM⟩ := marked_isSome (s := s) nIdx k.strAM
  obtain ⟨isPM, hPM⟩ := marked_isSome (s := s) nIdx k.strPM
  rw [Letter.read, hAM, hPM]
  exact ⟨_, rfl⟩

theorem read_within {f : Letter} {nIdx : Nat} (h : f ≠ .p → nIdx ≤ s.length) (tm : Tm) :
    ∃ tm', f.read k s nIdx tm = some tm' := by
  by_cases hf : f = .p
  · rw [hf]
    exact read_p nIdx tm
  · have hsub : ∀ n, substr s nIdx n = some ((s.drop nIdx).take n) := fun n => if_pos (h hf)
    cases f with
    | p => exact absurd rfl hf
    | Y | m | d | H | I | M | S =>
      simp only [Letter.read, hsub, Option.map_some]
      exact ⟨_, rfl⟩

theorem read_beyond {f : Letter} (hf : f ≠ .p) {nIdx : Nat} (h : s.length < nIdx) (tm : Tm) :
    f.read k s nIdx tm = none := by
  cases f with
  | p => exact absurd rfl hf
  | Y | m | d | H | I | M | S =>
    simp only [Letter.read, substr_beyond _ h, Option.map_none]

theorem headD_iff (rest : Text) (f : Letter) :
    rest.headD 0 = f.char ↔ rest.head? = some f.char := by
  cases rest with
  | nil => simpa using f.char_ne.1.symm
  | cons c rest => simp

/-- A letter that reads stands in the text if the letters behind it do. -/
theorem fits_cons {f : Letter} {fs : List Letter} {nIdx : Nat} :
    Fits s nIdx (lastIn (f :: fs)) ↔
      (f ≠ .p → nIdx ≤ s.length) ∧ Fits s (nIdx + f.advance) (lastIn fs) := by
  rw [lastIn]
  cases hlast : lastIn fs with
  | some n =>
    rw [fits_some, fits_some]
    constructor
    · intro h
      exact ⟨fun _ => by omega, by omega⟩
    · rintro ⟨-, h⟩
      omega
  | none =>
    by_cases hf : f = .p
    · simp [hf, fits_none]
    · simp only [if_neg hf, fits_some, Nat.add_zero]
      exact ⟨fun h => ⟨fun _ => h, fits_none _⟩, fun h => h.1 hf⟩

/-- **The tests of a round**: they end behind the chain if the text has the cells, and throw
otherwise.  The cell that is tested is a cell of the format, or its end. -/
theorem tests_chain : ∀ (fs : List Letter) (fdone rest : Text) (c : Cursor),
    c.nPos + 1 = fdone.length →
    (Fits s c.nIdx (lastIn (chain fs rest)) → ∃ tm,
      fs.foldlM (testLetter k s (fdone ++ rest)) c =
        some ⟨c.nPos + (chain fs rest).length, c.nIdx + advances (chain fs rest), tm⟩) ∧
    (¬ Fits s c.nIdx (lastIn (chain fs rest)) →
      fs.foldlM (testLetter k s (fdone ++ rest)) c = none)
  | [], _, _, c, _ => ⟨fun _ => ⟨c.tm, rfl⟩, fun h => absurd (fits_none c.nIdx) h⟩
  | f :: fs, fdone, rest, c, hpos => by
    have hnext : charAt (fdone ++ rest) (c.nPos + 1) = some (rest.headD 0) := by
      rw [hpos]
      exact charAt_append fdone rest
    rw [List.foldlM_cons, testLetter, hnext, chain]
    by_cases hhead : rest.head? = some f.char
    · obtain ⟨rest, rfl⟩ := List.head?_eq_some_iff.mp hhead
      simp only [if_pos hhead, List.headD_cons, if_true, Option.bind_eq_bind, Option.bind_some,
        List.tail_cons]
      rw [fits_cons]
      constructor
      · rintro ⟨hle, hfits⟩
        obtain ⟨tm, hread⟩ := read_within (k := k) hle c.tm
        obtain ⟨tm', htests⟩ := (tests_chain fs (fdone ++ [f.char]) rest
          ⟨c.nPos + 1, c.nIdx + f.advance, tm⟩ (by simp [hpos])).1 hfits
        rw [List.append_assoc, List.singleton_append] at htests
        refine ⟨tm', ?_⟩
        rw [hread, Option.bind_some, Option.bind_some, htests, List.length_cons]
        simp only [advances, List.map_cons, List.sum_cons, Nat.add_assoc, Nat.add_comm 1]
      · intro hthrows
        by_cases hle : f ≠ .p → c.nIdx ≤ s.length
        · have hfits : ¬ Fits s (c.nIdx + f.advance) (lastIn (chain fs rest)) :=
            fun h => hthrows ⟨hle, h⟩
          obtain ⟨tm, hread⟩ := read_within (k := k) hle c.tm
          have htests := (tests_chain fs (fdone ++ [f.char]) rest
            ⟨c.nPos + 1, c.nIdx + f.advance, tm⟩ (by simp [hpos])).2 hfits
          rw [List.append_assoc, List.singleton_append] at htests
          rw [hread]
          exact htests
        · rw [Classical.not_imp] at hle
          rw [read_beyond hle.1 (Nat.lt_of_not_le hle.2)]
          rfl
    · have hcell : ¬ rest.headD 0 = f.char := fun h => hhead ((headD_iff rest f).mp h)
      simp only [if_neg hhead, if_neg hcell, Option.bind_eq_bind, Option.bind_some]
      exact tests_chain fs fdone rest c hpos

/-! ## The loop -/

theorem chain_split : ∀ (fs : List Letter) (rest : Text),
    ∃ after, rest = (chain fs rest).map Letter.char ++ after
  | [], rest => ⟨rest, rfl⟩
  | f :: fs, rest => by
    rw [chain]
    split
    · rename_i hhead
      obtain ⟨rest, rfl⟩ := List.head?_eq_some_iff.mp hhead
      obtain ⟨after, hafter⟩ := chain_split fs rest
      refine ⟨after, ?_⟩
      rw [List.map_cons, List.cons_append, List.tail_cons, ← hafter]
    · exact chain_split fs rest

theorem layout_eq : ∀ (left : Nat) (rest : Text), layout left rest = layout 0 (rest.drop left)
  | 0, _ => rfl
  | _ + 1, [] => rfl
  | left + 1, _ :: rest => layout_eq left rest

theorem layout_percent {rest after : Text}
    (h : rest = (chain letters rest).map Letter.char ++ after) :
    layout 0 ('%'.toNat :: rest) = chain letters rest :: layout 0 after := by
  have hdrop : ((chain letters rest).map Letter.char ++ after).drop (chain letters rest).length =
      after := by
    rw [← List.length_map (f := Letter.char)]
    exact List.drop_left
  rw [← h] at hdrop
  rw [layout, if_pos rfl, layout_eq, hdrop]

theorem lastIn_le : ∀ {fs : List Letter} {n : Nat}, lastIn fs = some n → n ≤ advances fs
  | f :: fs, n, h => by
    rw [lastIn] at h
    cases hlast : lastIn fs with
    | some m =>
      simp only [hlast] at h
      have hle := lastIn_le hlast
      cases h
      simp only [advances, List.map_cons, List.sum_cons] at hle ⊢
      omega
    | none =>
      simp only [hlast] at h
      split at h
      · cases h
      · cases h
        exact Nat.zero_le _

/-- What is read later is read further behind. -/
theorem fits_round {fs : List Letter} {rounds : List (List Letter)} {nIdx : Nat} :
    Fits s nIdx (lastRound (fs :: rounds)) ↔
      Fits s nIdx (lastIn fs) ∧ Fits s (nIdx + advances fs + 1) (lastRound rounds) := by
  rw [lastRound]
  cases lastRound rounds with
  | some n =>
    rw [fits_some, fits_some]
    constructor
    · intro h
      refine ⟨fun m hm => ?_, by omega⟩
      have hle := lastIn_le hm
      omega
    · rintro ⟨-, h⟩
      omega
  | none => exact ⟨fun h => ⟨h, fits_none _⟩, And.left⟩

/-- **The loop**, from the part `fdone` of the format on, returns exactly if the text has the
cells. -/
theorem parseLoop_returns : ∀ (rounds : Nat) (rest : Text), rest.length ≤ rounds →
    ∀ (fdone : Text) (nIdx : Nat) (tm : Tm),
      parseLoop k s (fdone ++ rest) rounds ⟨fdone.length, nIdx, tm⟩ ≠ none ↔
        Fits s nIdx (lastRound (layout 0 rest)) := by
  intro rounds
  induction rounds with
  | zero =>
    intro rest hle fdone nIdx tm
    obtain rfl := List.eq_nil_of_length_eq_zero (Nat.le_zero.mp hle)
    exact ⟨fun _ => fits_none nIdx, fun _ => Option.some_ne_none _⟩
  | succ rounds ih =>
    intro rest hle fdone nIdx tm
    rw [parseLoop, List.getElem?_append_right (Nat.le_refl _), Nat.sub_self]
    cases rest with
    | nil => exact ⟨fun _ => fits_none nIdx, fun _ => Option.some_ne_none _⟩
    | cons c rest =>
      rw [List.length_cons] at hle
      simp only [List.getElem?_cons_zero]
      by_cases hc : c = '%'.toNat
      · subst hc
        obtain ⟨after, hafter⟩ := chain_split letters rest
        obtain ⟨hreads, hthrows⟩ := tests_chain (k := k) (s := s) letters
          (fdone ++ ['%'.toNat]) rest ⟨fdone.length, nIdx, tm⟩ (by simp)
        rw [List.append_assoc, List.singleton_append] at hreads hthrows
        rw [if_pos rfl, layout_percent hafter, fits_round]
        by_cases hfits : Fits s nIdx (lastIn (chain letters rest))
        · obtain ⟨tm', htests⟩ := hreads hfits
          have hlength := congrArg List.length hafter
          rw [List.length_append, List.length_map] at hlength
          have hrest := ih after (by omega)
            (fdone ++ '%'.toNat :: (chain letters rest).map Letter.char)
            (nIdx + advances (chain letters rest) + 1) tm'
          rw [List.append_assoc, List.cons_append, ← hafter, List.length_append, List.length_cons,
            List.length_map, ← Nat.add_assoc] at hrest
          rw [htests, Option.bind_eq_bind, Option.bind_some]
          dsimp only
          rw [hrest]
          exact (and_iff_right hfits).symm
        · rw [hthrows hfits]
          exact ⟨fun h => absurd rfl h, fun h => absurd h.1 hfits⟩
      · have hlayout : layout 0 (c :: rest) = [] :: layout 0 rest := by rw [layout, if_neg hc]
        have hrest := ih rest (by omega) (fdone ++ [c]) (nIdx + 1) tm
        rw [List.append_assoc, List.singleton_append, List.length_append,
          List.length_singleton] at hrest
        rw [if_neg hc, Option.bind_eq_bind, Option.bind_some, hrest, hlayout, fits_round]
        exact (and_iff_right (fits_none nIdx)).symm

end Safety

/-- **`GetTimeValueFromFormat` returns a value exactly if the text has the cells in front of the
last directive that reads**, or nothing is read at all. -/
theorem returns_iff (z : Zone) (k : Markers) (dateTimeText fmt : Text) :
    (∃ t, GetTimeValueFromFormat z k dateTimeText fmt = some t) ↔
      dateTimeText = [] ∨ fmt = [] ∨ ∀ n, lastRead fmt = some n → n ≤ dateTimeText.length := by
  have hloop := parseLoop_returns (k := k) (s := dateTimeText) fmt.length fmt (Nat.le_refl _) [] 0
    .initial
  rw [List.nil_append, List.length_nil] at hloop
  have hfits : Fits dateTimeText 0 (lastRound (layout 0 fmt)) ↔
      ∀ n, lastRead fmt = some n → n ≤ dateTimeText.length := by
    simp only [Fits, lastRead, Nat.zero_add]
  rw [GetTimeValueFromFormat, ← or_assoc, ← hfits, ← hloop]
  by_cases hempty : dateTimeText = [] ∨ fmt = []
  · rw [if_pos hempty]
    exact ⟨fun _ => .inl hempty, fun _ => ⟨0, rfl⟩⟩
  · rw [if_neg hempty, or_iff_right hempty]
    cases parseLoop k dateTimeText fmt fmt.length ⟨0, 0, .initial⟩ with
    | none => exact ⟨fun h => h.elim nofun, fun h => absurd rfl h⟩
    | some tm => exact ⟨fun _ => nofun, fun _ => ⟨_, rfl⟩⟩

/-- A year behind the end of the text. -/
theorem short_text_throws :
    GetTimeValueFromFormat ⟨0, 2 ^ 32, by omega, by omega⟩ .C (text "x") (text "on %Y") = none := by
  decide

end IMonPlatform.DateTime
