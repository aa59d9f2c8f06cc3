import IMonPlatform.Util.DateRoundTrip

/-!
# Twelve hours and a marker

`%I` adds its number to the hour, and `%p` adds twelve where it finds the marker of the afternoon
and the text goes on behind it.  Twelve itself is not taken for zero.

* `TwelveHourMarkers`, `HourFormat` — markers of two cells; the seven directives, each once, among
  literals that are no directive letters.
* `readHour` — what the loop makes of the text of a format; `parseLoop_hour` — the loop does that.
* `HourKept` — the hours that come back; `hour_round_trip_iff` — these times come back, and no
  others.
-/

set_option autoImplicit false

namespace IMonPlatform.DateTime

open Format (CharT)
open Logger (Text text wcsicmpEq)

/-! ## Formats -/

structure TwelveHourMarkers extends Markers where
  strAM_length : strAM.length = 2
  strPM_length : strPM.length = 2
  distinct : strAM ≠ strPM

/-- A literal that the parser and `wcsftime` both take for itself. -/
def Quiet (c : CharT) : Prop := c ≠ '%'.toNat ∧ c ≠ 0 ∧ ∀ f : Letter, c ≠ f.char

/-- Blanks and punctuation, and the directives of a 12-hour format, each exactly once. -/
structure HourFormat where
  pieces : List Piece
  literal : ∀ c, .literal c ∈ pieces → Quiet c
  directive : ∀ f, pieces.count (.directive f) = if f = .H then 0 else 1

/-- `%p` is the last piece. -/
def Trailing (fmt : List Piece) : Prop := fmt.getLast? = some (.directive .p)

instance (fmt : List Piece) : Decidable (Trailing fmt) :=
  inferInstanceAs (Decidable (_ = _))

/-- The hours that come back. -/
def HourKept (k : Markers) (fmt : List Piece) (hour : Nat) : Prop :=
  if Trailing fmt then 1 ≤ hour ∧ hour ≤ 12
  else 13 ≤ hour ∨ 1 ≤ hour ∧ hour ≤ 11 ∧ wcsicmpEq k.strAM k.strPM = false

/-- The literals of a part of a format. -/
def QuietPieces (fmt : List Piece) : Prop := ∀ c, .literal c ∈ fmt → Quiet c

theorem QuietPieces.tail {a : Piece} {fmt : List Piece} (h : QuietPieces (a :: fmt)) :
    QuietPieces fmt := fun c hc => h c (List.mem_cons_of_mem a hc)

/-! ## What the loop reads -/

section Reading

variable (k : Markers) (l : LocalTime)

/-- What a directive stores in front of the rest of the format. -/
def store (f : Letter) (fmt : List Piece) (tm : Tm) : Tm :=
  if f = .p then
    if fmt ≠ [] ∧ wcsicmpEq (Letter.text k l .p) k.strPM = true then
      { tm with tm_hour := tm.tm_hour + 12 }
    else tm
  else f.put ((f.value l : Nat) : Int) tm

def readHour : List Piece → Tm → Tm
  | [], tm => tm
  | .literal _ :: fmt, tm => readHour fmt tm
  | .directive f :: fmt, tm => readHour fmt (store k l f fmt tm)

end Reading

section Rounds

variable {k : TwelveHourMarkers} {l : LocalTime}

theorem marker_length (k : TwelveHourMarkers) (l : LocalTime) :
    (Letter.text k.toMarkers l .p).length = 2 := by
  rw [Letter.text]
  split
  · exact k.strAM_length
  · exact k.strPM_length

theorem text_length (k : TwelveHourMarkers) (l : LocalTime) (f : Letter) :
    (f.text k.toMarkers l).length = f.advance + 1 := by
  by_cases hf : f = .p
  · rw [hf]
    exact marker_length k l
  · obtain ⟨front, hfront, htext⟩ := text_last (l := l) k.toMarkers hf
    rw [htext, List.length_append, hfront, List.length_singleton]

theorem hour_text_length (k : TwelveHourMarkers) (l : LocalTime) : ∀ {fmt : List Piece},
    QuietPieces fmt → (wcsftime k.toMarkers l fmt).length = textLength fmt
  | [], _ => rfl
  | .literal c :: fmt, h => by
    have hnul := (h c List.mem_cons_self).2.1
    rw [wcsftime, textLength, if_neg hnul, if_neg hnul, List.length_cons,
      hour_text_length k l h.tail]
  | .directive f :: fmt, h => by
    rw [wcsftime, textLength, List.length_append, text_length, hour_text_length k l h.tail]

/-- Every piece writes something. -/
theorem textLength_pos {fmt : List Piece} (h : QuietPieces fmt) (hne : fmt ≠ []) :
    0 < textLength fmt := by
  rcases fmt with _ | ⟨c | f, fmt⟩
  · exact absurd rfl hne
  · rw [textLength, if_neg (h c List.mem_cons_self).2.1]
    omega
  · rw [textLength]
    omega

/-- **`%p` finds its marker** where the text goes on behind it. -/
theorem marked_marker {fmt : List Piece} (h : QuietPieces fmt) (tdone : Text) (marker : Text)
    (hmarker : marker.length = 2) :
    marked (tdone ++ (Letter.text k.toMarkers l .p ++ wcsftime k.toMarkers l fmt)) tdone.length
        marker =
      some (decide (fmt ≠ []) && wcsicmpEq (Letter.text k.toMarkers l .p) marker) := by
  have hlength := marker_length k l
  have hrest := hour_text_length k l h
  have hsub := substr_append tdone (Letter.text k.toMarkers l .p ++ wcsftime k.toMarkers l fmt) 2
  rw [← hlength, List.take_left, hlength] at hsub
  rw [marked, hmarker, List.length_append, List.length_append, hlength, hrest]
  by_cases hne : fmt = []
  · subst hne
    rw [if_neg (by rw [textLength]; omega)]
    rfl
  · have hpos := textLength_pos h hne
    rw [if_pos ⟨by omega, by omega⟩, hsub]
    simp [hne]

theorem read_store (hl : l.FourDigit) {f : Letter} {fmt : List Piece} (h : QuietPieces fmt)
    (tdone : Text) (tm : Tm) :
    f.read k.toMarkers (tdone ++ (f.text k.toMarkers l ++ wcsftime k.toMarkers l fmt))
      tdone.length tm = some (store k.toMarkers l f fmt tm) := by
  by_cases hf : f = .p
  · subst hf
    simp only [Letter.read, marked_marker h tdone _ k.strAM_length,
      marked_marker h tdone _ k.strPM_length, Option.bind_eq_bind, Option.bind_some, store, if_true,
      Bool.and_eq_true, decide_eq_true_eq]
  · have hread := read_directive hl hf tdone (wcsftime k.toMarkers l fmt) tm
    rw [store, if_neg hf, ← hread]
    cases f with
    | p => exact absurd rfl hf
    | Y | m | d | H | I | M | S => rfl

/-- No letter is taken. -/
theorem tests_quiet (dateTimeText : Text) {fdone : Text} {fmt : List Piece}
    (h : QuietPieces fmt) {c : Cursor} (hpos : c.nPos + 1 = fdone.length) : ∀ fs : List Letter,
    fs.foldlM (testLetter k.toMarkers dateTimeText (fdone ++ source fmt)) c = some c
  | [] => rfl
  | f :: fs => by
    have hnext : charAt (fdone ++ source fmt) (c.nPos + 1) = some ((source fmt).headD 0) := by
      rw [hpos]
      exact charAt_append fdone (source fmt)
    have hcell : ¬ (source fmt).headD 0 = f.char := by
      intro heq
      have hhead := (head_source fmt f).mp heq
      have hmem : .literal f.char ∈ fmt := List.mem_of_head? hhead
      exact (h _ hmem).2.2 f rfl
    have htest : testLetter k.toMarkers dateTimeText (fdone ++ source fmt) c f = some c := by
      simp only [testLetter, hnext, Option.bind_eq_bind, Option.bind_some, if_neg hcell]
    rw [List.foldlM_cons, htest]
    exact tests_quiet dateTimeText h hpos fs

/-- A round at a directive. -/
theorem parseLoop_store (hl : l.FourDigit) {f : Letter} {fmt : List Piece} (h : QuietPieces fmt)
    (fdone tdone : Text) (rounds : Nat) (tm : Tm) :
    parseLoop k.toMarkers (tdone ++ wcsftime k.toMarkers l (.directive f :: fmt))
        (fdone ++ source (.directive f :: fmt)) (rounds + 1) ⟨fdone.length, tdone.length, tm⟩ =
      parseLoop k.toMarkers (tdone ++ f.text k.toMarkers l ++ wcsftime k.toMarkers l fmt)
        (fdone ++ ['%'.toNat, f.char] ++ source fmt) rounds
        ⟨(fdone ++ ['%'.toNat, f.char]).length, (tdone ++ f.text k.toMarkers l).length,
          store k.toMarkers l f fmt tm⟩ := by
  have hsource : fdone ++ source (.directive f :: fmt) =
      fdone ++ '%'.toNat :: f.char :: source fmt := rfl
  have hsplit : fdone ++ '%'.toNat :: f.char :: source fmt =
      fdone ++ ['%'.toNat, f.char] ++ source fmt := by simp
  have hcell : (fdone ++ '%'.toNat :: f.char :: source fmt)[fdone.length]? = some '%'.toNat := by
    simp
  obtain ⟨before, hletters, hbefore⟩ := letters_split f
  have hnext := charAt_letter fdone f (source fmt)
  have hpos : fdone.length + 1 + 1 = (fdone ++ ['%'.toNat, f.char]).length := by simp
  have hlater := tests_quiet (k := k)
    (tdone ++ (f.text k.toMarkers l ++ wcsftime k.toMarkers l fmt)) h
    (c := ⟨fdone.length + 1, tdone.length + f.advance, store k.toMarkers l f fmt tm⟩) hpos f.later
  rw [← hsplit] at hlater
  have htests : letters.foldlM (testLetter k.toMarkers
      (tdone ++ (f.text k.toMarkers l ++ wcsftime k.toMarkers l fmt))
      (fdone ++ '%'.toNat :: f.char :: source fmt)) ⟨fdone.length, tdone.length, tm⟩ =
        some ⟨fdone.length + 1, tdone.length + f.advance, store k.toMarkers l f fmt tm⟩ := by
    rw [hletters, List.foldlM_append, tests_other hnext hbefore, Option.bind_eq_bind,
      Option.bind_some, List.foldlM_cons, testLetter, hnext]
    simp only [read_store hl h, Option.bind_eq_bind, Option.bind_some, if_true, hlater]
  rw [hsource, parseLoop, wcsftime]
  simp only [hcell, if_true, htests, Option.bind_eq_bind, Option.bind_some]
  rw [hsplit, List.append_assoc tdone, List.length_append, List.length_append, text_length]
  rfl

/-- **The loop reads the text of a 12-hour format.** -/
theorem parseLoop_hour (hl : l.FourDigit) : ∀ (rounds : Nat) (fmt : List Piece),
    (source fmt).length ≤ rounds → QuietPieces fmt → ∀ (fdone tdone : Text) (tm : Tm),
    parseLoop k.toMarkers (tdone ++ wcsftime k.toMarkers l fmt) (fdone ++ source fmt) rounds
      ⟨fdone.length, tdone.length, tm⟩ = some (readHour k.toMarkers l fmt tm) := by
  intro rounds
  induction rounds with
  | zero =>
    intro fmt hlen _ fdone tdone tm
    rw [eq_nil_of_source hlen]
    rfl
  | succ rounds ih =>
    intro fmt hlen h fdone tdone tm
    rcases fmt with _ | ⟨c | f, fmt⟩
    · simp [parseLoop, source, readHour]
    · have hshort := source_cons_length (.literal c) fmt
      obtain ⟨hc, hnul, -⟩ := h c List.mem_cons_self
      have hlen : (tdone ++ [c]).length = tdone.length + 1 := List.length_append
      have hrest := ih fmt (by omega) h.tail (fdone ++ [c]) (tdone ++ [c]) tm
      rw [List.append_assoc tdone, hlen] at hrest
      rw [parseLoop_literal _ _ fdone hc, wcsftime, if_neg hnul, readHour]
      exact hrest
    · have hshort := source_cons_length (.directive f) fmt
      rw [parseLoop_store hl h.tail, readHour]
      exact ih fmt (by omega) h.tail _ _ _

end Rounds

/-! ## The fields -/

section Fields

variable {k : Markers} {l : LocalTime}

/-- The directives of the fields that do not share theirs. -/
def Letter.Alone (f : Letter) : Prop := f.IsField ∧ f ≠ .H

theorem get_store {f g : Letter} (hf : f.Alone) (fmt : List Piece) (tm : Tm) :
    f.get (store k l g fmt tm) = if g = f then ((f.value l : Nat) : Int) else f.get tm := by
  by_cases hg : g = f
  · rw [if_pos hg, hg, store, if_neg hf.1.1, get_put_same hf.1]
  · rw [if_neg hg, store]
    split
    · have hother : ∀ hour : Int, f.get { tm with tm_hour := hour } = f.get tm := by
        intro hour
        rcases hf.1.cases with rfl | rfl | rfl | rfl | rfl | rfl
        all_goals first | rfl | exact absurd rfl hf.2
      split
      · exact hother _
      · rfl
    · exact get_put_other hf.1 hg (fun _ => hf.2) _ _

/-- The date, the minute and the second are read. -/
theorem get_readHour {f : Letter} (hf : f.Alone) : ∀ (fmt : List Piece) (tm : Tm),
    f.get (readHour k l fmt tm) = expected l fmt f tm
  | [], _ => rfl
  | .literal c :: fmt, tm => by
    rw [readHour, get_readHour hf fmt, expected_literal]
  | .directive g :: fmt, tm => by
    rw [readHour, get_readHour hf fmt]
    by_cases hmem : .directive f ∈ fmt
    · exact (expected_later hmem _ _).symm
    · rw [expected_last hmem, expected, if_neg hmem, get_store hf]

/-- What `%I` adds. -/
def added (l : LocalTime) (fmt : List Piece) : Int :=
  if .directive .I ∈ fmt then ((Letter.I.value l : Nat) : Int) else 0

/-- What `%p` adds. -/
def afternoon (k : Markers) (l : LocalTime) (fmt : List Piece) : Int :=
  if .directive .p ∈ fmt ∧ ¬ Trailing fmt ∧ wcsicmpEq (Letter.text k l .p) k.strPM = true then 12
  else 0

theorem trailing_cons {a : Piece} (ha : a ≠ .directive .p) (fmt : List Piece) :
    Trailing (a :: fmt) ↔ Trailing fmt := by
  unfold Trailing
  cases fmt with
  | nil => simpa using ha
  | cons b fmt => rw [List.getLast?_cons_cons]

/-- A piece other than `%p` and `%I`. -/
theorem afternoon_cons {a : Piece} (ha : a ≠ .directive .p) (fmt : List Piece) :
    afternoon k l (a :: fmt) = afternoon k l fmt := by
  have hmem : .directive .p ∈ a :: fmt ↔ .directive .p ∈ fmt := by
    rw [List.mem_cons]
    exact or_iff_right (Ne.symm ha)
  simp only [afternoon, hmem, trailing_cons ha]

theorem added_cons {a : Piece} (ha : a ≠ .directive .I) (fmt : List Piece) :
    added l (a :: fmt) = added l fmt := by
  have hmem : .directive .I ∈ a :: fmt ↔ .directive .I ∈ fmt := by
    rw [List.mem_cons]
    exact or_iff_right (Ne.symm ha)
  simp only [added, hmem]

/-- The directives of the hour stand once, and there is no `%H`. -/
structure Single (fmt : List Piece) : Prop where
  hour : .directive .H ∉ fmt
  twelve : fmt.count (.directive .I) ≤ 1
  marker : fmt.count (.directive .p) ≤ 1

theorem Single.tail {a : Piece} {fmt : List Piece} (h : Single (a :: fmt)) : Single fmt where
  hour := fun hmem => h.hour (List.mem_cons_of_mem a hmem)
  twelve := Nat.le_trans (List.count_le_count_cons ..) h.twelve
  marker := Nat.le_trans (List.count_le_count_cons ..) h.marker

theorem notMem_of_count {a : Piece} {fmt : List Piece} (h : (a :: fmt).count a ≤ 1) : a ∉ fmt := by
  rw [List.count_cons_self] at h
  exact List.count_eq_zero.mp (by omega)

/-- The only `%p` of a format is trailing if nothing is behind it. -/
theorem trailing_marker {fmt : List Piece} (hnone : .directive .p ∉ fmt) :
    Trailing (.directive .p :: fmt) ↔ fmt = [] := by
  constructor
  · intro ht
    by_contra hne
    rw [Trailing, List.getLast?_cons_of_ne_nil hne] at ht
    exact hnone (List.mem_of_getLast? ht)
  · rintro rfl
    rfl

/-- What a directive other than `%p` and `%H` adds to the hour. -/
theorem hour_store {f : Letter} (hp : f ≠ .p) (hH : f ≠ .H) (fmt : List Piece) (tm : Tm) :
    (store k l f fmt tm).tm_hour =
      tm.tm_hour + if f = .I then ((Letter.I.value l : Nat) : Int) else 0 := by
  rw [store, if_neg hp]
  cases f with
  | p => exact absurd rfl hp
  | H => exact absurd rfl hH
  | I => rfl
  | Y | m | d | M | S => exact (Int.add_zero _).symm

/-- **The hour is the number of `%I`, and twelve more in the afternoon.** -/
theorem hour_readHour : ∀ (fmt : List Piece) (tm : Tm), Single fmt →
    (readHour k l fmt tm).tm_hour = tm.tm_hour + added l fmt + afternoon k l fmt
  | [], tm, _ => by simp [readHour, added, afternoon]
  | .literal c :: fmt, tm, h => by
    rw [readHour, hour_readHour fmt tm h.tail, added_cons Piece.noConfusion,
      afternoon_cons Piece.noConfusion]
  | .directive f :: fmt, tm, h => by
    rw [readHour, hour_readHour fmt _ h.tail]
    by_cases hp : f = .p
    · subst hp
      have hnone : .directive .p ∉ fmt := notMem_of_count h.marker
      have hrest : afternoon k l fmt = 0 := if_neg fun h => hnone h.1
      rw [added_cons (by decide), hrest, store, if_pos rfl, afternoon]
      simp only [trailing_marker hnone, List.mem_cons_self, true_and]
      split
      · dsimp only
        omega
      · omega
    · have hH : f ≠ .H := by
        rintro rfl
        exact h.hour List.mem_cons_self
      have hne : Piece.directive f ≠ .directive .p := fun heq => hp (Piece.directive.inj heq)
      rw [hour_store hp hH, afternoon_cons hne]
      by_cases hI : f = .I
      · subst hI
        have hnone : .directive .I ∉ fmt := notMem_of_count h.twelve
        rw [if_pos rfl, added, added, if_neg hnone, if_pos List.mem_cons_self]
        omega
      · have hneI : Piece.directive f ≠ .directive .I := fun heq => hI (Piece.directive.inj heq)
        rw [if_neg hI, added_cons hneI, Int.add_zero]

end Fields

/-! ## What comes back -/

section Result

variable {k : TwelveHourMarkers} {l : LocalTime} {z : Zone} {t : Int}

theorem HourFormat.mem_iff (fmt : HourFormat) (f : Letter) :
    .directive f ∈ fmt.pieces ↔ f ≠ .H := by
  rw [← List.count_pos_iff, fmt.directive]
  split <;> simp_all

theorem HourFormat.single (fmt : HourFormat) : Single fmt.pieces where
  hour := fun hmem => (fmt.mem_iff .H).mp hmem rfl
  twelve := Nat.le_of_eq (fmt.directive .I)
  marker := Nat.le_of_eq (fmt.directive .p)

/-- The hour that is read. -/
def hourRead (k : Markers) (l : LocalTime) (fmt : List Piece) : Int :=
  ((Letter.I.value l : Nat) : Int) +
    if ¬ Trailing fmt ∧ wcsicmpEq (Letter.text k l .p) k.strPM = true then 12 else 0

theorem readHour_eq (fmt : HourFormat) (hl : l.FourDigit) :
    readHour k.toMarkers l fmt.pieces .initial =
      { l.tm with tm_hour := hourRead k.toMarkers l fmt.pieces } := by
  have hhour := hour_readHour (k := k.toMarkers) (l := l) fmt.pieces .initial fmt.single
  rw [added, if_pos ((fmt.mem_iff .I).mpr (by decide)), afternoon] at hhour
  simp only [(fmt.mem_iff .p).mpr (by decide), true_and] at hhour
  refine tm_ext fun f hf => ?_
  by_cases hH : f = .H
  · subst hH
    show (readHour k.toMarkers l fmt.pieces .initial).tm_hour = hourRead k.toMarkers l fmt.pieces
    rw [hhour, hourRead, show Tm.initial.tm_hour = 0 from rfl]
    omega
  · have hmem := (fmt.mem_iff f).mpr hH
    rw [get_readHour ⟨hf, hH⟩, expected, if_pos hmem, ← get_tm hl hf]
    rcases hf.cases with rfl | rfl | rfl | rfl | rfl | rfl
    all_goals first | rfl | exact absurd rfl hH

theorem wcsicmpEq_self (s : Text) : wcsicmpEq s s = true := beq_self_eq_true _

/-- **The hour is right exactly for the hours that come back.** -/
theorem hourRead_iff (k : Markers) (l : LocalTime) (fmt : List Piece) :
    hourRead k l fmt = l.hour ↔ HourKept k fmt l.hour := by
  have hlt := l.hour_lt
  rw [hourRead, HourKept, Letter.value, Letter.text]
  by_cases hlast : Trailing fmt
  · rw [if_pos hlast, if_neg fun h => h.1 hlast]
    omega
  · rw [if_neg hlast]
    by_cases hmorning : l.hour < 12
    · rw [if_pos hmorning]
      cases hmarkers : wcsicmpEq k.strAM k.strPM with
      | true =>
        rw [if_pos ⟨hlast, rfl⟩]
        simp only [Bool.true_eq_false, and_false, or_false]
        omega
      | false =>
        rw [if_neg fun h => absurd h.2 Bool.false_ne_true]
        simp only [and_true]
        omega
    · rw [if_neg hmorning, wcsicmpEq_self, if_pos ⟨hlast, rfl⟩]
      constructor
      · intro h
        exact .inl (by omega)
      · rintro (h | h)
        · omega
        · omega

/-- The seconds of a time with another hour. -/
theorem seconds_hour (tm : Tm) (hour : Int) :
    ({ tm with tm_hour := hour } : Tm).seconds = tm.seconds + (hour - tm.tm_hour) * 3600 := by
  rw [Tm.seconds, Tm.seconds]
  dsimp only
  omega

/-- The text that is read back comes from the time. -/
theorem time_hour (fmt : HourFormat) (hl : l.FourDigit) :
    GetTimeValueFromFormat z k.toMarkers (wcsftime k.toMarkers l fmt.pieces) (source fmt.pieces) =
      some (z.mktime { l.tm with tm_hour := hourRead k.toMarkers l fmt.pieces }) := by
  have hmem : .directive .Y ∈ fmt.pieces := (fmt.mem_iff .Y).mpr (by decide)
  have hne : wcsftime k.toMarkers l fmt.pieces ≠ [] := by
    intro hnil
    have hpos := textLength_pos fmt.literal (List.ne_nil_of_mem hmem)
    rw [← hour_text_length k l fmt.literal, hnil] at hpos
    exact absurd hpos (Nat.lt_irrefl 0)
  have hparse := parseLoop_hour (k := k) hl (source fmt.pieces).length fmt.pieces (Nat.le_refl _)
    fmt.literal [] [] .initial
  rw [List.nil_append, List.nil_append, readHour_eq fmt hl] at hparse
  rw [GetTimeValueFromFormat, if_neg (not_or.mpr ⟨hne, source_ne_nil hmem⟩)]
  exact congrArg (Option.map z.mktime) hparse

/-- **A time comes back from a 12-hour format exactly at the hours that are kept**; of a text that
does not fit the buffer the time zero comes back. -/
theorem hour_round_trip_iff (k : TwelveHourMarkers) (fmt : HourFormat)
    (hlocal : z.localtime t = some l) (hl : l.FourDigit) :
    GetTimeValueFromFormat z k.toMarkers (GetFormattedDateTimeText z k.toMarkers t fmt.pieces)
        (source fmt.pieces) = some t ↔
      if textLength fmt.pieces < 128 then HourKept k.toMarkers fmt.pieces l.hour else t = 0 := by
  have hlength := hour_text_length k l fmt.literal
  have htext : GetFormattedDateTimeText z k.toMarkers t fmt.pieces =
      if textLength fmt.pieces < 128 then wcsftime k.toMarkers l fmt.pieces else [] := by
    simp only [GetFormattedDateTimeText, hlocal, hlength]
  rw [htext]
  by_cases hfits : textLength fmt.pieces < 128
  · rw [if_pos hfits, if_pos hfits, time_hour fmt hl, ← hourRead_iff, Option.some.injEq]
    have hhour : l.tm.tm_hour = l.hour := rfl
    constructor
    · intro hback
      have hseconds := seconds_of_mktime hlocal hback
      rw [seconds_hour, hhour] at hseconds
      omega
    · intro heq
      rw [heq]
      exact (z.localtime_iff.mp hlocal).2
  · rw [if_neg hfits, if_neg hfits, GetTimeValueFromFormat, if_pos (.inl rfl), Option.some.injEq,
      eq_comm]

end Result

/-! ## Two formats -/

/-- The markers of the "C" locale. -/
def TwelveHourMarkers.C : TwelveHourMarkers where
  strAM := text "AM"
  strPM := text "PM"
  strAM_length := rfl
  strPM_length := rfl
  distinct := by decide

/-- `%Y-%m-%d %p %I:%M:%S` -/
def markerFirst : HourFormat where
  pieces := [.directive .Y, .literal '-'.toNat, .directive .m, .literal '-'.toNat, .directive .d,
    .literal ' '.toNat, .directive .p, .literal ' '.toNat, .directive .I, .literal ':'.toNat,
    .directive .M, .literal ':'.toNat, .directive .S]
  literal := by
    have hall : ∀ c ∈ [45, 32, 58], c ≠ '%'.toNat ∧ c ≠ 0 ∧
        ∀ f ∈ letters, c ≠ f.char := by decide
    intro c hc
    have hmem : c ∈ [45, 32, 58] := by
      simp only [List.mem_cons, Piece.literal.injEq, reduceCtorEq, List.not_mem_nil, or_false,
        false_or] at hc ⊢
      tauto
    obtain ⟨hpercent, hnul, hletter⟩ := hall c hmem
    refine ⟨hpercent, hnul, fun f => hletter f ?_⟩
    cases f <;> decide
  directive := by
    intro f
    cases f <;> decide

/-- 11:11:11 is kept. -/
theorem eleven_comes_back :
    GetTimeValueFromFormat utc TwelveHourMarkers.C.toMarkers
      (GetFormattedDateTimeText utc TwelveHourMarkers.C.toMarkers 1321009871 markerFirst.pieces)
      (source markerFirst.pieces) = some 1321009871 := by
  refine (hour_round_trip_iff (l := elevenTime) .C markerFirst (by decide +kernel)
    elevenTime_fourDigit).mpr ?_
  rw [if_pos (by decide)]
  exact .inr ⟨by decide, by decide, by decide⟩

/-- 00:11:11 comes back as 12:11:11. -/
theorem midnight_lost :
    ∃ l : LocalTime, utc.localtime 1320970271 = some l ∧ l.FourDigit ∧
      GetTimeValueFromFormat utc TwelveHourMarkers.C.toMarkers
          (GetFormattedDateTimeText utc TwelveHourMarkers.C.toMarkers 1320970271
            markerFirst.pieces)
          (source markerFirst.pieces) ≠ some 1320970271 := by
  refine ⟨{ elevenTime with hour := 0, hour_lt := by omega }, by decide +kernel,
    elevenTime_fourDigit, ?_⟩
  have hread : GetTimeValueFromFormat utc TwelveHourMarkers.C.toMarkers
      (GetFormattedDateTimeText utc TwelveHourMarkers.C.toMarkers 1320970271 markerFirst.pieces)
      (source markerFirst.pieces) = some 1321013471 := by decide +kernel
  rw [hread]
  decide

end IMonPlatform.DateTime
