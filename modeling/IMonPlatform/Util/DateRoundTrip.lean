import IMonPlatform.Util.DateTime

/-!
# Reading a formatted time back

A letter that stands behind a directive, and whose test comes after that of the directive, is taken
for a directive of its own.  What it stores is lost again if the field's own directive comes later.

* `DateFormat` — the six directives of a 24-hour format, each once, among literals.
* `harms`, `harmsHour` — a letter is taken for a directive whose own directive is not behind it;
  `I` adds to the hour.
* `get_readPieces`, `hour_readPieces`, `zero_readPieces` — what is left in a field.
* `date_round_trip_iff` — every time comes back exactly if no letter harms its field, and no directive
  stands behind a NUL.
-/

set_option autoImplicit false

namespace IMonPlatform.DateTime

open Format (CharT)
open Logger (Text)

/-! ## Formats -/

/-- Literals other than `%` and the directives of a 24-hour format, each exactly once. -/
structure DateFormat where
  pieces : List Piece
  literal : ∀ c, .literal c ∈ pieces → c ≠ '%'.toNat
  directive : ∀ f, pieces.count (.directive f) = if f = .p ∨ f = .I then 0 else 1

theorem DateFormat.mem_iff (fmt : DateFormat) (f : Letter) :
    .directive f ∈ fmt.pieces ↔ ¬ (f = .p ∨ f = .I) := by
  rw [← List.count_pos_iff, fmt.directive]
  split <;> simp_all

theorem DateFormat.plain (fmt : DateFormat) : Plain fmt.pieces :=
  ⟨fmt.literal, fun f hf hp => (fmt.mem_iff f).mp hf (.inl hp)⟩

/-- The cells of a formatted time with a four-digit year. -/
def textLength : List Piece → Nat
  | [] => 0
  | .literal c :: fmt => if c = 0 then 0 else textLength fmt + 1
  | .directive f :: fmt => f.advance + 1 + textLength fmt

theorem wcsftime_length (k : Markers) (l : LocalTime) : ∀ {fmt : List Piece}, Plain fmt →
    (wcsftime k l fmt).length = textLength fmt
  | [], _ => rfl
  | .literal c :: fmt, h => by
    rw [wcsftime, textLength]
    split
    · rfl
    · rw [List.length_cons, wcsftime_length k l h.tail]
  | .directive f :: fmt, h => by
    have hf := h.directive f List.mem_cons_self
    obtain ⟨front, hfront, htext⟩ := text_last (l := l) k hf
    rw [wcsftime, textLength, List.length_append, htext, List.length_append, hfront,
      List.length_singleton, wcsftime_length k l h.tail]

/-- Every time that the zone converts to a date with a four-digit year, and whose text fits the
buffer, comes back. -/
def RoundTrips (z : Zone) (fmt : List Piece) : Prop :=
  ∀ t l, z.localtime t = some l → l.FourDigit → (wcsftime .C l fmt).length < 128 →
    GetTimeValueFromFormat z .C (GetFormattedDateTimeText z .C t fmt) (source fmt) = some t

/-- A letter is taken for the directive `f`, and `%f` does not come later. -/
def harms (f : Letter) : List Piece → Prop
  | [] => False
  | .literal _ :: fmt => harms f fmt
  | .directive g :: fmt => f ∈ taken g.later fmt ∧ .directive f ∉ fmt ∨ harms f fmt

/-- An `I` stands right behind a directive, and `%H` does not come later. -/
def harmsHour : List Piece → Prop
  | [] => False
  | .literal _ :: fmt => harmsHour fmt
  | .directive g :: fmt =>
    (taken g.later fmt).head? = some .I ∧ .directive .H ∉ fmt ∨ harmsHour fmt

structure Safe (fmt : List Piece) : Prop where
  field : ∀ f ∈ [Letter.m, .d, .H, .M, .S], ¬ harms f fmt
  hour : ¬ harmsHour fmt

/-! ## Fields -/

/-- The number in the field of a directive. -/
def Letter.get (tm : Tm) : Letter → Int
  | .Y => tm.tm_year + 1900
  | .m => tm.tm_mon + 1
  | .d => tm.tm_mday
  | .H => tm.tm_hour
  | .p => 0
  | .I => tm.tm_hour
  | .M => tm.tm_min
  | .S => tm.tm_sec

/-- The directives of a 24-hour format. -/
def Letter.IsField (f : Letter) : Prop := f ≠ .p ∧ f ≠ .I

instance (f : Letter) : Decidable f.IsField := inferInstanceAs (Decidable (_ ∧ _))

theorem Letter.IsField.cases {f : Letter} (hf : f.IsField) :
    f = .Y ∨ f = .m ∨ f = .d ∨ f = .H ∨ f = .M ∨ f = .S := by
  obtain ⟨hp, hI⟩ := hf
  cases f <;> simp_all

theorem get_put_same {f : Letter} (hf : f.IsField) (x : Int) (tm : Tm) :
    f.get (f.put x tm) = x := by
  rcases hf.cases with rfl | rfl | rfl | rfl | rfl | rfl
  · show x - 1900 + 1900 = x
    omega
  · show x - 1 + 1 = x
    omega
  all_goals rfl

theorem get_put_other {f g : Letter} (hf : f.IsField) (hne : g ≠ f) (hI : g = .I → f ≠ .H)
    (x : Int) (tm : Tm) : f.get (g.put x tm) = f.get tm := by
  rcases hf.cases with rfl | rfl | rfl | rfl | rfl | rfl
  all_goals cases g <;> first | rfl | exact absurd rfl hne | exact absurd rfl (hI rfl)

theorem hour_put (x : Int) (tm : Tm) : Letter.H.get (Letter.I.put x tm) = Letter.H.get tm + x := rfl

theorem Letter.H_isField : Letter.IsField .H := by decide

/-! ## The letters that are taken -/

section Taken

variable {f : Letter}

/-- A field whose letter is not taken. -/
theorem get_misread (hf : f.IsField) (hH : f ≠ .H) : ∀ (fs : List Letter) (fmt : List Piece)
    (x : Int) (tm : Tm), f ∉ taken fs fmt → f.get (misread x fs fmt tm) = f.get tm
  | [], _, _, _, _ => rfl
  | g :: fs, fmt, x, tm, h => by
    rw [taken] at h
    rw [misread]
    split
    · rename_i hhead
      rw [if_pos hhead, List.mem_cons, not_or] at h
      rw [get_misread hf hH fs fmt.tail 0 _ h.2,
        get_put_other hf (Ne.symm h.1) (fun _ => hH)]
    · rename_i hhead
      rw [if_neg hhead] at h
      exact get_misread hf hH fs fmt x tm h

/-- The hour, to which an `I` adds the digit in front of it. -/
theorem hour_misread : ∀ (fs : List Letter) (fmt : List Piece) (x : Int) (tm : Tm),
    .H ∉ taken fs fmt →
    Letter.H.get (misread x fs fmt tm) =
      Letter.H.get tm + if (taken fs fmt).head? = some .I then x else 0
  | [], _, _, tm, _ => (Int.add_zero (Letter.H.get tm)).symm
  | g :: fs, fmt, x, tm, h => by
    rw [taken] at h ⊢
    rw [misread]
    by_cases hhead : fmt.head? = some (.literal g.char)
    · rw [if_pos hhead, List.mem_cons, not_or] at h
      rw [if_pos hhead, if_pos hhead, hour_misread fs fmt.tail 0 _ h.2, ite_self, List.head?_cons]
      by_cases hg : g = .I
      · rw [hg, hour_put, if_pos rfl, Int.add_zero]
      · rw [get_put_other Letter.H_isField (Ne.symm h.1) (fun hI => absurd hI hg),
          if_neg (fun heq => hg (Option.some.inj heq))]
    · rw [if_neg hhead] at h
      rw [if_neg hhead, if_neg hhead]
      exact hour_misread fs fmt x tm h

/-- Where all that is read is zero, the fields of the letters are. -/
theorem zero_misread (hf : f.IsField) : ∀ (fs : List Letter) (fmt : List Piece) (tm : Tm),
    f.get (misread 0 fs fmt tm) = if f ∈ taken fs fmt then 0 else f.get tm
  | [], _, _ => rfl
  | g :: fs, fmt, tm => by
    rw [taken, misread]
    by_cases hhead : fmt.head? = some (.literal g.char)
    · rw [if_pos hhead, if_pos hhead, zero_misread hf fs fmt.tail]
      by_cases hg : g = f
      · rw [hg, get_put_same hf, ite_self, if_pos List.mem_cons_self]
      · have hput : f.get (g.put 0 tm) = f.get tm := by
          by_cases hI : g = .I ∧ f = .H
          · rw [hI.1, hI.2, hour_put, Int.add_zero]
          · exact get_put_other hf hg (fun h h' => hI ⟨h, h'⟩) 0 tm
        have hmem : f ∈ g :: taken fs fmt.tail ↔ f ∈ taken fs fmt.tail := by
          rw [List.mem_cons]
          exact or_iff_right (Ne.symm hg)
        simp only [hput, hmem]
    · rw [if_neg hhead, if_neg hhead]
      exact zero_misread hf fs fmt tm

theorem taken_subset : ∀ (fs : List Letter) (fmt : List Piece), ∀ g ∈ taken fs fmt, g ∈ fs
  | [], _, _, h => h
  | f :: fs, fmt, g, h => by
    rw [taken] at h
    split at h
    · rcases List.mem_cons.mp h with rfl | h
      · exact List.mem_cons_self
      · exact List.mem_cons_of_mem f (taken_subset fs fmt.tail g h)
    · exact List.mem_cons_of_mem f (taken_subset fs fmt g h)

/-- A `Y` is never taken. -/
theorem Y_not_harms : ∀ fmt : List Piece, ¬ harms .Y fmt
  | [] => id
  | .literal _ :: fmt => Y_not_harms fmt
  | .directive g :: fmt => by
    rintro (⟨hmem, -⟩ | h)
    · exact Y_notMem_later g (taken_subset _ _ _ hmem)
    · exact Y_not_harms fmt h

end Taken

/-! ## What is left of a format -/

section Fields

variable {l : LocalTime} {f : Letter}

/-- The number of a field that is read, if its directive comes, and is as before otherwise. -/
def expected (l : LocalTime) (fmt : List Piece) (f : Letter) (tm : Tm) : Int :=
  if .directive f ∈ fmt then ((f.value l : Nat) : Int) else f.get tm

theorem expected_literal (c : CharT) (fmt : List Piece) (tm : Tm) :
    expected l (.literal c :: fmt) f tm = expected l fmt f tm := by
  simp [expected]

/-- The directive in front of a format without the field's own. -/
theorem expected_last {g : Letter} {fmt : List Piece} (h : .directive f ∉ fmt) (tm : Tm) :
    expected l (.directive g :: fmt) f tm = if g = f then ((f.value l : Nat) : Int) else f.get tm := by
  have hmem : .directive f ∈ Piece.directive g :: fmt ↔ g = f := by
    rw [List.mem_cons, or_iff_left h, Piece.directive.injEq, eq_comm]
  simp only [expected, hmem]

theorem expected_later {g : Letter} {fmt : List Piece} (h : .directive f ∈ fmt) (tm tm' : Tm) :
    expected l (.directive g :: fmt) f tm = expected l fmt f tm' := by
  rw [expected, expected, if_pos (List.mem_cons_of_mem _ h), if_pos h]

/-- What a directive has stored, in front of a format without the field's own. -/
theorem get_put_value (hf : f.IsField) {g : Letter} (hI : g ≠ .I) (tm : Tm) :
    f.get (g.put ((g.value l : Nat) : Int) tm) =
      if g = f then ((f.value l : Nat) : Int) else f.get tm := by
  by_cases hg : g = f
  · rw [if_pos hg, hg, get_put_same hf]
  · rw [if_neg hg, get_put_other hf hg (fun h => absurd h hI)]

/-- `%I` does not occur. -/
def NoI (fmt : List Piece) : Prop := .directive .I ∉ fmt

theorem NoI.tail {a : Piece} {fmt : List Piece} (h : NoI (a :: fmt)) : NoI fmt :=
  fun hmem => h (List.mem_cons_of_mem a hmem)

theorem NoI.head {g : Letter} {fmt : List Piece} (h : NoI (.directive g :: fmt)) : g ≠ .I := by
  rintro rfl
  exact h List.mem_cons_self

/-- **A field that no letter harms holds its number.** -/
theorem get_readPieces (hf : f.IsField) (hH : f ≠ .H) : ∀ (fmt : List Piece) (tm : Tm),
    NoI fmt → ¬ harms f fmt → f.get (readPieces l fmt tm) = expected l fmt f tm
  | [], _, _, _ => rfl
  | .literal c :: fmt, tm, hno, h => by
    rw [expected_literal]
    exact get_readPieces hf hH fmt tm hno.tail h
  | .directive g :: fmt, tm, hno, h => by
    rw [harms, not_or] at h
    rw [readPieces, get_readPieces hf hH fmt _ hno.tail h.2]
    by_cases hmem : .directive f ∈ fmt
    · exact (expected_later hmem _ _).symm
    · have htaken : f ∉ taken g.later fmt := fun ht => h.1 ⟨ht, hmem⟩
      rw [expected_last hmem, expected, if_neg hmem, get_misread hf hH _ _ _ _ htaken,
        get_put_value hf hno.head]

/-- **An `H` that is not harmed by its letter** holds the hour and what an `I` has added. -/
theorem hour_readPieces : ∀ (fmt : List Piece) (tm : Tm), NoI fmt → ¬ harms .H fmt →
    ∃ extra : Int, 0 ≤ extra ∧
      Letter.H.get (readPieces l fmt tm) = expected l fmt .H tm + extra ∧
      (¬ harmsHour fmt → extra = 0) ∧
      (harmsHour fmt → (∀ g, .directive g ∈ fmt → 0 < g.value l % 10) → 0 < extra)
  | [], tm, _, _ =>
    ⟨0, Int.le_refl 0, (Int.add_zero (Letter.H.get tm)).symm, fun _ => rfl, fun h => h.elim⟩
  | .literal c :: fmt, tm, hno, h => by
    obtain ⟨extra, hpos, heq, hzero, hmore⟩ := hour_readPieces fmt tm hno.tail h
    refine ⟨extra, hpos, ?_, hzero, fun hhour hdigit => hmore hhour fun g hg => ?_⟩
    · rw [expected_literal]
      exact heq
    · exact hdigit g (List.mem_cons_of_mem _ hg)
  | .directive g :: fmt, tm, hno, h => by
    rw [harms, not_or] at h
    obtain ⟨extra, hpos, heq, hzero, hmore⟩ := hour_readPieces fmt
      (misread ((g.value l % 10 : Nat) : Int) g.later fmt (g.put ((g.value l : Nat) : Int) tm))
      hno.tail h.2
    rw [readPieces, heq]
    by_cases hmem : .directive .H ∈ fmt
    · refine ⟨extra, hpos, ?_, fun hhour => hzero fun h' => hhour (.inr h'), ?_⟩
      · rw [expected_later hmem]
      · rintro (⟨-, hnot⟩ | hhour) hdigit
        · exact absurd hmem hnot
        · exact hmore hhour fun g' hg => hdigit g' (List.mem_cons_of_mem _ hg)
    · have htaken : .H ∉ taken g.later fmt := fun ht => h.1 ⟨ht, hmem⟩
      have hexpected : expected l fmt .H
          (misread ((g.value l % 10 : Nat) : Int) g.later fmt (g.put ((g.value l : Nat) : Int) tm)) =
          expected l (.directive g :: fmt) .H tm +
            if (taken g.later fmt).head? = some .I then ((g.value l % 10 : Nat) : Int) else 0 := by
        rw [expected_last hmem, expected, if_neg hmem, hour_misread _ _ _ _ htaken,
          get_put_value Letter.H_isField hno.head]
      rw [hexpected]
      refine ⟨(if (taken g.later fmt).head? = some .I then ((g.value l % 10 : Nat) : Int) else 0) +
        extra, ?_, Int.add_assoc _ _ _, ?_, ?_⟩
      · split <;> omega
      · intro hhour
        rw [harmsHour, not_or] at hhour
        rw [if_neg fun hI => hhour.1 ⟨hI, hmem⟩, hzero hhour.2, Int.add_zero]
      · rintro (⟨hI, -⟩ | hhour) hdigit
        · have hd := hdigit g List.mem_cons_self
          rw [if_pos hI]
          omega
        · have hextra := hmore hhour fun g' hg => hdigit g' (List.mem_cons_of_mem _ hg)
          split <;> omega

/-- **Where every number ends with a zero**, a field that a letter harms is zero. -/
theorem zero_readPieces (hf : f.IsField) : ∀ (fmt : List Piece) (tm : Tm), NoI fmt →
    (∀ g, .directive g ∈ fmt → g.value l % 10 = 0) →
    (harms f fmt → f.get (readPieces l fmt tm) = 0) ∧
      (¬ harms f fmt → f.get (readPieces l fmt tm) = expected l fmt f tm)
  | [], _, _, _ => ⟨fun h => h.elim, fun _ => rfl⟩
  | .literal c :: fmt, tm, hno, hdigit => by
    obtain ⟨hharm, hsafe⟩ := zero_readPieces hf fmt tm hno.tail
      fun g hg => hdigit g (List.mem_cons_of_mem _ hg)
    refine ⟨hharm, fun h => ?_⟩
    rw [expected_literal]
    exact hsafe h
  | .directive g :: fmt, tm, hno, hdigit => by
    obtain ⟨hharm, hsafe⟩ := zero_readPieces hf fmt
      (misread ((g.value l % 10 : Nat) : Int) g.later fmt (g.put ((g.value l : Nat) : Int) tm))
      hno.tail fun g' hg => hdigit g' (List.mem_cons_of_mem _ hg)
    have hzero : ((g.value l % 10 : Nat) : Int) = 0 := by rw [hdigit g List.mem_cons_self]; rfl
    rw [readPieces]
    by_cases hrest : harms f fmt
    · exact ⟨fun _ => hharm hrest, fun h => absurd (.inr hrest) h⟩
    · rw [hsafe hrest]
      by_cases hmem : .directive f ∈ fmt
      · refine ⟨?_, fun _ => (expected_later hmem _ _).symm⟩
        rintro (⟨-, hnot⟩ | h)
        · exact absurd hmem hnot
        · exact absurd h hrest
      · rw [expected_last hmem, expected, if_neg hmem, hzero, zero_misread hf,
          get_put_value hf hno.head]
        constructor
        · rintro (⟨htaken, -⟩ | h)
          · rw [if_pos htaken]
          · exact absurd h hrest
        · intro h
          rw [if_neg fun htaken => h (.inl ⟨htaken, hmem⟩)]

end Fields

/-! ## What comes back -/

section Result

variable {z : Zone} {t : Int} {l : LocalTime} {tm : Tm}

theorem tm_ext {a b : Tm} (h : ∀ f : Letter, f.IsField → f.get a = f.get b) : a = b := by
  have hY : a.tm_year + 1900 = b.tm_year + 1900 := h .Y (by decide)
  have hm : a.tm_mon + 1 = b.tm_mon + 1 := h .m (by decide)
  have hd : a.tm_mday = b.tm_mday := h .d (by decide)
  have hH : a.tm_hour = b.tm_hour := h .H (by decide)
  have hM : a.tm_min = b.tm_min := h .M (by decide)
  have hS : a.tm_sec = b.tm_sec := h .S (by decide)
  have hyear : a.tm_year = b.tm_year := by omega
  have hmon : a.tm_mon = b.tm_mon := by omega
  obtain ⟨year, mon, mday, hour, min, sec⟩ := a
  rw [Tm.mk.injEq]
  exact ⟨hyear, hmon, hd, hH, hM, hS⟩

theorem get_tm (hl : l.FourDigit) {f : Letter} (hf : f.IsField) :
    f.get l.tm = ((f.value l : Nat) : Int) := by
  unfold LocalTime.FourDigit at hl
  rcases hf.cases with rfl | rfl | rfl | rfl | rfl | rfl
  · show l.date.year - 1900 + 1900 = (l.date.year.toNat : Int)
    omega
  all_goals rfl

/-- Only the seconds of the local time give its time back. -/
theorem seconds_of_mktime (hlocal : z.localtime t = some l) (h : z.mktime tm = t) :
    tm.seconds = l.tm.seconds := by
  obtain ⟨hpos, ht⟩ := z.localtime_iff.mp hlocal
  unfold Zone.mktime at h ht
  split at h
  · split at ht
    · omega
    · omega
  · omega

theorem expected_field (fmt : DateFormat) {f : Letter} (hf : f.IsField) (tm : Tm) :
    expected l fmt.pieces f tm = ((f.value l : Nat) : Int) :=
  if_pos ((fmt.mem_iff f).mpr (not_or.mpr hf))

theorem DateFormat.noI (fmt : DateFormat) : NoI fmt.pieces :=
  fun h => (fmt.mem_iff .I).mp h (.inr rfl)

/-- The year is never harmed. -/
theorem not_harms_field {fmt : List Piece} (h : ∀ f ∈ [Letter.m, .d, .H, .M, .S], ¬ harms f fmt)
    {f : Letter} (hf : f.IsField) : ¬ harms f fmt := by
  rcases hf.cases with rfl | rfl | rfl | rfl | rfl | rfl
  · exact Y_not_harms fmt
  all_goals exact h _ (by decide)

/-- **A safe format is read back.** -/
theorem readPieces_safe (fmt : DateFormat) (hsafe : Safe fmt.pieces) (hl : l.FourDigit) (tm : Tm) :
    readPieces l fmt.pieces tm = l.tm := by
  refine tm_ext fun f hf => ?_
  rw [get_tm hl hf, ← expected_field fmt hf tm]
  by_cases hH : f = .H
  · obtain ⟨extra, -, heq, hzero, -⟩ :=
      hour_readPieces (l := l) fmt.pieces tm fmt.noI (hsafe.field .H (by decide))
    rw [hH, heq, hzero hsafe.hour, Int.add_zero]
  · exact get_readPieces hf hH fmt.pieces tm fmt.noI (not_harms_field hsafe.field hf)

/-- The text of a format with a directive in front of every NUL is not empty. -/
theorem wcsftime_ne_nil {fmt : List Piece} (hplain : Plain fmt) (hvisible : Visible fmt)
    {f : Letter} (hmem : .directive f ∈ fmt) : wcsftime .C l fmt ≠ [] := by
  rcases fmt with _ | ⟨c | g, fmt⟩
  · cases hmem
  · rw [Visible] at hvisible
    rw [wcsftime]
    split at hvisible
    · exact absurd (by simpa using hmem) (hvisible f)
    · rename_i hnul
      rw [if_neg hnul]
      exact List.cons_ne_nil _ _
  · obtain ⟨front, -, htext⟩ := text_last (l := l) .C (hplain.directive g List.mem_cons_self)
    rw [wcsftime, htext]
    simp

theorem source_ne_nil {fmt : List Piece} {f : Letter} (hmem : .directive f ∈ fmt) :
    source fmt ≠ [] := by
  intro hnil
  rw [eq_nil_of_source (Nat.le_of_eq (congrArg List.length hnil))] at hmem
  cases hmem

/-- The text that is read back. -/
theorem formatted_eq (hlocal : z.localtime t = some l) {fmt : List Piece}
    (hfits : (wcsftime .C l fmt).length < 128) :
    GetFormattedDateTimeText z .C t fmt = wcsftime .C l fmt := by
  simp only [GetFormattedDateTimeText, hlocal, if_pos hfits]

/-- What comes back of a format in which no directive stands behind a NUL. -/
theorem time_visible (fmt : DateFormat) (hvisible : Visible fmt.pieces) (hl : l.FourDigit) :
    GetTimeValueFromFormat z .C (wcsftime .C l fmt.pieces) (source fmt.pieces) =
      some (z.mktime (readPieces l fmt.pieces .initial)) := by
  have hmem : .directive .Y ∈ fmt.pieces := (fmt.mem_iff .Y).mpr (by decide)
  have hne := wcsftime_ne_nil (l := l) fmt.plain hvisible hmem
  have hparse := parseLoop_pieces hl (source fmt.pieces).length fmt.pieces (Nat.le_refl _)
    fmt.plain hvisible [] [] .initial
  rw [List.nil_append, List.nil_append] at hparse
  rw [GetTimeValueFromFormat, if_neg (not_or.mpr ⟨hne, source_ne_nil hmem⟩)]
  exact congrArg (Option.map z.mktime) hparse

/-- Of any other format nothing but a zero comes back. -/
theorem time_hidden (fmt : DateFormat) (hhidden : ¬ Visible fmt.pieces) (hl : l.FourDigit)
    (ht : t ≠ 0) :
    GetTimeValueFromFormat z .C (wcsftime .C l fmt.pieces) (source fmt.pieces) ≠ some t := by
  have hparse := parseLoop_hidden hl (source fmt.pieces).length fmt.pieces (Nat.le_refl _)
    fmt.plain hhidden [] [] .initial
  rw [List.nil_append, List.nil_append] at hparse
  unfold GetTimeValueFromFormat
  split
  · intro heq
    exact ht (Option.some.inj heq).symm
  · rw [show parseLoop _ _ _ _ ⟨0, 0, _⟩ = none from hparse]
    exact nofun

/-- **A format without the defects gives every time back.** -/
theorem safe_round_trips (fmt : DateFormat) (hvisible : Visible fmt.pieces)
    (hsafe : Safe fmt.pieces) : RoundTrips z fmt.pieces := by
  intro t l hlocal hl hfits
  rw [formatted_eq hlocal hfits, time_visible fmt hvisible hl, readPieces_safe fmt hsafe hl]
  exact congrArg some (z.localtime_iff.mp hlocal).2

end Result

/-! ## Two times -/

/-- 30 October 2010, 20:50:50: every number ends with a zero. -/
def roundTime : LocalTime where
  date := ⟨2010, 9, 30, by decide, by decide, by decide⟩
  hour := 20
  min := 50
  sec := 50
  hour_lt := by decide
  min_lt := by decide
  sec_lt := by decide

/-- 11 November 2011, 11:11:11: every number ends with a one. -/
def elevenTime : LocalTime where
  date := ⟨2011, 10, 11, by decide, by decide, by decide⟩
  hour := 11
  min := 11
  sec := 11
  hour_lt := by decide
  min_lt := by decide
  sec_lt := by decide

theorem roundTime_seconds : roundTime.tm.seconds = EPOCH + 1288471850 := by decide

theorem elevenTime_seconds : elevenTime.tm.seconds = EPOCH + 1321009871 := by decide

theorem roundTime_digits {f : Letter} (hf : f.IsField) : f.value roundTime % 10 = 0 := by
  rcases hf.cases with rfl | rfl | rfl | rfl | rfl | rfl
  all_goals rfl

theorem elevenTime_digits {f : Letter} (hf : f.IsField) : 0 < f.value elevenTime % 10 := by
  rcases hf.cases with rfl | rfl | rfl | rfl | rfl | rfl
  all_goals decide

section Converse

variable {z : Zone} {fmt : DateFormat}

/-- Both times are converted in every zone. -/
theorem sample_local (z : Zone) {l : LocalTime} (hlow : EPOCH + 86400 < l.tm.seconds)
    (hhigh : l.tm.seconds + 86400 ≤ EPOCH + 2 ^ 32) : ∃ t, t ≠ 0 ∧ z.localtime t = some l := by
  have hzone := z.timezone_day
  have hlast := z.last_ge
  refine ⟨l.tm.seconds - EPOCH + z.timezone, by omega, z.localtime_iff.mpr ⟨by omega, ?_⟩⟩
  exact if_pos ⟨by omega, by omega⟩

theorem roundTime_local (z : Zone) : ∃ t, t ≠ 0 ∧ z.localtime t = some roundTime := by
  apply sample_local z
  · rw [roundTime_seconds]
    omega
  · rw [roundTime_seconds]
    omega

theorem elevenTime_local (z : Zone) : ∃ t, t ≠ 0 ∧ z.localtime t = some elevenTime := by
  apply sample_local z
  · rw [elevenTime_seconds]
    omega
  · rw [elevenTime_seconds]
    omega

theorem roundTime_fourDigit : roundTime.FourDigit := ⟨by decide, by decide⟩

theorem elevenTime_fourDigit : elevenTime.FourDigit := ⟨by decide, by decide⟩

theorem visible_of_round_trips (hfits : textLength fmt.pieces < 128)
    (h : RoundTrips z fmt.pieces) : Visible fmt.pieces := by
  by_contra hhidden
  obtain ⟨t, ht, hlocal⟩ := roundTime_local z
  have hshort : (wcsftime .C roundTime fmt.pieces).length < 128 := by
    rw [wcsftime_length .C roundTime fmt.plain]
    exact hfits
  have hback := h t roundTime hlocal roundTime_fourDigit hshort
  rw [formatted_eq hlocal hshort] at hback
  exact time_hidden fmt hhidden roundTime_fourDigit ht hback

/-- The seconds that are read are those of the time. -/
theorem seconds_of_round_trips (hfits : textLength fmt.pieces < 128)
    (h : RoundTrips z fmt.pieces) {t : Int} {l : LocalTime} (hlocal : z.localtime t = some l)
    (hl : l.FourDigit) : (readPieces l fmt.pieces .initial).seconds = l.tm.seconds := by
  have hshort : (wcsftime .C l fmt.pieces).length < 128 := by
    rw [wcsftime_length .C l fmt.plain]
    exact hfits
  have hback := h t l hlocal hl hshort
  rw [formatted_eq hlocal hshort, time_visible fmt (visible_of_round_trips hfits h) hl] at hback
  exact seconds_of_mktime hlocal (Option.some.inj hback)

theorem dayCount_mday (year mon mday : Int) :
    dayCount year mon mday = dayCount year mon 1 + (mday - 1) := by
  unfold dayCount
  omega

/-- A field that is zero makes a time too early. -/
theorem field_of_seconds (hseconds : (readPieces roundTime fmt.pieces .initial).seconds =
    roundTime.tm.seconds) : ∀ f ∈ [Letter.m, .d, .H, .M, .S], ¬ harms f fmt.pieces := by
  have hdigit : ∀ g, .directive g ∈ fmt.pieces → g.value roundTime % 10 = 0 := fun g hg =>
    roundTime_digits (not_or.mp ((fmt.mem_iff g).mp hg))
  have hzero : ∀ f : Letter, f.IsField → harms f fmt.pieces →
      f.get (readPieces roundTime fmt.pieces .initial) = 0 := fun f hf =>
    (zero_readPieces hf fmt.pieces .initial fmt.noI hdigit).1
  have hread : ∀ f : Letter, f.IsField → f.get (readPieces roundTime fmt.pieces .initial) = 0 ∨
      f.get (readPieces roundTime fmt.pieces .initial) = ((f.value roundTime : Nat) : Int) := by
    intro f hf
    by_cases h : harms f fmt.pieces
    · exact .inl (hzero f hf h)
    · have hsafe := (zero_readPieces hf fmt.pieces .initial fmt.noI hdigit).2 h
      exact .inr (hsafe.trans (expected_field fmt hf .initial))
  have hY : (readPieces roundTime fmt.pieces .initial).tm_year + 1900 = 2010 :=
    (get_readPieces (by decide) (by decide) fmt.pieces .initial fmt.noI
      (Y_not_harms fmt.pieces)).trans (expected_field fmt (by decide) .initial)
  generalize readPieces roundTime fmt.pieces .initial = tm at hseconds hzero hread hY
  have hm : tm.tm_mon + 1 = 0 ∨ tm.tm_mon + 1 = 10 := hread .m (by decide)
  have hd : tm.tm_mday = 0 ∨ tm.tm_mday = 30 := hread .d (by decide)
  have hH : tm.tm_hour = 0 ∨ tm.tm_hour = 20 := hread .H (by decide)
  have hM : tm.tm_min = 0 ∨ tm.tm_min = 50 := hread .M (by decide)
  have hS : tm.tm_sec = 0 ∨ tm.tm_sec = 50 := hread .S (by decide)
  -- with a zero for the month the days are counted from 1 December 2009
  have hdays : tm.tm_mon + 1 = 0 ∧ dayCount 2010 tm.tm_mon 1 = 733741 ∨
      tm.tm_mon + 1 = 10 ∧ dayCount 2010 tm.tm_mon 1 = 734045 := by
    rcases hm with hmon | hmon
    · exact .inl ⟨hmon, by rw [show tm.tm_mon = -1 by omega]; decide⟩
    · exact .inr ⟨hmon, by rw [show tm.tm_mon = 9 by omega]; decide⟩
  rw [roundTime_seconds, Tm.seconds, hY, dayCount_mday, EPOCH] at hseconds
  intro f hf hharms
  simp only [List.mem_cons, List.not_mem_nil, or_false] at hf
  rcases hf with rfl | rfl | rfl | rfl | rfl
  · have : tm.tm_mon + 1 = 0 := hzero .m (by decide) hharms
    omega
  · have : tm.tm_mday = 0 := hzero .d (by decide) hharms
    omega
  · have : tm.tm_hour = 0 := hzero .H (by decide) hharms
    omega
  · have : tm.tm_min = 0 := hzero .M (by decide) hharms
    omega
  · have : tm.tm_sec = 0 := hzero .S (by decide) hharms
    omega

/-- An hour with a digit added to it makes a time too late. -/
theorem hour_of_seconds (hfield : ∀ f ∈ [Letter.m, .d, .H, .M, .S], ¬ harms f fmt.pieces)
    (hseconds : (readPieces elevenTime fmt.pieces .initial).seconds = elevenTime.tm.seconds) :
    ¬ harmsHour fmt.pieces := by
  intro hhour
  have hread : ∀ f : Letter, f.IsField → f ≠ .H →
      f.get (readPieces elevenTime fmt.pieces .initial) = f.get elevenTime.tm := by
    intro f hf hH
    rw [get_tm elevenTime_fourDigit hf, ← expected_field fmt hf .initial]
    exact get_readPieces hf hH fmt.pieces .initial fmt.noI (not_harms_field hfield hf)
  obtain ⟨extra, -, heq, -, hmore⟩ :=
    hour_readPieces (l := elevenTime) fmt.pieces .initial fmt.noI (hfield .H (by decide))
  have hpos : 0 < extra := hmore hhour fun g hg =>
    elevenTime_digits (not_or.mp ((fmt.mem_iff g).mp hg))
  rw [expected_field fmt Letter.H_isField] at heq
  generalize readPieces elevenTime fmt.pieces .initial = tm at hseconds hread heq
  have htm : tm = { elevenTime.tm with tm_hour := 11 + extra } := by
    refine tm_ext fun f hf => ?_
    by_cases hH : f = .H
    · rw [hH, heq]
      rfl
    · rw [hread f hf hH]
      rcases hf.cases with rfl | rfl | rfl | rfl | rfl | rfl
      all_goals first | rfl | exact absurd rfl hH
  rw [htm, Tm.seconds, Tm.seconds] at hseconds
  have hhour' : elevenTime.tm.tm_hour = 11 := rfl
  rw [hhour'] at hseconds
  dsimp only at hseconds
  omega

/-- **A time comes back from every format without the defects, and from no other.** -/
theorem date_round_trip_iff (z : Zone) (fmt : DateFormat) : RoundTrips z fmt.pieces ↔
    (textLength fmt.pieces < 128 → Visible fmt.pieces ∧ Safe fmt.pieces) := by
  constructor
  · intro h hfits
    obtain ⟨t, -, hround⟩ := roundTime_local z
    obtain ⟨t', -, heleven⟩ := elevenTime_local z
    have hfield := field_of_seconds (seconds_of_round_trips hfits h hround roundTime_fourDigit)
    exact ⟨visible_of_round_trips hfits h, hfield, hour_of_seconds hfield
      (seconds_of_round_trips hfits h heleven elevenTime_fourDigit)⟩
  · intro h t l hlocal hl hfits
    rw [wcsftime_length .C l fmt.plain] at hfits
    obtain ⟨hvisible, hsafe⟩ := h hfits
    refine safe_round_trips fmt hvisible hsafe t l hlocal hl ?_
    rw [wcsftime_length .C l fmt.plain]
    exact hfits

end Converse

/-- The default format, `%Y-%m-%d %H:%M:%S`. -/
def defaultFormat : DateFormat where
  pieces := [.directive .Y, .literal '-'.toNat, .directive .m, .literal '-'.toNat, .directive .d,
    .literal ' '.toNat, .directive .H, .literal ':'.toNat, .directive .M, .literal ':'.toNat,
    .directive .S]
  literal := by simp
  directive := by
    intro f
    cases f <;> decide

theorem default_format_round_trips (z : Zone) : RoundTrips z defaultFormat.pieces := by
  have hfield : ∀ f, ¬ harms f defaultFormat.pieces := by
    intro f
    simp [defaultFormat, harms, taken, Letter.later, letters, Letter.char]
  have hhour : ¬ harmsHour defaultFormat.pieces := by
    simp [defaultFormat, harmsHour, taken, Letter.later, letters, Letter.char]
  have hvisible : Visible defaultFormat.pieces := by simp [defaultFormat, Visible]
  exact safe_round_trips defaultFormat hvisible ⟨fun f _ => hfield f, hhour⟩

/-- `%M:%S %Y-%m-%d %HM`, in which an `M` stands behind the hour. -/
def hourMark : DateFormat where
  pieces := [.directive .M, .literal ':'.toNat, .directive .S, .literal ' '.toNat, .directive .Y,
    .literal '-'.toNat, .directive .m, .literal '-'.toNat, .directive .d, .literal ' '.toNat,
    .directive .H, .literal 'M'.toNat]
  literal := by simp
  directive := by
    intro f
    cases f <;> decide

def utc : Zone := ⟨0, 2 ^ 32, by decide, by decide⟩

/-- 11:11:11 comes back as 11:01:11. -/
theorem hour_mark_read : GetTimeValueFromFormat utc .C
    (GetFormattedDateTimeText utc .C 1321009871 hourMark.pieces) (source hourMark.pieces) =
      some 1321009271 := by
  decide +kernel

theorem hour_mark_lost : ¬ RoundTrips utc hourMark.pieces := by
  intro h
  have hlocal : utc.localtime 1321009871 = some elevenTime := by decide +kernel
  have hfits : (wcsftime .C elevenTime hourMark.pieces).length < 128 := by decide +kernel
  have hback := h 1321009871 elevenTime hlocal elevenTime_fourDigit hfits
  rw [hour_mark_read] at hback
  exact absurd hback (by decide)

end IMonPlatform.DateTime
