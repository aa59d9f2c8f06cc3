import IMonPlatform.Lib.CivilDate
import IMonPlatform.Logger.Hierarchy

/-!
# `GetFormattedDateTimeText` and `GetTimeValueFromFormat`

A time is written by `wcsftime` and read back by a loop with a cursor in the format and one in the
text.  Behind a `%` the loop tries the directive letters one after the other, each against the next
cell of the format, and goes on trying behind a letter that it has found.

* `Zone` — a time zone without daylight saving; `localtime` and `mktime` count seconds of the
  Gregorian calendar, and `mktime` takes fields out of range.
* `Letter`, `Piece` — the directives and a format in pieces; `wcsftime` writes a format.
* `parseLoop`, `GetTimeValueFromFormat` — the loop; `none` is an exception or a subscript behind the
  format.
* `readPieces` — what the loop makes of a text, piece by piece, with the letters that it takes for
  directives; `parseLoop_pieces` — the loop does that.
-/

set_option autoImplicit false

namespace IMonPlatform.DateTime

open Format (CharT isdigit digitsValue)
open Logger (Text text wcsicmpEq)

/-! ## Times -/

/-- `struct tm`, as far as `_mktime64` reads it where there is no daylight saving. -/
structure Tm where
  tm_year : Int
  tm_mon : Int
  tm_mday : Int
  tm_hour : Int
  tm_min : Int
  tm_sec : Int
  deriving DecidableEq

structure LocalTime where
  date : CivilDate
  hour : Nat
  min : Nat
  sec : Nat
  hour_lt : hour < 24
  min_lt : min < 60
  sec_lt : sec < 60
  deriving DecidableEq

def LocalTime.tm (l : LocalTime) : Tm :=
  ⟨l.date.year - 1900, l.date.month, l.date.day, l.hour, l.min, l.sec⟩

/-- The day number of a day whose month and day need not be in range. -/
def dayCount (year mon mday : Int) : Int :=
  daysBeforeYear (year + mon / 12) + daysBefore (year + mon / 12) (mon % 12).toNat + (mday - 1)

/-- The seconds since 1 January of the year 1. -/
def Tm.seconds (tm : Tm) : Int :=
  ((dayCount (tm.tm_year + 1900) tm.tm_mon tm.tm_mday * 24 + tm.tm_hour) * 60 + tm.tm_min) * 60 +
    tm.tm_sec

def LocalTime.ofSeconds (n : Int) : LocalTime where
  date := .ofDayNumber (n / 86400)
  hour := (n % 86400 / 3600).toNat
  min := (n % 3600 / 60).toNat
  sec := (n % 60).toNat
  hour_lt := by omega
  min_lt := by omega
  sec_lt := by omega

theorem dayCount_date (a : CivilDate) : dayCount a.year a.month a.day = a.dayNumber := by
  have hmonth := a.month_lt
  have hday := a.day_pos
  have hyear : a.year + (a.month : Int) / 12 = a.year := by omega
  have hmod : ((a.month : Int) % 12).toNat = a.month := by omega
  rw [dayCount, hyear, hmod, CivilDate.dayNumber, CivilDate.dayOfYear]
  omega

theorem LocalTime.seconds_eq (l : LocalTime) :
    l.tm.seconds = ((l.date.dayNumber * 24 + l.hour) * 60 + l.min) * 60 + l.sec := by
  rw [Tm.seconds, ← dayCount_date, LocalTime.tm]
  dsimp only
  rw [show l.date.year - 1900 + 1900 = l.date.year by omega]

theorem LocalTime.seconds_ofSeconds (n : Int) : (LocalTime.ofSeconds n).tm.seconds = n := by
  rw [LocalTime.seconds_eq, ofSeconds]
  dsimp only
  rw [CivilDate.dayNumber_ofDayNumber]
  omega

/-- A local time is determined by its seconds. -/
theorem LocalTime.ofSeconds_seconds (l : LocalTime) : LocalTime.ofSeconds l.tm.seconds = l := by
  obtain ⟨date, hour, min, sec, hhour, hmin, hsec⟩ := l
  have hseconds := seconds_eq ⟨date, hour, min, sec, hhour, hmin, hsec⟩
  dsimp only at hseconds
  have hday : ((date.dayNumber * 24 + hour) * 60 + min) * 60 + sec =
      date.dayNumber * 86400 + (hour * 3600 + min * 60 + sec) := by omega
  rw [hseconds, hday, ofSeconds, LocalTime.mk.injEq]
  refine ⟨?_, by omega, by omega, by omega⟩
  rw [show (date.dayNumber * 86400 + (hour * 3600 + min * 60 + sec : Int)) / 86400 =
    date.dayNumber by omega]
  exact date.ofDayNumber_dayNumber

/-- The seconds before 1 January 1970. -/
def EPOCH : Int := 62135596800

/-- A time zone without daylight saving. -/
structure Zone where
  /-- Seconds from the local time to UTC. -/
  timezone : Int
  /-- The last time that the library converts. -/
  last : Int
  timezone_day : -86400 ≤ timezone ∧ timezone ≤ 86400
  last_ge : 2 ^ 32 ≤ last

namespace Zone

variable (z : Zone)

/-- `_localtime64_s`; `none` is an error. -/
def localtime (tmTime : Int) : Option LocalTime :=
  if 0 ≤ tmTime ∧ tmTime ≤ z.last then some (.ofSeconds (tmTime + EPOCH - z.timezone)) else none

/-- `_mktime64`, which returns -1 for a time that it does not represent. -/
def mktime (tm : Tm) : Int :=
  if 0 ≤ tm.seconds - EPOCH + z.timezone ∧ tm.seconds - EPOCH + z.timezone ≤ z.last then
    tm.seconds - EPOCH + z.timezone
  else -1

/-- **`localtime` and `mktime` are inverse.** -/
theorem localtime_iff {t : Int} {l : LocalTime} :
    z.localtime t = some l ↔ 0 ≤ t ∧ z.mktime l.tm = t := by
  unfold localtime mktime
  constructor
  · intro h
    split at h
    · rename_i hrange
      cases h
      rw [LocalTime.seconds_ofSeconds]
      rw [show t + EPOCH - z.timezone - EPOCH + z.timezone = t by omega, if_pos hrange]
      exact ⟨hrange.1, rfl⟩
    · cases h
  · rintro ⟨hpos, ht⟩
    split at ht
    · rename_i hrange
      rw [ht] at hrange
      rw [if_pos hrange, show t + EPOCH - z.timezone = l.tm.seconds by omega,
        LocalTime.ofSeconds_seconds]
    · omega

end Zone

/-! ## Formats -/

/-- The directive letters, in the order in which the parser tries them. -/
inductive Letter where
  | Y
  | m
  | d
  | H
  | p
  | I
  | M
  | S
  deriving DecidableEq

/-- What `%p` stands for. -/
structure Markers where
  strAM : Text
  strPM : Text

/-- The markers of the "C" locale, which the program never leaves. -/
def Markers.C : Markers := ⟨text "AM", text "PM"⟩

def digits2 (n : Nat) : Text := ['0'.toNat + n / 10 % 10, '0'.toNat + n % 10]

def digits4 (n : Nat) : Text := digits2 (n / 100) ++ digits2 n

namespace Letter

def char : Letter → CharT
  | .Y => 'Y'.toNat
  | .m => 'm'.toNat
  | .d => 'd'.toNat
  | .H => 'H'.toNat
  | .p => 'p'.toNat
  | .I => 'I'.toNat
  | .M => 'M'.toNat
  | .S => 'S'.toNat

/-- The number that a directive stands for. -/
def value (l : LocalTime) : Letter → Nat
  | .Y => l.date.year.toNat
  | .m => l.date.month + 1
  | .d => l.date.day
  | .H => l.hour
  | .p => 0
  | .I => (l.hour + 11) % 12 + 1
  | .M => l.min
  | .S => l.sec

/-- How a directive is written. -/
def text (k : Markers) (l : LocalTime) : Letter → Text
  | .Y => digits4 (value l .Y)
  | .p => if l.hour < 12 then k.strAM else k.strPM
  | f => digits2 (f.value l)

end Letter

inductive Piece where
  | literal (c : CharT)
  | directive (f : Letter)
  deriving DecidableEq

def Piece.source : Piece → Text
  | .literal c => [c]
  | .directive f => ['%'.toNat, f.char]

def source (fmt : List Piece) : Text := fmt.flatMap Piece.source

/-- `wcsftime` takes the format up to its NUL. -/
def wcsftime (k : Markers) (l : LocalTime) : List Piece → Text
  | [] => []
  | .literal c :: fmt => if c = 0 then [] else c :: wcsftime k l fmt
  | .directive f :: fmt => f.text k l ++ wcsftime k l fmt

/-- The buffer has 128 cells, the last of them for the NUL; a text that does not fit is lost. -/
def GetFormattedDateTimeText (z : Zone) (k : Markers) (tmTime : Int) (fmt : List Piece) : Text :=
  match z.localtime tmTime with
  | none => []
  | some l => if (wcsftime k l fmt).length < 128 then wcsftime k l fmt else []

/-! ## The parser -/

/-- `operator[]` of a constant string, which has a NUL at its end. -/
def charAt (s : Text) (i : Nat) : Option CharT := (s ++ [0])[i]?

/-- `none` is `std::out_of_range`. -/
def substr (s : Text) (pos n : Nat) : Option Text :=
  if pos ≤ s.length then some ((s.drop pos).take n) else none

def isspace (c : CharT) : Bool :=
  decide (c = ' '.toNat ∨ '\t'.toNat ≤ c ∧ c ≤ '\r'.toNat)

/-- `_wtoi` of a text that is too short for an overflow. -/
def wtoi (s : Text) : Int :=
  match s.dropWhile isspace with
  | [] => 0
  | c :: rest =>
    if c = '-'.toNat then -(digitsValue (rest.takeWhile isdigit) : Int)
    else if c = '+'.toNat then digitsValue (rest.takeWhile isdigit)
    else digitsValue ((c :: rest).takeWhile isdigit)

/-- A marker stands in the text and the text goes on behind it. -/
def marked (dateTimeText : Text) (nIdx : Nat) (marker : Text) : Option Bool :=
  if nIdx + marker.length < dateTimeText.length ∧ 0 < marker.length then
    (substr dateTimeText nIdx marker.length).map (wcsicmpEq · marker)
  else some false

namespace Letter

/-- What is stored for a number. -/
def put (x : Int) (tm : Tm) : Letter → Tm
  | .Y => { tm with tm_year := x - 1900 }
  | .m => { tm with tm_mon := x - 1 }
  | .d => { tm with tm_mday := x }
  | .H => { tm with tm_hour := x }
  | .p => tm
  | .I => { tm with tm_hour := tm.tm_hour + x }
  | .M => { tm with tm_min := x }
  | .S => { tm with tm_sec := x }

/-- `nIdx += 3;` or `nIdx += 1;` -/
def advance : Letter → Nat
  | .Y => 3
  | _ => 1

/-- The body of the `if` for a letter. -/
def read (k : Markers) (dateTimeText : Text) (nIdx : Nat) (tm : Tm) : Letter → Option Tm
  | .p => do
    -- for `strAM` the hour is assigned to itself
    let _ ← marked dateTimeText nIdx k.strAM
    let isPM ← marked dateTimeText nIdx k.strPM
    some (if isPM then { tm with tm_hour := tm.tm_hour + 12 } else tm)
  | f => (substr dateTimeText nIdx (f.advance + 1)).map fun s => f.put (wtoi s) tm

end Letter

structure Cursor where
  nPos : Nat
  nIdx : Nat
  tm : Tm

section Parser

variable (k : Markers) (dateTimeText fmt : Text)

/-- `if( fmt[ nPos + 1 ] == .. )` -/
def testLetter (c : Cursor) (f : Letter) : Option Cursor := do
  let next ← charAt fmt (c.nPos + 1)
  if next = f.char then
    let tm ← f.read k dateTimeText c.nIdx c.tm
    some ⟨c.nPos + 1, c.nIdx + f.advance, tm⟩
  else some c

def letters : List Letter := [.Y, .m, .d, .H, .p, .I, .M, .S]

/-- The loop; every round moves `nPos`, so that `fmt.size()` rounds are enough. -/
def parseLoop : Nat → Cursor → Option Tm
  | 0, c => some c.tm
  | rounds + 1, c =>
    match fmt[c.nPos]? with
    | none => some c.tm
    | some next => do
      let c ← if next = '%'.toNat then letters.foldlM (testLetter k dateTimeText fmt) c else some c
      parseLoop rounds ⟨c.nPos + 1, c.nIdx + 1, c.tm⟩

end Parser

def Tm.initial : Tm := ⟨0, 0, 1, 0, 0, 0⟩

def GetTimeValueFromFormat (z : Zone) (k : Markers) (dateTimeText fmt : Text) : Option Int :=
  if dateTimeText = [] ∨ fmt = [] then some 0
  else (parseLoop k dateTimeText fmt fmt.length ⟨0, 0, .initial⟩).map z.mktime

/-! ## Piece by piece -/

/-- The letters that are tried behind a letter. -/
def Letter.later (f : Letter) : List Letter := (letters.dropWhile (· != f)).drop 1

/-- The literal letters that the parser takes for directives, of those it still tries. -/
def taken : List Letter → List Piece → List Letter
  | [], _ => []
  | f :: fs, fmt =>
    if fmt.head? = some (.literal f.char) then f :: taken fs fmt.tail else taken fs fmt

/-- What they store: the first one what is read from the cell under the cursor, the others what is
read from the letter in front of them. -/
def misread (x : Int) : List Letter → List Piece → Tm → Tm
  | [], _, tm => tm
  | f :: fs, fmt, tm =>
    if fmt.head? = some (.literal f.char) then misread 0 fs fmt.tail (f.put x tm)
    else misread x fs fmt tm

/-- What the loop makes of the text of a format; behind a directive the cursor stands on the last
digit of its number. -/
def readPieces (l : LocalTime) : List Piece → Tm → Tm
  | [], tm => tm
  | .literal _ :: fmt, tm => readPieces l fmt tm
  | .directive f :: fmt, tm =>
    readPieces l fmt
      (misread ((f.value l % 10 : Nat) : Int) f.later fmt (f.put ((f.value l : Nat) : Int) tm))

section Reading

variable {s : Text}

theorem charAt_append (done rest : Text) : charAt (done ++ rest) done.length =
    some (rest.headD 0) := by
  unfold charAt
  rw [List.append_assoc, List.getElem?_append_right (Nat.le_refl _), Nat.sub_self]
  cases rest <;> rfl

/-- The cell behind a `%`. -/
theorem charAt_letter (done : Text) (f : Letter) (rest : Text) :
    charAt (done ++ '%'.toNat :: f.char :: rest) (done.length + 1) = some f.char := by
  have h := charAt_append (done ++ ['%'.toNat]) (f.char :: rest)
  rw [List.append_assoc, List.length_append, List.length_singleton] at h
  exact h

theorem substr_append (done rest : Text) (n : Nat) :
    substr (done ++ rest) done.length n = some (rest.take n) := by
  unfold substr
  rw [if_pos (by rw [List.length_append]; omega), List.drop_left]

theorem substr_beyond {pos : Nat} (n : Nat) (h : s.length < pos) : substr s pos n = none :=
  if_neg (by omega)

theorem Letter.char_ne (f : Letter) : f.char ≠ 0 ∧ f.char ≠ '%'.toNat := by
  cases f <;> decide

theorem Letter.char_inj {f g : Letter} (h : f.char = g.char) : f = g := by
  cases f <;> cases g <;> first | rfl | exact absurd h (by decide)

/-- The cell that is tested tells the piece. -/
theorem head_source (fmt : List Piece) (f : Letter) :
    (source fmt).headD 0 = f.char ↔ fmt.head? = some (.literal f.char) := by
  obtain ⟨hnul, hpercent⟩ := f.char_ne
  rcases fmt with _ | ⟨c | g, fmt⟩
  · simpa [source] using hnul.symm
  · simp [source, Piece.source]
  · simpa [source, Piece.source] using hpercent.symm

end Reading

/-- The letter in front of a letter is no number. -/
theorem wtoi_letters (f g : Letter) : wtoi [f.char, g.char] = 0 := by
  cases f <;> cases g <;> rfl

/-- No cell makes a `PM` with the letter `p` behind it. -/
theorem not_marked_p (done rest : Text) (x : CharT) :
    marked (done ++ x :: Letter.p.char :: rest) done.length Markers.C.strPM = some false := by
  unfold marked
  split
  · have hsub : substr (done ++ x :: Letter.p.char :: rest) done.length Markers.C.strPM.length =
        some [x, Letter.p.char] := substr_append done _ 2
    have hne : wcsicmpEq [x, Letter.p.char] Markers.C.strPM = false := by
      by_cases hx : x = 0
      · rw [hx]
        rfl
      · simp [wcsicmpEq, Letter.char, Markers.C, Logger.text, hx]
    rw [hsub, Option.map_some, hne]
  · rfl

theorem marked_some {s : Text} {pos : Nat} (h : pos ≤ s.length) (marker : Text) :
    ∃ b, marked s pos marker = some b := by
  unfold marked
  split
  · rw [substr, if_pos h]
    exact ⟨_, rfl⟩
  · exact ⟨false, rfl⟩

/-- A letter that is taken stores what is read from the cell under the cursor. -/
theorem read_taken {f : Letter} (hf : f ≠ .Y) (done rest : Text) {x : CharT} {v : Int}
    (hx : wtoi [x, f.char] = v) (tm : Tm) :
    f.read .C (done ++ x :: f.char :: rest) done.length tm = some (f.put v tm) := by
  have hsub : substr (done ++ x :: f.char :: rest) done.length 2 = some [x, f.char] :=
    substr_append done _ 2
  cases f with
  | Y => exact absurd rfl hf
  | p =>
    have hle : done.length ≤ (done ++ x :: Letter.p.char :: rest).length := by
      rw [List.length_append]
      omega
    obtain ⟨isAM, hAM⟩ := marked_some hle Markers.C.strAM
    simp only [Letter.read, hAM, not_marked_p, Option.bind_eq_bind, Option.bind_some]
    rfl
  | m | d | H | I | M | S =>
    simp only [Letter.read, Letter.advance, hsub, Option.map_some, hx]

section Chain

variable {l : LocalTime}

theorem wcsftime_letter (k : Markers) (f : Letter) (fmt : List Piece) :
    wcsftime k l (.literal f.char :: fmt) = f.char :: wcsftime k l fmt := by
  rw [wcsftime, if_neg f.char_ne.1]

/-- The tests behind a letter. -/
theorem chain_pieces : ∀ (fs : List Letter), .Y ∉ fs → ∀ (fmt : List Piece) (fdone tdone : Text)
    (x : CharT) (v : Int) (tm : Tm) (nPos : Nat), nPos + 1 = fdone.length →
    (∀ f ∈ fs, wtoi [x, f.char] = v) →
    fs.foldlM (testLetter .C (tdone ++ x :: wcsftime .C l fmt) (fdone ++ source fmt))
        ⟨nPos, tdone.length, tm⟩ =
      some ⟨nPos + (taken fs fmt).length, tdone.length + (taken fs fmt).length,
        misread v fs fmt tm⟩ := by
  intro fs
  induction fs with
  | nil =>
    intro _ fmt fdone tdone x v tm nPos _ _
    rfl
  | cons f fs ih =>
    intro hY fmt fdone tdone x v tm nPos hpos hx
    have hYfs : .Y ∉ fs := fun hmem => hY (List.mem_cons_of_mem f hmem)
    have hnext : charAt (fdone ++ source fmt) (nPos + 1) = some ((source fmt).headD 0) := by
      rw [hpos]
      exact charAt_append fdone (source fmt)
    rw [List.foldlM_cons, testLetter, taken, misread, hnext]
    by_cases hhead : fmt.head? = some (.literal f.char)
    · have hcell := (head_source fmt f).mpr hhead
      obtain ⟨fmt, rfl⟩ : ∃ rest, fmt = .literal f.char :: rest := by
        cases fmt with
        | nil => cases hhead
        | cons a rest => exact ⟨rest, by rw [Option.some.inj hhead]⟩
      have hne : f ≠ .Y := fun heq => hY (heq ▸ List.mem_cons_self)
      have hread := read_taken hne tdone (wcsftime .C l fmt) (hx f List.mem_cons_self) tm
      have hadvance : f.advance = 1 := by
        cases f with
        | Y => exact absurd rfl hne
        | m | d | H | p | I | M | S => rfl
      have hrest := ih hYfs fmt (fdone ++ [f.char]) (tdone ++ [x]) f.char 0 (f.put v tm) (nPos + 1)
        (by rw [List.length_append, List.length_singleton, hpos]) fun g _ => wtoi_letters f g
      rw [List.append_assoc, List.append_assoc, List.singleton_append, List.singleton_append,
        List.length_append, List.length_singleton] at hrest
      have hsource : source (.literal f.char :: fmt) = f.char :: source fmt := rfl
      simp only [if_pos hhead, hsource, List.headD_cons, if_true, wcsftime_letter,
        Option.bind_eq_bind, Option.bind_some, hread, hadvance, List.tail_cons, List.length_cons]
      rw [hrest]
      simp only [Nat.add_assoc, Nat.add_comm 1]
    · have hcell : ¬ (source fmt).headD 0 = f.char := fun h => hhead ((head_source fmt f).mp h)
      simp only [if_neg hhead, if_neg hcell, Option.bind_eq_bind, Option.bind_some]
      exact ih hYfs fmt fdone tdone x v tm nPos hpos fun g hg => hx g (List.mem_cons_of_mem f hg)

end Chain

/-! ## Numbers -/

theorem digit_cell (n : Nat) : isdigit ('0'.toNat + n % 10) = true := by
  have hlt := Nat.mod_lt n (show 10 > 0 by decide)
  simp only [isdigit, Bool.and_eq_true, decide_eq_true_eq]
  show 48 ≤ 48 + n % 10 ∧ 48 + n % 10 ≤ 57
  omega

theorem isspace_digit {n : Nat} (h : 48 ≤ n) : isspace n = false := by
  simp only [isspace, decide_eq_false_iff_not]
  show ¬ (n = 32 ∨ 9 ≤ n ∧ n ≤ 13)
  omega

/-- A row of digits is read as its value. -/
theorem wtoi_digits {s : Text} (h : ∀ c ∈ s, isdigit c = true) : wtoi s = digitsValue s := by
  cases s with
  | nil => rfl
  | cons c rest =>
    have hc : 48 ≤ c ∧ c ≤ 57 := by simpa [isdigit] using h c List.mem_cons_self
    have hspace : isspace c = false := isspace_digit hc.1
    have hminus : ¬ c = '-'.toNat := by
      intro heq
      rw [heq] at hc
      exact absurd hc (by decide)
    have hplus : ¬ c = '+'.toNat := by
      intro heq
      rw [heq] at hc
      exact absurd hc (by decide)
    have hall : (c :: rest).takeWhile isdigit = c :: rest := List.takeWhile_eq_self_iff.mpr h
    simp only [wtoi, List.dropWhile_cons, hspace, Bool.false_eq_true, if_false, if_neg hminus,
      if_neg hplus, hall]

theorem digits2_digits (n : Nat) : ∀ c ∈ digits2 n, isdigit c = true := by
  intro c hc
  simp only [digits2, List.mem_cons, List.not_mem_nil, or_false] at hc
  rcases hc with rfl | rfl
  · exact digit_cell (n / 10)
  · exact digit_cell n

theorem wtoi_digits2 {n : Nat} (h : n < 100) : wtoi (digits2 n) = n := by
  rw [wtoi_digits (digits2_digits n)]
  simp only [digitsValue, digits2, List.foldl_cons, List.foldl_nil]
  omega

theorem wtoi_digits4 {n : Nat} (h : n < 10000) : wtoi (digits4 n) = n := by
  have hdigits : ∀ c ∈ digits4 n, isdigit c = true := by
    intro c hc
    rcases List.mem_append.mp hc with hc | hc
    · exact digits2_digits _ c hc
    · exact digits2_digits _ c hc
  rw [wtoi_digits hdigits]
  simp only [digitsValue, digits4, digits2, List.cons_append, List.nil_append, List.foldl_cons,
    List.foldl_nil]
  omega

/-- A digit with a letter behind it is read as the digit. -/
theorem wtoi_digit (n : Nat) (f : Letter) :
    wtoi ['0'.toNat + n % 10, f.char] = ((n % 10 : Nat) : Int) := by
  have hlt := Nat.mod_lt n (show 10 > 0 by decide)
  generalize n % 10 = d at hlt
  have hall : ∀ f : Letter, ∀ d < 10, wtoi ['0'.toNat + d, f.char] = ((d : Nat) : Int) := by
    intro f
    cases f <;> decide
  exact hall f d hlt

/-- A year with four digits. -/
def LocalTime.FourDigit (l : LocalTime) : Prop := 1000 ≤ l.date.year ∧ l.date.year ≤ 9999

section Directives

variable {l : LocalTime}

theorem value_lt (l : LocalTime) {f : Letter} (hf : f ≠ .Y) : f.value l < 100 := by
  have hmonth := l.date.month_lt
  have hday := l.date.day_le_31
  have hhour := l.hour_lt
  have hmin := l.min_lt
  have hsec := l.sec_lt
  cases f with
  | Y => exact absurd rfl hf
  | m | d | H | p | I | M | S =>
    simp only [Letter.value]
    omega

theorem wtoi_text (hl : l.FourDigit) (k : Markers) {f : Letter} (hf : f ≠ .p) :
    wtoi (f.text k l) = f.value l := by
  unfold LocalTime.FourDigit at hl
  cases f with
  | p => exact absurd rfl hf
  | Y => exact wtoi_digits4 (show l.date.year.toNat < 10000 by omega)
  | m | d | H | I | M | S => exact wtoi_digits2 (value_lt l (by decide))

/-- The last cell of a number. -/
theorem text_last (k : Markers) {f : Letter} (hf : f ≠ .p) :
    ∃ front : Text, front.length = f.advance ∧
      f.text k l = front ++ ['0'.toNat + f.value l % 10] := by
  cases f with
  | p => exact absurd rfl hf
  | Y => exact ⟨digits2 (l.date.year.toNat / 100) ++ ['0'.toNat + l.date.year.toNat / 10 % 10], rfl,
      rfl⟩
  | m | d | H | I | M | S => exact ⟨['0'.toNat + _ / 10 % 10], rfl, rfl⟩

/-- A directive reads its own number. -/
theorem read_directive (hl : l.FourDigit) {f : Letter} (hf : f ≠ .p) (done rest : Text) (tm : Tm) :
    f.read .C (done ++ (f.text .C l ++ rest)) done.length tm =
      some (f.put ((f.value l : Nat) : Int) tm) := by
  obtain ⟨front, hfront, htext⟩ := text_last (l := l) .C hf
  have hlength : (f.text .C l).length = f.advance + 1 := by
    rw [htext, List.length_append, hfront, List.length_singleton]
  have hsub : substr (done ++ (f.text .C l ++ rest)) done.length (f.advance + 1) =
      some (f.text .C l) := by
    rw [substr_append, ← hlength, List.take_left]
  cases f with
  | p => exact absurd rfl hf
  | Y | m | d | H | I | M | S =>
    simp only [Letter.read, hsub, Option.map_some, wtoi_text hl .C hf]

theorem letters_split (f : Letter) :
    ∃ before, letters = before ++ f :: f.later ∧ f ∉ before := by
  cases f
  · exact ⟨[], rfl, by decide⟩
  · exact ⟨[.Y], rfl, by decide⟩
  · exact ⟨[.Y, .m], rfl, by decide⟩
  · exact ⟨[.Y, .m, .d], rfl, by decide⟩
  · exact ⟨[.Y, .m, .d, .H], rfl, by decide⟩
  · exact ⟨[.Y, .m, .d, .H, .p], rfl, by decide⟩
  · exact ⟨[.Y, .m, .d, .H, .p, .I], rfl, by decide⟩
  · exact ⟨[.Y, .m, .d, .H, .p, .I, .M], rfl, by decide⟩

theorem Y_notMem_later (f : Letter) : .Y ∉ f.later := by cases f <;> decide

/-- Other letters are passed over. -/
theorem tests_other {k : Markers} {dateTimeText fmt : Text} {c : Cursor} {f : Letter}
    (hnext : charAt fmt (c.nPos + 1) = some f.char) :
    ∀ {fs : List Letter}, f ∉ fs → fs.foldlM (testLetter k dateTimeText fmt) c = some c
  | [], _ => rfl
  | g :: fs, h => by
    have hne : ¬ f.char = g.char := fun heq =>
      h (Letter.char_inj heq ▸ List.mem_cons_self)
    have htest : testLetter k dateTimeText fmt c g = some c := by
      simp only [testLetter, hnext, Option.bind_eq_bind, Option.bind_some, if_neg hne]
    rw [List.foldlM_cons, htest]
    exact tests_other hnext fun hmem => h (List.mem_cons_of_mem g hmem)

/-- **The tests at a directive** read its number, and what they take behind it. -/
theorem tests_directive (hl : l.FourDigit) {f : Letter} (hf : f ≠ .p) (fmt : List Piece)
    (fdone tdone : Text) (tm : Tm) :
    letters.foldlM (testLetter .C (tdone ++ (f.text .C l ++ wcsftime .C l fmt))
        (fdone ++ '%'.toNat :: f.char :: source fmt)) ⟨fdone.length, tdone.length, tm⟩ =
      some ⟨fdone.length + 1 + (taken f.later fmt).length,
        tdone.length + f.advance + (taken f.later fmt).length,
        misread ((f.value l % 10 : Nat) : Int) f.later fmt
          (f.put ((f.value l : Nat) : Int) tm)⟩ := by
  obtain ⟨before, hletters, hbefore⟩ := letters_split f
  obtain ⟨front, hfront, htext⟩ := text_last (l := l) .C hf
  have hnext := charAt_letter fdone f (source fmt)
  have hread := read_directive hl hf tdone (wcsftime .C l fmt) tm
  have hchain := chain_pieces (l := l) f.later (Y_notMem_later f) fmt
    (fdone ++ ['%'.toNat, f.char]) (tdone ++ front) ('0'.toNat + f.value l % 10)
    ((f.value l % 10 : Nat) : Int) (f.put ((f.value l : Nat) : Int) tm) (fdone.length + 1)
    (by simp) fun g _ => wtoi_digit (f.value l) g
  rw [List.length_append, hfront, List.append_assoc, List.append_assoc] at hchain
  rw [hletters, List.foldlM_append, tests_other hnext hbefore]
  simp only [Option.bind_eq_bind, Option.bind_some, List.foldlM_cons, testLetter, hnext, hread,
    if_true]
  rw [htext, List.append_assoc]
  exact hchain

end Directives

/-! ## The loop -/

/-- No directive stands behind a NUL. -/
def Visible : List Piece → Prop
  | [] => True
  | .literal c :: fmt => if c = 0 then ∀ f, .directive f ∉ fmt else Visible fmt
  | .directive _ :: fmt => Visible fmt

/-- The literals are no `%`, and `%p` does not occur. -/
structure Plain (fmt : List Piece) : Prop where
  literal : ∀ c, .literal c ∈ fmt → c ≠ '%'.toNat
  directive : ∀ f, .directive f ∈ fmt → f ≠ .p

theorem Plain.tail {a : Piece} {fmt : List Piece} (h : Plain (a :: fmt)) : Plain fmt :=
  ⟨fun c hc => h.literal c (List.mem_cons_of_mem a hc),
    fun f hf => h.directive f (List.mem_cons_of_mem a hf)⟩

section Letters

variable {l : LocalTime}

/-- The letters that are taken are the next pieces. -/
theorem taken_split : ∀ (fs : List Letter) (fmt : List Piece),
    ∃ rest, fmt = (taken fs fmt).map (fun f => .literal f.char) ++ rest
  | [], fmt => ⟨fmt, rfl⟩
  | f :: fs, fmt => by
    rw [taken]
    split
    · rename_i hhead
      obtain ⟨rest, hrest⟩ := taken_split fs fmt.tail
      cases fmt with
      | nil => cases hhead
      | cons a fmt =>
        cases hhead
        refine ⟨rest, ?_⟩
        rw [List.map_cons, List.cons_append]
        exact congrArg (_ :: ·) hrest
    · exact taken_split fs fmt

theorem source_letters (gs : List Letter) (fmt : List Piece) :
    source (gs.map (fun f => .literal f.char) ++ fmt) = gs.map Letter.char ++ source fmt := by
  induction gs with
  | nil => rfl
  | cons g gs ih => exact congrArg (g.char :: ·) ih

theorem wcsftime_letters (k : Markers) (gs : List Letter) (fmt : List Piece) :
    wcsftime k l (gs.map (fun f => .literal f.char) ++ fmt) =
      gs.map Letter.char ++ wcsftime k l fmt := by
  induction gs with
  | nil => rfl
  | cons g gs ih =>
    rw [List.map_cons, List.cons_append, wcsftime_letter, ih]
    rfl

theorem readPieces_letters (gs : List Letter) (fmt : List Piece) (tm : Tm) :
    readPieces l (gs.map (fun f => .literal f.char) ++ fmt) tm = readPieces l fmt tm := by
  induction gs with
  | nil => rfl
  | cons g gs ih => exact ih

theorem visible_letters (gs : List Letter) {fmt : List Piece}
    (h : Visible (gs.map (fun f => .literal f.char) ++ fmt)) : Visible fmt := by
  induction gs with
  | nil => exact h
  | cons g gs ih =>
    rw [List.map_cons, List.cons_append, Visible, if_neg g.char_ne.1] at h
    exact ih h

theorem visible_letters_append (gs : List Letter) {fmt : List Piece} (h : Visible fmt) :
    Visible (gs.map (fun f => .literal f.char) ++ fmt) := by
  induction gs with
  | nil => exact h
  | cons g gs ih =>
    rw [List.map_cons, List.cons_append, Visible, if_neg g.char_ne.1]
    exact ih

theorem plain_letters (gs : List Letter) {fmt : List Piece}
    (h : Plain (gs.map (fun f => .literal f.char) ++ fmt)) : Plain fmt := by
  induction gs with
  | nil => exact h
  | cons g gs ih => exact ih h.tail

end Letters

section Loop

variable {l : LocalTime}

/-- A round at a literal moves both cursors. -/
theorem parseLoop_literal (k : Markers) (dateTimeText fdone : Text) {c : CharT}
    (hc : c ≠ '%'.toNat) (fmt : List Piece) (rounds nIdx : Nat) (tm : Tm) :
    parseLoop k dateTimeText (fdone ++ source (.literal c :: fmt)) (rounds + 1)
        ⟨fdone.length, nIdx, tm⟩ =
      parseLoop k dateTimeText (fdone ++ [c] ++ source fmt) rounds
        ⟨(fdone ++ [c]).length, nIdx + 1, tm⟩ := by
  have hsource : source (.literal c :: fmt) = c :: source fmt := rfl
  have hcell : (fdone ++ c :: source fmt)[fdone.length]? = some c := by simp
  rw [hsource, parseLoop]
  simp only [hcell, if_neg hc, Option.bind_eq_bind, Option.bind_some]
  rw [List.append_assoc, List.length_append, List.length_singleton, List.singleton_append]

/-- A round at a directive reads its number and goes over the letters that are taken with it. -/
theorem parseLoop_directive (hl : l.FourDigit) {f : Letter} (hf : f ≠ .p) (fmt : List Piece)
    (fdone tdone : Text) (rounds : Nat) (tm : Tm) :
    ∃ (gs : List Letter) (rest : List Piece) (fdone' tdone' : Text),
      fmt = gs.map (fun g => .literal g.char) ++ rest ∧
      parseLoop .C (tdone ++ wcsftime .C l (.directive f :: fmt))
          (fdone ++ source (.directive f :: fmt)) (rounds + 1) ⟨fdone.length, tdone.length, tm⟩ =
        parseLoop .C (tdone' ++ wcsftime .C l rest) (fdone' ++ source rest) rounds
          ⟨fdone'.length, tdone'.length, misread ((f.value l % 10 : Nat) : Int) f.later fmt
            (f.put ((f.value l : Nat) : Int) tm)⟩ := by
  have hsource : source (.directive f :: fmt) = '%'.toNat :: f.char :: source fmt := rfl
  have hcell : (fdone ++ '%'.toNat :: f.char :: source fmt)[fdone.length]? = some '%'.toNat := by
    simp
  have htests := tests_directive hl hf fmt fdone tdone tm
  rw [hsource, parseLoop, wcsftime]
  simp only [hcell, if_true, htests, Option.bind_eq_bind, Option.bind_some]
  generalize misread ((f.value l % 10 : Nat) : Int) f.later fmt
    (f.put ((f.value l : Nat) : Int) tm) = tm'
  obtain ⟨rest, hrest⟩ := taken_split f.later fmt
  generalize taken f.later fmt = gs at hrest
  subst hrest
  have hlength : (f.text .C l).length = f.advance + 1 := by
    obtain ⟨front, hfront, htext⟩ := text_last (l := l) .C hf
    rw [htext, List.length_append, hfront, List.length_singleton]
  refine ⟨gs, rest, fdone ++ '%'.toNat :: f.char :: gs.map Letter.char,
    tdone ++ (f.text .C l ++ gs.map Letter.char), rfl, ?_⟩
  rw [source_letters, wcsftime_letters]
  congr 1
  · simp
  · simp
  · rw [Cursor.mk.injEq]
    refine ⟨?_, ?_, rfl⟩
    · simp
      omega
    · simp [hlength]
      omega

/-- Literals are passed over, wherever the other cursor stands. -/
theorem parseLoop_literals (k : Markers) (dateTimeText : Text) (tm : Tm) :
    ∀ (rounds : Nat) (fmt : List Piece), Plain fmt → (∀ f, .directive f ∉ fmt) →
    ∀ (fdone : Text) (nIdx : Nat),
    parseLoop k dateTimeText (fdone ++ source fmt) rounds ⟨fdone.length, nIdx, tm⟩ = some tm := by
  intro rounds
  induction rounds with
  | zero =>
    intro fmt _ _ fdone nIdx
    rfl
  | succ rounds ih =>
    intro fmt hplain hnone fdone nIdx
    rcases fmt with _ | ⟨c | f, fmt⟩
    · simp [parseLoop, source]
    · rw [parseLoop_literal k dateTimeText fdone (hplain.literal c List.mem_cons_self)]
      exact ih fmt hplain.tail (fun f hf => hnone f (List.mem_cons_of_mem _ hf)) _ _
    · exact absurd List.mem_cons_self (hnone f)

theorem readPieces_literals (tm : Tm) {fmt : List Piece} (h : ∀ f, .directive f ∉ fmt) :
    readPieces l fmt tm = tm := by
  induction fmt with
  | nil => rfl
  | cons a fmt ih =>
    cases a with
    | literal c => exact ih fun f hf => h f (List.mem_cons_of_mem _ hf)
    | directive f => exact absurd List.mem_cons_self (h f)

theorem source_length (gs : List Letter) (rest : List Piece) :
    (source rest).length ≤ (source (gs.map (fun g => .literal g.char) ++ rest)).length := by
  rw [source_letters, List.length_append]
  omega

theorem source_cons_length (a : Piece) (fmt : List Piece) :
    (source fmt).length < (source (a :: fmt)).length := by
  cases a with
  | literal c => exact Nat.lt_succ_self _
  | directive f =>
    show (source fmt).length < (source fmt).length + 1 + 1
    omega

theorem eq_nil_of_source {fmt : List Piece} (h : (source fmt).length ≤ 0) : fmt = [] := by
  cases fmt with
  | nil => rfl
  | cons a fmt =>
    have := source_cons_length a fmt
    omega

/-- **The loop reads the text of a format piece by piece**, as long as no directive stands behind a
NUL. -/
theorem parseLoop_pieces (hl : l.FourDigit) : ∀ (rounds : Nat) (fmt : List Piece),
    (source fmt).length ≤ rounds → Plain fmt → Visible fmt → ∀ (fdone tdone : Text) (tm : Tm),
    parseLoop .C (tdone ++ wcsftime .C l fmt) (fdone ++ source fmt) rounds
      ⟨fdone.length, tdone.length, tm⟩ = some (readPieces l fmt tm) := by
  intro rounds
  induction rounds with
  | zero =>
    intro fmt hlen _ _ fdone tdone tm
    rw [eq_nil_of_source hlen]
    rfl
  | succ rounds ih =>
    intro fmt hlen hplain hvisible fdone tdone tm
    rcases fmt with _ | ⟨c | f, fmt⟩
    · simp [parseLoop, source, readPieces]
    · have hshort := source_cons_length (.literal c) fmt
      have hc := hplain.literal c List.mem_cons_self
      rw [parseLoop_literal .C _ fdone hc, wcsftime, readPieces]
      have htdone : (tdone ++ [c]).length = tdone.length + 1 := List.length_append
      rw [Visible] at hvisible
      by_cases hnul : c = 0
      · rw [if_pos hnul] at hvisible
        rw [readPieces_literals tm hvisible]
        exact parseLoop_literals .C _ tm rounds fmt hplain.tail hvisible _ _
      · rw [if_neg hnul] at hvisible ⊢
        have hrest := ih fmt (by omega) hplain.tail hvisible (fdone ++ [c]) (tdone ++ [c]) tm
        rw [List.append_assoc tdone, htdone] at hrest
        exact hrest
    · have hshort := source_cons_length (.directive f) fmt
      have hf := hplain.directive f List.mem_cons_self
      obtain ⟨gs, rest, fdone', tdone', hfmt, hround⟩ :=
        parseLoop_directive hl hf fmt fdone tdone rounds tm
      have hle : (source rest).length ≤ (source fmt).length := by
        rw [hfmt]
        exact source_length gs rest
      have hread : ∀ tm', readPieces l fmt tm' = readPieces l rest tm' := fun tm' => by
        rw [hfmt, readPieces_letters]
      have hplain' := hplain.tail
      rw [Visible] at hvisible
      rw [hfmt] at hplain' hvisible
      rw [hround, readPieces, hread]
      exact ih rest (by omega) (plain_letters gs hplain') (visible_letters gs hvisible) fdone'
        tdone' _

/-- Behind the end of the text a directive throws. -/
theorem parseLoop_beyond (k : Markers) {dateTimeText : Text} (tm : Tm) :
    ∀ (rounds : Nat) (fmt : List Piece), (source fmt).length ≤ rounds → Plain fmt →
    (∃ f, .directive f ∈ fmt) → ∀ (fdone : Text) (nIdx : Nat), dateTimeText.length < nIdx →
    parseLoop k dateTimeText (fdone ++ source fmt) rounds ⟨fdone.length, nIdx, tm⟩ = none := by
  intro rounds
  induction rounds with
  | zero =>
    rintro fmt hlen _ ⟨f, hf⟩
    rw [eq_nil_of_source hlen] at hf
    cases hf
  | succ rounds ih =>
    rintro fmt hlen hplain ⟨f, hf⟩ fdone nIdx hbeyond
    rcases fmt with _ | ⟨c | g, fmt⟩
    · cases hf
    · have hshort := source_cons_length (.literal c) fmt
      have hmem : .directive f ∈ fmt := by simpa using hf
      rw [parseLoop_literal k dateTimeText fdone (hplain.literal c List.mem_cons_self)]
      exact ih fmt (by omega) hplain.tail ⟨f, hmem⟩ _ _ (by omega)
    · have hsource : source (.directive g :: fmt) = '%'.toNat :: g.char :: source fmt := rfl
      have hcell : (fdone ++ '%'.toNat :: g.char :: source fmt)[fdone.length]? =
          some '%'.toNat := by simp
      have hnext := charAt_letter fdone g (source fmt)
      have hread : g.read k dateTimeText nIdx tm = none := by
        have hsub := substr_beyond (g.advance + 1) hbeyond
        have hg := hplain.directive g List.mem_cons_self
        cases g with
        | p => exact absurd rfl hg
        | Y | m | d | H | I | M | S => simp only [Letter.read, hsub, Option.map_none]
      obtain ⟨before, hletters, hbefore⟩ := letters_split g
      have hother : before.foldlM (testLetter k dateTimeText
          (fdone ++ '%'.toNat :: g.char :: source fmt)) ⟨fdone.length, nIdx, tm⟩ =
          some ⟨fdone.length, nIdx, tm⟩ := tests_other hnext hbefore
      rw [hsource, parseLoop]
      simp only [hcell, if_true, hletters, List.foldlM_append, hother,
        List.foldlM_cons, testLetter, hnext, hread, Option.bind_eq_bind, Option.bind_some,
        Option.bind_none]

/-- **A directive behind a NUL** is read behind the end of the text. -/
theorem parseLoop_hidden (hl : l.FourDigit) : ∀ (rounds : Nat) (fmt : List Piece),
    (source fmt).length ≤ rounds → Plain fmt → ¬ Visible fmt → ∀ (fdone tdone : Text) (tm : Tm),
    parseLoop .C (tdone ++ wcsftime .C l fmt) (fdone ++ source fmt) rounds
      ⟨fdone.length, tdone.length, tm⟩ = none := by
  intro rounds
  induction rounds with
  | zero =>
    intro fmt hlen _ hhidden
    rw [eq_nil_of_source hlen] at hhidden
    exact absurd trivial hhidden
  | succ rounds ih =>
    intro fmt hlen hplain hhidden fdone tdone tm
    rcases fmt with _ | ⟨c | f, fmt⟩
    · exact absurd trivial hhidden
    · have hshort := source_cons_length (.literal c) fmt
      have hc := hplain.literal c List.mem_cons_self
      rw [parseLoop_literal .C _ fdone hc, wcsftime]
      have htdone : (tdone ++ [c]).length = tdone.length + 1 := List.length_append
      rw [Visible] at hhidden
      by_cases hnul : c = 0
      · rw [if_pos hnul] at hhidden ⊢
        simp only [not_forall, not_not] at hhidden
        exact parseLoop_beyond .C tm rounds fmt (by omega) hplain.tail hhidden _ _ (by simp)
      · rw [if_neg hnul] at hhidden ⊢
        have hrest := ih fmt (by omega) hplain.tail hhidden (fdone ++ [c]) (tdone ++ [c]) tm
        rw [List.append_assoc tdone, htdone] at hrest
        exact hrest
    · have hshort := source_cons_length (.directive f) fmt
      have hf := hplain.directive f List.mem_cons_self
      obtain ⟨gs, rest, fdone', tdone', hfmt, hround⟩ :=
        parseLoop_directive hl hf fmt fdone tdone rounds tm
      have hle : (source rest).length ≤ (source fmt).length := by
        rw [hfmt]
        exact source_length gs rest
      have hplain' := hplain.tail
      rw [Visible] at hhidden
      rw [hfmt] at hplain' hhidden
      rw [hround]
      exact ih rest (by omega) (plain_letters gs hplain')
        (fun h => hhidden (visible_letters_append gs h)) fdone' tdone' _

end Loop

end IMonPlatform.DateTime
