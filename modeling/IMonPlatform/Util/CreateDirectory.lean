import IMonPlatform.Util.VolumePath

/-!
# `CreateDirectoryRecursively`

The loop creates the directories of a path from the drive on, one in each of at most 122 rounds, and
returns what came of the last one.  A path may have more components than that.

* `FileSystem`, `CreateDirectoryW` — the directories that exist, and the call that creates one.
* `createLoop`, `CreateDirectoryRecursively` — the source's loop over the text of a path.
* `walk` — the rounds over the components; `createLoop_eq` — the loop does these.
* `createDirectory_iff` — the result is right exactly if there are rounds enough, or the directory
  was there before, or no directory of the first 122 was.
-/

set_option autoImplicit false

namespace IMonPlatform.CreateDirectory

open Format (CharT)
open Logger (Text text)
open Replace

/-! ## The file system -/

/-- The directories that exist, each by its drive and its names. -/
def FileSystem : Type := List Text → Bool

inductive CreateResult where
  | created
  | alreadyExists
  /-- The parent does not exist. -/
  | pathNotFound
  deriving DecidableEq

def CreateDirectoryW (fs : FileSystem) (szPath : Text) : CreateResult × FileSystem :=
  let names := szPath.splitOn BACKSLASH
  if fs names = true then (.alreadyExists, fs)
  else if fs names.dropLast = true then
    (.created, fun other => if other = names then true else fs other)
  else (.pathNotFound, fs)

/-! ## The loop -/

def MAX_FOLDER_DEPTH : Nat := 122

def MAX_DRIVE : Nat := 3

def MAX_PATH : Nat := 260

/-- The state of the loop, with the paths of the calls. -/
structure Progress where
  isSuccess : Bool
  fs : FileSystem
  attempts : List Text

/-- The end of a round. -/
def attempt (s : Progress) (szPath : Text) : Progress where
  isSuccess := match (CreateDirectoryW s.fs szPath).1 with
    | .created => true
    | .alreadyExists => true
    | .pathNotFound => false
  fs := (CreateDirectoryW s.fs szPath).2
  attempts := s.attempts ++ [szPath]

def createLoop (wszDirectory : Text) : Nat → Nat → Progress → Progress
  | 0, _, s => s
  | rounds + 1, offset, s =>
    if wszDirectory.length ≤ offset then s
    else
      match find wszDirectory [BACKSLASH] offset with
      -- `i = MAX_FOLDER_DEPTH`
      | none => attempt s wszDirectory
      | some cnt => createLoop wszDirectory rounds (cnt + 1) (attempt s (wszDirectory.take cnt))

def CreateDirectoryRecursively (fs : FileSystem) (wszDirectory : Text) : Progress :=
  if wszDirectory.length < MAX_DRIVE + 1 ∨ MAX_PATH - 1 < wszDirectory.length then
    ⟨false, fs, []⟩
  else createLoop wszDirectory MAX_FOLDER_DEPTH MAX_DRIVE ⟨false, fs, []⟩

/-! ## Paths -/

def joined (names : List Text) : Text := [BACKSLASH].intercalate names

/-- A name has a cell and no backslash. -/
def IsName (c : Text) : Prop := c ≠ [] ∧ BACKSLASH ∉ c

/-- `X:\c1\...\cn` -/
structure Directory where
  letter : CharT
  components : List Text
  letter_ne : letter ≠ BACKSLASH
  names : ∀ c ∈ components, IsName c
  nonempty : components ≠ []

namespace Directory

variable (dir : Directory)

def drive : Text := [dir.letter, ':'.toNat]

/-- The drive and the first components. -/
def upTo (k : Nat) : List Text := dir.drive :: dir.components.take k

def path : Text := joined (dir.drive :: dir.components)

end Directory

/-- The calls are for prefixes of the path, in increasing length. -/
def Increasing (path : Text) (attempts : List Text) : Prop :=
  attempts.Pairwise (fun a b => a.length < b.length) ∧ ∀ a ∈ attempts, a <+: path

/-- What is promised of a run. -/
def Meets (dir : Directory) (result : Progress) : Prop :=
  Increasing dir.path result.attempts ∧
    (result.isSuccess = true → result.fs (dir.drive :: dir.components) = true)

section Joined

theorem joined_singleton (a : Text) : joined [a] = a := List.intercalate_singleton

theorem joined_cons {names : List Text} (hne : names ≠ []) (a : Text) :
    joined (a :: names) = a ++ BACKSLASH :: joined names := by
  obtain ⟨b, rest, rfl⟩ := List.exists_cons_of_ne_nil hne
  rw [joined, List.intercalate_cons_cons]
  simp [joined]

theorem joined_append {front rest : List Text} (hfront : front ≠ []) (hrest : rest ≠ []) :
    joined (front ++ rest) = joined front ++ BACKSLASH :: joined rest := by
  induction front with
  | nil => exact absurd rfl hfront
  | cons a front ih =>
    cases front with
    | nil => rw [List.singleton_append, joined_singleton, joined_cons hrest]
    | cons b front =>
      have hne : b :: front ≠ [] := List.cons_ne_nil b front
      rw [List.cons_append, joined_cons (List.append_ne_nil_of_left_ne_nil hne rest), ih hne,
        joined_cons hne, List.append_assoc, List.cons_append]

theorem joined_concat {front : List Text} (hfront : front ≠ []) (c : Text) :
    joined (front ++ [c]) = joined front ++ BACKSLASH :: c := by
  rw [joined_append hfront (List.cons_ne_nil c []), joined_singleton]

theorem joined_concat_longer {front : List Text} (hfront : front ≠ []) (c : Text) :
    (joined front).length < (joined (front ++ [c])).length := by
  rw [joined_concat hfront, List.length_append, List.length_cons]
  omega

/-- A path begins with that of any of its parents. -/
theorem joined_begins {front : List Text} (hfront : front ≠ []) (rest : List Text) :
    joined front <+: joined (front ++ rest) := by
  cases rest with
  | nil => rw [List.append_nil]
  | cons d rest =>
    rw [joined_append hfront (List.cons_ne_nil d rest)]
    exact List.prefix_append _ _

/-- A path goes on behind the backslash if there is a name. -/
theorem joined_further {front : List Text} (hfront : front ≠ []) {c : Text} (hc : c ≠ [])
    (rest : List Text) : (joined front).length + 1 < (joined (front ++ c :: rest)).length := by
  have hpos := List.length_pos_of_ne_nil hc
  have hle := (joined_begins (List.append_ne_nil_of_right_ne_nil front (List.cons_ne_nil c []))
    rest).length_le
  rw [joined_concat hfront, List.append_assoc, List.singleton_append, List.length_append,
    List.length_cons] at hle
  omega

theorem splitOn_joined {names : List Text} (hne : names ≠ []) (h : ∀ c ∈ names, BACKSLASH ∉ c) :
    (joined names).splitOn BACKSLASH = names := List.splitOn_intercalate BACKSLASH h hne

/-- The next backslash behind a path is that behind the next name. -/
theorem find_name {done : Text} {c : Text} (hc : BACKSLASH ∉ c) (rest : Text) :
    find (done ++ BACKSLASH :: (c ++ BACKSLASH :: rest)) [BACKSLASH] (done.length + 1) =
      some (done.length + 1 + c.length) := by
  have h := find_append (done ++ [BACKSLASH]) (c ++ BACKSLASH :: rest) [BACKSLASH]
  have hmem : BACKSLASH ∈ c ++ BACKSLASH :: rest := by simp
  rw [List.append_assoc, List.length_append, List.length_singleton, firstAt_singleton, if_pos hmem,
    takeWhile_append_of_notMem hc] at h
  simpa using h

theorem find_last {done c : Text} (hc : BACKSLASH ∉ c) :
    find (done ++ BACKSLASH :: c) [BACKSLASH] (done.length + 1) = none := by
  have h := find_append (done ++ [BACKSLASH]) c [BACKSLASH]
  rw [List.append_assoc, List.length_append, List.length_singleton, firstAt_singleton,
    if_neg hc] at h
  exact h

end Joined

/-! ## The rounds over the components -/

def walk : Nat → List Text → List Text → Progress → Progress
  | 0, _, _, s => s
  | _ + 1, _, [], s => s
  | rounds + 1, done, c :: rest, s =>
    walk rounds (done ++ [c]) rest (attempt s (joined (done ++ [c])))

/-- **The loop over the text makes these rounds.** -/
theorem createLoop_eq : ∀ (rounds : Nat) (done rest : List Text) (s : Progress), done ≠ [] →
    rest ≠ [] → (∀ c ∈ rest, IsName c) →
    createLoop (joined (done ++ rest)) rounds ((joined done).length + 1) s =
      walk rounds done rest s := by
  intro rounds
  induction rounds with
  | zero =>
    intro done rest s _ _ _
    rfl
  | succ rounds ih =>
    intro done rest s hdone hrest hnames
    obtain ⟨c, rest, rfl⟩ := List.exists_cons_of_ne_nil hrest
    obtain ⟨hc, hslash⟩ := hnames c List.mem_cons_self
    have hlong := joined_further hdone hc rest
    rw [createLoop, if_neg (Nat.not_le.mpr hlong), walk]
    cases rest with
    | nil =>
      have hend : walk rounds (done ++ [c]) [] (attempt s (joined (done ++ [c]))) =
          attempt s (joined (done ++ [c])) := by cases rounds <;> rfl
      rw [hend, joined_concat hdone, find_last hslash]
    | cons d rest =>
      have hstep : joined (done ++ c :: d :: rest) =
          joined done ++ BACKSLASH :: (c ++ BACKSLASH :: joined (d :: rest)) := by
        rw [joined_append hdone (by simp), joined_cons (by simp)]
      have hcnt : (joined done).length + 1 + c.length = (joined (done ++ [c])).length := by
        rw [joined_concat hdone, List.length_append, List.length_cons]
        omega
      have hbegins := joined_begins (List.append_ne_nil_of_left_ne_nil hdone [c]) (d :: rest)
      rw [List.append_assoc, List.singleton_append] at hbegins
      have htake := (List.prefix_iff_eq_take.mp hbegins).symm
      have hrounds := ih (done ++ [c]) (d :: rest) (attempt s (joined (done ++ [c]))) (by simp)
        (by simp) fun x hx => hnames x (List.mem_cons_of_mem c hx)
      rw [List.append_assoc, List.singleton_append] at hrounds
      rw [hstep, find_name hslash, ← hstep]
      dsimp only
      rw [hcnt, htake, hrounds]

/-! ## What the rounds leave -/

section Rounds

variable (s : Progress) {done : List Text} {c : Text}

/-- The call at the path of a directory. -/
theorem attempt_spec (hnames : ∀ x ∈ done ++ [c], BACKSLASH ∉ x) :
    ((attempt s (joined (done ++ [c]))).isSuccess = true ↔
      s.fs (done ++ [c]) = true ∨ s.fs done = true) ∧
    ∀ names, (attempt s (joined (done ++ [c]))).fs names = true ↔
      s.fs names = true ∨ names = done ++ [c] ∧ s.fs done = true := by
  have hsplit : (joined (done ++ [c])).splitOn BACKSLASH = done ++ [c] :=
    splitOn_joined (by simp) hnames
  simp only [attempt, CreateDirectoryW, hsplit, List.dropLast_concat]
  by_cases hexists : s.fs (done ++ [c]) = true
  · simp only [if_pos hexists]
    refine ⟨⟨fun _ => .inl hexists, fun _ => trivial⟩, fun names => ⟨.inl, ?_⟩⟩
    rintro (h | ⟨rfl, -⟩)
    · exact h
    · exact hexists
  · by_cases hparent : s.fs done = true
    · simp only [if_neg hexists, if_pos hparent]
      refine ⟨⟨fun _ => .inr hparent, fun _ => trivial⟩, fun names => ?_⟩
      by_cases hname : names = done ++ [c]
      · rw [if_pos hname]
        exact ⟨fun _ => .inr ⟨hname, hparent⟩, fun _ => rfl⟩
      · rw [if_neg hname]
        exact ⟨.inl, fun h => h.elim id fun h => absurd h.1 hname⟩
    · simp only [if_neg hexists, if_neg hparent]
      exact ⟨⟨nofun, fun h => h.elim (absurd · hexists) (absurd · hparent)⟩,
        fun names => ⟨.inl, fun h => h.elim id fun h => absurd h.2 hparent⟩⟩

end Rounds

/-- **Paths that are longer than what is done change only by the rounds there are.** -/
theorem walk_frame : ∀ (rounds : Nat) (done rest : List Text) (s : Progress),
    (∀ x ∈ done ++ rest, BACKSLASH ∉ x) → ∀ names : List Text,
    done.length + rounds < names.length → (walk rounds done rest s).fs names = s.fs names
  | 0, _, _, _, _, _, _ => rfl
  | _ + 1, _, [], _, _, _, _ => rfl
  | rounds + 1, done, c :: rest, s, hnames, names, hlen => by
    have hparts : done ++ c :: rest = done ++ [c] ++ rest := by simp
    rw [hparts] at hnames
    have hspec := (attempt_spec s fun x hx => hnames x (List.mem_append_left _ hx)).2 names
    have hne : ¬ names = done ++ [c] := by
      rintro rfl
      rw [List.length_append, List.length_singleton] at hlen
      omega
    have hsame : (attempt s (joined (done ++ [c]))).fs names = s.fs names := by
      rw [Bool.eq_iff_iff, hspec]
      exact or_iff_left fun h => hne h.1
    rw [walk, walk_frame rounds _ _ _ hnames names (by
      rw [List.length_append, List.length_singleton]
      omega), hsame]

/-- **A run of rounds succeeds exactly if one of its directories, or the one it starts in, was
there**; then the last one is there. -/
theorem walk_success : ∀ (rounds : Nat) (done rest : List Text) (s : Progress),
    (∀ x ∈ done ++ rest, BACKSLASH ∉ x) →
    (rounds = 0 ∨ rest = [] → (s.isSuccess = true ↔ s.fs done = true)) →
    ((walk rounds done rest s).isSuccess = true ↔
      (walk rounds done rest s).fs (done ++ rest.take rounds) = true) ∧
    ((walk rounds done rest s).isSuccess = true ↔
      ∃ i ≤ rounds, s.fs (done ++ rest.take i) = true)
  | 0, done, rest, s, _, hs => by
    have hs := hs (.inl rfl)
    rw [walk, List.take_zero, List.append_nil]
    refine ⟨hs, hs.trans ⟨fun h => ⟨0, Nat.le_refl 0, by simpa using h⟩, ?_⟩⟩
    rintro ⟨i, hi, h⟩
    rw [Nat.le_zero.mp hi, List.take_zero, List.append_nil] at h
    exact h
  | rounds + 1, done, [], s, _, hs => by
    have hs := hs (.inr rfl)
    simp only [walk, List.take_nil, List.append_nil]
    exact ⟨hs, hs.trans ⟨fun h => ⟨0, Nat.zero_le _, h⟩, fun ⟨_, _, h⟩ => h⟩⟩
  | rounds + 1, done, c :: rest, s, hnames, _ => by
    have hparts : ∀ i, done ++ (c :: rest).take (i + 1) = done ++ [c] ++ rest.take i := by
      intro i
      simp
    have hall : ∀ x ∈ done ++ [c] ++ rest, BACKSLASH ∉ x := by simpa using hnames
    obtain ⟨hsuccess, hfs⟩ := attempt_spec s fun x hx => hall x (List.mem_append_left _ hx)
    have hself : (attempt s (joined (done ++ [c]))).isSuccess = true ↔
        (attempt s (joined (done ++ [c]))).fs (done ++ [c]) = true := by
      rw [hsuccess, hfs]
      simp
    obtain ⟨hlast, hany⟩ := walk_success rounds (done ++ [c]) rest _ hall fun _ => hself
    rw [walk, hparts]
    refine ⟨hlast, hany.trans ⟨?_, ?_⟩⟩
    · rintro ⟨i, hi, h⟩
      rw [hfs] at h
      rcases h with h | ⟨-, h⟩
      · exact ⟨i + 1, by omega, by rw [hparts]; exact h⟩
      · exact ⟨0, by omega, by simpa using h⟩
    · rintro ⟨i, hi, h⟩
      cases i with
      | zero =>
        rw [List.take_zero, List.append_nil] at h
        exact ⟨0, by omega, by rw [hfs]; exact .inr ⟨by simp, h⟩⟩
      | succ i =>
        rw [hparts] at h
        exact ⟨i, by omega, by rw [hfs]; exact .inl h⟩

/-- **The calls go from the drive on.** -/
theorem walk_increasing {path : Text} : ∀ (rounds : Nat) (done rest : List Text) (s : Progress),
    done ≠ [] → path = joined (done ++ rest) → Increasing path s.attempts →
    (∀ a ∈ s.attempts, a.length ≤ (joined done).length) →
    Increasing path (walk rounds done rest s).attempts
  | 0, _, _, _, _, _, h, _ => h
  | _ + 1, _, [], _, _, _, h, _ => h
  | rounds + 1, done, c :: rest, s, hdone, hpath, ⟨hsorted, hpre⟩, hle => by
    have hlonger := joined_concat_longer hdone c
    have hpath' : path = joined (done ++ [c] ++ rest) := by
      rw [hpath, List.append_assoc, List.singleton_append]
    have hstart : joined (done ++ [c]) <+: path := by
      rw [hpath']
      exact joined_begins (List.append_ne_nil_of_left_ne_nil hdone [c]) rest
    refine walk_increasing rounds (done ++ [c]) rest _ (by simp) hpath' ⟨?_, ?_⟩ ?_
    · refine List.pairwise_append.mpr ⟨hsorted, List.pairwise_singleton _ _, ?_⟩
      intro a ha b hb
      rw [List.mem_singleton.mp hb]
      exact Nat.lt_of_le_of_lt (hle a ha) hlonger
    · intro a ha
      rcases List.mem_append.mp ha with ha | ha
      · exact hpre a ha
      · rw [List.mem_singleton.mp ha]
        exact hstart
    · intro a ha
      rcases List.mem_append.mp ha with ha | ha
      · exact Nat.le_trans (hle a ha) (Nat.le_of_lt hlonger)
      · rw [List.mem_singleton.mp ha]

/-! ## The result -/

section Result

variable (dir : Directory) (fs : FileSystem)

theorem Directory.noBackslash : ∀ x ∈ [dir.drive] ++ dir.components, BACKSLASH ∉ x := by
  intro x hx
  rcases List.mem_cons.mp hx with rfl | hx
  · have hletter := dir.letter_ne
    have hcolon : BACKSLASH ≠ ':'.toNat := by decide
    simp only [Directory.drive, List.mem_cons, List.not_mem_nil, or_false, not_or]
    exact ⟨hletter.symm, hcolon⟩
  · exact (dir.names x hx).2

/-- The run for a path of an admissible length. -/
theorem createDirectory_eq (hlen : 4 ≤ dir.path.length ∧ dir.path.length ≤ 259) :
    CreateDirectoryRecursively fs dir.path =
      walk MAX_FOLDER_DEPTH [dir.drive] dir.components ⟨false, fs, []⟩ := by
  have hin : ¬ (dir.path.length < MAX_DRIVE + 1 ∨ MAX_PATH - 1 < dir.path.length) := by
    unfold MAX_DRIVE MAX_PATH
    omega
  have h := createLoop_eq MAX_FOLDER_DEPTH [dir.drive] dir.components ⟨false, fs, []⟩ (by simp)
    dir.nonempty dir.names
  rw [CreateDirectoryRecursively, if_neg hin, ← h, joined_singleton]
  rfl

/-- **The promise is kept exactly if there are rounds for all components, or the directory was there
before, or neither the drive nor one of the first 122 directories was.** -/
theorem createDirectory_iff (hlen : 4 ≤ dir.path.length ∧ dir.path.length ≤ 259) :
    Meets dir (CreateDirectoryRecursively fs dir.path) ↔
      dir.components.length ≤ MAX_FOLDER_DEPTH ∨ fs (dir.drive :: dir.components) = true ∨
        ∀ k ≤ MAX_FOLDER_DEPTH, fs (dir.upTo k) = false := by
  have hnames := dir.noBackslash
  have hincreasing : Increasing dir.path
      (walk MAX_FOLDER_DEPTH [dir.drive] dir.components ⟨false, fs, []⟩).attempts :=
    walk_increasing _ _ _ _ (by simp) rfl ⟨.nil, nofun⟩ nofun
  obtain ⟨hlast, hany⟩ := walk_success MAX_FOLDER_DEPTH [dir.drive] dir.components ⟨false, fs, []⟩
    hnames fun h => h.elim nofun (absurd · dir.nonempty)
  have hframe := walk_frame MAX_FOLDER_DEPTH [dir.drive] dir.components ⟨false, fs, []⟩ hnames
    (dir.drive :: dir.components)
  rw [Meets, createDirectory_eq dir fs hlen, and_iff_right hincreasing]
  by_cases hshort : dir.components.length ≤ MAX_FOLDER_DEPTH
  · rw [List.take_of_length_le hshort] at hlast
    exact ⟨fun _ => .inl hshort, fun _ => hlast.mp⟩
  · have hkept : (walk MAX_FOLDER_DEPTH [dir.drive] dir.components ⟨false, fs, []⟩).fs
        (dir.drive :: dir.components) = fs (dir.drive :: dir.components) :=
      hframe (by simp only [List.length_cons, List.length_nil]; omega)
    rw [hany, hkept, or_iff_right hshort]
    constructor
    · intro h
      by_cases hthere : fs (dir.drive :: dir.components) = true
      · exact .inl hthere
      · refine .inr fun k hk => ?_
        rw [← Bool.not_eq_true]
        exact fun hk' => hthere (h ⟨k, hk, hk'⟩)
    · rintro (h | h) ⟨k, hk, hk'⟩
      · exact h
      · have hno : fs (dir.upTo k) = false := h k hk
        exact absurd (hno.symm.trans hk') Bool.false_ne_true

end Result

/-- The drive and 123 directories below it, one in the other. -/
def deep : Directory where
  letter := 'C'.toNat
  components := List.replicate 123 (text "a")
  letter_ne := by decide
  names := fun c hc => by
    rw [List.eq_of_mem_replicate hc]
    exact ⟨by decide, by decide⟩
  nonempty := by simp

def emptyDrive : FileSystem := fun names => names == [deep.drive]

theorem deep_length : 4 ≤ deep.path.length ∧ deep.path.length ≤ 259 := by
  decide +kernel

/-- The promise is broken on a drive without directories, and kept where there is no drive. -/
theorem deep_promise : ¬ Meets deep (CreateDirectoryRecursively emptyDrive deep.path) ∧
    Meets deep (CreateDirectoryRecursively (fun _ => false) deep.path) := by
  refine ⟨fun hmeets => ?_, ?_⟩
  · obtain hshort | hthere | hnone := (createDirectory_iff deep emptyDrive deep_length).mp hmeets
    · exact absurd hshort (by decide +kernel)
    · exact absurd hthere (by decide +kernel)
    · exact absurd (hnone 0 (Nat.zero_le _)) (by decide)
  · exact (createDirectory_iff deep (fun _ => false) deep_length).mpr (.inr (.inr fun _ _ => rfl))

/-- The function returns true, and the last directory is not there. -/
theorem deep_not_created :
    (CreateDirectoryRecursively emptyDrive deep.path).isSuccess = true ∧
      (CreateDirectoryRecursively emptyDrive deep.path).fs (deep.drive :: deep.components) =
        false := by
  have hnames := deep.noBackslash
  have hrun := createDirectory_eq deep emptyDrive deep_length
  have hsuccess := (walk_success MAX_FOLDER_DEPTH [deep.drive] deep.components
    ⟨false, emptyDrive, []⟩ hnames fun h => h.elim nofun (absurd · deep.nonempty)).2
  have hframe := walk_frame MAX_FOLDER_DEPTH [deep.drive] deep.components ⟨false, emptyDrive, []⟩
    hnames (deep.drive :: deep.components) (by simp [deep, MAX_FOLDER_DEPTH])
  rw [hrun, hsuccess, hframe]
  exact ⟨⟨0, Nat.zero_le _, by decide⟩, by decide⟩

end IMonPlatform.CreateDirectory
