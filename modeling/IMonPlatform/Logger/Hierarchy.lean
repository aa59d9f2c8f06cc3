import Mathlib.Data.List.Induction
import IMonPlatform.Lib.DepthFirst
import IMonPlatform.Lib.Transition
import IMonPlatform.Logger.Configuration

/-!
# The logger hierarchy

`GetLogger` makes a logger on its first call for a name, and on the way the loggers for the parts
of the name before each `/`.  Only the latter, and names without `/`, are entered into the child
list of their parent; `SetLoggerConfiguration` goes down these lists.

* `LoggerMap`, `getLogger`, `initLogger`, `setLoggerConfiguration` — the source's functions.
* `registry` — the loggers after `InitLogger` and a sequence of `GetLogger` calls.
* `told_registry` — who is in which child list, read off the sequence of calls.
* `setLoggerConfiguration_returns_iff` — when `SetLoggerConfiguration` returns.
* `configuration_reaches_iff` — exactly when a configuration reaches all loggers below a name.
* `creation_order_iff` — exactly when creating a logger and configuring its parent commute.
-/

set_option autoImplicit false

namespace IMonPlatform.Logger

open Relation
open Format (CharT)

def SLASH : CharT := '/'.toNat

def DEFAULT_ROOT_LOGGER : Text := text "root"

def MAX_LOGGERNAME_SIZE : Nat := 128

/-- `strncpy_s` with `_TRUNCATE` into a logger's name field. -/
def truncate (name : Text) : Text :=
  (name.takeWhile (· ≠ 0)).take (MAX_LOGGERNAME_SIZE - 1)

/-- `wcsicmp` of the "C" locale on texts up to their NUL, as an equality test. -/
def wcsicmpEq (a b : Text) : Bool :=
  let lower (c : CharT) : CharT := if 'A'.toNat ≤ c ∧ c ≤ 'Z'.toNat then c + 32 else c
  (a.takeWhile (· ≠ 0)).map lower == (b.takeWhile (· ≠ 0)).map lower

/-- `_mapNameToLogger` with the members of its loggers; a `CLogger*` is the key it stands under. -/
structure LoggerMap where
  isLogger : Text → Bool
  vecChilds : Text → List Text
  loggerConfiguration : Text → LoggerConfiguration

variable (env : LoggerEnv)

def loggerNameA (name : Text) : Text := truncate name

def loggerNameW (name : Text) : Text := truncate (env.CA2U name)

namespace LoggerMap

/-- `new CLogger( name, CA2U( name ), _defaultConfiguration )` under the key `name`. -/
def newLogger (s : LoggerMap) (defaultConfiguration : LoggerConfiguration) (name : Text) :
    LoggerMap where
  isLogger := Function.update s.isLogger name true
  vecChilds := Function.update s.vecChilds name []
  loggerConfiguration := Function.update s.loggerConfiguration name
    (finishConfiguration env (loggerNameA name) (loggerNameW env name) defaultConfiguration)

def appendChildLogger (s : LoggerMap) (parent child : Text) : LoggerMap :=
  { s with vecChilds := Function.update s.vecChilds parent (s.vecChilds parent ++ [child]) }

/-- The texts before each `/` of `rest`, with `pre` in front. -/
def cutsFrom : Text → Text → List Text
  | _, [] => []
  | pre, c :: rest =>
    if c = SLASH then pre :: cutsFrom (pre ++ [c]) rest else cutsFrom (pre ++ [c]) rest

/-- The values of `childName` in the loop of `GetLogger`. -/
def cuts (loggerName : Text) : List Text := cutsFrom [] loggerName

/-- A round of that loop; the state has `parentName`. -/
def visitChild (defaultConfiguration : LoggerConfiguration) (s : LoggerMap × Text)
    (childName : Text) : LoggerMap × Text :=
  if s.1.isLogger childName then (s.1, childName)
  else
    ((s.1.newLogger env defaultConfiguration childName).appendChildLogger
      (if s.2 = [] then DEFAULT_ROOT_LOGGER else s.2) childName, childName)

def getLogger (defaultConfiguration : LoggerConfiguration) (s : LoggerMap) (loggerName : Text) :
    LoggerMap :=
  if s.isLogger loggerName then s
  else
    let s := s.newLogger env defaultConfiguration loggerName
    if SLASH ∈ loggerName then
      ((cuts loggerName).foldl (visitChild env defaultConfiguration) (s, [])).1
    else s.appendChildLogger DEFAULT_ROOT_LOGGER loggerName

/-- The map is empty before `InitLogger`. -/
def empty : LoggerMap := ⟨fun _ => false, fun _ => [], fun _ => .create⟩

def initLogger (defaultConfiguration : LoggerConfiguration) : LoggerMap :=
  empty.getLogger env defaultConfiguration DEFAULT_ROOT_LOGGER

/-- The loop of `SetLoggerConfiguration` passes over this child. -/
def skips (loggerConfiguration : LoggerConfiguration) (child : Text) : Bool :=
  wcsicmpEq (loggerNameW env child) loggerConfiguration.loggerNameW

/-- The children that `SetLoggerConfiguration` goes on to. -/
def configured (s : LoggerMap) (loggerConfiguration : LoggerConfiguration) (name : Text) :
    List Text :=
  (s.vecChilds name).filter fun child => !skips env loggerConfiguration child

/-- Store the configuration, configure the children, finish the configuration.  The first argument
bounds the depth of the calls; `none` is a call that needs more. -/
def setLoggerConfiguration (fuel : Nat) (s : LoggerMap) (name : Text)
    (loggerConfiguration : LoggerConfiguration) : Option LoggerMap :=
  (DepthFirst.visit (s.configured env loggerConfiguration) (fun _ => loggerConfiguration)
    (fun child => finishConfiguration env (loggerNameA child) (loggerNameW env child)) fuel
    s.loggerConfiguration name).map fun configurations =>
      { s with loggerConfiguration := configurations }

/-- The loggers after `InitLogger` and `GetLogger` calls for these names. -/
def registry (defaultConfiguration : LoggerConfiguration) (names : List Text) : LoggerMap :=
  names.foldl (getLogger env defaultConfiguration) (initLogger env defaultConfiguration)

/-! ## Names -/

/-- The part of a name before its last `/`, empty without one. -/
def parentOf (name : Text) : Text := ((name.reverse.dropWhile (· ≠ SLASH)).drop 1).reverse

/-- The logger into whose child list `GetLogger` enters a name. -/
def codeParent (name : Text) : Text :=
  if parentOf name = [] then DEFAULT_ROOT_LOGGER else parentOf name

theorem parentOf_append_slash (pre : Text) : parentOf (pre ++ [SLASH]) = pre := by
  simp [parentOf]

theorem parentOf_append_other (pre : Text) {c : CharT} (h : c ≠ SLASH) :
    parentOf (pre ++ [c]) = parentOf pre := by
  simp [parentOf, h]

theorem parentOf_of_not_mem {name : Text} (h : SLASH ∉ name) : parentOf name = [] := by
  have hall : name.reverse.dropWhile (· ≠ SLASH) = [] := by
    apply List.dropWhile_eq_nil_iff.mpr
    intro c hc
    have hne : c ≠ SLASH := fun heq => h (heq ▸ List.mem_reverse.mp hc)
    simpa using hne
  rw [parentOf, hall]
  rfl

theorem mem_cutsFrom {q pre rest : Text} :
    q ∈ cutsFrom pre rest ↔ ∃ a b, rest = a ++ SLASH :: b ∧ q = pre ++ a := by
  induction rest generalizing pre with
  | nil => simp [cutsFrom]
  | cons c rest ih =>
    have hlater : (∃ a b, c :: rest = a ++ SLASH :: b ∧ q = pre ++ a) ↔
        (c = SLASH ∧ q = pre) ∨ ∃ a b, rest = a ++ SLASH :: b ∧ q = pre ++ [c] ++ a := by
      constructor
      · rintro ⟨a, b, hrest, rfl⟩
        cases a with
        | nil =>
          cases hrest
          exact .inl ⟨rfl, by simp⟩
        | cons x a =>
          cases hrest
          exact .inr ⟨a, b, rfl, by simp⟩
      · rintro (⟨rfl, rfl⟩ | ⟨a, b, rfl, rfl⟩)
        · exact ⟨[], rest, rfl, by simp⟩
        · exact ⟨c :: a, b, rfl, by simp⟩
    rw [hlater, cutsFrom]
    split
    · rename_i hc
      simp [hc, ih]
    · rename_i hc
      simp [hc, ih]

theorem mem_cuts {q name : Text} : q ∈ cuts name ↔ ∃ b, name = q ++ SLASH :: b := by
  unfold cuts
  rw [mem_cutsFrom]
  constructor
  · rintro ⟨a, b, rfl, rfl⟩
    exact ⟨b, rfl⟩
  · rintro ⟨b, rfl⟩
    exact ⟨q, b, rfl, rfl⟩

theorem not_mem_cuts_self (name : Text) : name ∉ cuts name := by
  intro h
  obtain ⟨b, hb⟩ := mem_cuts.mp h
  have := congrArg List.length hb
  simp at this

theorem mem_cuts_trans {q r name : Text} (hq : q ∈ cuts r) (hr : r ∈ cuts name) :
    q ∈ cuts name := by
  obtain ⟨b, rfl⟩ := mem_cuts.mp hq
  obtain ⟨b', rfl⟩ := mem_cuts.mp hr
  exact mem_cuts.mpr ⟨b ++ SLASH :: b', by simp⟩

theorem cuts_of_not_mem {name : Text} (h : SLASH ∉ name) : cuts name = [] := by
  apply List.eq_nil_iff_forall_not_mem.mpr
  intro q hq
  obtain ⟨b, rfl⟩ := mem_cuts.mp hq
  exact h (by simp)

/-! ## What `GetLogger` adds -/

/-- The configuration of a new logger. -/
def fresh (defaultConfiguration : LoggerConfiguration) (name : Text) : LoggerConfiguration :=
  finishConfiguration env (loggerNameA name) (loggerNameW env name) defaultConfiguration

/-- The child lists are lists of loggers under their parents. -/
structure Listed (s : LoggerMap) : Prop where
  root : s.isLogger DEFAULT_ROOT_LOGGER = true
  empty : ∀ m, s.isLogger m = false → s.vecChilds m = []
  parent : ∀ m q, q ∈ s.vecChilds m → m = codeParent q ∧ s.isLogger q = true

/-- The loggers on the way to a logger are there. -/
def Closed (s : LoggerMap) : Prop :=
  ∀ n, s.isLogger n = true → ∀ q ∈ cuts n, s.isLogger q = true

/-- `s'` has the loggers `new` besides those of `s`, and of these the ones in `entered` are in the
child lists of their parents. -/
structure Grown (d : LoggerConfiguration) (s s' : LoggerMap) (new entered : Text → Prop) :
    Prop where
  isLogger : ∀ q, s'.isLogger q = true ↔ s.isLogger q = true ∨ new q
  vecChilds : ∀ m q, q ∈ s'.vecChilds m ↔
    q ∈ s.vecChilds m ∨ (m = codeParent q ∧ s.isLogger q = false ∧ entered q)
  kept : ∀ q, s.isLogger q = true → s'.loggerConfiguration q = s.loggerConfiguration q
  made : ∀ q, s.isLogger q = false → new q → s'.loggerConfiguration q = fresh env d q

variable {env} {d : LoggerConfiguration} {s s' s'' : LoggerMap}
  {new new' entered entered' : Text → Prop}

/-- Nothing happens for loggers that are there. -/
theorem Grown.of_old (hnew : ∀ q, new q → s.isLogger q = true) (hsub : ∀ q, entered q → new q) :
    Grown env d s s new entered := by
  refine ⟨fun q => ⟨.inl, fun h => h.elim id (hnew q)⟩, fun m q => ⟨.inl, ?_⟩, fun _ _ => rfl, ?_⟩
  · rintro (h | ⟨-, hq, he⟩)
    · exact h
    · rw [hnew q (hsub q he)] at hq
      cases hq
  · intro q hq hn
    rw [hnew q hn] at hq
    cases hq

theorem Grown.congr (h : Grown env d s s' new entered) (hnew : ∀ q, new q ↔ new' q)
    (hentered : ∀ q, entered q ↔ entered' q) : Grown env d s s' new' entered' := by
  obtain rfl : new = new' := funext fun q => propext (hnew q)
  obtain rfl : entered = entered' := funext fun q => propext (hentered q)
  exact h

theorem Grown.trans (h : Grown env d s s' new entered) (h' : Grown env d s' s'' new' entered') :
    Grown env d s s'' (fun q => new q ∨ new' q)
      (fun q => entered q ∨ ¬ new q ∧ entered' q) := by
  have hold : ∀ q, s'.isLogger q = false ↔ s.isLogger q = false ∧ ¬ new q := by
    intro q
    have := h.isLogger q
    cases hs : s.isLogger q <;> cases hs' : s'.isLogger q <;> simp_all
  refine ⟨?_, ?_, ?_, ?_⟩
  · intro q
    rw [h'.isLogger, h.isLogger, or_assoc]
  · intro m q
    rw [h'.vecChilds, h.vecChilds, hold]
    constructor
    · rintro ((hmem | ⟨hm, hq, he⟩) | ⟨hm, ⟨hq, hn⟩, he⟩)
      · exact .inl hmem
      · exact .inr ⟨hm, hq, .inl he⟩
      · exact .inr ⟨hm, hq, .inr ⟨hn, he⟩⟩
    · rintro (hmem | ⟨hm, hq, he | ⟨hn, he⟩⟩)
      · exact .inl (.inl hmem)
      · exact .inl (.inr ⟨hm, hq, he⟩)
      · exact .inr ⟨hm, ⟨hq, hn⟩, he⟩
  · intro q hq
    rw [h'.kept q ((h.isLogger q).mpr (.inl hq)), h.kept q hq]
  · intro q hq hnew
    by_cases hn : new q
    · rw [h'.kept q ((h.isLogger q).mpr (.inr hn)), h.made q hq hn]
    · exact h'.made q ((hold q).mpr ⟨hq, hn⟩) (hnew.resolve_left hn)

/-- The logger alone, in no child list. -/
theorem grown_newLogger (hwf : Listed s) {name : Text} (hname : s.isLogger name = false) :
    Grown env d s (s.newLogger env d name) (· = name) (fun _ => False) := by
  refine ⟨?_, ?_, ?_, ?_⟩
  · intro q
    by_cases hq : q = name <;> simp [newLogger, hq]
  · intro m q
    by_cases hm : m = name
    · simp [newLogger, hm, hwf.empty name hname]
    · simp [newLogger, Function.update_of_ne hm]
  · intro q hq
    have hne : q ≠ name := by
      rintro rfl
      rw [hname] at hq
      cases hq
    simp [newLogger, Function.update_of_ne hne]
  · rintro q - rfl
    simp [newLogger, fresh]

/-- The logger in the child list of its parent. -/
theorem grown_appendChild (hwf : Listed s) {name : Text} (hname : s.isLogger name = false) :
    Grown env d s ((s.newLogger env d name).appendChildLogger (codeParent name) name)
      (· = name) (· = name) := by
  have hnew : Grown env d s _ _ _ := grown_newLogger hwf hname
  refine ⟨hnew.isLogger, ?_, hnew.kept, hnew.made⟩
  intro m q
  have hmem : q ∈ (s.newLogger env d name).vecChilds m ↔ q ∈ s.vecChilds m := by
    rw [hnew.vecChilds]
    simp
  by_cases hm : m = codeParent name
  · subst hm
    simp only [appendChildLogger, Function.update_self, List.mem_append, hmem,
      List.mem_singleton]
    constructor
    · rintro (h | rfl)
      · exact .inl h
      · exact .inr ⟨rfl, hname, rfl⟩
    · rintro (h | ⟨-, -, rfl⟩)
      · exact .inl h
      · exact .inr rfl
  · simp only [appendChildLogger, Function.update_of_ne hm, hmem]
    constructor
    · exact fun h => .inl h
    · rintro (h | ⟨hcp, -, rfl⟩)
      · exact h
      · exact absurd hcp hm

theorem Listed.grown (hl : Listed s) (h : Grown env d s s' new entered)
    (hsub : ∀ q, entered q → new q)
    (hparent : ∀ q, entered q → s'.isLogger (codeParent q) = true) : Listed s' := by
  refine ⟨(h.isLogger _).mpr (.inl hl.root), ?_, ?_⟩
  · intro m hm
    apply List.eq_nil_iff_forall_not_mem.mpr
    intro q hq
    rcases (h.vecChilds m q).mp hq with hq | ⟨rfl, -, he⟩
    · have hm' : s.isLogger m = false := by
        cases hs : s.isLogger m with
        | false => rfl
        | true =>
          rw [(h.isLogger m).mpr (.inl hs)] at hm
          cases hm
      rw [hl.empty m hm'] at hq
      cases hq
    · rw [hparent q he] at hm
      cases hm
  · intro m q hq
    rcases (h.vecChilds m q).mp hq with hq | ⟨rfl, -, he⟩
    · exact ⟨(hl.parent m q hq).1, (h.isLogger q).mpr (.inl (hl.parent m q hq).2)⟩
    · exact ⟨rfl, (h.isLogger q).mpr (.inr (hsub q he))⟩

/-- A round of the loop: `parentName` is the part of `childName` before its last `/`. -/
theorem visitChild_grown (hl : Listed s) {childName : Text}
    (hparent : s.isLogger (codeParent childName) = true) :
    Grown env d s (visitChild env d (s, parentOf childName) childName).1 (· = childName)
      (· = childName) ∧
    Listed (visitChild env d (s, parentOf childName) childName).1 := by
  unfold visitChild
  simp only
  split
  · rename_i hold
    exact ⟨.of_old (fun q hq => hq ▸ hold) (fun _ h => h), hl⟩
  · rename_i hnew
    have hgrown : Grown env d s _ _ _ := grown_appendChild hl (Bool.eq_false_iff.mpr hnew)
    refine ⟨hgrown, hl.grown hgrown (fun _ h => h) ?_⟩
    rintro q rfl
    exact (hgrown.isLogger _).mpr (.inl hparent)

/-- The loop makes the missing loggers before each `/` and enters each of them. -/
theorem foldl_visitChild_grown (rest : Text) :
    ∀ (pre : Text) (s : LoggerMap), Listed s → s.isLogger (codeParent pre) = true →
      Grown env d s ((cutsFrom pre rest).foldl (visitChild env d) (s, parentOf pre)).1
        (· ∈ cutsFrom pre rest) (· ∈ cutsFrom pre rest) ∧
      Listed ((cutsFrom pre rest).foldl (visitChild env d) (s, parentOf pre)).1 := by
  induction rest with
  | nil =>
    intro pre s hl _
    exact ⟨.of_old (by simp [cutsFrom]) (fun _ h => h), hl⟩
  | cons c rest ih =>
    intro pre s hl hparent
    rw [cutsFrom]
    split
    · rename_i hc
      subst hc
      obtain ⟨hgrown, hl'⟩ : Grown env d s _ _ _ ∧ _ := visitChild_grown hl hparent
      have hpair : visitChild env d (s, parentOf pre) pre =
          ((visitChild env d (s, parentOf pre) pre).1, parentOf (pre ++ [SLASH])) := by
        rw [parentOf_append_slash]
        unfold visitChild
        split <;> rfl
      have hnext : (visitChild env d (s, parentOf pre) pre).1.isLogger
          (codeParent (pre ++ [SLASH])) = true := by
        unfold codeParent
        rw [parentOf_append_slash]
        split
        · exact hl'.root
        · exact (hgrown.isLogger pre).mpr (.inr rfl)
      obtain ⟨hrest, hlisted⟩ := ih (pre ++ [SLASH]) _ hl' hnext
      rw [List.foldl_cons, hpair]
      refine ⟨(hgrown.trans hrest).congr ?_ ?_, hlisted⟩
      · intro q
        rw [List.mem_cons]
      · intro q
        rw [List.mem_cons]
        tauto
    · rename_i hc
      have hsame := parentOf_append_other pre hc
      have := ih (pre ++ [c]) s hl (by unfold codeParent; rw [hsame]; exact hparent)
      rwa [hsame] at this

/-- **What `GetLogger` does**: the logger and those on the way to it are there, and the new ones
are entered, except the logger itself if its name has a `/`. -/
theorem getLogger_grown (hl : Listed s) (hc : Closed s) (name : Text) :
    Grown env d s (s.getLogger env d name) (fun q => q = name ∨ q ∈ cuts name)
      (fun q => q ∈ cuts name ∨ q = name ∧ SLASH ∉ name) ∧
    Listed (s.getLogger env d name) ∧ Closed (s.getLogger env d name) := by
  have hgl : Grown env d s (s.getLogger env d name) (fun q => q = name ∨ q ∈ cuts name)
      (fun q => q ∈ cuts name ∨ q = name ∧ SLASH ∉ name) ∧
      Listed (s.getLogger env d name) := by
    unfold getLogger
    split
    · rename_i hold
      refine ⟨.of_old ?_ ?_, hl⟩
      · rintro q (rfl | hq)
        · exact hold
        · exact hc name hold q hq
      · tauto
    · rename_i hnew
      have hname : s.isLogger name = false := Bool.eq_false_iff.mpr hnew
      simp only
      split
      · rename_i hslash
        have hgrown : Grown env d s _ _ _ := grown_newLogger hl hname
        have hl' : Listed (s.newLogger env d name) := hl.grown hgrown (by simp) (by simp)
        obtain ⟨hloop, hlisted⟩ : Grown env d _ _ _ _ ∧ _ :=
          foldl_visitChild_grown name [] _ hl' hl'.root
        refine ⟨(hgrown.trans hloop).congr (fun _ => Iff.rfl) ?_, hlisted⟩
        intro q
        have hself := not_mem_cuts_self name
        constructor
        · rintro (h | ⟨-, h⟩)
          · exact h.elim
          · exact .inl h
        · rintro (h | ⟨-, h⟩)
          · exact .inr ⟨fun heq => hself (heq ▸ h), h⟩
          · exact absurd hslash h
      · rename_i hslash
        have hgrown : Grown env d s _ _ _ := grown_appendChild hl hname
        have hcp : codeParent name = DEFAULT_ROOT_LOGGER := by
          rw [codeParent, parentOf_of_not_mem hslash, if_pos rfl]
        rw [hcp] at hgrown
        refine ⟨hgrown.congr ?_ ?_, hl.grown hgrown (fun _ h => h) ?_⟩
        · simp [cuts_of_not_mem hslash]
        · simp [cuts_of_not_mem hslash, hslash]
        · rintro q rfl
          rw [hcp]
          exact (hgrown.isLogger _).mpr (.inl hl.root)
  refine ⟨hgl.1, hgl.2, ?_⟩
  intro n hn q hq
  apply (hgl.1.isLogger q).mpr
  rcases (hgl.1.isLogger n).mp hn with hn | rfl | hn
  · exact .inl (hc n hn q hq)
  · exact .inr (.inr hq)
  · exact .inr (.inr (mem_cuts_trans hq hn))

/-! ## The child lists after a sequence of calls -/

/-- A call names the logger or one below it. -/
def Named (names : List Text) (q : Text) : Prop := ∃ n ∈ names, q = n ∨ q ∈ cuts n

/-- The first call that names the logger or one below it names one below it. -/
def OnTheWay : List Text → Text → Prop
  | [], _ => False
  | n :: names, q => q ∈ cuts n ∨ q ≠ n ∧ OnTheWay names q

/-- `q` was made by `InitLogger` or by one of the calls and entered into a child list: it has no
`/`, or it was made on the way to a longer name. -/
def Entered (names : List Text) (q : Text) : Prop :=
  (q = DEFAULT_ROOT_LOGGER ∨ Named names q) ∧ (SLASH ∉ q ∨ OnTheWay names q)

theorem named_snoc {names : List Text} {n q : Text} :
    Named (names ++ [n]) q ↔ Named names q ∨ q = n ∨ q ∈ cuts n := by
  simp [Named, or_and_right, exists_or]

theorem onTheWay_named {names : List Text} {q : Text} (h : OnTheWay names q) : Named names q := by
  induction names with
  | nil => exact h.elim
  | cons n names ih =>
    rcases h with h | ⟨-, h⟩
    · exact ⟨n, List.mem_cons_self, .inr h⟩
    · obtain ⟨m, hm, hq⟩ := ih h
      exact ⟨m, List.mem_cons_of_mem n hm, hq⟩

theorem onTheWay_snoc {names : List Text} {n q : Text} :
    OnTheWay (names ++ [n]) q ↔ OnTheWay names q ∨ ¬ Named names q ∧ q ∈ cuts n := by
  induction names with
  | nil => simp [OnTheWay, Named]
  | cons m names ih =>
    have hnamed : Named (m :: names) q ↔ (q = m ∨ q ∈ cuts m) ∨ Named names q := by
      simp [Named]
    simp only [List.cons_append, OnTheWay, ih, hnamed]
    constructor
    · rintro (hcut | ⟨hne, hway | ⟨hnot, hcut⟩⟩)
      · exact .inl (.inl hcut)
      · exact .inl (.inr ⟨hne, hway⟩)
      · by_cases hm : q ∈ cuts m
        · exact .inl (.inl hm)
        · exact .inr ⟨fun h => h.elim (fun h => h.elim hne hm) hnot, hcut⟩
    · rintro ((hcut | ⟨hne, hway⟩) | ⟨hnot, hcut⟩)
      · exact .inl hcut
      · exact .inr ⟨hne, .inl hway⟩
      · exact .inr ⟨fun h => hnot (.inl (.inl h)), .inr ⟨fun h => hnot (.inr h), hcut⟩⟩

/-- The loggers after `InitLogger`: "root", which is its own child. -/
theorem initLogger_eq (d : LoggerConfiguration) :
    initLogger env d =
      (empty.newLogger env d DEFAULT_ROOT_LOGGER).appendChildLogger DEFAULT_ROOT_LOGGER
        DEFAULT_ROOT_LOGGER := by
  unfold initLogger getLogger
  rw [if_neg (by simp [empty])]
  exact if_neg (by decide)

theorem slash_not_mem_root : SLASH ∉ DEFAULT_ROOT_LOGGER := by decide

theorem codeParent_root : codeParent DEFAULT_ROOT_LOGGER = DEFAULT_ROOT_LOGGER := by
  rw [codeParent, parentOf_of_not_mem slash_not_mem_root, if_pos rfl]

/-- The loggers after `InitLogger` and a sequence of calls, told from the calls. -/
structure Told (env : LoggerEnv) (d : LoggerConfiguration) (names : List Text) (s : LoggerMap) :
    Prop where
  listed : Listed s
  closed : Closed s
  isLogger : ∀ q, s.isLogger q = true ↔ q = DEFAULT_ROOT_LOGGER ∨ Named names q
  vecChilds : ∀ m q, q ∈ s.vecChilds m ↔ m = codeParent q ∧ Entered names q
  configuration : ∀ q, s.isLogger q = true → s.loggerConfiguration q = fresh env d q

theorem told_initLogger (d : LoggerConfiguration) : Told env d [] (initLogger env d) := by
  have hlogger : ∀ q, (initLogger env d).isLogger q = true ↔ q = DEFAULT_ROOT_LOGGER := by
    intro q
    rw [initLogger_eq]
    by_cases hq : q = DEFAULT_ROOT_LOGGER <;> simp [appendChildLogger, newLogger, empty, hq]
  have hchilds : ∀ m q, q ∈ (initLogger env d).vecChilds m ↔
      m = DEFAULT_ROOT_LOGGER ∧ q = DEFAULT_ROOT_LOGGER := by
    intro m q
    rw [initLogger_eq]
    by_cases hm : m = DEFAULT_ROOT_LOGGER <;> simp [appendChildLogger, newLogger, empty, hm]
  refine ⟨⟨(hlogger _).mpr rfl, ?_, ?_⟩, ?_, ?_, ?_, ?_⟩
  · intro m hm
    apply List.eq_nil_iff_forall_not_mem.mpr
    intro q hq
    obtain ⟨rfl, -⟩ := (hchilds m q).mp hq
    rw [(hlogger _).mpr rfl] at hm
    cases hm
  · intro m q hq
    obtain ⟨rfl, rfl⟩ := (hchilds m q).mp hq
    exact ⟨codeParent_root.symm, (hlogger _).mpr rfl⟩
  · intro n hn q hq
    rw [(hlogger n).mp hn, cuts_of_not_mem slash_not_mem_root] at hq
    cases hq
  · intro q
    simp [hlogger, Named]
  · intro m q
    rw [hchilds]
    constructor
    · rintro ⟨rfl, rfl⟩
      exact ⟨codeParent_root.symm, .inl rfl, .inl slash_not_mem_root⟩
    · rintro ⟨hm, hq | ⟨n, hn, -⟩, -⟩
      · subst hq
        exact ⟨hm.trans codeParent_root, rfl⟩
      · cases hn
  · intro q hq
    rw [(hlogger q).mp hq, initLogger_eq]
    simp [appendChildLogger, newLogger, fresh]

theorem told_getLogger {names : List Text} (h : Told env d names s) (n : Text) :
    Told env d (names ++ [n]) (s.getLogger env d n) := by
  obtain ⟨hgrown, hlisted, hclosed⟩ : Grown env d s _ _ _ ∧ _ :=
    getLogger_grown h.listed h.closed n
  have hold : ∀ q, s.isLogger q = false ↔ q ≠ DEFAULT_ROOT_LOGGER ∧ ¬ Named names q := by
    intro q
    rw [← Bool.not_eq_true, h.isLogger q, not_or]
  refine ⟨hlisted, hclosed, ?_, ?_, ?_⟩
  · intro q
    rw [hgrown.isLogger, h.isLogger, named_snoc, or_assoc]
  · intro m q
    rw [hgrown.vecChilds, h.vecChilds, hold]
    unfold Entered
    rw [named_snoc, onTheWay_snoc]
    constructor
    · rintro (⟨hm, hq, hway⟩ | ⟨hm, ⟨hroot, hnot⟩, hcut | ⟨rfl, hslash⟩⟩)
      · exact ⟨hm, by tauto, hway.imp_right .inl⟩
      · exact ⟨hm, .inr (.inr (.inr hcut)), .inr (.inr ⟨hnot, hcut⟩)⟩
      · exact ⟨hm, .inr (.inr (.inl rfl)), .inl hslash⟩
    · rintro ⟨hm, hq, hway⟩
      by_cases hlogger : q = DEFAULT_ROOT_LOGGER ∨ Named names q
      · refine .inl ⟨hm, hlogger, ?_⟩
        rcases hway with hway | hway | ⟨hnot, -⟩
        · exact .inl hway
        · exact .inr hway
        · rw [hlogger.resolve_right hnot]
          exact .inl slash_not_mem_root
      · rw [not_or] at hlogger
        refine .inr ⟨hm, hlogger, ?_⟩
        rcases hway with hway | hway | ⟨-, hcut⟩
        · rcases hq with hq | hq | hq | hq
          · exact absurd hq hlogger.1
          · exact absurd hq hlogger.2
          · exact .inr ⟨hq, hq ▸ hway⟩
          · exact .inl hq
        · exact absurd (onTheWay_named hway) hlogger.2
        · exact .inl hcut
  · intro q hq
    cases hs : s.isLogger q with
    | true => rw [hgrown.kept q hs, h.configuration q hs]
    | false =>
      have hnew := ((hgrown.isLogger q).mp hq).resolve_left (by rw [hs]; decide)
      exact hgrown.made q hs hnew

theorem told_registry (names : List Text) : Told env d names (registry env d names) := by
  induction names using List.reverseRecOn with
  | nil => exact told_initLogger d
  | append_singleton names n ih =>
    rw [registry, List.foldl_append]
    exact told_getLogger ih n

/-! ## What `SetLoggerConfiguration` reaches -/

theorem edge_configured {c : LoggerConfiguration} {a b : Text} :
    DepthFirst.Edge (s.configured env c) a b ↔ b ∈ s.vecChilds a ∧ skips env c b = false := by
  simp [DepthFirst.Edge, configured]

/-- Paths and code pages that leave a text as it is. -/
def plainEnv : LoggerEnv := ⟨text "C:\\log", id, id, id⟩

/-- The default configuration with another level. -/
def quiet : LoggerConfiguration := { LoggerConfiguration.create with logLevel := .LL_NONE }

/-- A call that returns configures the loggers that it reaches along the child lists and no
others. -/
theorem setLoggerConfiguration_spec {fuel : Nat} {name : Text} {c : LoggerConfiguration}
    (h : setLoggerConfiguration env fuel s name c = some s') :
    s'.isLogger = s.isLogger ∧ s'.vecChilds = s.vecChilds ∧
      ∀ q, (ReflTransGen (DepthFirst.Edge (s.configured env c)) name q →
          s'.loggerConfiguration q = fresh env c q) ∧
        (¬ ReflTransGen (DepthFirst.Edge (s.configured env c)) name q →
          s'.loggerConfiguration q = s.loggerConfiguration q) := by
  obtain ⟨configurations, hvisit, rfl⟩ := Option.map_eq_some_iff.mp h
  refine ⟨rfl, rfl, fun q => ⟨fun hq => ?_, fun hq => ?_⟩⟩
  · exact DepthFirst.visit_reached hvisit hq
  · exact DepthFirst.visit_unreached hvisit hq

/-- `q` has the configuration `c`, up to its own names and the completion of path and texts. -/
def HasConfiguration (env : LoggerEnv) (s : LoggerMap) (c : LoggerConfiguration) (q : Text) :
    Prop :=
  s.loggerConfiguration q = finishConfiguration env (loggerNameA q) (loggerNameW env q) c

/-- The name is `p` or begins with `p/`; below "root" is every name. -/
def Below (p q : Text) : Prop := p = DEFAULT_ROOT_LOGGER ∨ q = p ∨ p ++ [SLASH] <+: q

/-- `b` was entered into the child list of `a` and does not carry the name in `c`. -/
def PassedOn (env : LoggerEnv) (names : List Text) (c : LoggerConfiguration) (a b : Text) : Prop :=
  a = codeParent b ∧ Entered names b ∧ skips env c b = false

theorem edge_registry {names : List Text} {c : LoggerConfiguration} :
    DepthFirst.Edge ((registry env d names).configured env c) = PassedOn env names c := by
  funext a b
  rw [edge_configured, (told_registry names).vecChilds, and_assoc]
  rfl

/-! ### When it returns -/

theorem named_length (names : List Text) : ∃ bound, ∀ q, Named names q → q.length ≤ bound := by
  induction names with
  | nil => exact ⟨0, fun q ⟨n, hn, _⟩ => by cases hn⟩
  | cons m names ih =>
    obtain ⟨bound, hbound⟩ := ih
    refine ⟨max m.length bound, ?_⟩
    rintro q ⟨n, hn, hq⟩
    rcases List.mem_cons.mp hn with rfl | hn
    · have hle : q.length ≤ n.length := by
        rcases hq with rfl | hq
        · exact Nat.le_refl _
        · obtain ⟨b, rfl⟩ := mem_cuts.mp hq
          simp
      omega
    · have := hbound q ⟨n, hn, hq⟩
      omega

theorem parentOf_length {q : Text} (h : parentOf q ≠ []) : (parentOf q).length < q.length := by
  have hpos := List.length_pos_iff.mpr h
  have hle : (q.reverse.dropWhile (· ≠ SLASH)).length ≤ q.length := by
    have := (List.dropWhile_sublist (p := fun c => decide (c ≠ SLASH)) (l := q.reverse)).length_le
    simpa using this
  unfold parentOf at hpos ⊢
  simp only [List.length_reverse, List.length_drop] at hpos ⊢
  omega

/-- Only "root" has "root" in its child list. -/
theorem reaches_root {names : List Text} {c : LoggerConfiguration} {p : Text}
    (h : ReflTransGen (PassedOn env names c) p DEFAULT_ROOT_LOGGER) : p = DEFAULT_ROOT_LOGGER := by
  have hall : ∀ q, ReflTransGen (PassedOn env names c) p q → q = DEFAULT_ROOT_LOGGER →
      p = DEFAULT_ROOT_LOGGER := by
    intro q hq
    induction hq with
    | refl => exact id
    | tail _ hedge ih =>
      rintro rfl
      exact ih (hedge.1.trans codeParent_root)
  exact hall _ h rfl

/-- **`SetLoggerConfiguration` returns unless it is called for "root" with a configuration that
does not carry that name**: then it calls itself for "root" without end. -/
theorem setLoggerConfiguration_returns_iff (d : LoggerConfiguration) (names : List Text) (p : Text)
    (c : LoggerConfiguration) :
    (∃ fuel s', setLoggerConfiguration env fuel (registry env d names) p c = some s') ↔
      p ≠ DEFAULT_ROOT_LOGGER ∨ skips env c DEFAULT_ROOT_LOGGER = true := by
  constructor
  · rintro ⟨fuel, s', h⟩
    by_contra hnot
    rw [not_or, not_not, Bool.not_eq_true] at hnot
    obtain ⟨rfl, hskip⟩ := hnot
    have hself : TransGen (DepthFirst.Edge ((registry env d names).configured env c))
        DEFAULT_ROOT_LOGGER DEFAULT_ROOT_LOGGER := by
      rw [edge_registry]
      exact .single ⟨codeParent_root.symm, ⟨.inl rfl, .inl slash_not_mem_root⟩, hskip⟩
    unfold setLoggerConfiguration at h
    rw [DepthFirst.visit_acyclic hself] at h
    cases h
  · intro hp
    obtain ⟨bound, hbound⟩ := named_length names
    -- The names get longer from logger to child, except from "root".
    let rank (q : Text) : Nat := if q = DEFAULT_ROOT_LOGGER then bound + 1 else bound - q.length
    have hrank : ∀ x, ReflTransGen (PassedOn env names c) p x → ∀ y, PassedOn env names c x y →
        rank y < rank x := by
      rintro x hx y ⟨hparent, hentered, hskip⟩
      have hy : y ≠ DEFAULT_ROOT_LOGGER := by
        rintro rfl
        rw [hparent, codeParent_root] at hx
        rcases hp with hp | hp
        · exact hp (reaches_root hx)
        · rw [hp] at hskip
          cases hskip
      have hlen := hbound y (hentered.1.resolve_left hy)
      simp only [rank, if_neg hy]
      by_cases hxr : x = DEFAULT_ROOT_LOGGER
      · rw [if_pos hxr]
        omega
      · rw [if_neg hxr]
        rw [codeParent] at hparent
        split at hparent
        · exact absurd hparent hxr
        · rename_i hne
          have := parentOf_length hne
          rw [← hparent] at this
          omega
    rw [← @edge_registry env d names c] at hrank
    obtain ⟨fuel, τ, hτ⟩ := DepthFirst.visit_returns rank hrank
      (registry env d names).loggerConfiguration
    exact ⟨fuel, _, by unfold setLoggerConfiguration; rw [hτ]; rfl⟩

/-! ## The main results -/

/-- **A configuration set for `p` is that of every logger below `p` exactly if it is passed on to
each of them**: each logger from `p` down to it has no `/` in its name or was made on the way to a
longer one, and does not carry the configuration's name; or the configuration is the default one. -/
theorem configuration_reaches_iff (d : LoggerConfiguration) (names : List Text) (p : Text)
    (c : LoggerConfiguration) {fuel : Nat} {s' : LoggerMap}
    (h : setLoggerConfiguration env fuel (registry env d names) p c = some s') :
    (∀ q, s'.isLogger q = true → Below p q → HasConfiguration env s' c q) ↔
      ∀ q, (registry env d names).isLogger q = true → Below p q →
        ReflTransGen (PassedOn env names c) p q ∨ Agree env c d := by
  obtain ⟨hlogger, -, hconf⟩ := setLoggerConfiguration_spec h
  rw [edge_registry] at hconf
  have hone : ∀ q, (registry env d names).isLogger q = true →
      (HasConfiguration env s' c q ↔
        ReflTransGen (PassedOn env names c) p q ∨ Agree env c d) := by
    intro q hq
    by_cases hreach : ReflTransGen (PassedOn env names c) p q
    · exact ⟨fun _ => .inl hreach, fun _ => (hconf q).1 hreach⟩
    · rw [HasConfiguration, (hconf q).2 hreach, (told_registry names).configuration q hq, fresh,
        finishConfiguration_eq_iff]
      exact ⟨fun hagree => .inr hagree.symm, fun hor => (hor.resolve_left hreach).symm⟩
  rw [hlogger]
  exact forall_congr' fun q => forall_congr' fun hq => imp_congr_right fun _ => hone q hq

/-- The default configuration with another level and the name of the root logger. -/
def quietRoot : LoggerConfiguration := { quiet with loggerNameW := DEFAULT_ROOT_LOGGER }

theorem root_configures_child :
    ∃ fuel s', setLoggerConfiguration plainEnv fuel (registry plainEnv .create [text "a"])
        DEFAULT_ROOT_LOGGER quietRoot = some s' ∧
      ∀ q, s'.isLogger q = true → Below DEFAULT_ROOT_LOGGER q →
        HasConfiguration plainEnv s' quietRoot q := by
  obtain ⟨fuel, s', h⟩ := (@setLoggerConfiguration_returns_iff plainEnv .create [text "a"]
    DEFAULT_ROOT_LOGGER quietRoot).mpr (.inr (by decide))
  refine ⟨fuel, s', h, (configuration_reaches_iff .create [text "a"] _ quietRoot h).mpr ?_⟩
  intro q hq _
  rcases ((told_registry [text "a"]).isLogger q).mp hq with rfl | ⟨n, hn, hq⟩
  · exact .inl .refl
  · rw [List.mem_singleton.mp hn] at hq
    have hqa : q = text "a" := hq.resolve_right (by simp [cuts_of_not_mem, SLASH, text])
    subst hqa
    refine .inl (.single ⟨rfl, ⟨.inr ⟨_, List.mem_cons_self, .inl rfl⟩, .inl ?_⟩, ?_⟩) <;> decide

/-- After a call for "a/b/c", which makes "a" and "a/b" on the way, a configuration set for "a/b"
does not reach "a/b/c". -/
theorem child_not_configured :
    ∃ s', setLoggerConfiguration plainEnv 1 (registry plainEnv .create [text "a/b/c"])
        (text "a/b") quiet = some s' ∧
      s'.isLogger (text "a/b/c") = true ∧ Below (text "a/b") (text "a/b/c") ∧
      ¬ HasConfiguration plainEnv s' quiet (text "a/b/c") := by
  refine ⟨_, rfl, by decide, .inr (.inr ⟨text "c", rfl⟩), ?_⟩
  unfold HasConfiguration
  decide

/-! ## The order of creating and configuring -/

inductive HierarchyEvent where
  | getLogger (name : Text)
  /-- A call that returns, with a bound on the depth of its calls. -/
  | setLoggerConfiguration (fuel : Nat) (name : Text) (c : LoggerConfiguration)

def step (env : LoggerEnv) (d : LoggerConfiguration) (s : LoggerMap) :
    HierarchyEvent → Option LoggerMap
  | .getLogger name => some (s.getLogger env d name)
  | .setLoggerConfiguration fuel name c => setLoggerConfiguration env fuel s name c

theorem listed_setLoggerConfiguration (hl : Listed s) (hc : Closed s) {fuel : Nat} {name : Text}
    {c : LoggerConfiguration} (hs : setLoggerConfiguration env fuel s name c = some s') :
    Listed s' ∧ Closed s' := by
  obtain ⟨hlogger, hchilds, -⟩ := setLoggerConfiguration_spec hs
  refine ⟨⟨?_, ?_, ?_⟩, ?_⟩
  · rw [hlogger]
    exact hl.root
  · rw [hlogger, hchilds]
    exact hl.empty
  · rw [hlogger, hchilds]
    exact hl.parent
  · unfold Closed
    rw [hlogger]
    exact hc

/-- The child lists stay in order whatever is called. -/
theorem listed_step (s : LoggerMap) (e : HierarchyEvent) (s' : LoggerMap)
    (h : Listed s ∧ Closed s) (hs : step env d s e = some s') : Listed s' ∧ Closed s' := by
  cases e with
  | getLogger name =>
    cases hs
    exact (getLogger_grown h.1 h.2 name).2
  | setLoggerConfiguration fuel name c => exact listed_setLoggerConfiguration h.1 h.2 hs

/-- `p` is the parent of `q` by its last `/`, and "root" that of a name without one. -/
def IsParent (p q : Text) : Prop :=
  SLASH ∈ q ∧ parentOf q = p ∨ SLASH ∉ q ∧ p = DEFAULT_ROOT_LOGGER

/-- A new logger reached by nothing keeps its first configuration. -/
theorem configured_unreached {p q : Text} (hpq : p ≠ q) {c : LoggerConfiguration}
    (hnone : ∀ a, ¬ DepthFirst.Edge (s.configured env c) a q) {fuel : Nat}
    (h : setLoggerConfiguration env fuel s p c = some s') :
    s'.loggerConfiguration q = s.loggerConfiguration q := by
  obtain ⟨-, -, hconf⟩ := setLoggerConfiguration_spec h
  apply (hconf q).2
  intro hreach
  rcases ReflTransGen.cases_tail hreach with heq | ⟨a, -, hedge⟩
  · exact hpq heq.symm
  · exact hnone a hedge

theorem listed_reachable {es : List HierarchyEvent}
    (hrun : Transition.run (step env d) (initLogger env d) es = some s) : Listed s ∧ Closed s :=
  Transition.run_invariant listed_step ⟨(told_initLogger d).listed, (told_initLogger d).closed⟩ hrun

/-- **Creating a logger and configuring its parent commute exactly if the new logger is out of
reach either way** (its name has a `/`, or it carries the configuration's name) or the
configuration is the default one. -/
theorem creation_order_iff (d : LoggerConfiguration) {es : List HierarchyEvent} {s : LoggerMap}
    (hrun : Transition.run (step env d) (initLogger env d) es = some s) {p q : Text}
    (hp : s.isLogger p = true) (hq : s.isLogger q = false) (hparent : IsParent p q)
    (c : LoggerConfiguration) {fuel₁ fuel₂ : Nat} {s₁ s₂ : LoggerMap}
    (h₁ : setLoggerConfiguration env fuel₁ (s.getLogger env d q) p c = some s₁)
    (h₂ : setLoggerConfiguration env fuel₂ s p c = some s₂) :
    s₁.loggerConfiguration q = (s₂.getLogger env d q).loggerConfiguration q ↔
      SLASH ∈ q ∨ skips env c q = true ∨ Agree env c d := by
  obtain ⟨hl, hc⟩ := listed_reachable hrun
  have hpq : p ≠ q := by
    rintro rfl
    rw [hp] at hq
    cases hq
  obtain ⟨hgrown, -⟩ : Grown env d s _ _ _ ∧ _ := getLogger_grown hl hc q
  have hfirst := hgrown.made q hq (.inl rfl)
  -- Configured first: the new logger has the default configuration.
  have hlater : (s₂.getLogger env d q).loggerConfiguration q = fresh env d q := by
    obtain ⟨hl₂, hc₂⟩ := listed_setLoggerConfiguration hl hc h₂
    obtain ⟨hgrown₂, -⟩ : Grown env d s₂ _ _ _ ∧ _ := getLogger_grown hl₂ hc₂ q
    have hq₂ : s₂.isLogger q = false := by
      rw [(setLoggerConfiguration_spec h₂).1]
      exact hq
    exact hgrown₂.made q hq₂ (.inl rfl)
  rw [hlater]
  -- Created first: only "root" can have it in its child list.
  have hedge : ∀ a, DepthFirst.Edge ((s.getLogger env d q).configured env c) a q ↔
      a = codeParent q ∧ SLASH ∉ q ∧ skips env c q = false := by
    intro a
    rw [edge_configured, hgrown.vecChilds]
    have hold : q ∉ s.vecChilds a := by
      intro hmem
      rw [(hl.parent a q hmem).2] at hq
      cases hq
    simp [hold, hq, not_mem_cuts_self, and_assoc]
  by_cases hout : SLASH ∈ q ∨ skips env c q = true
  · have hnone : ∀ a, ¬ DepthFirst.Edge ((s.getLogger env d q).configured env c) a q := by
      intro a ha
      obtain ⟨-, hslash, hskip⟩ := (hedge a).mp ha
      rcases hout with h | h
      · exact hslash h
      · rw [h] at hskip
        cases hskip
    rw [configured_unreached hpq hnone h₁, hfirst]
    exact ⟨fun _ => by tauto, fun _ => rfl⟩
  · rw [not_or, Bool.not_eq_true] at hout
    obtain ⟨hslash, hskip⟩ := hout
    have hroot : p = codeParent q := by
      rcases hparent with ⟨h, -⟩ | ⟨-, rfl⟩
      · exact absurd h hslash
      · rw [codeParent, parentOf_of_not_mem hslash, if_pos rfl]
    have hreach := ((setLoggerConfiguration_spec h₁).2.2 q).1
      (.single ((hedge p).mpr ⟨hroot, hslash, hskip⟩))
    rw [hreach, fresh, fresh, finishConfiguration_eq_iff]
    simp [hslash, hskip]

/-- A logger "a/b" under "a" has the default configuration in both orders. -/
theorem creation_order_below :
    ∃ s₁ s₂, setLoggerConfiguration plainEnv 1
        ((registry plainEnv .create [text "a"]).getLogger plainEnv .create (text "a/b"))
        (text "a") quiet = some s₁ ∧
      setLoggerConfiguration plainEnv 1 (registry plainEnv .create [text "a"])
        (text "a") quiet = some s₂ ∧
      s₁.loggerConfiguration (text "a/b") =
        (s₂.getLogger plainEnv .create (text "a/b")).loggerConfiguration (text "a/b") := by
  obtain ⟨s₁, h₁⟩ : ∃ s₁, setLoggerConfiguration plainEnv 1
      ((registry plainEnv .create [text "a"]).getLogger plainEnv .create (text "a/b"))
      (text "a") quiet = some s₁ := ⟨_, rfl⟩
  obtain ⟨s₂, h₂⟩ : ∃ s₂, setLoggerConfiguration plainEnv 1
      (registry plainEnv .create [text "a"]) (text "a") quiet = some s₂ := ⟨_, rfl⟩
  refine ⟨s₁, s₂, h₁, h₂, ?_⟩
  have hrun : Transition.run (step plainEnv .create) (initLogger plainEnv .create)
      [.getLogger (text "a")] = some (registry plainEnv .create [text "a"]) := rfl
  refine (creation_order_iff .create hrun (by decide) (by decide) ?_ quiet h₁ h₂).mpr ?_
  · exact .inl ⟨by decide, by decide⟩
  · exact .inl (by decide)

/-- A logger "a" that is there when "root" is configured gets the configuration, one made
afterwards does not. -/
theorem creation_order_matters :
    ∃ s₁ s₂, setLoggerConfiguration plainEnv 2
        ((initLogger plainEnv .create).getLogger plainEnv .create (text "a"))
        DEFAULT_ROOT_LOGGER quietRoot = some s₁ ∧
      setLoggerConfiguration plainEnv 2 (initLogger plainEnv .create) DEFAULT_ROOT_LOGGER
        quietRoot = some s₂ ∧
      s₁.loggerConfiguration (text "a") ≠
        (s₂.getLogger plainEnv .create (text "a")).loggerConfiguration (text "a") :=
  ⟨_, _, rfl, rfl, by decide⟩

end LoggerMap

end IMonPlatform.Logger
