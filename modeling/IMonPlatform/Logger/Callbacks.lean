import IMonPlatform.Lib.MarkedSearch
import IMonPlatform.Logger.Hierarchy

/-!
# Callbacks of a logger and of those below it

Each character type has a table of callbacks for every logger name.  `AddCallback` registers a
callback in the table of the logger and calls itself for the children, `RemoveCallback` removes it
and does the same; but both return at once where there is nothing to do in the logger's own table,
so that what they do below depends on the tables there.

* `CallbackState`, `addCallback`, `removeCallback` — the tables and the calls.
* `step` — the loggers and their callbacks, call by call.
* `Covers` — what a call should have done below its logger; `CoversWhen` — where the tables before
  the call let it.
* `TablesAgree` — loggers that share a table share those of their children; `narrow_tables_agree`.
* `callbacks_cover_iff` — in every state reached a call returns, and when it covers.
-/

set_option autoImplicit false

namespace IMonPlatform.Logger

open Relation

/-- The overloads for `pfnLogCallbackA` and `pfnLogCallbackW`. -/
inductive CallbackType where
  | A
  | W
  deriving DecidableEq

/-- `std::map< pfnLogCallback, PVOID >`, by addresses. -/
abbrev CallbackMap := Nat → Option Nat

def NULLPTR : Nat := 0

/-- The loggers, `_mapFileNameToCallbackA` and `_mapFileNameToCallbackW`; `GetCallback` makes an empty
map for a name that has none. -/
structure CallbackState where
  loggers : LoggerMap
  callbacks : CallbackType → Text → CallbackMap

inductive CallbackCall where
  | add (t : CallbackType) (p : Text) (pfnCallback pParam : Nat)
  | remove (t : CallbackType) (p : Text) (pfnCallback : Nat)

def CallbackCall.type : CallbackCall → CallbackType
  | .add t _ _ _ => t
  | .remove t _ _ => t

def CallbackCall.logger : CallbackCall → Text
  | .add _ p _ _ => p
  | .remove _ p _ => p

inductive CallbackEvent where
  | hierarchy (e : LoggerMap.HierarchyEvent)
  /-- A call that returns, with a bound on the depth of its calls. -/
  | call (fuel : Nat) (c : CallbackCall)

namespace CallbackState

variable (env : LoggerEnv)

/-- The name that a logger uses for its table. -/
def tableName : CallbackType → Text → Text
  | .A => loggerNameA
  | .W => loggerNameW env

/-- The callback is in the map. -/
def registered (pfnCallback : Nat) (m : CallbackMap) : Bool := (m pfnCallback).isSome

def missing (pfnCallback : Nat) (m : CallbackMap) : Bool := !registered pfnCallback m

/-- `AddCallback`: what it returns, and the tables. -/
def addCallback (fuel : Nat) (s : CallbackState) (t : CallbackType) (p : Text)
    (pfnCallback pParam : Nat) : Option (Bool × (Text → CallbackMap)) :=
  if pfnCallback = NULLPTR then some (false, s.callbacks t)
  else
    (MarkedSearch.search s.loggers.vecChilds (tableName env t) (registered pfnCallback)
      (fun m => Function.update m pfnCallback (some pParam)) fuel (s.callbacks t) p).map (true, ·)

/-- `RemoveCallback`: the tables. -/
def removeCallback (fuel : Nat) (s : CallbackState) (t : CallbackType) (p : Text)
    (pfnCallback : Nat) : Option (Text → CallbackMap) :=
  MarkedSearch.search s.loggers.vecChilds (tableName env t) (missing pfnCallback)
    (fun m => Function.update m pfnCallback none) fuel (s.callbacks t) p

def setCallbacks (s : CallbackState) (t : CallbackType) (tables : Text → CallbackMap) :
    CallbackState :=
  { s with callbacks := Function.update s.callbacks t tables }

/-- After `InitLogger`. -/
def initial (d : LoggerConfiguration) : CallbackState :=
  ⟨LoggerMap.initLogger env d, fun _ _ _ => none⟩

def step (d : LoggerConfiguration) (s : CallbackState) : CallbackEvent → Option CallbackState
  | .hierarchy e => (LoggerMap.step env d s.loggers e).map fun loggers => { s with loggers }
  | .call fuel (.add t p pfnCallback pParam) =>
    if s.loggers.isLogger p then
      (s.addCallback env fuel t p pfnCallback pParam).map fun r => s.setCallbacks t r.2
    else none
  | .call fuel (.remove t p pfnCallback) =>
    if s.loggers.isLogger p then
      (s.removeCallback env fuel t p pfnCallback).map fun tables => s.setCallbacks t tables
    else none

/-- A logger is reached from another one through the child lists. -/
def Reaches (s : CallbackState) (p q : Text) : Prop :=
  ReflTransGen (DepthFirst.Edge s.loggers.vecChilds) p q

/-! ## What a call should do -/

/-- `AddCallback`, unless it returns `false`, leaves the callback with every logger below `p`,
`RemoveCallback` with none. -/
def Covers (s' : CallbackState) : CallbackCall → Prop
  | .add t p pfnCallback _ => pfnCallback ≠ NULLPTR →
    ∀ q, s'.Reaches p q → registered pfnCallback (s'.callbacks t (tableName env t q)) = true
  | .remove t p pfnCallback =>
    ∀ q, s'.Reaches p q → missing pfnCallback (s'.callbacks t (tableName env t q)) = true

/-- Every logger below `p` for which there is something to do is reached from `p` through such
loggers, or has its table in common with one that is. -/
def CoversWhen (s : CallbackState) : CallbackCall → Prop
  | .add t p pfnCallback _ => pfnCallback = NULLPTR ∨
    MarkedSearch.Exposed s.loggers.vecChilds (tableName env t) (registered pfnCallback)
      (s.callbacks t) p
  | .remove t p pfnCallback =>
    MarkedSearch.Exposed s.loggers.vecChilds (tableName env t) (missing pfnCallback)
      (s.callbacks t) p

/-- Loggers below that of the call that share a table have children with the same tables. -/
def TablesAgree (s : CallbackState) (c : CallbackCall) : Prop :=
  MarkedSearch.Aligned s.loggers.vecChilds (tableName env c.type) c.logger

variable {env} {d : LoggerConfiguration} {s s' : CallbackState}

/-! ## One call -/

theorem registered_update (pfnCallback pParam : Nat) (m : CallbackMap) :
    registered pfnCallback (Function.update m pfnCallback (some pParam)) = true := by
  simp [registered]

theorem missing_update (pfnCallback : Nat) (m : CallbackMap) :
    missing pfnCallback (Function.update m pfnCallback none) = true := by
  simp [missing, registered]

/-- **When a call covers the loggers below its own.** -/
theorem covers_iff {fuel : Nat} {c : CallbackCall} (hs : step env d s (.call fuel c) = some s')
    (hagree : TablesAgree env s c) : Covers env s' c ↔ CoversWhen env s c := by
  cases c with
  | add t p pfnCallback pParam =>
    simp only [step] at hs
    split at hs
    · obtain ⟨r, hadd, rfl⟩ := Option.map_eq_some_iff.mp hs
      unfold addCallback at hadd
      by_cases hnull : pfnCallback = NULLPTR
      · simp only [Covers, CoversWhen, hnull, true_or, iff_true]
        exact fun h => absurd rfl h
      · rw [if_neg hnull] at hadd
        obtain ⟨tables, hsearch, rfl⟩ := Option.map_eq_some_iff.mp hadd
        have hsearched := MarkedSearch.search_searched (registered_update pfnCallback pParam) hsearch
        have hall := hsearched.all_done_iff hagree
        simp only [Covers, CoversWhen, hnull, not_false_eq_true, forall_const, false_or, ne_eq,
          setCallbacks, Function.update_self, Reaches]
        exact hall
    · cases hs
  | remove t p pfnCallback =>
    simp only [step] at hs
    split at hs
    · obtain ⟨tables, hsearch, rfl⟩ := Option.map_eq_some_iff.mp hs
      have hsearched := MarkedSearch.search_searched (missing_update pfnCallback) hsearch
      have hall := hsearched.all_done_iff hagree
      simp only [Covers, CoversWhen, setCallbacks, Function.update_self, Reaches]
      exact hall
    · cases hs

/-! ## The loggers in a run -/

/-- The loggers are finitely many, in child lists as `GetLogger` makes them. -/
structure Grounded (s : CallbackState) : Prop where
  listed : LoggerMap.Listed s.loggers
  closed : LoggerMap.Closed s.loggers
  finite : ∃ names : List Text, ∀ q, s.loggers.isLogger q = true → q ∈ names

theorem grounded_initial (d : LoggerConfiguration) : Grounded (initial env d) := by
  have htold : LoggerMap.Told env d [] (LoggerMap.initLogger env d) := LoggerMap.told_initLogger d
  refine ⟨htold.listed, htold.closed, [DEFAULT_ROOT_LOGGER], ?_⟩
  intro q hq
  rcases (htold.isLogger q).mp hq with rfl | ⟨n, hn, -⟩
  · exact List.mem_singleton_self _
  · cases hn

theorem grounded_step (s : CallbackState) (e : CallbackEvent) (s' : CallbackState)
    (h : Grounded s) (hs : step env d s e = some s') : Grounded s' := by
  obtain ⟨names, hnames⟩ := h.finite
  cases e with
  | hierarchy e =>
    obtain ⟨loggers, hstep, rfl⟩ := Option.map_eq_some_iff.mp hs
    obtain ⟨hlisted, hclosed⟩ := LoggerMap.listed_step s.loggers e loggers ⟨h.listed, h.closed⟩ hstep
    refine ⟨hlisted, hclosed, ?_⟩
    cases e with
    | getLogger name =>
      cases hstep
      obtain ⟨hgrown, -⟩ : LoggerMap.Grown env d s.loggers _ _ _ ∧ _ :=
        LoggerMap.getLogger_grown h.listed h.closed name
      refine ⟨names ++ name :: LoggerMap.cuts name, fun q hq => ?_⟩
      rw [List.mem_append, List.mem_cons]
      rcases (hgrown.isLogger q).mp hq with hq | hq
      · exact .inl (hnames q hq)
      · exact .inr hq
    | setLoggerConfiguration fuel name c =>
      refine ⟨names, fun q hq => hnames q ?_⟩
      rwa [(LoggerMap.setLoggerConfiguration_spec hstep).1] at hq
  | call fuel c =>
    have hloggers : s'.loggers = s.loggers := by
      cases c with
      | add t p pfnCallback pParam =>
        simp only [step] at hs
        split at hs
        · obtain ⟨r, -, rfl⟩ := Option.map_eq_some_iff.mp hs
          rfl
        · cases hs
      | remove t p pfnCallback =>
        simp only [step] at hs
        split at hs
        · obtain ⟨tables, -, rfl⟩ := Option.map_eq_some_iff.mp hs
          rfl
        · cases hs
    refine ⟨?_, ?_, names, ?_⟩ <;> rw [hloggers]
    · exact h.listed
    · exact h.closed
    · exact hnames

/-- What is reached from a logger is a logger. -/
theorem Grounded.isLogger (h : Grounded s) {p q : Text} (hp : s.loggers.isLogger p = true)
    (hq : s.Reaches p q) : s.loggers.isLogger q = true := by
  induction hq with
  | refl => exact hp
  | tail _ hedge _ => exact (h.listed.parent _ _ hedge).2

/-- A search through the tables returns: "root", which is its own child, is done the second time. -/
theorem Grounded.search_returns (env : LoggerEnv) (h : Grounded s) (t : CallbackType) {p : Text}
    (hp : s.loggers.isLogger p = true) {done : CallbackMap → Bool}
    {finish : CallbackMap → CallbackMap} (hfinish : ∀ m, done (finish m) = true) :
    ∃ fuel tables, MarkedSearch.search s.loggers.vecChilds (tableName env t) done finish fuel
      (s.callbacks t) p = some tables := by
  obtain ⟨names, hnames⟩ := h.finite
  have hkeys : ∀ q, s.Reaches p q → tableName env t q ∈ (names.map (tableName env t)).toFinset := by
    intro q hq
    rw [List.mem_toFinset]
    exact List.mem_map_of_mem (hnames q (h.isLogger hp hq))
  obtain ⟨tables, htables⟩ := MarkedSearch.search_returns hfinish
    (names.map (tableName env t)).toFinset _ (s.callbacks t) p hkeys (Nat.lt_succ_self _)
  exact ⟨_, tables, htables⟩

theorem Grounded.call_returns (h : Grounded s) {c : CallbackCall}
    (hp : s.loggers.isLogger c.logger = true) :
    ∃ fuel s', step env d s (.call fuel c) = some s' := by
  cases c with
  | add t p pfnCallback pParam =>
    have hp : s.loggers.isLogger p = true := hp
    by_cases hnull : pfnCallback = NULLPTR
    · exact ⟨0, _, by simp only [step, hp, addCallback, if_pos hnull]; rfl⟩
    · obtain ⟨fuel, tables, hsearch⟩ :=
        h.search_returns env t hp (registered_update pfnCallback pParam)
      exact ⟨fuel, _, by simp only [step, hp, addCallback, if_neg hnull, hsearch]; rfl⟩
  | remove t p pfnCallback =>
    have hp : s.loggers.isLogger p = true := hp
    obtain ⟨fuel, tables, hsearch⟩ := h.search_returns env t hp (missing_update pfnCallback)
    exact ⟨fuel, _, by simp only [step, hp, removeCallback, hsearch]; rfl⟩

/-- **In every state that is reached, the calls of a logger return, and where loggers that share a
table agree they cover the loggers below exactly if each of these is reached through loggers for
which there is something to do.** -/
theorem callbacks_cover_iff (d : LoggerConfiguration) {es : List CallbackEvent}
    (hrun : Transition.run (step env d) (initial env d) es = some s) {c : CallbackCall}
    (hp : s.loggers.isLogger c.logger = true) :
    (∃ fuel s', step env d s (.call fuel c) = some s') ∧
      ∀ fuel s', step env d s (.call fuel c) = some s' → TablesAgree env s c →
        (Covers env s' c ↔ CoversWhen env s c) := by
  have hgrounded : Grounded s :=
    Transition.run_invariant grounded_step (grounded_initial d) hrun
  exact ⟨hgrounded.call_returns hp, fun _ _ hs hagree => covers_iff hs hagree⟩

/-! ## Tables that loggers share -/

theorem parentOf_start (name : Text) : LoggerMap.parentOf name <+: name := by
  have hsuffix : (name.reverse.dropWhile (· ≠ SLASH)).drop 1 <:+ name.reverse :=
    (List.drop_suffix 1 _).trans (List.dropWhile_suffix _)
  simpa [LoggerMap.parentOf] using List.reverse_prefix.mpr hsuffix

/-- **Names without a NUL**: loggers share a narrow table only if both names are cut off, and then
with all loggers below them. -/
theorem narrow_tables_agree (h : Grounded s) (hnul : ∀ q, s.loggers.isLogger q = true → 0 ∉ q)
    {c : CallbackCall} (hp : s.loggers.isLogger c.logger = true) (hA : c.type = .A) :
    TablesAgree env s c := by
  have hname : ∀ q, s.Reaches c.logger q → tableName env .A q = q.take 127 := by
    intro q hq
    have hfree := hnul q (h.isLogger hp hq)
    have hall : q.takeWhile (· ≠ 0) = q :=
      List.takeWhile_eq_self_iff.mpr fun x hx => decide_eq_true (fun h0 => hfree (h0 ▸ hx))
    simp only [tableName, loggerNameA, truncate, hall, MAX_LOGGERNAME_SIZE]
  unfold TablesAgree
  rw [hA]
  intro q q' hq hq' hsame child hchild
  rw [hname q hq, hname q' hq'] at hsame
  by_cases hqq : q = q'
  · subst hqq
    exact .inr ⟨child, hchild, rfl⟩
  · -- Both names are longer than a table's name, so neither is that of the root.
    have hlong : 127 ≤ q.length := by
      by_contra hshort
      have hlen := congrArg List.length hsame
      rw [List.length_take, List.length_take] at hlen
      rw [List.take_of_length_le (by omega), List.take_of_length_le (by omega)] at hsame
      exact hqq hsame
    left
    have hparent := (h.listed.parent q child hchild).1
    have hbelow : q <+: child := by
      rw [LoggerMap.codeParent] at hparent
      split at hparent
      · rw [hparent] at hlong
        exact absurd hlong (by decide)
      · rw [hparent]
        exact parentOf_start child
    obtain ⟨rest, rfl⟩ := hbelow
    rw [hname _ (hq.tail hchild), hname q hq, List.take_append_of_le_length hlong]

/-! ## A table alone and tables with a gap -/

/-- A callback for "a" goes to "a/b" and "a/b/c" below it. -/
theorem callback_added :
    ∃ s fuel s', Transition.run (step LoggerMap.plainEnv .create)
        (initial LoggerMap.plainEnv .create) [.hierarchy (.getLogger (text "a/b/c/d"))] = some s ∧
      s.Reaches (text "a") (text "a/b/c") ∧
      step LoggerMap.plainEnv .create s (.call fuel (.add .A (text "a") 1 7)) = some s' ∧
      Covers LoggerMap.plainEnv s' (.add .A (text "a") 1 7) := by
  obtain ⟨s, hrun, hloggers, hlogger, hb, hc, hempty⟩ : ∃ s,
      Transition.run (step LoggerMap.plainEnv .create) (initial LoggerMap.plainEnv .create)
        [.hierarchy (.getLogger (text "a/b/c/d"))] = some s ∧
      s.loggers = LoggerMap.registry LoggerMap.plainEnv .create [text "a/b/c/d"] ∧
      s.loggers.isLogger (text "a") = true ∧ text "a/b" ∈ s.loggers.vecChilds (text "a") ∧
      text "a/b/c" ∈ s.loggers.vecChilds (text "a/b") ∧
      ∀ name, registered 1 (s.callbacks .A name) = false :=
    ⟨_, rfl, rfl, by decide, by decide, by decide, fun _ => rfl⟩
  have hgrounded : Grounded s :=
    Transition.run_invariant grounded_step (grounded_initial .create) hrun
  have hnul : ∀ q, s.loggers.isLogger q = true → 0 ∉ q := by
    intro q hq
    rw [hloggers] at hq
    rcases ((LoggerMap.told_registry [text "a/b/c/d"]).isLogger q).mp hq with rfl | ⟨n, hn, hq⟩
    · decide
    · rw [List.mem_singleton.mp hn] at hq
      have hcuts : ∀ q ∈ LoggerMap.cuts (text "a/b/c/d"), 0 ∉ q := by decide
      rcases hq with rfl | hq
      · decide
      · exact hcuts q hq
  obtain ⟨⟨fuel, s', hs⟩, hiff⟩ :=
    callbacks_cover_iff .create hrun (c := .add .A (text "a") 1 7) hlogger
  have hagree : TablesAgree LoggerMap.plainEnv s (.add .A (text "a") 1 7) :=
    narrow_tables_agree hgrounded hnul hlogger rfl
  have hexposed : MarkedSearch.Exposed s.loggers.vecChilds (tableName LoggerMap.plainEnv .A)
      (registered 1) (s.callbacks .A) (text "a") :=
    MarkedSearch.exposed_of_undone fun q _ => hempty _
  exact ⟨s, fuel, s', hrun, .tail (.single hb) hc, hs, (hiff fuel s' hs hagree).mpr (.inr hexposed)⟩

/-- "a/b" below "a" has lost the callback that "a" still has. -/
def gapEvents : List CallbackEvent := [
  .hierarchy (.getLogger (text "a/b/c")),
  .call 2 (.add .A (text "a") 1 7),
  .call 1 (.remove .A (text "a/b") 1)]

/-- Adding the callback to "a" again does not reach "a/b". -/
theorem callback_not_added :
    ∃ s s', Transition.run (step LoggerMap.plainEnv .create)
        (initial LoggerMap.plainEnv .create) gapEvents = some s ∧
      step LoggerMap.plainEnv .create s (.call 1 (.add .A (text "a") 1 7)) = some s' ∧
      ¬ Covers LoggerMap.plainEnv s' (.add .A (text "a") 1 7) := by
  refine ⟨_, _, rfl, rfl, ?_⟩
  intro h
  have hmissed := h (by decide) (text "a/b") (.single (show text "a/b" ∈ _ by decide))
  exact absurd hmissed (by decide)

end CallbackState

end IMonPlatform.Logger
