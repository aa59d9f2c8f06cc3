import IMonPlatform.Logger.Hierarchy

/-!
# `SetLoggerConfiguration`: its visits and the path it stores

A call goes down the child lists and passes over the children that carry the name in the
configuration.  Nothing marks the loggers it has been to.  Where it returns, the child lists are a
forest below the logger, so that it has been to each logger once.

The path of the configuration is the directory of the program with a part of the configured path
behind it: the code replaces as many characters as the directory has, not the leading dot.

* `Single` — a child list names only loggers, each of them once; `single_registry`.
* `VisitsOnce` — a call returns and has been to each logger at most once.
* `configuration_terminates_iff` — it does unless it is called for "root" with another name.
* `Resolves` — what is given to `CanonicalizePath`; `relative_path_iff` — when that is the program
  directory with the rest of the path.
-/

set_option autoImplicit false

namespace IMonPlatform.Logger

open Relation

namespace LoggerMap

variable {env : LoggerEnv} {d : LoggerConfiguration} {s : LoggerMap}

/-! ## Child lists -/

structure Single (s : LoggerMap) : Prop where
  isLogger : ∀ m q, q ∈ s.vecChilds m → s.isLogger q = true
  nodup : ∀ m, (s.vecChilds m).Nodup

theorem single_newLogger (h : Single s) (name : Text) : Single (s.newLogger env d name) := by
  constructor
  · intro m q hq
    by_cases hm : m = name
    · simp [newLogger, hm] at hq
    · simp only [newLogger, Function.update_of_ne hm] at hq
      by_cases hqn : q = name
      · simp [newLogger, hqn]
      · simpa [newLogger, hqn] using h.isLogger m q hq
  · intro m
    by_cases hm : m = name
    · simp [newLogger, hm]
    · simpa [newLogger, hm] using h.nodup m

/-- A logger that was not there is in no child list. -/
theorem single_enter (h : Single s) {name : Text} (hname : s.isLogger name = false)
    (parent : Text) : Single ((s.newLogger env d name).appendChildLogger parent name) := by
  have hnew : Single (s.newLogger env d name) := single_newLogger h name
  have hfree : name ∉ (s.newLogger env d name).vecChilds parent := by
    intro hmem
    by_cases hm : parent = name
    · simp [newLogger, hm] at hmem
    · simp only [newLogger, Function.update_of_ne hm] at hmem
      rw [h.isLogger parent name hmem] at hname
      cases hname
  constructor
  · intro m q hq
    by_cases hm : m = parent
    · subst hm
      simp only [appendChildLogger, Function.update_self, List.mem_append,
        List.mem_singleton] at hq
      rcases hq with hq | rfl
      · exact hnew.isLogger m q hq
      · simp [appendChildLogger, newLogger]
    · simp only [appendChildLogger, Function.update_of_ne hm] at hq
      exact hnew.isLogger m q hq
  · intro m
    by_cases hm : m = parent
    · subst hm
      simp only [appendChildLogger, Function.update_self]
      exact List.nodup_append.mpr ⟨hnew.nodup m, List.nodup_singleton name,
        fun q hq b hb => by
          rintro rfl
          exact hfree (List.mem_singleton.mp hb ▸ hq)⟩
    · simp only [appendChildLogger, Function.update_of_ne hm]
      exact hnew.nodup m

theorem single_visitChild {s : LoggerMap × Text} (h : Single s.1) (childName : Text) :
    Single (visitChild env d s childName).1 := by
  unfold visitChild
  split
  · exact h
  · rename_i hnew
    exact single_enter h (Bool.eq_false_iff.mpr hnew) _

theorem single_getLogger (h : Single s) (name : Text) : Single (s.getLogger env d name) := by
  unfold getLogger
  split
  · exact h
  · rename_i hnew
    have hname : s.isLogger name = false := Bool.eq_false_iff.mpr hnew
    dsimp only
    split
    · have hloop : ∀ (names : List Text) (st : LoggerMap × Text), Single st.1 →
          Single (names.foldl (visitChild env d) st).1 := by
        intro names
        induction names with
        | nil => exact fun _ hst => hst
        | cons n names ih => exact fun _ hst => ih _ (single_visitChild hst n)
      exact hloop _ _ (single_newLogger h name)
    · exact single_enter h hname _

theorem single_registry (d : LoggerConfiguration) (names : List Text) :
    Single (registry env d names) := by
  have hempty : Single empty := by
    constructor
    · intro m q hq
      cases hq
    · exact fun _ => List.nodup_nil
  have hall : ∀ (ns : List Text) (s : LoggerMap), Single s →
      Single (ns.foldl (getLogger env d) s) := by
    intro ns
    induction ns with
    | nil => exact fun _ hs => hs
    | cons n ns ih => exact fun _ hs => ih _ (single_getLogger hs n)
  exact hall names _ (single_getLogger hempty DEFAULT_ROOT_LOGGER)

/-! ## The visits of a call -/

/-- The call returns, and the loggers that it calls itself for are distinct. -/
def VisitsOnce (env : LoggerEnv) (s : LoggerMap) (p : Text) (c : LoggerConfiguration) : Prop :=
  ∃ fuel s' visits, setLoggerConfiguration env fuel s p c = some s' ∧
    DepthFirst.calls (s.configured env c) fuel p = some visits ∧ visits.Nodup

/-- A call that returns has been to each logger once. -/
theorem visitsOnce_of_returns {names : List Text} {p : Text} {c : LoggerConfiguration}
    {fuel : Nat} {s' : LoggerMap}
    (h : setLoggerConfiguration env fuel (registry env d names) p c = some s') :
    VisitsOnce env (registry env d names) p c := by
  have hparent : ∀ a q, DepthFirst.Edge ((registry env d names).configured env c) a q →
      a = codeParent q := by
    intro a q hedge
    rw [edge_registry] at hedge
    exact hedge.1
  obtain ⟨configurations, hvisit, -⟩ := Option.map_eq_some_iff.mp h
  obtain ⟨visits, hvisits⟩ := DepthFirst.calls_iff_visit.mpr ⟨configurations, hvisit⟩
  refine ⟨fuel, s', visits, h, hvisits, ?_⟩
  apply DepthFirst.calls_nodup _ _ hvisits
  · intro a b q ha hb
    rw [hparent a q ha, hparent b q hb]
  · intro a
    exact ((single_registry d names).nodup a).filter _

/-- **`SetLoggerConfiguration` returns after at most one visit of each logger, unless it is called
for "root" with a configuration that does not carry that name**: "root" is its own child. -/
theorem configuration_terminates_iff (d : LoggerConfiguration) (names : List Text) (p : Text)
    (c : LoggerConfiguration) :
    VisitsOnce env (registry env d names) p c ↔
      p ≠ DEFAULT_ROOT_LOGGER ∨ skips env c DEFAULT_ROOT_LOGGER = true := by
  rw [← setLoggerConfiguration_returns_iff d names p c]
  constructor
  · rintro ⟨fuel, s', -, h, -⟩
    exact ⟨fuel, s', h⟩
  · rintro ⟨fuel, s', h⟩
    exact visitsOnce_of_returns h

/-- The default configuration has no name: for "root" the call does not return. -/
theorem root_not_terminating :
    ¬ VisitsOnce plainEnv (initLogger plainEnv .create) DEFAULT_ROOT_LOGGER .create := by
  rintro ⟨fuel, s', -, h, -⟩
  have hreturns := (@setLoggerConfiguration_returns_iff plainEnv .create [] DEFAULT_ROOT_LOGGER
    .create).mp ⟨fuel, s', h⟩
  exact absurd hreturns (by decide)

/-! ## The path -/

/-- With the program in the directory `d`, a call for a configuration with the path `filePath`
stores what `CanonicalizePath` makes of `resolved`, whatever function that is. -/
def Resolves (d filePath resolved : Text) : Prop :=
  ∀ (env : LoggerEnv) (fuel : Nat) (s s' : LoggerMap) (name : Text) (c : LoggerConfiguration),
    env.getCurrentPath = d → c.filePath = filePath →
    setLoggerConfiguration env fuel s name c = some s' →
    (s'.loggerConfiguration name).filePath = env.canonicalizePath resolved

/-- The replacement at a leading dot. -/
theorem finishPath_dot (env : LoggerEnv) (rest : Text) :
    finishPath env ('.'.toNat :: rest) = env.canonicalizePath
      (env.getCurrentPath ++ ('.'.toNat :: rest).drop env.getCurrentPath.length) := by
  simp [finishPath]

/-- The text that is given to `CanonicalizePath` decides. -/
theorem resolves_iff (d rest resolved : Text) :
    Resolves d ('.'.toNat :: rest) resolved ↔ d ++ ('.'.toNat :: rest).drop d.length = resolved := by
  constructor
  · intro h
    have hstored := h ⟨d, id, id, id⟩ 1 empty _ []
      { LoggerConfiguration.create with filePath := '.'.toNat :: rest } rfl rfl rfl
    rw [Function.update_self] at hstored
    have hfinish := finishPath_dot ⟨d, id, id, id⟩ rest
    exact hfinish.symm.trans hstored
  · rintro rfl env fuel s s' name c rfl hpath hcall
    obtain ⟨-, -, hconf⟩ := setLoggerConfiguration_spec hcall
    rw [(hconf name).1 .refl]
    show finishPath env c.filePath = _
    rw [hpath, finishPath_dot]

/-- **A relative directory is resolved against the program directory exactly in two cases**: it is
"." and the program directory is not empty, or the program directory has one character. -/
theorem relative_path_iff (d : Text) :
    (Resolves d (text ".") d ↔ d ≠ []) ∧
      ∀ rest, Resolves d (text ".\\" ++ rest) (d ++ text "\\" ++ rest) ↔ d.length = 1 := by
  constructor
  · rw [show text "." = '.'.toNat :: [] from rfl, resolves_iff]
    cases d with
    | nil => simp
    | cons c d => simp
  · intro rest
    rw [show text ".\\" ++ rest = '.'.toNat :: (text "\\" ++ rest) from rfl, resolves_iff,
      List.append_assoc, List.append_cancel_left_eq]
    constructor
    · intro h
      have hlen := congrArg List.length h
      have hone : (text "\\").length = 1 := rfl
      simp only [List.length_drop, List.length_cons, List.length_append, hone] at hlen
      omega
    · intro h
      rw [h]
      rfl

/-- The path ".\logs" of a program in "C:\app" loses "\logs". -/
theorem relative_path_lost :
    ¬ Resolves (text "C:\\app") (text ".\\logs") (text "C:\\app\\logs") := by
  rw [show text ".\\logs" = '.'.toNat :: text "\\logs" from rfl, resolves_iff]
  decide

end LoggerMap

end IMonPlatform.Logger
