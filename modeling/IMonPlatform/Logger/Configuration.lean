import IMonPlatform.Format.Parse

/-!
# `LoggerConfiguration`

The settings of a logger, and what `SetLoggerConfiguration` makes of the settings it is given: the
path is completed, an empty text in front of the records is taken from the one of the other
character type, and the names become those of the logger.

* `LoggerConfiguration`, `LoggerEnv` — the settings; the library and system calls that the logger
  takes texts from.
* `finishConfiguration` — the last part of `SetLoggerConfiguration`.
* `Agree` — two configurations that end up the same, names apart; `finishConfiguration_eq_iff`.
-/

set_option autoImplicit false

namespace IMonPlatform.Logger

open Format (CharT)

/-- A text of either character type, as its code units. -/
abbrev Text := List CharT

/-- The units of a literal. -/
def text (s : String) : Text := s.toList.map Char.toNat

inductive CLOG_LEVEL where
  | LL_NONE
  | LL_CRITICAL
  | LL_ERROR
  | LL_WARNING
  | LL_DEBUG
  | LL_TRACE
  deriving DecidableEq

structure LoggerConfiguration where
  loggerNameW : Text
  loggerNameA : Text
  logTransferMethods : Nat
  logLevel : CLOG_LEVEL
  isSynchronousOp : Bool
  isSplitWhenDate : Bool
  /-- In megabytes; 0 is no limit. -/
  fileSizeLimit : Nat
  fileName : Text
  filePath : Text
  fileExt : Text
  /-- `tm_yday` of `currentFileDate`, the only member that is read. -/
  currentFileDate : Nat
  currentFileIndex : Nat
  currentFullFileName : Text
  prefixLogA : Text
  prefixLogW : Text
  isAppendNewline : Bool
  maxLogFileDateCount : Nat
  isSplitByLogger : Bool
  isUseBatchFileWrite : Bool
  nBatchFileWriteIntervalsSec : Nat
  deriving DecidableEq

/-- `tagLoggerConfiguration()`. -/
def LoggerConfiguration.create : LoggerConfiguration where
  loggerNameW := []
  loggerNameA := []
  logTransferMethods := 32
  logLevel := .LL_DEBUG
  isSynchronousOp := false
  isSplitWhenDate := true
  fileSizeLimit := 0
  fileName := []
  filePath := []
  fileExt := []
  currentFileDate := 0
  currentFileIndex := 0
  currentFullFileName := []
  prefixLogA := []
  prefixLogW := []
  isAppendNewline := true
  maxLogFileDateCount := 7
  isSplitByLogger := false
  isUseBatchFileWrite := false
  nBatchFileWriteIntervalsSec := 10

/-- The path of the module, `PathCanonicalizeW` and the code page conversions. -/
structure LoggerEnv where
  getCurrentPath : Text
  canonicalizePath : Text → Text
  CA2U : Text → Text
  CU2A : Text → Text

/-- An empty path is the module's; a path that begins with a dot has its first characters
replaced by the module's path. -/
def finishPath (env : LoggerEnv) (filePath : Text) : Text :=
  let filePath := if filePath = [] then text "." else filePath
  if filePath.head? = some '.'.toNat then
    env.canonicalizePath (env.getCurrentPath ++ filePath.drop env.getCurrentPath.length)
  else filePath

/-- `SetLoggerConfiguration` behind its loop, for a logger with these names. -/
def finishConfiguration (env : LoggerEnv) (loggerNameA loggerNameW : Text)
    (lc : LoggerConfiguration) : LoggerConfiguration :=
  let prefixLogA :=
    if lc.prefixLogA = [] ∧ lc.prefixLogW ≠ [] then env.CU2A lc.prefixLogW else lc.prefixLogA
  let prefixLogW :=
    if lc.prefixLogW = [] ∧ prefixLogA ≠ [] then env.CA2U prefixLogA else lc.prefixLogW
  { lc with
    filePath := finishPath env lc.filePath
    prefixLogA
    prefixLogW
    loggerNameA
    loggerNameW }

/-- The two configurations become the same, up to the names. -/
def Agree (env : LoggerEnv) (lc lc' : LoggerConfiguration) : Prop :=
  finishConfiguration env [] [] lc = finishConfiguration env [] [] lc'

instance (env : LoggerEnv) (lc lc' : LoggerConfiguration) : Decidable (Agree env lc lc') :=
  inferInstanceAs (Decidable (_ = _))

theorem finishConfiguration_eq_iff (env : LoggerEnv) (nameA nameW : Text)
    (lc lc' : LoggerConfiguration) :
    finishConfiguration env nameA nameW lc = finishConfiguration env nameA nameW lc' ↔
      Agree env lc lc' := by
  unfold Agree finishConfiguration
  simp only [LoggerConfiguration.mk.injEq, true_and]

end IMonPlatform.Logger
