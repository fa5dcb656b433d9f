import Coupling.Text.CodePoint

/-!
# Log lines

An analysis tells what it does in log lines of four levels. The lines are kept also when the analysis fails.
-/

namespace Coupling

/-- How much a log line matters. -/
inductive Level where
  | debug
  | info
  | warning
  | error
  deriving DecidableEq

/-- Whether lines of a level are shown even when nobody asks for details. -/
def Level.isLoud : Level → Bool
  | .debug | .info => false
  | .warning | .error => true

/-- A line of the log. -/
structure LogLine where
  /-- How much it matters. -/
  level : Level
  /-- What it says. -/
  text : Text
  deriving DecidableEq

/-- The lines of a log, in order. -/
abbrev Log := List LogLine

/-- A computation that writes to the log. -/
abbrev Logged := StateM Log

/-- A computation that writes to the log and may fail. -/
abbrev Attempt (ε : Type) := ExceptT ε Logged

/-- An outcome as an attempt, which writes nothing to the log. -/
def Attempt.of {ε α : Type} (r : Except ε α) : Attempt ε α := ExceptT.mk (pure r)

namespace Logged

/-- Writes a line. -/
def say {m : Type → Type} [MonadStateOf Log m] (level : Level) (text : Text) : m Unit :=
  modifyThe Log (· ++ [⟨level, text⟩])

/-- Writes a detail. -/
def debug {m : Type → Type} [MonadStateOf Log m] (text : Text) : m Unit := say .debug text

/-- Writes what is of interest to those who want to know more. -/
def info {m : Type → Type} [MonadStateOf Log m] (text : Text) : m Unit := say .info text

/-- Writes a warning. -/
def warning {m : Type → Type} [MonadStateOf Log m] (text : Text) : m Unit := say .warning text

/-- Writes an error. -/
def error {m : Type → Type} [MonadStateOf Log m] (text : Text) : m Unit := say .error text

end Logged

end Coupling
