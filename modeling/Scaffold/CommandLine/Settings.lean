import Scaffold.Text.Blank
import Scaffold.Text.Case

/-!
What the environment sets: the form of the log and the formatter.
-/

namespace Scaffold

inductive LogFormat where
  | json | pretty
  deriving DecidableEq, Repr

/-- JSON if it says so, up to case and surrounding blanks. -/
def LogFormat.parse (s : String) : LogFormat :=
  if Text.lowerText (Text.trim s) = "json" then .json else .pretty

structure Settings where
  logFormat : LogFormat := .pretty
  /-- The formatter, if the environment names one. -/
  formatter : Option String := none
  deriving DecidableEq, Repr

namespace Settings

def logFormatVariable : String := "SEED_LOG_FORMAT"

def formatterVariable : String := "SEED_CARGO_BIN"

/-- Reads the settings from an environment. A blank formatter is none. -/
def ofEnvironment (lookup : String → Option String) : Settings :=
  { logFormat := ((lookup logFormatVariable).map LogFormat.parse).getD .pretty
    formatter := (lookup formatterVariable).filter fun v => !(Text.trim v).isEmpty }

end Settings

end Scaffold
