import PlainNotes.Event
import PlainNotes.Files.Path

/-!
# Settings

Where scripts are run and where the log goes. Settings come from defaults, which a value given by
the user overrides unless it is blank.
-/

namespace PlainNotes.Config

open Text Files

/-- Settings of the log. The level is a text until logging starts. -/
structure Log where
  level : String
  directory : String
  deriving DecidableEq, Repr

/-- Settings of runs: the program that carries out scripts, and the directory for script files. -/
structure Runs where
  program : String
  directory : String
  deriving DecidableEq, Repr

/-- All settings. -/
structure Settings where
  log : Log
  runs : Runs
  deriving DecidableEq, Repr

/-- The program that carries out scripts if none is given. -/
def defaultProgram : String := "osascript"

/-- The name of the directory of the log in the directory for temporary files. -/
def logDirectoryName : String := "notesy-logs"

/-- The settings of a system with a directory for temporary files. -/
def defaults (temporary : String) : Settings where
  log := ⟨Level.default.name, join temporary logDirectoryName⟩
  runs := ⟨defaultProgram, temporary⟩

/-- A value of the user, unless it is missing or empty. -/
def given (value : Option String) (default : String) : String :=
  match value with
  | some text => if text = "" then default else text
  | none => default

/-- The settings with the values of the user. Blanks around a level do not count; in paths they do.
-/
def override (settings : Settings) (level logDirectory program scriptDirectory : Option String) :
    Settings where
  log :=
    { level := given (level.map fun l => String.ofList (trim l.toList)) settings.log.level
      directory := given logDirectory settings.log.directory }
  runs :=
    { program := given program settings.runs.program
      directory := given scriptDirectory settings.runs.directory }

/-- Whether settings mean the same; paths do if they have the same parts. -/
def Settings.same (s s' : Settings) : Bool :=
  s.log.level == s'.log.level && samePath s.log.directory s'.log.directory &&
    samePath s.runs.program s'.runs.program && samePath s.runs.directory s'.runs.directory

/-- The message about a directory for script files that cannot be made. -/
def directoryFault (directory cause : String) : String :=
  "failed to create script directory `" ++ directory ++ "`: " ++ cause

end PlainNotes.Config
