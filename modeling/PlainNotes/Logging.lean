import PlainNotes.Config

/-!
# Logging

Logging is started at most once. What is then active, a level and a directory, stays so: a later
call with the same settings does nothing, and one with other settings is refused.

- `Cells` is what a process keeps for its log; the hook for crashes is kept apart from what is active;
- `Hook.call` is what a crash comes to: the hooks are called one after the other;
- `start` is one call;
- `Active.kept` are the events that the level lets through.
-/

namespace PlainNotes.Logging

open Text Files

/-- The text in one line: line breaks become spaces. -/
def flat (s : List Char) : List Char :=
  s.map fun c => if c = '\n' || c = '\r' then ' ' else c

/-- The text in one line and of a bounded length: dots stand for what is cut off. -/
def sanitize (limit : Nat) (s : List Char) : List Char :=
  (flat s).take limit ++ if limit < (flat s).length then ['.', '.', '.'] else []

/-- The level and the directory of active logging. -/
structure Active where
  level : Level
  directory : String
  deriving DecidableEq, Repr

/-- What can go wrong in the system when logging starts. -/
inductive StartFault
  | directory (cause : String)
  | logger (cause : String)
  deriving DecidableEq, Repr

/-- Why a call is refused. -/
inductive Fault
  | unsupportedLevel (text : String)
  | emptyDirectory
  | relativeDirectory (directory : String)
  | notStarted (directory : String) (fault : StartFault)
  | otherDirectory (active wanted : String)
  | otherLevel (active wanted : Level)
  deriving DecidableEq, Repr

def Fault.message : Fault → String
  | unsupportedLevel text =>
    "unsupported log level `" ++ text ++ "`; expected trace|debug|info|warn|error"
  | emptyDirectory => "log directory cannot be empty"
  | relativeDirectory directory =>
    "log directory must be an absolute path, got `" ++ directory ++ "`"
  | notStarted directory (.directory cause) =>
    "failed to create log directory `" ++ directory ++ "`: " ++ cause
  | notStarted _ (.logger cause) => "failed to start logger: " ++ cause
  | otherDirectory active wanted =>
    "logging already initialized at `" ++ active ++ "`; refusing to switch to `" ++ wanted ++ "`"
  | otherLevel active wanted =>
    "logging already initialized with level `" ++ active.name ++ "`; refusing to switch to `" ++
      wanted.name ++ "`"

/-- A text in small letters of ASCII and without blanks at its ends. -/
def plainLevel (text : String) : String :=
  String.ofList ((trim text.toList).map Char.toLower)

/-- The level of a setting. One level has two names. -/
def readLevel (text : String) : Except Fault Level :=
  let name := plainLevel text
  if name = "warning" then .ok .warn
  else
    match Level.all.find? fun l => l.name == name with
    | some level => .ok level
    | none => .error (.unsupportedLevel name)

/-- The directory of a setting, which has to be absolute. -/
def readDirectory (directory : String) : Except Fault String :=
  if directory = "" then .error .emptyDirectory
  else if !isAbsolute directory then .error (.relativeDirectory directory)
  else .ok directory

def readSettings (settings : Config.Log) : Except Fault Active := do
  return ⟨← readLevel settings.level, ← readDirectory settings.directory⟩

/-- Whether active logging agrees with what is wanted; the directory is compared first. -/
def Active.agree (active wanted : Active) : Except Fault Unit :=
  if !samePath active.directory wanted.directory then
    .error (.otherDirectory active.directory wanted.directory)
  else if active.level ≠ wanted.level then .error (.otherLevel active.level wanted.level)
  else .ok ()

def startEvents (active : Active) (component : String) : List Event :=
  [ .appStarted (String.ofList (sanitize 32 component.toList)),
    .loggingStarted active.level active.directory ]

def Active.kept (active : Active) (events : List Event) : List Event :=
  events.filter fun e => active.level.rank ≤ e.level.rank

/-- What is written for events, if they go to a logger. -/
def written (logger : Option Active) (events : List Event) : List Event :=
  match logger with
  | some active => active.kept events
  | none => []

/-- The name of the file of the log in its directory. -/
def fileName : String := "notesy_rCURRENT.log"

/-- The message of a crash; it is known only if it is a text. -/
def crashText (payload : Option String) : String :=
  String.ofList (sanitize 160 (payload.getD "non-string panic payload").toList)

/-! ## The cells of a process -/

/-- What is called when something crashes. -/
inductive Hook
  /-- The hook that a process begins with. It notes nothing. -/
  | standard
  /-- Notes the crash and goes on to the hook that was there before. -/
  | noting (previous : Hook)
  deriving DecidableEq, Repr

/-- What a process keeps for its log. -/
structure Cells where
  /-- What logging was started with. -/
  active : Option Active := none
  /-- The logger that takes events. -/
  logger : Option Active := none
  /-- The mark that a noting hook was installed. -/
  hooked : Bool := false
  /-- The hook for crashes. -/
  hook : Hook := .standard
  /-- The events in the log, in order. -/
  log : List Event := []
  deriving DecidableEq, Repr

namespace Cells

def note (cells : Cells) (events : List Event) : Cells :=
  { cells with log := cells.log ++ written cells.logger events }

/-- Puts a noting hook before the hook that is there, unless the mark says that this was done. -/
def installHook (cells : Cells) : Cells :=
  if cells.hooked then cells else { cells with hook := .noting cells.hook, hooked := true }

end Cells

def Hook.call (location : String) (payload : Option String) : Hook → Cells → Cells
  | standard, cells => cells
  | noting previous, cells =>
    previous.call location payload (cells.note [.crashCaught location (crashText payload)])

/-- A crash is caught: the hook that is installed is called. -/
def Cells.crash (cells : Cells) (location : String) (payload : Option String) : Cells :=
  cells.hook.call location payload cells

/-! ## Calls -/

/-- What a start of logging asks of the system. The causes of failures are messages of the
system. -/
structure System (m : Type → Type) where
  makeDirectory : String → m (Except String Unit)
  openLog : Active → m (Except String Unit)

variable {m : Type → Type} [Monad m]

/-- Makes the directory and opens the log, from which on events are taken. Then the hook for crashes
is installed and the start is noted. -/
def begin (system : System m) (wanted : Active) (component : String) :
    StateT Cells m (Except StartFault Unit) := do
  match ← system.makeDirectory wanted.directory with
  | .error cause => return .error (.directory cause)
  | .ok () =>
    match ← system.openLog wanted with
    | .error cause => return .error (.logger cause)
    | .ok () =>
      modify fun cells => { cells with logger := some wanted }
      modify Cells.installHook
      modify fun cells => cells.note (startEvents wanted component)
      return .ok ()

/-- A call to start logging. The system is asked only if nothing is active and the settings are
sound. -/
def start (system : System m) (settings : Config.Log) (component : String) :
    StateT Cells m (Except Fault Unit) := do
  match readSettings settings with
  | .error fault => return .error fault
  | .ok wanted =>
    match (← get).active with
    | some active => return active.agree wanted
    | none =>
      match ← begin system wanted component with
      | .error fault => return .error (.notStarted wanted.directory fault)
      | .ok () =>
        modify fun cells => { cells with active := some wanted }
        return wanted.agree wanted

end PlainNotes.Logging
