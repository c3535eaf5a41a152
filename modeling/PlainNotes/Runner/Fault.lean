/-!
# Failed runs

Why a script was not carried out.
-/

namespace PlainNotes

/-- Why a run failed. The causes of the first two are messages of the system. -/
inductive RunFault
  /-- The script could not be written to a file. -/
  | write (cause : String)
  /-- The program could not be started. -/
  | launch (program cause : String)
  /-- The program ended without success; there is no status if a signal ended it. -/
  | failed (status : Option Int) (stderr : String)
  deriving DecidableEq, Repr

namespace RunFault

def message : RunFault → String
  | write cause => "Error writing script: " ++ cause
  | launch program cause => "failed to launch `" ++ program ++ "`: " ++ cause
  | failed _ stderr => "AppleScript execution error: " ++ stderr

/-- The message of the system behind a fault, if there is one. -/
def cause? : RunFault → Option String
  | write cause => some cause
  | launch _ cause => some cause
  | failed .. => none

def kind : RunFault → String
  | write _ => "write_script"
  | launch .. => "spawn"
  | failed .. => "failed"

end RunFault

end PlainNotes
