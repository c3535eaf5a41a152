import PlainNotes.Event
import PlainNotes.Runner.Fault

/-!
# Runners

A runner carries out scripts. What it needs for that, a host or a list of prepared answers, is the
business of the monad it works in.
-/

namespace PlainNotes

/-- What comes back from a run: the output or a fault, and the events in between. -/
structure RunReport where
  answer : Except RunFault String
  events : List Event := []

/-- A way to carry out scripts. -/
structure Runner (m : Type → Type) where
  run : String → m RunReport

namespace Runner

variable {m : Type → Type} [Monad m]

/-- The same runner, which keeps the scripts that it is handed, in order. -/
def recording (r : Runner m) : Runner (StateT (List String) m) where
  run script := do
    modify (· ++ [script])
    r.run script

def ofAnswer (f : String → Except RunFault String) : Runner Id where
  run script := pure { answer := f script }

end Runner

end PlainNotes
