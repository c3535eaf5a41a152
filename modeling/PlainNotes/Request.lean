import PlainNotes.Runner.Basic
import PlainNotes.Script.Statement

/-!
# Requests

The one way of a request through the library: it is read, its script is written, the script is run
once, and the outcome is noted. All transports hand their requests to `Request.process`.
-/

namespace PlainNotes.Request

/-- A request that was carried out. -/
structure Outcome where
  command : Command
  /-- The script that was handed to the runner. -/
  script : String
  /-- What the runner answered. -/
  output : String
  deriving DecidableEq, Repr

/-- Why a request was not carried out. -/
inductive Fault
  | unrecognized
  | run (fault : RunFault)
  deriving DecidableEq, Repr

def Fault.message : Fault → String
  | unrecognized => "could not understand the request"
  | run fault => fault.message

/-- The texts of what is behind a fault, from the nearest to the farthest. -/
def Fault.sources : Fault → List String
  | unrecognized => []
  | run fault => fault.message :: fault.cause?.toList

/-- How a request went, and the events on the way. -/
structure Result where
  answer : Except Fault Outcome
  events : List Event

def notUnderstood (id text : String) : Result where
  answer := .error .unrecognized
  events := parseEvents text ++ [.requestUnrecognized id text.length]

def conclude (id text : String) (command : Command) (report : RunReport) : Result :=
  match report.answer with
  | .ok output =>
    { answer := .ok ⟨command, command.script, output⟩
      events := parseEvents text ++ report.events ++
        [.requestDone id command.action command.title.length output.utf8ByteSize] }
  | .error fault =>
    { answer := .error (.run fault)
      events := parseEvents text ++ report.events ++
        [.requestFailed id command.action fault.kind] }

variable {m : Type → Type} [Monad m]

/-- Carries out a request. A script is run if and only if the request is understood. -/
def process (runner : Runner m) (id text : String) : m Result :=
  match parse text with
  | none => pure (notUnderstood id text)
  | some command => do return conclude id text command (← runner.run command.script)

/-- Carries out requests one after the other. -/
def processAll (runner : Runner m) (id : String) (texts : List String) : m (List Result) :=
  texts.mapM (process runner id)

end PlainNotes.Request
