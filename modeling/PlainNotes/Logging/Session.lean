import PlainNotes.Files.Disk
import PlainNotes.Logging.Process
import PlainNotes.Request
import PlainNotes.Runner.Rehearsed

/-!
# Processes with a log on a disk

The life of one process with a disk in memory: logging is started, requests are processed, crashes
are caught, and what is noted goes to the file of the log.

- A step of a session is an incident of its process (`incident`); what stands in the cells is
  changed by nothing else.
-/

namespace PlainNotes.Logging

open Files

/-- A step in the life of a process with a disk. -/
inductive Step
  /-- A call to start logging. -/
  | start (settings : Config.Log) (component : String)
  /-- A plain file appears. -/
  | makeFile (path : String)
  | process (text : String) (responses : List Response)
  /-- A crash is caught; its message is known only if it is a text. -/
  | crash (payload : Option String)
  /-- Nothing but a look at what is active. -/
  | status

/-- A process with a disk for its world. -/
structure Session where
  disk : Disk
  cells : Cells := {}
  /-- What stands for the identifier of a request. -/
  requestId : String
  /-- What stands for the place of a crash. -/
  location : String

namespace Session

/-- Directories are made on the disk, and a log can be opened in every directory. -/
def system : System (StateM Disk) where
  makeDirectory directory := do
    let (made, disk) := (← get).makeAll directory
    set disk
    return made.mapError SystemFault.message
  openLog _ := pure (.ok ())

def touch (path : String) (disk : Disk) : Disk :=
  match disk.follow (parts path) with
  | .ok place => disk.put place (.file [])
  | .error _ => disk

variable (p : Session)

def toProcess : Process Disk := ⟨p.cells, p.disk⟩

/-- The session whose process went on to another one. -/
def goOn (q : Process Disk) : Session :=
  { p with cells := q.cells, disk := q.world }

def active : Option Active := p.cells.active

def start (settings : Config.Log) (component : String) : Except Fault Unit × Session :=
  let (answer, q) := p.toProcess.start system settings component
  (answer, p.goOn q)

def process (text : String) (responses : List Response) :
    Except Request.Fault Request.Outcome × Session :=
  let result := ((Request.process Runner.rehearsed p.requestId text).run responses).1
  (result.answer, p.goOn (p.toProcess.note result.events))

def makeFile (path : String) : Session :=
  p.goOn (p.toProcess.change (touch path))

def crash (payload : Option String) : Session :=
  p.goOn (p.toProcess.crash p.location payload)

/-- What a step is for the log of the process. -/
def incident : Step → Incident Disk
  | .start settings component => .call settings component
  | .makeFile path => .change (touch path)
  | .process text responses =>
    .note ((Request.process Runner.rehearsed p.requestId text).run responses).1.events
  | .crash payload => .crash p.location payload
  | .status => .change id

/-- The session behind a step. -/
def step : Step → Session
  | .start settings component => (p.start settings component).2
  | .makeFile path => p.makeFile path
  | .process text responses => (p.process text responses).2
  | .crash payload => p.crash payload
  | .status => p

/-- The session behind some steps. -/
def after (steps : List Step) : Session :=
  steps.foldl step p

/-- The place of the file of the log, if something was written to it. -/
def logPlace? : Option Place :=
  match p.active with
  | some active =>
    if p.cells.log.isEmpty then none
    else
      match p.disk.follow (parts active.directory) with
      | .ok place => some (place ++ [fileName])
      | .error _ => none
  | none => none

def logLines : List String :=
  p.cells.log.map Event.line

end Session

end PlainNotes.Logging
