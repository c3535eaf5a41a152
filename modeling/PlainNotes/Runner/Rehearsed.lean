import PlainNotes.Host.Memory

/-!
# Rehearsed runners

Runners whose answers are decided in advance: a list of responses, one for each run, of which the
last is given again and again.
-/

namespace PlainNotes

/-- A response to a script. -/
inductive Response
  /-- A fixed output. -/
  | output (text : String)
  /-- The script itself. -/
  | echo
  | fault (fault : RunFault)
  /-- What a program of a host in memory makes of the script. -/
  | program (name : String)
  deriving DecidableEq, Repr

namespace Response

/-- The directory for scripts on the host of a response. -/
def scriptPlace : Files.Place := ["tmp", "scripts"]

/-- A fresh host in memory, with an empty directory for scripts. -/
def freshHost : Host.Memory where
  disk := Files.Disk.ordinary.withDirectory scriptPlace

def report (response : Response) (script : String) : RunReport :=
  match response with
  | .output text => { answer := .ok text }
  | .echo => { answer := .ok script }
  | .fault f => { answer := .error f }
  | .program name =>
    (((Host.memory.runner name (Files.Disk.placeText scriptPlace)).run script).run freshHost).1

/-- The first response of a list and the responses after it. Without responses the output is empty,
and the last response stays. -/
def next : List Response → Response × List Response
  | [] => (.output "", [])
  | [r] => (r, [r])
  | r :: r' :: rs => (r, r' :: rs)

end Response

namespace Runner

def rehearsed : Runner (StateM (List Response)) where
  run script := do
    let (response, left) := Response.next (← get)
    set left
    return response.report script

end Runner

end PlainNotes
