import PlainNotes.Console
import PlainNotes.Json.Reader
import PlainNotes.Json.Writer
import PlainNotes.ToolProtocol.Session

/-!
# The program

Without arguments the program is the console, and with the argument `tool` it is the tool server,
both on the standard streams. It does not run scripts but shows them: the output of each run is the
script.
-/

namespace PlainNotes.Program

open ToolProtocol

def showing : Runner Id :=
  Runner.ofAnswer .ok

/-- Requests are not told apart, since the program keeps no log. -/
def requestId : String := "-"

/-- Reads all bytes up to the end. -/
partial def readAll (input : IO.FS.Stream) (bytes : ByteArray) : IO ByteArray := do
  let more ← input.read 65536
  if more.isEmpty then return bytes else readAll input (bytes ++ more)

def console : IO UInt32 := do
  let input ← readAll (← IO.getStdin) .empty
  let session := (Console.session showing false requestId none input.toList).run
  IO.print session.written
  return session.status

/-- Serves messages, one a line, until the session is closed or the input ends. -/
partial def serve (input output : IO.FS.Stream) (phase : Phase) : IO Phase := do
  let line ← input.getLine
  if line.isEmpty || phase.close == phase then return phase
  match Json.ofText line with
  | .error _ => return phase.close
  | .ok message =>
    let (phase, answer) := (phase.receive showing requestId message).run
    for answer in answer.toList do
      output.putStrLn answer.render
      output.flush
    serve input output phase

/-- Serves one session. The exit status is 3 if the session failed. -/
def toolServer : IO UInt32 := do
  let phase ← serve (← IO.getStdin) (← IO.getStdout) .opening
  return if phase.failed then 3 else 0

end PlainNotes.Program

def main (arguments : List String) : IO UInt32 :=
  if arguments.contains "tool" then PlainNotes.Program.toolServer
  else PlainNotes.Program.console
