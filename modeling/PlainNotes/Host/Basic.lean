import PlainNotes.Runner.Basic
import PlainNotes.Text.Utf8

/-!
# Running scripts with a program

A host can write files and start programs. A program runner gives a script to a program in a file of
its own, waits for the program, and takes the file away again, however the run went.
-/

namespace PlainNotes

/-- How a program ended, and what it wrote. There is no status if a signal ended it. -/
structure Ended where
  status : Option Int
  stdout : List UInt8
  stderr : List UInt8
  deriving DecidableEq, Repr

/-- What a program runner needs of a system. Causes are messages of the system. -/
structure Host (m : Type → Type) where
  /-- Makes an empty file with a new name in a directory, and answers with its path. -/
  createFile : (directory : String) → m (Except String String)
  /-- Fills a file. -/
  writeFile : (path : String) → (bytes : List UInt8) → m (Except String Unit)
  /-- Starts a program with one argument and waits for it. -/
  launch : (program argument : String) → m (Except String Ended)
  /-- Takes a file away, if it is still there. -/
  removeFile : (path : String) → m Unit

namespace Host

/-- The report on a program that ended. Success is status zero; what was written is read as text
whatever its bytes. -/
def reportEnded (script : String) (ended : Ended) : RunReport :=
  if ended.status = some 0 then
    let stdout := String.ofList (Utf8.decodeLossy ended.stdout)
    { answer := .ok stdout
      events := [.scriptDone script.utf8ByteSize stdout.utf8ByteSize] }
  else
    let stderr := String.ofList (Utf8.decodeLossy ended.stderr)
    { answer := .error (.failed ended.status stderr)
      events := [.scriptFailed ended.status stderr.utf8ByteSize] }

variable {m : Type → Type} [Monad m]

/-- Fills the file of a script and starts the program on it. -/
def runFile (host : Host m) (program path script : String) : m RunReport := do
  match ← host.writeFile path (Utf8.encode script.toList) with
  | .error cause => return { answer := .error (.write cause) }
  | .ok () =>
    match ← host.launch program path with
    | .error cause => return { answer := .error (.launch program cause) }
    | .ok ended => return reportEnded script ended

/-- The runner that starts a program for each script, with script files in a directory. -/
def runner (host : Host m) (program directory : String) : Runner m where
  run script := do
    match ← host.createFile directory with
    | .error cause => return { answer := .error (.write cause) }
    | .ok path =>
      let report ← host.runFile program path script
      host.removeFile path
      return report

end Host

end PlainNotes
