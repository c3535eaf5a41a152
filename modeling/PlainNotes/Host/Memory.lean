import PlainNotes.Host.Shell.Machine

/-!
# Hosts in memory

A host whose files are on a disk in memory and whose programs are a few small ones: `cat`, `true`,
`false`, `test`, `rm` and the shell.
-/

namespace PlainNotes.Host

open Files

/-- A host in memory. -/
structure Memory where
  disk : Disk
  /-- How many files were made so far. -/
  made : Nat := 0

namespace Memory

/-- The file name of the next script: a count of six digits between a fixed beginning and ending. -/
def scriptName (made : Nat) : String :=
  let digits := Nat.toDigits 10 (made % 1000000)
  "notescript_" ++ String.ofList (List.replicate (6 - digits.length) '0' ++ digits) ++ ".scpt"

/-- The first count from `made` on whose name nothing in a directory has, if one of so many is. -/
def freeCount (disk : Disk) (place : Place) : (tries made : Nat) → Option Nat
  | 0, _ => none
  | tries + 1, made =>
    if (disk.at? (place ++ [scriptName made])).isNone then some made
    else freeCount disk place tries (made + 1)

/-- So many names are tried for a new file. -/
def nameTries : Nat := 65536

def createFile (directory : String) : StateM Memory (Except String String) := do
  let m ← get
  match m.disk.find (parts directory) with
  | .error e => return .error e.message
  | .ok (_, .file _) => return .error SystemFault.notDirectory.message
  | .ok (place, .directory) =>
    match freeCount m.disk place nameTries m.made with
    | none => return .error SystemFault.alreadyThere.message
    | some made =>
      set { m with disk := m.disk.put (place ++ [scriptName made]) (.file []), made := made + 1 }
      return .ok (join directory (scriptName made))

def writeFile (path : String) (bytes : List UInt8) : StateM Memory (Except String Unit) := do
  let m ← get
  match m.disk.find (parts path) with
  | .error e => return .error e.message
  | .ok (_, .directory) => return .error SystemFault.isDirectory.message
  | .ok (place, .file _) =>
    set { m with disk := m.disk.put place (.file bytes) }
    return .ok ()

def removeFile (path : String) : StateM Memory Unit :=
  modify fun m =>
    match m.disk.find (parts path) with
    | .ok (place, .file _) => { m with disk := m.disk.remove place }
    | _ => m

def programs : List String :=
  ["cat", "true", "false", "test", "rm", "sh", "dash", "bash"]

def programPlaces : List Place :=
  [["bin"], ["usr", "bin"]]

/-- The program that a name or a path stands for. A path leads to a program only through the
directories of programs; anything else that it leads to cannot be started. -/
def findProgram (disk : Disk) (program : String) : Except SystemFault String :=
  if program.toList.contains '/' then
    match disk.follow (parts program) with
    | .error e => .error e
    | .ok place =>
      match programs.find? fun name => programPlaces.any fun p => place == p ++ [name] with
      | some name => .ok name
      | none => .error (if (disk.at? place).isSome then .denied else .notFound)
  else if programs.contains program then .ok program
  else .error (if program = "." || program = ".." then .denied else .notFound)

def contents (disk : Disk) (path : String) : Except SystemFault (List UInt8) :=
  match disk.find (parts path) with
  | .error e => .error e
  | .ok (_, .directory) => .error .isDirectory
  | .ok (_, .file bytes) => .ok bytes

/-- The end of a program that only has a status. -/
def quiet (status : Int) : Ended :=
  { status := some status, stdout := [], stderr := [] }

def perform (disk : Disk) (program argument : String) : Ended × Disk :=
  match program with
  | "cat" =>
    match contents disk argument with
    | .ok bytes => ({ status := some 0, stdout := bytes, stderr := [] }, disk)
    | .error _ => (quiet 1, disk)
  | "false" => (quiet 1, disk)
  | "test" => (quiet (if argument = "" then 1 else 0), disk)
  | "rm" => (quiet 0, Shell.removeAll disk [argument])
  | "sh" | "dash" | "bash" =>
    match contents disk argument with
    | .ok script => Shell.run disk argument script
    | .error _ => (quiet 2, disk)
  | _ => (quiet 0, disk)

def launch (program argument : String) : StateM Memory (Except String Ended) := do
  let m ← get
  if program.toList.contains '\x00' then return .error "nul byte found in provided data"
  match findProgram m.disk program with
  | .error e => return .error e.message
  | .ok name =>
    let (ended, disk) := perform m.disk name argument
    set { m with disk := disk }
    return .ok ended

end Memory

def memory : Host (StateM Memory) where
  createFile := Memory.createFile
  writeFile := Memory.writeFile
  launch := Memory.launch
  removeFile := Memory.removeFile

end PlainNotes.Host
