import PlainNotes.Files.Path
import PlainNotes.Text.Utf8

/-!
# Directories and files in memory

A disk holds directories and files under their full names, and answers requests as a system does:
a request names a path, the path is followed part by part, and the first obstacle is the answer.
-/

namespace PlainNotes.Files

/-- Why a request to the system failed. -/
inductive SystemFault
  | notFound
  | denied
  | alreadyThere
  | notDirectory
  | isDirectory
  | nameTooLong
  | zeroInName
  deriving DecidableEq, Repr

def SystemFault.message : SystemFault → String
  | notFound => "No such file or directory (os error 2)"
  | denied => "Permission denied (os error 13)"
  | alreadyThere => "File exists (os error 17)"
  | notDirectory => "Not a directory (os error 20)"
  | isDirectory => "Is a directory (os error 21)"
  | nameTooLong => "File name too long (os error 36)"
  | zeroInName => "file name contained an unexpected NUL byte"

/-- What stands under a name. -/
inductive Node
  | directory
  | file (bytes : List UInt8)
  deriving DecidableEq, Repr

/-- Where something stands: the names from the top on. -/
abbrev Place := List String

/-- All directories and files but the top one, which is always there. -/
structure Disk where
  entries : List (Place × Node) := []
  /-- The directory from which relative paths start. -/
  working : Place := []
  /-- Directories in which nothing can be made: each name in them that is missing stays so. -/
  sealed : List Place := []
  deriving DecidableEq, Repr

namespace Disk

def at? (disk : Disk) (place : Place) : Option Node :=
  if place = [] then some .directory else disk.entries.lookup place

/-- Puts something at a place, where it replaces what was there. -/
def put (disk : Disk) (place : Place) (node : Node) : Disk :=
  { disk with entries := disk.entries.filter (·.1 != place) ++ [(place, node)] }

def remove (disk : Disk) (place : Place) : Disk :=
  { disk with entries := disk.entries.filter (·.1 != place) }

def below (disk : Disk) (place : Place) : List Place :=
  (disk.entries.map Prod.fst).filter fun p => p != [] && p.dropLast == place

/-- Names are at most this many bytes. -/
def nameLimit : Nat := 255

/-- Paths are below this many bytes. -/
def pathLimit : Nat := 4096

/-- Follows one part from a place, which has to be a directory. What it names may be missing. -/
def next (disk : Disk) (place : Place) : Part → Except SystemFault Place
  | .root => .ok []
  | .here => .ok place
  | .up =>
    match disk.at? place with
    | none => .error .notFound
    | some .directory => .ok place.dropLast
    | some (.file _) => .error .notDirectory
  | .name text =>
    match disk.at? place with
    | none => .error .notFound
    | some (.file _) => .error .notDirectory
    | some .directory =>
      if nameLimit < text.utf8ByteSize then .error .nameTooLong else .ok (place ++ [text])

def followFrom (disk : Disk) (place : Place) : List Part → Except SystemFault Place
  | [] => .ok place
  | p :: ps =>
    match disk.next place p with
    | .error e => .error e
    | .ok place => followFrom disk place ps

/-- The place of a path. All parts but the last lead through directories that are there. -/
def follow (disk : Disk) (ps : List Part) : Except SystemFault Place :=
  disk.followFrom disk.working ps

def find (disk : Disk) (ps : List Part) : Except SystemFault (Place × Node) :=
  match disk.follow ps with
  | .error e => .error e
  | .ok place =>
    match disk.at? place with
    | some node => .ok (place, node)
    | none => .error .notFound

def isDirectory (disk : Disk) (ps : List Part) : Bool :=
  match disk.find ps with
  | .ok (_, .directory) => true
  | _ => false

/-- Makes a directory in one that is there. -/
def makeDirectory (disk : Disk) (ps : List Part) : Except SystemFault Disk :=
  match disk.follow ps with
  | .error e => .error e
  | .ok place =>
    match disk.at? place with
    | some _ => .error .alreadyThere
    | none =>
      if disk.sealed.contains place.dropLast then .error .notFound
      else .ok (disk.put place .directory)

/-- Makes a directory and those above it, as far as they are missing. `ps` holds the parts of the
path from the last to the first. What was made before an obstacle stays. -/
def makeAllReversed (disk : Disk) : List Part → Except SystemFault Unit × Disk
  | [] => (.ok (), disk)
  | p :: ps =>
    match disk.makeDirectory (p :: ps).reverse with
    | .ok disk => (.ok (), disk)
    | .error .notFound =>
      match makeAllReversed disk ps with
      | (.error e, disk) => (.error e, disk)
      | (.ok (), disk) =>
        match disk.makeDirectory (p :: ps).reverse with
        | .ok disk => (.ok (), disk)
        | .error e => (if disk.isDirectory (p :: ps).reverse then .ok () else .error e, disk)
    | .error e => (if disk.isDirectory (p :: ps).reverse then .ok () else .error e, disk)

/-- Makes the directories above the one that a path names with a dot behind it. Such a path only
finds its own directory and never makes it. -/
def makeAbove (disk : Disk) (ps : List Part) : Except SystemFault Unit × Disk :=
  match disk.find ps with
  | .ok (_, .directory) => (.ok (), disk)
  | .ok (_, .file _) => (.error .notDirectory, disk)
  | .error .notFound =>
    let (made, disk) := disk.makeAllReversed ps.reverse.tail
    (made.bind fun _ => .error .notFound, disk)
  | .error e => (.error e, disk)

/-- Makes a directory and those above it, as far as they are missing. -/
def makeAll (disk : Disk) (path : String) : Except SystemFault Unit × Disk :=
  if path.toList.contains '\x00' then (.error .zeroInName, disk)
  else if pathLimit ≤ path.utf8ByteSize then (.error .nameTooLong, disk)
  else if endsInDot path then disk.makeAbove (parts path)
  else disk.makeAllReversed (parts path).reverse

/-- Whether a text names a directory. The empty text names nothing. -/
def isDirectoryPath (disk : Disk) (path : String) : Bool :=
  path != "" && disk.isDirectory (parts path)

def placeText (place : Place) : String :=
  "/" ++ "/".intercalate place

def ordinary : Disk where
  entries := [(["tmp"], .directory), (["dev"], .directory), (["dev", "null"], .file []),
    (["etc"], .directory), (["etc", "passwd"], .file []), (["proc"], .directory),
    (["root"], .directory), (["home"], .directory), (["usr"], .directory),
    (["usr", "bin"], .directory), (["bin"], .directory), (["var"], .directory),
    (["var", "log"], .directory)]
  sealed := [["proc"]]

/-- The same disk with one more directory, whose own directory is there. -/
def withDirectory (disk : Disk) (place : Place) : Disk :=
  disk.put place .directory

end Disk

end PlainNotes.Files
