import PlainNotes.Text.Blank

/-!
# Paths

Paths of files, as texts and as lists of parts. Two paths are the same if their parts are: slashes
that repeat or end a path do not count, nor does a dot that names a directory itself, but two dots
do.
-/

namespace PlainNotes.Files

open Text

/-- A part of a path. -/
inductive Part
  /-- The top of all directories. -/
  | root
  /-- The directory itself, at the beginning of a relative path. -/
  | here
  /-- The directory above. -/
  | up
  | name (text : String)
  deriving DecidableEq, Repr

def Part.ofPiece (piece : List Char) : Option Part :=
  if piece = [] || piece = ['.'] then none
  else if piece = ['.', '.'] then some .up
  else some (.name (String.ofList piece))

def parts (path : String) : List Part :=
  let pieces := pieces (· == '/') path.toList
  let names := pieces.filterMap Part.ofPiece
  match pieces with
  | [] :: _ :: _ => .root :: names
  | ['.'] :: _ => .here :: names
  | _ => names

/-- Whether a path ends in a dot that names a directory itself. -/
def endsInDot (path : String) : Bool :=
  ((pieces (· == '/') path.toList).filter (· != [])).getLast? == some ['.']

def samePath (path path' : String) : Bool :=
  parts path == parts path'

/-- Whether a path begins at the top of all directories. -/
def isAbsolute (path : String) : Bool :=
  path.toList.head? == some '/'

/-- The path of an entry of a directory. An absolute entry stands for itself. -/
def join (directory entry : String) : String :=
  if isAbsolute entry || directory = "" then entry
  else if directory.toList.getLast? = some '/' then directory ++ entry
  else directory ++ "/" ++ entry

theorem samePath_refl (path : String) : samePath path path = true := by
  simp [samePath]

end PlainNotes.Files
