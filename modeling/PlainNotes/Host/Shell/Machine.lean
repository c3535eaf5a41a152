import PlainNotes.Files.Disk
import PlainNotes.Host.Basic
import PlainNotes.Host.Shell.Task

/-!
# A small shell at work

How the commands of a script are carried out on a disk in memory, one after the other until the
script ends, exits or is killed.
-/

namespace PlainNotes.Shell

open Files

/-- A script under way. -/
structure Machine where
  disk : Disk
  path : String
  stdout : List UInt8 := []
  stderr : List UInt8 := []
  /-- The status of the last command. -/
  status : Nat := 0
  /-- How the shell ended, once it has: with a status or by a signal. -/
  ended : Option (Option Nat) := none

namespace Machine

def pieceText (m : Machine) : Piece → List Char
  | .char c _ => [c]
  | .scriptPath => m.path.toList
  | .process => ['$', '$']
  | .status => Nat.toDigits 10 m.status

def expand (m : Machine) (w : Word) : List Char :=
  w.flatMap m.pieceText

/-- A sign of a pattern: any text, any character, or one character. -/
inductive Sign
  | anyText
  | anyChar
  | only (c : Char)

/-- The signs of a pattern. -/
def signs (m : Machine) (w : Word) : List Sign :=
  w.flatMap fun
    | .char '*' false => [.anyText]
    | .char '?' false => [.anyChar]
    | piece => (m.pieceText piece).map Sign.only

def fits : List Sign → List Char → Bool
  | [], s => s.isEmpty
  | .anyText :: ps, s => fitsRest ps s
  | .anyChar :: ps, s => match s with | [] => false | _ :: s => fits ps s
  | .only c :: ps, s => match s with | [] => false | d :: s => c == d && fits ps s
where
  /-- Whether some end of a text fits a pattern. -/
  fitsRest (ps : List Sign) : List Char → Bool
    | [] => fits ps []
    | c :: s => fits ps (c :: s) || fitsRest ps s

/-- Writes to a stream, with the redirections of the command. -/
def write (m : Machine) (redirects : List Redirect) (stream : Nat) (bytes : List UInt8) : Machine :=
  let target := redirects.foldl (fun (target : Option Nat) r =>
    match r with
    | .duplicate n k => if n = stream then some k else target
    | .toFile n _ => if n = stream then none else target) (some stream)
  match target with
  | some 1 => { m with stdout := m.stdout ++ bytes }
  | some 2 => { m with stderr := m.stderr ++ bytes }
  | _ => m

def finish (m : Machine) (status : Nat) : Machine :=
  { m with status := status }

end Machine

/-- The value of octal digits at the front of a text, at most so many of them. -/
def takeOctal : Nat → Nat → List Char → Nat × List Char
  | 0, value, s => (value, s)
  | _ + 1, value, [] => (value, [])
  | count + 1, value, c :: s =>
    if '0' ≤ c && c ≤ '7' then takeOctal count (value * 8 + (c.toNat - 48)) s else (value, c :: s)

def escapeByte? (c : Char) : Option UInt8 :=
  match c with
  | 'a' => some 7
  | 'b' => some 8
  | 'f' => some 12
  | 'n' => some 10
  | 'r' => some 13
  | 't' => some 9
  | 'v' => some 11
  | '\\' => some 92
  | _ => none

/-- The bytes of a text with escapes. `leadingZero` says whether octal digits begin with a zero that
does not count. `bound` is above the length of the text. -/
def unescape (leadingZero : Bool) : Nat → List Char → List UInt8
  | 0, _ => []
  | _ + 1, [] => []
  | bound + 1, '\\' :: c :: s =>
    match escapeByte? c with
    | some b => b :: unescape leadingZero bound s
    | none =>
      if leadingZero && c = '0' then
        let (value, rest) := takeOctal 3 0 s
        UInt8.ofNat value :: unescape leadingZero bound rest
      else if !leadingZero && '0' ≤ c && c ≤ '7' then
        let (value, rest) := takeOctal 3 0 (c :: s)
        UInt8.ofNat value :: unescape leadingZero bound rest
      else Utf8.encode ['\\', c] ++ unescape leadingZero bound s
  | bound + 1, c :: s => Utf8.encodeChar c ++ unescape leadingZero bound s

/-- The output of `printf` with a format and arguments, which are used up one after the other. -/
def format : Nat → List Char → List (List Char) → List UInt8
  | 0, _, _ => []
  | _ + 1, [], _ => []
  | bound + 1, '%' :: '%' :: s, args => 37 :: format bound s args
  | bound + 1, '%' :: 's' :: s, args =>
    Utf8.encode (args.head?.getD []) ++ format bound s args.tail
  | bound + 1, '%' :: 'd' :: s, args =>
    Utf8.encode (args.head?.getD ['0']) ++ format bound s args.tail
  | bound + 1, '\\' :: c :: s, args =>
    if '0' ≤ c && c ≤ '7' then
      let (value, rest) := takeOctal 3 0 (c :: s)
      UInt8.ofNat value :: format bound rest args
    else unescape false 3 ['\\', c] ++ format bound s args
  | bound + 1, c :: s, args => Utf8.encodeChar c ++ format bound s args

def argumentCount : List Char → Nat
  | '%' :: '%' :: s => argumentCount s
  | '%' :: 's' :: s | '%' :: 'd' :: s => argumentCount s + 1
  | _ :: s => argumentCount s
  | [] => 0

/-- The output of `printf`, which uses its format again while arguments are left. `bound` is above
the number of arguments. -/
def formatAll : Nat → List Char → List (List Char) → List UInt8
  | 0, _, _ => []
  | bound + 1, form, args =>
    let count := argumentCount form
    let bytes := format (form.length + 1) form (args.take count)
    if count = 0 || args.length ≤ count then bytes
    else bytes ++ formatAll bound form (args.drop count)

/-- The answer of `test`. -/
def test (disk : Disk) : List String → Bool
  | ["-e", path] | ["-f", path] => (disk.find (parts path)).isOk
  | ["-d", path] => disk.isDirectoryPath path
  | ["-s", path] =>
    match disk.find (parts path) with
    | .ok (_, .file bytes) => !bytes.isEmpty
    | _ => false
  | ["-n", s] => s != ""
  | ["-z", s] => s == ""
  | [a, "=", b] => a == b
  | [a, "!=", b] => a != b
  | [s] => s != ""
  | _ => false

/-- The contents of files one after the other, and whether all could be read. -/
def concatenate (disk : Disk) (paths : List String) : List UInt8 × Bool :=
  paths.foldl (fun (bytes, ok) path =>
    match disk.find (parts path) with
    | .ok (_, .file more) => (bytes ++ more, ok)
    | _ => (bytes, false)) ([], true)

def removeAll (disk : Disk) (paths : List String) : Disk :=
  paths.foldl (fun disk path =>
    match disk.find (parts path) with
    | .ok (place, .file _) => disk.remove place
    | _ => disk) disk

def statusOf (text : String) : Nat :=
  text.toNat?.getD 2 % 256

def call (m : Machine) (redirects : List Redirect) (name : String) (args : List String) : Machine :=
  let out (bytes : List UInt8) := (m.write redirects 1 bytes).finish 0
  match name, args with
  | "true", _ | ":", _ | "sleep", _ => m.finish 0
  | "false", _ => m.finish 1
  | "exit", [] => { m with ended := some (some m.status) }
  | "exit", status :: _ => { m with ended := some (some (statusOf status)) }
  | "echo", "-n" :: args =>
    let line := (" ".intercalate args).toList
    out (unescape true (line.length + 1) line)
  | "echo", args =>
    let line := (" ".intercalate args).toList
    out (unescape true (line.length + 1) line ++ [10])
  | "printf", form :: args => out (formatAll (args.length + 1) form.toList (args.map String.toList))
  | "cat", [] => m.finish 0
  | "cat", paths =>
    let (bytes, ok) := concatenate m.disk paths
    (m.write redirects 1 bytes).finish (if ok then 0 else 1)
  | "rm", "-f" :: paths => { m with disk := removeAll m.disk paths }.finish 0
  | "rm", paths => { m with disk := removeAll m.disk paths }.finish 0
  | "test", args => m.finish (if test m.disk args then 0 else 1)
  | "[", args => m.finish (if test m.disk args.dropLast then 0 else 1)
  | "kill", ["-0", "$$"] => m.finish 0
  | "kill", args => if args.getLast? = some "$$" then { m with ended := some none } else m.finish 1
  | name, _ =>
    (m.write redirects 2 (Utf8.encode (m.path ++ ": 1: " ++ name ++ ": not found\n").toList)).finish
      127

mutual

def carryOut (m : Machine) : Task → Machine
  | .simple words redirects =>
    match words.map fun w => String.ofList (m.expand w) with
    | [] => m.finish 0
    | name :: args => call m redirects name args
  | .ifFits subject patterns body otherwise =>
    if patterns.any fun p => Machine.fits (m.signs p) (m.expand subject) then carryOutAll m body
    else carryOutAll m otherwise
  | .ifSucceeds condition body otherwise =>
    let m := carryOutAll m condition
    if m.ended.isSome then m
    else if m.status = 0 then carryOutAll m body
    else carryOutAll m otherwise

/-- Carries out commands one after the other until the shell ends. -/
def carryOutAll (m : Machine) : List Task → Machine
  | [] => m
  | t :: ts =>
    let m := carryOut m t
    if m.ended.isSome then m else carryOutAll m ts

end

/-- Runs the script at a path. A script that is no list of commands ends with status 2. -/
def run (disk : Disk) (path : String) (script : List UInt8) : Ended × Disk :=
  match tasks (Utf8.decodeLossy script) with
  | none => ({ status := some 2, stdout := [], stderr := [] }, disk)
  | some ts =>
    let m := carryOutAll { disk := disk, path := path } ts
    let status := (m.ended.getD (some m.status)).map Int.ofNat
    ({ status := status, stdout := m.stdout, stderr := m.stderr }, m.disk)

end PlainNotes.Shell
