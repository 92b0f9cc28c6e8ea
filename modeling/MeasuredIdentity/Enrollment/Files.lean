import MeasuredIdentity.Bytes
import MeasuredIdentity.Text.Words

/-!
Access to files by path, and a tree of files and directories in memory. Paths are resolved as POSIX
does it: from the working directory, component by component, each of which has to stand in a
directory. Whether there is a file at a path is one question, whether it can be read another. There
are no links, devices or pipes.
-/
namespace MeasuredIdentity.Enrollment

inductive FileError where
  | notFound
  | notDirectory
  | isDirectory
  | nameTooLong
  | permissionDenied
  /-- A path cannot hold the character zero. -/
  | nulInPath
  | notUtf8
  | other (text : String)
  deriving DecidableEq, Repr

def FileError.message : FileError → String
  | .notFound => "No such file or directory (os error 2)"
  | .notDirectory => "Not a directory (os error 20)"
  | .isDirectory => "Is a directory (os error 21)"
  | .nameTooLong => "File name too long (os error 36)"
  | .permissionDenied => "Permission denied (os error 13)"
  | .nulInPath => "file name contained an unexpected NUL byte"
  | .notUtf8 => "stream did not contain valid UTF-8"
  | .other text => text

structure Files (m : Type → Type) where
  /-- Looks a path up, without opening what it leads to. -/
  isFile : String → m Bool
  read : String → m (Except FileError Bytes)
  /-- Creates a file, or replaces what is in it. -/
  write : String → Bytes → m (Except FileError Unit)

/-- A file name in a directory. An absolute name stands for itself. -/
def joinPath (directory name : String) : String :=
  if directory.isEmpty || name.startsWith "/" then name
  else if directory.endsWith "/" then directory ++ name
  else directory ++ "/" ++ name

/-- The names between the slashes of a path, empty ones included. -/
def pathComponents (path : String) : List String :=
  (Text.pieces (· == '/') path.toList).map String.ofList

inductive Entry where
  | file (content : Bytes)
  | directory
  deriving DecidableEq

def Entry.isFile : Entry → Bool
  | .file _ => true
  | .directory => false

/-- The largest number of bytes in a name. -/
def maxNameSize : Nat := 255

/-- The largest number of bytes in a path. -/
def maxPathSize : Nat := 4095

/-- What a program does with the entry at a location. -/
inductive Use where
  | read
  /-- Changes a file, or adds a name to a directory. -/
  | write
  /-- Looks a name up in a directory. -/
  | search
  deriving DecidableEq, Repr

/-- Entries at locations below the root. -/
structure FileTree where
  entries : List (List String × Entry) := []
  workingDirectory : List String := []
  /-- Uses that fail at a location whatever is there, for want of permission or another cause. -/
  refusals : List ((List String × Use) × FileError) := []

namespace FileTree

/-- What is at a location; the root is a directory. -/
def at? (t : FileTree) (location : List String) : Option Entry :=
  if location = [] then some .directory else t.entries.lookup location

def allow (t : FileTree) (use : Use) (location : List String) : Except FileError Unit :=
  match t.refusals.lookup (location, use) with
  | some cause => .error cause
  | none => .ok ()

/-- The location one name further, if names can be looked up where it starts. The location need not
exist. -/
def step (t : FileTree) (location : List String) (name : String) :
    Except FileError (List String) :=
  match t.at? location with
  | none => .error .notFound
  | some (.file _) => .error .notDirectory
  | some .directory =>
    if name = "" then .ok location
    else do
      t.allow .search location
      if name = "." then return location
      else if name = ".." then return location.dropLast
      else if maxNameSize < name.utf8ByteSize then throw .nameTooLong
      else return location ++ [name]

/-- The location that components lead to. -/
def walk (t : FileTree) (location : List String) (names : List String) :
    Except FileError (List String) :=
  names.foldlM t.step location

def locate (t : FileTree) (path : String) : Except FileError (List String) :=
  if path = "" then .error .notFound
  else if path.toList.contains '\x00' then .error .nulInPath
  else if maxPathSize < path.utf8ByteSize then .error .nameTooLong
  else t.walk (if path.startsWith "/" then [] else t.workingDirectory) (pathComponents path)

def isFile (t : FileTree) (path : String) : Bool :=
  ((t.locate path).toOption.bind t.at?).any Entry.isFile

def read (t : FileTree) (path : String) : Except FileError Bytes := do
  let location ← t.locate path
  match t.at? location with
  | none => throw .notFound
  | some entry =>
    t.allow .read location
    match entry with
    | .directory => throw .isDirectory
    | .file content => return content

def put (t : FileTree) (location : List String) (entry : Entry) : FileTree :=
  { t with entries := (location, entry) :: t.entries.filter (·.1 ≠ location) }

/-- Whether a file can be put at a location. A new one is a change of the directory around it. -/
def allowPut (t : FileTree) (location : List String) : Except FileError Unit :=
  match t.at? location with
  | none => t.allow .write location.dropLast
  | some (.file _) => t.allow .write location
  | some .directory => .error .isDirectory

def write (t : FileTree) (path : String) (content : Bytes) : Except FileError FileTree := do
  let location ← t.locate path
  t.allowPut location
  return t.put location (.file content)

/-- Puts an entry below the working directory, with all directories above it. -/
def place (t : FileTree) (path : String) (entry : Entry) : FileTree :=
  let location := t.workingDirectory ++ pathComponents path
  let above := (List.range location.length).map location.take
  (above.foldl (fun t d => if d = [] then t else t.put d .directory) t).put location entry

/-- The files below the working directory, by their relative paths. -/
def files (t : FileTree) : List (String × Bytes) :=
  t.entries.filterMap fun (location, entry) =>
    match entry with
    | .file content =>
      if t.workingDirectory.isPrefixOf location then
        some ("/".intercalate (location.drop t.workingDirectory.length), content)
      else none
    | .directory => none

def access : Files (StateM FileTree) where
  isFile path := do return (← get).isFile path
  read path := do return (← get).read path
  write path content := modifyGet fun t =>
    match t.write path content with
    | .ok t => (.ok (), t)
    | .error e => (.error e, t)

end FileTree

end MeasuredIdentity.Enrollment
