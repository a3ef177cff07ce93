import ExprScript.Text.Utf8

/-!
# Files

- A `Location` is an absolute place in a tree of directories, and `Location.resolve` finds the one that a path means;
- a `FileSystem` says what is at a location, and which files it does not let be read or written for reasons of its own;
- `FileSystem.read` and `FileSystem.write` succeed or fail as a whole, with the reason for a failure (`FileError`).
-/

namespace ExprScript

/-- An absolute place: the names on the way to it from the root. -/
abbrev Location := List Text

namespace Location

/-- A location as a path. -/
def text (l : Location) : Text := unit '/' :: Text.join "/" l

/-- One name of a path after another: nothing and `.` stay, `..` goes back, and the root is its own parent. -/
def step (l : Location) (name : Text) : Location :=
  if name.isEmpty || name = "." then l else if name = ".." then l.dropLast else l ++ [name]

/-- The location that a path means in a working directory. -/
def resolve (workingDirectory : Location) (path : Text) : Location :=
  let start := if path.head? = some (unit '/') then [] else workingDirectory
  (Text.splitOn (unit '/') path).foldl step start

/-- The directories on the way to a location, from the root down. -/
def above (l : Location) : List Location := (List.range l.length).map l.take

/-- The bytes that a name may have. -/
def maxNameSize : Nat := 255

/-- The bytes that a path may have. -/
def maxPathSize : Nat := 4095

end Location

/-- What may be at a location. -/
inductive Entry where
  | file (content : List UInt8)
  | directory
deriving DecidableEq

/-- Why a file cannot be read or written. -/
inductive FileError where
  | notFound (l : Location)
  /-- Something on the way is a file. -/
  | notDirectory (l : Location)
  /-- The path is too long, or a name in it. -/
  | nameTooLong (l : Location)
  | readsDirectory
  | writesDirectory (l : Location)
  /-- The file system refuses. -/
  | refused (reason : Text)
deriving DecidableEq

/-- The wording of an error. -/
def FileError.message : FileError → Text
  | .notFound l => "ENOENT: no such file or directory, open '" ++ l.text ++ "'"
  | .notDirectory l => "ENOTDIR: not a directory, open '" ++ l.text ++ "'"
  | .nameTooLong l => "ENAMETOOLONG: name too long, open '" ++ l.text ++ "'"
  | .readsDirectory => "EISDIR: illegal operation on a directory, read"
  | .writesDirectory l => "EISDIR: illegal operation on a directory, open '" ++ l.text ++ "'"
  | .refused reason => reason

/-- What is to be done with a file. -/
inductive FileAccess where
  | reading | writing
deriving DecidableEq

/-- Locations and what is there. The root is always a directory. -/
structure FileSystem where
  entries : List (Location × Entry)
  /-- What is refused though the path is in order, with the reason that is given: a permission is missing, or the disk
  is full. -/
  refusals : List ((Location × FileAccess) × Text) := []
deriving DecidableEq

namespace FileSystem

/-- What is at a location. -/
def get? (fs : FileSystem) (l : Location) : Option Entry :=
  if l.isEmpty then some .directory else fs.entries.lookup l

/-- The same files, but with a new entry at a location. -/
def set (fs : FileSystem) (l : Location) (e : Entry) : FileSystem :=
  { fs with entries := (l, e) :: fs.entries.filter fun (other, _) => other ≠ l }

/-- What keeps `target` from being reached by looking for a name at a location on the way to it: there has to be a
directory, and the name must not be too long for one. -/
def obstacle? (fs : FileSystem) (target : Location) : Location × Text → Option FileError
  | (above, name) =>
    match fs.get? above with
    | some .directory =>
      if Location.maxNameSize < (Utf8.encode name).length then some (.nameTooLong target) else none
    | some (.file _) => some (.notDirectory target)
    | none => some (.notFound target)

/-- What is at a location, if the way to it leads through directories only. -/
def lookup (fs : FileSystem) (l : Location) : Except FileError (Option Entry) :=
  if Location.maxPathSize < (Utf8.encode l.text).length then .error (.nameTooLong l)
  else match (l.above.zip l).findSome? (fs.obstacle? l) with
    | some e => .error e
    | none => .ok (fs.get? l)

/-- What is at a location that is to be read or written, unless that is refused. -/
def access (fs : FileSystem) (a : FileAccess) (l : Location) : Except FileError (Option Entry) := do
  let entry ← fs.lookup l
  match fs.refusals.lookup (l, a) with
  | some reason => .error (.refused reason)
  | none => .ok entry

/-- Reads a file. -/
def read (fs : FileSystem) (l : Location) : Except FileError (List UInt8) := do
  match ← fs.access .reading l with
  | some (.file content) => .ok content
  | some .directory => .error .readsDirectory
  | none => .error (.notFound l)

/-- Writes a file, whether or not there is one already. The content is asked for only if it can be written. -/
def write (fs : FileSystem) (l : Location) (content : Thunk (List UInt8)) : Except FileError FileSystem := do
  match ← fs.access .writing l with
  | some .directory => .error (.writesDirectory l)
  | _ => .ok (fs.set l (.file content.get))

end FileSystem

end ExprScript
