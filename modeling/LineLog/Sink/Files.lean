import LineLog.Error
import LineLog.Text.Bytes
import LineLog.Text.Split
/-!
# LineLog.Sink.Files

The files of one directory, as far as a log is kept in them.

Design points:

* Files are created when they are opened and only ever grow.
* A path is taken relative to the directory, step by step (`Files.walk`). The
  directory holds no directories, and nothing is known of what its ancestors hold, so
  a path that goes down anywhere leads nowhere.
* A `Place` names a file by how far up a path climbs before it names the file. Paths
  that differ in dots and doubled slashes only lead to the same place.
* The system limits the bytes of a name, and of a path together with the path of the
  directory.
-/

namespace LineLog

open Text

/-- Why a file cannot be opened. -/
inductive FileError
  | missingDirectory
  | isDirectory
  | notDirectory
  | nameTooLong
  /-- The path holds the character NUL, which ends paths. -/
  | holdsNul
  deriving Repr, DecidableEq

/-- The system's wording. -/
def FileError.toIoError : FileError → IoError
  | missingDirectory => ⟨"No such file or directory (os error 2)"⟩
  | isDirectory => ⟨"Is a directory (os error 21)"⟩
  | notDirectory => ⟨"Not a directory (os error 20)"⟩
  | nameTooLong => ⟨"File name too long (os error 36)"⟩
  | holdsNul => ⟨"file name contained an unexpected NUL byte"⟩

/-- The file `name` of the directory that lies `levels` above the log's own. -/
structure Place where
  levels : Nat
  name : String
  deriving Repr, DecidableEq, Inhabited

/-- The contents of files by place. -/
structure Files where
  contents : List (Place × Bytes) := []
  deriving Repr, DecidableEq, Inhabited

namespace Files

/-! ### Contents -/

/-- The contents of a file; nothing if it does not exist. -/
def get (fs : Files) (place : Place) : Bytes :=
  (fs.contents.lookup place).getD []

/-- The file exists. -/
def contains (fs : Files) (place : Place) : Bool :=
  (fs.contents.lookup place).isSome

/-- Add bytes at the end of a file. -/
def append (fs : Files) (place : Place) (bytes : Bytes) : Files :=
  ⟨(place, fs.get place ++ bytes) :: fs.contents.filter (·.1 != place)⟩

/-! ### Paths -/

/-- The most bytes of a name. -/
def nameLimit : Nat := 255

/-- The most bytes of a whole path. -/
def pathLimit : Nat := 4095

/-- The bytes of the directory's own path and the slash after it. -/
def directoryBytes : Nat := 16

/-- The place that the steps of a path lead to, from the directory `levels` above the log's own.
`slash` is set if a slash follows the last step: the path can then only lead to a directory. -/
def walk (fs : Files) (slash : Bool) : Nat → List (List Char) → Except FileError Place
  | _, [] => .error .isDirectory
  | levels, step :: rest =>
    let place : Place := ⟨levels, String.ofList step⟩
    if step = ['.'] then walk fs slash levels rest
    else if step = ['.', '.'] then walk fs slash (levels + 1) rest
    else if rest = [] ∧ slash then .error .isDirectory
    else if nameLimit < (utf8 step).length then .error .nameTooLong
    else if rest = [] then .ok place
    else if fs.contains place then .error .notDirectory
    else .error .missingDirectory

/-- The place that a path leads to. -/
def resolve (fs : Files) (path : String) : Except FileError Place :=
  let cs := path.toList
  let (first, others) := pieces '/' cs
  let parts := first :: others
  if cs.contains '\x00' then .error .holdsNul
  else if pathLimit < directoryBytes + (utf8 cs).length then .error .nameTooLong
  else fs.walk (parts.getLast? = some []) 0 (parts.filter (· ≠ []))

/-- Open a file for appending, creating it if need be. -/
def openFile (fs : Files) (path : String) : Except FileError (Place × Files) :=
  (fs.resolve path).map fun place => (place, fs.append place [])

end Files
end LineLog
