import Mockup.Fault
import Mockup.Page.File

/-!
# Files and directories

The part of the file system that a command sees. A path is walked name by name, an absolute one from
the root and any other one from the directory that the command runs in.

* `Storage` — the files, and the directories that have been made;
* `Storage.entryAt` — what is at a path;
* `Storage.makeDirectories` — makes a directory with all above it;
* `Storage.write` — writes a file.
-/

namespace Mockup

/-- A file, by the names that lead to it from the root, with its text; a file whose bytes are no
text has none. -/
structure StoredFile where
  place : List String
  text : Option String

/-- **The files and directories**, and the directory that the command runs in. The files that the
command wrote are kept apart, in the order of writing. -/
structure Storage where
  home : List String := []
  files : List StoredFile := []
  directories : List (List String) := []
  written : List StoredFile := []

/-- What is at a place. -/
inductive Entry where
  | file (text : Option String)
  | directory
  | absent

namespace Storage

/-- The longest name of a file, in bytes. -/
def longestName : Nat := 255

/-- The longest path, in bytes. -/
def longestPath : Nat := 4095

/-- Whether a place is known to be a directory: one on the way to the directory of the command, one
that has been made, or one with something below it. -/
def hasDirectory (storage : Storage) (place : List String) : Bool :=
  place.isPrefixOf storage.home || storage.directories.any (place.isPrefixOf ·)
    || (storage.written ++ storage.files).any (place.isPrefixOf ·.place)

/-- What is at a place given by names. -/
def entry (storage : Storage) (place : List String) : Entry :=
  match (storage.written ++ storage.files).find? (·.place = place) with
  | some file => .file file.text
  | none => if storage.hasDirectory place then .directory else .absent

/-! ### Paths -/

/-- The place from which a path is walked. -/
def start (storage : Storage) (path : String) : List String :=
  if Path.isAbsolute path then [] else storage.home

/-- Whether a text has a character that no path may have. -/
def isUnusable (path : String) : Bool := path.contains '\x00'

/-- Whether a name in a path leads nowhere else. -/
def isIdle (name : String) : Bool := name = "" || name = "."

/-- The place that a name leads to; above the root there is only the root. -/
def next (place : List String) (name : String) : List String :=
  if isIdle name then place else if name = ".." then place.dropLast else place ++ [name]

/-- Walks names from a place. A name leads on only from a directory. -/
def walk (storage : Storage) (place : List String) : List String → Entry
  | [] => storage.entry place
  | name :: rest =>
    match storage.entry place with
    | .directory => walk storage (next place name) rest
    | _ => .absent

/-- The place that a path leads to, if there are directories on the way. -/
def place (storage : Storage) (path : String) : List String :=
  (Path.segments path).foldl next (storage.start path)

/-- **What is at a path.** -/
def entryAt (storage : Storage) (path : String) : Result Entry :=
  if isUnusable path then .error .badValue
  else if path = "" ∨ longestPath < path.utf8ByteSize then .ok .absent
  else .ok (storage.walk (storage.start path) (Path.segments path))

/-! ### Writing -/

/-- Walks names from a place and makes the directories that are not there. The length of the path up
to the names is counted, separators included. A file on the way is noticed when the walk leads on
from it. -/
def makeAlong (storage : Storage) (place : List String) (length : Nat) :
    List String → Result Storage
  | [] => .ok storage
  | name :: rest =>
    let length := length + name.utf8ByteSize
    if name = "" then makeAlong storage place (length + 1) rest
    else if isUnusable name then .error .badValue
    else if !isIdle name && longestPath < length then .error (.storage .nameTooLong)
    else match storage.entry place, storage.entry (next place name) with
      | .file _, _ => .error (.storage .notDirectory)
      | _, .file _ =>
        if rest.all (· = "") then .error (.storage .occupied)
        else makeAlong storage (next place name) (length + 1) rest
      | _, .directory => makeAlong storage (next place name) (length + 1) rest
      | _, .absent =>
        if longestName < name.utf8ByteSize then .error (.storage .nameTooLong)
        else
          makeAlong { storage with directories := next place name :: storage.directories }
            (next place name) (length + 1) rest

/-- **Makes a directory** with all above it. -/
def makeDirectories (storage : Storage) (path : String) : Result Storage :=
  storage.makeAlong (storage.start path) 0 (Path.segments path)

/-- **Writes a file** in a directory that is there. -/
def write (storage : Storage) (path text : String) : Result Storage :=
  let place := storage.place path
  let nameLength := (place.getLast?.getD "").utf8ByteSize
  if longestPath < path.utf8ByteSize then .error (.storage .nameTooLong)
  else match storage.entry place with
    | .directory => .error (.storage .isDirectory)
    | _ =>
      if longestName < nameLength then .error (.storage .nameTooLong)
      else .ok { storage with
        written := storage.written.filter (·.place ≠ place) ++ [⟨place, some text⟩] }

end Storage

end Mockup
