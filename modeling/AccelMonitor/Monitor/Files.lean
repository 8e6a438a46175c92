import AccelMonitor.Text.Pieces

/-!
# Writing to a Path

Whether a file can be written, as far as its path decides.

A path is followed one part after the other, from the root or from the current
directory. Every part but the last has to lead to a directory. The last one may
name a file that is there or one that is to be made, but no directory, and a path
that ends in a slash or in a part such as `..` names one whether it is there or
not. A device that takes no text can be opened like a file and fails when
something is written.

## Main definitions

* `FileFault`: Why a file cannot be written.
* `FileTree`: The directories and the files there are.
* `FileTree.enter`: One part of a path.
* `FileTree.access`: What becomes of the wish to write to a path.
-/

namespace AccelMonitor

/-- Why a file cannot be written. -/
inductive FileFault where
  /-- A part of the path is missing. -/
  | missing
  /-- A part that should lead to a directory is a file. -/
  | notDirectory
  /-- The path names a directory. -/
  | isDirectory
  /-- The path or a part of it is too long. -/
  | tooLong
  /-- There is no room for the text. -/
  | noSpace
deriving DecidableEq

/-- The fault in words. -/
def FileFault.message : FileFault → String
  | missing => "No such file or directory (os error 2)"
  | notDirectory => "Not a directory (os error 20)"
  | isDirectory => "Is a directory (os error 21)"
  | tooLong => "File name too long (os error 36)"
  | noSpace => "No space left on device (os error 28)"

/-- What becomes of the wish to write to a path. -/
inductive FileAccess where
  /-- The file cannot be opened. -/
  | refused (fault : FileFault)
  /-- The file can be opened and fails when it is written. -/
  | broken (fault : FileFault)
  /-- The file can be written. -/
  | granted
deriving DecidableEq

/-- The directories and the files there are. Each is given by its parts from the root
    on, and the root itself is always there. -/
structure FileTree where
  directories : List (List String)
  /-- The directories in which no file can be made. -/
  closed : List (List String)
  files : List (List String)
  /-- The devices that have no room for any text. -/
  full : List (List String)
  /-- The directory in which a path without a root starts. -/
  current : List String
deriving DecidableEq

namespace FileTree

/-- The parts of a path. Slashes in a row count as one. -/
def parts (path : String) : List String :=
  (Text.split '/' path).filter (· ≠ "")

/-- The number of bytes that a path has to stay below. -/
def pathLimit : Nat :=
  4096

/-- The number of bytes that a part may have. -/
def partLimit : Nat :=
  255

/-- The part stands for a directory wherever it occurs. -/
def isStep (part : String) : Bool :=
  part == "." || part == ".."

/-- The directory to which a part leads from a directory. Going up from the root stays there,
    and a part that is too long is refused before anything is looked up. -/
def enter (t : FileTree) (place : List String) (part : String) :
    Except FileFault (List String) :=
  if part = "." then .ok place
  else if part = ".." then .ok place.dropLast
  else if partLimit < part.utf8ByteSize then .error .tooLong
  else
    let next := place ++ [part]
    if next ∈ t.directories then .ok next
    else if next ∈ t.files ∨ next ∈ t.full then .error .notDirectory
    else .error .missing

/-- What becomes of the wish to write to a file in a directory. -/
def accessIn (t : FileTree) (place : List String) (name : String) : FileAccess :=
  let file := place ++ [name]
  if partLimit < name.utf8ByteSize then .refused .tooLong
  else if file ∈ t.directories then .refused .isDirectory
  else if file ∈ t.full then .broken .noSpace
  else if file ∉ t.files ∧ place ∈ t.closed then .refused .missing
  else .granted

/-- Where a path starts. -/
def origin (t : FileTree) (path : String) : List String :=
  if Text.startsWith "/" path then [] else t.current

/-- What becomes of the wish to write to a path. -/
def access (t : FileTree) (path : String) : FileAccess :=
  if pathLimit ≤ path.utf8ByteSize then .refused .tooLong
  else
    match (parts path).getLast? with
    | none => .refused .isDirectory
    | some name =>
      match (parts path).dropLast.foldlM t.enter (t.origin path) with
      | .error fault => .refused fault
      | .ok place =>
        -- Nothing is looked up any more for a path that can only mean a directory.
        if isStep name ∨ Text.endsWith "/" path then .refused .isDirectory
        else t.accessIn place name

end FileTree

end AccelMonitor
