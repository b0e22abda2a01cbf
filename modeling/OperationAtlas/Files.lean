import OperationAtlas.Text.Blank

/-!
# Files

A state of a file system is a list of files and directories at distinct locations below one top
directory. Every directory above a file is there, listed or not. The order of the list carries no
meaning: all that is asked of a state is what stands at a location and what stands below it.

A path is a text that is followed from a working directory, piece by piece; each piece but the last
must lead to a directory.
-/

namespace OperationAtlas

/-- The names that lead from the top directory to a file or directory. -/
abbrev Location := List String

/-- A state of a file system: the bytes of each file, and nothing for a directory. -/
structure Files where
  entries : List (Location × Option ByteArray) := []

namespace Files

/-- The names that lead from a directory to a location below it. -/
def namesBelow? : Location → Location → Option (List String)
  | [], location => some location
  | _ :: _, [] => none
  | d :: directory, n :: location => if d = n then namesBelow? directory location else none

/-- The bytes of the file at a location. -/
def bytes? (files : Files) (location : Location) : Option ByteArray :=
  (files.entries.find? fun (at_, content) => at_ = location ∧ content.isSome).bind (·.2)

/-- Whether a file is at a location. -/
def isFile (files : Files) (location : Location) : Bool :=
  (files.bytes? location).isSome

/-- Whether a directory is at a location. -/
def isDirectory (files : Files) (location : Location) : Bool :=
  location.isEmpty || files.entries.any fun (at_, content) =>
    match namesBelow? location at_ with
    | some [] => content.isNone
    | some _ => true
    | none => false

/-- Whether anything is at a location. -/
def hasEntry (files : Files) (location : Location) : Bool :=
  files.isFile location || files.isDirectory location

/-- The text of the file at a location, if its bytes are UTF-8. -/
def text? (files : Files) (location : Location) : Option String :=
  (files.bytes? location).bind String.fromUTF8?

/-- The names that lead from a directory to each file below it. -/
def namesOfFilesBelow (files : Files) (directory : Location) : List (List String) :=
  files.entries.filterMap fun (at_, content) =>
    match namesBelow? directory at_, content with
    | some (name :: names), some _ => some (name :: names)
    | _, _ => none

/-- The files with new bytes at a location. -/
def write (files : Files) (location : Location) (content : ByteArray) : Files :=
  ⟨(location, some content) :: files.entries.filter (·.1 ≠ location)⟩

/-- The pieces of a path. -/
def pieces (path : String) : List String :=
  (Text.splitAt '/' path.toList).map String.ofList

/-- Follows pieces of a path. Whether the last one leads to anything is not asked. -/
def follow? (files : Files) : Location → List String → Option Location
  | here, [] => some here
  | here, piece :: more =>
    if !files.isDirectory here then none
    else if piece = "" ∨ piece = "." then follow? files here more
    else if piece = ".." then follow? files here.dropLast more
    else follow? files (here ++ [piece]) more

/-- The location that a path leads to from a working directory. The empty path leads nowhere, nor
does one with a null character. -/
def locate? (files : Files) (working : Location) (path : String) : Option Location :=
  if path = "" ∨ path.toList.contains '\x00' then none
  else files.follow? (if path.toList.head? = some '/' then [] else working) (pieces path)

/-- The path of what a relative path leads to from a directory. An absolute path stands for
itself. -/
def join (directory path : String) : String :=
  if directory = "" ∨ path.toList.head? = some '/' then path
  else if directory.toList.getLast? = some '/' then directory ++ path
  else directory ++ "/" ++ path

end Files

end OperationAtlas
