import OperationAtlas.CommandLine

/-!
# The program

Reads the files that the arguments lead to, and does what `CommandLine.run` says. Symbolic links
below the root are left out, and so are the exclusions of repositories that are kept elsewhere.
-/

namespace OperationAtlas.Snapshot

/-- Files and directories that have been read. -/
abbrev Entries := List (Location × Option ByteArray)

/-- A location as the system knows it. -/
def place (location : Location) : IO.FS.DirEntry :=
  ⟨"/" ++ "/".intercalate location.dropLast, location.getLast?.getD "."⟩

/-- What is at a location, without what is below it. A device is taken for an empty file. -/
def shallow (location : Location) : IO Entries := do
  let path := (place location).path
  if ← path.isDir then return [(location, none)]
  if !(← path.pathExists) then return []
  match (← path.metadata).type with
  | .file => return [(location, some (← IO.FS.readBinFile path))]
  | _ => return [(location, some .empty)]

/-- What is at a location, with everything below it. -/
partial def deep (location : Location) : IO Entries := do
  let path := (place location).path
  match (← path.symlinkMetadata).type with
  | .dir =>
    let below ← (← path.readDir).toList.mapM fun entry => deep (location ++ [entry.fileName])
    return (location, none) :: below.flatten
  | .file => return [(location, some (← IO.FS.readBinFile path))]
  | _ => return []

/-- What the pieces of a path lead through, and what they lead to. -/
def along : Location → List String → IO Entries
  | here, [] => shallow here
  | here, piece :: pieces => do
    let passed ← shallow here
    let there :=
      if piece = "" ∨ piece = "." then here
      else if piece = ".." then here.dropLast
      else here ++ [piece]
    return passed ++ (← along there pieces)

/-- What a path leads through, and what it leads to. -/
def ofPath (working : Location) (path : String) : IO Entries :=
  along (if path.toList.head? = some '/' then [] else working) (Files.pieces path)

/-- The rules of the directories above a location. -/
def rulesAbove (location : Location) : IO Entries := do
  let found ← (RuleTable.directoriesAbove location).mapM fun directory => do
    let names := Files.ruleNames.map ([·]) ++ [[".git", "info", "exclude"]]
    let entries ← names.mapM fun names => shallow (directory ++ names)
    return entries.flatten
  return found.flatten

/-- What a project consists of. -/
def ofProject (working : Location) (root hostModel : String) : IO Entries := do
  let passed ← ofPath working root
  let below ← match Files.locate? ⟨passed⟩ working root with
    | none => pure []
    | some location => do
      if Files.hasEntry ⟨passed⟩ location then
        return (← deep location) ++ (← rulesAbove location)
      return []
  return passed ++ below ++ (← ofPath working (Files.join root hostModel))

/-- The files that arguments lead to. -/
def ofArguments (working : Location) (arguments : Arguments) : IO Files := do
  let config ← ofPath working (arguments.config.getD "graphql-doc.toml")
  match CommandLine.configOf ⟨config⟩ working arguments with
  | .error _ => return ⟨config⟩
  | .ok settings =>
    let project ← ofProject working (arguments.root.getD ".") settings.hostModel
    let output ← match arguments.output with
      | none => pure []
      | some path => ofPath working path
    return ⟨config ++ project ++ output⟩

/-- The files that matter for what arguments ask for. -/
def take (working : Location) : CommandLine → IO Files
  | .generate arguments => ofArguments working arguments
  | _ => return {}

end OperationAtlas.Snapshot

open OperationAtlas in
/-- Runs the program in the current directory. What cannot be written is told as `CommandLine.run`
tells it. -/
def main (words : List String) : IO UInt32 := do
  let working : Location := (← IO.currentDir).components.filter (· ≠ "")
  let files ← Snapshot.take working (CommandLine.parse words)
  let finish (outcome : Outcome) : IO UInt32 := do
    IO.eprint outcome.errors
    return outcome.exitCode.toUInt32
  let outcome := CommandLine.run files working words
  -- bytes may be held back, so that only a flush shows whether they are taken
  try
    let stdout ← IO.getStdout
    stdout.putStr outcome.output
    stdout.flush
  catch _ => return ← finish (CommandLine.run files working words { output := some 0 })
  if let some (location, content) := outcome.written then
    try
      let file ← IO.FS.Handle.mk (Snapshot.place location).path .write
      file.write content
      file.flush
    catch _ => return ← finish (CommandLine.run files working words { opens := false })
  finish outcome
