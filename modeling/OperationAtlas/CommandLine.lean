import OperationAtlas.Project

/-!
# The command line

`CommandLine.parse` reads arguments one after the other, and the first one that decides does so: a
request for help or for the version, or an argument that is wrong. Each option may be given once,
with its value behind an equals sign, behind its letter, or as the next argument; a next argument
that starts with a hyphen is no value unless it is only that.

`CommandLine.run` is the whole program as a function: its exit code, what it prints and which file
it writes. A page is made before anything is written, and nothing is made or written if the settings
do not enable it. What can be written is up to the system (`Limits`): it may refuse to open the file
for the page, and the file or the standard output may take the first bytes of the page only. A file
is emptied when it is opened, so what it held is lost then, and a run that breaks off leaves behind
what was taken.
-/

namespace OperationAtlas

/-- An option with a value. -/
inductive Setting
  | config
  | root
  | output
  | logFilter
  deriving DecidableEq, Repr

namespace Setting

/-- The option of a long name. -/
def ofName? : String → Option Setting
  | "config" => some config
  | "root" => some root
  | "output" => some output
  | "log-filter" => some logFilter
  | _ => none

/-- The option of a letter. -/
def ofLetter? : Char → Option Setting
  | 'c' => some config
  | 'r' => some root
  | 'o' => some output
  | _ => none

end Setting

/-- The values of options. -/
structure Arguments where
  /-- The file of the settings. Defaults apply if it does not exist. -/
  config : Option String := none
  /-- The directory that schema files are searched in, and that the host model is relative to. -/
  root : Option String := none
  /-- The file that the page is written to instead of the standard output. -/
  output : Option String := none
  /-- The filter of the events that are logged. Events are left out here. -/
  logFilter : Option String := none
  deriving DecidableEq, Repr

namespace Arguments

/-- The value of an option. -/
def get (arguments : Arguments) : Setting → Option String
  | .config => arguments.config
  | .root => arguments.root
  | .output => arguments.output
  | .logFilter => arguments.logFilter

/-- Sets an option that is not set. A path has a value that is not empty. -/
def set? (arguments : Arguments) (setting : Setting) (value : String) : Option Arguments :=
  if (arguments.get setting).isSome then none
  else match setting with
    | .logFilter => some { arguments with logFilter := some value }
    | .config => if value = "" then none else some { arguments with config := some value }
    | .root => if value = "" then none else some { arguments with root := some value }
    | .output => if value = "" then none else some { arguments with output := some value }

end Arguments

/-- What arguments ask for. -/
inductive CommandLine
  | generate (arguments : Arguments)
  | help
  | version
  /-- The arguments are wrong. -/
  | misuse
  deriving DecidableEq, Repr

/-- How many bytes can be written: so many, or all that there are. -/
abbrev Limit := Option Nat

namespace Limit

/-- Whether all of the bytes can be written. -/
def admits (limit : Limit) (content : ByteArray) : Bool :=
  limit.all (content.size ≤ ·)

/-- The bytes that are written: the first ones, up to the limit. -/
def cut (limit : Limit) (content : ByteArray) : ByteArray :=
  match limit with
  | none => content
  | some size => content.extract 0 size

end Limit

/-- What the system lets the program write. -/
structure Limits where
  /-- Whether the file for the page can be opened. -/
  opens : Bool := true
  /-- How much the opened file takes. -/
  file : Limit := none
  /-- How much the standard output takes. -/
  output : Limit := none
  deriving DecidableEq, Repr

/-- What the program does: its exit code, what it prints, and the file that it opens with the bytes
that the file holds then. -/
structure Outcome where
  exitCode : Nat
  printed : ByteArray := .empty
  errors : String := ""
  written : Option (Location × ByteArray) := none

namespace Outcome

/-- The text on the standard output; nothing if the bytes end inside a character. -/
def output (outcome : Outcome) : String :=
  (String.fromUTF8? outcome.printed).getD ""

/-- The files after the program. -/
def filesAfter (outcome : Outcome) (files : Files) : Files :=
  match outcome.written with
  | none => files
  | some (location, content) => files.write location content

/-- A run that ends with an error. -/
def failed (error : ProjectError) : Outcome where
  exitCode := 1
  errors := "Error: " ++ error.message ++ "\n"

end Outcome

namespace CommandLine

/-- An argument. -/
inductive Word
  /-- An option with its value, if that is attached. -/
  | sets (setting : Setting) (value : Option String)
  | help
  | version
  /-- Two hyphens, behind which no options stand. -/
  | endOfOptions
  | other

/-- The value behind an equals sign, and the text before it. -/
def splitValue (cs : List Char) : String × Option String :=
  (String.ofList (cs.takeWhile (· ≠ '=')),
    match cs.dropWhile (· ≠ '=') with
    | [] => none
    | _ :: value => some (String.ofList value))

/-- Reads an argument. -/
def Word.ofArgument (argument : String) : Word :=
  match argument.toList with
  | ['-', '-'] => .endOfOptions
  | '-' :: '-' :: cs =>
    match splitValue cs with
    | ("help", none) => .help
    | ("version", none) => .version
    | (name, value) =>
      match Setting.ofName? name with
      | some setting => .sets setting value
      | none => .other
  | '-' :: 'h' :: _ => .help
  | '-' :: 'V' :: _ => .version
  | '-' :: letter :: cs =>
    match Setting.ofLetter? letter with
    | none => .other
    | some setting =>
      .sets setting <|
        match cs with
        | [] => none
        | '=' :: value => some (String.ofList value)
        | value => some (String.ofList value)
  | _ => .other

/-- Whether the argument behind an option is its value. -/
def isValue (argument : String) : Bool :=
  match argument.toList with
  | '-' :: _ :: _ => false
  | _ => true

/-- Reads arguments behind those that have been read. -/
def parseFrom (arguments : Arguments) : List String → CommandLine
  | [] => .generate arguments
  | word :: words =>
    match Word.ofArgument word with
    | .help => .help
    | .version => .version
    | .other => .misuse
    | .endOfOptions => if words.isEmpty then .generate arguments else .misuse
    | .sets setting (some value) =>
      match arguments.set? setting value with
      | some arguments => parseFrom arguments words
      | none => .misuse
    | .sets setting none =>
      match words with
      | [] => .misuse
      | value :: words =>
        match (if isValue value then arguments.set? setting value else none) with
        | some arguments => parseFrom arguments words
        | none => .misuse

/-- What arguments ask for. -/
def parse : List String → CommandLine := parseFrom {}

/-- The text that tells how to use the program, with each option in one line, however long. -/
def usage : String :=
  "\n".intercalate [
    "Generates example requests, responses and a type catalog for the operations of a GraphQL " ++
      "schema",
    "",
    "Usage: graphql-doc [OPTIONS]",
    "",
    "Options:",
    "  -c, --config <CONFIG>          " ++
      "The TOML configuration file. Defaults apply if it does not exist " ++
      "[default: graphql-doc.toml]",
    "  -r, --root <ROOT>              " ++
      "The directory schema files are searched in and the host model path is relative to " ++
      "[default: .]",
    "  -o, --output <OUTPUT>          " ++
      "Write the documentation page to this file instead of stdout",
    "      --log-filter <LOG_FILTER>  " ++
      "A tracing filter such as `graphql_doc=debug`. Falls back to `RUST_LOG`",
    "  -h, --help                     Print help",
    "  -V, --version                  Print version",
    ""]

/-- The settings of a run: those in the file if there is one, and else the defaults. -/
def configOf (files : Files) (working : Location) (arguments : Arguments) :
    Except ProjectError Config :=
  let path := arguments.config.getD "graphql-doc.toml"
  if ((files.locate? working path).map files.isFile).getD false then
    Project.loadConfig files working path
  else .ok {}

/-- The page that arguments ask for, if the settings enable one. -/
def pageFor (files : Files) (working : Location) (arguments : Arguments) :
    Except ProjectError (Option String) := do
  let config ← configOf files working arguments
  if !config.enabled then return none
  let page ← Project.page ⟨files, working, arguments.root.getD ".", config⟩
  return some page

/-- Prints a page and a line feed. A print that breaks off ends the program at once, with an exit
code of its own; what the system says about it is left out. -/
def printPage (limits : Limits) (page : String) : Outcome :=
  let content := (page ++ "\n").toUTF8
  let printed := limits.output.cut content
  if limits.output.admits content then { exitCode := 0, printed }
  else { exitCode := 101, printed, errors := "failed printing to stdout\n" }

/-- Where a page may be written: at a location in a directory that is no directory itself. -/
def writable? (files : Files) (working : Location) (path : String) : Option Location :=
  (files.locate? working path).filter fun location => !files.isDirectory location

/-- Writes a page to the file that a path leads to. To open the file empties it; then it takes the
page as far as there is room. -/
def writePage (files : Files) (working : Location) (limits : Limits) (path page : String) :
    Outcome :=
  match writable? files working path with
  | none => .failed (.unwritable path)
  | some location =>
    if !limits.opens then .failed (.unwritable path)
    else
      let content := page.toUTF8
      let written := some (location, limits.file.cut content)
      if limits.file.admits content then { exitCode := 0, written }
      else { Outcome.failed (.unwritable path) with written }

/-- Puts a page where it belongs: into the file of the path, if there is one. -/
def deliver (files : Files) (working : Location) (limits : Limits) (page : String) :
    Option String → Outcome
  | none => printPage limits page
  | some path => writePage files working limits path page

/-- What the program does in a state of the file system, within the limits of the system. It is no
failure if the help or the version is cut off. -/
def run (files : Files) (working : Location) (words : List String) (limits : Limits := {}) :
    Outcome :=
  match parse words with
  | .help => { exitCode := 0, printed := limits.output.cut usage.toUTF8 }
  | .version => { exitCode := 0, printed := limits.output.cut "graphql-doc 0.1.0\n".toUTF8 }
  | .misuse => { exitCode := 2, errors := "error: the arguments are wrong, see '--help'\n" }
  | .generate arguments =>
    match pageFor files working arguments with
    | .error error => .failed error
    | .ok none => { exitCode := 0 }
    | .ok (some page) => deliver files working limits page arguments.output

end CommandLine

end OperationAtlas
