import OperationAtlas.Files
import OperationAtlas.Glob.Reader

/-!
# Ignore rules

A line of an ignore file is a glob for what lies below the directory of the file. A slash anywhere
but at its end ties it to that directory; without one it is found at any depth. A slash at the end
restricts it to directories, `!` at the front makes it keep what rules before it ignore, `#` opens a
comment, and a backslash takes either mark as it is. Of the rules that match a path the last one
counts.

Rules stand in files named `.ignore` and, within a repository, `.gitignore` and `.git/info/exclude`.
Of each kind the nearest file with a rule for a path decides; `.ignore` goes before `.gitignore`,
and that before the exclusions. `RuleTable.isIgnored` is the decision for one location;
`Files.ruleTable` holds the rules of every directory that has some.
-/

namespace OperationAtlas

/-- A line of an ignore file. -/
structure IgnoreRule where
  glob : Glob
  /-- Whether what matches is kept. -/
  keeps : Bool
  directoriesOnly : Bool

/-- What becomes of a path. -/
inductive Verdict
  | ignored
  | kept
  deriving DecidableEq, Repr

namespace IgnoreRule

/-- Whether a rule is about a path below the directory of its file. -/
def isMatch (rule : IgnoreRule) (path : String) (isDirectory : Bool) : Bool :=
  (!rule.directoriesOnly || isDirectory) && rule.glob.isMatch path

/-- What rules say about a path. -/
def verdict? (rules : List IgnoreRule) (path : String) (isDirectory : Bool) : Option Verdict :=
  (rules.reverse.find? fun rule => rule.isMatch path isDirectory).map fun rule =>
    if rule.keeps then .kept else .ignored

/-- What a line reads as. -/
inductive Line
  | rule (rule : IgnoreRule)
  /-- A comment or an empty line. -/
  | nothing
  | malformed

/-- The marks at the front of a line: whether it keeps, whether it is tied to the directory, and the
rest. -/
def marks : List Char → Bool × Bool × List Char
  | '\\' :: '!' :: rest => (false, false, '!' :: rest)
  | '\\' :: '#' :: rest => (false, false, '#' :: rest)
  | '!' :: '/' :: rest => (true, true, rest)
  | '!' :: rest => (true, false, rest)
  | '/' :: rest => (false, true, rest)
  | rest => (false, false, rest)

/-- A text without a character at its end, if that is the one. -/
def dropEnd? (c : Char) (text : List Char) : Option (List Char) :=
  if text.getLast? = some c then some text.dropLast else none

/-- The text of the glob of a line behind its marks. -/
def globText (tied : Bool) (text : List Char) : List Char :=
  let text :=
    if tied ∨ text.contains '/' ∨ text = ['*', '*'] then text else '*' :: '*' :: '/' :: text
  if ['/', '*', '*'].isSuffixOf text then text ++ ['/', '*'] else text

/-- Reads a line. Blanks at its end do not count, unless a backslash takes the last one as it is. A
bracket that opens no class stands for itself if `lenient`. -/
def readLine (lenient : Bool) (line : List Char) : Line :=
  let line := if ['\\', ' '].isSuffixOf line then line else Text.trimRight line
  if line.isEmpty ∨ line.head? = some '#' then .nothing
  else
    let (keeps, tied, text) := marks line
    let (directoriesOnly, text) := match dropEnd? '/' text with
      | some text => (true, (dropEnd? '\\' text).getD text)
      | none => (false, text)
    match Glob.parse? lenient (globText tied text) with
    | some glob => .rule ⟨glob, keeps, directoriesOnly⟩
    | none => .malformed

end IgnoreRule

/-- The rules of a file. -/
structure RuleFile where
  rules : List IgnoreRule := []
  /-- Whether a line is no rule. -/
  malformed : Bool := false

namespace RuleFile

/-- The rules of lines. -/
def ofLines : List (List Char) → RuleFile
  | [] => {}
  | line :: lines =>
    let file := ofLines lines
    match IgnoreRule.readLine true line with
    | .rule rule => { file with rules := rule :: file.rules }
    | .nothing => file
    | .malformed => { file with malformed := true }

/-- The rules of the lines up to the first one that is not UTF-8. A byte-order mark at the front
does not count. -/
def ofBytes (content : ByteArray) : RuleFile :=
  let texts := (Text.linesOfBytes content).takeWhile Option.isSome
  let lines := texts.map fun text => (text.getD "").toList
  ofLines <| match lines with
    | [] => []
    | line :: lines => line.dropWhile (· == '\uFEFF') :: lines

end RuleFile

/-- The rules that a directory sets. -/
structure DirectoryRules where
  ignore : RuleFile := {}
  gitIgnore : RuleFile := {}
  gitExclude : RuleFile := {}
  /-- Whether the directory is the top of a repository. -/
  isRepository : Bool := false
  /-- Whether it refers to a repository by a line that is not UTF-8. -/
  isUnreadable : Bool := false

/-- Whether a line of the rules is no rule. -/
def DirectoryRules.hasFault (rules : DirectoryRules) : Bool :=
  rules.ignore.malformed || rules.gitIgnore.malformed || rules.gitExclude.malformed ||
    rules.isUnreadable

namespace Files

/-- The rules of the file at a location; none if there is no file. -/
def ruleFile (files : Files) (location : Location) : RuleFile :=
  ((files.bytes? location).map RuleFile.ofBytes).getD {}

/-- The first line of a file. -/
inductive FirstLine
  | line (text : String)
  | missing
  | unreadable

/-- The first line of the file at a location. -/
def firstLine (files : Files) (location : Location) : FirstLine :=
  match (files.bytes? location).map Text.linesOfBytes with
  | some (some text :: _) => .line text
  | some (none :: _) => .unreadable
  | some [] | none => .missing

/-- The text behind another one at its front. -/
def behind? (front : List Char) (text : String) : Option String :=
  if front.isPrefixOf text.toList then some (String.ofList (text.toList.drop front.length))
  else none

/-- The exclusions of the repository at a directory. A file in place of the repository's own
directory names another one, whose file `commondir` names the one that holds the exclusions. -/
def gitExclude (files : Files) (working directory : Location) : Option RuleFile :=
  let git := directory ++ [".git"]
  let ofPath := fun (path : String) =>
    ((files.locate? working (join path "info/exclude")).map files.ruleFile).getD {}
  if files.isFile git then
    match files.firstLine git with
    | .unreadable => none
    | .missing => some {}
    | .line text =>
      match behind? ['g', 'i', 't', 'd', 'i', 'r', ':', ' '] text with
      | none => some {}
      | some path =>
        match (files.locate? working (join path "commondir")).map files.firstLine with
        | none | some .missing => some {}
        | some .unreadable => none
        | some (.line common) =>
          some (ofPath (if common.toList.head? = some '.' then join path common else common))
  else some (files.ruleFile (git ++ ["info", "exclude"]))

/-- The rules that a directory sets. -/
def directoryRules (files : Files) (working directory : Location) : DirectoryRules :=
  let gitExclude := files.gitExclude working directory
  { ignore := files.ruleFile (directory ++ [".ignore"])
    gitIgnore := files.ruleFile (directory ++ [".gitignore"])
    gitExclude := gitExclude.getD {}
    isRepository :=
      files.hasEntry (directory ++ [".git"]) || files.hasEntry (directory ++ [".jj"])
    isUnreadable := gitExclude.isNone }

/-- The names at which rules are found. -/
def ruleNames : List String := [".ignore", ".gitignore", ".git", ".jj"]

/-- The directories above a location at which rules are found. -/
def ruledAbove : Location → List Location
  | [] => []
  | name :: names =>
    (if ruleNames.contains name then [[]] else []) ++ (ruledAbove names).map (name :: ·)

end Files

/-- The rules of directories. A directory that is not listed sets none. -/
abbrev RuleTable := List (Location × DirectoryRules)

/-- The rules of all directories. -/
def Files.ruleTable (files : Files) (working : Location) : RuleTable :=
  (files.entries.flatMap fun (location, _) => Files.ruledAbove location).eraseDups.map
    fun directory => (directory, files.directoryRules working directory)

namespace RuleTable

/-- The rules of a directory. -/
def rulesOf (table : RuleTable) (directory : Location) : DirectoryRules :=
  ((table.find? (·.1 = directory)).map (·.2)).getD {}

/-- The directories above a location, the nearest one first. -/
def directoriesAbove (location : Location) : List Location :=
  (List.range location.length).reverse.map (location.take ·)

/-- The directories of a list up to the first repository; none if there is no repository. -/
def withinRepository (table : RuleTable) : List Location → List Location
  | [] => []
  | directory :: directories =>
    if (table.rulesOf directory).isRepository then [directory]
    else match withinRepository table directories with
      | [] => []
      | within => directory :: within

/-- What the nearest file of a kind with a rule for a location says. -/
def nearest? (table : RuleTable) (kind : DirectoryRules → RuleFile) (location : Location)
    (isDirectory : Bool) (directories : List Location) : Option Verdict :=
  directories.findSome? fun directory =>
    IgnoreRule.verdict? (kind (table.rulesOf directory)).rules
      ("/".intercalate (location.drop directory.length)) isDirectory

/-- Whether the rules above a location ignore it. -/
def isIgnored (table : RuleTable) (location : Location) (isDirectory : Bool) : Bool :=
  let above := directoriesAbove location
  let within := table.withinRepository above
  let verdict :=
    (table.nearest? (·.ignore) location isDirectory above).or <|
      (table.nearest? (·.gitIgnore) location isDirectory within).or <|
        table.nearest? (·.gitExclude) location isDirectory within
  verdict = some .ignored

end RuleTable

end OperationAtlas
