import OperationAtlas.Ignore

/-!
# Schema files of a project

The schema files of a project are the files below its root that a pattern selects, in the order of
their paths, name by name. The pattern is a line of an ignore file with the sense turned round: what
it matches is selected, whatever ignore files say; with `!` at its front, what it matches is left
out. Nothing is found in a directory that is left out.

The answer does not depend on the order in which the state lists its files.
-/

namespace OperationAtlas

/-- Why there are no schema files. -/
inductive SchemaFilesError
  /-- The pattern is no glob. -/
  | invalidPattern
  /-- The root is missing, or an ignore file above it has a fault. -/
  | unsearchable
  | noMatch
  deriving DecidableEq, Repr

/-- A search for schema files: the root, the pattern if there is one, and the rules of
directories. -/
structure SchemaSearch where
  root : Location
  pattern? : Option IgnoreRule
  table : RuleTable

namespace SchemaSearch

/-- What the pattern says about names below the root. A pattern that selects leaves out all other
files. -/
def chosen? (search : SchemaSearch) (names : List String) (isDirectory : Bool) : Option Verdict :=
  match search.pattern? with
  | none => none
  | some rule =>
    if rule.isMatch ("/".intercalate names) isDirectory then
      some (if rule.keeps then .ignored else .kept)
    else if rule.keeps || isDirectory then none
    else some .ignored

/-- Whether names below the root are left out. -/
def isLeftOut (search : SchemaSearch) (names : List String) (isDirectory : Bool) : Bool :=
  match search.chosen? names isDirectory with
  | some verdict => verdict = .ignored
  | none => search.table.isIgnored (search.root ++ names) isDirectory

/-- Whether the file that names below the root lead to is found. -/
def isFound (search : SchemaSearch) (names : List String) : Bool :=
  ((List.range names.length).all fun n =>
    n = 0 || !search.isLeftOut (names.take n) true) && !search.isLeftOut names false

end SchemaSearch

/-- Whether a name comes before another, or is the same: character by character. -/
def textPrecedes : List Char → List Char → Bool
  | [], _ => true
  | _ :: _, [] => false
  | c :: name, d :: other =>
    c.toNat < d.toNat || (c.toNat = d.toNat && textPrecedes name other)

/-- Whether names come before others, or are the same: name by name, and a path before those below
it. -/
def namesPrecede : List String → List String → Bool
  | [], _ => true
  | _ :: _, [] => false
  | name :: names, other :: others =>
    if name = other then namesPrecede names others else textPrecedes name.toList other.toList

namespace Files

/-- Whether an ignore file above a directory has a fault. -/
def hasFaultAbove (table : RuleTable) (directory : Location) : Bool :=
  (RuleTable.directoriesAbove directory).any fun above => (table.rulesOf above).hasFault

/-- The schema files below a root, each with its path and location. The root `-` stands for a
stream, below which nothing is found; a root that is a file is the one file that is found. -/
def schemaFiles (files : Files) (working : Location) (root pattern : String) :
    Except SchemaFilesError (List (String × Location)) := do
  let pattern? ← match IgnoreRule.readLine false pattern.toList with
    | .rule rule => .ok (some rule)
    | .nothing => .ok none
    | .malformed => .error .invalidPattern
  if root = "-" then throw .noMatch
  match files.locate? working root with
  | none => .error .unsearchable
  | some location =>
    if files.isFile location then return [(root, location)]
    if !files.isDirectory location then throw .unsearchable
    let table := files.ruleTable working
    if hasFaultAbove table location then throw .unsearchable
    let found := (files.namesOfFilesBelow location).filter
      (SchemaSearch.isFound ⟨location, pattern?, table⟩)
    if found.isEmpty then throw .noMatch
    return (found.mergeSort namesPrecede).map fun names =>
      (join root ("/".intercalate names), location ++ names)

end Files

end OperationAtlas
