import OperationAtlas.Error
import OperationAtlas.Host.TypeRef
import OperationAtlas.Text.Alphanumeric
import OperationAtlas.Text.Blank

/-!
# Reading type references

`TypeRef.parse?` reads the spellings of a reference. A name may follow a qualifying path, of which
only the last segment counts; blanks may stand around names, brackets and commas; the parameters of
a container may end in one extra comma; and a wrapper around one reference means that reference. The
reader goes one bracket level down at a time, so the number of levels it may still open bounds its
recursion, and a text has at most as many levels as characters.
-/

namespace OperationAtlas.TypeRef

open Text

/-- A character of a qualified path. -/
def isPathChar (c : Char) : Bool :=
  isNameChar c || c == '.' || c == ':'

/-- The last segment of a qualified path: what follows its last `.` or `:`. -/
def lastSegment (path : List Char) : List Char :=
  (path.reverse.takeWhile fun c => !(c == '.' || c == ':')).reverse

/-- The text after leading blanks and the character `c`, if that character comes first. -/
def afterChar? (c : Char) (cs : List Char) : Option (List Char) :=
  match trimLeft cs with
  | d :: rest => if d = c then some rest else none
  | [] => none

/-- The reference that a name with parameters means. -/
def ofName? (name : String) (parameters : List TypeRef) : Option TypeRef :=
  if containers.contains name then some (.list name parameters)
  else if wrappers.contains name then
    match parameters with
    | [inner] => some inner
    | _ => none
  else if parameters.isEmpty then some (.plain name)
  else none

/-- Reads the parameters of a list up to its closing bracket, given a reader of one reference. The
number bounds how many of them are read; a reference has at least one character, so the number of
characters is enough. -/
def readParameters (readOne : List Char → Option (TypeRef × List Char)) :
    Nat → List Char → Option (List TypeRef × List Char)
  | 0, _ => none
  | n + 1, cs =>
    match afterChar? '>' cs with
    | some rest => some ([], rest)
    | none => do
      let (parameter, rest) ← readOne cs
      match afterChar? ',' rest with
      | some rest => do
        let (parameters, rest) ← readParameters readOne n rest
        some (parameter :: parameters, rest)
      | none => do
        let rest ← afterChar? '>' rest
        some ([parameter], rest)

/-- Reads one reference that opens at most the given number of bracket levels, and returns the text
after it. -/
def read? : Nat → List Char → Option (TypeRef × List Char)
  | levels, cs =>
    let cs := trimLeft cs
    let name := lastSegment (cs.takeWhile isPathChar)
    let rest := cs.dropWhile isPathChar
    if name.isEmpty then none
    else match afterChar? '<' rest with
      | none => (ofName? (String.ofList name) []).map fun ref => (ref, rest)
      | some inner =>
        match levels with
        | 0 => none
        | levels + 1 => do
          let (parameters, rest) ← readParameters (read? levels) (inner.length + 1) inner
          let ref ← ofName? (String.ofList name) parameters
          some (ref, rest)

/-- Reads a whole text as a reference. -/
def parse? (text : String) : Option TypeRef :=
  let cs := text.toList
  match read? cs.length cs with
  | some (ref, rest) => if rest.all isBlank then some ref else none
  | none => none

/-- The reference that a whole text spells. A text that spells none is named in the failure. -/
def ofText (text : String) : Except DocError TypeRef :=
  match parse? text with
  | some ref => .ok ref
  | none => .error (.invalidTypeRef text)

end OperationAtlas.TypeRef
