import OperationAtlas.Json.Number
import OperationAtlas.Json.Quoted
import OperationAtlas.OrderedMap

/-!
# JSON texts that may break off

A reader that decodes a text while it reads meets the faults of the text in document order: a wrong
type early in the text comes before a missing bracket at its end. A draft keeps that order. It is
the tree of a text up to its first fault of form: the fault stands in the tree as `broken`, or as an
array or object that does not end. `Draft.read` is total; `toJson?` is the value of a draft without
faults.

Two leaves are faulty only for a reader that looks at them: a number beyond the range of doubles,
and a string with half of a surrogate pair. Both are kept as leaves without a value.
-/

namespace OperationAtlas

/-- A JSON text up to its first fault. -/
inductive Draft
  | null
  | bool (value : Bool)
  | number (value : Option JsonNumber)
  | string (value : Option String)
  /-- The items, and whether the closing bracket follows them. -/
  | array (items : List Draft) (closed : Bool)
  /-- The members, and whether the closing brace follows them. -/
  | object (members : List (Option String × Draft)) (closed : Bool)
  | broken
  deriving Repr

namespace Draft

/-- Whether reading can go on behind a draft. -/
def isComplete : Draft → Bool
  | array _ closed => closed
  | object _ closed => closed
  | broken => false
  | _ => true

/-- A text without leading blanks. -/
def skipSpace (cs : List Char) : List Char :=
  cs.dropWhile JsonNumber.isSpace

/-- The rest of a text that starts with a given word. -/
def afterWord? (word : List Char) (cs : List Char) : Option (List Char) :=
  if cs.take word.length = word then some (cs.drop word.length) else none

/-- The string behind an opening quotation mark, and the text after it. -/
def readString? (cs : List Char) : Option (Option String × List Char) :=
  (Quoted.pieces? cs).map fun (pieces, rest) => ((Quoted.text? pieces).map String.ofList, rest)

/-- Reads the items of an array from the first one on. The number bounds how many are read. -/
def readItems (readOne : List Char → Draft × List Char) :
    Nat → List Char → List Draft × Bool × List Char
  | 0, _ => ([], false, [])
  | n + 1, cs =>
    let (item, rest) := readOne cs
    if !item.isComplete then ([item], false, [])
    else match skipSpace rest with
      | ',' :: rest =>
        let (items, closed, rest) := readItems readOne n rest
        (item :: items, closed, rest)
      | ']' :: rest => ([item], true, rest)
      | _ => ([item], false, [])

/-- Reads the members of an object from the first one on. The number bounds how many are read. -/
def readMembers (readOne : List Char → Draft × List Char) :
    Nat → List Char → List (Option String × Draft) × Bool × List Char
  | 0, _ => ([], false, [])
  | n + 1, cs =>
    match skipSpace cs with
    | '"' :: rest =>
      match readString? rest with
      | none => ([], false, [])
      | some (key, rest) =>
        match skipSpace rest with
        | ':' :: rest =>
          let (value, rest) := readOne rest
          if !value.isComplete then ([(key, value)], false, [])
          else match skipSpace rest with
            | ',' :: rest =>
              let (members, closed, rest) := readMembers readOne n rest
              ((key, value) :: members, closed, rest)
            | '\x7d' :: rest => ([(key, value)], true, rest)
            | _ => ([(key, value)], false, [])
        | _ => ([(key, broken)], false, [])
    | _ => ([], false, [])

/-- Reads a value that opens at most the given number of bracket levels. -/
def readValue : Nat → List Char → Draft × List Char
  | levels, cs =>
    match skipSpace cs with
    | '"' :: rest =>
      match readString? rest with
      | some (text, rest) => (string text, rest)
      | none => (broken, [])
    | '[' :: rest =>
      match levels with
      | 0 => (broken, [])
      | levels + 1 =>
        match skipSpace rest with
        | ']' :: rest => (array [] true, rest)
        | _ =>
          let (items, closed, rest) := readItems (readValue levels) rest.length rest
          (array items closed, rest)
    | '\x7b' :: rest =>
      match levels with
      | 0 => (broken, [])
      | levels + 1 =>
        match skipSpace rest with
        | '\x7d' :: rest => (object [] true, rest)
        | _ =>
          let (members, closed, rest) := readMembers (readValue levels) rest.length rest
          (object members closed, rest)
    | cs =>
      match afterWord? ['n', 'u', 'l', 'l'] cs with
      | some rest => (null, rest)
      | none =>
        match afterWord? ['t', 'r', 'u', 'e'] cs with
        | some rest => (bool true, rest)
        | none =>
          match afterWord? ['f', 'a', 'l', 's', 'e'] cs with
          | some rest => (bool false, rest)
          | none =>
            match JsonNumber.read? cs with
            | some (value, rest) => (number value, rest)
            | none => (broken, [])

/-- The draft at the start of a text, and whether only blanks follow it. -/
def read (text : String) : Draft × Bool :=
  let cs := text.toList
  let (draft, rest) := readValue cs.length cs
  (draft, rest.all JsonNumber.isSpace)

mutual

/-- The value of a draft without faults. A repeated
key keeps its first place and takes its last value. -/
def toJson? : Draft → Option Json
  | null => some .null
  | bool value => some (.bool value)
  | number value => value.map .number
  | string value => value.map .string
  | array items true => (itemsToJson? items).map .array
  | object members true => (membersToJson? members).map fun pairs =>
    .object (OrderedMap.ofPairs pairs)
  | array _ false | object _ false | broken => none

/-- The values of several drafts. -/
def itemsToJson? : List Draft → Option (List Json)
  | [] => some []
  | item :: items => do
    let value ← toJson? item
    let values ← itemsToJson? items
    some (value :: values)

/-- The values of members. -/
def membersToJson? : List (Option String × Draft) → Option (List (String × Json))
  | [] => some []
  | (key, item) :: members => do
    let key ← key
    let value ← toJson? item
    let values ← membersToJson? members
    some ((key, value) :: values)

end

mutual

/-- The draft of a value. -/
def ofJson : Json → Draft
  | .null => null
  | .bool value => bool value
  | .number value => number (some value)
  | .string value => string (some value)
  | .array items => array (ofItems items) true
  | .object members => object (ofMembers members) true

/-- The drafts of several values. -/
def ofItems : List Json → List Draft
  | [] => []
  | item :: items => ofJson item :: ofItems items

/-- The drafts of members. -/
def ofMembers : List (String × Json) → List (Option String × Draft)
  | [] => []
  | (key, value) :: members => (some key, ofJson value) :: ofMembers members

end

end Draft

/-- The value that a text writes. -/
def Json.parse? (text : String) : Option Json :=
  match Draft.read text with
  | (draft, true) => draft.toJson?
  | _ => none

end OperationAtlas
