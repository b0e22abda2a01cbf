import OperationAtlas.Graphql.Reader

/-!
# Values in GraphQL texts

A value is what an argument is given. The fields of an object are kept in the order of their names;
of a repeated name the last value counts. A constant holds no variables.
-/

namespace OperationAtlas.Graphql

/-- A value. -/
inductive Value
  | var (name : String)
  | int (value : Int)
  | float (value : Binary64)
  | string (text : String)
  | boolean (value : Bool)
  | null
  | enum (name : String)
  | list (items : List Value)
  | object (fields : List (String × Value))
  deriving Repr

namespace Value

/-- Sets a field of an object whose fields are ordered by name. -/
def setField (name : String) (value : Value) : List (String × Value) → List (String × Value)
  | [] => [(name, value)]
  | (n, v) :: fields =>
    if name = n then (name, value) :: fields
    else if name < n then (name, value) :: (n, v) :: fields
    else (n, v) :: setField name value fields

/-- The object with the given fields, written one after the other. -/
def ofFields (fields : List (String × Value)) : Value :=
  .object (fields.foldl (fun done (name, value) => setField name value done) [])

/-- The value that a word means. -/
def ofWord (word : String) : Value :=
  if word = "true" then .boolean true
  else if word = "false" then .boolean false
  else if word = "null" then .null
  else .enum word

/-- Whether a value starts with a lexeme. -/
def startsWith (constant : Bool) : Lexeme → Bool
  | .name _ | .int _ | .float _ | .text _ => true
  | .punct c => c == '[' || c == '\x7b' || (c == '$' && !constant)
  | _ => false

/-- Reads one field of an object, given a reader of values. -/
def readField (readOne : Reader Value) : Reader (String × Value) := fun ls => do
  let (name, ls) ← Reader.name ls
  let ((), ls) ← Reader.punct ':' ls
  let (value, ls) ← readOne ls
  .ok ((name, value), ls)

/-- Reads a value that opens at most so many bracket levels. -/
def read (constant : Bool) : Nat → Reader Value
  | _, .name word :: ls => .ok (ofWord word, ls)
  | _, .int value :: ls => .ok (.int value, ls)
  | _, .float value :: ls => .ok (.float value, ls)
  | _, .text text :: ls => .ok (.string text, ls)
  | _, .punct '$' :: ls =>
    if constant then Reader.stop (.punct '$' :: ls)
    else do
      let (name, ls) ← Reader.name ls
      .ok (.var name, ls)
  | levels + 1, .punct '[' :: ls => do
    let (items, ls) ← Reader.many (startsWith constant) (read constant levels) ls
    let ((), ls) ← Reader.punct ']' ls
    .ok (.list items, ls)
  | levels + 1, .punct '\x7b' :: ls => do
    let (fields, ls) ← Reader.many Reader.isName (readField (read constant levels)) ls
    let ((), ls) ← Reader.punct '\x7d' ls
    .ok (ofFields fields, ls)
  | _, ls => Reader.stop ls

end Value

/-- Reads arguments in parentheses; there may be none without parentheses. -/
def readArguments (constant : Bool) (levels : Nat) : Reader (List (String × Value)) := fun ls => do
  let argument := fun levels => Value.readField (Value.read constant levels)
  let inner := fun levels => Reader.many1 Reader.isName (argument levels)
  let (arguments, ls) ←
    Reader.optional (Reader.isPunct '(') (Reader.between '(' ')' levels inner) ls
  .ok (arguments.getD [], ls)

/-- A directive with its arguments. -/
structure Directive where
  name : String
  arguments : List (String × Value)
  deriving Repr

/-- Reads directives. -/
def readDirectives (levels : Nat) : Reader (List Directive) :=
  Reader.many (Reader.isPunct '@') fun ls => do
    let ((), ls) ← Reader.punct '@' ls
    let (name, ls) ← Reader.name ls
    let (arguments, ls) ← readArguments false levels ls
    .ok (⟨name, arguments⟩, ls)

end OperationAtlas.Graphql
