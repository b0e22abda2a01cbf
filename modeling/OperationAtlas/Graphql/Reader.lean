import OperationAtlas.Graphql.Lexeme

/-!
# Reading lexemes

A reader takes lexemes from the front of a list and returns a result and the lexemes behind it.
Every rule of the grammar is decided by its first lexeme. A reader that cannot go on says how many
lexemes are left, the one in question included; that number fixes the position of the fault.

Brackets nest at most fifty levels. A reader that opens brackets is given the number of levels that
may still be opened, and stops at a bracket beyond them.
-/

namespace OperationAtlas.Graphql

/-- A reader of lexemes. -/
abbrev Reader (α : Type) := List Lexeme → Except Nat (α × List Lexeme)

namespace Reader

/-- The number of bracket levels of a text. -/
def maxLevels : Nat := 50

/-- Stops before the first lexeme. -/
def stop {α : Type} : Reader α := fun ls => .error ls.length

/-- Takes one given lexeme. -/
def token (lexeme : Lexeme) : Reader Unit
  | l :: ls => if l = lexeme then .ok ((), ls) else stop (l :: ls)
  | [] => stop []

/-- Takes a punctuation character. -/
def punct (c : Char) : Reader Unit := token (.punct c)

/-- Takes a given word. -/
def word (text : String) : Reader Unit := token (.name text)

/-- Takes a name. -/
def name : Reader String
  | .name text :: ls => .ok (text, ls)
  | ls => stop ls

/-- Whether the first lexeme satisfies a test. -/
def starts (test : Lexeme → Bool) : List Lexeme → Bool
  | l :: _ => test l
  | [] => false

/-- Whether a lexeme is a name. -/
def isName : Lexeme → Bool
  | .name _ => true
  | _ => false

/-- Whether a lexeme is a string. -/
def isText : Lexeme → Bool
  | .text _ => true
  | _ => false

/-- Whether a lexeme is a given punctuation character. -/
def isPunct (c : Char) (l : Lexeme) : Bool := l == .punct c

/-- Reads items for as long as one starts, at most so many. -/
def manyUpTo {α : Type} (startsItem : Lexeme → Bool) (item : Reader α) : Nat → Reader (List α)
  | 0, ls => .ok ([], ls)
  | n + 1, ls =>
    if starts startsItem ls then do
      let (first, ls) ← item ls
      let (others, ls) ← manyUpTo startsItem item n ls
      .ok (first :: others, ls)
    else .ok ([], ls)

/-- Reads items for as long as one starts. An item has at least one lexeme. -/
def many {α : Type} (startsItem : Lexeme → Bool) (item : Reader α) : Reader (List α) := fun ls =>
  manyUpTo startsItem item ls.length ls

/-- Reads one item, then items for as long as one starts. -/
def many1 {α : Type} (startsItem : Lexeme → Bool) (item : Reader α) : Reader (List α) :=
  fun ls => do
    let (first, ls) ← item ls
    let (others, ls) ← many startsItem item ls
    .ok (first :: others, ls)

/-- Reads an item if one starts. -/
def optional {α : Type} (startsItem : Lexeme → Bool) (item : Reader α) : Reader (Option α) :=
  fun ls =>
    if starts startsItem ls then do
      let (value, ls) ← item ls
      .ok (some value, ls)
    else .ok (none, ls)

/-- Reads items with a separator between them. -/
def sepBy1 {α : Type} (separator : Char) (item : Reader α) : Reader (List α) := fun ls => do
  let (first, ls) ← item ls
  let next : Reader α := fun ls => do
    let ((), ls) ← punct separator ls
    item ls
  let (others, ls) ← many (isPunct separator) next ls
  .ok (first :: others, ls)

/-- Reads what stands between two brackets, given a reader for each number of levels within. -/
def between {α : Type} (opening closing : Char) (levels : Nat) (inner : Nat → Reader α) :
    Reader α := fun ls =>
  match levels with
  | 0 => stop ls
  | levels + 1 => do
    let ((), ls) ← punct opening ls
    let (value, ls) ← inner levels ls
    let ((), ls) ← punct closing ls
    .ok (value, ls)

end Reader

end OperationAtlas.Graphql
