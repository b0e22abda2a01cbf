import OperationAtlas.Number.Binary64

/-!
# Lexemes of GraphQL texts

A lexeme carries the value that its text denotes. A text that is no lexeme, as a malformed number, a
string that does not end or an integer beyond 64 bits, is `bad`; no rule of the grammar takes it.
-/

namespace OperationAtlas.Graphql

/-- A lexeme. -/
inductive Lexeme
  /-- One of the characters `! $ & ( ) : = @ [ ] { | }`. -/
  | punct (c : Char)
  /-- Three points. -/
  | spread
  | name (text : String)
  | int (value : Int)
  | float (value : Binary64)
  | text (value : String)
  | bad
  deriving DecidableEq, Repr

/-- Whether a character is a letter of the alphabet or an underscore. -/
def isNameStart (c : Char) : Bool :=
  c.isAlpha || c == '_'

/-- Whether a character may stand in a name behind the first one. -/
def isNameRest (c : Char) : Bool :=
  c.isAlphanum || c == '_'

/-- The characters that are lexemes on their own. -/
def punctuation : List Char :=
  ['!', '$', '&', '(', ')', ':', '=', '@', '[', ']', '\x7b', '|', '\x7d']

end OperationAtlas.Graphql
