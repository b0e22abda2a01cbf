/-!
# Positions in a text

A position is a line and a column, both counted from one.
-/

namespace OperationAtlas

/-- A line and a column of a text. -/
structure Position where
  line : Nat
  column : Nat
  deriving DecidableEq, Repr

namespace Position

/-- The first position of a text. -/
def start : Position := ⟨1, 1⟩

/-- The position as messages write it. -/
def text (p : Position) : String :=
  toString p.line ++ ":" ++ toString p.column

/-- The first column of the next line. -/
def nextLine (p : Position) : Position := ⟨p.line + 1, 1⟩

/-- The position some columns to the right. -/
def right (p : Position) (columns : Nat) : Position := ⟨p.line, p.column + columns⟩

/-- The position behind the characters of a token: each takes one column, and a line feed starts a
line. -/
def afterToken : Position → List Char → Position
  | p, [] => p
  | p, c :: cs => afterToken (if c = '\n' then p.nextLine else p.right 1) cs

end Position

end OperationAtlas
