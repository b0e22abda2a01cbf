import OperationAtlas.Graphql.Reader

/-!
# Type expressions

A type expression is a name inside any number of lists, each level of which may be marked as never
null.
-/

namespace OperationAtlas.Graphql

/-- A type expression. -/
inductive TypeExpr
  | named (name : String)
  | list (inner : TypeExpr)
  | nonNull (inner : TypeExpr)
  deriving DecidableEq, Repr

namespace TypeExpr

/-- Takes the mark of a type that is never null, if it is there. -/
def readMark (type : TypeExpr) : Reader TypeExpr
  | .punct '!' :: ls => .ok (.nonNull type, ls)
  | ls => .ok (type, ls)

/-- Reads a type expression that opens at most so many bracket levels. -/
def read : Nat → Reader TypeExpr
  | _, .name name :: ls => readMark (.named name) ls
  | levels + 1, .punct '[' :: ls => do
    let (inner, ls) ← read levels ls
    let ((), ls) ← Reader.punct ']' ls
    readMark (.list inner) ls
  | _, ls => Reader.stop ls

/-- The text of a type expression. -/
def text : TypeExpr → String
  | named name => name
  | list inner => "[" ++ inner.text ++ "]"
  | nonNull inner => inner.text ++ "!"

end TypeExpr

end OperationAtlas.Graphql
