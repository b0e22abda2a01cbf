import OperationAtlas.Graphql.Lexer
import OperationAtlas.Graphql.TypeExpr
import OperationAtlas.Graphql.Value
import OperationAtlas.Schema.OperationKind

/-!
# Request documents

A request document holds operations and fragments. `Document.parse` reads its text; every rule of
the grammar is decided by the first lexeme, so the position of a fault is that of the first lexeme
that does not fit.
-/

namespace OperationAtlas.Graphql

/-- What is selected from an object. -/
inductive Selection
  | field (responseName : Option String) (name : String) (arguments : List (String × Value))
      (directives : List Directive) (selections : List Selection)
  | spread (fragment : String) (directives : List Directive)
  | inline (onType : Option String) (directives : List Directive) (selections : List Selection)
  deriving Repr

/-- A variable of an operation. -/
structure VariableDefinition where
  name : String
  type : TypeExpr
  default? : Option Value
  deriving Repr

/-- A definition of a request document. -/
inductive RequestDefinition
  /-- A selection that stands alone: a query without a name. -/
  | selections (selections : List Selection)
  | operation (kind : OperationKind) (name : Option String) (declared : List VariableDefinition)
      (directives : List Directive) (selections : List Selection)
  | fragment (name : String) (onType : String) (directives : List Directive)
      (selections : List Selection)
  deriving Repr

/-- A request document. -/
abbrev Document := List RequestDefinition

namespace Selection

open Reader

/-- Whether a lexeme starts a selection. -/
def isStart (l : Lexeme) : Bool :=
  isName l || l == .spread

/-- Reads the name of a field, before which another name for the response may stand. -/
def readNames : Reader (Option String × String) := fun ls => do
  let (first, ls) ← name ls
  match ls with
  | .punct ':' :: ls => do
    let (second, ls) ← name ls
    .ok ((some first, second), ls)
  | ls => .ok ((none, first), ls)

/-- Reads a field, given a reader of selections in braces. -/
def readField (levels : Nat) (block : Reader (List Selection)) : Reader Selection := fun ls => do
  let ((responseName, name), ls) ← readNames ls
  let (arguments, ls) ← readArguments false levels ls
  let (directives, ls) ← readDirectives levels ls
  let (selections, ls) ← optional (isPunct '\x7b') block ls
  .ok (.field responseName name arguments directives (selections.getD []), ls)

/-- Reads what stands behind three points: a fragment's name, or selections with or without a
type. -/
def readSpread (levels : Nat) (block : Reader (List Selection)) : Reader Selection
  | .name "on" :: ls => do
    let (onType, ls) ← name ls
    let (directives, ls) ← readDirectives levels ls
    let (selections, ls) ← block ls
    .ok (.inline (some onType) directives selections, ls)
  | .name fragment :: ls => do
    let (directives, ls) ← readDirectives levels ls
    .ok (.spread fragment directives, ls)
  | ls => do
    let (directives, ls) ← readDirectives levels ls
    let (selections, ls) ← block ls
    .ok (.inline none directives selections, ls)

/-- Reads one selection, given a reader of selections in braces. -/
def readOne (levels : Nat) (block : Reader (List Selection)) : Reader Selection
  | .spread :: ls => readSpread levels block ls
  | ls => readField levels block ls

/-- Reads selections in braces that open at most so many bracket levels. -/
def readBlock : Nat → Reader (List Selection)
  | levels + 1, .punct '\x7b' :: ls => do
    let (selections, ls) ← many1 isStart (readOne levels (readBlock levels)) ls
    let ((), ls) ← punct '\x7d' ls
    .ok (selections, ls)
  | _, ls => stop ls

end Selection

namespace Document

open Reader

/-- Reads the definition of a variable. -/
def readVariable (levels : Nat) : Reader VariableDefinition := fun ls => do
  let ((), ls) ← punct '$' ls
  let (name, ls) ← name ls
  let ((), ls) ← punct ':' ls
  let (type, ls) ← TypeExpr.read levels ls
  match ls with
  | .punct '=' :: ls => do
    let (value, ls) ← Value.read true levels ls
    .ok (⟨name, type, some value⟩, ls)
  | ls => .ok (⟨name, type, none⟩, ls)

/-- Reads an operation behind its keyword. -/
def readOperation (levels : Nat) (kind : OperationKind) : Reader RequestDefinition := fun ls => do
  let (name, ls) ← optional isName name ls
  let inner := fun levels => many1 (isPunct '$') (readVariable levels)
  let (declared, ls) ← optional (isPunct '(') (between '(' ')' levels inner) ls
  let (directives, ls) ← readDirectives levels ls
  let (selections, ls) ← Selection.readBlock levels ls
  .ok (.operation kind name (declared.getD []) directives selections, ls)

/-- Reads a fragment behind its keyword. -/
def readFragment (levels : Nat) : Reader RequestDefinition := fun ls => do
  let (name, ls) ← name ls
  let ((), ls) ← word "on" ls
  let (onType, ls) ← Reader.name ls
  let (directives, ls) ← readDirectives levels ls
  let (selections, ls) ← Selection.readBlock levels ls
  .ok (.fragment name onType directives selections, ls)

/-- Whether a lexeme starts a definition. -/
def isStart (l : Lexeme) : Bool :=
  isPunct '\x7b' l || isName l

/-- Reads one definition. -/
def readDefinition (levels : Nat) : Reader RequestDefinition
  | .name "query" :: ls => readOperation levels .query ls
  | .name "mutation" :: ls => readOperation levels .mutation ls
  | .name "subscription" :: ls => readOperation levels .subscription ls
  | .name "fragment" :: ls => readFragment levels ls
  | ls => do
    let (selections, ls) ← Selection.readBlock levels ls
    .ok (.selections selections, ls)

/-- Reads all definitions of a document, of which there must be one. -/
def read : Reader Document := fun ls => do
  let (definitions, ls) ← many1 isStart (readDefinition maxLevels) ls
  if ls.isEmpty then .ok (definitions, ls) else stop ls

/-- The document that a text writes, or the position from which on it cannot be read. -/
def parse (text : String) : Except Position Document :=
  let lexed := Lexed.ofText text
  match read lexed.lexemes with
  | .ok (document, _) => .ok document
  | .error left => .error (lexed.positionOf left)

end Document

end OperationAtlas.Graphql
