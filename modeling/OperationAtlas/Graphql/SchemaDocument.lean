import OperationAtlas.Graphql.Lexer
import OperationAtlas.Graphql.TypeExpr
import OperationAtlas.Graphql.Value

/-!
# Schema documents

`SchemaDocument.parse` reads the definitions of a schema text. Of the definitions it keeps what a
schema says about fields: the objects, interfaces and inputs with their extensions, and the blocks
that name the roots. Scalars, unions, enumerations and directives, descriptions, default values and
applied directives are read and dropped.

An extension must have some content; one without is at fault from the word behind `extend` on. A
block of roots that repeats a root or names an unknown one is at fault from its first word on.
-/

namespace OperationAtlas.Graphql

/-- A field with its arguments and its type. -/
structure FieldDefinition where
  name : String
  arguments : List (String × TypeExpr)
  type : TypeExpr
  deriving DecidableEq, Repr

/-- The kinds of definitions that have fields. -/
inductive FieldedKind
  | object
  | interface
  | input
  deriving DecidableEq, Repr

/-- A definition of a schema. -/
inductive Definition
  /-- A type with fields, or an extension of one. -/
  | fielded (kind : FieldedKind) (extends? : Bool) (name : String) (fields : List FieldDefinition)
  /-- The names of the root types that a block gives. -/
  | roots (query mutation subscription : Option String)
  /-- A definition without fields. -/
  | other
  deriving DecidableEq, Repr

/-- The definitions of a schema text. -/
abbrev SchemaDocument := List Definition

namespace SchemaDocument

open Reader

/-- Whether a lexeme starts something that may have a description before its name. -/
def startsDescribed (l : Lexeme) : Bool :=
  isText l || isName l

/-- Takes the description, if there is one. -/
def description : Reader Unit
  | .text _ :: ls => .ok ((), ls)
  | ls => .ok ((), ls)

/-- Takes a given word, if it is there. -/
def optionalWord (text : String) : Reader Bool := fun ls =>
  if starts (· == .name text) ls then .ok (true, ls.drop 1) else .ok (false, ls)

/-- Takes a given punctuation character, if it is there. -/
def optionalPunct (c : Char) : Reader Bool := fun ls =>
  if starts (isPunct c) ls then .ok (true, ls.drop 1) else .ok (false, ls)

/-- Takes the default value, if there is one. -/
def defaultValue (levels : Nat) : Reader Unit := fun ls =>
  if starts (isPunct '=') ls then do
    let (_, ls) ← Value.read true levels (ls.drop 1)
    .ok ((), ls)
  else .ok ((), ls)

/-- Reads an argument of a field or a field of an input. -/
def inputValue (levels : Nat) : Reader (String × TypeExpr) := fun ls => do
  let ((), ls) ← description ls
  let (name, ls) ← name ls
  let ((), ls) ← punct ':' ls
  let (type, ls) ← TypeExpr.read levels ls
  let ((), ls) ← defaultValue levels ls
  let (_, ls) ← readDirectives levels ls
  .ok ((name, type), ls)

/-- Reads the arguments of a field or a directive; there may be none without parentheses. -/
def argumentsDefinition (levels : Nat) : Reader (List (String × TypeExpr)) := fun ls => do
  let inner := fun levels => many1 startsDescribed (inputValue levels)
  let (arguments, ls) ← optional (isPunct '(') (between '(' ')' levels inner) ls
  .ok (arguments.getD [], ls)

/-- Reads a field of an object or an interface. -/
def field (levels : Nat) : Reader FieldDefinition := fun ls => do
  let ((), ls) ← description ls
  let (name, ls) ← name ls
  let (arguments, ls) ← argumentsDefinition levels ls
  let ((), ls) ← punct ':' ls
  let (type, ls) ← TypeExpr.read levels ls
  let (_, ls) ← readDirectives levels ls
  .ok (⟨name, arguments, type⟩, ls)

/-- Reads a field of an input. -/
def inputField (levels : Nat) : Reader FieldDefinition := fun ls => do
  let ((name, type), ls) ← inputValue levels ls
  .ok (⟨name, [], type⟩, ls)

/-- Reads items in braces; there may be none without braces. -/
def braced {α : Type} (levels : Nat) (item : Nat → Reader α) : Reader (List α) := fun ls => do
  let inner := fun levels => many1 startsDescribed (item levels)
  let (items, ls) ← optional (isPunct '\x7b') (between '\x7b' '\x7d' levels inner) ls
  .ok (items.getD [], ls)

/-- Reads the interfaces that a type implements, if it names some. -/
def interfaces : Reader (List String) := fun ls => do
  let (implements?, ls) ← optionalWord "implements" ls
  if implements? then do
    let (_, ls) ← optionalPunct '&' ls
    sepBy1 '&' name ls
  else .ok ([], ls)

/-- Fails before the lexemes `start`, if a definition extends a type by nothing. -/
def checkContent (extends? isEmpty : Bool) (start : List Lexeme) : Except Nat Unit :=
  if extends? && isEmpty then .error start.length else .ok ()

/-- Reads a type definition from its keyword on, given that keyword's lexemes for faults. -/
def typeDefinition (levels : Nat) (extends? : Bool) (keyword : String) (start : List Lexeme) :
    Reader Definition := fun ls =>
  match keyword with
  | "scalar" => do
    let (_, ls) ← name ls
    let (directives, ls) ← readDirectives levels ls
    checkContent extends? directives.isEmpty start
    .ok (.other, ls)
  | "type" => do
    let (name, ls) ← name ls
    let (interfaces, ls) ← interfaces ls
    let (directives, ls) ← readDirectives levels ls
    let (fields, ls) ← braced levels field ls
    checkContent extends? (interfaces.isEmpty && directives.isEmpty && fields.isEmpty) start
    .ok (.fielded .object extends? name fields, ls)
  | "interface" => do
    let (name, ls) ← name ls
    let (_, ls) ← interfaces ls
    let (directives, ls) ← readDirectives levels ls
    let (fields, ls) ← braced levels field ls
    checkContent extends? (directives.isEmpty && fields.isEmpty) start
    .ok (.fielded .interface extends? name fields, ls)
  | "union" => do
    let (_, ls) ← name ls
    let (directives, ls) ← readDirectives levels ls
    let (equals, ls) ← optionalPunct '=' ls
    if equals then do
      let (_, ls) ← optionalPunct '|' ls
      let (_, ls) ← sepBy1 '|' Reader.name ls
      .ok (.other, ls)
    else do
      checkContent extends? directives.isEmpty start
      .ok (.other, ls)
  | "enum" => do
    let (_, ls) ← name ls
    let (directives, ls) ← readDirectives levels ls
    let value := fun levels ls => do
      let ((), ls) ← description ls
      let (name, ls) ← Reader.name ls
      let (_, ls) ← readDirectives levels ls
      .ok (name, ls)
    let (values, ls) ← braced levels value ls
    checkContent extends? (directives.isEmpty && values.isEmpty) start
    .ok (.other, ls)
  | "input" => do
    let (name, ls) ← name ls
    let (directives, ls) ← readDirectives levels ls
    let (fields, ls) ← braced levels inputField ls
    checkContent extends? (directives.isEmpty && fields.isEmpty) start
    .ok (.fielded .input extends? name fields, ls)
  | _ => .error start.length

/-- The places where a directive may be applied. -/
def directiveLocations : List String :=
  ["QUERY", "MUTATION", "SUBSCRIPTION", "FIELD", "FRAGMENT_DEFINITION", "FRAGMENT_SPREAD",
    "INLINE_FRAGMENT", "SCHEMA", "SCALAR", "OBJECT", "FIELD_DEFINITION", "ARGUMENT_DEFINITION",
    "INTERFACE", "UNION", "ENUM", "ENUM_VALUE", "INPUT_OBJECT", "INPUT_FIELD_DEFINITION",
    "VARIABLE_DEFINITION"]

/-- Reads the name of a place where a directive may be applied. -/
def directiveLocation : Reader String
  | .name text :: ls =>
    if directiveLocations.contains text then .ok (text, ls) else stop (.name text :: ls)
  | ls => stop ls

/-- Reads a directive definition behind its keyword. The list of places may be empty. -/
def directiveDefinition (levels : Nat) : Reader Definition := fun ls => do
  let ((), ls) ← punct '@' ls
  let (_, ls) ← name ls
  let (_, ls) ← argumentsDefinition levels ls
  let (_, ls) ← optionalWord "repeatable" ls
  let ((), ls) ← word "on" ls
  let (_, ls) ← optionalPunct '|' ls
  let (_, ls) ← optional isName (sepBy1 '|' directiveLocation) ls
  .ok (.other, ls)

/-- The roots that a block names: each root at most once, and no other word. -/
def roots? (entries : List (String × String)) : Option Definition :=
  let words := entries.map (·.1)
  if words.all (["query", "mutation", "subscription"].contains ·) &&
      ["query", "mutation", "subscription"].all (words.count · ≤ 1) then
    some (.roots (entries.lookup "query") (entries.lookup "mutation")
      (entries.lookup "subscription"))
  else none

/-- Reads a block of roots behind its keyword, given that keyword's lexemes for faults. -/
def rootsBlock (levels : Nat) (start : List Lexeme) : Reader Definition := fun ls => do
  let (_, ls) ← readDirectives levels ls
  let entry : Reader (String × String) := fun ls => do
    let (root, ls) ← name ls
    let ((), ls) ← punct ':' ls
    let (type, ls) ← name ls
    .ok ((root, type), ls)
  let (entries, ls) ← between '\x7b' '\x7d' levels (fun _ => many isName entry) ls
  match roots? entries with
  | some definition => .ok (definition, ls)
  | none => .error start.length

/-- Reads one definition. -/
def definition (levels : Nat) : Reader Definition
  | .name "schema" :: ls => rootsBlock levels (.name "schema" :: ls) ls
  | .name "extend" :: .name keyword :: ls =>
    typeDefinition levels true keyword (.name keyword :: ls) ls
  | .name "extend" :: ls => stop ls
  | ls => do
    let ((), ls) ← description ls
    match ls with
    | .name "directive" :: ls => directiveDefinition levels ls
    | .name keyword :: ls => typeDefinition levels false keyword (.name keyword :: ls) ls
    | ls => stop ls

/-- Reads all definitions of a document, of which there must be one. -/
def read : Reader SchemaDocument := fun ls => do
  let (definitions, ls) ← many1 startsDescribed (definition maxLevels) ls
  if ls.isEmpty then .ok (definitions, ls) else stop ls

/-- The definitions of a schema text, or the position from which on it cannot be read. -/
def parse (text : String) : Except Position SchemaDocument :=
  let lexed := Lexed.ofText text
  match read lexed.lexemes with
  | .ok (document, _) => .ok document
  | .error left => .error (lexed.positionOf left)

end SchemaDocument

end OperationAtlas.Graphql
