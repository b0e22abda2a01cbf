import OperationAtlas.Text.Alphanumeric
import OperationAtlas.Text.Blank

/-!
# Access rules

An access expression is a call with quoted arguments. Four calls are rules with a note in the
documentation: `isAnonymous()`, `isAuthenticated()`, `hasRole('R')` and `hasAnyRole('R1', 'R2')`.
Every other text has no rule. Quotes and commas cannot be escaped, so an argument holds neither.
-/

namespace OperationAtlas

open Text

/-- Who may use an operation. -/
inductive AccessRule
  | anonymous
  | authenticated
  | roles (names : List String)
  deriving DecidableEq, Repr

namespace AccessRule

/-- Whether a character is a quote. -/
def isQuote (c : Char) : Bool :=
  c == '\'' || c == '"'

/-- A token without `quote` at both its ends. -/
def unquoteWith? (quote : Char) : List Char → Option (List Char)
  | [] => none
  | c :: rest =>
    if c = quote ∧ rest.getLast? = some quote then some rest.dropLast else none

/-- The text of a quoted argument. -/
def argument? (token : List Char) : Option (List Char) :=
  match (unquoteWith? '\'' token).or (unquoteWith? '"' token) with
  | some text => if text.any isQuote then none else some text
  | none => none

/-- The texts of a list of arguments, which may be empty. -/
def arguments? (inner : List Char) : Option (List (List Char)) :=
  if inner.isEmpty then some []
  else (splitAt ',' inner).mapM fun piece => argument? (trim piece)

/-- The name and the argument texts of a call. -/
def call? (expression : List Char) : Option (List Char × List (List Char)) := do
  let expression := trim expression
  let name := trim (expression.takeWhile (· ≠ '('))
  match expression.dropWhile (· ≠ '(') with
  | [] => none
  | _ :: rest =>
    if name.isEmpty || !name.all isNameChar then none
    else if rest.getLast? = some ')' then do
      let arguments ← arguments? (trim rest.dropLast)
      some (name, arguments)
    else none

/-- The name of a role without one leading `ROLE_`. -/
def roleName : List Char → List Char
  | 'R' :: 'O' :: 'L' :: 'E' :: '_' :: name => name
  | name => name

/-- The rule that an expression states, if it states one. -/
def parse? (expression : String) : Option AccessRule := do
  let (name, arguments) ← call? expression.toList
  let listed := roles (arguments.map fun role => String.ofList (roleName role))
  match String.ofList name, arguments with
  | "isAnonymous", [] => some anonymous
  | "isAuthenticated", [] => some authenticated
  | "hasRole", [_] => some listed
  | "hasAnyRole", _ :: _ => some listed
  | _, _ => none

/-- The note that documents a rule. -/
def note : AccessRule → String
  | anonymous => "Only anonymous users can access this resource"
  | authenticated => "Only for authenticated users with roles : Any Role"
  | roles names => "Only for authenticated users with roles : " ++ ", ".intercalate names

end AccessRule

end OperationAtlas
