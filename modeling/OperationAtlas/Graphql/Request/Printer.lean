import OperationAtlas.Graphql.Request
import OperationAtlas.Number.Shortest

/-!
# Printing request documents

Every selection stands on a line of its own, two blanks deeper than the brace before it, and a blank
line stands between two definitions. Values are written without line breaks, but for string values
in block form. A double is written with the fewest digits that read back, never with an exponent,
and without a fraction if it has none.

The variables of a subscription are written one behind the other, and only if the subscription has a
name.
-/

namespace OperationAtlas.Graphql

namespace Value

/-- The text of a double. -/
def floatText : Binary64 → List Char
  | .infinite negative => if negative then ['-', 'i', 'n', 'f'] else ['i', 'n', 'f']
  | .finite negative mantissa exponent =>
    let magnitude :=
      if mantissa = 0 then ['0'] else (Binary64.shortest true mantissa exponent).positional
    if negative then '-' :: magnitude else magnitude

mutual

/-- The text of a value in a document that is indented so far. -/
def print (indent : Nat) : Value → List Char
  | var name => '$' :: name.toList
  | int value => (toString value).toList
  | float value => floatText value
  | string text => writeString indent text.toList
  | boolean true => ['t', 'r', 'u', 'e']
  | boolean false => ['f', 'a', 'l', 's', 'e']
  | null => ['n', 'u', 'l', 'l']
  | enum name => name.toList
  | list items => '[' :: (printItems indent items ++ [']'])
  | object fields => '\x7b' :: (printFields indent fields ++ ['\x7d'])

/-- The texts of items with commas between them. -/
def printItems (indent : Nat) : List Value → List Char
  | [] => []
  | [item] => print indent item
  | item :: items => print indent item ++ ',' :: ' ' :: printItems indent items

/-- The texts of fields with commas between them. -/
def printFields (indent : Nat) : List (String × Value) → List Char
  | [] => []
  | [(name, value)] => name.toList ++ ':' :: ' ' :: print indent value
  | (name, value) :: fields =>
    name.toList ++ ':' :: ' ' :: (print indent value ++ ',' :: ' ' :: printFields indent fields)

end

end Value

/-- The text of arguments in parentheses; nothing for none. -/
def printArguments (indent : Nat) : List (String × Value) → List Char
  | [] => []
  | argument :: arguments => '(' :: (Value.printFields indent (argument :: arguments) ++ [')'])

/-- The text of directives, each behind a blank. -/
def printDirectives (indent : Nat) (directives : List Directive) : List Char :=
  directives.flatMap fun d => ' ' :: '@' :: (d.name.toList ++ printArguments indent d.arguments)

/-- The blanks of an indentation. -/
def blanks (indent : Nat) : List Char :=
  List.replicate indent ' '

namespace Selection

mutual

/-- The lines of a selection at an indentation. -/
def print (indent : Nat) : Selection → List Char
  | field responseName name arguments directives selections =>
    let names := match responseName with
      | some text => text.toList ++ ':' :: ' ' :: name.toList
      | none => name.toList
    blanks indent ++ names ++ printArguments indent arguments ++
      printDirectives indent directives ++
      if selections.isEmpty then ['\n']
      else
        ' ' :: '\x7b' :: '\n' ::
          (printAll (indent + 2) selections ++ blanks indent ++ ['\x7d', '\n'])
  | spread fragment directives =>
    blanks indent ++ '.' :: '.' :: '.' :: (fragment.toList ++ printDirectives indent directives ++
      ['\n'])
  | inline onType directives selections =>
    let condition := match onType with
      | some type => " on ".toList ++ type.toList
      | none => []
    blanks indent ++ '.' :: '.' :: '.' :: (condition ++ printDirectives indent directives ++
      ' ' :: '\x7b' :: '\n' ::
        (printAll (indent + 2) selections ++ blanks indent ++ ['\x7d', '\n']))

/-- The lines of several selections at an indentation. -/
def printAll (indent : Nat) : List Selection → List Char
  | [] => []
  | selection :: selections => print indent selection ++ printAll indent selections

end

/-- Selections in braces. -/
def printBlock (selections : List Selection) : List Char :=
  '\x7b' :: '\n' :: (printAll 2 selections ++ ['\x7d', '\n'])

end Selection

namespace Document

/-- The text of a variable definition. -/
def printVariable (definition : VariableDefinition) : List Char :=
  '$' :: (definition.name.toList ++ ':' :: ' ' :: (definition.type.text.toList ++
    match definition.default? with
    | some value => ' ' :: '=' :: ' ' :: value.print 0
    | none => []))

/-- The text of the variables of an operation. -/
def printVariables (kind : OperationKind) (named : Bool) (declared : List VariableDefinition) :
    List Char :=
  if declared.isEmpty then []
  else match kind with
    | .query | .mutation =>
      '(' :: ([',', ' '].intercalate (declared.map printVariable) ++ [')'])
    | .subscription => if named then '(' :: (declared.flatMap printVariable ++ [')']) else []

/-- The text of a definition. -/
def printDefinition : RequestDefinition → List Char
  | .selections selections => Selection.printBlock selections
  | .operation kind name declared directives selections =>
    let title := match name with
      | some text => ' ' :: text.toList
      | none => []
    kind.keyword.toList ++ title ++ printVariables kind name.isSome declared ++
      printDirectives 0 directives ++ ' ' :: Selection.printBlock selections
  | .fragment name onType directives selections =>
    "fragment ".toList ++ name.toList ++ " on ".toList ++ onType.toList ++
      printDirectives 0 directives ++ ' ' :: Selection.printBlock selections

/-- The text of a document. -/
def print : Document → List Char
  | [] => []
  | [definition] => printDefinition definition
  | definition :: definitions => printDefinition definition ++ '\n' :: print definitions

/-- The text of a document. -/
def text (document : Document) : String :=
  String.ofList document.print

end Document

end OperationAtlas.Graphql
