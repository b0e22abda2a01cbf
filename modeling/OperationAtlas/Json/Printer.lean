import OperationAtlas.Json.Number
import OperationAtlas.Json.Quoted

/-!
# Printing JSON

The compact text has no blanks. The pretty text puts every item and every member on a line of its
own, two blanks deeper than the brackets around it; an empty list or object has no lines.
-/

namespace OperationAtlas.Json

mutual

/-- The text without blanks. -/
def compact : Json → List Char
  | null => ['n', 'u', 'l', 'l']
  | bool true => ['t', 'r', 'u', 'e']
  | bool false => ['f', 'a', 'l', 's', 'e']
  | number value => value.write
  | string text => Quoted.write text.toList
  | array items => '[' :: (compactItems items ++ [']'])
  | object members => '\x7b' :: (compactMembers members ++ ['\x7d'])

/-- Items with commas between them. -/
def compactItems : List Json → List Char
  | [] => []
  | [item] => compact item
  | item :: items => compact item ++ ',' :: compactItems items

/-- Members with commas between them. -/
def compactMembers : List (String × Json) → List Char
  | [] => []
  | [(key, value)] => Quoted.write key.toList ++ ':' :: compact value
  | (key, value) :: members =>
    Quoted.write key.toList ++ ':' :: (compact value ++ ',' :: compactMembers members)

end

/-- A line feed and the blanks of a nesting level. -/
def lineStart (level : Nat) : List Char :=
  '\n' :: List.replicate (2 * level) ' '

mutual

/-- The text in lines, for a value at a nesting level. -/
def pretty (level : Nat) : Json → List Char
  | null => ['n', 'u', 'l', 'l']
  | bool true => ['t', 'r', 'u', 'e']
  | bool false => ['f', 'a', 'l', 's', 'e']
  | number value => value.write
  | string text => Quoted.write text.toList
  | array [] => ['[', ']']
  | array (item :: items) =>
    '[' :: (prettyItems (level + 1) (item :: items) ++ lineStart level ++ [']'])
  | object [] => ['\x7b', '\x7d']
  | object (member :: members) =>
    '\x7b' :: (prettyMembers (level + 1) (member :: members) ++ lineStart level ++ ['\x7d'])

/-- Items, each at the start of a line. -/
def prettyItems (level : Nat) : List Json → List Char
  | [] => []
  | [item] => lineStart level ++ pretty level item
  | item :: items => lineStart level ++ pretty level item ++ ',' :: prettyItems level items

/-- Members, each at the start of a line. -/
def prettyMembers (level : Nat) : List (String × Json) → List Char
  | [] => []
  | [(key, value)] =>
    lineStart level ++ Quoted.write key.toList ++ ':' :: ' ' :: pretty level value
  | (key, value) :: members =>
    lineStart level ++ Quoted.write key.toList ++ ':' :: ' ' :: pretty level value ++
      ',' :: prettyMembers level members

end

/-- The compact text of a value. -/
def toCompact (value : Json) : String :=
  String.ofList value.compact

/-- The text of a value in lines. -/
def toPretty (value : Json) : String :=
  String.ofList (value.pretty 0)

end OperationAtlas.Json
