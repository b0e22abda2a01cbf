import OperationAtlas.Host.Types
import OperationAtlas.Json.Number
import OperationAtlas.Json.Quoted
import OperationAtlas.Text.Blank

/-!
# Examples of leaves

A leaf has two examples that show the same datum: a JSON value in a response, and a literal in a
request. Both follow from the leaf and the example text that a member may give. In a request,
strings are quoted, the variants of an enumeration and the texts of numbers stand as they are.
-/

namespace OperationAtlas.Leaf

open Text

/-- The ASCII capitals of a text in lower case. -/
def foldCase (cs : List Char) : List Char :=
  cs.map Char.toLower

/-- The truth value of an example text: `true` in any case, with blanks around it, is true. -/
def truth (text : String) : Bool :=
  foldCase (trim text.toList) == ['t', 'r', 'u', 'e']

/-- A text as a string literal. The escapes of JSON are among those of a request. -/
def quoted (text : String) : String :=
  String.ofList (Quoted.write text.toList)

/-- The JSON value that a leaf shows in a response. The text of a number that is no JSON number is
shown as a string. -/
def response : Leaf → Option String → Json
  | .scalar .boolean, none => .bool true
  | .scalar .boolean, some text => .bool (truth text)
  | .scalar kind, none => if kind.isNumeric then .number (.int 1) else .string ""
  | .scalar kind, some text =>
    if kind.isNumeric then
      match JsonNumber.parse? text.toList with
      | some number => .number number
      | none => .string text
    else .string text
  | .enumeration variants, none => .string (variants.head?.getD "")
  | .enumeration _, some text => .string text

/-- The literal that a leaf shows in a request. -/
def literal : Leaf → Option String → String
  | .scalar .boolean, none => "true"
  | .scalar .boolean, some text => if truth text then "true" else "false"
  | .scalar kind, text =>
    if kind.isNumeric then text.getD "1" else quoted (text.getD "")
  | .enumeration variants, text =>
    match text.or variants.head? with
    | some variant => variant
    | none => quoted ""

end OperationAtlas.Leaf
