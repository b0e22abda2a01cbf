import OperationAtlas.Error
import OperationAtlas.Graphql.Request.Printer

/-!
# Example requests

A request is composed as a loose text, read as a document and printed. The printed text is kept only
if it reads as a document that prints to the same text; printing cannot write every string value so
that it reads back.
-/

namespace OperationAtlas.ExampleRequest

open Graphql

/-- The loose text of a request for one operation, given its arguments as they are to be written and
the selections from its result, if that has any. -/
def compose (kind : OperationKind) (name : String) (arguments : List String)
    (selection : Option String) : String :=
  let arguments :=
    if arguments.isEmpty then "" else "(" ++ ", ".intercalate arguments ++ ")"
  let selection := match selection with
    | some selection => " \x7b\n" ++ selection ++ "\n\x7d"
    | none => ""
  kind.keyword ++ " \x7b\n" ++ name ++ arguments ++ selection ++ "\n\x7d\n"

/-- The canonical text of a loose request: what its document prints to, if that reads back. -/
def canonical (kind : OperationKind) (text : String) : Except DocError String :=
  match Document.parse text with
  | .error position => .error (.grammar kind (.unreadable position) text)
  | .ok document =>
    let printed := document.text
    match Document.parse printed with
    | .error position => .error (.grammar kind (.unreadable position) printed)
    | .ok again =>
      if again.text = printed then .ok printed else .error (.grammar kind .unstable printed)

end OperationAtlas.ExampleRequest
