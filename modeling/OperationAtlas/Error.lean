import OperationAtlas.Text.Position
import OperationAtlas.Schema.OperationKind

/-!
# Why documentation fails

Each way in which documenting a schema can fail, with what its message names.
-/

namespace OperationAtlas

/-- Why a request is no request. -/
inductive RequestFault
  /-- The text cannot be read from this position on. -/
  | unreadable (position : Position)
  /-- The text reads as a document that is printed differently. -/
  | unstable
  deriving DecidableEq, Repr

/-- What is wrong with a request, as messages say it. -/
def RequestFault.message : RequestFault → String
  | unreadable position => "query parse error: Parse error at " ++ position.text
  | unstable => "the printed request does not read back unchanged"

/-- Why documentation fails. -/
inductive DocError
  /-- A schema source cannot be read from a position on. -/
  | schemaParse (origin : String) (position : Position)
  /-- A schema type has a field that the host type behind it lacks. -/
  | schemaDrift (hostType schemaType field : String)
  /-- A member's type is a list without a single element type. -/
  | malformedListType (hostType member : String)
  /-- A composed request is no request; the text is the one that was rejected. -/
  | grammar (kind : OperationKind) (fault : RequestFault) (text : String)
  | unknownHostType (name : String)
  | duplicateHostType (name : String)
  | invalidTypeRef (text : String)
  | missingExample (operation : String)
  deriving DecidableEq, Repr

/-- The message of a failure. -/
def DocError.message : DocError → String
  | schemaParse origin position =>
    "could not parse the schema source `" ++ origin ++
      "`: schema parse error: Parse error at " ++ position.text
  | schemaDrift hostType schemaType field =>
    "schema type `" ++ schemaType ++ "` declares the field `" ++ field ++ "`, but host type `" ++
      hostType ++ "` has no such field"
  | malformedListType hostType member =>
    "`" ++ member ++ "` of host type `" ++ hostType ++ "` is a list without a single element type"
  | grammar kind fault text =>
    "the synthesized " ++ kind.keyword ++ " request could not be parsed: " ++ fault.message ++
      "\n" ++ text
  | unknownHostType name => "host type `" ++ name ++ "` is not declared in the host model"
  | duplicateHostType name =>
    "host type `" ++ name ++ "` is declared more than once in the host model"
  | invalidTypeRef text => "`" ++ text ++ "` is not a valid host type reference"
  | missingExample operation =>
    "no example response was recorded for the operation `" ++ operation ++ "`"

end OperationAtlas
