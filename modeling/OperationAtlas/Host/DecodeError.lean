import OperationAtlas.Json.Draft
import OperationAtlas.Text.Printable

/-!
# Faults of a host model's text

A fault of a text that is JSON names what was found and what was expected.
-/

namespace OperationAtlas

/-- Why a draft does not decode. -/
inductive DecodeError
  /-- The text is not JSON. -/
  | malformed
  | wrongType (found expected : String)
  | wrongValue (found expected : String)
  | wrongLength (length : Nat) (expected : String)
  | unknownField (name : String) (known : List String)
  | unknownVariant (name : String) (known : List String)
  | missingField (name : String)
  | duplicateField (name : String)
  | invalidTypeRef (text : String)
  deriving DecidableEq, Repr

namespace DecodeError

/-- A name in backquotes. -/
def ticked (name : String) : String :=
  "`" ++ name ++ "`"

/-- The names that would have been accepted. -/
def alternatives : List String → String
  | [a] => ticked a
  | [a, b] => ticked a ++ " or " ++ ticked b
  | names => "one of " ++ ", ".intercalate (names.map ticked)

/-- The message of a fault. -/
def message : DecodeError → String
  | malformed => "the text is not JSON"
  | wrongType found expected => "invalid type: " ++ found ++ ", expected " ++ expected
  | wrongValue found expected => "invalid value: " ++ found ++ ", expected " ++ expected
  | wrongLength length expected => "invalid length " ++ toString length ++ ", expected " ++ expected
  | unknownField name known =>
    "unknown field " ++ ticked name ++ ", expected " ++ alternatives known
  | unknownVariant name known =>
    "unknown variant " ++ ticked name ++ ", expected " ++ alternatives known
  | missingField name => "missing field " ++ ticked name
  | duplicateField name => "duplicate field " ++ ticked name
  | invalidTypeRef text => ticked text ++ " is not a valid host type reference"

/-- The fault of finding a draft where something else was expected. -/
def unexpected (draft : Draft) (expected : String) : DecodeError :=
  match draft with
  | .null => wrongType "null" expected
  | .bool true => wrongType "boolean `true`" expected
  | .bool false => wrongType "boolean `false`" expected
  | .number (some (.int n)) => wrongType ("integer " ++ ticked (toString n)) expected
  | .number (some n) =>
    wrongType ("floating point " ++ ticked (String.ofList n.write)) expected
  | .string (some text) => wrongType ("string " ++ Text.quoteVisible text) expected
  | .array .. => wrongType "sequence" expected
  | .object .. => wrongType "map" expected
  | .number none | .string none | .broken => malformed

end DecodeError

end OperationAtlas
