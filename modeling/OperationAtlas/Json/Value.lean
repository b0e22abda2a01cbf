import OperationAtlas.Number.Binary64

/-!
# JSON values

A number is an integer of the 64-bit ranges, signed or unsigned, or a double. The members of an
object are an ordered map.
-/

namespace OperationAtlas

/-- A JSON number. -/
inductive JsonNumber
  | int (value : Int)
  | double (value : Binary64)
  deriving DecidableEq, Repr

/-- A JSON value. -/
inductive Json
  | null
  | bool (value : Bool)
  | number (value : JsonNumber)
  | string (value : String)
  | array (items : List Json)
  | object (members : List (String × Json))
  deriving Repr

namespace Json

/-- A string, or null for nothing. -/
def ofOption : Option String → Json
  | none => null
  | some text => string text

/-- A value inside the given number of lists of one item each. -/
def nest : Nat → Json → Json
  | 0, value => value
  | depth + 1, value => array [nest depth value]

end Json

end OperationAtlas
