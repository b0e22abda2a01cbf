import OperationAtlas.Number.Binary64

/-!
# TOML values

A table keeps its keys in the order in which they were written. Dates and times are kept as such,
without their parts.
-/

namespace OperationAtlas

/-- A TOML value. -/
inductive Toml
  | string (text : String)
  | integer (value : Int)
  /-- A double; nothing stands for a value that is not a number. -/
  | float (value : Option Binary64)
  | boolean (value : Bool)
  | datetime
  | array (items : List Toml)
  | table (entries : List (String × Toml))
  deriving Repr

end OperationAtlas
