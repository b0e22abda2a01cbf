import OperationAtlas.Text.CaseMap

/-!
# Accessors and the operations they implement

An accessor implements the declared operation of its own name. Failing that, the getter convention
links `getOrders` and `orders` in both directions.
-/

namespace OperationAtlas

open Text

/-- The accessor name without a leading `get`. -/
def stripGet? : List Char → Option (List Char)
  | 'g' :: 'e' :: 't' :: rest => some rest
  | _ => none

/-- The operation names that an accessor may stand for, besides its own. -/
def getterCounterpart? (accessor : List Char) : Option (List Char) :=
  match stripGet? accessor with
  | some [] => none
  | some (first :: rest) => some (lower first ++ rest)
  | none =>
    match accessor with
    | [] => none
    | first :: rest => some ('g' :: 'e' :: 't' :: (upper first ++ rest))

/-- The declared operation that an accessor implements. -/
def reconcile? (isDeclared : String → Bool) (accessor : String) : Option String :=
  if isDeclared accessor then some accessor
  else match getterCounterpart? accessor.toList with
    | none => none
    | some name =>
      let candidate := String.ofList name
      if isDeclared candidate then some candidate else none

end OperationAtlas
