/-!
# Maps that keep the order of insertion

A map is a list of pairs with distinct keys, in the order in which the keys were first written.
`lookup` is a view of the map, and each way to write says what it does to the view: `put` overwrites
the value of a key that is present and leaves the key in its place, `putNew` keeps the first value.
-/

namespace OperationAtlas.OrderedMap

variable {α : Type}

/-- The value of a key. -/
def lookup (key : String) : List (String × α) → Option α
  | [] => none
  | (k, v) :: rest => if k = key then some v else lookup key rest

/-- Whether a key is present. -/
def contains (key : String) (entries : List (String × α)) : Bool :=
  (lookup key entries).isSome

/-- Sets the value of a key. A new key goes to the end. -/
def put (key : String) (value : α) : List (String × α) → List (String × α)
  | [] => [(key, value)]
  | (k, v) :: rest => if k = key then (k, value) :: rest else (k, v) :: put key value rest

/-- Sets the value of a key that is not present. A present key keeps its value. -/
def putNew (key : String) (value : α) (entries : List (String × α)) : List (String × α) :=
  if contains key entries then entries else entries ++ [(key, value)]

/-- Changes the value of a key. A new key goes to the end, with the change of `fallback`. -/
def adjust (key : String) (fallback : α) (change : α → α) :
    List (String × α) → List (String × α)
  | [] => [(key, change fallback)]
  | (k, v) :: rest =>
    if k = key then (k, change v) :: rest else (k, v) :: adjust key fallback change rest

/-- The map that results from writing pairs one after the other. -/
def ofPairs (pairs : List (String × α)) : List (String × α) :=
  pairs.foldl (fun entries (key, value) => put key value entries) []

end OperationAtlas.OrderedMap
