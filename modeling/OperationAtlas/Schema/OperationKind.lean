/-!
# Kinds of operations

A schema has three roots, one for each kind of operation.
-/

namespace OperationAtlas

/-- The three kinds of operations. -/
inductive OperationKind
  | query
  | mutation
  | subscription
  deriving DecidableEq, Repr

namespace OperationKind

/-- All kinds, in the order in which they are documented. -/
def all : List OperationKind := [query, mutation, subscription]

/-- The word that opens an operation of this kind in a request. -/
def keyword : OperationKind → String
  | query => "query"
  | mutation => "mutation"
  | subscription => "subscription"

/-- The kind of a given keyword. -/
def ofKeyword? (word : String) : Option OperationKind :=
  all.find? fun kind => kind.keyword == word

/-- The name of the root type unless the schema gives another. -/
def defaultRoot : OperationKind → String
  | query => "Query"
  | mutation => "Mutation"
  | subscription => "Subscription"

end OperationKind

end OperationAtlas
