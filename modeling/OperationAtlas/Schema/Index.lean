import OperationAtlas.Error
import OperationAtlas.Graphql.SchemaDocument
import OperationAtlas.OrderedMap

/-!
# The index of a schema

An index answers two questions about any number of merged schema sources: which fields a type has,
and which operations a schema offers. Definitions and extensions of one name add up in the order in
which they stand, whatever their kind, and so it does not matter which of them is called an
extension. The operations of a kind are the fields of its root type. The last block that names a
root counts.
-/

namespace OperationAtlas

open Graphql

/-- A type as a field refers to it: its name, whether some level of it is never null, and whether
some level of it is a list. -/
structure SchemaTypeRef where
  name : String
  nonNull : Bool
  list : Bool
  deriving DecidableEq, Repr

/-- What a type expression says. -/
def SchemaTypeRef.ofExpr : TypeExpr → SchemaTypeRef
  | .named name => ⟨name, false, false⟩
  | .list inner => { SchemaTypeRef.ofExpr inner with list := true }
  | .nonNull inner => { SchemaTypeRef.ofExpr inner with nonNull := true }

/-- A field of a type with the arguments that it takes. A field of a root type is an operation. -/
structure FieldDecl where
  name : String
  type : SchemaTypeRef
  arguments : List (String × SchemaTypeRef)
  deriving DecidableEq, Repr

namespace FieldDecl

/-- The field that a definition declares. An argument that is declared twice keeps its first place
and takes its last type. -/
def ofDefinition (field : FieldDefinition) : FieldDecl where
  name := field.name
  type := .ofExpr field.type
  arguments := OrderedMap.ofPairs (field.arguments.map fun (name, type) => (name, .ofExpr type))

/-- The type of an argument. -/
def argument? (field : FieldDecl) (name : String) : Option SchemaTypeRef :=
  OrderedMap.lookup name field.arguments

end FieldDecl

/-- The names of the three root types. -/
structure RootNames where
  query : String := OperationKind.query.defaultRoot
  mutation : String := OperationKind.mutation.defaultRoot
  subscription : String := OperationKind.subscription.defaultRoot
  deriving DecidableEq, Repr

/-- The name of one root type. -/
def RootNames.of (roots : RootNames) : OperationKind → String
  | .query => roots.query
  | .mutation => roots.mutation
  | .subscription => roots.subscription

/-- The fields of all types and the names of the roots. -/
structure SchemaIndex where
  types : List (String × List FieldDecl) := []
  roots : RootNames := {}
  deriving Repr

namespace SchemaIndex

/-- Adds a definition. -/
def addDefinition (index : SchemaIndex) : Definition → SchemaIndex
  | .fielded _ _ name fields =>
    { index with
      types := OrderedMap.adjust name [] (· ++ fields.map .ofDefinition) index.types }
  | .roots query mutation subscription =>
    { index with
      roots :=
        { query := query.getD index.roots.query
          mutation := mutation.getD index.roots.mutation
          subscription := subscription.getD index.roots.subscription } }
  | .other => index

/-- Adds the definitions of a document. -/
def addDocument (index : SchemaIndex) (document : SchemaDocument) : SchemaIndex :=
  document.foldl addDefinition index

/-- Adds sources, each with the name of its origin, up to the first that cannot be read. -/
def addSources (index : SchemaIndex) : List (String × String) → Except DocError SchemaIndex
  | [] => .ok index
  | (origin, text) :: sources =>
    match SchemaDocument.parse text with
    | .error position => .error (.schemaParse origin position)
    | .ok document => addSources (index.addDocument document) sources

/-- The index of sources, each with the name of its origin. -/
def ofSources (sources : List (String × String)) : Except DocError SchemaIndex :=
  addSources {} sources

/-- The index of a single text. -/
def parse (text : String) : Except DocError SchemaIndex :=
  ofSources [("schema", text)]

/-- The fields of a type. A type without fields, and a name of no type, has none. -/
def describe (index : SchemaIndex) (name : String) : List FieldDecl :=
  (OrderedMap.lookup name index.types).getD []

/-- The operations of a kind in the order of their declaration. -/
def operations (index : SchemaIndex) (kind : OperationKind) : List FieldDecl :=
  index.describe (index.roots.of kind)

end SchemaIndex

end OperationAtlas
