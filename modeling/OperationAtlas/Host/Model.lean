import OperationAtlas.Host.TypeRef
import OperationAtlas.Schema.OperationKind

/-!
# The host model

A host model describes the types behind a schema and the accessors that implement its operations. It
is plain data: nothing in it is checked against the schema, and not even its type names need be
distinct.
-/

namespace OperationAtlas

/-- The documentation of a field or a parameter. -/
structure MemberDoc where
  /-- Replaces the generated example. -/
  example? : Option String := none
  description : Option String := none
  required : Bool := false
  deriving DecidableEq, Repr

/-- The example that replaces the generated one: an empty text replaces nothing. -/
def MemberDoc.override? (doc : MemberDoc) : Option String :=
  doc.example?.filter (· ≠ "")

/-- A field of a host type, or a parameter of an accessor. -/
structure Member where
  name : String
  type : TypeRef
  doc : MemberDoc := {}
  deriving Repr

/-- What a host type is made of. -/
inductive HostShape
  | object (fields : List Member)
  | enumeration (variants : List String)
  deriving Repr

/-- A declared host type. -/
structure HostType where
  name : String
  description : Option String := none
  /-- The type whose fields this one inherits. -/
  parent : Option String := none
  shape : HostShape
  deriving Repr

/-- An accessor: it implements an operation if the schema declares one for its name. -/
structure Accessor where
  name : String
  /-- A free label of the operation. -/
  operation : String := ""
  description : String := ""
  returns : TypeRef
  parameters : List Member := []
  /-- An access expression. -/
  access : Option String := none
  deriving Repr

/-- The accessors of one host type for one kind of operations. -/
structure Group where
  typeName : String
  kind : OperationKind
  key : String := ""
  description : String := ""
  accessors : List Accessor := []
  deriving Repr

/-- The types and the groups of a host. -/
structure HostModel where
  types : List HostType := []
  groups : List Group := []
  deriving Repr

end OperationAtlas
