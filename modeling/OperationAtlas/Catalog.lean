import OperationAtlas.Naming
import OperationAtlas.Sample.Record

/-!
# Catalogs

A catalog documents every accessor of a host model that implements a declared operation: queries
first, then mutations, then subscriptions, and within a kind in the order of the model. All records
share one session, whose samples and schema types the catalog also holds. Groups whose keys differ
only in blanks and underscores are one group, under the key and the description of the first.
-/

namespace OperationAtlas

/-- The operations that are documented together. -/
structure OperationGroup where
  description : String
  key : String
  operations : List OperationRecord
  deriving DecidableEq, Repr

/-- The documentation of a schema. -/
structure Catalog where
  /-- The groups by their keys without blanks. -/
  groups : List (String × OperationGroup) := []
  /-- The documentation of the walked types by host type. -/
  objectTypes : List (String × TypeFields) := []
  /-- The schema types by host type. -/
  schemaNames : List (String × String) := []
  deriving DecidableEq, Repr

/-- The key under which a group is found: its own with underscores for blanks. -/
def groupKey (key : String) : String :=
  String.ofList (key.toList.map fun c => if c = ' ' then '_' else c)

/-- The documentation of the walked types. -/
def Session.objectTypes (session : Session) : List (String × TypeFields) :=
  session.samples.map fun (name, sample) => (name, sample.fields)

namespace Surroundings

variable (around : Surroundings)

/-- The operation of a name; of several the one that is declared last. -/
def operation? (kind : OperationKind) (name : String) : Option FieldDecl :=
  (around.schema.operations kind).reverse.find? (·.name == name)

/-- The operation that an accessor implements. -/
def implemented? (kind : OperationKind) (accessor : Accessor) : Option FieldDecl :=
  (reconcile? (fun name => (around.operation? kind name).isSome) accessor.name).bind
    (around.operation? kind)

/-- The records of accessors in order. Accessors that implement nothing have none. -/
def recordsOf (kind : OperationKind) (owner : String) :
    List Accessor → SessionStep (List OperationRecord)
  | [] => return []
  | accessor :: accessors =>
    match around.implemented? kind accessor with
    | none => recordsOf kind owner accessors
    | some operation => do
      let first ← around.assemble kind owner operation accessor
      let others ← recordsOf kind owner accessors
      return first :: others

/-- The records of groups in order, each list beside its group. -/
def documentGroups :
    List Group → SessionStep (List (Group × List OperationRecord))
  | [] => return []
  | group :: groups => do
    let records ← around.recordsOf group.kind group.typeName group.accessors
    let others ← documentGroups groups
    return (group, records) :: others

end Surroundings

namespace Catalog

/-- The groups of a model in the order in which they are documented. -/
def orderedGroups (model : HostModel) : List Group :=
  OperationKind.all.flatMap fun kind => model.groups.filter (·.kind == kind)

/-- Adds the records of a group to the group of the same key. -/
def addRecords (groups : List (String × OperationGroup)) (entry : Group × List OperationRecord) :
    List (String × OperationGroup) :=
  OrderedMap.adjust (groupKey entry.1.key) ⟨entry.1.description, entry.1.key, []⟩
    (fun group => { group with operations := group.operations ++ entry.2 }) groups

/-- The catalog of a schema and a host model. -/
def build (schema : SchemaIndex) (model : HostModel) : Except DocError Catalog := do
  let host ← HostTypes.ofModel model
  let around : Surroundings := ⟨schema, host⟩
  match (around.documentGroups (orderedGroups model)).runOn {} with
  | (.error error, _) => .error error
  | (.ok documented, session) =>
    .ok
      { groups := documented.foldl addRecords []
        objectTypes := session.objectTypes
        schemaNames := session.schemaNames }

end Catalog

end OperationAtlas
