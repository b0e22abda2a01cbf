import OperationAtlas.Sample.Leaf
import OperationAtlas.Schema.Index

/-!
# Sessions

A session walks the host types next to the schema types behind them and keeps a sample of every
object type that it has walked: the summaries of its fields, an example value, the selection that
requests all its fields, and the object that passes it as an argument. Every host type is walked at
most once; the schema type behind it is the one under which it was first met.

A type that is met again while its own walk is running is not walked a second time. The field that
leads to it selects `__typename`, and so the samples stay finite on circular types. A walk that
fails leaves its type marked as running.

The walk goes down through types that are neither walked nor running, so the number of such types
bounds its depth: `visit?` is given a depth, and `synthesize` gives it enough.
-/

namespace OperationAtlas

/-- The documentation of a field of a walked type. -/
structure FieldSummary where
  name : String
  /-- The schema type of the field without lists and marks. -/
  schemaType : String
  /-- Whether the field is a leaf. -/
  primitive : Bool
  list : Bool
  required : Bool
  description : String
  /-- The example text as it is given. -/
  exampleText : String
  deriving DecidableEq, Repr

/-- The documentation of a walked type. -/
structure TypeFields where
  name : String
  description : Option String
  fields : List FieldSummary
  deriving DecidableEq, Repr

/-- What a session keeps of a walked type. -/
structure Sample where
  fields : TypeFields
  response : Json
  selection : String
  argument : String
  deriving Repr

/-- Where a host type is met. It decides which schema type stands behind it. -/
inductive Origin
  /-- The result of an operation. -/
  | result
  /-- A parameter. A name that is no argument of the operation is taken for a schema type. -/
  | parameter (name : String)
  /-- A field of the given schema type. -/
  | nested (schemaType : String)
  deriving DecidableEq, Repr

/-- The schema type that stands behind a host type that is met in the course of an operation. -/
def Origin.schemaType (operation : FieldDecl) : Origin → String
  | result => operation.type.name
  | parameter name => ((operation.argument? name).map (·.name)).getD name
  | nested schemaType => schemaType

/-- What a field contributes to the sample of its type. -/
structure Piece where
  summary : FieldSummary
  response : Json
  selection : String
  argument : String
  deriving Repr

/-- The field that is selected when there is nothing else to select. -/
def typenameField : String := "__typename"

/-- A literal in the given number of lists. -/
def nestLiteral : Nat → String → String
  | 0, literal => literal
  | depth + 1, literal => "[" ++ nestLiteral depth literal ++ "]"

namespace Piece

/-- The summary of a field, for a host member in so many lists. -/
def summarize (field : FieldDecl) (member : Member) (primitive : Bool) (depth : Nat) :
    FieldSummary where
  name := member.name
  schemaType := field.type.name
  primitive := primitive
  list := 0 < depth
  required := member.doc.required
  description := member.doc.description.getD ""
  exampleText := member.doc.example?.getD ""

/-- The contribution of a leaf. -/
def ofLeaf (field : FieldDecl) (member : Member) (leaf : Leaf) (depth : Nat) : Piece where
  summary := summarize field member true depth
  response := Json.nest depth (leaf.response member.doc.override?)
  selection := member.name
  argument := nestLiteral depth (leaf.literal member.doc.override?)

/-- The contribution of an object with a sample. -/
def ofSample (field : FieldDecl) (member : Member) (sample : Sample) (depth : Nat) : Piece where
  summary := summarize field member false depth
  response := Json.nest depth sample.response
  selection := member.name ++ " \x7b\n" ++ sample.selection ++ "\n\x7d"
  argument := nestLiteral depth sample.argument

/-- The contribution of an object without a sample. -/
def stub (field : FieldDecl) (member : Member) (depth : Nat) : Piece where
  summary := summarize field member false depth
  response := Json.nest depth (.object [(typenameField, .string field.type.name)])
  selection := member.name ++ " \x7b\n" ++ typenameField ++ "\n\x7d"
  argument := nestLiteral depth "\x7b\x7d"

end Piece

/-- The sample of a type with the given contributions. A type without fields selects its name. -/
def Sample.ofPieces (type : HostType) (schemaType : String) (pieces : List Piece) : Sample where
  fields := ⟨type.name, type.description, pieces.map (·.summary)⟩
  response :=
    if pieces.isEmpty then .object [(typenameField, .string schemaType)]
    else .object (OrderedMap.ofPairs (pieces.map fun p => (p.summary.name, p.response)))
  selection :=
    if pieces.isEmpty then typenameField
    else "\n".intercalate (pieces.map (·.selection))
  argument :=
    if pieces.isEmpty then "\x7b\x7d"
    else "\x7b " ++
      ", ".intercalate (pieces.map fun p => p.summary.name ++ ": " ++ p.argument) ++ " \x7d"

/-- What a session has done so far. -/
structure Session where
  /-- The walked types in the order in which their walks ended. -/
  samples : List (String × Sample) := []
  /-- The schema types behind the host types in the order in which these were met. -/
  schemaNames : List (String × String) := []
  /-- The types whose walks have started and not ended. -/
  running : List String := []
  deriving Repr

namespace Session

/-- The sample of a walked type. -/
def sample? (session : Session) (name : String) : Option Sample :=
  OrderedMap.lookup name session.samples

/-- The schema type behind a host type that was met. -/
def schemaName? (session : Session) (name : String) : Option String :=
  OrderedMap.lookup name session.schemaNames

/-- Whether the walk of a type is neither running nor done. -/
def isUntouched (session : Session) (name : String) : Bool :=
  !session.running.contains name && (session.sample? name).isNone

/-- The session after the walk of a type has started. The schema type under which the type was first
met stays. -/
def start (session : Session) (name schemaType : String) : Session :=
  { session with
    schemaNames := OrderedMap.putNew name schemaType session.schemaNames
    running := name :: session.running }

/-- The session after the walk of a type has ended. -/
def finish (session : Session) (name : String) (sample : Sample) : Session :=
  { session with
    samples := OrderedMap.putNew name sample session.samples
    running := session.running.filter (· ≠ name) }

end Session

/-- What the parts of a walk need to know. -/
structure Surroundings where
  schema : SchemaIndex
  host : HostTypes

namespace Surroundings

variable (around : Surroundings)

/-- The number of declared types that a session has not touched. -/
def untouchedCount (session : Session) : Nat :=
  (around.host.types.filter fun type => session.isUntouched type.name).length

/-- The host member behind a schema field, with the type below its lists and their number. -/
def memberOf (hostType schemaType : String) (field : FieldDecl) :
    Except DocError (Member × TypeRef × Nat × TypeKind) := do
  match ← around.host.field? hostType field.name with
  | none => .error (.schemaDrift hostType schemaType field.name)
  | some member => do
    let (element, depth) ← HostTypes.unwrap member.type hostType member.name
    let kind ← around.host.kind element
    .ok (member, element, depth, kind)

/-- The outcome of a step that may fail and changes the session in any case; nothing if the step
goes down too deep. -/
abbrev Outcome (α : Type) := Option (Except DocError α × Session)

/-- The contributions of schema fields in order, given the walk of an object type that a field leads
to through a schema type. -/
def walk (visitNested : String → Origin → Session → Outcome Unit) (hostType schemaType : String) :
    List FieldDecl → Session → Outcome (List Piece)
  | [], session => some (.ok [], session)
  | field :: fields, session =>
    match around.memberOf hostType schemaType field with
    | .error error => some (.error error, session)
    | .ok (member, element, depth, kind) =>
      match kind with
      | .leaf leaf =>
        match walk visitNested hostType schemaType fields session with
        | some (.ok pieces, session) =>
          some (.ok (.ofLeaf field member leaf depth :: pieces), session)
        | other => other
      | _ =>
        match visitNested element.simpleName (.nested field.type.name) session with
        | none => none
        | some (.error error, session) => some (.error error, session)
        | some (.ok (), session) =>
          let piece := match session.sample? element.simpleName with
            | some sample => Piece.ofSample field member sample depth
            | none => Piece.stub field member depth
          match walk visitNested hostType schemaType fields session with
          | some (.ok pieces, session) => some (.ok (piece :: pieces), session)
          | other => other

/-- Walks an object type that is not touched yet, going down at most so deep. -/
def visit? (operation : FieldDecl) : Nat → String → Origin → Session → Outcome Unit
  | 0, _, _, _ => none
  | depth + 1, name, origin, session =>
    if session.isUntouched name then
      match around.host.get name with
      | .error error => some (.error error, session)
      | .ok type =>
        let session := session.start name (origin.schemaType operation)
        let schemaType := (session.schemaName? name).getD ""
        let fields := around.schema.describe schemaType
        match around.walk (visit? operation depth) name schemaType fields session with
        | none => none
        | some (.error error, session) => some (.error error, session)
        | some (.ok pieces, session) =>
          some (.ok (), session.finish name (.ofPieces type schemaType pieces))
    else some (.ok (), session)

/-- Walks an object type that is not touched yet, and gives its documentation; nothing for a type
whose walk is running. -/
def synthesize (operation : FieldDecl) (name : String) (origin : Origin) (session : Session) :
    Except DocError (Option TypeFields) × Session :=
  match around.visit? operation (around.untouchedCount session + 1) name origin session with
  | none => (.ok none, session)
  | some (.error error, session) => (.error error, session)
  | some (.ok (), session) => (.ok ((session.sample? name).map (·.fields)), session)

end Surroundings

end OperationAtlas
