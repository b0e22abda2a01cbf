import OperationAtlas.Sample.Record

/-!
# Sessions part by part

A session keeps one sample for each walked type and writes it at once. A ledger keeps the parts of
the samples in maps of their own, next to the schema types and the running types. Each part is
written and looked up by itself: a part that is present stays as it is, and a nested object is shown
if all three of its parts are found. So it is not in the data of a ledger that its maps agree, or
that no type is running and walked at once.

A ledger also lists the types in the order in which the walks of their fields were entered. Nothing
reads the list.

The functions below do to a ledger what the functions of the same names do to a session.
-/

namespace OperationAtlas

/-- What a session has done so far, part by part. -/
structure Ledger where
  objectTypes : List (String × TypeFields) := []
  examples : List (String × Json) := []
  selections : List (String × String) := []
  argumentObjects : List (String × String) := []
  schemaNames : List (String × String) := []
  running : List String := []
  /-- The types whose walks were entered, the first one first. -/
  entered : List String := []
  deriving Repr

namespace Ledger

/-- Whether the walk of a type is neither running nor done. -/
def isUntouched (ledger : Ledger) (name : String) : Bool :=
  !ledger.running.contains name && !OrderedMap.contains name ledger.objectTypes

/-- The ledger when the walk of a type is entered. -/
def start (ledger : Ledger) (name schemaType : String) : Ledger :=
  { ledger with
    schemaNames := OrderedMap.putNew name schemaType ledger.schemaNames
    running := ledger.running.insert name
    entered := ledger.entered ++ [name] }

/-- The ledger after the walk of a type has ended. -/
def finish (ledger : Ledger) (name : String) (sample : Sample) : Ledger :=
  { ledger with
    running := ledger.running.filter (· ≠ name)
    examples := OrderedMap.putNew name sample.response ledger.examples
    selections := OrderedMap.putNew name sample.selection ledger.selections
    argumentObjects := OrderedMap.putNew name sample.argument ledger.argumentObjects
    objectTypes := OrderedMap.putNew name sample.fields ledger.objectTypes }

/-- The contribution of a field that leads to an object type. -/
def pieceFor (ledger : Ledger) (field : FieldDecl) (member : Member) (name : String)
    (depth : Nat) : Piece :=
  match OrderedMap.lookup name ledger.examples, OrderedMap.lookup name ledger.selections,
    OrderedMap.lookup name ledger.argumentObjects with
  | some response, some selection, some argument =>
    { summary := Piece.summarize field member false depth
      response := Json.nest depth response
      selection := member.name ++ " \x7b\n" ++ selection ++ "\n\x7d"
      argument := nestLiteral depth argument }
  | _, _, _ => .stub field member depth

/-- The outcome of a step that may fail and changes the ledger in any case; nothing if the step goes
down too deep. -/
abbrev Outcome (α : Type) := Option (Except DocError α × Ledger)

variable (around : Surroundings)

/-- The number of declared types that are neither walked nor running. -/
def untouchedCount (ledger : Ledger) : Nat :=
  (around.host.types.filter fun type => ledger.isUntouched type.name).length

/-- The contributions of schema fields in order, given how a nested object type is synthesized. -/
def walk (synthesizeNested : String → Origin → Ledger → Outcome (Option TypeFields))
    (hostType schemaType : String) : List FieldDecl → Ledger → Outcome (List Piece)
  | [], ledger => some (.ok [], ledger)
  | field :: fields, ledger =>
    match around.memberOf hostType schemaType field with
    | .error error => some (.error error, ledger)
    | .ok (member, element, depth, kind) =>
      match kind with
      | .leaf leaf =>
        match walk synthesizeNested hostType schemaType fields ledger with
        | some (.ok pieces, ledger) =>
          some (.ok (.ofLeaf field member leaf depth :: pieces), ledger)
        | other => other
      | _ =>
        match synthesizeNested element.simpleName (.nested field.type.name) ledger with
        | none => none
        | some (.error error, ledger) => some (.error error, ledger)
        | some (.ok _, ledger) =>
          let piece := ledger.pieceFor field member element.simpleName depth
          match walk synthesizeNested hostType schemaType fields ledger with
          | some (.ok pieces, ledger) => some (.ok (piece :: pieces), ledger)
          | other => other

/-- Walks the fields of an object type, given how a nested object type is synthesized. -/
def resolve (synthesizeNested : String → Origin → Ledger → Outcome (Option TypeFields))
    (operation : FieldDecl) (name : String) (origin : Origin) (ledger : Ledger) : Outcome Unit :=
  match around.host.get name with
  | .error error => some (.error error, ledger)
  | .ok type =>
    let ledger := ledger.start name (origin.schemaType operation)
    let schemaType := (OrderedMap.lookup name ledger.schemaNames).getD ""
    let fields := around.schema.describe schemaType
    match walk around synthesizeNested name schemaType fields ledger with
    | none => none
    | some (.error error, ledger) => some (.error error, ledger)
    | some (.ok pieces, ledger) =>
      some (.ok (), ledger.finish name (.ofPieces type schemaType pieces))

/-- Walks an object type unless its walk is running or done, with at most so many calls inside of
one another, this one included. Gives the type's documentation; nothing while its walk is
running. -/
def synthesize? (operation : FieldDecl) :
    Nat → String → Origin → Ledger → Outcome (Option TypeFields)
  | 0, _, _, _ => none
  | depth + 1, name, origin, ledger =>
    if ledger.running.contains name then some (.ok none, ledger)
    else if OrderedMap.contains name ledger.objectTypes then
      some (.ok (OrderedMap.lookup name ledger.objectTypes), ledger)
    else
      match resolve around (synthesize? operation depth) operation name origin ledger with
      | none => none
      | some (.error error, ledger) => some (.error error, ledger)
      | some (.ok (), ledger) => some (.ok (OrderedMap.lookup name ledger.objectTypes), ledger)

/-- Walks an object type, going down as deep as it takes. -/
def synthesize (operation : FieldDecl) (name : String) (origin : Origin) (ledger : Ledger) :
    Except DocError (Option TypeFields) × Ledger :=
  match synthesize? around operation (untouchedCount around ledger + 1) name origin ledger with
  | none => (.ok none, ledger)
  | some outcome => outcome

end Ledger

/-- A step that may fail and changes a ledger in any case. -/
abbrev LedgerStep (α : Type) := ExceptT DocError (StateM Ledger) α

namespace LedgerStep

variable {α : Type}

/-- A step that leaves the ledger alone. -/
def ofExcept (result : Except DocError α) : LedgerStep α :=
  ExceptT.mk fun ledger => (result, ledger)

/-- The outcome of a step. -/
def runOn (step : LedgerStep α) (ledger : Ledger) : Except DocError α × Ledger :=
  (step.run ledger).run

/-- A part that has to be there. -/
def recorded (operation : FieldDecl) : Option α → LedgerStep α
  | some part => return part
  | none => throw (.missingExample operation.name)

end LedgerStep

namespace Ledger

variable (around : Surroundings)

/-- Walks an object type, and gives the ledger in which its parts are to be found. -/
def afterWalk (operation : FieldDecl) (name : String) (origin : Origin) : LedgerStep Ledger := do
  let _ ← (ExceptT.mk fun ledger => synthesize around operation name origin ledger :
    LedgerStep (Option TypeFields))
  get

/-- The example value of a result with the host type below its lists, and the selections from it. -/
def resultOf (operation : FieldDecl) (owner : String) (accessor : Accessor) :
    LedgerStep (Json × String × Option String) := do
  let (element, depth) ← LedgerStep.ofExcept
    (HostTypes.unwrap accessor.returns owner accessor.name)
  match ← LedgerStep.ofExcept (around.host.kind element) with
  | .leaf leaf =>
    return (Json.nest depth (leaf.response none), element.simpleName, none)
  | _ =>
    let ledger ← afterWalk around operation element.simpleName .result
    let response ← LedgerStep.recorded operation
      (OrderedMap.lookup element.simpleName ledger.examples)
    let selection ← LedgerStep.recorded operation
      (OrderedMap.lookup element.simpleName ledger.selections)
    return (Json.nest depth response, element.simpleName, some selection)

/-- The literal that is passed for a parameter, and the parameter's documentation. -/
def argumentOf (operation : FieldDecl) (owner : String) (parameter : Member) :
    LedgerStep (String × ParameterSummary) := do
  let (element, depth) ← LedgerStep.ofExcept
    (HostTypes.unwrap parameter.type owner parameter.name)
  let literal ← match ← LedgerStep.ofExcept (around.host.kind element) with
    | .leaf leaf => pure (leaf.literal parameter.doc.override?)
    | _ => do
      let ledger ← afterWalk around operation element.simpleName (.parameter parameter.name)
      LedgerStep.recorded operation (OrderedMap.lookup element.simpleName ledger.argumentObjects)
  let summary : ParameterSummary :=
    { name := parameter.name
      type := ((operation.argument? parameter.name).map (·.name)).getD element.simpleName
      exampleText := parameter.doc.example?.getD ""
      description := parameter.doc.description.getD ""
      required := parameter.doc.required }
  return (parameter.name ++ ": " ++ nestLiteral depth literal, summary)

/-- The literals and the documentation of parameters in order. -/
def argumentsOf (operation : FieldDecl) (owner : String) :
    List Member → LedgerStep (List (String × ParameterSummary))
  | [] => return []
  | parameter :: parameters => do
    let first ← argumentOf around operation owner parameter
    let others ← argumentsOf operation owner parameters
    return first :: others

/-- The record of an accessor of the host type `owner` that implements an operation. -/
def assemble (kind : OperationKind) (owner : String) (operation : FieldDecl)
    (accessor : Accessor) : LedgerStep OperationRecord := do
  let (response, outputName, selection) ← resultOf around operation owner accessor
  let arguments ← argumentsOf around operation owner accessor.parameters
  let request ← LedgerStep.ofExcept (ExampleRequest.canonical kind
    (ExampleRequest.compose kind operation.name (arguments.map (·.1)) selection))
  return {
    description := accessor.description
    operation := accessor.operation
    name := operation.name
    methodName := accessor.name
    outputName := outputName
    parameters := arguments.map (·.2)
    exampleRequest := request
    exampleResponse := (Surroundings.envelope operation.name response).toPretty
    accessNote := (accessor.access.bind AccessRule.parse?).map (·.note) }

end Ledger

end OperationAtlas
