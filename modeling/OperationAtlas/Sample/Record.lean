import OperationAtlas.Access
import OperationAtlas.Json.Printer
import OperationAtlas.Sample.Request
import OperationAtlas.Sample.Session

/-!
# Records of operations

A record documents one operation and the accessor that implements it: an example request, an example
response in its envelope, and the parameters. The types of the result and of the parameters are
walked in the session on the way, in this order, so a record that fails may still have changed the
session.
-/

namespace OperationAtlas

/-- The documentation of a parameter. -/
structure ParameterSummary where
  name : String
  /-- The schema type of the argument, or the name of the host type if the operation has no such
  argument. -/
  type : String
  exampleText : String
  description : String
  required : Bool
  deriving DecidableEq, Repr

/-- The documentation of an operation. -/
structure OperationRecord where
  description : String
  /-- The free label of the accessor. -/
  operation : String
  /-- The name of the operation in the schema. -/
  name : String
  /-- The name of the accessor. -/
  methodName : String
  /-- The host type of the result below all lists. -/
  outputName : String
  parameters : List ParameterSummary
  exampleRequest : String
  exampleResponse : String
  accessNote : Option String
  deriving DecidableEq, Repr

/-- A step that may fail and changes a session in any case. -/
abbrev SessionStep (α : Type) := ExceptT DocError (StateM Session) α

namespace SessionStep

/-- A step that leaves the session alone. -/
def ofExcept {α : Type} (result : Except DocError α) : SessionStep α :=
  ExceptT.mk fun session => (result, session)

/-- The outcome of a step. -/
def runOn {α : Type} (step : SessionStep α) (session : Session) : Except DocError α × Session :=
  (step.run session).run

end SessionStep

namespace Surroundings

variable (around : Surroundings)

/-- Walks an object type, and gives its sample. -/
def sampleOf (operation : FieldDecl) (name : String) (origin : Origin) : SessionStep Sample := do
  let _ ← (ExceptT.mk fun session => around.synthesize operation name origin session :
    SessionStep (Option TypeFields))
  let session ← get
  match session.sample? name with
  | some sample => return sample
  | none => throw (.missingExample operation.name)

/-- The example value of a result with the host type below its lists, and the selections from it. -/
def resultOf (operation : FieldDecl) (owner : String) (accessor : Accessor) :
    SessionStep (Json × String × Option String) := do
  let (element, depth) ← SessionStep.ofExcept
    (HostTypes.unwrap accessor.returns owner accessor.name)
  match ← SessionStep.ofExcept (around.host.kind element) with
  | .leaf leaf =>
    return (Json.nest depth (leaf.response none), element.simpleName, none)
  | _ =>
    let sample ← around.sampleOf operation element.simpleName .result
    return (Json.nest depth sample.response, element.simpleName, some sample.selection)

/-- The literal that is passed for a parameter, and the parameter's documentation. -/
def argumentOf (operation : FieldDecl) (owner : String) (parameter : Member) :
    SessionStep (String × ParameterSummary) := do
  let (element, depth) ← SessionStep.ofExcept
    (HostTypes.unwrap parameter.type owner parameter.name)
  let literal ← match ← SessionStep.ofExcept (around.host.kind element) with
    | .leaf leaf => pure (leaf.literal parameter.doc.override?)
    | _ => do
      let sample ← around.sampleOf operation element.simpleName (.parameter parameter.name)
      pure sample.argument
  let summary : ParameterSummary :=
    { name := parameter.name
      type := ((operation.argument? parameter.name).map (·.name)).getD element.simpleName
      exampleText := parameter.doc.example?.getD ""
      description := parameter.doc.description.getD ""
      required := parameter.doc.required }
  return (parameter.name ++ ": " ++ nestLiteral depth literal, summary)

/-- The literals and the documentation of parameters in order. -/
def argumentsOf (operation : FieldDecl) (owner : String) :
    List Member → SessionStep (List (String × ParameterSummary))
  | [] => return []
  | parameter :: parameters => do
    let first ← around.argumentOf operation owner parameter
    let others ← argumentsOf operation owner parameters
    return first :: others

/-- The value of an example response: the result under the name of its operation, in an envelope. -/
def envelope (name : String) (response : Json) : Json :=
  .object [("data", .object [(name, response)])]

/-- The record of an accessor of the host type `owner` that implements an operation. -/
def assemble (kind : OperationKind) (owner : String) (operation : FieldDecl)
    (accessor : Accessor) : SessionStep OperationRecord := do
  let (response, outputName, selection) ← around.resultOf operation owner accessor
  let arguments ← around.argumentsOf operation owner accessor.parameters
  let request ← SessionStep.ofExcept (ExampleRequest.canonical kind
    (ExampleRequest.compose kind operation.name (arguments.map (·.1)) selection))
  return {
    description := accessor.description
    operation := accessor.operation
    name := operation.name
    methodName := accessor.name
    outputName := outputName
    parameters := arguments.map (·.2)
    exampleRequest := request
    exampleResponse := (envelope operation.name response).toPretty
    accessNote := (accessor.access.bind AccessRule.parse?).map (·.note) }

end Surroundings

end OperationAtlas
