import OperationAtlas.Catalog
import OperationAtlas.Config

/-!
# Documentation pages

A page is a JSON text in lines: the settings that describe the site, and behind them the catalog. A
link that is not set is null, and a record has an access note only if there is one.
-/

namespace OperationAtlas

/-- A parameter on a page. -/
def ParameterSummary.toJson (parameter : ParameterSummary) : Json :=
  .object [("name", .string parameter.name), ("type", .string parameter.type),
    ("example", .string parameter.exampleText), ("description", .string parameter.description),
    ("required", .bool parameter.required)]

/-- The record of an operation on a page. -/
def OperationRecord.toJson (record : OperationRecord) : Json :=
  .object (
    [("description", .string record.description), ("operation", .string record.operation),
      ("name", .string record.name), ("method_name", .string record.methodName),
      ("output_name", .string record.outputName),
      ("parameters", .array (record.parameters.map (·.toJson))),
      ("example_request", .string record.exampleRequest),
      ("example_response", .string record.exampleResponse)] ++
    record.accessNote.toList.map fun note => ("access_note", .string note))

/-- A group of operations on a page. -/
def OperationGroup.toJson (group : OperationGroup) : Json :=
  .object [("description", .string group.description), ("key", .string group.key),
    ("operations", .array (group.operations.map (·.toJson)))]

/-- A field on a page. -/
def FieldSummary.toJson (field : FieldSummary) : Json :=
  .object [("name", .string field.name), ("type", .string field.schemaType),
    ("primitive", .bool field.primitive), ("list", .bool field.list),
    ("required", .bool field.required), ("description", .string field.description),
    ("example", .string field.exampleText)]

/-- The documentation of a type on a page. -/
def TypeFields.toJson (fields : TypeFields) : Json :=
  .object [("name", .string fields.name), ("description", .ofOption fields.description),
    ("fields", .array (fields.fields.map (·.toJson)))]

/-- The parts of a catalog on a page. -/
def Catalog.toMembers (catalog : Catalog) : List (String × Json) :=
  [("groups", .object (catalog.groups.map fun (key, group) => (key, group.toJson))),
    ("object_types", .object (catalog.objectTypes.map fun (name, fields) => (name, fields.toJson))),
    ("schema_names", .object (catalog.schemaNames.map fun (name, type) => (name, .string type)))]

/-- The settings on a page. -/
def Config.toMembers (config : Config) : List (String × Json) :=
  [("endpoint", .string config.endpoint), ("title", .string config.title),
    ("description", .string config.description), ("app_version", .string config.appVersion),
    ("logo_url", .string config.logoUrl), ("site_url", .string config.siteUrl),
    ("support_link", .ofOption config.supportLink),
    ("twitter_link", .ofOption config.twitterLink),
    ("linkedin_link", .ofOption config.linkedinLink),
    ("instagram_link", .ofOption config.instagramLink)]

/-- The page of a catalog. -/
def Catalog.page (catalog : Catalog) (config : Config) : Json :=
  .object (config.toMembers ++ catalog.toMembers)

end OperationAtlas
