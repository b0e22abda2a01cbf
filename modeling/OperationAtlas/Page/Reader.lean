import OperationAtlas.Json.Draft
import OperationAtlas.Page

/-!
# Reading documentation pages

`Page.ofJson?` reads the settings and the catalog from the value of a page. It is strict: a member
that is missing or of another kind makes the page unreadable. Only the access note of a record may
be missing, and then it must not be null; a link is always there and null if it is not set.
-/

namespace OperationAtlas

namespace Json

variable {α : Type}

/-- A string. -/
def text? : Json → Option String
  | string text => some text
  | _ => none

/-- A truth value. -/
def flag? : Json → Option Bool
  | bool value => some value
  | _ => none

/-- A string, or null for nothing. -/
def label? : Json → Option (Option String)
  | null => some none
  | string text => some (some text)
  | _ => none

/-- A list whose items are read one by one. -/
def list? (read : Json → Option α) : Json → Option (List α)
  | array items => items.mapM read
  | _ => none

/-- An object whose members are read one by one, in their order. -/
def entries? (read : Json → Option α) : Json → Option (List (String × α))
  | object members => members.mapM fun (key, value) => (read value).map (key, ·)
  | _ => none

/-- The value of a member of an object. -/
def member? (key : String) : Json → Option Json
  | object members => OrderedMap.lookup key members
  | _ => none

/-- A member that is there. -/
def required? (value : Json) (key : String) (read : Json → Option α) : Option α :=
  (value.member? key).bind read

/-- A member that may be missing. -/
def optional? (value : Json) (key : String) (read : Json → Option α) : Option (Option α) :=
  match value.member? key with
  | none => some none
  | some value => (read value).map some

end Json

/-- A parameter of a page. -/
def ParameterSummary.ofJson? (value : Json) : Option ParameterSummary := do
  some {
    name := ← value.required? "name" Json.text?
    type := ← value.required? "type" Json.text?
    exampleText := ← value.required? "example" Json.text?
    description := ← value.required? "description" Json.text?
    required := ← value.required? "required" Json.flag? }

/-- The record of an operation of a page. -/
def OperationRecord.ofJson? (value : Json) : Option OperationRecord := do
  some {
    description := ← value.required? "description" Json.text?
    operation := ← value.required? "operation" Json.text?
    name := ← value.required? "name" Json.text?
    methodName := ← value.required? "method_name" Json.text?
    outputName := ← value.required? "output_name" Json.text?
    parameters := ← value.required? "parameters" (Json.list? ParameterSummary.ofJson?)
    exampleRequest := ← value.required? "example_request" Json.text?
    exampleResponse := ← value.required? "example_response" Json.text?
    accessNote := ← value.optional? "access_note" Json.text? }

/-- A group of operations of a page. -/
def OperationGroup.ofJson? (value : Json) : Option OperationGroup := do
  some {
    description := ← value.required? "description" Json.text?
    key := ← value.required? "key" Json.text?
    operations := ← value.required? "operations" (Json.list? OperationRecord.ofJson?) }

/-- A field of a page. -/
def FieldSummary.ofJson? (value : Json) : Option FieldSummary := do
  some {
    name := ← value.required? "name" Json.text?
    schemaType := ← value.required? "type" Json.text?
    primitive := ← value.required? "primitive" Json.flag?
    list := ← value.required? "list" Json.flag?
    required := ← value.required? "required" Json.flag?
    description := ← value.required? "description" Json.text?
    exampleText := ← value.required? "example" Json.text? }

/-- The documentation of a type of a page. -/
def TypeFields.ofJson? (value : Json) : Option TypeFields := do
  some {
    name := ← value.required? "name" Json.text?
    description := ← value.required? "description" Json.label?
    fields := ← value.required? "fields" (Json.list? FieldSummary.ofJson?) }

/-- The catalog of a page. -/
def Catalog.ofJson? (value : Json) : Option Catalog := do
  some {
    groups := ← value.required? "groups" (Json.entries? OperationGroup.ofJson?)
    objectTypes := ← value.required? "object_types" (Json.entries? TypeFields.ofJson?)
    schemaNames := ← value.required? "schema_names" (Json.entries? Json.text?) }

/-- What a page holds: the settings of the site and the catalog. -/
structure Page where
  endpoint : String
  title : String
  description : String
  appVersion : String
  logoUrl : String
  siteUrl : String
  supportLink : Option String
  twitterLink : Option String
  linkedinLink : Option String
  instagramLink : Option String
  catalog : Catalog
  deriving DecidableEq, Repr

namespace Page

/-- The settings of a configuration next to a catalog. -/
def of (config : Config) (catalog : Catalog) : Page where
  endpoint := config.endpoint
  title := config.title
  description := config.description
  appVersion := config.appVersion
  logoUrl := config.logoUrl
  siteUrl := config.siteUrl
  supportLink := config.supportLink
  twitterLink := config.twitterLink
  linkedinLink := config.linkedinLink
  instagramLink := config.instagramLink
  catalog := catalog

/-- What the value of a page holds. -/
def ofJson? (value : Json) : Option Page := do
  some {
    endpoint := ← value.required? "endpoint" Json.text?
    title := ← value.required? "title" Json.text?
    description := ← value.required? "description" Json.text?
    appVersion := ← value.required? "app_version" Json.text?
    logoUrl := ← value.required? "logo_url" Json.text?
    siteUrl := ← value.required? "site_url" Json.text?
    supportLink := ← value.required? "support_link" Json.label?
    twitterLink := ← value.required? "twitter_link" Json.label?
    linkedinLink := ← value.required? "linkedin_link" Json.label?
    instagramLink := ← value.required? "instagram_link" Json.label?
    catalog := ← Catalog.ofJson? value }

/-- What the text of a page holds. -/
def parse? (text : String) : Option Page :=
  (Json.parse? text).bind ofJson?

end Page

end OperationAtlas
