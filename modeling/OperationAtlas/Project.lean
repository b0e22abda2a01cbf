import OperationAtlas.Host.Decode
import OperationAtlas.Page
import OperationAtlas.SchemaFiles

/-!
# Projects

A project is a directory with schema files and a host model. `Project.page` reads them and gives the
text of the documentation page: the schema files are read in the order of their paths, and each is
named by its path in faults of its text. `ProjectError.message` is what is said about a failure.
-/

namespace OperationAtlas

/-- Why a file has no text. -/
inductive ReadFault
  | missing
  | isDirectory
  | notText
  deriving DecidableEq, Repr

/-- The message of a file without text. -/
def ReadFault.message : ReadFault → String
  | missing => "No such file or directory (os error 2)"
  | isDirectory => "Is a directory (os error 21)"
  | notText => "stream did not contain valid UTF-8"

/-- The text of the file that a path leads to. -/
def Files.read (files : Files) (working : Location) (path : String) : Except ReadFault String :=
  match files.locate? working path with
  | none => .error .missing
  | some location =>
    if files.isFile location then
      match files.text? location with
      | some text => .ok text
      | none => .error .notText
    else if files.isDirectory location then .error .isDirectory
    else .error .missing

/-- Why a project has no documentation page. -/
inductive ProjectError
  | unreadableConfig (path : String) (fault : ReadFault)
  | invalidConfig (error : ConfigError)
  /-- The pattern of the schema files is no glob. -/
  | invalidPattern (pattern : String)
  /-- The root cannot be searched. -/
  | unsearchable
  | noSchemaFiles (root pattern : String)
  | unreadableSchema (path : String) (fault : ReadFault)
  | unreadableModel (path : String) (fault : ReadFault)
  | invalidModel (path : String) (error : DecodeError)
  | undocumented (error : DocError)
  /-- The page cannot be written. -/
  | unwritable (path : String)

/-- The message of a failure. -/
def ProjectError.message : ProjectError → String
  | unreadableConfig path fault =>
    "could not read the configuration file " ++ path ++ ": " ++ fault.message
  | invalidConfig error => error.message
  | invalidPattern pattern => "invalid schema location pattern '" ++ pattern ++ "'"
  | unsearchable => "could not search for schema files"
  | noSchemaFiles root pattern => "no schema file in '" ++ root ++ "' matches '" ++ pattern ++ "'"
  | unreadableSchema path fault =>
    "could not read the schema file '" ++ path ++ "'\nCaused by: " ++ fault.message
  | unreadableModel path fault =>
    "could not read the host model '" ++ path ++ "'\nCaused by: " ++ fault.message
  | invalidModel path error =>
    "could not parse the host model '" ++ path ++ "'\nCaused by: " ++ error.message
  | undocumented error => error.message
  | unwritable path => "could not write the documentation page to '" ++ path ++ "'"

/-- A project: the root is a path from the working directory. -/
structure Project where
  files : Files
  working : Location
  root : String
  config : Config := {}

namespace Project

/-- The settings in the file that a path leads to. -/
def loadConfig (files : Files) (working : Location) (path : String) :
    Except ProjectError Config := do
  let text ← (files.read working path).mapError (.unreadableConfig path)
  (Config.parse text).mapError .invalidConfig

/-- The schema files, each with its path and location. -/
def schemaFiles (project : Project) : Except ProjectError (List (String × Location)) :=
  let pattern := project.config.schemaPattern
  (project.files.schemaFiles project.working project.root pattern).mapError fun error =>
    match error with
    | .invalidPattern => .invalidPattern pattern
    | .unsearchable => .unsearchable
    | .noMatch => .noSchemaFiles project.root pattern

/-- The paths and the texts of schema files. -/
def sources (project : Project) (found : List (String × Location)) :
    Except ProjectError (List (String × String)) :=
  found.mapM fun (path, location) =>
    match project.files.text? location with
    | some text => .ok (path, text)
    | none => .error (.unreadableSchema path .notText)

/-- The host model. -/
def hostModel (project : Project) : Except ProjectError HostModel := do
  let path := Files.join project.root project.config.hostModel
  let text ← (project.files.read project.working path).mapError (.unreadableModel path)
  (HostModel.parse text).mapError (.invalidModel path)

/-- The catalog of the operations. -/
def catalog (project : Project) : Except ProjectError Catalog := do
  let sources ← project.sources (← project.schemaFiles)
  let schema ← (SchemaIndex.ofSources sources).mapError .undocumented
  let model ← project.hostModel
  (Catalog.build schema model).mapError .undocumented

/-- The documentation page. -/
def page (project : Project) : Except ProjectError String := do
  let catalog ← project.catalog
  .ok (catalog.page project.config).toPretty

end Project

end OperationAtlas
