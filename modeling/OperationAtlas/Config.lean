import OperationAtlas.Number.Shortest
import OperationAtlas.Text.Printable
import OperationAtlas.Toml.Document

/-!
# Settings

The settings of the documentation are read from a TOML text. Each has a default, except for the
links, which may be unset. A key that names no setting is refused, and so is a value of a wrong
type; the first such key in the order of the text is the one that is reported.
-/

namespace OperationAtlas

/-- The settings. -/
structure Config where
  /-- Nothing is generated unless this is set. -/
  enabled : Bool := false
  /-- The pattern of the schema sources below the root. -/
  schemaPattern : String := "**/*.graphqls"
  /-- The path of the host model below the root. -/
  hostModel : String := "graphql-doc.json"
  endpoint : String := "/document"
  title : String := "GraphQL Doc"
  description : String := "Welcome Documentation"
  appVersion : String := "v1.0.0"
  logoUrl : String := "assets/images/logo.png"
  siteUrl : String := "index.html"
  supportLink : Option String := none
  twitterLink : Option String := none
  linkedinLink : Option String := none
  instagramLink : Option String := none
  deriving DecidableEq, Repr

/-- Why settings cannot be read, and where. -/
inductive ConfigError
  /-- The text is not TOML. -/
  | malformed (position : Position)
  | unknownKey (position : Position) (name : String)
  | wrongType (position : Position) (found expected : String)
  deriving DecidableEq, Repr

namespace Config

/-- The keys of the settings. -/
def keys : List String :=
  ["enabled", "schema_location_pattern", "host_model", "endpoint", "title", "description",
    "app_version", "logo_url", "site_url", "support_link", "twitter_link", "linkedin_link",
    "instagram_link"]

/-- The text of a double in a message: positional, with a fraction in any case. -/
def floatText : Option Binary64 → String
  | none => "NaN"
  | some (.infinite negative) => if negative then "-inf" else "inf"
  | some (.finite negative mantissa exponent) =>
    let magnitude :=
      if mantissa = 0 then ['0'] else (Binary64.shortest true mantissa exponent).positional
    let fraction := if magnitude.contains '.' then [] else ['.', '0']
    String.ofList ((if negative then ['-'] else []) ++ magnitude ++ fraction)

/-- What a value is, as messages say it. -/
def found : Toml → String
  | .string text => "string " ++ Text.quoteVisible text
  | .integer value => "integer `" ++ toString value ++ "`"
  | .float value => "floating point `" ++ floatText value ++ "`"
  | .boolean true => "boolean `true`"
  | .boolean false => "boolean `false`"
  | .datetime | .table _ => "map"
  | .array _ => "sequence"

/-- The truth value of a setting. -/
def flag (entry : TomlEntry) : Except ConfigError Bool :=
  match entry.value with
  | .boolean value => .ok value
  | value => .error (.wrongType entry.valuePosition (found value) "a boolean")

/-- The text of a setting. -/
def text (expected : String) (entry : TomlEntry) : Except ConfigError String :=
  match entry.value with
  | .string text => .ok text
  | value => .error (.wrongType entry.valuePosition (found value) expected)

/-- The settings with the value of one key. -/
def set (config : Config) (entry : TomlEntry) : Except ConfigError Config :=
  let string := text "a string" entry
  match entry.key with
  | "enabled" => do .ok { config with enabled := ← flag entry }
  | "schema_location_pattern" => do .ok { config with schemaPattern := ← string }
  | "host_model" => do .ok { config with hostModel := ← text "path string" entry }
  | "endpoint" => do .ok { config with endpoint := ← string }
  | "title" => do .ok { config with title := ← string }
  | "description" => do .ok { config with description := ← string }
  | "app_version" => do .ok { config with appVersion := ← string }
  | "logo_url" => do .ok { config with logoUrl := ← string }
  | "site_url" => do .ok { config with siteUrl := ← string }
  | "support_link" => do .ok { config with supportLink := some (← string) }
  | "twitter_link" => do .ok { config with twitterLink := some (← string) }
  | "linkedin_link" => do .ok { config with linkedinLink := some (← string) }
  | "instagram_link" => do .ok { config with instagramLink := some (← string) }
  | key => .error (.unknownKey entry.keyPosition key)

/-- The settings that a text writes; the others have their defaults. -/
def parse (text : String) : Except ConfigError Config :=
  match Toml.parse text with
  | .error position => .error (.malformed position)
  | .ok entries => entries.foldlM set {}

end Config

namespace ConfigError

/-- Where settings cannot be read. -/
def position : ConfigError → Position
  | malformed position | unknownKey position _ | wrongType position _ _ => position

/-- What is wrong with settings; nothing more for a text that is not TOML. -/
def detail? : ConfigError → Option String
  | malformed _ => none
  | unknownKey _ name =>
    some ("unknown field `" ++ name ++ "`, expected one of " ++
      ", ".intercalate (Config.keys.map fun key => "`" ++ key ++ "`"))
  | wrongType _ found expected => some ("invalid type: " ++ found ++ ", expected " ++ expected)

/-- The message of settings that cannot be read. -/
def message (error : ConfigError) : String :=
  "\n".intercalate
    (("could not parse the configuration: TOML parse error at line " ++
      toString error.position.line ++ ", column " ++ toString error.position.column) ::
      error.detail?.toList)

end ConfigError

end OperationAtlas
