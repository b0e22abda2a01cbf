import OperationAtlas.Page.Reader
import OperationAtlas.Project
import OperationAtlas.Proofs.Catalog.Records
import OperationAtlas.Proofs.Json.Reading

/-!
# Pages lose nothing

The value of a page is read back as the settings and the catalog that were written
(`Catalog.ofJson?_page`), whatever they are. Its text says as much as its value, since no object of
a page has a key twice: the members of a catalog are none of the settings, and the keys of the
groups, the types and the schema types of a catalog that was built are distinct
(`Catalog.IsKeyed`). Every text, however it was quoted, is read back character for character
(`Json.parse?_toPretty`).

So a page is a code for its settings and its catalog (`Catalog.page_loses_nothing`), and every page
that a project writes is read back as the settings and the catalog of the project
(`Project.parse?_page`).
-/

namespace OperationAtlas

/-! ## Lists and maps -/

namespace Json

variable {α : Type} {read : Json → Option α} {write : α → Json}

@[simp] theorem label?_ofOption (label : Option String) : (ofOption label).label? = some label := by
  cases label <;> rfl

theorem list?_map (h : ∀ x, read (write x) = some x) (xs : List α) :
    list? read (.array (xs.map write)) = some xs := by
  rw [list?]
  induction xs with
  | nil => rfl
  | cons x xs ih => simp [h, ih]

theorem entries?_map (h : ∀ x, read (write x) = some x) (entries : List (String × α)) :
    entries? read (.object (entries.map fun (key, x) => (key, write x))) = some entries := by
  rw [entries?]
  induction entries with
  | nil => rfl
  | cons entry entries ih => simp [h, ih]

theorem isPlain_ofOption (label : Option String) : (ofOption label).IsPlain := by
  cases label with
  | none => exact .null
  | some text => exact .string text

theorem isPlain_array_map (h : ∀ x, (write x).IsPlain) (xs : List α) :
    (Json.array (xs.map write)).IsPlain :=
  .array (List.forall_mem_map.2 fun x _ => h x)

theorem isPlain_object_map {entries : List (String × α)} (hkeys : (entries.map (·.1)).Nodup)
    (h : ∀ x, (write x).IsPlain) :
    (Json.object (entries.map fun (key, x) => (key, write x))).IsPlain :=
  .object (by simpa [Function.comp_def] using hkeys)
    (List.forall_mem_map.2 fun entry _ => h entry.2)

end Json

/-! ## Values are read back -/

attribute [local simp] Json.required? Json.optional? Json.member? Json.text? Json.flag?
  OrderedMap.lookup

theorem ParameterSummary.ofJson?_toJson (parameter : ParameterSummary) :
    ofJson? parameter.toJson = some parameter := by
  simp [ofJson?, toJson]

/-- The access note is the last member of a record, if there is one. -/
theorem OperationRecord.ofJson?_toJson (record : OperationRecord) :
    ofJson? record.toJson = some record := by
  obtain ⟨description, operation, name, methodName, outputName, parameters, exampleRequest,
    exampleResponse, accessNote⟩ := record
  cases accessNote <;>
    simp [ofJson?, toJson, Json.list?_map ParameterSummary.ofJson?_toJson]

theorem OperationGroup.ofJson?_toJson (group : OperationGroup) :
    ofJson? group.toJson = some group := by
  simp [ofJson?, toJson, Json.list?_map OperationRecord.ofJson?_toJson]

theorem FieldSummary.ofJson?_toJson (field : FieldSummary) : ofJson? field.toJson = some field := by
  simp [ofJson?, toJson]

theorem TypeFields.ofJson?_toJson (fields : TypeFields) : ofJson? fields.toJson = some fields := by
  simp [ofJson?, toJson, Json.list?_map FieldSummary.ofJson?_toJson]

/-- The settings and the catalog are read from the value of a page. -/
theorem Catalog.ofJson?_page (config : Config) (catalog : Catalog) :
    Page.ofJson? (catalog.page config) = some (Page.of config catalog) := by
  have htext : ∀ text, Json.text? (.string text) = some text := fun _ => rfl
  simp [Page.ofJson?, Page.of, page, Config.toMembers, toMembers, ofJson?,
    Json.entries?_map OperationGroup.ofJson?_toJson, Json.entries?_map TypeFields.ofJson?_toJson,
    Json.entries?_map htext]

/-! ## Values are plain -/

attribute [local simp] Json.IsPlain.string Json.IsPlain.bool Json.isPlain_ofOption

theorem ParameterSummary.isPlain_toJson (parameter : ParameterSummary) :
    parameter.toJson.IsPlain :=
  .object (by simp) (by simp)

theorem OperationRecord.isPlain_toJson (record : OperationRecord) : record.toJson.IsPlain := by
  have hparameters := Json.isPlain_array_map ParameterSummary.isPlain_toJson record.parameters
  rw [toJson]
  cases record.accessNote <;> exact .object (by simp) (by simp [hparameters])

theorem OperationGroup.isPlain_toJson (group : OperationGroup) : group.toJson.IsPlain :=
  have hoperations := Json.isPlain_array_map OperationRecord.isPlain_toJson group.operations
  .object (by simp) (by simp [hoperations])

theorem FieldSummary.isPlain_toJson (field : FieldSummary) : field.toJson.IsPlain :=
  .object (by simp) (by simp)

theorem TypeFields.isPlain_toJson (fields : TypeFields) : fields.toJson.IsPlain :=
  have hfields := Json.isPlain_array_map FieldSummary.isPlain_toJson fields.fields
  .object (by simp) (by simp [hfields])

namespace Catalog

variable {schema : SchemaIndex} {model : HostModel} {catalog : Catalog}

/-- The keys of each of the maps of a catalog are distinct. -/
structure IsKeyed (catalog : Catalog) : Prop where
  groups : (catalog.groups.map (·.1)).Nodup
  objectTypes : (catalog.objectTypes.map (·.1)).Nodup
  schemaNames : (catalog.schemaNames.map (·.1)).Nodup

/-- The groups are found by their keys, and the types and the schema types by those that the session
has met. -/
theorem isKeyed_of_build (hbuild : build schema model = .ok catalog) : catalog.IsKeyed := by
  obtain ⟨host, documented, session, -, hrun, rfl⟩ := exists_documented hbuild
  have hwf := (Surroundings.ReachableCleanly.fresh.documentGroups hrun).reachable.wellFormed
  constructor
  · rw [keys_foldl_addRecords]
    exact OrderedMap.nodup_eraseDups _
  · simpa [Session.objectTypes, Function.comp_def] using hwf.samples_nodup
  · exact hwf.schemaNames_nodup

/-- The members of a page are the settings and the three maps of the catalog, under names of their
own. -/
theorem isPlain_page (h : catalog.IsKeyed) (config : Config) : (catalog.page config).IsPlain := by
  have hgroups := Json.isPlain_object_map h.groups OperationGroup.isPlain_toJson
  have htypes := Json.isPlain_object_map h.objectTypes TypeFields.isPlain_toJson
  have hnames := Json.isPlain_object_map h.schemaNames Json.IsPlain.string
  refine .object (by simp [Config.toMembers, toMembers]) ?_
  simp [Config.toMembers, toMembers, hgroups, htypes, hnames]

/-! ## Texts are read back -/

theorem parse?_toPretty_page (h : catalog.IsKeyed) (config : Config) :
    Page.parse? (catalog.page config).toPretty = some (Page.of config catalog) := by
  rw [Page.parse?, Json.parse?_toPretty (isPlain_page h config)]
  exact ofJson?_page config catalog

/-- The page of every configuration and every catalog that was built is a text that is read back as
the value of the page, and so as all settings of the site and the whole catalog: the same groups,
records, parameters, types, fields and schema types in the same order, with the same texts. It is
the text that a project with this configuration and this catalog writes. -/
theorem page_loses_nothing (hbuild : build schema model = .ok catalog) (config : Config) :
    Json.parse? (catalog.page config).toPretty = some (catalog.page config) ∧
      Page.parse? (catalog.page config).toPretty = some (Page.of config catalog) ∧
      ∀ project : Project, project.config = config → project.catalog = .ok catalog →
        project.page = .ok (catalog.page config).toPretty := by
  have hkeyed := isKeyed_of_build hbuild
  refine ⟨Json.parse?_toPretty (isPlain_page hkeyed config), parse?_toPretty_page hkeyed config, ?_⟩
  rintro project rfl hcatalog
  rw [Project.page, hcatalog, ok_bind]

/-- A schema with the tides of a port. -/
def tideSchema : SchemaIndex where
  types := [
    ("Query", [⟨"tides", ⟨"Tide", false, true⟩, [("port", ⟨"String", false, false⟩)]⟩]),
    ("Tide", [⟨"height", ⟨"Int", false, false⟩, []⟩])]

/-- A host with one accessor, which only some may use. -/
def tideModel : HostModel where
  types := [⟨"TideView", some "A tide.", none, .object [⟨"height", .plain "i32", {}⟩]⟩]
  groups := [{
    typeName := "Harbour"
    kind := .query
    key := "High Tides"
    description := "The \"tides\" of a port,\none by one ⚓"
    accessors := [{
      name := "tides"
      returns := .list "Vec" [.plain "TideView"]
      parameters := [⟨"port", .plain "String", { example? := some "Büsum" }⟩]
      access := some "hasRole('ROLE_PILOT')" }] }]

/-- The record of the accessor. -/
def tideRecord : OperationRecord where
  description := ""
  operation := ""
  name := "tides"
  methodName := "tides"
  outputName := "TideView"
  parameters := [⟨"port", "String", "Büsum", "", false⟩]
  exampleRequest := "query \x7b\n  tides(port: \"Büsum\") \x7b\n    height\n  \x7d\n\x7d\n"
  exampleResponse := "\x7b\n  \"data\": \x7b\n    \"tides\": [\n      \x7b\n" ++
    "        \"height\": 1\n      \x7d\n    ]\n  \x7d\n\x7d"
  accessNote := some "Only for authenticated users with roles : PILOT"

/-- The catalog of the schema and the host. -/
def tideCatalog : Catalog where
  groups := [("High_Tides",
    ⟨"The \"tides\" of a port,\none by one ⚓", "High Tides", [tideRecord]⟩)]
  objectTypes := [("TideView",
    ⟨"TideView", some "A tide.", [⟨"height", "Int", true, false, false, "", ""⟩]⟩)]
  schemaNames := [("TideView", "Tide")]

/-- A page with quoted texts in lines, a link and an access note is read back. -/
theorem tides_are_read_back :
    build tideSchema tideModel = .ok tideCatalog ∧
      Page.parse? (tideCatalog.page { supportLink := some "help.html" }).toPretty =
        some (Page.of { supportLink := some "help.html" } tideCatalog) := by
  have hbuild : build tideSchema tideModel = .ok tideCatalog := by decide +kernel
  exact ⟨hbuild, (page_loses_nothing hbuild { supportLink := some "help.html" }).2.1⟩

end Catalog

/-! ## Pages of projects -/

namespace Project

variable {project : Project} {catalog : Catalog} {text : String}

/-- The catalog of a project is one of its schema and its host model. -/
theorem exists_build (h : project.catalog = .ok catalog) :
    ∃ schema model, Catalog.build schema model = .ok catalog := by
  obtain ⟨found, -, h⟩ := bind_eq_ok_iff.1 h
  obtain ⟨sources, -, h⟩ := bind_eq_ok_iff.1 h
  obtain ⟨schema, -, h⟩ := bind_eq_ok_iff.1 h
  obtain ⟨model, -, h⟩ := bind_eq_ok_iff.1 h
  exact ⟨schema, model, mapError_eq_ok_iff.1 h⟩

/-- A page that a project writes is read back as the settings and the catalog of the project. -/
theorem parse?_page (h : project.page = .ok text) :
    ∃ catalog, project.catalog = .ok catalog ∧
      Page.parse? text = some (Page.of project.config catalog) := by
  obtain ⟨catalog, hcatalog, htext⟩ := bind_eq_ok_iff.1 h
  cases htext
  obtain ⟨schema, model, hbuild⟩ := exists_build hcatalog
  exact ⟨catalog, hcatalog,
    Catalog.parse?_toPretty_page (Catalog.isKeyed_of_build hbuild) project.config⟩

end Project

end OperationAtlas
