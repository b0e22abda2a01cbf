import OperationAtlas.Project
import OperationAtlas.Proofs.Schema.Merging
import OperationAtlas.Proofs.SchemaFiles

/-!
# Projects and the order of listing

The order in which a directory tree is listed leaves no trace in what is made of it:
`Project.generation_ignores_listing_order` compares two states that list the same entries. Their
searches find the same schema files in the same order, and their projects have the same page or fail
alike.

The order of the sources does count, and it is the order of their paths: the fields of a type are
those of its definitions in one source after the other, and the first source that cannot be read is
the one that the failure names.
-/

namespace OperationAtlas

open Graphql

namespace Files

variable {files other : Files}

/-- A path leads to the same text, or to none for the same reason. -/
theorem Agrees.read (h : files.Agrees other) : files.read = other.read := by
  funext working path
  rw [Files.read, Files.read, h.locate?, h.isFile, h.text?, h.isDirectory]

end Files

namespace Project

variable {files other : Files} {working : Location} {root : String} {config : Config}

/-- The page is made of the sources and of the host model, and neither depends on the order of a
listing. -/
theorem page_eq (hsame : files.ListsSame other) (hfiles : files.IsListing)
    (hother : other.IsListing) :
    (Project.mk files working root config).page = (Project.mk other working root config).page := by
  have hagrees := hsame.agrees hfiles hother
  have hfound : (Project.mk files working root config).schemaFiles =
      (Project.mk other working root config).schemaFiles := by
    rw [schemaFiles, schemaFiles, hsame.schemaFiles_eq hfiles hother]
  have hsources : (Project.mk files working root config).sources =
      (Project.mk other working root config).sources := by
    funext found
    rw [sources, sources, hagrees.text?]
  have hmodel : (Project.mk files working root config).hostModel =
      (Project.mk other working root config).hostModel := by
    rw [hostModel, hostModel, hagrees.read]
  rw [page, page, catalog, catalog, hfound, hsources, hmodel]

/-- The sources of a project are its schema files, in their order. -/
theorem map_sources {project : Project} {found : List (String × Location)}
    {sources : List (String × String)} (h : project.sources found = .ok sources) :
    sources.map (·.1) = found.map (·.1) := by
  unfold Project.sources at h
  induction found generalizing sources with
  | nil =>
    cases h
    rfl
  | cons file found ih =>
    rw [List.mapM_cons] at h
    obtain ⟨source, hsource, h⟩ := bind_eq_ok_iff.1 h
    obtain ⟨others, hothers, h⟩ := bind_eq_ok_iff.1 h
    cases h
    dsimp only at hsource
    split at hsource <;> cases hsource
    rw [List.map_cons, List.map_cons, ih hothers]

/-- A source that cannot be read fails the page. -/
theorem page_of_isFirstFault {project : Project} {found : List (String × Location)}
    {sources : List (String × String)} (hfound : project.schemaFiles = .ok found)
    (hsources : project.sources found = .ok sources) {origin : String} {position : Position}
    (hfault : SchemaDocument.IsFirstFault sources origin position) :
    project.page = .error (.undocumented (.schemaParse origin position)) := by
  have hschema := SchemaIndex.ofSources_eq_error_iff.2 ⟨origin, position, hfault, rfl⟩
  rw [page, catalog, hfound, ok_bind, hsources, ok_bind, hschema]
  rfl

/-- Listings of the same entries, in whatever order, have the same schema files for every pattern:
the same list, whose paths are strictly increasing name by name, so that no file is there twice, or
the same failure. They have the same page for all settings, or the same failure.

The order of the sources, which is that of the paths, decides the rest. The first source that cannot
be read is named by the failure. Otherwise the fields of a type are those that its definitions have
in one source after the other, and the operations of a kind are the fields of the type that the last
block names. -/
theorem generation_ignores_listing_order (hfiles : files.IsListing) (hother : other.IsListing)
    (hsame : files.ListsSame other) (working : Location) (root : String) :
    (∀ pattern,
      files.schemaFiles working root pattern = other.schemaFiles working root pattern ∧
      ∀ found, files.schemaFiles working root pattern = .ok found →
        (found.map fun file => Files.components file.1).Pairwise PathBefore ∧
        (found.map (·.1)).Nodup) ∧
    ∀ config,
      (Project.mk files working root config).page = (Project.mk other working root config).page ∧
      ∀ found sources, (Project.mk files working root config).schemaFiles = .ok found →
        (Project.mk files working root config).sources found = .ok sources →
        sources.map (·.1) = found.map (·.1) ∧
        (∀ origin position, SchemaDocument.IsFirstFault sources origin position →
          (Project.mk files working root config).page =
            .error (.undocumented (.schemaParse origin position))) ∧
        ∀ documents, SchemaDocument.AreRead sources documents → ∃ schema,
          SchemaIndex.ofSources sources = .ok schema ∧
          (∀ name, schema.describe name =
            (fieldsNamed name documents.flatten).map .ofDefinition) ∧
          ∀ kind, schema.operations kind = schema.describe (rootNamed kind documents.flatten) := by
  refine ⟨fun pattern => ⟨hsame.schemaFiles_eq hfiles hother working root pattern,
    fun found hfound => ⟨hfiles.pairwise_schemaFiles hfound, hfiles.nodup_schemaFiles hfound⟩⟩,
    fun config => ⟨page_eq hsame hfiles hother, fun found sources hfound hsources => ?_⟩⟩
  exact ⟨map_sources hsources, fun origin position => page_of_isFirstFault hfound hsources,
    fun documents => SchemaIndex.exists_ofSources⟩

/-- Two schema files and a host model. A directory comes before a file whose name starts with that of
the directory, though a full stop comes before a slash. -/
def chartFiles : Files where
  entries := [
    (["work", "schema.graphqls"], some "extend type Query \x7b depth: Int \x7d".toUTF8),
    (["work", "graphql-doc.json"], some "\x7b\"types\":[],\"groups\":[]\x7d".toUTF8),
    (["work", "schema", "a.graphqls"], some "type Query \x7b chart: String \x7d".toUTF8)]

/-- The same files, listed from the other end. -/
def reversedFiles : Files where
  entries := chartFiles.entries.reverse

/-- The schema files in the order of their paths. It is not that of the listing, and it is not that
of the texts of the paths. -/
def chartFound : List (String × Location) :=
  [("./schema/a.graphqls", ["work", "schema", "a.graphqls"]),
    ("./schema.graphqls", ["work", "schema.graphqls"])]

def chartSources : List (String × String) :=
  [("./schema/a.graphqls", "type Query \x7b chart: String \x7d"),
    ("./schema.graphqls", "extend type Query \x7b depth: Int \x7d")]

def chartDocuments : List SchemaDocument :=
  [[.fielded .object false "Query" [⟨"chart", [], .named "String"⟩]],
    [.fielded .object true "Query" [⟨"depth", [], .named "Int"⟩]]]

theorem chart_schemaFiles : chartFiles.schemaFiles ["work"] "." "**/*.graphqls" =
    .ok chartFound := by
  have hfound : (Files.patternRule "**/*.graphqls").toOption.map
      (chartFiles.foundBelow ["work"] · ["work"]) =
        some [["schema.graphqls"], ["schema", "a.graphqls"]] := by decide +kernel
  have hsearched : chartFiles.locate? ["work"] "." = some ["work"] ∧
      chartFiles.isFile ["work"] = false ∧ chartFiles.isDirectory ["work"] = true ∧
      Files.hasFaultAbove (chartFiles.ruleTable ["work"]) ["work"] = false := by decide +kernel
  have hsorted : [["schema.graphqls"], ["schema", "a.graphqls"]].mergeSort namesPrecede =
      [["schema", "a.graphqls"], ["schema.graphqls"]] :=
    (mergeSort_eq_of_perm (.swap ..)).trans (List.mergeSort_of_pairwise (by decide))
  obtain ⟨hlocation, hfile, hdirectory, hfault⟩ := hsearched
  rw [Files.schemaFiles_eq]
  cases hpattern : Files.patternRule "**/*.graphqls" with
  | error error =>
    rw [hpattern] at hfound
    cases hfound
  | ok pattern? =>
    rw [hpattern] at hfound
    rw [ok_bind, Files.search, if_neg (by decide), hlocation]
    simp only [hfile, hdirectory, hfault, Option.some.inj hfound, hsorted]
    rfl

/-- From the other end the same files are found in the same order, and the page is the same. Their
fields would stand in another order if the sources did. -/
theorem chart_page_is_the_same :
    chartFiles.IsListing ∧ reversedFiles.IsListing ∧ chartFiles.ListsSame reversedFiles ∧
      reversedFiles.schemaFiles ["work"] "." "**/*.graphqls" = .ok chartFound ∧
      (Project.mk chartFiles ["work"] "." {}).page = (Project.mk reversedFiles ["work"] "." {}).page ∧
      (∃ schema, SchemaIndex.ofSources chartSources = .ok schema ∧
        schema.describe "Query" = (fieldsNamed "Query" chartDocuments.flatten).map .ofDefinition) ∧
      SchemaDocument.AreRead chartSources.reverse chartDocuments.reverse ∧
      (fieldsNamed "Query" chartDocuments.reverse.flatten).map (·.name) ≠
        (fieldsNamed "Query" chartDocuments.flatten).map (·.name) := by
  have hchart : chartFiles.IsListing := ⟨by decide +kernel, by decide +kernel⟩
  have hreversed : reversedFiles.IsListing := ⟨by decide +kernel, by decide +kernel⟩
  have hsame : chartFiles.ListsSame reversedFiles := fun _ => List.mem_reverse.symm
  have hread : SchemaDocument.AreRead chartSources chartDocuments :=
    .cons (by rfl) (.cons (by rfl) .nil)
  obtain ⟨hfiles, hpages⟩ :=
    generation_ignores_listing_order hchart hreversed hsame ["work"] "."
  obtain ⟨hpage, hsources⟩ := hpages {}
  have hfound : (Project.mk chartFiles ["work"] "." {}).schemaFiles = .ok chartFound := by
    rw [schemaFiles, chart_schemaFiles]
    rfl
  obtain ⟨-, -, hschema⟩ := hsources chartFound chartSources hfound (by rfl)
  obtain ⟨schema, hindex, hfields, -⟩ := hschema chartDocuments hread
  exact ⟨hchart, hreversed, hsame, (hfiles _).1.symm.trans chart_schemaFiles, hpage,
    ⟨schema, hindex, hfields "Query"⟩, .cons (by rfl) (.cons (by rfl) .nil), by decide +kernel⟩

end Project

end OperationAtlas
