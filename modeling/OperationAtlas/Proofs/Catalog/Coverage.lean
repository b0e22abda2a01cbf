import OperationAtlas.Proofs.Catalog.Assemblies
import OperationAtlas.Proofs.Session.Coverage

/-!
# The types of a catalog

A catalog documents the object types that its operations lead to, and no others
(`Catalog.documented_iff_reached`): those that the accessors which implement an operation have for
results and parameters, and all that these reference, one way or the other, under the schema types
that the catalog records. A type that was only met as a stub is among them, since a stub stands for
a type whose walk is running and ends.
-/

namespace OperationAtlas

/-- The object types of the results and the parameters of the accessors that implement an
operation. -/
def Surroundings.IsRoot (around : Surroundings) (model : HostModel) (name : String) : Prop :=
  ∃ group ∈ model.groups, ∃ accessor ∈ group.accessors,
    (∃ operation, around.implemented? group.kind accessor = some operation) ∧
      around.Mentions accessor name

theorem Surroundings.exists_startsAt_iff {around : Surroundings} {model : HostModel}
    {name : String} :
    (∃ call ∈ around.assemblies (Catalog.orderedGroups model), call.StartsAt around name) ↔
      around.IsRoot model name := by
  simp only [mem_assemblies, Catalog.mem_orderedGroups_iff]
  constructor
  · rintro ⟨_, ⟨group, hgroup, accessor, haccessor, operation, himplemented, rfl⟩, hstarts⟩
    exact ⟨group, hgroup, accessor, haccessor, ⟨operation, himplemented⟩, hstarts⟩
  · rintro ⟨group, hgroup, accessor, haccessor, ⟨operation, himplemented⟩, hmentions⟩
    exact ⟨_, ⟨group, hgroup, accessor, haccessor, operation, himplemented, rfl⟩, hmentions⟩

/-- Whatever is reached from a root is an object type. -/
theorem Surroundings.Reaches.kind {around : Surroundings} {model : HostModel}
    {schemaNames : List (String × String)} {root name : String}
    (h : around.Reaches schemaNames root name) (hroot : around.IsRoot model root) :
    around.host.kind (.plain name) = .ok .object := by
  cases h with
  | refl =>
    obtain ⟨_, _, _, _, _, hmentions⟩ := hroot
    cases hmentions with
    | result hobject =>
      obtain ⟨_, _, hkind⟩ := hobject
      exact hkind
    | parameter _ hobject =>
      obtain ⟨_, _, hkind⟩ := hobject
      exact hkind
  | tail _ hreference => exact hreference.kind

namespace Catalog

/-- A catalog has documentation for exactly the types that it has schema types for. These are the
object types that are reached from the results and the parameters of the accessors that implement
an operation, and nothing but object types. -/
theorem documented_iff_reached {schema : SchemaIndex} {model : HostModel} {catalog : Catalog}
    (hbuild : build schema model = .ok catalog) :
    ∃ host, HostTypes.ofModel model = .ok host ∧
      (∀ name, name ∈ catalog.objectTypes.map (·.1) ↔ name ∈ catalog.schemaNames.map (·.1)) ∧
      (∀ name, name ∈ catalog.schemaNames.map (·.1) ↔
        ∃ root, (Surroundings.mk schema host).IsRoot model root ∧
          (Surroundings.mk schema host).Reaches catalog.schemaNames root name) ∧
      ∀ name ∈ catalog.schemaNames.map (·.1),
        ∃ type fields, host.find? name = some type ∧ type.shape = .object fields := by
  obtain ⟨host, session, hhost, hrun, htypes, hnames⟩ := calls_of_build_eq_ok hbuild
  have hclean := Surroundings.ReachableCleanly.fresh.perform hrun
  have hreached : ∀ name, name ∈ catalog.schemaNames.map (·.1) ↔
      ∃ root, (Surroundings.mk schema host).IsRoot model root ∧
        (Surroundings.mk schema host).Reaches catalog.schemaNames root name := by
    intro name
    simp only [hnames, Surroundings.mem_schemaNames_iff_reached hrun,
      Surroundings.exists_startsAt_iff]
  refine ⟨host, hhost, fun name => ?_, hreached, fun name hname => ?_⟩
  · rw [htypes, hnames, hclean.mem_schemaNames_iff, Session.objectTypes, List.map_map]
    rfl
  · obtain ⟨root, hroot, hreaches⟩ := (hreached name).1 hname
    exact HostTypes.exists_fields_of_object (hreaches.kind hroot)

/-- A schema with users and homes, which stand in a circle, and with cities. -/
def villageSchema : SchemaIndex where
  types := [
    ("Query", [⟨"user", ⟨"User", false, false⟩, []⟩,
      ⟨"find", ⟨"Int", false, false⟩,
        [("by", ⟨"City", false, false⟩), ("near", ⟨"Home", false, false⟩)]⟩]),
    ("User", [⟨"home", ⟨"Home", false, false⟩, []⟩]),
    ("Home", [⟨"owner", ⟨"User", false, false⟩, []⟩]),
    ("City", [⟨"name", ⟨"String", false, false⟩, []⟩])]

/-- The accessor for a user. -/
def userAccessor : Accessor where
  name := "getUser"
  returns := .plain "UserView"

/-- The accessor that finds something in a city near a home. -/
def findAccessor : Accessor where
  name := "find"
  returns := .plain "i32"
  parameters := [⟨"by", .plain "CityView", {}⟩, ⟨"near", .plain "HomeView", {}⟩]

/-- A host with users and cities, and with places, for which the schema declares no operation. -/
def villageModel : HostModel where
  types := [
    ⟨"PlaceView", none, none, .object [⟨"name", .plain "String", {}⟩]⟩,
    ⟨"UserView", none, none, .object [⟨"home", .plain "HomeView", {}⟩]⟩,
    ⟨"HomeView", none, some "PlaceView", .object [⟨"owner", .plain "UserView", {}⟩]⟩,
    ⟨"CityView", none, some "PlaceView", .object []⟩]
  groups := [{
    typeName := "Village"
    kind := .query
    key := "Village"
    accessors := [userAccessor, { name := "place", returns := .plain "PlaceView" }, findAccessor] }]

/-- The catalog documents the user, the home, which the user references, and the city, which is only
a parameter. It does not document the place, although others inherit from it. -/
theorem village_documents_reached :
    ∃ catalog host, build villageSchema villageModel = .ok catalog ∧
      HostTypes.ofModel villageModel = .ok host ∧
      catalog.schemaNames.map (·.1) = ["UserView", "HomeView", "CityView"] ∧
      (∀ name, name ∈ catalog.objectTypes.map (·.1) ↔
        name ∈ ["UserView", "HomeView", "CityView"]) ∧
      ∀ name, name ∈ ["UserView", "HomeView", "CityView"] ↔
        ∃ root, (Surroundings.mk villageSchema host).IsRoot villageModel root ∧
          (Surroundings.mk villageSchema host).Reaches catalog.schemaNames root name := by
  have hnames : (build villageSchema villageModel).map (·.schemaNames.map (·.1)) =
      .ok ["UserView", "HomeView", "CityView"] := by decide +kernel
  cases hbuild : build villageSchema villageModel with
  | error error =>
    rw [hbuild] at hnames
    cases hnames
  | ok catalog =>
    rw [hbuild] at hnames
    replace hnames : catalog.schemaNames.map (·.1) = _ := Except.ok.inj hnames
    obtain ⟨host, hhost, hsame, hreached, -⟩ := documented_iff_reached hbuild
    exact ⟨catalog, host, rfl, hhost, hnames, fun name => hnames ▸ hsame name,
      fun name => hnames ▸ hreached name⟩

end Catalog

end OperationAtlas
