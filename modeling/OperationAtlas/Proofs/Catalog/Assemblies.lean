import OperationAtlas.Catalog
import OperationAtlas.Proofs.Session.History

/-!
# The calls behind a catalog

The records of a catalog are assembled by calls on one session, one for each accessor that implements
an operation, in the order of the groups (`Surroundings.assemblies`). Building a catalog makes these
calls one after the other up to the first that fails (`Surroundings.map_documentGroups`). So what
holds of calls on a session holds of catalogs (`Catalog.calls_of_build_eq_ok`,
`Catalog.calls_of_build_eq_error`).
-/

namespace OperationAtlas

namespace Surroundings

variable (around : Surroundings)

/-- The calls that assemble the records of accessors in order. Accessors that implement nothing have
none. -/
def assembliesOf (kind : OperationKind) (owner : String) (accessors : List Accessor) : List Call :=
  accessors.filterMap fun accessor =>
    (around.implemented? kind accessor).map fun operation =>
      .assemble kind owner operation accessor

/-- The calls that assemble the records of groups in order. -/
def assemblies (groups : List Group) : List Call :=
  groups.flatMap fun group => around.assembliesOf group.kind group.typeName group.accessors

variable {around}

theorem mem_assemblies {groups : List Group} {call : Call} :
    call ∈ around.assemblies groups ↔ ∃ group ∈ groups, ∃ accessor ∈ group.accessors,
      ∃ operation, around.implemented? group.kind accessor = some operation ∧
        call = .assemble group.kind group.typeName operation accessor := by
  simp only [assemblies, assembliesOf, List.mem_flatMap, List.mem_filterMap, Option.map_eq_some_iff,
    eq_comm (a := call)]

theorem map_recordsOf (kind : OperationKind) (owner : String) : ∀ accessors : List Accessor,
    (fun _ => ()) <$> around.recordsOf kind owner accessors =
      around.perform (around.assembliesOf kind owner accessors)
  | [] => rfl
  | accessor :: accessors => by
      have ih := map_recordsOf kind owner accessors
      cases himplemented : around.implemented? kind accessor with
      | none =>
        simp only [recordsOf, assembliesOf, himplemented, List.filterMap_cons, Option.map_none]
        exact ih
      | some operation =>
        rw [assembliesOf, perform] at ih
        simp only [recordsOf, assembliesOf, perform, himplemented, List.filterMap_cons,
          Option.map_some, List.forM_cons, Call.step, map_bind, map_pure, bind_assoc, pure_bind]
        rw [← ih]
        simp only [map_eq_pure_bind]

/-- Documenting groups makes the calls that assemble their records, one after the other. -/
theorem map_documentGroups : ∀ groups : List Group,
    (fun _ => ()) <$> around.documentGroups groups = around.perform (around.assemblies groups)
  | [] => rfl
  | group :: groups => by
      have hgroup : around.assemblies (group :: groups) =
          around.assembliesOf group.kind group.typeName group.accessors ++
            around.assemblies groups :=
        List.flatMap_cons
      rw [hgroup, perform_append, ← map_recordsOf, ← map_documentGroups groups]
      simp only [documentGroups, map_eq_pure_bind, bind_assoc, pure_bind]

end Surroundings

namespace SessionStep

variable {α β : Type} {step : SessionStep α} {f : α → β} {session session' : Session}

theorem runOn_map_of_ok {a : α} (h : step.runOn session = (.ok a, session')) :
    (f <$> step).runOn session = (.ok (f a), session') := by
  rw [map_eq_pure_bind, runOn_bind, h]
  rfl

theorem runOn_map_of_error {error : DocError}
    (h : step.runOn session = (.error error, session')) :
    (f <$> step).runOn session = (.error error, session') := by
  rw [map_eq_pure_bind, runOn_bind, h]

end SessionStep

/-- Documenting groups without failing leads from such a session to such a session. -/
theorem Surroundings.ReachableCleanly.documentGroups {around : Surroundings} {groups : List Group}
    {documented : List (Group × List OperationRecord)} {session session' : Session}
    (h : around.ReachableCleanly session)
    (hrun : (around.documentGroups groups).runOn session = (.ok documented, session')) :
    around.ReachableCleanly session' := by
  have hperform : (around.perform (around.assemblies groups)).runOn session = (.ok (), session') := by
    rw [← around.map_documentGroups]
    exact SessionStep.runOn_map_of_ok hrun
  exact h.perform hperform

namespace Catalog

variable {schema : SchemaIndex} {model : HostModel}

/-- The groups of all kinds are documented. -/
theorem mem_orderedGroups_iff {group : Group} :
    group ∈ orderedGroups model ↔ group ∈ model.groups := by
  have hall : group.kind ∈ OperationKind.all := by cases group.kind <;> decide
  simp only [orderedGroups, List.mem_flatMap, List.mem_filter, beq_iff_eq]
  exact ⟨fun ⟨_, _, hgroup, _⟩ => hgroup, fun hgroup => ⟨group.kind, hall, hgroup, rfl⟩⟩

/-- A catalog is what calls that succeed one after the other have left in a new session. -/
theorem calls_of_build_eq_ok {catalog : Catalog} (h : build schema model = .ok catalog) :
    ∃ host session, HostTypes.ofModel model = .ok host ∧
      ((Surroundings.mk schema host).perform
        ((Surroundings.mk schema host).assemblies (orderedGroups model))).runOn {} =
          (.ok (), session) ∧
      catalog.objectTypes = session.objectTypes ∧ catalog.schemaNames = session.schemaNames := by
  obtain ⟨host, hhost, h⟩ := bind_eq_ok_iff.1 h
  dsimp only at h
  split at h
  · cases h
  · next documented session hrun =>
    cases h
    refine ⟨host, session, hhost, ?_, rfl, rfl⟩
    rw [← Surroundings.map_documentGroups]
    exact SessionStep.runOn_map_of_ok hrun

/-- Building a catalog fails as one of the calls does, unless a type is declared twice. -/
theorem calls_of_build_eq_error {error : DocError} (h : build schema model = .error error) :
    HostTypes.ofModel model = .error error ∨
      ∃ host session, HostTypes.ofModel model = .ok host ∧
        ((Surroundings.mk schema host).perform
          ((Surroundings.mk schema host).assemblies (orderedGroups model))).runOn {} =
            (.error error, session) := by
  rcases bind_eq_error_iff.1 h with hhost | ⟨host, hhost, h⟩
  · exact .inl hhost
  dsimp only at h
  split at h
  · next fault session hrun =>
    cases h
    refine .inr ⟨host, session, hhost, ?_⟩
    rw [← Surroundings.map_documentGroups]
    exact SessionStep.runOn_map_of_error hrun
  · cases h

end Catalog

end OperationAtlas
