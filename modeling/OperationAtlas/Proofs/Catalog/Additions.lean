import Mathlib.Logic.Relation
import OperationAtlas.Proofs.Catalog.Records
import OperationAtlas.Proofs.Session.Extensions

/-!
# What a catalog does not see

A host model may say more than a schema asks for: it may have types that no walk comes to, fields
that no schema type has, and accessors that stand for no operation. `HostModel.Gains` adds one such
thing to a model, however malformed it is, or orders the types anew. The catalog stays the same
(`Catalog.additions_are_invisible`).

An addition leaves all that is read (`HostModel.Extends`): the types in so far as they say something
to the schema, and of the groups the words and the accessors that stand for an operation. The catalog
depends on nothing else (`Catalog.build_of_extends`).
-/

namespace OperationAtlas

variable {schema : SchemaIndex}

/-! ## Additions -/

/-- An addition to a host model that a schema does not ask for: another order of the types, a type
under a new name, a field under a name that no schema type has a field of, or an accessor that stands
for no operation of its group's kind. Nothing is asked of what the addition refers to. -/
inductive HostModel.Gains (schema : SchemaIndex) : HostModel → HostModel → Prop
  | order {model : HostModel} {types : List HostType} (h : model.types.Perm types) :
      Gains schema model { model with types := types }
  | type {model : HostModel} {type : HostType} (hnew : type.name ∉ model.types.map (·.name)) :
      Gains schema model { model with types := type :: model.types }
  | field {groups : List Group} (before after : List HostType) {type : HostType}
      (earlier later : List Member) {member : Member}
      (hfields : type.shape = .object (earlier ++ later))
      (hnew : ¬schema.DeclaresField member.name) :
      Gains schema ⟨before ++ type :: after, groups⟩
        ⟨before ++ { type with shape := .object (earlier ++ member :: later) } :: after, groups⟩
  | accessor {types : List HostType} (before after : List Group) {group : Group}
      (earlier later : List Accessor) {accessor : Accessor}
      (haccessors : group.accessors = earlier ++ later)
      (hnone : schema.reconciled? group.kind accessor = none) :
      Gains schema ⟨types, before ++ group :: after⟩
        ⟨types, before ++ { group with accessors := earlier ++ accessor :: later } :: after⟩

/-! ## What is read of a model -/

/-- The accessors of a group that stand for an operation. -/
def Group.reconciled (schema : SchemaIndex) (group : Group) : List Accessor :=
  group.accessors.filter fun accessor => (schema.reconciled? group.kind accessor).isSome

/-- A group with the same words and the same accessors that stand for an operation. -/
structure Group.Extends (schema : SchemaIndex) (group group' : Group) : Prop where
  typeName : group'.typeName = group.typeName
  kind : group'.kind = group.kind
  key : group'.key = group.key
  description : group'.description = group.description
  accessors : group'.reconciled schema = group.reconciled schema

theorem Group.Extends.refl (schema : SchemaIndex) (group : Group) : group.Extends schema group :=
  ⟨rfl, rfl, rfl, rfl, rfl⟩

/-- A model with distinct types, among them all those of another model, and with the same groups. -/
structure HostModel.Extends (schema : SchemaIndex) (model model' : HostModel) : Prop where
  distinct : (model'.types.map (·.name)).Nodup
  types : ∀ type ∈ model.types, ∃ type' ∈ model'.types, type.Extends schema type'
  groups : List.Forall₂ (Group.Extends schema) model.groups model'.groups

theorem forall_extends_self (groups : List Group) :
    List.Forall₂ (Group.Extends schema) groups groups :=
  List.forall₂_same.2 fun group _ => .refl schema group

/-- A field under a name that no schema type has a field of is not found by a walk. -/
theorem HostShape.extends_of_insert {earlier later : List Member} {member : Member}
    (hnew : ¬schema.DeclaresField member.name) :
    (HostShape.object (earlier ++ later)).Extends schema (.object (earlier ++ member :: later)) := by
  refine .object fun name hname => ?_
  have hne : member.name ≠ name := fun h => hnew (h ▸ hname)
  rw [List.find?_append, List.find?_append, List.find?_cons_of_neg (by simpa using hne)]

/-- An addition keeps what is read. -/
theorem HostModel.Gains.extends {model model' : HostModel} (h : model.Gains schema model')
    (hdistinct : (model.types.map (·.name)).Nodup) : model.Extends schema model' := by
  cases h with
  | order h =>
    refine ⟨(h.map _).nodup hdistinct, fun type htype => ?_, forall_extends_self _⟩
    exact ⟨type, h.subset htype, .refl schema type⟩
  | type hnew =>
    refine ⟨List.nodup_cons.2 ⟨hnew, hdistinct⟩, fun type htype => ?_, forall_extends_self _⟩
    exact ⟨type, List.mem_cons_of_mem _ htype, .refl schema type⟩
  | @field groups before after type earlier later member hfields hnew =>
    refine ⟨by simpa using hdistinct, fun other hother => ?_, forall_extends_self _⟩
    rcases List.mem_append.1 hother with hbefore | hother
    · exact ⟨other, List.mem_append_left _ hbefore, .refl schema other⟩
    rcases List.mem_cons.1 hother with rfl | hafter
    · exact ⟨_, List.mem_append_right _ List.mem_cons_self, rfl, rfl, rfl,
        hfields ▸ HostShape.extends_of_insert hnew⟩
    · exact ⟨other, List.mem_append_right _ (List.mem_cons_of_mem _ hafter), .refl schema other⟩
  | @accessor types before after group earlier later accessor haccessors hnone =>
    refine ⟨hdistinct, fun type htype => ⟨type, htype, .refl schema type⟩, ?_⟩
    refine List.rel_append (forall_extends_self before)
      (.cons ⟨rfl, rfl, rfl, rfl, ?_⟩ (forall_extends_self after))
    simp [Group.reconciled, haccessors, hnone]

/-! ## Documenting groups -/

namespace Surroundings

variable {around around' : Surroundings}

/-- Accessors that implement nothing have no records. -/
theorem recordsOf_implementers (kind : OperationKind) (owner : String) :
    ∀ accessors : List Accessor, around.recordsOf kind owner (around.implementers kind accessors) =
      around.recordsOf kind owner accessors
  | [] => rfl
  | accessor :: accessors => by
      have ih := recordsOf_implementers kind owner accessors
      cases himplemented : around.implemented? kind accessor with
      | none =>
        rw [implementers_cons_of_none himplemented, ih]
        simp only [recordsOf, himplemented]
      | some operation =>
        rw [implementers_cons_of_some himplemented]
        simp only [recordsOf, himplemented, ih]

theorem implementers_eq_reconciled (group : Group) :
    around.implementers group.kind group.accessors = group.reconciled around.schema := by
  simp only [implementers, isSome_implemented?, Group.reconciled]

/-- A group with the same words and the same accessors that stand for an operation has the same
records. -/
theorem recordsOf_of_extends {group group' : Group} (h : group.Extends around.schema group') :
    around.recordsOf group'.kind group'.typeName group'.accessors =
      around.recordsOf group.kind group.typeName group.accessors := by
  rw [← recordsOf_implementers group'.kind, ← recordsOf_implementers group.kind,
    implementers_eq_reconciled, implementers_eq_reconciled, h.accessors, h.kind, h.typeName]

theorem Extends.implemented? (h : around.Extends around') (kind : OperationKind)
    (accessor : Accessor) :
    around'.implemented? kind accessor = around.implemented? kind accessor := by
  have hoperation : around'.operation? kind = around.operation? kind := by
    funext name
    rw [operation?, operation?, h.schema]
  rw [Surroundings.implemented?, Surroundings.implemented?, hoperation]

theorem Extends.recordsOf (h : around.Extends around') (kind : OperationKind) (owner : String) :
    ∀ accessors : List Accessor, SessionStep.Carries (around.recordsOf kind owner accessors)
      (around'.recordsOf kind owner accessors)
  | [] => .pure _
  | accessor :: accessors => by
      unfold Surroundings.recordsOf
      rw [h.implemented?]
      cases around.implemented? kind accessor with
      | none => exact h.recordsOf kind owner accessors
      | some operation =>
        exact .bind (h.assemble kind owner accessor) fun _ =>
          .bind (h.recordsOf kind owner accessors) fun _ => .pure _

/-- Entries that are the same for a catalog. -/
structure SameEntry (entry entry' : Group × List OperationRecord) : Prop where
  key : entry'.1.key = entry.1.key
  description : entry'.1.description = entry.1.description
  records : entry'.2 = entry.2

/-- Groups that are documented have the same entries next to a host that answers more. -/
theorem Extends.documentGroups (h : around.Extends around') {groups groups' : List Group}
    (hgroups : List.Forall₂ (Group.Extends around.schema) groups groups') {session : Session}
    (hwf : session.WellFormed) {documented : List (Group × List OperationRecord)}
    {session' : Session}
    (hrun : (around.documentGroups groups).runOn session = (.ok documented, session')) :
    ∃ documented', (around'.documentGroups groups').runOn session = (.ok documented', session') ∧
      List.Forall₂ SameEntry documented documented' := by
  induction hgroups generalizing session documented with
  | nil =>
    cases hrun
    exact ⟨[], rfl, .nil⟩
  | @cons group group' groups groups' hgroup _ ih =>
    obtain ⟨records, session₁, hrecords, hrun⟩ := SessionStep.runOn_bind_eq_ok_iff.1 hrun
    obtain ⟨others, session₂, hothers, hrun⟩ := SessionStep.runOn_bind_eq_ok_iff.1 hrun
    cases hrun
    obtain ⟨hwf₁, hrecords'⟩ := h.recordsOf _ _ _ session hwf _ _ hrecords
    rw [← recordsOf_of_extends (h.schema ▸ hgroup)] at hrecords'
    obtain ⟨others', hothers', hsame⟩ := ih hwf₁ hothers
    exact ⟨(group', records) :: others', SessionStep.runOn_bind_eq_ok_iff.2 ⟨_, _, hrecords',
        SessionStep.runOn_bind_eq_ok_iff.2 ⟨_, _, hothers', rfl⟩⟩,
      .cons ⟨hgroup.key, hgroup.description, rfl⟩ hsame⟩

end Surroundings

/-! ## Catalogs -/

namespace Catalog

theorem foldl_addRecords_of_same {documented documented' : List (Group × List OperationRecord)}
    (h : List.Forall₂ Surroundings.SameEntry documented documented')
    (groups : List (String × OperationGroup)) :
    documented'.foldl addRecords groups = documented.foldl addRecords groups := by
  induction h generalizing groups with
  | nil => rfl
  | cons hsame _ ih =>
    rw [List.foldl_cons, List.foldl_cons, ih, addRecords, addRecords, hsame.key,
      hsame.description, hsame.records]

theorem orderedGroups_extends {model model' : HostModel}
    (h : List.Forall₂ (Group.Extends schema) model.groups model'.groups) :
    List.Forall₂ (Group.Extends schema) (orderedGroups model) (orderedGroups model') := by
  have hfilter : ∀ kind, List.Forall₂ (Group.Extends schema)
      (model.groups.filter (·.kind == kind)) (model'.groups.filter (·.kind == kind)) := fun kind =>
    List.rel_filter (fun group group' hgroup => by simp [hgroup.kind]) h
  rw [orderedGroups_eq, orderedGroups_eq]
  exact List.rel_append (List.rel_append (hfilter _) (hfilter _)) (hfilter _)

/-- A catalog is the same for a model that keeps what is read. -/
theorem build_of_extends {model model' : HostModel} (h : model.Extends schema model')
    {catalog : Catalog} (hbuild : build schema model = .ok catalog) :
    build schema model' = .ok catalog := by
  obtain ⟨host, documented, session, hhost, hrun, rfl⟩ := exists_documented hbuild
  obtain ⟨host', hhost'⟩ := HostTypes.exists_ofModel h.distinct
  have hextends : (Surroundings.mk schema host).Extends ⟨schema, host'⟩ := by
    refine ⟨rfl, fun name type hfind => ?_⟩
    obtain ⟨hmem, hname⟩ := HostTypes.find?_eq_some_iff.1 hfind
    rw [HostTypes.types_of_ofModel hhost] at hmem
    obtain ⟨type', hmem', htype⟩ := h.types type hmem
    rw [← HostTypes.types_of_ofModel hhost'] at hmem'
    exact ⟨type', HostTypes.find?_eq_some_iff.2 ⟨hmem', htype.name.trans hname⟩, htype⟩
  obtain ⟨documented', hrun', hsame⟩ :=
    hextends.documentGroups (orderedGroups_extends h.groups) .fresh hrun
  rw [build, hhost', ok_bind]
  dsimp only
  rw [hrun', ← foldl_addRecords_of_same hsame]

/-- A catalog is the same for every model that additions lead to, one after the other, which the
schema does not ask for. -/
theorem additions_are_invisible {model model' : HostModel} {catalog : Catalog}
    (hbuild : build schema model = .ok catalog)
    (hgains : Relation.ReflTransGen (HostModel.Gains schema) model model') :
    build schema model' = .ok catalog := by
  induction hgains with
  | refl => exact hbuild
  | tail _ hgain ih =>
    obtain ⟨host, _, _, hhost, -⟩ := exists_documented ih
    have hdistinct := host.distinct
    rw [HostTypes.types_of_ofModel hhost] at hdistinct
    exact build_of_extends (hgain.extends hdistinct) ih

/-- A schema of members who have names. -/
def clubSchema : SchemaIndex where
  types := [("Query", [⟨"member", ⟨"Person", false, false⟩, []⟩]),
    ("Person", [⟨"name", ⟨"String", false, false⟩, []⟩])]

/-- The name of a member. -/
def personName : Member :=
  ⟨"name", .plain "String", {}⟩

/-- The type of a member. -/
def personView : HostType where
  name := "PersonView"
  shape := .object [personName]

/-- The type of a member with a secret of an undeclared type. -/
def secretiveView : HostType where
  name := "PersonView"
  shape := .object [⟨"secret", .plain "Nowhere", {}⟩, personName]

/-- A type with a malformed list and an undeclared parent. -/
def ghostView : HostType where
  name := "GhostView"
  parent := some "Nobody"
  shape := .object [⟨"name", .list "Vec" [], {}⟩]

/-- The accessor for a member. -/
def memberAccessor : Accessor where
  name := "getMember"
  returns := .plain "PersonView"

/-- An accessor with a malformed result, for which the schema has no operation. -/
def hauntAccessor : Accessor where
  name := "haunt"
  returns := .list "Vec" [.list "Vec" [], .plain "GhostView"]

/-- The queries of a club by their accessors. -/
def clubQueries (accessors : List Accessor) : Group where
  typeName := "Club"
  kind := .query
  accessors := accessors

/-- A club with one query. -/
def clubModel : HostModel where
  types := [personView]
  groups := [clubQueries [memberAccessor]]

/-- The club with a ghost, a secret and a haunt. -/
def hauntedModel : HostModel where
  types := [secretiveView, ghostView]
  groups := [clubQueries [hauntAccessor, memberAccessor]]

/-- The catalog of the club is that of the haunted club. -/
theorem haunted_catalog_is_the_same :
    Relation.ReflTransGen (HostModel.Gains clubSchema) clubModel hauntedModel ∧
      ∃ catalog, build clubSchema clubModel = .ok catalog ∧
        build clubSchema hauntedModel = .ok catalog ∧
        catalog.objectTypes.map (·.1) = ["PersonView"] := by
  have hghost : HostModel.Gains clubSchema clubModel
      ⟨[ghostView, personView], [clubQueries [memberAccessor]]⟩ :=
    .type (by decide)
  have hsecret : HostModel.Gains clubSchema
      ⟨[ghostView, personView], [clubQueries [memberAccessor]]⟩
      ⟨[ghostView, secretiveView], [clubQueries [memberAccessor]]⟩ :=
    .field [ghostView] [] [] [personName] rfl (by unfold SchemaIndex.DeclaresField; decide)
  have horder : HostModel.Gains clubSchema
      ⟨[ghostView, secretiveView], [clubQueries [memberAccessor]]⟩
      ⟨[secretiveView, ghostView], [clubQueries [memberAccessor]]⟩ :=
    .order (.swap _ _ _)
  have hhaunt : HostModel.Gains clubSchema
      ⟨[secretiveView, ghostView], [clubQueries [memberAccessor]]⟩ hauntedModel :=
    .accessor [] [] [] [memberAccessor] rfl (by rfl)
  have hgains := (((Relation.ReflTransGen.single hghost).tail hsecret).tail horder).tail hhaunt
  have htypes : (build clubSchema clubModel).map (·.objectTypes.map (·.1)) =
      .ok ["PersonView"] := by decide +kernel
  obtain ⟨catalog, hbuild, htypes⟩ := map_eq_ok_iff.1 htypes
  exact ⟨hgains, catalog, hbuild, additions_are_invisible hbuild hgains, htypes⟩

end Catalog

end OperationAtlas
