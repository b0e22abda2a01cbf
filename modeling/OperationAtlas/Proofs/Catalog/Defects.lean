import OperationAtlas.Proofs.Catalog.Assemblies
import OperationAtlas.Proofs.Host.Ancestors
import OperationAtlas.Proofs.Sample.Stored
import OperationAtlas.Proofs.Session.Failures

/-!
# Defects of a host model

A catalog fails at the first defect that its walks come upon, and the failure names it:
`Surroundings.Defect` says what is wrong with the model. Walks read the types of the results and
parameters of accessors that implement an operation, and of the members behind the fields of the
types that they walk (`Surroundings.Reads`), and nothing else, so a defect elsewhere is not found.
What a catalog has walked is free of defects (`Surroundings.Supports`): a walk looks up every field
of its type, also if the type that a field leads to was walked before or is running.

`Catalog.errors_name_defects` says both. Its two halves are `Catalog.exists_defect` and
`Catalog.supports_of_build`.
-/

namespace OperationAtlas

namespace HostTypes

variable {host : HostTypes}

/-! ## Types that resolve -/

/-- Every list level of a type has one parameter, and below them stands a leaf or a declared type. -/
structure Resolves (host : HostTypes) (type : TypeRef) : Prop where
  levels : ¬ type.IsMalformed
  element : ∃ name depth, type.unwrap? = some (.plain name, depth) ∧
    ((∃ kind, LeafKind.ofName? name = some kind) ∨ ∃ declared, host.find? name = some declared)

theorem resolves_of_kind {type element : TypeRef} {depth : Nat} {kind : TypeKind}
    (hunwrap : type.unwrap? = some (element, depth)) (hkind : host.kind element = .ok kind) :
    host.Resolves type := by
  obtain ⟨name, rfl⟩ := TypeRef.unwrap?_plain hunwrap
  refine ⟨fun hmalformed => ?_, name, depth, hunwrap, ?_⟩
  · rw [TypeRef.unwrap?_eq_none_iff.2 hmalformed] at hunwrap
    cases hunwrap
  · rcases kind_plain_eq_ok_iff.1 hkind with ⟨scalar, hscalar, -⟩ | ⟨-, type, _, hfind, -⟩ |
      ⟨-, type, _, hfind, -⟩
    · exact .inl ⟨scalar, hscalar⟩
    · exact .inr ⟨type, hfind⟩
    · exact .inr ⟨type, hfind⟩

end HostTypes

namespace Surroundings

variable {around : Surroundings} {model : HostModel} {session session' : Session}
  {schemaNames : List (String × String)} {owner : String} {operation : FieldDecl}
  {accessor : Accessor} {error : DocError}

/-! ## What walks read -/

/-- A type that is read, with the names under which a failure reports it: that of the result or of a
parameter of an accessor that implements an operation, or that of a field which a walked type has or
inherits for a field of its schema type. -/
inductive Reads (around : Surroundings) (model : HostModel)
    (schemaNames : List (String × String)) : String → String → TypeRef → Prop
  | result {group : Group} {accessor : Accessor} {operation : FieldDecl}
      (hgroup : group ∈ model.groups) (haccessor : accessor ∈ group.accessors)
      (himplements : around.implemented? group.kind accessor = some operation) :
      Reads around model schemaNames group.typeName accessor.name accessor.returns
  | parameter {group : Group} {accessor : Accessor} {operation : FieldDecl} {parameter : Member}
      (hgroup : group ∈ model.groups) (haccessor : accessor ∈ group.accessors)
      (himplements : around.implemented? group.kind accessor = some operation)
      (hparameter : parameter ∈ accessor.parameters) :
      Reads around model schemaNames group.typeName parameter.name parameter.type
  | field {owner schemaType : String} {field : FieldDecl} {member : Member}
      (hwalked : OrderedMap.lookup owner schemaNames = some schemaType)
      (hfield : field ∈ around.schema.describe schemaType)
      (hinherits : around.host.Inherits owner member) (hname : member.name = field.name) :
      Reads around model schemaNames owner member.name member.type

/-- What is wrong when a call of a catalog fails, where `schemaNames` are the schema types under
which host types are walked. A walked type neither declares nor inherits a field of its schema type;
a type that is read has a malformed list level or an element that is not declared; the way up from a
walked type leads to a parent that is not declared; or a composed text is no request. -/
inductive Defect (around : Surroundings) (model : HostModel)
    (schemaNames : List (String × String)) : DocError → Prop
  | drift {owner schemaType : String} {type : HostType} {field : FieldDecl}
      (hwalked : OrderedMap.lookup owner schemaNames = some schemaType)
      (hdeclared : around.host.find? owner = some type)
      (hfield : field ∈ around.schema.describe schemaType)
      (hlacks : ∀ member, around.host.Inherits owner member → member.name ≠ field.name) :
      Defect around model schemaNames (.schemaDrift owner schemaType field.name)
  | type {owner member : String} {type : TypeRef} {error : DocError}
      (hreads : around.Reads model schemaNames owner member type)
      (hfault : around.host.MemberFault owner member type error) :
      Defect around model schemaNames error
  | parent {owner schemaType ancestor name : String}
      (hwalked : OrderedMap.lookup owner schemaNames = some schemaType)
      (hfields : around.schema.describe schemaType ≠ [])
      (hascends : around.host.Ascends owner ancestor)
      (hparent : around.host.IsParent ancestor name)
      (hundeclared : around.host.find? name = none) :
      Defect around model schemaNames (.unknownHostType name)
  | request {group : Group} {accessor : Accessor} {operation : FieldDecl} {before after : Session}
      {passed : List (Member × String)} {selection : Option String} {fault : RequestFault}
      {written : String} (hgroup : group ∈ model.groups) (haccessor : accessor ∈ group.accessors)
      (himplements : around.implemented? group.kind accessor = some operation)
      (hcomposes : around.Composes group.typeName operation accessor before passed selection after)
      (hcanonical : ExampleRequest.canonical group.kind
        (requestText group.kind operation passed selection) =
          .error (.grammar group.kind fault written)) :
      Defect around model schemaNames (.grammar group.kind fault written)

/-- Where the host is to blame for a field of a running type, there is a defect. -/
theorem FieldFault.defect (h : around.FieldFault session error)
    (hdeclared : ∀ owner ∈ session.running, ∃ type, around.host.find? owner = some type) :
    around.Defect model session.schemaNames error := by
  obtain ⟨hrunning, hschema, hfield, herror⟩ := h
  obtain ⟨type, hfind⟩ := hdeclared _ hrunning
  rcases memberOf_eq_error herror with hfields | ⟨hnone, rfl⟩ | ⟨member, hfirst, hfault⟩
  · rcases bind_eq_error_iff.1 hfields with hfields | ⟨members, -, hfields⟩
    · obtain ⟨name, hascends, hundeclared, rfl⟩ := HostTypes.exists_undeclared_of_fields hfields
      -- the owner itself is declared, so the name is a parent of someone
      rcases hascends.cases_tail with rfl | ⟨ancestor, hup, hparent⟩
      · rw [hfind] at hundeclared
        cases hundeclared
      · exact .parent hschema (List.ne_nil_of_mem hfield) hup hparent hundeclared
    · cases hfields
  · exact .drift hschema hfind hfield fun member => HostTypes.ne_of_field?_eq_none hnone
  · obtain ⟨hinherits, hname⟩ := HostTypes.inherits_of_field? hfirst
    exact .type (.field hschema hfield hinherits hname) hfault

/-- The first call that fails comes upon a defect. -/
theorem exists_defect_of_perform
    (hrun : (around.perform (around.assemblies (Catalog.orderedGroups model))).runOn {} =
      (.error error, session)) :
    around.Defect model session.schemaNames error := by
  obtain ⟨before, call, after, session₁, hcalls, hbefore, hfails⟩ :=
    exists_call_of_perform_eq_error hrun
  obtain ⟨group, hgroup, accessor, haccessor, operation, himplements, rfl⟩ :=
    mem_assemblies.1 (hcalls ▸ List.mem_append_right before List.mem_cons_self)
  rw [Catalog.mem_orderedGroups_iff] at hgroup
  have hclean : around.ReachableCleanly session₁ := ReachableCleanly.fresh.perform hbefore
  have hreach : around.Reachable session := by
    have := hclean.reachable.call (.assemble group.kind group.typeName operation accessor)
    rwa [hfails] at this
  have hdeclared : ∀ owner ∈ session.running, ∃ type, around.host.find? owner = some type :=
    fun owner howner => hreach.declared (Session.isUntouched_eq_false_iff.2 (.inl howner))
  have hassemble : (around.assemble group.kind group.typeName operation accessor).runOn session₁ =
      (.error error, session) := by
    rcases SessionStep.runOn_bind_eq_error_iff.1 hfails with hassemble | ⟨_, _, -, hrest⟩
    · exact hassemble
    · cases hrest
  rcases fault_of_assemble hclean hassemble with hfault | ⟨_, _, _, hcomposes, hcanonical⟩
  · cases hfault with
    | result h => exact .type (.result hgroup haccessor himplements) h
    | parameter hmem h => exact .type (.parameter hgroup haccessor himplements hmem) h
    | field h => exact h.defect hdeclared
  · obtain ⟨fault, written, rfl⟩ := ExampleRequest.exists_grammar_of_canonical hcanonical
    exact .request hgroup haccessor himplements hcomposes hcanonical

/-! ## What has been read resolves -/

theorem resolves_of_argumentsOf : ∀ {parameters : List Member} {session session' : Session}
    {arguments : List (String × ParameterSummary)},
    (around.argumentsOf operation owner parameters).runOn session = (.ok arguments, session') →
    ∀ parameter ∈ parameters, around.host.Resolves parameter.type
  | [], _, _, _, _ => nofun
  | parameter :: parameters, session, session', arguments, hrun => by
      obtain ⟨first, session₁, hfirst, hrun⟩ := SessionStep.runOn_bind_eq_ok_iff.1 hrun
      obtain ⟨others, session₂, hothers, -⟩ := SessionStep.runOn_bind_eq_ok_iff.1 hrun
      obtain ⟨⟨element, depth⟩, hunwrap, hfirst⟩ :=
        SessionStep.runOn_ofExcept_bind_eq_ok_iff.1 hfirst
      obtain ⟨kind, hkind, -⟩ := SessionStep.runOn_ofExcept_bind_eq_ok_iff.1 hfirst
      exact List.forall_mem_cons.2
        ⟨HostTypes.resolves_of_kind (HostTypes.unwrap_eq_ok_iff.1 hunwrap) hkind,
          resolves_of_argumentsOf hothers⟩

/-- An assembly reads the types of the result and of the parameters. -/
theorem resolves_of_assemble {kind : OperationKind} {record : OperationRecord}
    (hrun : (around.assemble kind owner operation accessor).runOn session =
      (.ok record, session')) :
    around.host.Resolves accessor.returns ∧
      ∀ parameter ∈ accessor.parameters, around.host.Resolves parameter.type := by
  obtain ⟨result, session₁, hresult, hrun⟩ := SessionStep.runOn_bind_eq_ok_iff.1 hrun
  obtain ⟨arguments, session₂, harguments, -⟩ := SessionStep.runOn_bind_eq_ok_iff.1 hrun
  obtain ⟨⟨element, depth⟩, hunwrap, hresult⟩ := SessionStep.runOn_ofExcept_bind_eq_ok_iff.1 hresult
  obtain ⟨kind, hkind, -⟩ := SessionStep.runOn_ofExcept_bind_eq_ok_iff.1 hresult
  exact ⟨HostTypes.resolves_of_kind (HostTypes.unwrap_eq_ok_iff.1 hunwrap) hkind,
    resolves_of_argumentsOf harguments⟩

/-- The member behind a field that a sample shows is declared or inherited, and its type resolves. -/
theorem Match.Finds.resolves {m : Match} (h : m.Finds around owner) :
    around.host.Inherits owner m.member ∧ m.member.name = m.field.name ∧
      around.host.Resolves m.member.type := by
  obtain ⟨hinherits, hname⟩ :=
    HostTypes.inherits_of_field? (HostTypes.field?_eq_ok_iff.2 h.first)
  exact ⟨hinherits, hname, HostTypes.resolves_of_kind h.element h.kind⟩

/-- What a host model and a catalog of it are like if no walk came upon a defect: type names are
distinct; every type of the catalog has a schema type, and if that has fields, all ancestors of the
type are declared and for each of the fields there is a field of the type or of an ancestor whose
type resolves; and the types of the results and parameters of accessors that implement an operation
resolve. -/
structure Supports (around : Surroundings) (model : HostModel) (catalog : Catalog) : Prop where
  distinct : (model.types.map (·.name)).Nodup
  named : ∀ owner ∈ catalog.objectTypes.map (·.1),
    ∃ schemaType, OrderedMap.lookup owner catalog.schemaNames = some schemaType
  ancestors : ∀ owner ∈ catalog.objectTypes.map (·.1), ∀ schemaType,
    OrderedMap.lookup owner catalog.schemaNames = some schemaType →
      around.schema.describe schemaType ≠ [] →
        ∀ ancestor, around.host.Ascends owner ancestor →
          ∃ type, around.host.find? ancestor = some type
  fields : ∀ owner ∈ catalog.objectTypes.map (·.1), ∀ schemaType,
    OrderedMap.lookup owner catalog.schemaNames = some schemaType →
      ∀ field ∈ around.schema.describe schemaType,
        ∃ member, around.host.Inherits owner member ∧ member.name = field.name ∧
          around.host.Resolves member.type
  accessors : ∀ group ∈ model.groups, ∀ accessor ∈ group.accessors,
    ∀ operation, around.implemented? group.kind accessor = some operation →
      around.host.Resolves accessor.returns ∧
        ∀ parameter ∈ accessor.parameters, around.host.Resolves parameter.type

end Surroundings

namespace Catalog

variable {schema : SchemaIndex} {model : HostModel}

/-- A catalog fails because a type is declared twice or because one of its calls comes upon a
defect. -/
theorem exists_defect {error : DocError} (h : build schema model = .error error) :
    (∃ name, error = .duplicateHostType name ∧ 2 ≤ (model.types.map (·.name)).count name) ∨
      ∃ host session, HostTypes.ofModel model = .ok host ∧
        ((Surroundings.mk schema host).perform
          ((Surroundings.mk schema host).assemblies (orderedGroups model))).runOn {} =
            (.error error, session) ∧
        (Surroundings.mk schema host).Defect model session.schemaNames error := by
  rcases calls_of_build_eq_error h with hhost | ⟨host, session, hhost, hrun⟩
  · exact .inl (HostTypes.exists_duplicate_of_ofModel hhost)
  · exact .inr ⟨host, session, hhost, hrun, Surroundings.exists_defect_of_perform hrun⟩

/-- A catalog that does not fail supports what it documents. -/
theorem supports_of_build {catalog : Catalog} (h : build schema model = .ok catalog) :
    ∃ host, HostTypes.ofModel model = .ok host ∧
      (Surroundings.mk schema host).Supports model catalog := by
  obtain ⟨host, session, hhost, hrun, htypes, hnames⟩ := calls_of_build_eq_ok h
  have hclean := Surroundings.ReachableCleanly.fresh.perform hrun
  have hobjects : ∀ owner, owner ∈ catalog.objectTypes.map (·.1) ↔
      owner ∈ session.samples.map (·.1) := by
    intro owner
    rw [htypes, Session.objectTypes, List.map_map]
    rfl
  have hfound : ∀ owner ∈ catalog.objectTypes.map (·.1), ∃ schemaType,
      OrderedMap.lookup owner catalog.schemaNames = some schemaType ∧
        ∃ found : List Surroundings.Match, found.map (·.field) = schema.describe schemaType ∧
          ∀ m ∈ found, m.Finds ⟨schema, host⟩ owner := by
    intro owner howner
    obtain ⟨sample, hsample⟩ :=
      Option.isSome_iff_exists.1 (OrderedMap.isSome_lookup_iff.2 ((hobjects owner).1 howner))
    obtain ⟨before, after, hsplit⟩ := List.append_of_mem (OrderedMap.mem_of_lookup hsample)
    obtain ⟨type, schemaType, pieces, -, hschema, hpieces, -⟩ :=
      hclean.reachable.madeOfPieces before owner sample after hsplit
    obtain ⟨found, hfields, hall, -⟩ := Surroundings.exists_matches_of_pieces hpieces
    exact ⟨schemaType, hnames ▸ hschema, found, hfields, hall⟩
  refine ⟨host, hhost, ?_, fun owner howner => ?_, ?_, ?_, ?_⟩
  · rw [← HostTypes.types_of_ofModel hhost]
    exact host.distinct
  · obtain ⟨schemaType, hschema, -⟩ := hfound owner howner
    exact ⟨schemaType, hschema⟩
  · intro owner howner schemaType hschema hne ancestor hascends
    obtain ⟨_, hschema', found, hfields, hall⟩ := hfound owner howner
    obtain rfl := Option.some.inj (hschema.symm.trans hschema')
    obtain ⟨field, hfield⟩ := List.exists_mem_of_ne_nil _ hne
    obtain ⟨m, hm, -⟩ := List.mem_map.1 (hfields ▸ hfield)
    obtain ⟨members, hmembers, -⟩ := (hall m hm).first
    exact HostTypes.declared_of_fields hmembers hascends
  · intro owner howner schemaType hschema field hfield
    obtain ⟨_, hschema', found, hfields, hall⟩ := hfound owner howner
    obtain rfl := Option.some.inj (hschema.symm.trans hschema')
    obtain ⟨m, hm, rfl⟩ := List.mem_map.1 (hfields ▸ hfield)
    exact ⟨m.member, (hall m hm).resolves⟩
  · intro group hgroup accessor haccessor operation himplements
    have hcall := Surroundings.mem_assemblies.2
      ⟨group, mem_orderedGroups_iff.2 hgroup, accessor, haccessor, operation, himplements, rfl⟩
    obtain ⟨before, after, hstep⟩ := Surroundings.exists_step_of_perform_eq_ok hrun hcall
    obtain ⟨record, after', hassemble, -⟩ := SessionStep.runOn_bind_eq_ok_iff.1 hstep
    exact Surroundings.resolves_of_assemble hassemble

/-- A catalog that fails names a defect: a type that is declared at least twice, or what a call came
upon among the types that it walks. A catalog that does not fail has come upon none: type names are
distinct, and whatever its walks have read is declared and well formed. -/
theorem errors_name_defects (schema : SchemaIndex) (model : HostModel) :
    (∀ error, build schema model = .error error →
      (∃ name, error = .duplicateHostType name ∧ 2 ≤ (model.types.map (·.name)).count name) ∨
        ∃ host session, HostTypes.ofModel model = .ok host ∧
          ((Surroundings.mk schema host).perform
            ((Surroundings.mk schema host).assemblies (orderedGroups model))).runOn {} =
              (.error error, session) ∧
          (Surroundings.mk schema host).Defect model session.schemaNames error) ∧
      ∀ catalog, build schema model = .ok catalog →
        ∃ host, HostTypes.ofModel model = .ok host ∧
          (Surroundings.mk schema host).Supports model catalog :=
  ⟨fun _ => exists_defect, fun _ => supports_of_build⟩

/-- A schema of guests and their friends. -/
def guestSchema : SchemaIndex where
  types := [("Query", [⟨"guest", ⟨"Guest", false, false⟩, []⟩]),
    ("Guest", [⟨"name", ⟨"String", false, false⟩, []⟩, ⟨"friends", ⟨"Guest", false, true⟩, []⟩])]

/-- A host of guests below a parent, next to a base type with the given fields. -/
def guestModel (parent : String) (fields : List Member) : HostModel where
  types := [
    { name := "GuestView", parent := some parent, shape := .object [⟨"name", .plain "String", {}⟩] },
    { name := "Base", shape := .object fields }]
  groups := [{
    typeName := "Hotel"
    kind := .query
    accessors := [{ name := "getGuest", returns := .list "Vec" [.plain "GuestView"] }] }]

/-- The friends that guests inherit. -/
def friendsField (parameters : List TypeRef) : Member :=
  ⟨"friends", .list "Vec" parameters, {}⟩

/-- Guests with a defect: an inherited list without a parameter, a parent that nobody declares, and a
field that is neither declared nor inherited. -/
def guestDefects : List (HostModel × DocError) :=
  [(guestModel "Base" [friendsField []], .malformedListType "GuestView" "friends"),
    (guestModel "Nobody" [], .unknownHostType "Nobody"),
    (guestModel "Base" [], .schemaDrift "GuestView" "Guest" "friends")]

/-- Guests that inherit a list of guests. -/
def befriendedModel : HostModel :=
  guestModel "Base" [friendsField [.plain "GuestView"]]

/-- Each defect is found and named, and the guests that inherit a list of guests have none. -/
theorem guest_defects_are_found :
    (∀ case ∈ guestDefects, build guestSchema case.1 = .error case.2 ∧
      ∃ host, ∃ session : Session,
        (Surroundings.mk guestSchema host).Defect case.1 session.schemaNames case.2) ∧
      ∃ catalog, build guestSchema befriendedModel = .ok catalog ∧
        ∃ host, (Surroundings.mk guestSchema host).Supports befriendedModel catalog := by
  constructor
  · have hfails : ∀ case ∈ guestDefects, build guestSchema case.1 = .error case.2 ∧
        (case.1.types.map (·.name)).Nodup := by
      decide +kernel
    intro case hcase
    obtain ⟨hfails, honce⟩ := hfails case hcase
    refine ⟨hfails, ?_⟩
    rcases (errors_name_defects guestSchema case.1).1 _ hfails with
      ⟨name, -, htwice⟩ | ⟨host, session, -, -, hdefect⟩
    · have := List.nodup_iff_count_le_one.1 honce name
      omega
    · exact ⟨host, session, hdefect⟩
  · have hbuilds : (build guestSchema befriendedModel).map (fun _ => ()) = .ok () := by
      decide +kernel
    obtain ⟨catalog, hbuild, -⟩ := map_eq_ok_iff.1 hbuilds
    obtain ⟨host, -, hsupports⟩ := (errors_name_defects guestSchema _).2 _ hbuild
    exact ⟨catalog, hbuild, host, hsupports⟩

end Catalog

end OperationAtlas
