import Mathlib.Data.List.Forall2
import OperationAtlas.Proofs.Catalog.Assemblies
import OperationAtlas.Proofs.Naming
import OperationAtlas.Proofs.Sample.Assembly

/-!
# The records of a catalog

Documenting groups goes through them in order and through the accessors of each in order. The
accessors that implement an operation have one record each, assembled in a session to which no
failing call led (`Surroundings.Records`), and the others have none
(`Surroundings.documentGroups_eq_ok`). The records are then added group by group under the keys of
the groups: a key keeps the place and the words of its first group, and collects the records of all
its groups (`Catalog.lookup_foldl_addRecords`, `Catalog.keys_foldl_addRecords`).

`Catalog.records_are_kept_in_order` puts this together: no record is lost, none is written twice and
each stands in its place. What a record says of its accessor is `SchemaIndex.Describes`.
-/

namespace OperationAtlas

/-! ## Operations by name -/

namespace SchemaIndex

variable (schema : SchemaIndex)

/-- The names of the operations of a kind. -/
def operationNames (kind : OperationKind) : List String :=
  (schema.operations kind).map (·.name)

/-- The name of the operation of a kind that an accessor stands for. -/
def reconciled? (kind : OperationKind) (accessor : Accessor) : Option String :=
  reconcile? (fun name => decide (name ∈ schema.operationNames kind)) accessor.name

/-- An operation is the last one that is declared under a name. -/
def DeclaresLast (kind : OperationKind) (name : String) (operation : FieldDecl) : Prop :=
  ∃ before after, schema.operations kind = before ++ operation :: after ∧ operation.name = name ∧
    ∀ later ∈ after, later.name ≠ name

end SchemaIndex

namespace Surroundings

variable {around : Surroundings} {kind : OperationKind} {name : String} {operation : FieldDecl}
  {accessor : Accessor}

/-- Of several operations of a name the last one counts. -/
theorem operation?_eq_some_iff :
    around.operation? kind name = some operation ↔
      around.schema.DeclaresLast kind name operation := by
  rw [operation?, List.find?_eq_some_iff_append]
  constructor
  · rintro ⟨hname, after, before, hreverse, hafter⟩
    refine ⟨before.reverse, after.reverse, ?_, by simpa using hname, by simpa using hafter⟩
    rw [← List.reverse_reverse (around.schema.operations kind), hreverse]
    simp
  · rintro ⟨before, after, hoperations, hname, hafter⟩
    refine ⟨by simpa using hname, after.reverse, before.reverse, ?_, by simpa using hafter⟩
    rw [hoperations]
    simp

theorem isSome_operation? :
    (around.operation? kind name).isSome = decide (name ∈ around.schema.operationNames kind) := by
  rw [operation?, Bool.eq_iff_iff, List.find?_isSome, decide_eq_true_iff,
    SchemaIndex.operationNames, List.mem_map]
  simp

/-- The operation that an accessor implements is the last one of the name for which it stands. -/
theorem implemented?_eq_some_iff :
    around.implemented? kind accessor = some operation ↔
      around.schema.reconciled? kind accessor = some operation.name ∧
        around.schema.DeclaresLast kind operation.name operation := by
  have hdeclared : (fun name => (around.operation? kind name).isSome) =
      fun name => decide (name ∈ around.schema.operationNames kind) :=
    funext fun _ => isSome_operation?
  rw [implemented?, hdeclared, Option.bind_eq_some_iff]
  constructor
  · rintro ⟨name, hname, hoperation⟩
    obtain ⟨before, after, hsplit, rfl, hafter⟩ := operation?_eq_some_iff.1 hoperation
    exact ⟨hname, before, after, hsplit, rfl, hafter⟩
  · rintro ⟨hname, hlast⟩
    exact ⟨operation.name, hname, operation?_eq_some_iff.2 hlast⟩

/-- An accessor implements an operation exactly if it stands for one. -/
theorem isSome_implemented? :
    (around.implemented? kind accessor).isSome =
      (around.schema.reconciled? kind accessor).isSome := by
  have hdeclared : (fun name => (around.operation? kind name).isSome) =
      fun name => decide (name ∈ around.schema.operationNames kind) :=
    funext fun _ => isSome_operation?
  rw [implemented?, SchemaIndex.reconciled?, ← hdeclared]
  cases hname : reconcile? (fun name => (around.operation? kind name).isSome) accessor.name with
  | none => rfl
  | some name => exact isDeclared_of_reconcile? hname

theorem mem_of_implemented? (h : around.implemented? kind accessor = some operation) :
    operation ∈ around.schema.operations kind := by
  obtain ⟨-, before, after, hsplit, -⟩ := implemented?_eq_some_iff.1 h
  rw [hsplit]
  exact List.mem_append_right _ List.mem_cons_self

/-! ## Records in order -/

/-- A record of the accessor of a group, assembled after calls of which none failed. -/
structure Records (around : Surroundings) (source : Group) (accessor : Accessor)
    (operation : FieldDecl) (session session' : Session) (record : OperationRecord) : Prop where
  mem : accessor ∈ source.accessors
  implemented : around.implemented? source.kind accessor = some operation
  clean : around.ReachableCleanly session
  runs : (around.assemble source.kind source.typeName operation accessor).runOn session =
    (.ok record, session')

/-- What is implemented was declared. -/
theorem Records.operation_mem {source : Group} {session session' : Session}
    {record : OperationRecord}
    (h : around.Records source accessor operation session session' record) :
    operation ∈ around.schema.operations source.kind :=
  mem_of_implemented? h.implemented

/-- The accessors that implement an operation. -/
def implementers (around : Surroundings) (kind : OperationKind) (accessors : List Accessor) :
    List Accessor :=
  accessors.filter fun accessor => (around.implemented? kind accessor).isSome

theorem implementers_cons_of_none {accessors : List Accessor}
    (h : around.implemented? kind accessor = none) :
    around.implementers kind (accessor :: accessors) = around.implementers kind accessors :=
  List.filter_cons_of_neg (by simp [h])

theorem implementers_cons_of_some {accessors : List Accessor}
    (h : around.implemented? kind accessor = some operation) :
    around.implementers kind (accessor :: accessors) =
      accessor :: around.implementers kind accessors :=
  List.filter_cons_of_pos (by simp [h])

/-- A record of an accessor, assembled in a session from which another one has grown. -/
def RecordsBefore (around : Surroundings) (source : Group) (final : Session) (accessor : Accessor)
    (record : OperationRecord) : Prop :=
  ∃ operation before after, around.Records source accessor operation before after record ∧
    after.Grows final

theorem RecordsBefore.grows {source : Group} {session session' : Session} {record : OperationRecord}
    (h : around.RecordsBefore source session accessor record) (hgrows : session.Grows session') :
    around.RecordsBefore source session' accessor record := by
  obtain ⟨operation, before, after, hrecords, hafter⟩ := h
  exact ⟨operation, before, after, hrecords, hafter.trans hgrows⟩

/-- Some accessors of a group have a record each, in order, if they implement an operation. -/
theorem recordsOf_eq_ok {source : Group} :
    ∀ {accessors : List Accessor} {session session' : Session} {records : List OperationRecord},
      (∀ accessor ∈ accessors, accessor ∈ source.accessors) → around.ReachableCleanly session →
      (around.recordsOf source.kind source.typeName accessors).runOn session =
        (.ok records, session') →
      around.ReachableCleanly session' ∧ session.Grows session' ∧
        List.Forall₂ (around.RecordsBefore source session')
          (around.implementers source.kind accessors) records
  | [], session, _, _, _, h, hrun => by
      cases hrun
      exact ⟨h, .refl session, .nil⟩
  | accessor :: accessors, session, session', records, hmem, h, hrun => by
      obtain ⟨hfirstMem, hothersMem⟩ := List.forall_mem_cons.1 hmem
      unfold recordsOf at hrun
      split at hrun
      · next hnone =>
        rw [implementers_cons_of_none hnone]
        exact recordsOf_eq_ok hothersMem h hrun
      · next operation himplemented =>
        obtain ⟨first, session₁, hfirst, hrun⟩ := SessionStep.runOn_bind_eq_ok_iff.1 hrun
        obtain ⟨others, session₂, hothers, hrun⟩ := SessionStep.runOn_bind_eq_ok_iff.1 hrun
        cases hrun
        have hclean₁ : around.ReachableCleanly session₁ :=
          h.call (.assemble source.kind source.typeName operation accessor)
            (SessionStep.runOn_bind_eq_ok_iff.2 ⟨first, session₁, hfirst, rfl⟩)
        have hgrows₁ : session.Grows session₁ :=
          grows_of_keeps (Keeps.compositional.assemble (keeps_synthesize operation) _ _ _) h hfirst
        obtain ⟨hclean, hgrows, hall⟩ := recordsOf_eq_ok hothersMem hclean₁ hothers
        rw [implementers_cons_of_some himplemented]
        exact ⟨hclean, hgrows₁.trans hgrows, .cons
          ⟨operation, session, session₁, ⟨hfirstMem, himplemented, h, hfirst⟩, hgrows⟩ hall⟩

/-- Groups are documented in order, each with the records of its accessors. -/
theorem documentGroups_eq_ok :
    ∀ {groups : List Group} {session session' : Session}
      {documented : List (Group × List OperationRecord)}, around.ReachableCleanly session →
      (around.documentGroups groups).runOn session = (.ok documented, session') →
      session.Grows session' ∧ documented.map (·.1) = groups ∧ ∀ entry ∈ documented,
        List.Forall₂ (around.RecordsBefore entry.1 session')
          (around.implementers entry.1.kind entry.1.accessors) entry.2
  | [], session, _, _, _, hrun => by
      cases hrun
      exact ⟨.refl session, rfl, nofun⟩
  | group :: groups, session, session', documented, h, hrun => by
      obtain ⟨records, session₁, hrecords, hrun⟩ := SessionStep.runOn_bind_eq_ok_iff.1 hrun
      obtain ⟨others, session₂, hothers, hrun⟩ := SessionStep.runOn_bind_eq_ok_iff.1 hrun
      cases hrun
      obtain ⟨hclean₁, hgrows₁, hfirst⟩ := recordsOf_eq_ok (fun _ => id) h hrecords
      obtain ⟨hgrows, hgroups, hall⟩ := documentGroups_eq_ok hclean₁ hothers
      refine ⟨hgrows₁.trans hgrows, by rw [List.map_cons, hgroups], List.forall_mem_cons.2 ⟨?_, hall⟩⟩
      exact hfirst.imp fun accessor record hbefore => hbefore.grows hgrows

end Surroundings

/-! ## What a record says -/

namespace Surroundings

variable {around : Surroundings} {operation : FieldDecl} {owner : String} {accessor : Accessor}
  {session session' : Session}

/-- The example value of a type: that of a leaf, or that of the sample of an object type. -/
inductive HasExample (around : Surroundings) (session : Session) (name : String) : Json → Prop
  | leaf {leaf : Leaf} (hkind : around.host.kind (.plain name) = .ok (.leaf leaf)) :
      HasExample around session name (leaf.response none)
  | object {sample : Sample} (hkind : around.host.kind (.plain name) = .ok .object)
      (hsample : session.sample? name = some sample) :
      HasExample around session name sample.response

theorem HasExample.grows {name : String} {value : Json} (h : around.HasExample session name value)
    (hgrows : session.Grows session') : around.HasExample session' name value := by
  cases h with
  | leaf hkind => exact .leaf hkind
  | object hkind hsample => exact .object hkind (hgrows.sample? hsample)

/-- A result has the name of the host type below its lists, and shows the example value of that type
in as many lists. -/
theorem hasExample_of_resultOf {response : Json} {outputName : String} {selection : Option String}
    (hrun : (around.resultOf operation owner accessor).runOn session =
      (.ok (response, outputName, selection), session')) :
    ∃ depth value, accessor.returns.unwrap? = some (.plain outputName, depth) ∧
      around.HasExample session' outputName value ∧ response = Json.nest depth value := by
  obtain ⟨⟨element, depth⟩, hunwrap, hrun⟩ := SessionStep.runOn_ofExcept_bind_eq_ok_iff.1 hrun
  obtain ⟨kind, hkind, hrun⟩ := SessionStep.runOn_ofExcept_bind_eq_ok_iff.1 hrun
  rw [HostTypes.unwrap_eq_ok_iff] at hunwrap
  obtain ⟨name, rfl⟩ := TypeRef.unwrap?_plain hunwrap
  rcases HostTypes.kind_plain hkind with ⟨leaf, rfl⟩ | ⟨rfl, -⟩
  · cases hrun
    exact ⟨depth, _, hunwrap, .leaf hkind, rfl⟩
  · obtain ⟨sample, _, hsample, hrun⟩ := SessionStep.runOn_bind_eq_ok_iff.1 hrun
    cases hrun
    exact ⟨depth, _, hunwrap, .object hkind (sample?_of_sampleOf hsample).1, rfl⟩

end Surroundings

/-! ## Groups of one key -/

namespace Catalog

/-- Whether an entry is documented under a key. -/
def isUnder (key : String) (entry : Group × List OperationRecord) : Bool :=
  groupKey entry.1.key == key

@[simp] theorem isUnder_iff {key : String} {entry : Group × List OperationRecord} :
    isUnder key entry = true ↔ groupKey entry.1.key = key :=
  beq_iff_eq

/-- The group of a key has the words of the first group under the key, and the records of all groups
under it in their order. -/
structure Merges (documented : List (Group × List OperationRecord)) (key : String)
    (group : OperationGroup) : Prop where
  first : ∃ entry, documented.find? (isUnder key) = some entry ∧
    group.description = entry.1.description ∧ group.key = entry.1.key
  operations : group.operations = (documented.filter (isUnder key)).flatMap (·.2)

/-- Groups are added one after the other; the last one is added last. -/
theorem foldl_addRecords_concat (documented : List (Group × List OperationRecord))
    (entry : Group × List OperationRecord) :
    (documented ++ [entry]).foldl addRecords [] =
      addRecords (documented.foldl addRecords []) entry := by
  rw [List.foldl_append, List.foldl_cons, List.foldl_nil]

/-- Each key stands in the place of its first group. -/
theorem keys_foldl_addRecords (documented : List (Group × List OperationRecord)) :
    (documented.foldl addRecords []).map (·.1) =
      (documented.map fun entry => groupKey entry.1.key).eraseDups := by
  induction documented using List.reverseRecOn with
  | nil => rfl
  | append_singleton documented entry ih =>
    rw [foldl_addRecords_concat, addRecords, OrderedMap.adjust_eq_put, OrderedMap.keys_put, ih,
      List.map_append, List.map_singleton, OrderedMap.eraseDups_concat]
    simp only [List.mem_eraseDups]

/-- A key is found if a group is documented under it, and has the group that all of them make. -/
theorem lookup_foldl_addRecords (key : String) (documented : List (Group × List OperationRecord)) :
    OrderedMap.lookup key (documented.foldl addRecords []) =
      (documented.find? (isUnder key)).map fun first =>
        { description := first.1.description
          key := first.1.key
          operations := (documented.filter (isUnder key)).flatMap (·.2) } := by
  induction documented using List.reverseRecOn with
  | nil => rfl
  | append_singleton documented entry ih =>
    rw [foldl_addRecords_concat, addRecords, OrderedMap.adjust_eq_put, OrderedMap.lookup_put]
    by_cases hkey : groupKey entry.1.key = key
    · have hunder : isUnder key entry = true := isUnder_iff.2 hkey
      rw [if_pos hkey, hkey, ih]
      cases hfirst : documented.find? (isUnder key) with
      | some first => simp [hfirst, hunder]
      | none =>
        have hothers : documented.filter (isUnder key) = [] :=
          List.filter_eq_nil_iff.2 fun other hother => List.find?_eq_none.1 hfirst other hother
        simp [hfirst, hunder, hothers]
    · have hunder : isUnder key entry = false := by simpa [isUnder] using hkey
      rw [if_neg hkey, ih]
      cases hfirst : documented.find? (isUnder key) <;> simp [hfirst, hunder]

theorem merges_of_mem {documented : List (Group × List OperationRecord)} {key : String}
    {group : OperationGroup} (h : (key, group) ∈ documented.foldl addRecords []) :
    Merges documented key group := by
  have hdistinct : ((documented.foldl addRecords []).map (·.1)).Nodup := by
    rw [keys_foldl_addRecords]
    exact OrderedMap.nodup_eraseDups _
  have hlookup := OrderedMap.lookup_of_mem hdistinct h
  rw [lookup_foldl_addRecords, Option.map_eq_some_iff] at hlookup
  obtain ⟨first, hfirst, rfl⟩ := hlookup
  exact ⟨⟨first, hfirst, rfl, rfl⟩, rfl⟩

/-! ## Catalogs -/

variable {schema : SchemaIndex} {model : HostModel} {catalog : Catalog}

/-- The groups of a model are documented kind by kind. -/
theorem orderedGroups_eq (model : HostModel) :
    orderedGroups model = model.groups.filter (·.kind == .query) ++
      model.groups.filter (·.kind == .mutation) ++
        model.groups.filter (·.kind == .subscription) := by
  simp [orderedGroups, OperationKind.all]

/-- The groups of a catalog are those that its groups with their records make, one after the
other. -/
theorem exists_documented (hbuild : build schema model = .ok catalog) :
    ∃ host documented session, HostTypes.ofModel model = .ok host ∧
      ((Surroundings.mk schema host).documentGroups (orderedGroups model)).runOn {} =
        (.ok documented, session) ∧
      catalog = ⟨documented.foldl addRecords [], session.objectTypes, session.schemaNames⟩ := by
  obtain ⟨host, hhost, hbuild⟩ := bind_eq_ok_iff.1 hbuild
  dsimp only at hbuild
  split at hbuild
  · cases hbuild
  · next documented session hrun =>
    cases hbuild
    exact ⟨host, documented, session, hhost, hrun, rfl⟩

/-- Each member of the second of two matching lists has a partner in the first. -/
theorem exists_left_of_forall₂ {α β : Type} {R : α → β → Prop} {xs : List α} {ys : List β}
    (h : List.Forall₂ R xs ys) {y : β} (hy : y ∈ ys) : ∃ x ∈ xs, R x y := by
  induction h with
  | nil => cases hy
  | @cons x _ xs _ hxy _ ih =>
    rcases List.mem_cons.1 hy with rfl | hy
    · exact ⟨x, List.mem_cons_self, hxy⟩
    · exact (ih hy).imp fun _ => .imp_left (List.mem_cons_of_mem x)

/-- Every record under a key is one of an accessor of a group under that key. -/
theorem exists_recordsBefore {host : HostTypes} {documented : List (Group × List OperationRecord)}
    {session : Session}
    (hrun : ((Surroundings.mk schema host).documentGroups (orderedGroups model)).runOn {} =
      (.ok documented, session)) {key : String} {group : OperationGroup}
    (hgroup : (key, group) ∈ documented.foldl addRecords []) {record : OperationRecord}
    (hrecord : record ∈ group.operations) :
    ∃ source ∈ model.groups, groupKey source.key = key ∧
      ∃ accessor, (Surroundings.mk schema host).RecordsBefore source session accessor record := by
  obtain ⟨-, hsources, hall⟩ := Surroundings.documentGroups_eq_ok .fresh hrun
  rw [(merges_of_mem hgroup).operations] at hrecord
  obtain ⟨entry, hentry, hrecord⟩ := List.mem_flatMap.1 hrecord
  obtain ⟨hentry, hkey⟩ := List.mem_filter.1 hentry
  have hsource : entry.1 ∈ model.groups :=
    mem_orderedGroups_iff.1 (hsources ▸ List.mem_map_of_mem hentry)
  obtain ⟨accessor, -, hbefore⟩ := exists_left_of_forall₂ (hall entry hentry) hrecord
  exact ⟨entry.1, hsource, isUnder_iff.1 hkey, accessor, hbefore⟩

/-- Every record of a catalog is one of an accessor of a group under the same key. -/
theorem exists_records (hbuild : build schema model = .ok catalog) {key : String}
    {group : OperationGroup} (hgroup : (key, group) ∈ catalog.groups) {record : OperationRecord}
    (hrecord : record ∈ group.operations) :
    ∃ host source accessor operation before after, HostTypes.ofModel model = .ok host ∧
      source ∈ model.groups ∧ groupKey source.key = key ∧
      (Surroundings.mk schema host).Records source accessor operation before after record := by
  obtain ⟨host, documented, session, hhost, hrun, rfl⟩ := exists_documented hbuild
  obtain ⟨source, hsource, hkey, accessor, operation, before, after, hrecords, -⟩ :=
    exists_recordsBefore hrun hgroup hrecord
  exact ⟨host, source, accessor, operation, before, after, hhost, hsource, hkey, hrecords⟩

end Catalog

end OperationAtlas
