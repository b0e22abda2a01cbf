import Mathlib.Data.List.Forall2
import Mathlib.Data.List.Perm.Subperm
import OperationAtlas.Proofs.Host.Ancestors
import OperationAtlas.Proofs.OrderedMap

/-!
# Hosts that answer more

Walks ask a host for the type of a name, for the kind of a reference and for the member behind a
field of a schema type. A host that extends another one (`HostTypes.Extends`) gives the same answers
wherever the other one has an answer: each type of the other one is there, with the same words, the
same parent and, under each name of a schema field, the same first field. What else there is does not
matter, and neither does the order of the types.

The way up from a type takes as many steps as there are types, so the two hosts go up to different
bounds. Both bounds are out of reach, and so the ways up are the same (`Extends.lineage`).
-/

namespace OperationAtlas

/-- Some schema type has a field of a name. -/
def SchemaIndex.DeclaresField (schema : SchemaIndex) (name : String) : Prop :=
  ∃ type ∈ schema.types, ∃ field ∈ type.2, field.name = name

theorem SchemaIndex.declaresField_of_mem {schema : SchemaIndex} {schemaType : String}
    {field : FieldDecl} (h : field ∈ schema.describe schemaType) :
    schema.DeclaresField field.name := by
  unfold describe at h
  cases hlookup : OrderedMap.lookup schemaType schema.types with
  | none =>
    rw [hlookup] at h
    cases h
  | some fields =>
    rw [hlookup] at h
    exact ⟨(schemaType, fields), OrderedMap.mem_of_lookup hlookup, field, h, rfl⟩

variable {schema : SchemaIndex}

/-- A shape with the same variants, or with the same first field of each name of a schema field. -/
inductive HostShape.Extends (schema : SchemaIndex) : HostShape → HostShape → Prop
  | enumeration (variants : List String) :
      Extends schema (.enumeration variants) (.enumeration variants)
  | object {fields fields' : List Member}
      (h : ∀ name, schema.DeclaresField name →
        fields'.find? (·.name == name) = fields.find? (·.name == name)) :
      Extends schema (.object fields) (.object fields')

theorem HostShape.Extends.refl (schema : SchemaIndex) : ∀ shape : HostShape,
    shape.Extends schema shape
  | .enumeration variants => .enumeration variants
  | .object _ => .object fun _ _ => rfl

theorem HostShape.Extends.find?_fields {shape shape' : HostShape} (h : shape.Extends schema shape')
    {name : String} (hname : schema.DeclaresField name) :
    shape'.fields.find? (·.name == name) = shape.fields.find? (·.name == name) := by
  cases h with
  | enumeration variants => rfl
  | object h => exact h name hname

/-- A type that says the same to a schema. -/
structure HostType.Extends (schema : SchemaIndex) (type type' : HostType) : Prop where
  name : type'.name = type.name
  description : type'.description = type.description
  parent : type'.parent = type.parent
  shape : type.shape.Extends schema type'.shape

theorem HostType.Extends.refl (schema : SchemaIndex) (type : HostType) :
    type.Extends schema type :=
  ⟨rfl, rfl, rfl, .refl schema type.shape⟩

namespace HostTypes

/-- Each type of a host is there in another one, where it says the same to a schema. -/
def Extends (schema : SchemaIndex) (host host' : HostTypes) : Prop :=
  ∀ name type, host.find? name = some type →
    ∃ type', host'.find? name = some type' ∧ type.Extends schema type'

variable {host host' : HostTypes} {name : String}

theorem Extends.kind (h : host.Extends schema host') {type : TypeRef} {kind : TypeKind}
    (hkind : host.kind type = .ok kind) : host'.kind type = .ok kind := by
  cases type with
  | list container parameters => exact hkind
  | plain name =>
    rw [kind_plain_eq_ok_iff] at hkind ⊢
    refine hkind.imp_right (Or.imp ?_ ?_)
    · rintro ⟨hscalar, type, variants, hfind, hshape, rfl⟩
      obtain ⟨type', hfind', hextends⟩ := h name type hfind
      have hsame := hextends.shape
      rw [hshape] at hsame
      generalize hshape' : type'.shape = shape' at hsame
      cases hsame
      exact ⟨hscalar, type', variants, hfind', hshape', rfl⟩
    · rintro ⟨hscalar, type, fields, hfind, hshape, rfl⟩
      obtain ⟨type', hfind', hextends⟩ := h name type hfind
      have hsame := hextends.shape
      rw [hshape] at hsame
      generalize hshape' : type'.shape = shape' at hsame
      cases hsame
      exact ⟨hscalar, type', _, hfind', hshape', rfl⟩

/-- The ways up from a name are the same for bounds that are out of reach. -/
theorem Extends.lineage (h : host.Extends schema host') {steps steps' : Nat} {passed : List String}
    {types : List HostType} (hlineage : host.lineage steps passed name = .ok types)
    (hsteps : host.unpassedCount passed < steps) (hsteps' : host'.unpassedCount passed < steps') :
    ∃ types', host'.lineage steps' passed name = .ok types' ∧
      List.Forall₂ (HostType.Extends schema) types types' := by
  induction steps generalizing steps' passed name types with
  | zero => exact absurd hsteps (Nat.not_lt_zero _)
  | succ steps ih =>
    cases steps' with
    | zero => exact absurd hsteps' (Nat.not_lt_zero _)
    | succ steps' =>
      simp only [lineage_succ_eq_ok_iff]
      rcases lineage_succ_eq_ok_iff.1 hlineage with ⟨hname, rfl⟩ |
        ⟨hname, type, hfind, hparent, rfl⟩ |
        ⟨hname, type, parent, ancestors, hfind, hparent, hup, rfl⟩
      · exact ⟨[], .inl ⟨hname, rfl⟩, .nil⟩
      · obtain ⟨type', hfind', hextends⟩ := h name type hfind
        exact ⟨[type'], .inr (.inl ⟨hname, type', hfind', hextends.parent.trans hparent, rfl⟩),
          .cons hextends .nil⟩
      · obtain ⟨type', hfind', hextends⟩ := h name type hfind
        have hcount := unpassedCount_cons_lt hfind hname
        have hcount' := unpassedCount_cons_lt hfind' hname
        obtain ⟨ancestors', hup', hall⟩ := ih hup (by omega) (by omega : _ < steps')
        exact ⟨type' :: ancestors', .inr (.inr ⟨hname, type', parent, ancestors', hfind',
          hextends.parent.trans hparent, hup', rfl⟩), .cons hextends hall⟩

/-- Of types that say the same to a schema, the first field of a name is the same. -/
theorem find?_flatMap_fields {types types' : List HostType}
    (h : List.Forall₂ (HostType.Extends schema) types types') (hname : schema.DeclaresField name) :
    (types'.flatMap (·.shape.fields)).find? (·.name == name) =
      (types.flatMap (·.shape.fields)).find? (·.name == name) := by
  rw [List.find?_flatMap, List.find?_flatMap]
  induction h with
  | nil => rfl
  | cons hextends _ ih =>
    rw [List.findSome?_cons, List.findSome?_cons, ih, hextends.shape.find?_fields hname]

/-- The nearest field of a name of a schema field is the same. -/
theorem Extends.field? (h : host.Extends schema host') {fieldName : String}
    (hname : schema.DeclaresField fieldName) {found : Option Member}
    (hfound : host.field? name fieldName = .ok found) : host'.field? name fieldName = .ok found := by
  obtain ⟨members, hfields, rfl⟩ := field?_eq_ok_iff.1 hfound
  obtain ⟨types, hlineage, hfields⟩ := bind_eq_ok_iff.1 hfields
  cases hfields
  obtain ⟨types', hlineage', hall⟩ := h.lineage hlineage
    (Nat.lt_succ_of_le (List.length_filter_le _ _)) (Nat.lt_succ_of_le (List.length_filter_le _ _))
  exact field?_eq_ok_iff.2 ⟨types'.flatMap (·.shape.fields),
    bind_eq_ok_iff.2 ⟨types', hlineage', rfl⟩, find?_flatMap_fields hall hname⟩

/-- A declared type is found under its name. -/
theorem find?_eq_some_iff {type : HostType} :
    host.find? name = some type ↔ type ∈ host.types ∧ type.name = name := by
  constructor
  · exact fun h => ⟨mem_of_find? h, name_of_find? h⟩
  · rintro ⟨hmem, rfl⟩
    obtain ⟨found, hfound⟩ : ∃ found, host.find? type.name = some found :=
      Option.isSome_iff_exists.1 (List.find?_isSome.2 ⟨type, hmem, by simp⟩)
    rw [hfound, List.inj_on_of_nodup_map host.distinct (mem_of_find? hfound) hmem
      (name_of_find? hfound)]

theorem Extends.names_subset (h : host.Extends schema host') :
    host.types.map (·.name) ⊆ host'.types.map (·.name) := by
  intro name hname
  obtain ⟨type, hmem, rfl⟩ := List.mem_map.1 hname
  obtain ⟨type', hfind, -⟩ := h type.name type (find?_eq_some_iff.2 ⟨hmem, rfl⟩)
  obtain ⟨hmem', hname'⟩ := find?_eq_some_iff.1 hfind
  exact hname' ▸ List.mem_map_of_mem hmem'

end HostTypes

namespace Surroundings

/-- The same schema next to a host that extends the other one. -/
structure Extends (around around' : Surroundings) : Prop where
  schema : around'.schema = around.schema
  host : around.host.Extends around.schema around'.host

variable {around around' : Surroundings}

/-- The member behind a schema field is the same. -/
theorem Extends.memberOf (h : around.Extends around') {owner schemaType : String} {field : FieldDecl}
    (hfield : field ∈ around.schema.describe schemaType)
    {found : Member × TypeRef × Nat × TypeKind}
    (hfound : around.memberOf owner schemaType field = .ok found) :
    around'.memberOf owner schemaType field = .ok found := by
  obtain ⟨member, element, depth, kind⟩ := found
  rw [memberOf_eq_ok_iff] at hfound ⊢
  obtain ⟨hnearest, hunwrap, hkind⟩ := hfound
  exact ⟨h.host.field? (SchemaIndex.declaresField_of_mem hfield) hnearest, hunwrap,
    h.host.kind hkind⟩

/-- There are no fewer untouched types. -/
theorem Extends.untouchedCount_le (h : around.Extends around') (session : Session) :
    around.untouchedCount session ≤ around'.untouchedCount session := by
  have hnames : ∀ around : Surroundings, around.untouchedCount session =
      ((around.host.types.map (·.name)).filter session.isUntouched).length := by
    intro around
    rw [untouchedCount, List.filter_map, List.length_map]
    rfl
  rw [hnames, hnames]
  refine (List.subperm_of_subset (around.host.distinct.filter _) fun name hname => ?_).length_le
  obtain ⟨hname, huntouched⟩ := List.mem_filter.1 hname
  exact List.mem_filter.2 ⟨h.host.names_subset hname, huntouched⟩

end Surroundings

end OperationAtlas
