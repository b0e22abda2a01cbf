import Mathlib.Data.List.Nodup
import OperationAtlas.Proofs.Chain
import OperationAtlas.Sample.Session

/-!
# What stands behind a schema field

`Surroundings.memberOf` finds the host member behind a schema field. Its result is characterized
here once (`memberOf_eq_ok_iff`), so that no later proof unfolds it: the member is the nearest one
of the field's name, and its type below all lists is a plain name that is a leaf or a declared
object (`memberOf_kind`). Whatever fails on the way blames the host model (`DocError.IsModelFault`);
a type is to blame if some list level of it is malformed or its element is not declared
(`HostTypes.MemberFault`).
-/

namespace OperationAtlas

/-- Below all lists stands a plain name. -/
theorem TypeRef.unwrap?_plain : ∀ {type element : TypeRef} {depth : Nat},
    type.unwrap? = some (element, depth) → ∃ name, element = .plain name
  | .plain name, element, depth, h => by
      simp only [unwrap?, Option.some.injEq, Prod.mk.injEq] at h
      exact ⟨name, h.1.symm⟩
  | .list _ [inner], element, depth, h => by
      simp only [unwrap?, Option.map_eq_some_iff, Prod.exists, Prod.mk.injEq] at h
      obtain ⟨_, _, hinner, rfl, _⟩ := h
      exact unwrap?_plain hinner
  | .list _ [], _, _, h => by simp [unwrap?] at h
  | .list _ (_ :: _ :: _), _, _, h => by simp [unwrap?] at h

/-- Some list level of a type has not exactly one parameter. -/
inductive TypeRef.IsMalformed : TypeRef → Prop
  | here {container : String} {parameters : List TypeRef} (h : parameters.length ≠ 1) :
      IsMalformed (.list container parameters)
  | inside {container : String} {element : TypeRef} (h : element.IsMalformed) :
      IsMalformed (.list container [element])

/-- A type without an element below its lists is malformed, and no other type is. -/
theorem TypeRef.unwrap?_eq_none_iff : ∀ {type : TypeRef}, type.unwrap? = none ↔ type.IsMalformed
  | .plain name => ⟨nofun, nofun⟩
  | .list _ [inner] => by
      rw [unwrap?, Option.map_eq_none_iff, unwrap?_eq_none_iff]
      refine ⟨.inside, fun h => ?_⟩
      cases h with
      | here h => exact absurd rfl h
      | inside h => exact h
  | .list _ [] => ⟨fun _ => .here nofun, fun _ => rfl⟩
  | .list _ (_ :: _ :: _) => ⟨fun _ => .here nofun, fun _ => rfl⟩

/-- The failures of a walk: each blames the host model. -/
inductive DocError.IsModelFault : DocError → Prop
  | schemaDrift (hostType schemaType field : String) :
      IsModelFault (.schemaDrift hostType schemaType field)
  | malformedListType (hostType member : String) : IsModelFault (.malformedListType hostType member)
  | unknownHostType (name : String) : IsModelFault (.unknownHostType name)

namespace HostTypes

variable {host : HostTypes} {name : String}

/-! ## Types that are declared twice -/

/-- A name that occurs again stands in front, or stands twice among the names. -/
theorem two_le_count_of_firstRepeated? {seen names : List String} {name : String}
    (h : firstRepeated? seen names = some name) :
    name ∈ seen ∧ name ∈ names ∨ 2 ≤ names.count name := by
  induction names generalizing seen with
  | nil => cases h
  | cons first names ih =>
    simp only [firstRepeated?] at h
    split at h
    · next hseen =>
      cases h
      exact .inl ⟨hseen, List.mem_cons_self⟩
    · rcases ih h with ⟨hmem, hname⟩ | hcount
      · rcases List.mem_cons.1 hmem with rfl | hmem
        · have hcount := List.count_pos_iff.2 hname
          rw [List.count_cons_self]
          exact .inr (by omega)
        · exact .inl ⟨hmem, List.mem_cons_of_mem _ hname⟩
      · exact .inr (Nat.le_trans hcount List.count_le_count_cons)

/-- The types of a model are not taken because a name is declared twice. -/
theorem exists_duplicate_of_ofModel {model : HostModel} {error : DocError}
    (h : ofModel model = .error error) :
    ∃ name, error = .duplicateHostType name ∧ 2 ≤ (model.types.map (·.name)).count name := by
  unfold ofModel at h
  split at h
  · cases h
  · next name hrepeated =>
    cases h
    exact ⟨name, rfl, (two_le_count_of_firstRepeated? hrepeated).resolve_left
      fun hseen => List.not_mem_nil hseen.1⟩

/-- A model is taken if its type names are distinct. -/
theorem exists_ofModel {model : HostModel} (h : (model.types.map (·.name)).Nodup) :
    ∃ host, ofModel model = .ok host := by
  cases hhost : ofModel model with
  | ok host => exact ⟨host, rfl⟩
  | error error =>
    obtain ⟨name, -, htwice⟩ := exists_duplicate_of_ofModel hhost
    have := List.nodup_iff_count_le_one.1 h name
    omega

theorem types_of_ofModel {model : HostModel} (h : ofModel model = .ok host) :
    host.types = model.types := by
  unfold ofModel at h
  split at h
  · cases h
    rfl
  · cases h

/-! ## Declared types -/

/-- A type is found under its own name. -/
theorem name_of_find? {type : HostType} (h : host.find? name = some type) : type.name = name := by
  simpa using List.find?_some h

/-- A type that is found is declared. -/
theorem mem_of_find? {type : HostType} (h : host.find? name = some type) : type ∈ host.types :=
  List.mem_of_find?_eq_some h

theorem get_eq_ok_iff {type : HostType} :
    host.get name = .ok type ↔ host.find? name = some type := by
  unfold get
  cases host.find? name <;> simp

theorem get_eq_error_iff {error : DocError} :
    host.get name = .error error ↔ host.find? name = none ∧ error = .unknownHostType name := by
  unfold get
  cases host.find? name <;> simp [eq_comm]

theorem isModelFault_of_get {error : DocError} (h : host.get name = .error error) :
    error.IsModelFault := by
  obtain ⟨-, rfl⟩ := get_eq_error_iff.1 h
  exact .unknownHostType name

/-! ## Kinds and elements -/

theorem kindOfName_eq {kind : LeafKind} (h : LeafKind.ofName? name = some kind) :
    host.kindOfName name = .ok (.leaf (.scalar kind)) := by
  rw [kindOfName, h]

theorem kindOfName_eq_get (h : LeafKind.ofName? name = none) :
    host.kindOfName name = (host.get name).map fun type =>
      match type.shape with
      | .enumeration variants => .leaf (.enumeration variants)
      | .object _ => .object := by
  rw [kindOfName, h]
  cases hget : host.get name with
  | error error => rfl
  | ok type => cases hshape : type.shape <;> simp [hshape, Except.map]

/-- A plain name is a scalar, a declared enumeration or a declared object. -/
theorem kind_plain_eq_ok_iff {kind : TypeKind} :
    host.kind (.plain name) = .ok kind ↔
      (∃ scalar, LeafKind.ofName? name = some scalar ∧ kind = .leaf (.scalar scalar)) ∨
      (LeafKind.ofName? name = none ∧ ∃ type variants, host.find? name = some type ∧
        type.shape = .enumeration variants ∧ kind = .leaf (.enumeration variants)) ∨
      (LeafKind.ofName? name = none ∧ ∃ type fields, host.find? name = some type ∧
        type.shape = .object fields ∧ kind = .object) := by
  rw [HostTypes.kind]
  cases hscalar : LeafKind.ofName? name with
  | some scalar => simp [kindOfName_eq hscalar, eq_comm]
  | none =>
    rw [kindOfName_eq_get hscalar]
    cases hget : host.get name with
    | error error => simp [Except.map, (get_eq_error_iff.1 hget).1]
    | ok type =>
      rw [get_eq_ok_iff] at hget
      cases hshape : type.shape <;> simp [Except.map, hget, hshape, eq_comm]

/-- A plain name is a leaf, or a declared object. -/
theorem kind_plain {kind : TypeKind} (h : host.kind (.plain name) = .ok kind) :
    (∃ leaf, kind = .leaf leaf) ∨ kind = .object ∧ ∃ type, host.find? name = some type := by
  rcases kind_plain_eq_ok_iff.1 h with ⟨scalar, -, rfl⟩ | ⟨-, type, variants, -, -, rfl⟩ |
    ⟨-, type, fields, hfind, -, rfl⟩
  · exact .inl ⟨_, rfl⟩
  · exact .inl ⟨_, rfl⟩
  · exact .inr ⟨rfl, type, hfind⟩

/-- The type of a member is to blame, which may also be a parameter or the result of an accessor. -/
inductive MemberFault (host : HostTypes) (owner member : String) (type : TypeRef) : DocError → Prop
  | malformed (h : type.IsMalformed) :
      MemberFault host owner member type (.malformedListType owner member)
  | undeclared {name : String} {depth : Nat} (helement : type.unwrap? = some (.plain name, depth))
      (hleaf : LeafKind.ofName? name = none) (hundeclared : host.find? name = none) :
      MemberFault host owner member type (.unknownHostType name)

theorem MemberFault.isModelFault {owner member : String} {type : TypeRef} {error : DocError}
    (h : host.MemberFault owner member type error) : error.IsModelFault := by
  cases h with
  | malformed h => exact .malformedListType owner member
  | undeclared helement hleaf hundeclared => exact .unknownHostType _

theorem memberFault_of_kind {type element : TypeRef} {depth : Nat} {error : DocError}
    (owner member : String) (hunwrap : type.unwrap? = some (element, depth))
    (h : host.kind element = .error error) : host.MemberFault owner member type error := by
  obtain ⟨name, rfl⟩ := TypeRef.unwrap?_plain hunwrap
  rw [HostTypes.kind] at h
  cases hscalar : LeafKind.ofName? name with
  | some scalar =>
    rw [kindOfName_eq hscalar] at h
    cases h
  | none =>
    rw [kindOfName_eq_get hscalar] at h
    cases hget : host.get name with
    | error fault =>
      rw [hget] at h
      cases h
      obtain ⟨hundeclared, rfl⟩ := get_eq_error_iff.1 hget
      exact .undeclared hunwrap hscalar hundeclared
    | ok type =>
      rw [hget] at h
      cases h

theorem unwrap_eq_ok_iff {type element : TypeRef} {depth : Nat} {owner member : String} :
    HostTypes.unwrap type owner member = .ok (element, depth) ↔
      type.unwrap? = some (element, depth) := by
  unfold unwrap
  cases type.unwrap? <;> simp

theorem memberFault_of_unwrap {type : TypeRef} {owner member : String} {error : DocError}
    (h : HostTypes.unwrap type owner member = .error error) :
    host.MemberFault owner member type error := by
  unfold unwrap at h
  split at h
  · cases h
  · next hunwrap =>
    cases h
    exact .malformed (TypeRef.unwrap?_eq_none_iff.1 hunwrap)

/-- The variants of an enumeration are those that a declared type has. -/
theorem exists_type_of_enumeration {type : TypeRef} {variants : List String}
    (h : host.kind type = .ok (.leaf (.enumeration variants))) :
    ∃ declared ∈ host.types, declared.shape = .enumeration variants := by
  cases type with
  | list container parameters => cases h
  | plain name =>
    rcases kind_plain_eq_ok_iff.1 h with ⟨_, -, ⟨⟩⟩ | ⟨-, declared, _, hfind, hshape, ⟨⟩⟩ |
      ⟨-, _, _, -, -, ⟨⟩⟩
    exact ⟨declared, mem_of_find? hfind, hshape⟩

/-- An object is a declared type with fields of its own shape. -/
theorem exists_fields_of_object (h : host.kind (.plain name) = .ok .object) :
    ∃ declared fields, host.find? name = some declared ∧ declared.shape = .object fields := by
  rcases kind_plain_eq_ok_iff.1 h with ⟨_, -, ⟨⟩⟩ | ⟨-, _, _, -, -, ⟨⟩⟩ |
    ⟨-, declared, fields, hfind, hshape, -⟩
  exact ⟨declared, fields, hfind, hshape⟩

/-! ## Fields -/

/-- The way up ends at a name that it has passed and at a type without a parent. From any other type
it goes on to the parent. -/
theorem lineage_succ_eq_ok_iff {steps : Nat} {passed : List String} {types : List HostType} :
    host.lineage (steps + 1) passed name = .ok types ↔
      (name ∈ passed ∧ types = []) ∨
      (name ∉ passed ∧ ∃ type, host.find? name = some type ∧ type.parent = none ∧
        types = [type]) ∨
      (name ∉ passed ∧ ∃ type parent ancestors, host.find? name = some type ∧
        type.parent = some parent ∧ host.lineage steps (name :: passed) parent = .ok ancestors ∧
        types = type :: ancestors) := by
  rw [lineage]
  by_cases hname : name ∈ passed
  · simp [hname, eq_comm]
  · simp only [hname, if_false, bind_eq_ok_iff, get_eq_ok_iff, false_and, not_false_eq_true,
      true_and, false_or]
    constructor
    · rintro ⟨type, hfind, h⟩
      cases hparent : type.parent with
      | none =>
        rw [hparent] at h
        cases h
        exact .inl ⟨type, hfind, hparent, rfl⟩
      | some parent =>
        rw [hparent] at h
        obtain ⟨ancestors, hup, h⟩ := bind_eq_ok_iff.1 h
        cases h
        exact .inr ⟨type, parent, ancestors, hfind, hparent, hup, rfl⟩
    · rintro (⟨type, hfind, hparent, rfl⟩ | ⟨type, parent, ancestors, hfind, hparent, hup, rfl⟩)
      · exact ⟨type, hfind, by rw [hparent]⟩
      · exact ⟨type, hfind, by simp only [hparent, hup, ok_bind]⟩

/-- The way up fails at a type that is not declared. -/
theorem lineage_succ_eq_error {steps : Nat} {passed : List String} {error : DocError}
    (h : host.lineage (steps + 1) passed name = .error error) :
    host.get name = .error error ∨ ∃ type parent, host.find? name = some type ∧
      type.parent = some parent ∧ host.lineage steps (name :: passed) parent = .error error := by
  rw [lineage] at h
  split at h
  · cases h
  · rcases bind_eq_error_iff.1 h with hget | ⟨type, hget, h⟩
    · exact .inl hget
    · cases hparent : type.parent with
      | none =>
        rw [hparent] at h
        cases h
      | some parent =>
        rw [hparent] at h
        rcases bind_eq_error_iff.1 h with hup | ⟨ancestors, -, h⟩
        · exact .inr ⟨type, parent, get_eq_ok_iff.1 hget, hparent, hup⟩
        · cases h

/-- The types on the way up are declared. -/
theorem mem_of_mem_lineage {steps : Nat} {passed : List String} {types : List HostType}
    (h : host.lineage steps passed name = .ok types) : ∀ type ∈ types, type ∈ host.types := by
  induction steps generalizing passed name types with
  | zero => cases h; exact nofun
  | succ steps ih =>
    rcases lineage_succ_eq_ok_iff.1 h with ⟨-, rfl⟩ | ⟨-, type, hfind, -, rfl⟩ |
      ⟨-, type, parent, ancestors, hfind, -, hup, rfl⟩
    · exact nofun
    · exact List.forall_mem_singleton.2 (mem_of_find? hfind)
    · exact List.forall_mem_cons.2 ⟨mem_of_find? hfind, ih hup⟩

/-- The fields of a type are declared by some type. -/
theorem exists_type_of_mem_fields {members : List Member} (h : host.fields name = .ok members)
    {member : Member} (hmem : member ∈ members) :
    ∃ type ∈ host.types, member ∈ type.shape.fields := by
  obtain ⟨types, hlineage, h⟩ := bind_eq_ok_iff.1 h
  cases h
  obtain ⟨type, htype, hmember⟩ := List.mem_flatMap.1 hmem
  exact ⟨type, mem_of_mem_lineage hlineage type htype, hmember⟩

theorem isModelFault_of_lineage {steps : Nat} {passed : List String} {error : DocError}
    (h : host.lineage steps passed name = .error error) : error.IsModelFault := by
  induction steps generalizing passed name with
  | zero => cases h
  | succ steps ih =>
    rcases lineage_succ_eq_error h with hget | ⟨type, parent, -, -, hup⟩
    · exact isModelFault_of_get hget
    · exact ih hup

/-- The nearest field of a name, by the fields of the type and of its ancestors. -/
theorem field?_eq_ok_iff {fieldName : String} {found : Option Member} :
    host.field? name fieldName = .ok found ↔
      ∃ members, host.fields name = .ok members ∧ members.find? (·.name == fieldName) = found := by
  simp [field?, bind_eq_ok_iff]

/-- A field that is found is declared by some type. -/
theorem exists_type_of_field? {fieldName : String} {member : Member}
    (h : host.field? name fieldName = .ok (some member)) :
    ∃ type ∈ host.types, member ∈ type.shape.fields := by
  obtain ⟨members, hfields, hfirst⟩ := field?_eq_ok_iff.1 h
  exact exists_type_of_mem_fields hfields (List.mem_of_find?_eq_some hfirst)

theorem isModelFault_of_field? {fieldName : String} {error : DocError}
    (h : host.field? name fieldName = .error error) : error.IsModelFault := by
  rcases bind_eq_error_iff.1 h with h | ⟨members, -, h⟩
  · rcases bind_eq_error_iff.1 h with hup | ⟨types, -, h⟩
    · exact isModelFault_of_lineage hup
    · cases h
  · cases h

end HostTypes

namespace Surroundings

variable {around : Surroundings} {hostType schemaType : String} {field : FieldDecl}

/-! ## The member behind a field -/

/-- The member behind a field is the nearest one of its name; its type leads through lists to an
element of some kind. -/
theorem memberOf_eq_ok_iff {member : Member} {element : TypeRef} {depth : Nat} {kind : TypeKind} :
    around.memberOf hostType schemaType field = .ok (member, element, depth, kind) ↔
      around.host.field? hostType field.name = .ok (some member) ∧
        member.type.unwrap? = some (element, depth) ∧ around.host.kind element = .ok kind := by
  constructor
  · intro h
    obtain ⟨found, hfield, h⟩ := bind_eq_ok_iff.1 h
    cases found with
    | none => cases h
    | some found =>
      obtain ⟨⟨inner, levels⟩, hunwrap, h⟩ := bind_eq_ok_iff.1 h
      obtain ⟨kind', hkind, h⟩ := bind_eq_ok_iff.1 h
      cases h
      exact ⟨hfield, HostTypes.unwrap_eq_ok_iff.1 hunwrap, hkind⟩
  · rintro ⟨hfield, hunwrap, hkind⟩
    simp [memberOf, hfield, HostTypes.unwrap_eq_ok_iff.2 hunwrap, hkind]

/-- The element behind a field is a leaf, or a declared object. -/
theorem memberOf_kind {member : Member} {element : TypeRef} {depth : Nat} {kind : TypeKind}
    (h : around.memberOf hostType schemaType field = .ok (member, element, depth, kind)) :
    (∃ leaf, kind = .leaf leaf) ∨
      kind = .object ∧ ∃ name type, element = .plain name ∧ around.host.find? name = some type := by
  obtain ⟨-, hunwrap, hkind⟩ := memberOf_eq_ok_iff.1 h
  obtain ⟨name, rfl⟩ := TypeRef.unwrap?_plain hunwrap
  rcases HostTypes.kind_plain hkind with hleaf | ⟨hobject, type, hfind⟩
  · exact .inl hleaf
  · exact .inr ⟨hobject, name, type, rfl, hfind⟩

/-- The member behind a field has the field's name. -/
theorem name_of_memberOf {member : Member} {element : TypeRef} {depth : Nat} {kind : TypeKind}
    (h : around.memberOf hostType schemaType field = .ok (member, element, depth, kind)) :
    member.name = field.name := by
  obtain ⟨members, -, hfound⟩ := HostTypes.field?_eq_ok_iff.1 (memberOf_eq_ok_iff.1 h).1
  simpa using List.find?_some hfound

/-- Behind a field the host is to blame in one of three ways: the fields of the type are not found,
none of them has the name, or the type of the nearest one is to blame. -/
theorem memberOf_eq_error {error : DocError}
    (h : around.memberOf hostType schemaType field = .error error) :
    around.host.field? hostType field.name = .error error ∨
      around.host.field? hostType field.name = .ok none ∧
        error = .schemaDrift hostType schemaType field.name ∨
      ∃ member, around.host.field? hostType field.name = .ok (some member) ∧
        around.host.MemberFault hostType member.name member.type error := by
  rcases bind_eq_error_iff.1 h with hfield | ⟨found, hfield, h⟩
  · exact .inl hfield
  cases found with
  | none =>
    cases h
    exact .inr (.inl ⟨hfield, rfl⟩)
  | some member =>
    refine .inr (.inr ⟨member, hfield, ?_⟩)
    rcases bind_eq_error_iff.1 h with hunwrap | ⟨⟨element, depth⟩, hunwrap, h⟩
    · exact HostTypes.memberFault_of_unwrap hunwrap
    rcases bind_eq_error_iff.1 h with hkind | ⟨kind, -, h⟩
    · exact HostTypes.memberFault_of_kind _ _ (HostTypes.unwrap_eq_ok_iff.1 hunwrap) hkind
    · cases h

theorem isModelFault_of_memberOf {error : DocError}
    (h : around.memberOf hostType schemaType field = .error error) : error.IsModelFault := by
  rcases memberOf_eq_error h with hfield | ⟨-, rfl⟩ | ⟨member, -, hfault⟩
  · exact HostTypes.isModelFault_of_field? hfield
  · exact .schemaDrift hostType schemaType field.name
  · exact hfault.isModelFault

end Surroundings

end OperationAtlas
