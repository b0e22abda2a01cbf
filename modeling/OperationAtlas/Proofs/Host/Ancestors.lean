import Mathlib.Logic.Relation
import OperationAtlas.Proofs.Host

/-!
# Ancestors

A type inherits from its parent, from the parent's parent and so on (`HostTypes.Ascends`), in a
circle for all that a model says. The way up that collects the fields of a type ends before it
passes a type twice, and still it passes every ancestor: a type that it does not pass again was
passed before (`mem_of_ascends`). So the fields of a type are found exactly if all its ancestors are
declared, and then they are the fields that it declares or inherits (`declared_of_fields`,
`mem_fields_iff`, `exists_undeclared_of_fields`).
-/

namespace OperationAtlas.HostTypes

variable {host : HostTypes} {name : String}

/-- A declared type names its parent. -/
def IsParent (host : HostTypes) (name parent : String) : Prop :=
  ∃ type, host.find? name = some type ∧ type.parent = some parent

theorem isParent_iff {type : HostType} (h : host.find? name = some type) {parent : String} :
    host.IsParent name parent ↔ type.parent = some parent := by
  simp [IsParent, h]

theorem IsParent.unique {parent other : String} (h : host.IsParent name parent)
    (h' : host.IsParent name other) : parent = other := by
  obtain ⟨type, hfind, hparent⟩ := h
  exact Option.some.inj (hparent.symm.trans ((isParent_iff hfind).1 h'))

/-- The way up from a name: the name itself, its parent, the parent's parent and so on. -/
abbrev Ascends (host : HostTypes) : String → String → Prop :=
  Relation.ReflTransGen host.IsParent

/-- A type or one of its ancestors declares a field. -/
def Inherits (host : HostTypes) (name : String) (member : Member) : Prop :=
  ∃ ancestor type, host.Ascends name ancestor ∧ host.find? ancestor = some type ∧
    member ∈ type.shape.fields

/-- The number of declared types that the way up has not passed. -/
def unpassedCount (host : HostTypes) (passed : List String) : Nat :=
  (host.types.filter fun type => type.name ∉ passed).length

/-- The count goes down when a declared type is passed for the first time. -/
theorem unpassedCount_cons_lt {passed : List String} {type : HostType}
    (hfind : host.find? name = some type) (hname : name ∉ passed) :
    host.unpassedCount (name :: passed) < host.unpassedCount passed := by
  have hsub : (host.types.filter fun type => type.name ∉ name :: passed) =
      (host.types.filter fun type => type.name ∉ passed).filter fun type => type.name ≠ name := by
    rw [List.filter_filter]
    exact List.filter_congr fun other _ => by simp
  unfold unpassedCount
  rw [hsub, List.length_filter_lt_length_iff_exists]
  refine ⟨type, ?_, ?_⟩
  · rw [List.mem_filter, name_of_find? hfind]
    exact ⟨mem_of_find? hfind, by simpa using hname⟩
  · simp [name_of_find? hfind]

/-! ## The way up -/

/-- The types on the way up are declared ancestors. -/
theorem ascends_of_mem_lineage {steps : Nat} {passed : List String} {types : List HostType}
    (h : host.lineage steps passed name = .ok types) :
    ∀ type ∈ types, host.Ascends name type.name ∧ host.find? type.name = some type := by
  induction steps generalizing passed name types with
  | zero => cases h; exact nofun
  | succ steps ih =>
    have hhere : ∀ {type}, host.find? name = some type →
        host.Ascends name type.name ∧ host.find? type.name = some type := by
      intro type hfind
      rw [name_of_find? hfind]
      exact ⟨.refl, hfind⟩
    rcases lineage_succ_eq_ok_iff.1 h with ⟨-, rfl⟩ | ⟨-, type, hfind, -, rfl⟩ |
      ⟨-, type, parent, ancestors, hfind, hparent, hup, rfl⟩
    · exact nofun
    · exact List.forall_mem_singleton.2 (hhere hfind)
    · refine List.forall_mem_cons.2 ⟨hhere hfind, fun ancestor hancestor => ?_⟩
      exact (ih hup ancestor hancestor).imp_left (.head ⟨type, hfind, hparent⟩)

/-- The way up does not leave names of which all parents are among them. -/
theorem mem_of_closed {names : List String}
    (hclosed : ∀ other ∈ names, ∀ parent, host.IsParent other parent → parent ∈ names)
    (hname : name ∈ names) {ancestor : String} (hascends : host.Ascends name ancestor) :
    ancestor ∈ names := by
  induction hascends with
  | refl => exact hname
  | tail _ hparent hother => exact hclosed _ hother _ hparent

/-- Where the parents of all passed types were passed or stand next on the way, nothing is left out:
each ancestor was passed before or is passed now. -/
theorem mem_of_ascends {steps : Nat} {passed : List String} {types : List HostType}
    (h : host.lineage steps passed name = .ok types) (hsteps : host.unpassedCount passed < steps)
    (hpassed : ∀ other ∈ passed, ∀ parent, host.IsParent other parent → parent ∈ name :: passed)
    {ancestor : String} (hascends : host.Ascends name ancestor) :
    ancestor ∈ passed ∨ ∃ type ∈ types, type.name = ancestor := by
  induction steps generalizing passed name types with
  | zero => exact absurd hsteps (Nat.not_lt_zero _)
  | succ steps ih =>
    rcases lineage_succ_eq_ok_iff.1 h with ⟨hname, rfl⟩ | ⟨-, type, hfind, hparent, rfl⟩ |
      ⟨hname, type, parent, ancestors, hfind, hparent, hup, rfl⟩
    · -- the way up has come round: all that follows was passed
      refine .inl (mem_of_closed (fun other hother parent hparent => ?_) hname hascends)
      rcases List.mem_cons.1 (hpassed other hother parent hparent) with rfl | hmem
      · exact hname
      · exact hmem
    · rcases hascends.cases_head with rfl | ⟨next, hnext, -⟩
      · exact .inr ⟨type, List.mem_singleton_self _, name_of_find? hfind⟩
      · rw [(isParent_iff hfind).1 hnext] at hparent
        cases hparent
    · rcases hascends.cases_head with rfl | ⟨next, hnext, hrest⟩
      · exact .inr ⟨type, List.mem_cons_self, name_of_find? hfind⟩
      obtain rfl := hnext.unique ((isParent_iff hfind).2 hparent)
      have hcount := unpassedCount_cons_lt hfind hname
      have hpassed' : ∀ other ∈ name :: passed, ∀ above, host.IsParent other above →
          above ∈ next :: name :: passed :=
        List.forall_mem_cons.2 ⟨fun above habove => List.mem_cons.2 (.inl (habove.unique hnext)),
          fun other hother above habove =>
            List.mem_cons_of_mem _ (hpassed other hother above habove)⟩
      rcases ih hup (by omega) hpassed' hrest with hmem | ⟨found, hfound, hsame⟩
      · rcases List.mem_cons.1 hmem with rfl | hmem
        · exact .inr ⟨type, List.mem_cons_self, name_of_find? hfind⟩
        · exact .inl hmem
      · exact .inr ⟨found, List.mem_cons_of_mem _ hfound, hsame⟩

/-- The way up fails at an ancestor that is not declared. -/
theorem exists_undeclared_of_lineage {steps : Nat} {passed : List String} {error : DocError}
    (h : host.lineage steps passed name = .error error) :
    ∃ undeclared, host.Ascends name undeclared ∧ host.find? undeclared = none ∧
      error = .unknownHostType undeclared := by
  induction steps generalizing passed name with
  | zero => cases h
  | succ steps ih =>
    rcases lineage_succ_eq_error h with hget | ⟨type, parent, hfind, hparent, hup⟩
    · obtain ⟨hundeclared, rfl⟩ := get_eq_error_iff.1 hget
      exact ⟨name, .refl, hundeclared, rfl⟩
    · obtain ⟨undeclared, hascends, hrest⟩ := ih hup
      exact ⟨undeclared, .head ⟨type, hfind, hparent⟩ hascends, hrest⟩

/-! ## Fields -/

theorem mem_lineage_of_ascends {types : List HostType}
    (h : host.lineage (host.types.length + 1) [] name = .ok types) {ancestor : String}
    (hascends : host.Ascends name ancestor) :
    ∃ type ∈ types, host.find? ancestor = some type := by
  have hcount : host.unpassedCount [] < host.types.length + 1 :=
    Nat.lt_succ_of_le (List.length_filter_le _ _)
  obtain ⟨type, hmem, rfl⟩ :=
    (mem_of_ascends h hcount nofun hascends).resolve_left List.not_mem_nil
  exact ⟨type, hmem, (ascends_of_mem_lineage h type hmem).2⟩

/-- If the fields of a type are found, all its ancestors are declared. -/
theorem declared_of_fields {members : List Member} (h : host.fields name = .ok members)
    {ancestor : String} (hascends : host.Ascends name ancestor) :
    ∃ type, host.find? ancestor = some type := by
  obtain ⟨types, hlineage, -⟩ := bind_eq_ok_iff.1 h
  obtain ⟨type, -, hfind⟩ := mem_lineage_of_ascends hlineage hascends
  exact ⟨type, hfind⟩

/-- The fields of a type are those that it or an ancestor declares. -/
theorem mem_fields_iff {members : List Member} (h : host.fields name = .ok members)
    {member : Member} : member ∈ members ↔ host.Inherits name member := by
  obtain ⟨types, hlineage, h⟩ := bind_eq_ok_iff.1 h
  cases h
  rw [List.mem_flatMap]
  constructor
  · rintro ⟨type, htype, hmember⟩
    obtain ⟨hascends, hfind⟩ := ascends_of_mem_lineage hlineage type htype
    exact ⟨type.name, type, hascends, hfind, hmember⟩
  · rintro ⟨ancestor, type, hascends, hfind, hmember⟩
    obtain ⟨type', htype, hfind'⟩ := mem_lineage_of_ascends hlineage hascends
    rw [hfind] at hfind'
    cases hfind'
    exact ⟨type, htype, hmember⟩

/-- The fields of a type are not found because an ancestor is not declared. -/
theorem exists_undeclared_of_fields {error : DocError} (h : host.fields name = .error error) :
    ∃ undeclared, host.Ascends name undeclared ∧ host.find? undeclared = none ∧
      error = .unknownHostType undeclared := by
  rcases bind_eq_error_iff.1 h with hlineage | ⟨types, -, h⟩
  · exact exists_undeclared_of_lineage hlineage
  · cases h

/-- The nearest field of a name is declared or inherited. -/
theorem inherits_of_field? {fieldName : String} {member : Member}
    (h : host.field? name fieldName = .ok (some member)) :
    host.Inherits name member ∧ member.name = fieldName := by
  obtain ⟨members, hfields, hfound⟩ := field?_eq_ok_iff.1 h
  refine ⟨(mem_fields_iff hfields).1 (List.mem_of_find?_eq_some hfound), ?_⟩
  simpa using List.find?_some hfound

/-- If no field of a name is found, none is declared or inherited. -/
theorem ne_of_field?_eq_none {fieldName : String} (h : host.field? name fieldName = .ok none)
    {member : Member} (hinherits : host.Inherits name member) : member.name ≠ fieldName := by
  obtain ⟨members, hfields, hfound⟩ := field?_eq_ok_iff.1 h
  simpa using List.find?_eq_none.1 hfound member ((mem_fields_iff hfields).2 hinherits)

end OperationAtlas.HostTypes
