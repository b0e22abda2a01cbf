import Mathlib.Data.List.Chain
import Mathlib.Data.List.Nodup
import OperationAtlas.Proofs.Host.Ancestors

/-!
# The way up

The names that a type inherits from are those on the way up from its name, each the parent of the
one before it, up to the last before a name comes again (`HostTypes.IsWayUp`). Whatever the parents
are, there is one such way and only one, and no more names lie on it than there are types, but for
one that is not declared (`exists_isWayUp`, `IsWayUp.unique`). The lineage of a name looks up the
names of this way one after the other (`IsWayUp.lineage_eq`), so it fails at the first name that is
not declared, and otherwise the fields follow the way (`fields_follow_way`).
-/

namespace OperationAtlas.HostTypes

variable {host : HostTypes} {passed names : List String} {name parent : String}

/-- The way up from a name that was not passed, up to the last name before one comes again. A name
in `passed` has come before the way starts. -/
structure IsWayUp (host : HostTypes) (passed : List String) (name : String) (names : List String) :
    Prop where
  head : names.head? = some name
  parents : names.IsChain host.IsParent
  nodup : names.Nodup
  fresh : ∀ other ∈ names, other ∉ passed
  ends : ∀ last ∈ names.getLast?, ∀ parent, host.IsParent last parent →
    parent ∈ names ∨ parent ∈ passed

/-- The fields that a name declares itself: an enumeration declares none. -/
def ownFields (host : HostTypes) (name : String) : List Member :=
  match host.find? name with
  | none => []
  | some type =>
    match type.shape with
    | .object fields => fields
    | .enumeration _ => []

theorem ownFields_of_find? {type : HostType} (h : host.find? name = some type) :
    host.ownFields name = type.shape.fields := by
  simp only [ownFields, h]
  cases hshape : type.shape <;> rfl

/-! ## One way, and only one -/

/-- A way that ends at once. -/
theorem isWayUp_singleton (hname : name ∉ passed)
    (hend : ∀ parent, host.IsParent name parent → parent ∈ name :: passed) :
    host.IsWayUp passed name [name] where
  head := rfl
  parents := .singleton name
  nodup := List.nodup_singleton name
  fresh := List.forall_mem_singleton.2 hname
  ends := by
    rintro last ⟨⟩ parent hparent
    exact (List.mem_cons.1 (hend parent hparent)).imp_left List.mem_singleton.2

/-- A way goes on from the parent of its first name, which has been passed then. -/
theorem isWayUp_cons_iff {next : String} {rest : List String} :
    host.IsWayUp passed name (name :: next :: rest) ↔
      name ∉ passed ∧ host.IsParent name next ∧
        host.IsWayUp (name :: passed) next (next :: rest) := by
  constructor
  · intro h
    obtain ⟨hnext, hparents⟩ := List.isChain_cons_cons.1 h.parents
    obtain ⟨hname, hnodup⟩ := List.nodup_cons.1 h.nodup
    refine ⟨h.fresh name List.mem_cons_self, hnext, rfl, hparents, hnodup, ?_, ?_⟩
    · rintro other hother hpassed
      rcases List.mem_cons.1 hpassed with rfl | hpassed
      · exact hname hother
      · exact h.fresh other (List.mem_cons_of_mem _ hother) hpassed
    · intro last hlast above habove
      rcases h.ends last hlast above habove with hmem | hmem
      · rcases List.mem_cons.1 hmem with rfl | hmem
        · exact .inr List.mem_cons_self
        · exact .inl hmem
      · exact .inr (List.mem_cons_of_mem _ hmem)
  · rintro ⟨hname, hnext, h⟩
    refine ⟨rfl, List.isChain_cons_cons.2 ⟨hnext, h.parents⟩, ?_, ?_, ?_⟩
    · refine List.nodup_cons.2 ⟨fun hmem => ?_, h.nodup⟩
      exact h.fresh name hmem List.mem_cons_self
    · refine List.forall_mem_cons.2 ⟨hname, fun other hother hpassed => ?_⟩
      exact h.fresh other hother (List.mem_cons_of_mem _ hpassed)
    · intro last hlast above habove
      rcases h.ends last hlast above habove with hmem | hmem
      · exact .inl (List.mem_cons_of_mem _ hmem)
      · rcases List.mem_cons.1 hmem with rfl | hmem
        · exact .inl List.mem_cons_self
        · exact .inr hmem

theorem IsWayUp.exists_cons (h : host.IsWayUp passed name names) :
    ∃ rest, names = name :: rest := by
  cases names with
  | nil => cases h.head
  | cons first rest => exact ⟨rest, by rw [Option.some.inj h.head]⟩

/-- Two ways up from one name do not part. -/
theorem IsWayUp.unique {others : List String} (h : host.IsWayUp passed name names)
    (h' : host.IsWayUp passed name others) : others = names := by
  induction names generalizing passed name others with
  | nil => cases h.head
  | cons first rest ih =>
    obtain rfl : first = name := Option.some.inj h.head
    obtain ⟨rest', rfl⟩ := h'.exists_cons
    -- where one way ends and the other goes on, the next name would have been passed
    have hstops : ∀ {next behind}, host.IsWayUp passed first [first] →
        ¬ host.IsWayUp passed first (first :: next :: behind) := by
      intro next behind hone hother
      obtain ⟨-, hnext, hrest⟩ := isWayUp_cons_iff.1 hother
      have hfresh := hrest.fresh next List.mem_cons_self
      rcases hone.ends first rfl next hnext with hmem | hmem
      · exact hfresh (List.mem_cons.2 (.inl (List.mem_singleton.1 hmem)))
      · exact hfresh (List.mem_cons_of_mem _ hmem)
    cases rest with
    | nil =>
      cases rest' with
      | nil => rfl
      | cons => exact absurd h' (hstops h)
    | cons next behind =>
      cases rest' with
      | nil => exact absurd h (hstops h')
      | cons next' behind' =>
        obtain ⟨-, hnext, hup⟩ := isWayUp_cons_iff.1 h
        obtain ⟨-, hnext', hup'⟩ := isWayUp_cons_iff.1 h'
        obtain rfl := hnext.unique hnext'
        rw [ih hup hup']

/-- There is a way up from every name, for each of its steps passes a type for the first time. -/
theorem exists_isWayUp (hname : name ∉ passed) :
    ∃ names, host.IsWayUp passed name names ∧
      names.length ≤ host.unpassedCount passed + 1 := by
  induction hcount : host.unpassedCount passed using Nat.strongRecOn generalizing passed name with
  | ind count ih =>
    by_cases hgoes : ∃ parent, host.IsParent name parent ∧ parent ∉ name :: passed
    · obtain ⟨parent, hparent, hfresh⟩ := hgoes
      have hless : host.unpassedCount (name :: passed) < host.unpassedCount passed := by
        obtain ⟨type, hfind, -⟩ := hparent
        exact unpassedCount_cons_lt hfind hname
      obtain ⟨names, hup, hlength⟩ := ih _ (hcount ▸ hless) hfresh rfl
      obtain ⟨rest, rfl⟩ := hup.exists_cons
      refine ⟨name :: parent :: rest, isWayUp_cons_iff.2 ⟨hname, hparent, hup⟩, ?_⟩
      rw [List.length_cons]
      omega
    · refine ⟨[name], isWayUp_singleton hname fun parent hparent => ?_, by simp⟩
      exact not_not.1 fun hfresh => hgoes ⟨parent, hparent, hfresh⟩

/-! ## Looking up the names of the way -/

theorem lineage_of_mem {steps : Nat} (h : name ∈ passed) :
    host.lineage steps passed name = .ok [] := by
  cases steps with
  | zero => rfl
  | succ steps => rw [lineage, if_pos h]

/-- The lineage looks up the names on the way, and steps beyond its end change nothing. -/
theorem IsWayUp.lineage_eq {steps : Nat} (h : host.IsWayUp passed name names)
    (hsteps : names.length ≤ steps) : host.lineage steps passed name = names.mapM host.get := by
  induction names generalizing passed name steps with
  | nil => cases h.head
  | cons first rest ih =>
    obtain rfl : first = name := Option.some.inj h.head
    obtain ⟨steps, rfl⟩ : ∃ more, steps = more + 1 :=
      Nat.exists_eq_add_one.2 (Nat.lt_of_lt_of_le (Nat.succ_pos _) hsteps)
    rw [lineage, if_neg (h.fresh first List.mem_cons_self), List.mapM_cons]
    cases hget : host.get first with
    | error error => rfl
    | ok type =>
      have hfind := get_eq_ok_iff.1 hget
      simp only [ok_bind]
      cases rest with
      | nil =>
        cases hparent : type.parent with
        | none => rfl
        | some parent =>
          have hround : parent ∈ first :: passed := by
            rcases h.ends first rfl parent ⟨type, hfind, hparent⟩ with hmem | hmem
            · exact List.mem_cons.2 (.inl (List.mem_singleton.1 hmem))
            · exact List.mem_cons_of_mem _ hmem
          simp only [lineage_of_mem hround]
          rfl
      | cons next behind =>
        obtain ⟨-, hnext, hup⟩ := isWayUp_cons_iff.1 h
        have hparent := (isParent_iff hfind).1 hnext
        simp only [hparent, ih hup (Nat.le_of_succ_le_succ hsteps)]
        rfl

/-- Whether a name is not declared. -/
def isUnknown (host : HostTypes) (name : String) : Bool :=
  (host.find? name).isNone

theorem exists_type_of_not_isUnknown (h : ¬ host.isUnknown name = true) :
    ∃ type, host.find? name = some type := by
  rwa [isUnknown, Option.isNone_iff_eq_none, ← Ne, Option.ne_none_iff_exists'] at h

theorem exists_mapM_get (h : names.find? host.isUnknown = none) :
    ∃ types, names.mapM host.get = .ok types ∧
      types.flatMap (·.shape.fields) = names.flatMap host.ownFields := by
  induction names with
  | nil => exact ⟨[], rfl, rfl⟩
  | cons first rest ih =>
    obtain ⟨hfirst, hrest⟩ := List.forall_mem_cons.1 (List.find?_eq_none.1 h)
    obtain ⟨type, hfind⟩ := exists_type_of_not_isUnknown hfirst
    obtain ⟨types, htypes, hfields⟩ := ih (List.find?_eq_none.2 hrest)
    refine ⟨type :: types, ?_, ?_⟩
    · rw [List.mapM_cons, get_eq_ok_iff.2 hfind, htypes]
      rfl
    · rw [List.flatMap_cons, List.flatMap_cons, hfields, ownFields_of_find? hfind]

theorem mapM_get_of_isUnknown {unknown : String} (h : names.find? host.isUnknown = some unknown) :
    names.mapM host.get = .error (.unknownHostType unknown) := by
  induction names with
  | nil => cases h
  | cons first rest ih =>
    rw [List.mapM_cons]
    rcases List.find?_cons_eq_some.1 h with ⟨hfirst, rfl⟩ | ⟨hfirst, hrest⟩
    · rw [get_eq_error_iff.2 ⟨Option.isNone_iff_eq_none.1 hfirst, rfl⟩, error_bind]
    · obtain ⟨type, hfind⟩ := exists_type_of_not_isUnknown (by simpa using hfirst)
      rw [get_eq_ok_iff.2 hfind, ok_bind, ih hrest, error_bind]

/-- From every name of a model with distinct type names there is one way up. If a name on it is not
declared, neither the fields of the name nor any one of them are found, and the failure names the
first such one. Otherwise the fields are those of the names on the way, one after the other and each
name once, and a field is the one of the nearest name that has it. The search ends with the way: more
steps find the same. -/
theorem fields_follow_way {model : HostModel} (h : (model.types.map (·.name)).Nodup) :
    ∃ host, ofModel model = .ok host ∧ host.types = model.types ∧ ∀ name, ∃ names,
      host.IsWayUp [] name names ∧ (∀ others, host.IsWayUp [] name others → others = names) ∧
      names.length ≤ model.types.length + 1 ∧
      (∀ steps, names.length ≤ steps →
        host.lineage steps [] name = host.lineage names.length [] name) ∧
      (∀ unknown, names.find? host.isUnknown = some unknown →
        host.fields name = .error (.unknownHostType unknown) ∧
        ∀ fieldName, host.field? name fieldName = .error (.unknownHostType unknown)) ∧
      (names.find? host.isUnknown = none →
        host.fields name = .ok (names.flatMap host.ownFields) ∧
        ∀ fieldName,
          host.field? name fieldName =
            .ok (names.findSome? fun other =>
              (host.ownFields other).find? (·.name == fieldName)) ∧
          (host.field? name fieldName = .ok none ↔
            ∀ other ∈ names, ∀ member ∈ host.ownFields other, member.name ≠ fieldName)) := by
  obtain ⟨host, hhost⟩ := exists_ofModel h
  have htypes := types_of_ofModel hhost
  refine ⟨host, hhost, htypes, fun name => ?_⟩
  obtain ⟨names, hup, hcount⟩ : ∃ names, host.IsWayUp [] name names ∧
      names.length ≤ host.unpassedCount [] + 1 := exists_isWayUp List.not_mem_nil
  have hlength : names.length ≤ host.types.length + 1 :=
    hcount.trans (Nat.succ_le_succ (List.length_filter_le _ _))
  have hlineage : host.lineage (host.types.length + 1) [] name = names.mapM host.get :=
    hup.lineage_eq hlength
  refine ⟨names, hup, fun others => hup.unique, htypes ▸ hlength, fun steps hsteps => ?_,
    fun unknown hunknown => ?_, fun hknown => ?_⟩
  · rw [hup.lineage_eq hsteps, hup.lineage_eq le_rfl]
  · have hfields : host.fields name = .error (.unknownHostType unknown) := by
      rw [fields, hlineage, mapM_get_of_isUnknown hunknown, error_bind]
    exact ⟨hfields, fun fieldName => by rw [field?, hfields, error_bind]⟩
  · obtain ⟨types, hget, hown⟩ := exists_mapM_get hknown
    have hfields : host.fields name = .ok (names.flatMap host.ownFields) := by
      rw [fields, hlineage, hget, ok_bind, hown]
    refine ⟨hfields, fun fieldName => ?_⟩
    have hfield : host.field? name fieldName = .ok (names.findSome? fun other =>
        (host.ownFields other).find? (·.name == fieldName)) := by
      rw [field?, hfields, ok_bind, List.find?_flatMap]
    refine ⟨hfield, ?_⟩
    rw [hfield, Except.ok.injEq, List.findSome?_eq_none_iff]
    simp only [List.find?_eq_none, beq_iff_eq, ne_eq]

/-- Parents that lead into a circle, through an enumeration, and to a type that is not declared. -/
def spiral : HostModel where
  types :=
    [⟨"Leaf", none, some "Knot", .object [⟨"name", .plain "String", {}⟩]⟩,
      ⟨"Knot", none, some "Ring", .enumeration ["TIGHT"]⟩,
      ⟨"Ring", none, some "Knot", .object [⟨"id", .plain "i32", {}⟩, ⟨"name", .plain "i32", {}⟩]⟩,
      ⟨"Stray", none, some "Ghost", .object [⟨"name", .plain "String", {}⟩]⟩]

theorem ofModel_spiral (hnodup : (spiral.types.map (·.name)).Nodup) :
    ofModel spiral = .ok ⟨spiral.types, hnodup⟩ := by
  obtain ⟨host, hhost⟩ := exists_ofModel hnodup
  have htypes := types_of_ofModel hhost
  cases host
  cases htypes
  exact hhost

theorem isWayUp_stray (hnodup : (spiral.types.map (·.name)).Nodup) :
    HostTypes.IsWayUp ⟨spiral.types, hnodup⟩ [] "Stray" ["Stray", "Ghost"] :=
  isWayUp_cons_iff.2 ⟨nofun, ⟨_, rfl, rfl⟩, isWayUp_singleton (by decide) (by
    rintro parent ⟨type, ⟨⟩, -⟩)⟩

/-- A field is not found where a name behind its type is not declared. -/
theorem field_before_unknown_fails :
    ∃ host, ofModel spiral = .ok host ∧ host.IsWayUp [] "Stray" ["Stray", "Ghost"] ∧
      (host.ownFields "Stray").find? (·.name == "name") = some ⟨"name", .plain "String", {}⟩ ∧
      host.field? "Stray" "name" = .error (.unknownHostType "Ghost") := by
  have hnodup : (spiral.types.map (·.name)).Nodup := by decide
  exact ⟨_, ofModel_spiral hnodup, isWayUp_stray hnodup, rfl, rfl⟩

theorem spiral_fields :
    (spiral.types.map (·.name)).Nodup ∧ ∃ host, ofModel spiral = .ok host ∧
      host.IsWayUp [] "Leaf" ["Leaf", "Knot", "Ring"] ∧
      host.fields "Leaf" = .ok [⟨"name", .plain "String", {}⟩, ⟨"id", .plain "i32", {}⟩,
        ⟨"name", .plain "i32", {}⟩] ∧
      host.field? "Leaf" "name" = .ok (some ⟨"name", .plain "String", {}⟩) ∧
      host.field? "Leaf" "size" = .ok none ∧
      host.IsWayUp [] "Stray" ["Stray", "Ghost"] ∧
      host.fields "Stray" = .error (.unknownHostType "Ghost") := by
  have hnodup : (spiral.types.map (·.name)).Nodup := by decide
  obtain ⟨host, hhost, -, hways⟩ := fields_follow_way hnodup
  obtain rfl := Except.ok.inj (hhost.symm.trans (ofModel_spiral hnodup))
  have hleaf : HostTypes.IsWayUp ⟨spiral.types, hnodup⟩ [] "Leaf" ["Leaf", "Knot", "Ring"] :=
    isWayUp_cons_iff.2 ⟨nofun, ⟨_, rfl, rfl⟩, isWayUp_cons_iff.2 ⟨by decide, ⟨_, rfl, rfl⟩,
      isWayUp_singleton (by decide) fun parent hparent => by
        have hknot : HostTypes.IsParent ⟨spiral.types, hnodup⟩ "Ring" "Knot" := ⟨_, rfl, rfl⟩
        obtain rfl := hparent.unique hknot
        decide⟩⟩
  have hstray := isWayUp_stray hnodup
  obtain ⟨names, -, hunique, -, -, -, hknown⟩ := hways "Leaf"
  obtain rfl := hunique _ hleaf
  obtain ⟨hfields, hfield⟩ := hknown rfl
  obtain ⟨names, -, hunique', -, -, hunknown, -⟩ := hways "Stray"
  obtain rfl := hunique' _ hstray
  exact ⟨hnodup, _, hhost, hleaf, hfields, (hfield "name").1, (hfield "size").1, hstray,
    (hunknown "Ghost" rfl).1⟩

end OperationAtlas.HostTypes
