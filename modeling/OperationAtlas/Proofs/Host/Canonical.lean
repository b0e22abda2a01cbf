import OperationAtlas.Proofs.Host.Rendering
import OperationAtlas.Proofs.Json.Reading

/-!
# The canonical rendering of a model

`HostModel.toJson` writes a model with all its keys, in the order in which they are declared, and with
its references in their canonical spelling. If each reference was read from some text
(`HostModel.IsSpelled`), this is a rendering of the model, and so the model is decoded from the value
and from its lines (`HostModel.parse_toPretty`): every such model has a text.
-/

namespace OperationAtlas

open Decode

/-! ## Values -/

/-- The value of a field or a parameter. -/
def Member.toJson (member : Member) : Json :=
  .object [("name", .string member.name), ("type", .string member.type.display),
    ("example", .ofOption member.doc.example?), ("description", .ofOption member.doc.description),
    ("required", .bool member.doc.required)]

/-- What a shape is made of, with its key. -/
def HostShape.content : HostShape → String × Json
  | .object fields => ("fields", .array (fields.map Member.toJson))
  | .enumeration variants => ("variants", .array (variants.map .string))

/-- The value of a declared type. -/
def HostType.toJson (type : HostType) : Json :=
  .object [("name", .string type.name), ("description", .ofOption type.description),
    ("parent", .ofOption type.parent), ("kind", .string (tagOf type.shape).word),
    type.shape.content]

/-- The value of an accessor. -/
def Accessor.toJson (accessor : Accessor) : Json :=
  .object [("name", .string accessor.name), ("operation", .string accessor.operation),
    ("description", .string accessor.description), ("returns", .string accessor.returns.display),
    ("parameters", .array (accessor.parameters.map Member.toJson)),
    ("access", .ofOption accessor.access)]

/-- The value of a group. -/
def Group.toJson (group : Group) : Json :=
  .object [("type_name", .string group.typeName), ("kind", .string group.kind.keyword),
    ("key", .string group.key), ("description", .string group.description),
    ("accessors", .array (group.accessors.map Accessor.toJson))]

/-- The members of the value of a model. -/
def HostModel.pairs (model : HostModel) : List (String × Json) :=
  [("types", .array (model.types.map HostType.toJson)),
    ("groups", .array (model.groups.map Group.toJson))]

/-- The value of a model. -/
def HostModel.toJson (model : HostModel) : Json :=
  .object model.pairs

/-! ## References that were read -/

/-- A reference that some text spells. -/
def TypeRef.IsSpelled (ref : TypeRef) : Prop := ∃ text, TypeRef.ofText text = .ok ref

/-- The references of a shape are spelled. -/
def HostShape.IsSpelled : HostShape → Prop
  | .object fields => ∀ field ∈ fields, field.type.IsSpelled
  | .enumeration _ => True

/-- The references of an accessor are spelled. -/
def Accessor.IsSpelled (accessor : Accessor) : Prop :=
  accessor.returns.IsSpelled ∧ ∀ parameter ∈ accessor.parameters, parameter.type.IsSpelled

/-- The references of a model are spelled. -/
def HostModel.IsSpelled (model : HostModel) : Prop :=
  (∀ type ∈ model.types, type.shape.IsSpelled) ∧
    ∀ group ∈ model.groups, ∀ accessor ∈ group.accessors, accessor.IsSpelled

/-! ## The value is a rendering -/

variable {kept : Nat → Draft → Prop}

theorem writesRef_display {ref : TypeRef} (h : ref.IsSpelled) :
    WritesRef ref (.string (some ref.display)) := by
  obtain ⟨text, htext⟩ := h
  exact ⟨_, rfl, TypeRef.ofText_eq_ok_iff.2 (TypeRef.ofText_eq_ok_iff.1 htext).display⟩

theorem writesOption_ofOption : ∀ option : Option String,
    WritesOption option (Draft.ofJson (.ofOption option))
  | none => .null
  | some text => .text text

theorem writesList_map {α : Type} {writes : α → Draft → Prop} {toJson : α → Json} {values : List α}
    (h : ∀ value ∈ values, writes value (Draft.ofJson (toJson value))) :
    WritesList writes values (Draft.ofJson (.array (values.map toJson))) := by
  refine ⟨Draft.ofItems (values.map toJson), by rw [Draft.ofJson], ?_⟩
  induction values with
  | nil => exact .nil
  | cons value values ih =>
    obtain ⟨hvalue, hvalues⟩ := List.forall_mem_cons.1 h
    exact .cons hvalue (ih hvalues)

/-- The drafts of members. -/
def drafts (pairs : List (String × Json)) : List (String × Draft) :=
  pairs.map fun pair => (pair.1, Draft.ofJson pair.2)

theorem ofJson_object (pairs : List (String × Json)) :
    Draft.ofJson (.object pairs) = object (drafts pairs) := by
  rw [Draft.ofJson, object]
  congr 1
  induction pairs with
  | nil => rfl
  | cons pair pairs ih =>
    rw [Draft.ofMembers, ih]
    rfl

/-- Members with the keys of the slots, in the order of the slots, write a record. -/
theorem writesRecord_drafts {slots : List Slot} {extra : Draft → Prop} {pairs : List (String × Json)}
    (h : List.Forall₂ (fun slot pair => slot.key = pair.1 ∧ slot.writes (Draft.ofJson pair.2)) slots
      pairs) (hnodup : (pairs.map (·.1)).Nodup) : WritesRecord slots extra (drafts pairs) := by
  have hkeys : slots.map (·.key) = (drafts pairs).map (·.1) := by
    induction h with
    | nil => rfl
    | cons hslot _ ih =>
      rw [List.map_cons, ih (List.nodup_cons.1 hnodup).2, hslot.1]
      rfl
  have hdrafts : (drafts pairs).map (·.1) = pairs.map (·.1) := by simp [drafts]
  refine ⟨hdrafts ▸ hnodup, fun slot hslot => .inl ?_, fun member hmember hnot => ?_⟩
  · clear hnodup hkeys hdrafts
    induction h with
    | nil => cases hslot
    | @cons first pair slots pairs hfirst _ ih =>
      rcases List.mem_cons.1 hslot with rfl | hslot
      · exact ⟨_, hfirst.1 ▸ List.mem_cons_self, hfirst.2⟩
      · obtain ⟨draft, hmem, hwrites⟩ := ih hslot
        exact ⟨draft, List.mem_cons_of_mem _ hmem, hwrites⟩
  · exact absurd (hkeys ▸ List.mem_map_of_mem hmember) hnot

theorem isRecord_ofJson {slots : List Slot} {extra : Draft → Prop} {pairs : List (String × Json)}
    (h : List.Forall₂ (fun slot pair => slot.key = pair.1 ∧ slot.writes (Draft.ofJson pair.2)) slots
      pairs) (hnodup : (pairs.map (·.1)).Nodup) :
    IsRecord slots extra (Draft.ofJson (.object pairs)) :=
  ⟨drafts pairs, ofJson_object pairs, writesRecord_drafts h hnodup⟩

theorem writesMember_toJson {member : Member} (h : member.type.IsSpelled) (opened : Nat) :
    WritesMember kept opened member (Draft.ofJson member.toJson) :=
  isRecord_ofJson
    (.cons ⟨rfl, rfl⟩ <| .cons ⟨rfl, writesRef_display h⟩ <|
      .cons ⟨rfl, writesOption_ofOption member.doc.example?⟩ <|
      .cons ⟨rfl, writesOption_ofOption member.doc.description⟩ <| .cons ⟨rfl, rfl⟩ .nil)
    (by simp)

theorem writes_content : ∀ {given : HostShape}, given.IsSpelled →
    (contentSlot kept given).key = given.content.1 ∧
      (contentSlot kept given).writes (Draft.ofJson given.content.2)
  | .object _, h => ⟨rfl, writesList_map fun field hfield => writesMember_toJson (h field hfield) 5⟩
  | .enumeration _, _ => ⟨rfl, writesList_map fun _ _ => rfl⟩

theorem writesType_toJson {type : HostType} (h : type.shape.IsSpelled) :
    WritesType kept type (Draft.ofJson type.toJson) :=
  isRecord_ofJson
    (.cons ⟨rfl, rfl⟩ <| .cons ⟨rfl, writesOption_ofOption type.description⟩ <|
      .cons ⟨rfl, writesOption_ofOption type.parent⟩ <| .cons ⟨rfl, rfl⟩ <|
      .cons (writes_content h) .nil)
    (by cases hshape : type.shape <;> simp [HostShape.content])

theorem writesAccessor_toJson {accessor : Accessor} (h : accessor.IsSpelled) :
    WritesAccessor kept accessor (Draft.ofJson accessor.toJson) :=
  isRecord_ofJson
    (.cons ⟨rfl, rfl⟩ <| .cons ⟨rfl, rfl⟩ <| .cons ⟨rfl, rfl⟩ <|
      .cons ⟨rfl, writesRef_display h.1⟩ <|
      .cons ⟨rfl, writesList_map fun parameter hparameter =>
        writesMember_toJson (h.2 parameter hparameter) 7⟩ <|
      .cons ⟨rfl, writesOption_ofOption accessor.access⟩ .nil)
    (by simp)

theorem writesGroup_toJson {group : Group} (h : ∀ accessor ∈ group.accessors, accessor.IsSpelled) :
    WritesGroup kept group (Draft.ofJson group.toJson) :=
  isRecord_ofJson
    (.cons ⟨rfl, rfl⟩ <| .cons ⟨rfl, rfl⟩ <| .cons ⟨rfl, rfl⟩ <| .cons ⟨rfl, rfl⟩ <|
      .cons ⟨rfl, writesList_map fun accessor haccessor =>
        writesAccessor_toJson (h accessor haccessor)⟩ .nil)
    (by simp)

/-- A model whose references were read has a rendering. -/
theorem writesModel_toJson {model : HostModel} (h : model.IsSpelled) :
    WritesModel kept model (drafts model.pairs) :=
  writesRecord_drafts
    (.cons ⟨rfl, writesList_map fun type htype => writesType_toJson (h.1 type htype)⟩ <|
      .cons ⟨rfl, writesList_map fun group hgroup => writesGroup_toJson (h.2 group hgroup)⟩ .nil)
    (by simp [HostModel.pairs])

/-! ## The value has lines -/

theorem isPlain_ofOption : ∀ option : Option String, (Json.ofOption option).IsPlain
  | none => .null
  | some text => .string text

theorem isPlain_map {α : Type} {toJson : α → Json} (h : ∀ value, (toJson value).IsPlain)
    (values : List α) : (Json.array (values.map toJson)).IsPlain :=
  .array (List.forall_mem_map.2 fun value _ => h value)

theorem isPlain_member (member : Member) : member.toJson.IsPlain := by
  refine .object (by simp) ?_
  simp only [List.forall_mem_cons]
  exact ⟨.string _, .string _, isPlain_ofOption _, isPlain_ofOption _, .bool _, nofun⟩

theorem isPlain_content : ∀ given : HostShape, given.content.2.IsPlain
  | .object fields => isPlain_map isPlain_member fields
  | .enumeration variants => isPlain_map .string variants

theorem isPlain_type (type : HostType) : type.toJson.IsPlain := by
  refine .object (by cases type.shape <;> simp [HostShape.content]) ?_
  simp only [List.forall_mem_cons]
  exact ⟨.string _, isPlain_ofOption _, isPlain_ofOption _, .string _, isPlain_content _, nofun⟩

theorem isPlain_accessor (accessor : Accessor) : accessor.toJson.IsPlain := by
  refine .object (by simp) ?_
  simp only [List.forall_mem_cons]
  exact ⟨.string _, .string _, .string _, .string _, isPlain_map isPlain_member _,
    isPlain_ofOption _, nofun⟩

theorem isPlain_group (group : Group) : group.toJson.IsPlain := by
  refine .object (by simp) ?_
  simp only [List.forall_mem_cons]
  exact ⟨.string _, .string _, .string _, .string _, isPlain_map isPlain_accessor _, nofun⟩

theorem HostModel.isPlain_toJson (model : HostModel) : model.toJson.IsPlain := by
  refine .object (by simp [pairs]) ?_
  simp only [pairs, List.forall_mem_cons]
  exact ⟨isPlain_map isPlain_type _, isPlain_map isPlain_group _, nofun⟩

/-- A model whose references were read is decoded from its value and from its lines. -/
theorem HostModel.parse_toPretty {model : HostModel} (h : model.IsSpelled) :
    ofJson model.toJson = .ok model ∧ parse model.toJson.toPretty = .ok model := by
  have hdraft := ofJson_object model.pairs
  constructor
  · have hdecoded : IsDecodedAs .value (object (drafts model.pairs)) (.ok model) :=
      isDecodedAs_of_model (model_of_writes (writesModel_toJson h))
    exact hdecoded model.toJson hdraft
  · have hdecoded : IsDecodedAs .text (object (drafts model.pairs)) (.ok model) :=
      isDecodedAs_of_model (model_of_writes (writesModel_toJson h))
    have hspells := model.isPlain_toJson.spells 0
    rw [toJson, hdraft, ← String.toList_ofList (l := (Json.object model.pairs).pretty 0)] at hspells
    exact hdecoded _ hspells

end OperationAtlas
