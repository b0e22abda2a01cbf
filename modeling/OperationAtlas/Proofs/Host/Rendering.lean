import Mathlib.Data.List.Forall2
import OperationAtlas.Proofs.Host.Kept
import OperationAtlas.Proofs.Host.Spelling
import OperationAtlas.Proofs.Json.Texts

/-!
# Renderings of host models

A model can be written in many ways (`Decode.WritesModel`): the keys of an object stand in any order,
a part with its default value may be left out, a missing text may be null, a reference may be spelled
in any way, and objects below the model may have keys of no meaning. Decoding undoes all of them
(`HostModel.decoding_undoes_rendering`), from texts as well as from values.

The objects of a type and of a member are read several times, because what they are made of stands
between their own keys: `Decode.typeSlots` and `Decode.memberSlots` list all their parts, and each
reading finds its own (`Decode.shape_of_writes`, `Decode.memberDoc_of_writes`). For that the values of
all other keys are kept, and so a value of no meaning must be one that can be kept (`Decode.Fits`).
The limit of nesting alone is not enough (`HostModel.overflowing_number_is_refused`).

Every key is a text here, those of no meaning too. So nothing is said about a key that is written
with an unpaired surrogate, which is no text, and which decoding refuses in each of these objects.
-/

namespace OperationAtlas

namespace Decode

/-! ## Drafts that write values -/

/-- A text. -/
def WritesText (text : String) (draft : Draft) : Prop :=
  draft = .string (some text)

/-- A truth value. -/
def WritesFlag (flag : Bool) (draft : Draft) : Prop :=
  draft = .bool flag

/-- A text, or null for nothing. -/
inductive WritesOption : Option String → Draft → Prop
  | null : WritesOption none .null
  | text (text : String) : WritesOption (some text) (.string (some text))

/-- A reference, in any spelling. -/
def WritesRef (ref : TypeRef) (draft : Draft) : Prop :=
  ∃ text, WritesText text draft ∧ TypeRef.ofText text = .ok ref

/-- A list of values in their order. -/
def WritesList {α : Type} (writes : α → Draft → Prop) (values : List α) (draft : Draft) : Prop :=
  ∃ drafts, draft = .array drafts true ∧ List.Forall₂ writes values drafts

section

variable {text : String} {flag : Bool} {option : Option String} {ref : TypeRef} {draft : Draft}

theorem WritesText.isLeaf (h : WritesText text draft) : IsLeaf draft := by
  rw [h]
  exact ⟨rfl, rfl⟩

theorem WritesFlag.isLeaf (h : WritesFlag flag draft) : IsLeaf draft := by
  rw [h]
  exact ⟨rfl, rfl⟩

theorem WritesOption.isLeaf (h : WritesOption option draft) : IsLeaf draft := by
  cases h <;> exact ⟨rfl, rfl⟩

theorem WritesRef.isLeaf (h : WritesRef ref draft) : IsLeaf draft := by
  obtain ⟨text, htext, -⟩ := h
  exact htext.isLeaf

end

/-- The word of a tag. -/
def ShapeTag.word : ShapeTag → String
  | object => "object"
  | enumeration => "enum"

/-- The tag of a shape. -/
def tagOf : HostShape → ShapeTag
  | .object _ => .object
  | .enumeration _ => .enumeration

section

/- The values that may stand behind so many open brackets under keys of a type, a field or a
parameter that are not its own. -/
variable (kept : Nat → Draft → Prop)

/-- The parts of a member. -/
def memberSlots (member : Member) : List Slot :=
  [.must "name" (WritesText member.name), .must "type" (WritesRef member.type),
    .may "example" WritesOption none member.doc.example?,
    .may "description" WritesOption none member.doc.description,
    .may "required" WritesFlag false member.doc.required]

/-- A field or a parameter, whose values stand behind so many open brackets. -/
def WritesMember (opened : Nat) (member : Member) : Draft → Prop :=
  IsRecord (memberSlots member) (kept opened)

/-- What a shape is made of. -/
def contentSlot : HostShape → Slot
  | .object fields => .may "fields" (WritesList (WritesMember kept 5)) [] fields
  | .enumeration variants => .must "variants" (WritesList WritesText variants)

/-- The parts of a declared type, with the word of its tag. -/
def typeSlots (type : HostType) : List Slot :=
  [.must "name" (WritesText type.name), .may "description" WritesOption none type.description,
    .may "parent" WritesOption none type.parent, .must "kind" (WritesText (tagOf type.shape).word),
    contentSlot kept type.shape]

/-- A declared type. -/
def WritesType (type : HostType) : Draft → Prop :=
  IsRecord (typeSlots kept type) (kept 3)

/-- The parts of an accessor. -/
def accessorSlots (accessor : Accessor) : List Slot :=
  [.must "name" (WritesText accessor.name), .may "operation" WritesText "" accessor.operation,
    .may "description" WritesText "" accessor.description,
    .must "returns" (WritesRef accessor.returns),
    .may "parameters" (WritesList (WritesMember kept 7)) [] accessor.parameters,
    .may "access" WritesOption none accessor.access]

/-- An accessor. Under a text as a key that is not its own there may be any value. -/
def WritesAccessor (accessor : Accessor) : Draft → Prop :=
  IsRecord (accessorSlots kept accessor) fun draft => draft.isComplete = true

/-- The parts of a group. -/
def groupSlots (group : Group) : List Slot :=
  [.must "type_name" (WritesText group.typeName), .must "kind" (WritesText group.kind.keyword),
    .may "key" WritesText "" group.key, .may "description" WritesText "" group.description,
    .may "accessors" (WritesList (WritesAccessor kept)) [] group.accessors]

/-- A group. Under a text as a key that is not its own there may be any value. -/
def WritesGroup (group : Group) : Draft → Prop :=
  IsRecord (groupSlots kept group) fun draft => draft.isComplete = true

/-- The parts of a host model. -/
def modelSlots (model : HostModel) : List Slot :=
  [.may "types" (WritesList (WritesType kept)) [] model.types,
    .may "groups" (WritesList (WritesGroup kept)) [] model.groups]

/-- The members of a host model. It has no other keys; the objects below it may have, if these keys
are texts, that is without unpaired surrogates. -/
def WritesModel (model : HostModel) : List (String × Draft) → Prop :=
  WritesRecord (modelSlots kept model) fun _ => False

end

/-! ## Values are decoded -/

theorem reads_string : Reads string WritesText := by
  rintro text _ rfl
  rfl

theorem reads_bool : Reads bool WritesFlag := by
  rintro flag _ rfl
  rfl

theorem reads_option : Reads (option string) WritesOption := by
  rintro _ _ (_ | text) <;> rfl

theorem reads_typeRef : Reads typeRef WritesRef := by
  rintro ref _ ⟨text, rfl, href⟩
  rw [TypeRef.ofText] at href
  rw [typeRef, string, ok_bind]
  cases hparse : TypeRef.parse? text with
  | none =>
    rw [hparse] at href
    cases href
  | some other =>
    rw [hparse] at href
    cases href
    rfl

theorem reads_operationKind (medium : Medium) :
    Reads (operationKind medium) fun kind => WritesText kind.keyword := by
  rintro kind _ rfl
  cases medium <;> cases kind <;> rfl

theorem reads_list {α : Type} {decode : Decoder α} {writes : α → Draft → Prop}
    (h : Reads decode writes) : Reads (list decode) (WritesList writes) := by
  rintro values _ ⟨drafts, rfl, hdrafts⟩
  have hitems : items decode drafts = .ok values := by
    induction hdrafts with
    | nil => rfl
    | cons hdraft _ ih => rw [items, h hdraft, ok_bind, ih, ok_bind]
  rw [list, hitems]
  rfl

/-! ## Members -/

section

variable {extra : Draft → Prop} {members : List (String × Draft)}

theorem memberDoc_of_writes {member : Member}
    (h : WritesRecord (memberSlots member) extra members) :
    memberDoc (entries members) = .ok member.doc := by
  have hscan := h.scan
    { known := [("example", check (option string)), ("description", check (option string)),
        ("required", check bool)]
      other := fun _ _ => .ok () }
    (by
      simp only [memberSlots, List.forall_mem_cons]
      exact ⟨fun _ _ => rfl, fun _ _ => rfl, fun _ => reads_option.check,
        fun _ => reads_option.check, fun _ => reads_bool.check, nofun⟩)
    (by simp [memberSlots, Slot.must, Slot.may]) fun _ _ _ => rfl
  obtain ⟨-, -, hexample, hdescription, hrequired, -⟩ := by
    simpa only [memberSlots, List.forall_mem_cons] using h.written
  rw [memberDoc, hscan, ok_bind, reads_option.optional h.nodup hexample, ok_bind,
    reads_option.optional h.nodup hdescription, ok_bind, reads_bool.optional h.nodup hrequired]
  rfl

theorem reads_member {levels : Option Nat} (what : String)
    (hkept : ∀ ⦃draft⦄, extra draft → keep levels draft = .ok ()) :
    Reads (member levels what) fun member => IsRecord (memberSlots member) extra := by
  rintro member _ ⟨members, rfl, h⟩
  have hscan := h.scan
    { known := [("name", check string), ("type", check typeRef)]
      other := fun _ => keep levels }
    (by
      simp only [memberSlots, List.forall_mem_cons]
      exact ⟨fun _ => reads_string.check, fun _ => reads_typeRef.check,
        fun _ h => h.isLeaf.keep levels, fun _ h => h.isLeaf.keep levels,
        fun _ h => h.isLeaf.keep levels, nofun⟩)
    (by simp [memberSlots, Slot.must, Slot.may]) fun _ _ hextra => hkept hextra
  obtain ⟨hname, htype, -⟩ := by simpa only [memberSlots, List.forall_mem_cons] using h.written
  rw [object, Decode.member, record, hscan, ok_bind, if_pos rfl, ok_bind,
    reads_string.required h.nodup hname, ok_bind, reads_typeRef.required h.nodup htype, ok_bind,
    memberDoc_of_writes h]
  rfl

end

/-! ## Types -/

section

variable {medium : Medium} {opened : Nat} {draft : Draft}

theorem fits_of_writesList {α : Type} {writes : α → Draft → Prop} {values : List α}
    (h : WritesList writes values draft) (hopened : opened < 127)
    (hfits : ∀ {value draft}, writes value draft → Fits medium (opened + 1) draft) :
    Fits medium opened draft := by
  obtain ⟨drafts, rfl, hdrafts⟩ := h
  refine fits_array hopened ?_
  induction hdrafts with
  | nil => nofun
  | cons hdraft _ ih => exact List.forall_mem_cons.2 ⟨hfits hdraft, ih⟩

/-- A member can be kept if the values can be that it does not use itself. -/
theorem fits_of_writesMember {member : Member}
    (h : WritesMember (Fits medium) (opened + 1) member draft) (hopened : opened < 127) :
    Fits medium opened draft := by
  obtain ⟨members, rfl, h⟩ := h
  refine fits_object hopened (h.forall_mem (p := fun _ => Fits medium (opened + 1)) ?_
    fun _ _ _ hextra => hextra)
  simp only [memberSlots, List.forall_mem_cons]
  exact ⟨fun _ h => h.isLeaf.fits hopened, fun _ h => h.isLeaf.fits hopened,
    fun _ h => h.isLeaf.fits hopened, fun _ h => h.isLeaf.fits hopened,
    fun _ h => h.isLeaf.fits hopened, nofun⟩

theorem reads_shapeTag : Reads shapeTag fun tag => WritesText tag.word := by
  rintro tag _ rfl
  cases tag <;> rfl

theorem reads_fields (medium : Medium) :
    Reads (list (member none "struct HostField")) (WritesList (WritesMember (Fits medium) 5)) :=
  reads_list (reads_member "struct HostField" fun _ => Fits.keep_none)

theorem shape_of_writes {type : HostType} {extra : Draft → Prop} {members : List (String × Draft)}
    (h : WritesRecord (typeSlots (Fits medium) type) extra members) :
    shape (entries members) = .ok type.shape := by
  obtain ⟨name, description, parent, given⟩ := type
  have hscan := h.scan
    { known := [("kind", check shapeTag)]
      other := fun _ _ => .ok () }
    (by
      simp only [typeSlots, List.forall_mem_cons]
      exact ⟨fun _ _ => rfl, fun _ _ => rfl, fun _ _ => rfl, fun _ => reads_shapeTag.check,
        by cases given <;> exact fun _ _ => rfl, nofun⟩)
    (by simp [typeSlots, Slot.must, Slot.may]) fun _ _ _ => rfl
  obtain ⟨-, -, -, hkind, hcontent, -⟩ := by
    simpa only [typeSlots, List.forall_mem_cons] using h.written
  have htag : required (entries members) "kind" shapeTag = .ok (tagOf given) :=
    reads_shapeTag.required h.nodup hkind
  rw [shape, hscan, ok_bind, htag, ok_bind]
  cases given with
  | object fields =>
    have hscan := h.scan
      { known := [("fields", check (list (member none "struct HostField")))]
        other := fun _ _ => .ok () }
      (by
        simp only [typeSlots, contentSlot, List.forall_mem_cons]
        exact ⟨fun _ _ => rfl, fun _ _ => rfl, fun _ _ => rfl, fun _ _ => rfl,
          fun _ => (reads_fields medium).check, nofun⟩)
      (by simp [typeSlots, contentSlot, Slot.must, Slot.may]) fun _ _ _ => rfl
    simp only [tagOf, hscan, ok_bind, (reads_fields medium).optional h.nodup hcontent]
  | enumeration variants =>
    have hscan := h.scan
      { known := [("variants", check (list string))]
        other := fun _ _ => .ok () }
      (by
        simp only [typeSlots, contentSlot, List.forall_mem_cons]
        exact ⟨fun _ _ => rfl, fun _ _ => rfl, fun _ _ => rfl, fun _ _ => rfl,
          fun _ => (reads_list reads_string).check, nofun⟩)
      (by simp [typeSlots, contentSlot, Slot.must, Slot.may]) fun _ _ _ => rfl
    simp only [tagOf, hscan, ok_bind, (reads_list reads_string).required h.nodup hcontent]

/-- What a shape is made of can be kept while the type is read. -/
theorem fits_of_content {given : HostShape} (h : (contentSlot (Fits medium) given).writes draft) :
    Fits medium 3 draft := by
  cases given with
  | object fields =>
    exact fits_of_writesList h (by decide) fun hfield => fits_of_writesMember hfield (by decide)
  | enumeration variants =>
    exact fits_of_writesList h (by decide) fun hvariant => hvariant.isLeaf.fits (by decide)

theorem reads_hostType (medium : Medium) :
    Reads (hostType (medium.levelsBehind 3)) (WritesType (Fits medium)) := by
  rintro ⟨name, description, parent, given⟩ _ ⟨members, rfl, h⟩
  have hscan := h.scan
    { known := [("name", check string), ("description", check (option string)),
        ("parent", check (option string))]
      other := fun _ => keep (medium.levelsBehind 3) }
    (by
      simp only [typeSlots, List.forall_mem_cons]
      exact ⟨fun _ => reads_string.check, fun _ => reads_option.check, fun _ => reads_option.check,
        fun _ hkind => hkind.isLeaf.keep _,
        by cases given <;> exact fun _ hcontent => (fits_of_content hcontent).keep, nofun⟩)
    (by simp [typeSlots, Slot.must, Slot.may]) fun _ _ hextra => hextra.keep
  obtain ⟨hname, hdescription, hparent, -⟩ := by
    simpa only [typeSlots, List.forall_mem_cons] using h.written
  rw [object, hostType, record, hscan, ok_bind, if_pos rfl, ok_bind,
    reads_string.required h.nodup hname, ok_bind, reads_option.optional h.nodup hdescription,
    ok_bind, reads_option.optional h.nodup hparent, ok_bind, shape_of_writes h]
  rfl

end

/-! ## Groups -/

theorem skip_eq_ok {draft : Draft} (h : draft.isComplete = true) : skip draft = .ok () :=
  if_pos h

theorem reads_parameters (medium : Medium) :
    Reads (list (member (medium.levelsBehind 7) "struct HostParameter"))
      (WritesList (WritesMember (Fits medium) 7)) :=
  reads_list (reads_member "struct HostParameter" fun _ => Fits.keep)

theorem reads_accessor (medium : Medium) :
    Reads (accessor medium 4) (WritesAccessor (Fits medium)) := by
  rintro given _ ⟨members, rfl, h⟩
  have hscan := h.scan
    { known := [("name", check string), ("operation", check string),
        ("description", check string), ("returns", check typeRef),
        ("parameters", check (list (member (medium.levelsBehind 7) "struct HostParameter"))),
        ("access", check (option string))]
      other := fun _ => skip }
    (by
      simp only [accessorSlots, List.forall_mem_cons]
      exact ⟨fun _ => reads_string.check, fun _ => reads_string.check, fun _ => reads_string.check,
        fun _ => reads_typeRef.check, fun _ => (reads_parameters medium).check,
        fun _ => reads_option.check, nofun⟩)
    (by simp [accessorSlots, Slot.must, Slot.may]) fun _ _ hextra => skip_eq_ok hextra
  obtain ⟨hname, hoperation, hdescription, hreturns, hparameters, haccess, -⟩ := by
    simpa only [accessorSlots, List.forall_mem_cons] using h.written
  rw [object, accessor]
  simp only [record, hscan, ok_bind, if_true, reads_string.required h.nodup hname,
    reads_string.optional h.nodup hoperation, reads_string.optional h.nodup hdescription,
    reads_typeRef.required h.nodup hreturns,
    (reads_parameters medium).optional h.nodup hparameters, reads_option.optional h.nodup haccess]

theorem reads_group (medium : Medium) : Reads (group medium) (WritesGroup (Fits medium)) := by
  rintro given _ ⟨members, rfl, h⟩
  have haccessors := reads_list (reads_accessor medium)
  have hscan := h.scan
    { known := [("type_name", check string), ("kind", check (operationKind medium)),
        ("key", check string), ("description", check string),
        ("accessors", check (list (accessor medium 4)))]
      other := fun _ => skip }
    (by
      simp only [groupSlots, List.forall_mem_cons]
      exact ⟨fun _ => reads_string.check, fun _ => (reads_operationKind medium).check,
        fun _ => reads_string.check, fun _ => reads_string.check, fun _ => haccessors.check, nofun⟩)
    (by simp [groupSlots, Slot.must, Slot.may]) fun _ _ hextra => skip_eq_ok hextra
  obtain ⟨htypeName, hkind, hkey, hdescription, hwritten, -⟩ := by
    simpa only [groupSlots, List.forall_mem_cons] using h.written
  have hkind : required (entries members) "kind" (operationKind medium) = .ok given.kind :=
    (reads_operationKind medium).required h.nodup hkind
  rw [object, group]
  simp only [record, hscan, ok_bind, if_true, reads_string.required h.nodup htypeName, hkind,
    reads_string.optional h.nodup hkey, reads_string.optional h.nodup hdescription,
    haccessors.optional h.nodup hwritten]

/-! ## Models -/

/-- The keys of a host model with the checks of their values. -/
def modelKeys (medium : Medium) : Keys where
  known := [("types", check (list (hostType (medium.levelsBehind 3)))),
    ("groups", check (list (group medium)))]
  other := fun key _ => .error (.unknownField key ["types", "groups"])

variable {medium : Medium} {given : HostModel} {members : List (String × Draft)}

theorem check_of_writes (h : WritesModel (Fits medium) given members) :
    ∀ member ∈ members, (modelKeys medium).check member.1 member.2 = .ok () := by
  refine h.forall_mem (p := fun key draft => (modelKeys medium).check key draft = .ok ()) ?_
    fun _ _ _ => False.elim
  simp only [modelSlots, List.forall_mem_cons]
  exact ⟨fun _ => (reads_list (reads_hostType medium)).check,
    fun _ => (reads_list (reads_group medium)).check, nofun⟩

/-- What writes a model is decoded as that model. -/
theorem model_of_writes (h : WritesModel (Fits medium) given members) :
    model medium (object members) = .ok given := by
  obtain ⟨seen, hscan⟩ := scan_append [] h.nodup (fun _ _ => List.not_mem_nil)
    (check_of_writes h) []
  rw [List.append_nil] at hscan
  obtain ⟨htypes, hgroups, -⟩ := by
    simpa only [modelSlots, List.forall_mem_cons] using h.written
  have hrecord : record (modelKeys medium) (entries members) true = .ok () := by
    rw [record, hscan]
    rfl
  rw [modelKeys] at hrecord
  rw [object, model]
  simp only [hrecord, ok_bind, (reads_list (reads_hostType medium)).optional h.nodup htypes,
    (reads_list (reads_group medium)).optional h.nodup hgroups]

/-- With another key, wherever it stands, it is refused. -/
theorem model_of_unknown {front back : List (String × Draft)} {key : String} {draft : Draft}
    (h : WritesModel (Fits medium) given (front ++ back)) (hkey : key ∉ ["types", "groups"]) :
    model medium (object (front ++ (key, draft) :: back)) =
      .error (.unknownField key ["types", "groups"]) := by
  have hnodup := h.nodup
  rw [List.map_append] at hnodup
  have hscan : scan (modelKeys medium) [] (entries (front ++ (key, draft) :: back)) =
      .error (.unknownField key ["types", "groups"]) :=
    scan_of_unknown hnodup.of_append_left
      (fun member hmember => check_of_writes h member (List.mem_append_left back hmember)) hkey rfl
      back
  have hrecord : record (modelKeys medium) (entries (front ++ (key, draft) :: back)) true =
      .error (.unknownField key ["types", "groups"]) := by
    rw [record, hscan, error_bind]
  rw [modelKeys] at hrecord
  rw [object, model]
  simp only [hrecord, error_bind]

end Decode

/-- Whatever has a draft is decoded with a result: every text that spells the draft, or every value
whose draft it is. -/
def HostModel.IsDecodedAs (medium : Decode.Medium) (draft : Draft)
    (result : Except DecodeError HostModel) : Prop :=
  match medium with
  | .text => ∀ text : String, Draft.Spells text.toList draft → parse text = result
  | .value => ∀ value : Json, Draft.ofJson value = draft → ofJson value = result

theorem HostModel.isDecodedAs_of_model {medium : Decode.Medium} {draft : Draft}
    {result : Except DecodeError HostModel} (h : Decode.model medium draft = result) :
    IsDecodedAs medium draft result := by
  cases medium with
  | text =>
    intro text hspells
    have hread := (Draft.read_eq_iff_spells.2 hspells).1
    rw [parse, hread]
    simp only [h]
    cases result <;> rfl
  | value =>
    rintro value rfl
    exact h

namespace HostModel

open Decode

/-- Decoding undoes every rendering of a model, as a text or as a value: each record is an object with
its keys in any order, parts with their default values may be left out, a missing text may be null,
references may be spelled in any way, and objects of types, fields, groups, accessors and parameters
may have other texts as keys. What stands under another key of a type, a field or a parameter must
be a value that can be kept. With another key of its own the model is refused, wherever the key
stands. -/
theorem decoding_undoes_rendering (medium : Medium) (model : HostModel)
    (members : List (String × Draft)) (h : WritesModel (Fits medium) model members) :
    IsDecodedAs medium (object members) (.ok model) ∧
      ∀ front back key value, members = front ++ back → key ∉ ["types", "groups"] →
        IsDecodedAs medium (object (front ++ (key, value) :: back))
          (.error (.unknownField key ["types", "groups"])) := by
  refine ⟨isDecodedAs_of_model (model_of_writes h), ?_⟩
  rintro front back key value rfl hkey
  exact isDecodedAs_of_model (model_of_unknown h hkey)

/-! ### A rendering -/

/-- A model with a type and a group. -/
def harbour : HostModel where
  types := [⟨"Ship", none, none, .object [⟨"sister", .plain "Ship", {}⟩]⟩]
  groups := [⟨"Port", .query, "", "", []⟩]

/-- A rendering of it: the group, the type and the field have a key that is not theirs. -/
def harbourMembers : List (String × Draft) :=
  [("groups", .array [object [("x", .array [.string none] true), ("kind", .string (some "query")),
      ("type_name", .string (some "Port"))]] true),
    ("types", .array [object [("fields", .array [object [("x", .array [object []] true),
        ("type", .string (some "Option<Ship>")), ("name", .string (some "sister"))]] true),
      ("kind", .string (some "object")), ("x", .null), ("name", .string (some "Ship")),
      ("description", .null)]] true)]

/-- A text of that rendering, with blanks and with an escape in a key. -/
def harbourText : String :=
  "\x7b\"groups\": [\x7b\"x\": [\"\\ud800\"], \"kind\": \"query\", \"type_name\": \"Port\"\x7d], " ++
    "\"t\\u0079pes\": [\x7b\"fields\": [\x7b\"x\": [\x7b\x7d], \"type\": \"Option<Ship>\", \"name\": " ++
    "\"sister\"\x7d], \"kind\": \"object\", \"x\": null, \"name\": \"Ship\", \"description\": null\x7d]\x7d"

set_option maxRecDepth 4096 in
theorem spells_harbourText : Draft.Spells harbourText.toList (object harbourMembers) := by
  unfold harbourText
  rw [String.toList_append, String.toList_append, String.toList_ofList, String.toList_ofList,
    String.toList_ofList]
  exact Draft.spells_of_readValue rfl rfl

theorem ofText_ship : TypeRef.ofText "Option<Ship>" = .ok (.plain "Ship") := by
  have hname : ∀ name : List Char, name ≠ [] → name.all Text.isNameChar = true →
      TypeRef.SpellsName name (String.ofList name) := fun name hne hname => by
    simpa using TypeRef.SpellsName.name TypeRef.isBlanks_nil .absent hne (List.all_eq_true.1 hname)
      TypeRef.isBlanks_nil
  have hship := hname ['S', 'h', 'i', 'p'] (by decide) (by decide +kernel)
  have hoption := hname ['O', 'p', 't', 'i', 'o', 'n'] (by decide) (by decide +kernel)
  exact TypeRef.ofText_eq_ok_iff.2 <| .wrapped hoption (by decide)
    (.plain hship (by decide) (by decide) .absent) .absent TypeRef.isBlanks_nil

theorem writes_harbour : WritesModel (Fits .text) harbour harbourMembers := by
  have hgroup : WritesGroup (Fits .text) ⟨"Port", .query, "", "", []⟩
      (object [("x", .array [.string none] true), ("kind", .string (some "query")),
        ("type_name", .string (some "Port"))]) := by
    refine ⟨_, rfl, by decide, ?_, ?_⟩
    · simp [groupSlots, Slot.IsWritten, Slot.must, Slot.may, WritesText, OperationKind.keyword]
    · simp [groupSlots, Slot.must, Slot.may, Draft.isComplete]
  have hfield : WritesMember (Fits .text) 5 ⟨"sister", .plain "Ship", {}⟩
      (object [("x", .array [object []] true), ("type", .string (some "Option<Ship>")),
        ("name", .string (some "sister"))]) := by
    refine ⟨_, rfl, by decide, ?_, ?_⟩
    · simp [memberSlots, Slot.IsWritten, Slot.must, Slot.may, WritesText, WritesRef, ofText_ship]
    · simp [memberSlots, Slot.must, Slot.may, Fits]
      decide
  have htype : WritesType (Fits .text) ⟨"Ship", none, none, .object [⟨"sister", .plain "Ship", {}⟩]⟩
      (object [("fields", .array [object [("x", .array [object []] true),
        ("type", .string (some "Option<Ship>")), ("name", .string (some "sister"))]] true),
      ("kind", .string (some "object")), ("x", .null), ("name", .string (some "Ship")),
      ("description", .null)]) := by
    refine ⟨_, rfl, by decide, ?_, ?_⟩
    · simp only [typeSlots, List.forall_mem_cons]
      refine ⟨?_, ?_, ?_, ?_, ?_, nofun⟩
      · simp [Slot.IsWritten, Slot.must, WritesText]
      · exact .inl ⟨_, by simp [Slot.may], .null⟩
      · simp [Slot.IsWritten, Slot.may]
      · simp [Slot.IsWritten, Slot.must, WritesText, tagOf, ShapeTag.word]
      · exact .inl ⟨_, by simp [contentSlot, Slot.may], _, rfl, .cons hfield .nil⟩
    · simp [typeSlots, contentSlot, Slot.must, Slot.may, Fits]
      decide
  refine ⟨by decide, ?_, ?_⟩
  · simp only [modelSlots, List.forall_mem_cons]
    exact ⟨.inl ⟨_, by simp [harbourMembers, Slot.may], _, rfl, .cons htype .nil⟩,
      .inl ⟨_, by simp [harbourMembers, Slot.may], _, rfl, .cons hgroup .nil⟩, nofun⟩
  · simp [modelSlots, Slot.may, harbourMembers]

theorem harbour_is_decoded :
    WritesModel (Fits .text) harbour harbourMembers ∧ HostModel.parse harbourText = .ok harbour :=
  ⟨writes_harbour,
    (decoding_undoes_rendering .text harbour harbourMembers writes_harbour).1 harbourText
      spells_harbourText⟩

/-! ### A value that cannot be kept -/

/-- Values of a text that nest within the limit. -/
def Nests (opened : Nat) (draft : Draft) : Prop :=
  opened + draft.depth ≤ 127

/-- A model with a type without fields. -/
def raft : HostModel where
  types := [⟨"A", none, none, .object []⟩]

/-- A rendering of it, with a number under a key that is not the type's. -/
def raftMembers (number : Option JsonNumber) : List (String × Draft) :=
  [("types", .array [object [("name", .string (some "A")), ("kind", .string (some "object")),
    ("x", .number number)]] true)]

/-- A text of that rendering, where the number is greater than every double. -/
def raftText : String :=
  "\x7b\"types\": [\x7b\"name\": \"A\", \"kind\": \"object\", \"x\": 1e999\x7d]\x7d"

theorem spells_raftText : Draft.Spells raftText.toList (object (raftMembers none)) := by
  have hnumber : JsonNumber.ofParts? false ['1'] none (some (false, ['9', '9', '9'])) = none := by
    decide +kernel
  rw [raftText, String.toList_ofList, ← hnumber]
  exact Draft.spells_of_readValue rfl rfl

theorem writes_raft : WritesModel Nests raft (raftMembers none) := by
  have htype : WritesType Nests ⟨"A", none, none, .object []⟩
      (object [("name", .string (some "A")), ("kind", .string (some "object")),
        ("x", .number none)]) := by
    refine ⟨_, rfl, by decide, ?_, ?_⟩
    · simp [typeSlots, contentSlot, Slot.IsWritten, Slot.must, Slot.may, WritesText, tagOf,
        ShapeTag.word]
    · simp [typeSlots, contentSlot, Slot.must, Slot.may, Nests, Draft.depth]
  refine ⟨by decide, ?_, ?_⟩
  · simp only [modelSlots, List.forall_mem_cons]
    exact ⟨.inl ⟨_, by simp [raftMembers, Slot.may], _, rfl, .cons htype .nil⟩,
      .inr ⟨rfl, by decide⟩, nofun⟩
  · simp [modelSlots, Slot.may, raftMembers]

theorem refused_raft : IsDecodedAs .text (object (raftMembers none)) (.error .malformed) :=
  isDecodedAs_of_model rfl

/-- It is not enough that the other values of a type nest within the limit: a number that is greater
than every double is not kept. -/
theorem overflowing_number_is_refused :
    WritesModel Nests raft (raftMembers none) ∧
      Draft.Spells raftText.toList (object (raftMembers none)) ∧
      HostModel.parse raftText = .error .malformed :=
  ⟨writes_raft, spells_raftText,
    refused_raft raftText spells_raftText⟩

end HostModel

end OperationAtlas
