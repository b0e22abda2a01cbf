import OperationAtlas.Proofs.Json.Scalars
import OperationAtlas.Proofs.Sample.Literals
import OperationAtlas.Proofs.Session.Depth

/-!
# Arguments show what responses show

A sample has its data twice: as an example value in JSON, and as the literal that passes the type as
an argument. Both are rendered on their own, from the same fields. `argument_shows_response` says
that they agree: the literal is read as the example value, taken for a value of a request
(`Json.toValue`).

JSON has no variants of enumerations, so the schema and the host say which strings are some
(`Surroundings.isVariantAt`). A type without fields, and one whose walk is running, shows the name
of its schema type in JSON and has no fields in a literal. A repeated field is written twice in the
literal and has one key in the example value; both keep its last value (`Value.ofFields_ofPairs`).

The condition is about the leaves of the types that are shown (`Surroundings.ShowsLeaf`): the text
of each has to be one that its literal allows, and its variant has to be a name that means no other
value (`Leaf.Agrees`).
-/

namespace OperationAtlas

open Graphql

/-! ## Repeated fields -/

namespace Graphql.Value

variable {name other : String} {value v : Value} {fields : List (String × Value)}

theorem setField_cons_self (name : String) (value v : Value) (fields : List (String × Value)) :
    setField name value ((name, v) :: fields) = (name, value) :: fields := by
  rw [setField, if_pos rfl]

theorem setField_cons_of_lt (h : name < other) :
    setField name value ((other, v) :: fields) = (name, value) :: (other, v) :: fields := by
  rw [setField, if_neg h.ne, if_pos h]

theorem setField_cons_of_gt (h : other < name) :
    setField name value ((other, v) :: fields) = (other, v) :: setField name value fields := by
  rw [setField, if_neg h.ne', if_neg h.asymm]

/-- Of two values of a field the last one counts. -/
theorem setField_setField (name : String) (value first : Value) (fields : List (String × Value)) :
    setField name value (setField name first fields) = setField name value fields := by
  induction fields with
  | nil => simp [setField]
  | cons field fields ih =>
    obtain ⟨n, v⟩ := field
    rcases lt_trichotomy name n with h | rfl | h
    · rw [setField_cons_of_lt h, setField_cons_self, setField_cons_of_lt h]
    · simp only [setField_cons_self]
    · simp only [setField_cons_of_gt h, ih]

theorem setField_comm_of_lt (h : name < other) (value v : Value) (fields : List (String × Value)) :
    setField name value (setField other v fields) =
      setField other v (setField name value fields) := by
  induction fields with
  | nil => simp [setField, h, h.ne, h.ne', h.asymm]
  | cons field fields ih =>
    obtain ⟨n, w⟩ := field
    rcases lt_trichotomy name n with hn | rfl | hn
    · rcases lt_trichotomy other n with ho | rfl | ho <;>
        grind [setField_cons_of_lt, setField_cons_self, setField_cons_of_gt]
    · simp only [setField_cons_of_gt h, setField_cons_self]
    · simp only [setField_cons_of_gt hn, setField_cons_of_gt (hn.trans h), ih]

/-- Fields of different names may be set in any order. -/
theorem setField_comm (h : name ≠ other) (value v : Value) (fields : List (String × Value)) :
    setField name value (setField other v fields) =
      setField other v (setField name value fields) := by
  rcases lt_or_gt_of_ne h with h | h
  · exact setField_comm_of_lt h value v fields
  · exact (setField_comm_of_lt h v value fields).symm

/-- Sets fields one after the other. -/
def setFields (done fields : List (String × Value)) : List (String × Value) :=
  fields.foldl (fun done field => setField field.1 field.2 done) done

theorem setFields_setField (h : name ∉ fields.map (·.1)) (value : Value)
    (done : List (String × Value)) :
    setFields (setField name value done) fields = setField name value (setFields done fields) := by
  induction fields generalizing done with
  | nil => rfl
  | cons field fields ih =>
    obtain ⟨n, v⟩ := field
    rw [List.map_cons, List.mem_cons, not_or] at h
    change setFields (setField n v (setField name value done)) fields =
      setField name value (setFields (setField n v done) fields)
    rw [setField_comm (Ne.symm h.1), ih h.2]

/-- A value that is put into a map is the last one. -/
theorem setFields_put (h : (fields.map (·.1)).Nodup) (name : String) (value : Value)
    (done : List (String × Value)) :
    setFields done (OrderedMap.put name value fields) =
      setField name value (setFields done fields) := by
  induction fields generalizing done with
  | nil => rfl
  | cons field fields ih =>
    obtain ⟨n, v⟩ := field
    obtain ⟨hn, hfields⟩ := List.nodup_cons.1 h
    by_cases hname : n = name
    · subst hname
      rw [OrderedMap.put, if_pos rfl]
      change setFields (setField n value done) fields =
        setField n value (setFields (setField n v done) fields)
      rw [setFields_setField hn, setFields_setField hn, setField_setField]
    · rw [OrderedMap.put, if_neg hname]
      exact ih hfields (setField n v done)

/-- An object is the same if each of its fields is written once, with its last value. -/
theorem ofFields_ofPairs (fields : List (String × Value)) :
    ofFields (OrderedMap.ofPairs fields) = ofFields fields := by
  refine congrArg Value.object ?_
  change setFields [] (OrderedMap.ofPairs fields) = setFields [] fields
  induction fields using List.reverseRecOn with
  | nil => rfl
  | append_singleton fields field ih =>
    have hdistinct : ((OrderedMap.ofPairs fields).map (·.1)).Nodup := by
      rw [OrderedMap.keys_ofPairs]
      exact OrderedMap.nodup_eraseDups _
    rw [OrderedMap.ofPairs_concat, setFields_put hdistinct, ih, setFields, setFields,
      List.foldl_concat]

end Graphql.Value

/-! ## Example values as values of requests -/

namespace Json

mutual

/-- An example value as a value of a request. The keys that lead to a string decide whether it is a
variant of an enumeration. An object with nothing but the name of its type has no fields. -/
def toValue (isVariant : List String → Bool) : Json → Value
  | null => .null
  | bool value => .boolean value
  | number (.int value) => .int value
  | number (.double value) => .float value
  | string text => if isVariant [] then .enum text else .string text
  | array items => .list (itemValues isVariant items)
  | object members =>
    if members.map (·.1) = [typenameField] then .object []
    else .ofFields (memberValues isVariant members)

/-- The values of items. -/
def itemValues (isVariant : List String → Bool) : List Json → List Value
  | [] => []
  | item :: items => toValue isVariant item :: itemValues isVariant items

/-- The values of members, each under its key. -/
def memberValues (isVariant : List String → Bool) :
    List (String × Json) → List (String × Value)
  | [] => []
  | (key, value) :: members =>
    (key, toValue (fun keys => isVariant (key :: keys)) value) :: memberValues isVariant members

end

variable {isVariant : List String → Bool}

theorem toValue_nest (depth : Nat) (value : Json) :
    (nest depth value).toValue isVariant = (value.toValue isVariant).nest depth := by
  induction depth with
  | zero => rfl
  | succ depth ih => rw [nest, toValue, itemValues, itemValues, ih, Value.nest]

theorem memberValues_eq_map (members : List (String × Json)) :
    memberValues isVariant members = members.map fun member =>
      (member.1, member.2.toValue fun keys => isVariant (member.1 :: keys)) := by
  induction members with
  | nil => rfl
  | cons member members ih => rw [memberValues, ih, List.map_cons]

theorem toValue_typename (text : String) :
    (object [(typenameField, string text)]).toValue isVariant = .ofFields [] := by
  rw [toValue, if_pos (by rfl)]
  rfl

/-- Pairs that are written one after the other, none under the name of the type. -/
theorem toValue_ofPairs {pairs : List (String × Json)} (h : typenameField ∉ pairs.map (·.1)) :
    (object (OrderedMap.ofPairs pairs)).toValue isVariant =
      .ofFields (pairs.map fun pair =>
        (pair.1, pair.2.toValue fun keys => isVariant (pair.1 :: keys))) := by
  have hkeys : (OrderedMap.ofPairs pairs).map (·.1) ≠ [typenameField] := by
    rw [OrderedMap.keys_ofPairs]
    intro heq
    exact h (List.mem_eraseDups.1 (heq ▸ List.mem_singleton_self _))
  rw [toValue, if_neg hkeys, memberValues_eq_map,
    OrderedMap.map_ofPairs fun key value => toValue (fun keys => isVariant (key :: keys)) value,
    Value.ofFields_ofPairs]

end Json

/-! ## Leaves -/

namespace Leaf

/-- Whether a leaf shows a variant: an enumeration without any and without an example text shows an
empty text. -/
def showsVariant : Leaf → Option String → Bool
  | .scalar _, _ => false
  | .enumeration variants, override? => (override?.or variants.head?).isSome

/-- A leaf whose literal is read as its example value: the example text of a member, if there is
one, is one that the literal may show, and the variant of an enumeration is none of the words that
mean other values. -/
structure Agrees (leaf : Leaf) (override? : Option String) : Prop where
  text : ∀ text, override? = some text → leaf.Allows text
  variant : ∀ variants, leaf = .enumeration variants → ∀ text ∈ override?.or variants.head?,
    IsName text ∧ text ∉ ["true", "false", "null"]

variable {override? : Option String} {isVariant : List String → Bool}

/-- A canonical integer is no other number in JSON. -/
theorem response_toString {kind : LeafKind} (hnumeric : kind.isNumeric = true) {value : Int}
    (h : IsWord value) :
    (scalar kind).response (some (toString value)) = .number (.int value) := by
  have hfits : JsonNumber.FitsWord value := ⟨h.1, by have := h.2; omega⟩
  have hparse : JsonNumber.parse? (toString value).toList = some (.int value) := by
    have hblank : [].all JsonNumber.isSpace = true := rfl
    have hwritten := JsonNumber.parse?_write hfits hblank hblank
    rwa [List.nil_append, List.append_nil] at hwritten
  cases kind <;> cases hnumeric <;> simp only [response, LeafKind.isNumeric, if_true, hparse]

/-- A truth value is passed as one of two words. -/
theorem writesValue_boolean_response :
    ∃ used, WritesValue ((Leaf.scalar .boolean).literal override?) used
      (((Leaf.scalar .boolean).response override?).toValue isVariant) := by
  have htrue : IsName "true" := by decide
  have hfalse : IsName "false" := by decide
  cases override? with
  | none => exact ⟨_, writesValue_name htrue⟩
  | some text =>
    change ∃ used, WritesValue (if truth text then "true" else "false") used
      (.boolean (truth text))
    cases truth text
    · exact ⟨_, writesValue_name hfalse⟩
    · exact ⟨_, writesValue_name htrue⟩

/-- A text that is no variant is passed as a string. -/
theorem writesValue_text_response {text : String} (h : ∀ c ∈ text.toList, isPlain c = true)
    (hvariant : isVariant [] = false) :
    ∃ used, WritesValue (quoted text) used ((Json.string text).toValue isVariant) := by
  rw [Json.toValue, hvariant]
  exact ⟨_, writesValue_quoted h⟩

/-- A variant is passed as the name that it is. -/
theorem writesValue_variant_response {text : String} (hname : IsName text)
    (hword : text ∉ ["true", "false", "null"]) (hvariant : isVariant [] = true) :
    ∃ used, WritesValue text used ((Json.string text).toValue isVariant) := by
  have hwrites := writesValue_name hname
  simp only [List.mem_cons, List.not_mem_nil, or_false, not_or] at hword
  rw [Value.ofWord, if_neg hword.1, if_neg hword.2.1, if_neg hword.2.2] at hwrites
  rw [Json.toValue, hvariant]
  exact ⟨_, hwrites⟩

/-- The literal of a leaf writes its example value. -/
theorem Agrees.writesValue {leaf : Leaf} (h : leaf.Agrees override?)
    (hvariant : isVariant [] = leaf.showsVariant override?) :
    ∃ used, WritesValue (leaf.literal override?) used
      ((leaf.response override?).toValue isVariant) := by
  have hempty : ∀ c ∈ "".toList, isPlain c = true := nofun
  cases leaf with
  | scalar kind =>
    cases kind with
    | boolean => exact writesValue_boolean_response
    | integer | float =>
      cases override? with
      | none => exact ⟨_, writesValue_one⟩
      | some text =>
        obtain ⟨value, hword, rfl⟩ := h.text text rfl
        rw [response_toString rfl hword]
        exact ⟨_, writesValue_int hword⟩
    | string | id | temporal =>
      cases override? with
      | none => exact writesValue_text_response hempty hvariant
      | some text => exact writesValue_text_response (h.text text rfl) hvariant
  | enumeration variants =>
    cases override? with
    | some text =>
      obtain ⟨hname, hword⟩ := h.variant variants rfl text rfl
      exact writesValue_variant_response hname hword hvariant
    | none =>
      cases variants with
      | nil => exact writesValue_text_response hempty hvariant
      | cons first variants =>
        obtain ⟨hname, hword⟩ := h.variant _ rfl first rfl
        exact writesValue_variant_response hname hword hvariant

end Leaf

/-! ## Keys that lead to leaves -/

namespace Surroundings

/-- The leaf that keys lead to from a type, through the fields of the schema type that is recorded
for it and for each object on the way, with the member that the leaf stands behind. -/
def leafAt? (around : Surroundings) (session : Session) :
    String → List String → Option (Member × Leaf)
  | _, [] => none
  | name, key :: keys => do
    let schemaType ← session.schemaName? name
    let field ← (around.schema.describe schemaType).find? (·.name == key)
    match around.memberOf name schemaType field with
    | .error _ => none
    | .ok (member, element, _, kind) =>
      match kind with
      | .leaf leaf => if keys.isEmpty then some (member, leaf) else none
      | _ => leafAt? around session element.simpleName keys

/-- Whether keys lead to a variant of an enumeration. -/
def isVariantAt (around : Surroundings) (session : Session) (name : String)
    (keys : List String) : Bool :=
  match around.leafAt? session name keys with
  | some (member, leaf) => leaf.showsVariant member.doc.override?
  | none => false

/-- A leaf that the sample of a type shows, behind a member: that of a field of the last of the
types that are unfolded on the way. -/
inductive ShowsLeaf (around : Surroundings) (session : Session) (name : String) (member : Member)
    (leaf : Leaf) : Prop
  | behind {keys types : List String} {last schemaType : String} {field : FieldDecl}
      {element : TypeRef} {depth : Nat} (h : around.Unfolds session keys (name :: types))
      (hlast : (name :: types).getLast? = some last)
      (hschema : session.schemaName? last = some schemaType)
      (hfield : field ∈ around.schema.describe schemaType)
      (hmember : around.memberOf last schemaType field = .ok (member, element, depth, .leaf leaf)) :
      ShowsLeaf around session name member leaf

variable {around : Surroundings} {session : Session} {name schemaType : String} {m : Match}

/-- A type shows the leaves of the types whose samples it shows. -/
theorem ShowsLeaf.field {outer inner : String} {field : FieldDecl} {sample : Sample}
    {before after : List (String × Sample)} {member : Member} {leaf : Leaf}
    (hsplit : session.samples = before ++ (outer, sample) :: after)
    (hschema : session.schemaName? outer = some schemaType)
    (hfield : field ∈ around.schema.describe schemaType)
    (hrefers : around.Refers outer schemaType field inner) (hinner : inner ∈ before.map (·.1))
    (h : around.ShowsLeaf session inner member leaf) :
    around.ShowsLeaf session outer member leaf := by
  cases h with
  | behind h hlast hschema' hfield' hmember =>
    exact .behind (.field hsplit hschema hfield hrefers hinner h) (by simpa using hlast) hschema'
      hfield' hmember

/-- Behind the key of a field stands what was found for the field, also if the field is repeated. -/
theorem leafAt?_cons (hschema : session.schemaName? name = some schemaType)
    (hfield : m.field ∈ around.schema.describe schemaType) (hfinds : m.Finds around name)
    (keys : List String) :
    around.leafAt? session name (m.field.name :: keys) =
      match m.kind with
      | .leaf leaf => if keys.isEmpty then some (m.member, leaf) else none
      | _ => around.leafAt? session m.element.simpleName keys := by
  have hsome : ((around.schema.describe schemaType).find? (·.name == m.field.name)).isSome :=
    List.find?_isSome.2 ⟨m.field, hfield, beq_self_eq_true _⟩
  obtain ⟨first, hfirst⟩ := Option.isSome_iff_exists.1 hsome
  have hname : first.name = m.field.name := by simpa using List.find?_some hfirst
  have hmember : around.memberOf name schemaType first =
      .ok (m.member, m.element, m.depth, m.kind) := by
    rw [memberOf_eq_ok_iff, hname, ← memberOf_eq_ok_iff]
    exact hfinds.memberOf schemaType
  rw [leafAt?]
  simp only [hschema, hfirst, Option.bind_eq_bind, Option.bind_some, hmember]

theorem isVariantAt_leaf (hschema : session.schemaName? name = some schemaType)
    (hfield : m.field ∈ around.schema.describe schemaType) (hfinds : m.Finds around name)
    {leaf : Leaf} (hkind : m.kind = .leaf leaf) :
    around.isVariantAt session name [m.field.name] = leaf.showsVariant m.member.doc.override? := by
  rw [isVariantAt, leafAt?_cons hschema hfield hfinds, hkind]
  rfl

theorem isVariantAt_object (hschema : session.schemaName? name = some schemaType)
    (hfield : m.field ∈ around.schema.describe schemaType) (hfinds : m.Finds around name)
    (hkind : m.kind = .object) :
    (fun keys => around.isVariantAt session name (m.field.name :: keys)) =
      around.isVariantAt session m.element.simpleName := by
  funext keys
  rw [isVariantAt, leafAt?_cons hschema hfield hfinds, hkind]
  rfl

/-! ## Samples -/

/-- Nothing is passed where only the name of a type is shown. -/
theorem writesValue_typename {isVariant : List String → Bool} (text : String) :
    ∃ used, WritesValue "\x7b\x7d" used
      ((Json.object [(typenameField, .string text)]).toValue isVariant) := by
  rw [Json.toValue_typename]
  exact ⟨_, writesValue_braces⟩

/-- The literal of a field writes its example value if the leaf or the sample behind it does. -/
theorem Match.writesValue_response {known : List (String × Sample)}
    {isVariant : List String → Bool}
    (hleaf : ∀ leaf, m.kind = .leaf leaf →
      ∃ used, WritesValue (leaf.literal m.member.doc.override?) used
        ((leaf.response m.member.doc.override?).toValue isVariant))
    (hsample : ∀ sample, OrderedMap.lookup m.element.simpleName known = some sample →
      (∀ leaf, m.kind ≠ .leaf leaf) →
        ∃ used, WritesValue sample.argument used (sample.response.toValue isVariant)) :
    ∃ used, WritesValue (m.literal known) used ((m.response known).toValue isVariant) := by
  have hnest : ∀ {text : String} {value : Json},
      (∃ used, WritesValue text used (value.toValue isVariant)) →
        ∃ used, WritesValue (nestLiteral m.depth text) used
          ((Json.nest m.depth value).toValue isVariant) := by
    rintro text value ⟨used, hwrites⟩
    rw [Json.toValue_nest]
    exact hwrites.nest m.depth
  rw [Match.literal, Match.response, inBrackets_eq_nestLiteral, Json.inArrays_eq_nest]
  refine hnest ?_
  split
  · next leaf hkind => exact hleaf leaf hkind
  · next hobject =>
    cases hknown : OrderedMap.lookup m.element.simpleName known with
    | some sample => exact hsample sample hknown hobject
    | none => exact writesValue_typename m.field.type.name

/-- The argument of a sample writes its example value if the literals of its fields do. -/
theorem writesValue_ofPieces {known : List (String × Sample)} {type : HostType}
    {found : List Match} {isVariant : List String → Bool}
    (hnames : ∀ m ∈ found, IsName m.field.name ∧ m.field.name ≠ typenameField)
    (h : ∀ m ∈ found, ∃ used, WritesValue (m.literal known) used
      ((m.response known).toValue fun keys => isVariant (m.field.name :: keys))) :
    ∃ used, WritesValue (Sample.ofPieces type schemaType (found.map (Match.piece known))).argument
      used ((Sample.ofPieces type schemaType (found.map (Match.piece known))).response.toValue
        isVariant) := by
  by_cases hne : found = []
  · subst hne
    exact writesValue_typename schemaType
  · have hargument : (Sample.ofPieces type schemaType (found.map (Match.piece known))).argument =
        "\x7b " ++ ", ".intercalate (found.map fun m => m.field.name ++ ": " ++ m.literal known) ++
          " \x7d" := by
      simp [Sample.ofPieces, hne, Function.comp_def, Match.piece, Match.summary]
    have hresponse : (Sample.ofPieces type schemaType (found.map (Match.piece known))).response =
        .object (OrderedMap.ofPairs (found.map fun m => (m.field.name, m.response known))) := by
      simp [Sample.ofPieces, hne, Function.comp_def, Match.piece, Match.summary]
    have hkeys : typenameField ∉
        (found.map fun m => (m.field.name, m.response known)).map (·.1) := by
      simp only [List.map_map, List.mem_map, not_exists, not_and]
      exact fun m hm => (hnames m hm).2
    choose! lexemes hwrites using h
    rw [hargument, hresponse, Json.toValue_ofPairs hkeys, List.map_map]
    exact ⟨_, writesValue_object (fun m hm => (hnames m hm).1) hwrites⟩

/-- The argument of a sample writes its example value if the leaves that it shows agree. The samples
that it shows stand before it. -/
theorem writesValue_sample {sources : List (String × String)}
    (hschema : SchemaIndex.ofSources sources = .ok around.schema)
    (htypename : ∀ type, ∀ field ∈ around.schema.describe type, field.name ≠ typenameField)
    (h : around.Reachable session) :
    ∀ entry ∈ session.samples,
      (∀ member leaf, around.ShowsLeaf session entry.1 member leaf →
        leaf.Agrees member.doc.override?) →
      ∃ used, WritesValue entry.2.argument used
        (entry.2.response.toValue (around.isVariantAt session entry.1)) := by
  refine h.forall_sample_at (P := fun name sample =>
    (∀ member leaf, around.ShowsLeaf session name member leaf → leaf.Agrees member.doc.override?) →
      ∃ used, WritesValue sample.argument used
        (sample.response.toValue (around.isVariantAt session name))) ?_
  intro before name type schemaType found after hsplit hrecorded hfields hfound hbefore hleaves
  have hmem : ∀ m ∈ found, m.field ∈ around.schema.describe schemaType := fun m hm =>
    hfields ▸ List.mem_map_of_mem hm
  refine writesValue_ofPieces (fun m hm => ⟨SchemaIndex.isName_of_ofSources hschema (hmem m hm),
    htypename _ _ (hmem m hm)⟩) fun m hm => ?_
  have hfield := hmem m hm
  refine Match.writesValue_response (fun leaf hkind => ?_) fun inner hinner hobject => ?_
  · have hbehind := (hfound m hm).memberOf schemaType
    rw [hkind] at hbehind
    have hname : name ∈ session.samples.map (·.1) := by simp [hsplit]
    exact (hleaves _ _ (.behind (.root hname) rfl hrecorded hfield hbehind)).writesValue
      (isVariantAt_leaf hrecorded hfield (hfound m hm) hkind)
  · have hshown := OrderedMap.mem_of_lookup hinner
    obtain ⟨hkind, hrefers⟩ := (hfound m hm).refers schemaType hobject
    rw [isVariantAt_object hrecorded hfield (hfound m hm) hkind]
    exact hbefore _ hshown fun member leaf hleaf => hleaves member leaf
      (hleaf.field hsplit hrecorded hfield hrefers (List.mem_map_of_mem hshown))

/-- The example value of a sample is an object. -/
theorem exists_toValue_sample (h : around.Reachable session)
    {before after : List (String × Sample)} {sample : Sample}
    (hsplit : session.samples = before ++ (name, sample) :: after)
    (isVariant : List String → Bool) :
    ∃ fields, sample.response.toValue isVariant = .object fields := by
  obtain ⟨-, _, _, _, -, -, -, -, -, hshows⟩ := sample_shows_its_fields h hsplit
  obtain ⟨members, hresponse⟩ := hshows.exists_members
  rw [hresponse, Json.toValue]
  split <;> exact ⟨_, rfl⟩

/-- For a schema that was read and that declares no field with the name `__typename`, and after any
calls: if the leaves that the sample of a type shows agree, and its argument nests no deeper than
can be read, then the argument is read as one object, which is the example value of the sample. -/
theorem argument_shows_response {sources : List (String × String)}
    (hschema : SchemaIndex.ofSources sources = .ok around.schema)
    (htypename : ∀ type, ∀ field ∈ around.schema.describe type, field.name ≠ "__typename")
    (h : around.Reachable session) {sample : Sample} (hsample : session.sample? name = some sample)
    (hleaves : ∀ member leaf, around.ShowsLeaf session name member leaf →
      leaf.Agrees member.doc.override?)
    (hnesting : nesting 0 (lexemesOf sample.argument.toList) ≤ Reader.maxLevels) :
    ∃ fields, sample.response.toValue (around.isVariantAt session name) = .object fields ∧
      Value.read false Reader.maxLevels (lexemesOf sample.argument.toList) =
        .ok (.object fields, []) := by
  obtain ⟨before, after, hsplit⟩ := List.append_of_mem (OrderedMap.mem_of_lookup hsample)
  obtain ⟨used, hwrites⟩ :=
    writesValue_sample hschema htypename h _ (OrderedMap.mem_of_lookup hsample) hleaves
  obtain ⟨fields, hfields⟩ :=
    exists_toValue_sample h hsplit (around.isVariantAt session name)
  have hused : lexemesOf sample.argument.toList = used :=
    hwrites.spells.lexemesOf_eq_self fun hbad => hwrites.ne_bad _ hbad rfl
  have hread := hwrites.read (hused ▸ hnesting)
  rw [hfields] at hread
  exact ⟨fields, hfields, hread⟩

/-- A leaf that is shown stands behind a field of a declared type. -/
theorem ShowsLeaf.exists_type {member : Member} {leaf : Leaf}
    (h : around.ShowsLeaf session name member leaf) :
    ∃ type ∈ around.host.types, member ∈ type.shape.fields ∧ ∃ element depth,
      member.type.unwrap? = some (element, depth) ∧
      around.host.kind element = .ok (.leaf leaf) := by
  cases h with
  | behind _ _ _ _ hmember =>
    obtain ⟨hfield, hunwrap, hkind⟩ := memberOf_eq_ok_iff.1 hmember
    obtain ⟨type, htype, hdeclared⟩ := HostTypes.exists_type_of_field? hfield
    exact ⟨type, htype, hdeclared, _, _, hunwrap, hkind⟩

/-- A sailor, with mates, so that its type stands in a circle with itself, and with a ship. The
schema declares the field `call` twice. -/
def crew : Surroundings where
  schema :=
    { types := [
        ("Query", [⟨"crew", ⟨"Sailor", false, true⟩, []⟩]),
        ("Ship", [⟨"sails", ⟨"Int", false, false⟩, []⟩]),
        ("Sailor", [⟨"call", ⟨"String", false, false⟩, []⟩, ⟨"rank", ⟨"Rank", false, false⟩, []⟩,
          ⟨"mates", ⟨"Sailor", false, true⟩, []⟩, ⟨"ship", ⟨"Ship", false, false⟩, []⟩,
          ⟨"call", ⟨"String", true, false⟩, []⟩])] }
  host :=
    { types := [
        ⟨"SailorView", none, none, .object [
          ⟨"call", .plain "String", { example? := some "\"Sea\tfox\"" }⟩,
          ⟨"rank", .plain "Rank", {}⟩, ⟨"mates", .list "Vec" [.plain "SailorView"], {}⟩,
          ⟨"ship", .plain "ShipView", {}⟩]⟩,
        ⟨"ShipView", none, none, .object [⟨"sails", .plain "i32", { example? := some "-3" }⟩]⟩,
        ⟨"Rank", none, none, .enumeration ["MATE", "COOK"]⟩]
      distinct := by decide }

/-- The schema of the crew as a text. -/
def crewText : String :=
  "type Query \x7b crew: [Sailor] \x7d type Ship \x7b sails: Int \x7d " ++
    "type Sailor \x7b call: String rank: Rank mates: [Sailor] ship: Ship call: String! \x7d"

/-- The session after a walk of the sailor. -/
def crewSession : Session :=
  let operation : FieldDecl := ⟨"crew", ⟨"Sailor", false, true⟩, []⟩
  (((Call.synthesize operation "SailorView" .result).step crew).runOn {}).2

theorem crew_agrees {member : Member} {leaf : Leaf}
    (h : crew.ShowsLeaf crewSession "SailorView" member leaf) :
    leaf.Agrees member.doc.override? := by
  obtain ⟨type, htype, hmember, element, depth, hunwrap, hkind⟩ := h.exists_type
  have hfields : member ∈ crew.host.types.flatMap (·.shape.fields) :=
    List.mem_flatMap.2 ⟨type, htype, hmember⟩
  have hmate : IsName "MATE" := by decide
  simp only [crew, List.flatMap_cons, List.flatMap_nil, HostShape.fields, List.cons_append,
    List.nil_append, List.append_nil, List.mem_cons, List.not_mem_nil, or_false] at hfields
  rcases hfields with rfl | rfl | rfl | rfl | rfl <;> cases hunwrap <;> cases hkind
  · exact ⟨by rintro _ ⟨⟩; exact List.all_iff_forall_prop.1 (by decide), nofun⟩
  · exact ⟨nofun, by rintro _ ⟨⟩ _ ⟨⟩; exact ⟨hmate, by decide⟩⟩
  · exact ⟨by rintro _ ⟨⟩; exact ⟨-3, ⟨by decide, by decide⟩, rfl⟩, nofun⟩

set_option maxRecDepth 2000 in
theorem ofSources_crewText : SchemaIndex.ofSources [("schema", crewText)] = .ok crew.schema := by
  rfl

theorem crew_declares_no_typename (type : String) :
    ∀ field ∈ crew.schema.describe type, field.name ≠ "__typename" := by
  intro field hfield
  unfold SchemaIndex.describe at hfield
  cases hfields : OrderedMap.lookup type crew.schema.types with
  | none => simp [hfields] at hfield
  | some fields =>
    have hdeclared : ∀ entry ∈ crew.schema.types, ∀ field ∈ entry.2, field.name ≠ "__typename" := by
      decide
    rw [hfields] at hfield
    exact hdeclared _ (OrderedMap.mem_of_lookup hfields) field hfield

/-- A sailor is passed as it is shown: with its call once, its rank as a variant, no fields for its
mate, and its ship. -/
theorem crew_is_passed_as_shown :
    SchemaIndex.ofSources [("schema", crewText)] = .ok crew.schema ∧ crew.Reachable crewSession ∧
      ∃ sample, crewSession.sample? "SailorView" = some sample ∧
        Value.read false Reader.maxLevels (lexemesOf sample.argument.toList) =
          .ok (.object [("call", .string "\"Sea\tfox\""), ("mates", .list [.object []]),
            ("rank", .enum "MATE"), ("ship", .object [("sails", .int (-3))])], []) := by
  have hreach : crew.Reachable crewSession := .call .fresh _
  obtain ⟨sample, hsample⟩ : ∃ sample, crewSession.sample? "SailorView" = some sample :=
    Option.isSome_iff_exists.1 (by decide)
  have hnesting : (crewSession.sample? "SailorView").map
      (fun sample => decide (nesting 0 (lexemesOf sample.argument.toList) ≤ Reader.maxLevels)) =
        some true := by
    decide +kernel
  have hvalue : (crewSession.sample? "SailorView").map
      (fun sample => sample.response.toValue (crew.isVariantAt crewSession "SailorView")) =
        some (.object [("call", .string "\"Sea\tfox\""), ("mates", .list [.object []]),
            ("rank", .enum "MATE"), ("ship", .object [("sails", .int (-3))])]) := by
    rfl
  rw [hsample, Option.map_some, Option.some.injEq] at hnesting hvalue
  obtain ⟨fields, hfields, hread⟩ := argument_shows_response ofSources_crewText
    crew_declares_no_typename hreach hsample (fun _ _ => crew_agrees) (of_decide_eq_true hnesting)
  rw [hvalue] at hfields
  exact ⟨ofSources_crewText, hreach, sample, hsample, hfields ▸ hread⟩

end Surroundings

end OperationAtlas
