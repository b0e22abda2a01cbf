import OperationAtlas.Proofs.Sample.Mirror

/-!
# Literals of requests

A literal is a text that is spliced into a request as it is. `WritesValue` says that a text writes
one value, which a printed request keeps. The literal of a leaf does so if the example text of its
member is one that the leaf allows (`Leaf.Allows`): a number has to be an integer of 64 bits in its
canonical form, the variant of an enumeration a name, and a string may hold plain characters only,
since others are not printed so that they read back. In a host of which that holds throughout
(`HostTypes.AllowsExamples`), the arguments of all samples write values
(`Reachable.argument_writesValue`).
-/

namespace OperationAtlas

open Graphql

instance : Inhabited Value := ⟨.null⟩

/-- A text writes a value, and nothing in it changes when it is printed. -/
structure WritesValue (text : String) (used : List Lexeme) (v : Value) : Prop where
  spells : Spells text.toList used
  faithful : ∀ l ∈ used, l.IsFaithful
  fits : Value.Fits used v

theorem WritesValue.ne_bad {text : String} {used : List Lexeme} {v : Value}
    (h : WritesValue text used v) : ∀ l ∈ used, l ≠ .bad := by
  rintro _ hl rfl
  exact h.faithful _ hl

/-- A text that writes a value is read as it, if it does not nest too deep. -/
theorem WritesValue.read {text : String} {used : List Lexeme} {v : Value}
    (h : WritesValue text used v) (hnesting : nesting 0 used ≤ Reader.maxLevels) :
    Value.read false Reader.maxLevels (lexemesOf text.toList) = .ok (v, []) := by
  have hread := (h.fits.holds hnesting).read []
  rwa [List.append_nil, ← h.spells.lexemesOf_eq_self fun hbad => h.ne_bad _ hbad rfl] at hread

/-! ## Values -/

theorem writesValue_name {text : String} (h : IsName text) :
    WritesValue text [.name text] (.ofWord text) where
  spells := .name h
  faithful := by simp [Lexeme.IsFaithful]
  fits := Value.fits_singleton rfl rfl fun _ => .word text

theorem writesValue_int {value : Int} (h : IsWord value) :
    WritesValue (toString value) [.int value] (.int value) where
  spells := .int h
  faithful := by simp [Lexeme.IsFaithful]
  fits := Value.fits_singleton rfl rfl fun _ => .int value

theorem writesValue_quoted {text : String} (h : ∀ c ∈ text.toList, isPlain c = true) :
    WritesValue (Leaf.quoted text) [.text text] (.string text) where
  spells := by
    have hread : '\x08' ∉ text.toList := fun hmem => absurd (h _ hmem) (by decide)
    have hspells := spells_quoted text.toList
    rw [map_reescaped hread, String.ofList_toList] at hspells
    rwa [Leaf.quoted, String.toList_ofList]
  faithful := by simpa [Lexeme.IsFaithful] using h
  fits := Value.fits_text text

/-- A value in brackets. -/
theorem WritesValue.list {text : String} {used : List Lexeme} {v : Value}
    (h : WritesValue text used v) :
    WritesValue ("[" ++ text ++ "]") (.punct '[' :: (used ++ [.punct ']'])) (.list [v]) where
  spells := by
    have := Spells.punct (c := '[') (by decide)
      (h.spells.append (.punct (c := ']') (by decide) .nil) (endsWord_cons.2 rfl))
    simpa using this
  faithful := forall_mem_between (fun _ => trivial) h.faithful _ _
  fits := by simpa using Value.fits_list [(used, v)] (by simpa using h.fits)

/-- A value in the given number of lists of one item each. -/
def Graphql.Value.nest : Nat → Value → Value
  | 0, v => v
  | depth + 1, v => .list [nest depth v]

theorem WritesValue.nest {text : String} {used : List Lexeme} {v : Value}
    (h : WritesValue text used v) (depth : Nat) :
    ∃ used', WritesValue (nestLiteral depth text) used' (v.nest depth) := by
  induction depth with
  | zero => exact ⟨used, h⟩
  | succ depth ih =>
    obtain ⟨used', hwrites⟩ := ih
    exact ⟨_, hwrites.list⟩

/-- Fields in braces write an object. -/
theorem writesValue_object {α : Type} {name text : α → String} {lexemes : α → List Lexeme}
    {value : α → Value} {xs : List α} (hnames : ∀ x ∈ xs, IsName (name x))
    (h : ∀ x ∈ xs, WritesValue (text x) (lexemes x) (value x)) :
    WritesValue
      ("\x7b " ++ ", ".intercalate (xs.map fun x => name x ++ ": " ++ text x) ++ " \x7d")
      (.punct '\x7b' :: ((xs.map fun x => (lexemes x, name x, value x)).flatMap fieldLexemes ++
        [.punct '\x7d']))
      (.ofFields (xs.map fun x => (name x, value x))) where
  spells := by
    have hclosing : Spells [' ', '\x7d'] [.punct '\x7d'] := .blank (.punct (by decide) .nil)
    have hobject := Spells.punct (c := '\x7b') (by decide)
      (.blank ((spells_fields value hnames fun x hx => (h x hx).spells).append hclosing
        (endsWord_cons.2 rfl)))
    simpa using hobject
  faithful := forall_mem_between (fun _ => trivial) (forall_mem_fields (fun _ => trivial)
    (fun _ => trivial) (List.forall_mem_map.2 fun x hx => (h x hx).faithful)) _ _
  fits := by
    have hfits := Value.fits_object (xs.map fun x => (lexemes x, name x, value x))
      (List.forall_mem_map.2 fun x hx => (h x hx).fits)
    rwa [List.map_map] at hfits

/-! ## Leaves -/

/-- An example text that the literal of a leaf may show. -/
def Leaf.Allows (text : String) : Leaf → Prop
  | .scalar .boolean => True
  | .scalar .integer | .scalar .float => ∃ value : Int, IsWord value ∧ text = toString value
  | .scalar .string | .scalar .id | .scalar .temporal => ∀ c ∈ text.toList, isPlain c = true
  | .enumeration _ => IsName text

theorem writesValue_one : WritesValue "1" [.int 1] (.int 1) :=
  writesValue_int (⟨by decide, by decide⟩ : IsWord 1)

/-- The literal of a truth value is one of two words. -/
theorem Leaf.writesValue_boolean (override? : Option String) :
    ∃ used v, WritesValue ((Leaf.scalar .boolean).literal override?) used v := by
  have htrue : IsName "true" := by decide
  have hfalse : IsName "false" := by decide
  cases override? with
  | none => exact ⟨_, _, writesValue_name htrue⟩
  | some text =>
    change ∃ used v, WritesValue (if truth text then "true" else "false") used v
    split
    · exact ⟨_, _, writesValue_name htrue⟩
    · exact ⟨_, _, writesValue_name hfalse⟩

/-- The literal of a leaf with an allowed example text writes a value. -/
theorem Leaf.writesValue_literal {leaf : Leaf} {override? : Option String}
    (hoverride : ∀ text, override? = some text → leaf.Allows text)
    (hvariants : ∀ variants, leaf = .enumeration variants →
      ∀ first ∈ variants.head?, IsName first) :
    ∃ used v, WritesValue (leaf.literal override?) used v := by
  have hempty : ∀ c ∈ "".toList, isPlain c = true := nofun
  cases leaf with
  | scalar kind =>
    cases kind with
    | boolean => exact writesValue_boolean override?
    | integer | float =>
      cases override? with
      | none => exact ⟨_, _, writesValue_one⟩
      | some text =>
        obtain ⟨value, hword, htext⟩ := hoverride text rfl
        rw [htext]
        exact ⟨_, _, writesValue_int hword⟩
    | string | id | temporal =>
      cases override? with
      | none => exact ⟨_, _, writesValue_quoted hempty⟩
      | some text => exact ⟨_, _, writesValue_quoted (hoverride text rfl)⟩
  | enumeration variants =>
    cases override? with
    | some text => exact ⟨_, _, writesValue_name (hoverride text rfl)⟩
    | none =>
      cases variants with
      | nil => exact ⟨_, _, writesValue_quoted hempty⟩
      | cons first variants => exact ⟨_, _, writesValue_name (hvariants _ rfl first rfl)⟩

/-! ## Members and samples -/

namespace HostTypes

/-- The example text of a member, if it has one, is one that its leaf allows. -/
def AllowsExample (host : HostTypes) (member : Member) : Prop :=
  ∀ element depth leaf text, member.type.unwrap? = some (element, depth) →
    host.kind element = .ok (.leaf leaf) → member.doc.override? = some text → leaf.Allows text

theorem allowsExample_of_none {host : HostTypes} {member : Member}
    (h : member.doc.override? = none) : host.AllowsExample member := by
  intro element depth leaf text _ _ htext
  rw [h] at htext
  cases htext

theorem allowsExample_of_leaf (leaf : Leaf) {host : HostTypes} {member : Member} {element : TypeRef}
    {depth : Nat} (hunwrap : member.type.unwrap? = some (element, depth))
    (hkind : host.kind element = .ok (.leaf leaf))
    (h : ∀ text, member.doc.override? = some text → leaf.Allows text) :
    host.AllowsExample member := by
  intro element' depth' leaf' text hunwrap' hkind' htext
  rw [hunwrap] at hunwrap'
  cases hunwrap'
  rw [hkind] at hkind'
  cases hkind'
  exact h text htext

/-- The first variant of every enumeration is a name, and every field has an example text that its
leaf allows. -/
structure AllowsExamples (host : HostTypes) : Prop where
  variants : ∀ type ∈ host.types, ∀ variants, type.shape = .enumeration variants →
    ∀ first ∈ variants.head?, IsName first
  fields : ∀ type ∈ host.types, ∀ member ∈ type.shape.fields, host.AllowsExample member

/-- The literal of a member that is a leaf writes a value. -/
theorem AllowsExamples.writesValue {host : HostTypes} (h : host.AllowsExamples) {member : Member}
    (hmember : host.AllowsExample member) {element : TypeRef} {depth : Nat} {leaf : Leaf}
    (hunwrap : member.type.unwrap? = some (element, depth))
    (hkind : host.kind element = .ok (.leaf leaf)) :
    ∃ used v, WritesValue (leaf.literal member.doc.override?) used v := by
  refine Leaf.writesValue_literal (fun text => hmember element depth leaf text hunwrap hkind) ?_
  rintro variants rfl
  obtain ⟨type, htype, hshape⟩ := exists_type_of_enumeration hkind
  exact h.variants type htype variants hshape

end HostTypes

theorem writesValue_braces :
    WritesValue "\x7b\x7d" [.punct '\x7b', .punct '\x7d'] (.ofFields []) where
  spells := .punct (by decide) (.punct (by decide) .nil)
  faithful := by simp [Lexeme.IsFaithful]
  fits := Value.fits_object [] nofun

namespace Surroundings

variable {around : Surroundings} {known : List (String × Sample)} {hostType : String}

/-- The literal of a field writes a value if the arguments of the samples that it shows do. -/
theorem Match.writesValue_literal (hhost : around.host.AllowsExamples)
    (hknown : ∀ entry ∈ known, ∃ used v, WritesValue entry.2.argument used v) {m : Match}
    (h : m.Finds around hostType) : ∃ used v, WritesValue (m.literal known) used v := by
  have hnest : ∀ {text : String}, (∃ used v, WritesValue text used v) →
      ∃ used v, WritesValue (nestLiteral m.depth text) used v :=
    fun ⟨_, _, hwrites⟩ => (hwrites.nest m.depth).imp fun _ hnested => ⟨_, hnested⟩
  rw [Match.literal, inBrackets_eq_nestLiteral]
  refine hnest ?_
  split
  · next leaf hkind =>
    obtain ⟨type, htype, hmember⟩ :=
      HostTypes.exists_type_of_field? (HostTypes.field?_eq_ok_iff.2 h.first)
    exact hhost.writesValue (hhost.fields type htype m.member hmember) h.element (hkind ▸ h.kind)
  · split
    · next sample hsample => exact hknown _ (OrderedMap.mem_of_lookup hsample)
    · exact ⟨_, _, writesValue_braces⟩

/-- For a schema that was read and a host with allowed examples, the argument of every sample of a
session writes a value. -/
theorem Reachable.argument_writesValue {sources : List (String × String)} {session : Session}
    (h : around.Reachable session) (hschema : SchemaIndex.ofSources sources = .ok around.schema)
    (hhost : around.host.AllowsExamples) :
    ∀ entry ∈ session.samples, ∃ used v, WritesValue entry.2.argument used v := by
  refine h.forall_sample (P := fun sample => ∃ used v, WritesValue sample.argument used v) ?_
  intro known type schemaType found name hknown hfields hfound
  by_cases hne : found = []
  · subst hne
    exact ⟨_, _, writesValue_braces⟩
  · have hnames : ∀ m ∈ found, IsName m.field.name := fun m hm =>
      SchemaIndex.isName_of_ofSources hschema (hfields ▸ List.mem_map_of_mem hm)
    have hliterals : ∀ m ∈ found, ∃ used v, WritesValue (m.literal known) used v := fun m hm =>
      m.writesValue_literal hhost hknown (hfound m hm)
    choose! lexemes value hwrites using hliterals
    have hobject := writesValue_object hnames hwrites
    exact ⟨_, _, by
      simpa [Sample.ofPieces, hne, Function.comp_def, Match.piece, Match.summary] using hobject⟩

end Surroundings

end OperationAtlas
