import OperationAtlas.Proofs.Graphql.Tokens
import OperationAtlas.Proofs.Graphql.Values
import OperationAtlas.Proofs.OrderedMap
import OperationAtlas.Schema.Index

/-!
# The names of a schema

Every field of an index that sources gave has a name in the sense of the grammar
(`SchemaIndex.isName_of_ofSources`): the reader of schema documents takes the name of a field from a
lexeme of the text, and the lexemes of a text are valid. Nothing else is said here of what the
reader takes, so the readers of parts without fields are only shown to take lexemes from the front.
-/

namespace OperationAtlas

namespace Graphql

open Reader

/-- The fields that a definition adds to a type. -/
def Definition.fields : Definition → List FieldDefinition
  | .fielded _ _ _ fields => fields
  | .roots .. | .other => []

/-- The reader takes lexemes from the front. -/
abbrev TakesFront {α : Type} (r : Reader α) : Prop := Takes r fun _ _ => True

theorem Reader.Takes.front {α : Type} {r : Reader α} {P : List Lexeme → α → Prop} (h : Takes r P) :
    TakesFront r :=
  h.mono fun _ _ _ => trivial

theorem takes_name : Takes name fun used text => used = [.name text] :=
  fun _ _ _ h => ⟨_, eq_cons_of_name h, rfl⟩

/-- Reads an item behind its separator. -/
def separated {α : Type} (separator : Char) (item : Reader α) : Reader α := fun ls => do
  let ((), ls) ← punct separator ls
  item ls

theorem takesFront_separated {α : Type} {separator : Char} {item : Reader α}
    (hitem : TakesFront item) : TakesFront (separated separator item) := by
  intro ls x rest h
  obtain ⟨⟨⟨⟩, ls₁⟩, hseparator, h⟩ := bind_eq_ok_iff.1 h
  obtain ⟨used, rfl, -⟩ := hitem _ _ _ h
  rw [eq_cons_of_punct hseparator]
  exact ⟨.punct separator :: used, rfl, trivial⟩

theorem takesFront_sepBy1 {α : Type} {separator : Char} {item : Reader α}
    (hitem : TakesFront item) :
    TakesFront (sepBy1 separator item) := by
  intro ls xs rest h
  obtain ⟨⟨first, ls₁⟩, hfirst, h⟩ := bind_eq_ok_iff.1 h
  obtain ⟨⟨others, ls₂⟩, hothers, h⟩ := bind_eq_ok_iff.1 h
  cases h
  obtain ⟨used, rfl, -⟩ := hitem _ _ _ hfirst
  obtain ⟨used', rfl, -⟩ := (takes_many (takesFront_separated hitem)).front _ _ _ hothers
  exact ⟨used ++ used', (List.append_assoc ..).symm, trivial⟩

namespace SchemaDocument

theorem takesFront_description : TakesFront description := by
  intro ls u rest h
  unfold description at h
  split at h <;> cases h
  · exact ⟨[_], rfl, trivial⟩
  · exact ⟨[], rfl, trivial⟩

theorem takesFront_optionalWord (text : String) : TakesFront (optionalWord text) := by
  intro ls found rest h
  unfold optionalWord at h
  split at h <;> cases h
  · exact ⟨ls.take 1, (List.take_append_drop 1 ls).symm, trivial⟩
  · exact ⟨[], rfl, trivial⟩

theorem takesFront_optionalPunct (c : Char) : TakesFront (optionalPunct c) := by
  intro ls found rest h
  unfold optionalPunct at h
  split at h <;> cases h
  · exact ⟨ls.take 1, (List.take_append_drop 1 ls).symm, trivial⟩
  · exact ⟨[], rfl, trivial⟩

theorem takesFront_defaultValue (levels : Nat) : TakesFront (defaultValue levels) := by
  intro ls u rest h
  unfold defaultValue at h
  split at h
  · obtain ⟨⟨value, ls₁⟩, hvalue, h⟩ := bind_eq_ok_iff.1 h
    cases h
    obtain ⟨used, hused, -⟩ := Value.takes_read _ _ _ _ _ hvalue
    exact ⟨ls.take 1 ++ used, by rw [List.append_assoc, ← hused, List.take_append_drop], trivial⟩
  · cases h
    exact ⟨[], rfl, trivial⟩

/-- The name of an argument or of a field of an input is a lexeme. -/
theorem takes_inputValue (levels : Nat) :
    Takes (inputValue levels) fun used value => .name value.1 ∈ used := by
  intro ls value rest h
  obtain ⟨⟨⟨⟩, ls₁⟩, hdescription, h⟩ := bind_eq_ok_iff.1 h
  obtain ⟨⟨name, ls₂⟩, hname, h⟩ := bind_eq_ok_iff.1 h
  obtain ⟨⟨⟨⟩, ls₃⟩, hcolon, h⟩ := bind_eq_ok_iff.1 h
  obtain ⟨⟨type, ls₄⟩, htype, h⟩ := bind_eq_ok_iff.1 h
  obtain ⟨⟨⟨⟩, ls₅⟩, hdefault, h⟩ := bind_eq_ok_iff.1 h
  obtain ⟨⟨directives, ls₆⟩, hdirectives, h⟩ := bind_eq_ok_iff.1 h
  cases h
  obtain ⟨before, rfl, -⟩ := takesFront_description _ _ _ hdescription
  obtain ⟨typeUsed, rfl, -⟩ := TypeExpr.takes_read _ _ _ _ htype
  obtain ⟨defaultUsed, rfl, -⟩ := takesFront_defaultValue _ _ _ _ hdefault
  obtain ⟨dirs, rfl, -⟩ := takes_readDirectives _ _ _ _ hdirectives
  rw [eq_cons_of_name hname, eq_cons_of_punct hcolon]
  exact ⟨before ++ .name name :: .punct ':' ::
    (typeUsed ++ (defaultUsed ++ dirs)), by simp, by simp⟩

theorem takesFront_argumentsDefinition (levels : Nat) :
    TakesFront (argumentsDefinition levels) := by
  intro ls arguments rest h
  obtain ⟨⟨arguments?, ls₁⟩, hread, h⟩ := bind_eq_ok_iff.1 h
  cases h
  exact (takes_optional (takes_between fun levels =>
    takes_many1 (takes_inputValue levels))).front _ _ _ hread

/-- The name of a field is a lexeme. -/
theorem takes_field (levels : Nat) :
    Takes (field levels) fun used field => .name field.name ∈ used := by
  intro ls field rest h
  obtain ⟨⟨⟨⟩, ls₁⟩, hdescription, h⟩ := bind_eq_ok_iff.1 h
  obtain ⟨⟨name, ls₂⟩, hname, h⟩ := bind_eq_ok_iff.1 h
  obtain ⟨⟨arguments, ls₃⟩, harguments, h⟩ := bind_eq_ok_iff.1 h
  obtain ⟨⟨⟨⟩, ls₄⟩, hcolon, h⟩ := bind_eq_ok_iff.1 h
  obtain ⟨⟨type, ls₅⟩, htype, h⟩ := bind_eq_ok_iff.1 h
  obtain ⟨⟨directives, ls₆⟩, hdirectives, h⟩ := bind_eq_ok_iff.1 h
  cases h
  obtain ⟨before, rfl, -⟩ := takesFront_description _ _ _ hdescription
  obtain ⟨args, rfl, -⟩ := takesFront_argumentsDefinition _ _ _ _ harguments
  obtain ⟨typeUsed, rfl, -⟩ := TypeExpr.takes_read _ _ _ _ htype
  obtain ⟨dirs, rfl, -⟩ := takes_readDirectives _ _ _ _ hdirectives
  rw [eq_cons_of_name hname, eq_cons_of_punct hcolon]
  exact ⟨before ++ .name name :: (args ++ .punct ':' :: (typeUsed ++ dirs)), by simp, by simp⟩

theorem takes_inputField (levels : Nat) :
    Takes (inputField levels) fun used field => .name field.name ∈ used := by
  intro ls field rest h
  obtain ⟨⟨⟨name, type⟩, ls₁⟩, hvalue, h⟩ := bind_eq_ok_iff.1 h
  cases h
  exact takes_inputValue _ _ _ _ hvalue

/-- What holds of each item in braces with regard to its lexemes holds with regard to all. -/
theorem takes_braced {α : Type} {levels : Nat} {item : Nat → Reader α}
    (nameOf : α → String)
    (hitem : ∀ levels, Takes (item levels) fun used x => .name (nameOf x) ∈ used) :
    Takes (braced levels item) fun used xs => ∀ x ∈ xs, .name (nameOf x) ∈ used := by
  intro ls xs rest h
  obtain ⟨⟨xs?, ls₁⟩, hread, h⟩ := bind_eq_ok_iff.1 h
  cases h
  obtain ⟨used, rfl, hused⟩ := takes_optional (takes_between fun levels =>
    takes_many1 (hitem levels)) _ _ _ hread
  refine ⟨used, rfl, ?_⟩
  cases xs? with
  | none => exact nofun
  | some xs =>
    obtain ⟨levels, within, -, rfl, -, parts, rfl, rfl, hparts⟩ := hused
    intro x hx
    obtain ⟨part, hpart, rfl⟩ := List.mem_map.1 hx
    exact mem_bracketed hpart (hparts part hpart)

theorem takesFront_interfaces : TakesFront interfaces := by
  intro ls names rest h
  obtain ⟨⟨found, ls₁⟩, hword, hfound⟩ := bind_eq_ok_iff.1 h
  obtain ⟨before, rfl, -⟩ := takesFront_optionalWord _ _ _ _ hword
  cases found with
  | true =>
    obtain ⟨⟨mark, ls₂⟩, hmark, hnames⟩ := bind_eq_ok_iff.1 hfound
    obtain ⟨used, rfl, -⟩ := takesFront_optionalPunct _ _ _ _ hmark
    obtain ⟨used', rfl, -⟩ := takesFront_sepBy1 takes_name.front _ _ _ hnames
    exact ⟨before ++ (used ++ used'), by simp, trivial⟩
  | false =>
    cases hfound
    exact ⟨before, rfl, trivial⟩

/-- A definition's fields have their names from its lexemes. -/
def NamesFields (used : List Lexeme) (definition : Definition) : Prop :=
  ∀ field ∈ definition.fields, .name field.name ∈ used

theorem checkContent_bind {α : Type} {extends? isEmpty : Bool} {start : List Lexeme} {x y : α}
    (h : (do checkContent extends? isEmpty start; .ok x : Except Nat α) = .ok y) : x = y := by
  obtain ⟨-, -, h⟩ := bind_eq_ok_iff.1 h
  exact Except.ok.inj h

/-- The fields of an object or an interface have their names from the lexemes behind its keyword. -/
theorem exists_used_of_fielded {levels : Nat} {ls ls₁ ls₂ ls₃ rest : List Lexeme} {name : String}
    {parents : List String} {directives : List Directive} {fields : List FieldDefinition}
    (hname : Reader.name ls = .ok (name, ls₁)) (hparents : interfaces ls₁ = .ok (parents, ls₂))
    (hdirectives : readDirectives levels ls₂ = .ok (directives, ls₃))
    (hfields : braced levels field ls₃ = .ok (fields, rest)) :
    ∃ used, ls = used ++ rest ∧ ∀ field ∈ fields, .name field.name ∈ used := by
  obtain ⟨used, rfl, -⟩ := takesFront_interfaces _ _ _ hparents
  obtain ⟨dirs, rfl, -⟩ := takes_readDirectives _ _ _ _ hdirectives
  obtain ⟨within, rfl, hnames⟩ := takes_braced _ takes_field _ _ _ hfields
  rw [eq_cons_of_name hname]
  exact ⟨.name name :: (used ++ (dirs ++ within)), by simp, fun field hfield => by
    simp [hnames field hfield]⟩

/-- Reads a value of an enumeration. -/
def enumValue (levels : Nat) : Reader String := fun ls => do
  let ((), ls) ← description ls
  let (name, ls) ← name ls
  let (_, ls) ← readDirectives levels ls
  .ok (name, ls)

theorem takes_enumValue (levels : Nat) :
    Takes (enumValue levels) fun used name => .name name ∈ used := by
  intro ls name rest h
  obtain ⟨⟨⟨⟩, ls₁⟩, hdescription, h₁⟩ := bind_eq_ok_iff.1 h
  obtain ⟨⟨name, ls₂⟩, hname, h₂⟩ := bind_eq_ok_iff.1 h₁
  obtain ⟨⟨directives, ls₃⟩, hdirectives, h₃⟩ := bind_eq_ok_iff.1 h₂
  cases h₃
  obtain ⟨before, rfl, -⟩ := takesFront_description _ _ _ hdescription
  obtain ⟨dirs, rfl, -⟩ := takes_readDirectives _ _ _ _ hdirectives
  rw [eq_cons_of_name hname]
  exact ⟨before ++ .name name :: dirs, by simp, by simp⟩

theorem takes_typeDefinition (levels : Nat) (extends? : Bool) (keyword : String)
    (start : List Lexeme) : Takes (typeDefinition levels extends? keyword start) NamesFields := by
  intro ls definition rest h
  unfold typeDefinition at h
  split at h
  · obtain ⟨⟨name, ls₁⟩, hname, h₁⟩ := bind_eq_ok_iff.1 h
    obtain ⟨⟨directives, ls₂⟩, hdirectives, h₂⟩ := bind_eq_ok_iff.1 h₁
    cases checkContent_bind h₂
    obtain ⟨dirs, rfl, -⟩ := takes_readDirectives _ _ _ _ hdirectives
    rw [eq_cons_of_name hname]
    exact ⟨.name name :: dirs, rfl, nofun⟩
  · obtain ⟨⟨name, ls₁⟩, hname, h₁⟩ := bind_eq_ok_iff.1 h
    obtain ⟨⟨parents, ls₂⟩, hparents, h₂⟩ := bind_eq_ok_iff.1 h₁
    obtain ⟨⟨directives, ls₃⟩, hdirectives, h₃⟩ := bind_eq_ok_iff.1 h₂
    obtain ⟨⟨fields, ls₄⟩, hfields, h₄⟩ := bind_eq_ok_iff.1 h₃
    cases checkContent_bind h₄
    exact exists_used_of_fielded hname hparents hdirectives hfields
  · obtain ⟨⟨name, ls₁⟩, hname, h₁⟩ := bind_eq_ok_iff.1 h
    obtain ⟨⟨parents, ls₂⟩, hparents, h₂⟩ := bind_eq_ok_iff.1 h₁
    obtain ⟨⟨directives, ls₃⟩, hdirectives, h₃⟩ := bind_eq_ok_iff.1 h₂
    obtain ⟨⟨fields, ls₄⟩, hfields, h₄⟩ := bind_eq_ok_iff.1 h₃
    cases checkContent_bind h₄
    exact exists_used_of_fielded hname hparents hdirectives hfields
  · obtain ⟨⟨name, ls₁⟩, hname, h₁⟩ := bind_eq_ok_iff.1 h
    obtain ⟨⟨directives, ls₂⟩, hdirectives, h₂⟩ := bind_eq_ok_iff.1 h₁
    obtain ⟨⟨equals, ls₃⟩, hequals, h₃⟩ := bind_eq_ok_iff.1 h₂
    obtain ⟨dirs, rfl, -⟩ := takes_readDirectives _ _ _ _ hdirectives
    obtain ⟨mark, rfl, -⟩ := takesFront_optionalPunct _ _ _ _ hequals
    rw [eq_cons_of_name hname]
    cases equals with
    | true =>
      obtain ⟨⟨bar, ls₄⟩, hbar, h₄⟩ := bind_eq_ok_iff.1 h₃
      obtain ⟨⟨members, ls₅⟩, hmembers, h₅⟩ := bind_eq_ok_iff.1 h₄
      cases h₅
      obtain ⟨used, rfl, -⟩ := takesFront_optionalPunct _ _ _ _ hbar
      obtain ⟨used', rfl, -⟩ := takesFront_sepBy1 takes_name.front _ _ _ hmembers
      exact ⟨.name name :: (dirs ++ (mark ++ (used ++ used'))), by simp, nofun⟩
    | false =>
      cases checkContent_bind h₃
      exact ⟨.name name :: (dirs ++ mark), by simp, nofun⟩
  · obtain ⟨⟨name, ls₁⟩, hname, h₁⟩ := bind_eq_ok_iff.1 h
    obtain ⟨⟨directives, ls₂⟩, hdirectives, h₂⟩ := bind_eq_ok_iff.1 h₁
    obtain ⟨⟨values, ls₃⟩, hvalues, h₃⟩ := bind_eq_ok_iff.1 h₂
    cases checkContent_bind h₃
    obtain ⟨dirs, rfl, -⟩ := takes_readDirectives _ _ _ _ hdirectives
    obtain ⟨within, rfl, -⟩ := takes_braced id takes_enumValue _ _ _ hvalues
    rw [eq_cons_of_name hname]
    exact ⟨.name name :: (dirs ++ within), by simp, nofun⟩
  · obtain ⟨⟨name, ls₁⟩, hname, h₁⟩ := bind_eq_ok_iff.1 h
    obtain ⟨⟨directives, ls₂⟩, hdirectives, h₂⟩ := bind_eq_ok_iff.1 h₁
    obtain ⟨⟨fields, ls₃⟩, hfields, h₃⟩ := bind_eq_ok_iff.1 h₂
    cases checkContent_bind h₃
    obtain ⟨dirs, rfl, -⟩ := takes_readDirectives _ _ _ _ hdirectives
    obtain ⟨within, rfl, hnames⟩ := takes_braced _ takes_inputField _ _ _ hfields
    rw [eq_cons_of_name hname]
    exact ⟨.name name :: (dirs ++ within), by simp, fun field hfield => by
      simp [hnames field hfield]⟩
  · cases h

theorem takesFront_directiveLocation : TakesFront directiveLocation := by
  intro ls text rest h
  unfold directiveLocation at h
  split at h
  · split at h <;> cases h
    exact ⟨[_], rfl, trivial⟩
  · cases h

theorem takes_directiveDefinition (levels : Nat) :
    Takes (directiveDefinition levels) NamesFields := by
  intro ls definition rest h
  obtain ⟨⟨⟨⟩, ls₁⟩, hmark, h₁⟩ := bind_eq_ok_iff.1 h
  obtain ⟨⟨name, ls₂⟩, hname, h₂⟩ := bind_eq_ok_iff.1 h₁
  obtain ⟨⟨arguments, ls₃⟩, harguments, h₃⟩ := bind_eq_ok_iff.1 h₂
  obtain ⟨⟨repeatable, ls₄⟩, hrepeatable, h₄⟩ := bind_eq_ok_iff.1 h₃
  obtain ⟨⟨⟨⟩, ls₅⟩, hon, h₅⟩ := bind_eq_ok_iff.1 h₄
  obtain ⟨⟨bar, ls₆⟩, hbar, h₆⟩ := bind_eq_ok_iff.1 h₅
  obtain ⟨⟨places, ls₇⟩, hplaces, h₇⟩ := bind_eq_ok_iff.1 h₆
  cases h₇
  obtain ⟨args, rfl, -⟩ := takesFront_argumentsDefinition _ _ _ _ harguments
  obtain ⟨mark, rfl, -⟩ := takesFront_optionalWord _ _ _ _ hrepeatable
  obtain ⟨used, rfl, -⟩ := takesFront_optionalPunct _ _ _ _ hbar
  obtain ⟨used', rfl, -⟩ := takes_optional (takesFront_sepBy1 takesFront_directiveLocation) _ _ _
    hplaces
  rw [eq_cons_of_punct hmark, eq_cons_of_name hname, eq_cons_of_word hon]
  exact ⟨.punct '@' :: .name name :: (args ++ (mark ++ .name "on" :: (used ++ used'))), by simp,
    nofun⟩

/-- Reads the name of a root and of its type. -/
def rootEntry : Reader (String × String) := fun ls => do
  let (root, ls) ← name ls
  let ((), ls) ← punct ':' ls
  let (type, ls) ← name ls
  .ok ((root, type), ls)

theorem takesFront_rootEntry : TakesFront rootEntry := by
  intro ls entry rest h
  obtain ⟨⟨root, ls₁⟩, hroot, h₁⟩ := bind_eq_ok_iff.1 h
  obtain ⟨⟨⟨⟩, ls₂⟩, hcolon, h₂⟩ := bind_eq_ok_iff.1 h₁
  obtain ⟨⟨type, ls₃⟩, htype, h₃⟩ := bind_eq_ok_iff.1 h₂
  cases h₃
  rw [eq_cons_of_name hroot, eq_cons_of_punct hcolon, eq_cons_of_name htype]
  exact ⟨[_, _, _], rfl, trivial⟩

theorem takes_rootsBlock (levels : Nat) (start : List Lexeme) :
    Takes (rootsBlock levels start) NamesFields := by
  intro ls definition rest h
  obtain ⟨⟨directives, ls₁⟩, hdirectives, h₁⟩ := bind_eq_ok_iff.1 h
  obtain ⟨⟨entries, ls₂⟩, hentries, h₂⟩ := bind_eq_ok_iff.1 h₁
  obtain ⟨dirs, rfl, -⟩ := takes_readDirectives _ _ _ _ hdirectives
  obtain ⟨used, rfl, -⟩ := (takes_between fun _ => takes_many takesFront_rootEntry).front _ _ _
    hentries
  dsimp only at h₂
  split at h₂
  · next definition' hroots =>
    cases h₂
    refine ⟨dirs ++ used, by simp, ?_⟩
    unfold roots? at hroots
    dsimp only at hroots
    split at hroots <;> cases hroots
    exact nofun
  · cases h₂

/-- The fields of a definition have their names from the definition's lexemes. -/
theorem takes_definition (levels : Nat) : Takes (definition levels) NamesFields := by
  intro ls definition rest h
  unfold SchemaDocument.definition at h
  split at h
  · obtain ⟨used, rfl, hnames⟩ := takes_rootsBlock _ _ _ _ _ h
    exact ⟨.name "schema" :: used, rfl, fun field hfield =>
      List.mem_cons_of_mem _ (hnames field hfield)⟩
  · next keyword ls₀ =>
    obtain ⟨used, rfl, hnames⟩ := takes_typeDefinition _ _ _ _ _ _ _ h
    exact ⟨.name "extend" :: .name keyword :: used, rfl, fun field hfield =>
      List.mem_cons_of_mem _ (List.mem_cons_of_mem _ (hnames field hfield))⟩
  · cases h
  · obtain ⟨⟨⟨⟩, ls₁⟩, hdescription, h₁⟩ := bind_eq_ok_iff.1 h
    obtain ⟨before, rfl, -⟩ := takesFront_description _ _ _ hdescription
    dsimp only at h₁
    split at h₁
    · obtain ⟨used, rfl, hnames⟩ := takes_directiveDefinition _ _ _ _ h₁
      exact ⟨before ++ .name "directive" :: used, by simp, fun field hfield => by
        simp [hnames field hfield]⟩
    · obtain ⟨used, rfl, hnames⟩ := takes_typeDefinition _ _ _ _ _ _ _ h₁
      exact ⟨before ++ .name _ :: used, (List.append_assoc before (.name _ :: used) rest).symm,
        fun field hfield => by simp [hnames field hfield]⟩
    · cases h₁

/-- The fields that a schema text declares have names. -/
theorem isName_of_parse {text : String} {document : SchemaDocument}
    (h : SchemaDocument.parse text = .ok document) :
    ∀ definition ∈ document, ∀ field ∈ definition.fields, IsName field.name := by
  rw [SchemaDocument.parse, lexemes_ofText] at h
  have hvalid : ∀ l ∈ lexemesOf text.toList, l.IsValid := isValid_of_mem_lexemesOf
  cases hread : SchemaDocument.read (lexemesOf text.toList) with
  | error left =>
    rw [hread] at h
    cases h
  | ok result =>
    rw [hread] at h
    cases h
    obtain ⟨⟨definitions, ls₁⟩, hdefinitions, hend⟩ := bind_eq_ok_iff.1 hread
    dsimp only at hend
    split at hend <;> cases hend
    obtain ⟨used, hused, -, parts, rfl, rfl, hparts⟩ :=
      takes_many1 (takes_definition maxLevels) _ _ _ hdefinitions
    intro definition hdefinition field hfield
    obtain ⟨part, hpart, rfl⟩ := List.mem_map.1 hdefinition
    refine hvalid (.name field.name) ?_
    rw [hused]
    exact List.mem_append_left _ (List.mem_flatMap.2 ⟨part, hpart, hparts part hpart field hfield⟩)

end SchemaDocument

end Graphql

namespace SchemaIndex

open Graphql

/-- The fields of an index have names. -/
def HasNames (index : SchemaIndex) : Prop :=
  ∀ name fields, (name, fields) ∈ index.types → ∀ field ∈ fields, IsName field.name

theorem HasNames.addDefinition {index : SchemaIndex} (h : index.HasNames) {definition : Definition}
    (hnames : ∀ field ∈ definition.fields, IsName field.name) :
    (index.addDefinition definition).HasNames := by
  cases definition with
  | roots | other => exact h
  | fielded kind extends? name fields =>
    intro type declared hmem field hfield
    rcases OrderedMap.mem_adjust hmem with hmem | ⟨-, rfl | ⟨before, hbefore, rfl⟩⟩
    · exact h type declared hmem field hfield
    · obtain ⟨field', hfield', rfl⟩ := List.mem_map.1 (by simpa using hfield)
      exact hnames field' hfield'
    · rcases List.mem_append.1 hfield with hfield | hfield
      · exact h type before hbefore field hfield
      · obtain ⟨field', hfield', rfl⟩ := List.mem_map.1 hfield
        exact hnames field' hfield'

theorem HasNames.addDocument {index : SchemaIndex} (h : index.HasNames) {document : SchemaDocument}
    (hnames : ∀ definition ∈ document, ∀ field ∈ definition.fields, IsName field.name) :
    (index.addDocument document).HasNames := by
  unfold SchemaIndex.addDocument
  induction document generalizing index with
  | nil => exact h
  | cons definition document ih =>
    obtain ⟨hfirst, hothers⟩ := List.forall_mem_cons.1 hnames
    exact ih (h.addDefinition hfirst) hothers

theorem HasNames.addSources {index schema : SchemaIndex} (h : index.HasNames) :
    ∀ {sources : List (String × String)}, index.addSources sources = .ok schema →
      schema.HasNames := by
  intro sources hsources
  induction sources generalizing index with
  | nil =>
    cases hsources
    exact h
  | cons source sources ih =>
    unfold SchemaIndex.addSources at hsources
    split at hsources
    · cases hsources
    · next document hparse =>
      exact ih (h.addDocument (SchemaDocument.isName_of_parse hparse)) hsources

/-- Every field of an index that sources gave has a name. -/
theorem isName_of_ofSources {sources : List (String × String)} {schema : SchemaIndex}
    (h : ofSources sources = .ok schema) {type : String} {field : FieldDecl}
    (hfield : field ∈ schema.describe type) : IsName field.name := by
  have hempty : HasNames {} := nofun
  have hnames : schema.HasNames := hempty.addSources h
  unfold describe at hfield
  cases hfields : OrderedMap.lookup type schema.types with
  | none => simp [hfields] at hfield
  | some fields =>
    rw [hfields] at hfield
    exact hnames type fields (OrderedMap.mem_of_lookup hfields) field hfield

end SchemaIndex

end OperationAtlas
