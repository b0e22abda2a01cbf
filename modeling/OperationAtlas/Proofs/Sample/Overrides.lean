import OperationAtlas.Proofs.Graphql.Printing.Requests
import OperationAtlas.Proofs.Sample.Stored

/-!
# Requests with strings

A parameter that is a string is passed as a quoted text, whatever the text is. For an accessor that
has such parameters only, a request is composed whenever its result has a sample. It is stored
exactly if it does not nest too deep and a printed request shows all of each text that can be read
back from it (`IsStorable`), and is a fault of the grammar otherwise.

The stored request passes each text in its settled form (`stored_texts_are_settled`). So it may
still pass another text than was given: a block shows neither a line feed at the end of a text nor a
carriage return before a line feed nor the blanks of a blank line (`IsSettled`).
-/

namespace OperationAtlas

open Graphql Text

/-! ## Texts that are stored -/

/-- A request that passes a text may be stored. -/
def IsStorable (text : String) : Prop := '\x08' ∉ text.toList ∧ IsStable text.toList

/-- The text that a stored request passes for a text. -/
def settledText (text : String) : String := String.ofList (settled text.toList)

/-- A stored request passes all of a text: it is written in a line, or it neither ends with a line
feed nor has a carriage return before one, and its blank lines are empty. -/
def IsSettled (text : String) : Prop :=
  inBlock text.toList = true →
    lines text.toList = splitAt '\n' text.toList ∧ ∀ line ∈ lines text.toList, shown line = line

theorem settledText_eq_self_iff {text : String} : settledText text = text ↔ IsSettled text := by
  rw [settledText, ← String.toList_inj, String.toList_ofList, IsSettled]
  cases h : inBlock text.toList with
  | true => rw [settled_eq_self_iff h, forall_prop_of_true rfl]
  | false => simp [settled, h]

/-- A text as it is read behind a quotation. -/
def unquoted (text : String) : String := String.ofList (text.toList.map reescaped)

theorem isStable_unquoted_iff {text : String} :
    IsStable (unquoted text).toList ↔ IsStorable text := by
  rw [unquoted, String.toList_ofList, isStable_map_reescaped_iff, IsStorable]

theorem IsStorable.reread_unquoted {text : String} (h : IsStorable text) :
    String.ofList (reread (unquoted text).toList) = settledText text := by
  rw [unquoted, map_reescaped h.1, String.toList_ofList, h.2.reread_eq, settledText]

theorem spells_quotedText (text : String) :
    Spells (Leaf.quoted text).toList [.text (unquoted text)] := by
  rw [Leaf.quoted, String.toList_ofList]
  exact spells_quoted text.toList

namespace ExampleRequest

/-- The loose text of a request that passes texts. -/
def composeTexts (kind : OperationKind) (name : String) (texts : List (String × String))
    (selection : Option String) : String :=
  compose kind name (texts.map fun text => text.1 ++ ": " ++ Leaf.quoted text.2) selection

variable {kind : OperationKind} {name : String} {texts : List (String × String)}
  {selection : Option String} {parts : List (List Lexeme × Selection)} {request : String}

/-- Texts with their names as they are read behind quotations. -/
def unquotedTexts (texts : List (String × String)) : List (String × String) :=
  texts.map fun text => (text.1, unquoted text.2)

/-- Texts with their names as a stored request passes them. -/
def settledTexts (texts : List (String × String)) : List (String × String) :=
  texts.map fun text => (text.1, settledText text.2)

theorem rereadStrings_unquotedTexts (h : ∀ text ∈ texts, IsStorable text.2) :
    rereadStrings (unquotedTexts texts) = settledTexts texts := by
  have hread : ∀ text ∈ texts, (text.1, String.ofList (reread (unquoted text.2).toList)) =
      (text.1, settledText text.2) := fun text htext => by rw [(h text htext).reread_unquoted]
  rw [rereadStrings, unquotedTexts, settledTexts, List.map_map]
  exact List.map_congr_left hread

section

variable (kind) (hname : IsName name) (hnames : ∀ text ∈ texts, IsName text.1)
  (hselection : SpellsSelection selection parts) (hparts : ∀ part ∈ parts, IsField part.1 part.2)
  (hnesting : nesting 0 (lexemesOf (composeTexts kind name texts selection).toList) ≤
    Reader.maxLevels)

include hname hnames hselection hparts hnesting

/-- A composed request that passes texts is read as such, unless it nests too deep. -/
theorem parse_composeTexts :
    lexemesOf (composeTexts kind name texts selection).toList =
        operationLexemes kind (rootParts name (stringParts (unquotedTexts texts)) parts) ∧
      Document.parse (composeTexts kind name texts selection) =
        .ok (Document.ofStrings kind name (unquotedTexts texts) (parts.map (·.2))) := by
  have hspells : ∀ text ∈ texts, Spells (Leaf.quoted text.2).toList [.text (unquoted text.2)] :=
    fun text _ => spells_quotedText text.2
  have hfits : ∀ text ∈ texts,
      Value.Fits [.text (unquoted text.2)] (.string (unquoted text.2)) :=
    fun text _ => Value.fits_text (unquoted text.2)
  have hparse := parse_compose _ kind hname hnames hspells (by simp) hfits hselection hparts rfl
    hnesting
  simpa [composeTexts, stringParts, unquotedTexts, Document.ofStrings, stringArguments,
    Function.comp_def] using hparse

/-- Printed, it is read as a request that passes the texts as they are read back. -/
theorem parse_text_composeTexts :
    Document.parse
        (Document.ofStrings kind name (unquotedTexts texts) (parts.map (·.2))).text =
      .ok (Document.ofStrings kind name (rereadStrings (unquotedTexts texts))
        (parts.map (·.2))) := by
  obtain ⟨hlexemes, -⟩ := parse_composeTexts kind hname hnames hselection hparts hnesting
  have hderives : ∀ part ∈ parts, Selection.Derives 48 part.1 part.2 := by
    rw [hlexemes] at hnesting
    exact derives_of_nesting_rootParts (fits_stringParts _)
      (fun part hpart => (hparts part hpart).fits) hnesting
  have hvalid : ∀ part ∈ parts, ∀ l ∈ part.1, l.IsValid := by
    intro part hpart l hl
    refine isValid_of_mem_lexemesOf l (?_ : l ∈ lexemesOf
      (composeTexts kind name texts selection).toList)
    rw [hlexemes]
    exact mem_operationLexemes_rootParts hpart hl
  have hnames' : ∀ text ∈ unquotedTexts texts, IsName text.1 := by
    rwa [unquotedTexts, List.forall_mem_map]
  exact Document.parse_text_ofStrings (rfl : 48 + 2 = Reader.maxLevels) kind hname hnames'
    hderives hvalid fun part hpart => (hparts part hpart).faithful

end

/-- A composed request that passes texts has a canonical form exactly if it does not nest too deep
and its texts are storable. -/
theorem canonical_composeTexts_iff (hname : IsName name) (hnames : ∀ text ∈ texts, IsName text.1)
    (hselection : SpellsSelection selection parts)
    (hparts : ∀ part ∈ parts, IsField part.1 part.2) :
    canonical kind (composeTexts kind name texts selection) = .ok request ↔
      nesting 0 (lexemesOf (composeTexts kind name texts selection).toList) ≤ Reader.maxLevels ∧
        (∀ text ∈ texts, IsStorable text.2) ∧
        request = (Document.ofStrings kind name (unquotedTexts texts) (parts.map (·.2))).text := by
  have hstable : (∀ string ∈ unquotedTexts texts, IsStable string.2.toList) ↔
      ∀ text ∈ texts, IsStorable text.2 := by
    simp only [unquotedTexts, List.forall_mem_map, isStable_unquoted_iff]
  rw [canonical_eq_ok_iff]
  constructor
  · rintro ⟨document, again, hdocument, rfl, hagain, hsame⟩
    have hnesting := (Document.parse_eq_ok_iff.1 hdocument).nesting_le
    obtain ⟨-, hparse⟩ := parse_composeTexts kind hname hnames hselection hparts hnesting
    obtain rfl := Except.ok.inj (hdocument.symm.trans hparse)
    obtain rfl := Except.ok.inj (hagain.symm.trans
      (parse_text_composeTexts kind hname hnames hselection hparts hnesting))
    exact ⟨hnesting, hstable.1 (Document.text_rereadStrings_iff.1 hsame), rfl⟩
  · rintro ⟨hnesting, hstorable, rfl⟩
    exact ⟨_, _, (parse_composeTexts kind hname hnames hselection hparts hnesting).2, rfl,
      parse_text_composeTexts kind hname hnames hselection hparts hnesting,
      Document.text_rereadStrings_iff.2 (hstable.2 hstorable)⟩

/-- The canonical form passes the texts in their settled form. -/
theorem parse_of_canonical_composeTexts (hname : IsName name)
    (hnames : ∀ text ∈ texts, IsName text.1) (hselection : SpellsSelection selection parts)
    (hparts : ∀ part ∈ parts, IsField part.1 part.2)
    (h : canonical kind (composeTexts kind name texts selection) = .ok request) :
    Document.parse request =
      .ok (Document.ofStrings kind name (settledTexts texts) (parts.map (·.2))) := by
  obtain ⟨hnesting, hstorable, rfl⟩ :=
    (canonical_composeTexts_iff hname hnames hselection hparts).1 h
  rw [parse_text_composeTexts kind hname hnames hselection hparts hnesting,
    rereadStrings_unquotedTexts hstorable]

end ExampleRequest

/-! ## Parameters that are strings -/

/-- A parameter that is a string. -/
def Member.IsString (parameter : Member) : Prop :=
  ∃ name kind, parameter.type = .plain name ∧ LeafKind.ofName? name = some kind ∧
    (kind = .string ∨ kind = .id ∨ kind = .temporal)

/-- The text that is passed for a parameter. -/
def Member.text (parameter : Member) : String := parameter.doc.override?.getD ""

/-- The texts that are passed for parameters, with their names. -/
def Accessor.texts (accessor : Accessor) : List (String × String) :=
  accessor.parameters.map fun parameter => (parameter.name, parameter.text)

namespace Surroundings

variable {around : Surroundings} {session session' : Session} {operation : FieldDecl}
  {owner : String} {parameter : Member}

/-- A parameter that is a string is passed as its quoted text, and no type is walked for it. -/
theorem runOn_argumentOf_of_isString (h : parameter.IsString) :
    ∃ summary, (around.argumentOf operation owner parameter).runOn session =
      (.ok (parameter.name ++ ": " ++ Leaf.quoted parameter.text, summary), session) := by
  obtain ⟨name, kind, htype, hkind, htext⟩ := h
  have hunwrap : HostTypes.unwrap parameter.type owner parameter.name =
      .ok (.plain name, 0) := by
    rw [htype]
    rfl
  have hleaf : around.host.kind (.plain name) = .ok (.leaf (.scalar kind)) := by
    rw [HostTypes.kind, HostTypes.kindOfName, hkind]
  have hliteral : (Leaf.scalar kind).literal parameter.doc.override? =
      Leaf.quoted parameter.text := by
    rcases htext with rfl | rfl | rfl <;> rfl
  simp only [argumentOf, SessionStep.runOn_bind, SessionStep.runOn_ofExcept, hunwrap, hleaf,
    SessionStep.runOn_pure, hliteral, nestLiteral]
  exact ⟨_, rfl⟩

theorem runOn_argumentsOf_of_isString {parameters : List Member}
    (h : ∀ parameter ∈ parameters, parameter.IsString) :
    ∃ arguments, (around.argumentsOf operation owner parameters).runOn session =
        (.ok arguments, session) ∧
      arguments.map (·.1) =
        parameters.map fun parameter => parameter.name ++ ": " ++ Leaf.quoted parameter.text := by
  induction parameters with
  | nil => exact ⟨[], rfl, rfl⟩
  | cons parameter parameters ih =>
    obtain ⟨hparameter, hothers⟩ := List.forall_mem_cons.1 h
    obtain ⟨summary, hfirst⟩ := runOn_argumentOf_of_isString hparameter
    obtain ⟨arguments, hrest, htexts⟩ := ih hothers
    refine ⟨_, SessionStep.runOn_bind_eq_ok_iff.2 ⟨_, session, hfirst,
      SessionStep.runOn_bind_eq_ok_iff.2 ⟨arguments, session, hrest, rfl⟩⟩, ?_⟩
    rw [List.map_cons, List.map_cons, htexts]

variable {kind : OperationKind} {accessor : Accessor} {result : Json × String × Option String}

/-- With a sample of its result, an accessor whose parameters are strings has the record of the
canonical request, or fails as that does. -/
theorem runOn_assemble_of_isString (kind : OperationKind)
    (hstrings : ∀ parameter ∈ accessor.parameters, parameter.IsString)
    (hresult : (around.resultOf operation owner accessor).runOn session =
      (.ok result, session')) :
    Prod.map (Except.map (·.exampleRequest)) id
        ((around.assemble kind owner operation accessor).runOn session) =
      (ExampleRequest.canonical kind (ExampleRequest.composeTexts kind operation.name
        accessor.texts result.2.2), session') := by
  obtain ⟨response, outputName, selection⟩ := result
  have harguments : ∃ arguments, (around.argumentsOf operation owner accessor.parameters).runOn
      session' = (.ok arguments, session') ∧ _ := runOn_argumentsOf_of_isString hstrings
  obtain ⟨arguments, harguments, htexts⟩ := harguments
  rw [ExampleRequest.composeTexts, Accessor.texts, List.map_map]
  simp only [Function.comp_def, ← htexts, assemble, SessionStep.runOn_bind, hresult, harguments,
    SessionStep.runOn_ofExcept]
  cases ExampleRequest.canonical kind (ExampleRequest.compose kind operation.name
    (arguments.map (·.1)) selection) <;> rfl

/-- A record has the canonical request for a sample of its result. -/
theorem canonical_of_assemble
    (hstrings : ∀ parameter ∈ accessor.parameters, parameter.IsString) {record : OperationRecord}
    (h : (around.assemble kind owner operation accessor).runOn session = (.ok record, session')) :
    ∃ result, (around.resultOf operation owner accessor).runOn session = (.ok result, session') ∧
      ExampleRequest.canonical kind (ExampleRequest.composeTexts kind operation.name
        accessor.texts result.2.2) = .ok record.exampleRequest := by
  obtain ⟨result, session₁, hresult, -⟩ := SessionStep.runOn_bind_eq_ok_iff.1 h
  have hrun := runOn_assemble_of_isString kind hstrings hresult
  rw [h] at hrun
  obtain ⟨hcanonical, rfl⟩ := Prod.mk.inj hrun
  exact ⟨result, hresult, hcanonical.symm⟩

/-- The selection of a result writes fields. -/
theorem exists_parts_of_resultOf {sources : List (String × String)}
    (hschema : SchemaIndex.ofSources sources = .ok around.schema)
    (hsession : around.Reachable session)
    (hresult : (around.resultOf operation owner accessor).runOn session =
      (.ok result, session')) :
    ∃ parts, SpellsSelection result.2.2 parts ∧ ∀ part ∈ parts, IsField part.1 part.2 := by
  have hreach := Reachable.compositional.resultOf (fun name origin session h =>
    h.synthesize operation name origin) owner accessor session hsession
  rw [hresult] at hreach
  exact hreach.exists_parts hschema fun text htext =>
    ⟨result.2.1, sample?_of_resultOf hresult htext⟩

section

variable {sources : List (String × String)}
  (hschema : SchemaIndex.ofSources sources = .ok around.schema)
  (hoperation : operation ∈ around.schema.operations kind) (hsession : around.Reachable session)
  (hnames : ∀ parameter ∈ accessor.parameters, IsName parameter.name)
  (hstrings : ∀ parameter ∈ accessor.parameters, parameter.IsString)

include hschema hoperation hsession hnames hstrings

/-- The request of a record passes each text in its settled form. -/
theorem parse_of_assemble {record : OperationRecord}
    (hrun : (around.assemble kind owner operation accessor).runOn session =
      (.ok record, session')) :
    (∀ text ∈ accessor.texts, IsStorable text.2) ∧
      ∃ selections, Document.parse record.exampleRequest = .ok (Document.ofStrings kind
        operation.name (ExampleRequest.settledTexts accessor.texts) selections) := by
  have hname : IsName operation.name := SchemaIndex.isName_of_ofSources hschema hoperation
  have hnames' : ∀ text ∈ accessor.texts, IsName text.1 := List.forall_mem_map.2 hnames
  obtain ⟨result, hresult, hcanonical⟩ := canonical_of_assemble hstrings hrun
  obtain ⟨parts, hselection, hparts⟩ := exists_parts_of_resultOf hschema hsession hresult
  obtain ⟨-, hall, -⟩ :=
    (ExampleRequest.canonical_composeTexts_iff hname hnames' hselection hparts).1 hcanonical
  exact ⟨hall, _, ExampleRequest.parse_of_canonical_composeTexts hname hnames' hselection hparts
    hcanonical⟩

/-- With a sample of its result, an accessor has a record exactly if its texts are storable, and
fails otherwise because of the grammar. -/
theorem exists_record_iff (hresult : (around.resultOf operation owner accessor).runOn session =
      (.ok result, session')) :
    ((∃ record, (around.assemble kind owner operation accessor).runOn session =
          (.ok record, session')) ↔
        nesting 0 (lexemesOf (ExampleRequest.composeTexts kind operation.name accessor.texts
          result.2.2).toList) ≤ Reader.maxLevels ∧ ∀ text ∈ accessor.texts, IsStorable text.2) ∧
      ∀ error session'', (around.assemble kind owner operation accessor).runOn session =
          (.error error, session'') →
        ∃ fault text, error = .grammar kind fault text := by
  have hname : IsName operation.name := SchemaIndex.isName_of_ofSources hschema hoperation
  have hnames' : ∀ text ∈ accessor.texts, IsName text.1 := List.forall_mem_map.2 hnames
  obtain ⟨parts, hselection, hparts⟩ := exists_parts_of_resultOf hschema hsession hresult
  have hassemble := runOn_assemble_of_isString kind hstrings hresult
  rcases hrun : (around.assemble kind owner operation accessor).runOn session with
    ⟨error | record, session₁⟩
  all_goals
    rw [hrun] at hassemble
    obtain ⟨hcanonical, rfl⟩ := Prod.mk.inj hassemble
  · refine ⟨iff_of_false (by simp) ?_, ?_⟩
    · rintro ⟨hnesting, hall⟩
      have hok := (ExampleRequest.canonical_composeTexts_iff hname hnames' hselection hparts).2
        ⟨hnesting, hall, rfl⟩
      rw [← hcanonical] at hok
      cases hok
    · rintro _ _ ⟨⟩
      exact ExampleRequest.exists_grammar_of_canonical hcanonical.symm
  · obtain ⟨hnesting, hall, -⟩ :=
      (ExampleRequest.canonical_composeTexts_iff hname hnames' hselection hparts).1
        hcanonical.symm
    refine ⟨iff_of_true ⟨record, rfl⟩ ⟨hnesting, hall⟩, ?_⟩
    rintro _ _ ⟨⟩

end

/-- For a schema that was read, a declared operation, and an accessor whose parameters are strings
with names: the request of a record passes each text in its settled form, which is the text exactly
if it is settled. Once the result has a sample, a request is stored exactly if it does not nest
deeper than can be read and all texts are storable, and it is a fault of the grammar otherwise. -/
theorem stored_texts_are_settled {sources : List (String × String)}
    (hschema : SchemaIndex.ofSources sources = .ok around.schema) {kind : OperationKind}
    {operation : FieldDecl} (hoperation : operation ∈ around.schema.operations kind)
    (hsession : around.Reachable session) {owner : String} {accessor : Accessor}
    (hnames : ∀ parameter ∈ accessor.parameters, IsName parameter.name)
    (hstrings : ∀ parameter ∈ accessor.parameters, parameter.IsString) :
    (∀ record session', (around.assemble kind owner operation accessor).runOn session =
        (.ok record, session') →
      (∀ parameter ∈ accessor.parameters, IsStorable parameter.text) ∧
      ∃ arguments selections, Document.parse record.exampleRequest =
          .ok [.operation kind none [] []
            [.field none operation.name arguments [] selections]] ∧
        List.Forall₂ (fun parameter argument =>
          argument = (parameter.name, .string (settledText parameter.text)) ∧
          (argument = (parameter.name, .string parameter.text) ↔ IsSettled parameter.text))
          accessor.parameters arguments) ∧
    ∀ result session', (around.resultOf operation owner accessor).runOn session =
        (.ok result, session') →
      ((∃ record, (around.assemble kind owner operation accessor).runOn session =
            (.ok record, session')) ↔
          nesting 0 (lexemesOf (ExampleRequest.composeTexts kind operation.name accessor.texts
            result.2.2).toList) ≤ Reader.maxLevels ∧
          ∀ parameter ∈ accessor.parameters, IsStorable parameter.text) ∧
        ∀ error session'', (around.assemble kind owner operation accessor).runOn session =
            (.error error, session'') →
          ∃ fault text, error = .grammar kind fault text := by
  have hstorable : (∀ text ∈ accessor.texts, IsStorable text.2) ↔
      ∀ parameter ∈ accessor.parameters, IsStorable parameter.text := List.forall_mem_map
  constructor
  · intro record session' hrun
    obtain ⟨hall, selections, hparse⟩ :=
      parse_of_assemble hschema hoperation hsession hnames hstrings hrun
    refine ⟨hstorable.1 hall, _, selections, hparse, ?_⟩
    rw [stringArguments, ExampleRequest.settledTexts, Accessor.texts, List.map_map, List.map_map,
      List.forall₂_map_right_iff, List.forall₂_same]
    intro parameter _
    rw [← settledText_eq_self_iff]
    simp
  · intro result session' hresult
    rw [← hstorable]
    exact exists_record_iff hschema hoperation hsession hnames hstrings hresult

/-- Surroundings in which a text is searched for. -/
def search : Surroundings where
  schema :=
    { types := [("Query", [⟨"find", ⟨"String", false, false⟩,
        [("text", ⟨"String", false, false⟩)]⟩])] }
  host := { types := [], distinct := .nil }

/-- The schema of the search as a text. -/
def searchText : String := "type Query \x7b find(text: String): String \x7d"

/-- The operation that searches. -/
def findOperation : FieldDecl :=
  ⟨"find", ⟨"String", false, false⟩, [("text", ⟨"String", false, false⟩)]⟩

/-- The accessor that searches, for a text that ends with a line feed. -/
def findAccessor : Accessor where
  name := "find"
  returns := .plain "String"
  parameters := [⟨"text", .plain "String", { example? := some "a\nb\n" }⟩]

theorem isStorable_of_two_lines : IsStorable "a\nb\n" := by
  have hlayout : HasLayout (lines "a\nb\n".toList) :=
    ⟨by decide, by decide, by decide, by decide⟩
  exact ⟨by decide, hlayout⟩

/-- The text ends with a line feed, which the stored request does not pass. -/
theorem search_text_is_cut :
    SchemaIndex.ofSources [("schema", searchText)] = .ok search.schema ∧
      findOperation ∈ search.schema.operations .query ∧ search.Reachable {} ∧
      (∀ parameter ∈ findAccessor.parameters, IsName parameter.name) ∧
      (∀ parameter ∈ findAccessor.parameters, parameter.IsString ∧ ¬ IsSettled parameter.text) ∧
      ∃ record session', (search.assemble .query "Search" findOperation findAccessor).runOn {} =
          (.ok record, session') ∧
        ∃ selections, Document.parse record.exampleRequest = .ok [.operation .query none [] []
          [.field none "find" [("text", .string "a\nb")] [] selections]] := by
  have hschema : SchemaIndex.ofSources [("schema", searchText)] = .ok search.schema := by rfl
  have hoperation : findOperation ∈ search.schema.operations .query := by decide
  have hnames : ∀ parameter ∈ findAccessor.parameters, IsName parameter.name :=
    List.forall_mem_singleton.2 ⟨'t', ['e', 'x', 't'], rfl, by decide, by decide⟩
  have hstrings : ∀ parameter ∈ findAccessor.parameters, parameter.IsString :=
    List.forall_mem_singleton.2 ⟨"String", .string, rfl, rfl, .inl rfl⟩
  have hunsettled : ∀ parameter ∈ findAccessor.parameters, ¬ IsSettled parameter.text := by
    refine List.forall_mem_singleton.2 fun hsettled => ?_
    have hlines : lines "a\nb\n".toList = splitAt '\n' "a\nb\n".toList := (hsettled rfl).1
    exact absurd hlines (by decide)
  obtain ⟨hsettled, hstored⟩ :=
    stored_texts_are_settled hschema hoperation .fresh hnames hstrings
  obtain ⟨hrecord, -⟩ := hstored _ {} rfl
  obtain ⟨record, hrun⟩ := hrecord.2 ⟨by decide +kernel,
    List.forall_mem_singleton.2 isStorable_of_two_lines⟩
  obtain ⟨-, arguments, selections, hparse, harguments⟩ := hsettled record {} hrun
  obtain ⟨argument, rfl, hargument⟩ : ∃ argument, arguments = [argument] ∧
      argument = ("text", .string "a\nb") := by
    cases harguments with
    | cons hargument hothers =>
      cases hothers
      exact ⟨_, rfl, hargument.1⟩
  rw [hargument] at hparse
  exact ⟨hschema, hoperation, .fresh, hnames,
    fun parameter hparameter => ⟨hstrings parameter hparameter, hunsettled parameter hparameter⟩,
    record, {}, hrun, selections, hparse⟩

end Surroundings

end OperationAtlas
