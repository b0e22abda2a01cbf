import OperationAtlas.Proofs.Sample.Assembly
import OperationAtlas.Proofs.Sample.Literals

/-!
# Stored requests

A record stores the canonical form of a composed request. `ExampleRequest.canonical_eq_ok_iff` says
what that is, and `spells_compose` what the composed text is read as: one operation with one field,
provided that each literal is one value.

If the host has allowed examples only, then nothing that is composed changes when it is printed, and
so the stored request says what was composed (`request_says_what_was_composed`). The only condition
beyond that is that brackets do not nest deeper than can be read.
-/

namespace OperationAtlas

open Graphql

namespace ExampleRequest

variable {kind : OperationKind} {text request : String}

/-- The canonical form of a text is its printed document, which reads back. -/
theorem canonical_eq_ok_iff :
    canonical kind text = .ok request ↔
      ∃ document again, Document.parse text = .ok document ∧ request = document.text ∧
        Document.parse request = .ok again ∧ again.text = request := by
  unfold canonical
  cases hdocument : Document.parse text with
  | error position => simp
  | ok document =>
    dsimp only
    cases hagain : Document.parse document.text with
    | error position =>
      refine ⟨nofun, ?_⟩
      rintro ⟨document', again, hsame, rfl, hread, -⟩
      cases hsame
      rw [hagain] at hread
      cases hread
    | ok again =>
      dsimp only
      split
      · next hprinted =>
        constructor
        · rintro ⟨⟩
          exact ⟨document, again, rfl, rfl, hagain, hprinted⟩
        · rintro ⟨document', again', hsame, rfl, -, -⟩
          cases hsame
          rfl
      · next hprinted =>
        refine ⟨nofun, ?_⟩
        rintro ⟨document', again', hsame, rfl, hread, hsame'⟩
        cases hsame
        rw [hagain] at hread
        cases hread
        exact absurd hsame' hprinted

/-- A text without a canonical form is a fault of the grammar. -/
theorem exists_grammar_of_canonical {error : DocError} (h : canonical kind text = .error error) :
    ∃ fault written, error = .grammar kind fault written := by
  unfold canonical at h
  cases hdocument : Document.parse text with
  | error position =>
    rw [hdocument] at h
    cases h
    exact ⟨_, _, rfl⟩
  | ok document =>
    rw [hdocument] at h
    dsimp only at h
    split at h
    · cases h
      exact ⟨_, _, rfl⟩
    · split at h
      · cases h
      · cases h
        exact ⟨_, _, rfl⟩

theorem not_isModelFault_of_canonical {error : DocError} (h : canonical kind text = .error error) :
    ¬ error.IsModelFault := by
  obtain ⟨fault, written, rfl⟩ := exists_grammar_of_canonical h
  rintro ⟨⟩

/-- A faithful text has a canonical form, which says the same. -/
theorem exists_canonical {document : Document} (h : Document.parse text = .ok document)
    (hfaithful : ∀ l ∈ lexemesOf text.toList, l.IsFaithful)
    (hkeeps : ∀ definition ∈ document, definition.KeepsVariables) (kind : OperationKind) :
    ∃ request, canonical kind text = .ok request ∧ Document.parse request = .ok document := by
  have hagain := Document.parse_text (Document.parse_eq_ok_iff.1 h) isValid_of_mem_lexemesOf
    hfaithful
    hkeeps
  exact ⟨document.text, canonical_eq_ok_iff.2 ⟨document, document, h, rfl, hagain, rfl⟩, hagain⟩

end ExampleRequest

/-! ## Composed requests -/

/-- The text of selections, if there are any. -/
def SpellsSelection (selection : Option String) (parts : List (List Lexeme × Selection)) : Prop :=
  match selection with
  | none => parts = []
  | some text => parts ≠ [] ∧ Spells text.toList (parts.flatMap (·.1))

section Compose

variable {name : String} {α : Type} {argumentName text : α → String} {lexemes : α → List Lexeme}
  (value : α → Value) {xs : List α}

/-- Arguments in parentheses, if there are any. -/
theorem spells_arguments (hnames : ∀ x ∈ xs, IsName (argumentName x))
    (h : ∀ x ∈ xs, Spells (text x).toList (lexemes x)) {rest : List Char} {used : List Lexeme}
    (hrest : Spells rest used) (hends : EndsWord rest) {arguments : List String}
    (harguments : arguments = xs.map fun x => argumentName x ++ ": " ++ text x) :
    let written := if arguments.isEmpty then "" else "(" ++ ", ".intercalate arguments ++ ")"
    Spells (written.toList ++ rest)
      (argumentLexemes (xs.map fun x => (lexemes x, argumentName x, value x)) ++ used) ∧
    EndsWord (written.toList ++ rest) := by
  subst harguments
  by_cases hne : xs = []
  · subst hne
    exact ⟨hrest, hends⟩
  · have hclosing := Spells.punct (c := ')') (by decide) hrest
    have hopening := Spells.punct (c := '(') (by decide)
      ((spells_fields value hnames h).append hclosing (endsWord_cons.2 rfl))
    exact ⟨by simpa [argumentLexemes, hne] using hopening, by simp [hne, endsNumber, punctuation]⟩

/-- Selections in braces, if there are any. -/
theorem spells_selection {selection : Option String} {parts : List (List Lexeme × Selection)}
    (h : SpellsSelection selection parts) {rest : List Char} {used : List Lexeme}
    (hrest : Spells rest used) (hends : EndsWord rest) :
    let written := match selection with
      | some selection => " \x7b\n" ++ selection ++ "\n\x7d"
      | none => ""
    Spells (written.toList ++ rest)
      ((if parts.isEmpty then [] else Selection.blockLexemes parts) ++ used) ∧
    EndsWord (written.toList ++ rest) := by
  cases selection with
  | none =>
    obtain rfl : parts = [] := h
    exact ⟨hrest, hends⟩
  | some text =>
    obtain ⟨hne, htext⟩ := h
    have hclosing := Spells.feed (.punct (c := '\x7d') (by decide) hrest)
    have hblock := Spells.blank (.punct (c := '\x7b') (by decide)
      (.feed (htext.append hclosing (endsWord_cons.2 rfl))))
    exact ⟨by simpa [Selection.blockLexemes, hne] using hblock, by simp [endsNumber, punctuation]⟩

/-- A composed request is one operation with one field, if its literals are values. -/
theorem spells_compose (kind : OperationKind) (hname : IsName name)
    (hnames : ∀ x ∈ xs, IsName (argumentName x))
    (h : ∀ x ∈ xs, Spells (text x).toList (lexemes x)) {selection : Option String}
    {parts : List (List Lexeme × Selection)} (hselection : SpellsSelection selection parts) :
    Spells
      (ExampleRequest.compose kind name (xs.map fun x => argumentName x ++ ": " ++ text x)
        selection).toList
      (operationLexemes kind (rootParts name
        (xs.map fun x => (lexemes x, argumentName x, value x)) parts)) := by
  have hclosing : Spells ['\n', '\x7d', '\n'] [.punct '\x7d'] :=
    .feed (.punct (by decide) (.feed .nil))
  obtain ⟨hblock, hends⟩ := spells_selection hselection hclosing (endsWord_cons.2 rfl)
  obtain ⟨harguments, hends⟩ := spells_arguments value hnames h hblock hends rfl
  have hfield := (Spells.name hname).append harguments hends
  have hoperation := Spells.word (isName_keyword kind)
    (.punct (c := '\x7b') (by decide) (.feed hfield))
  cases selection <;>
    simpa [ExampleRequest.compose, operationLexemes, Selection.blockLexemes, Selection.fieldLexemes]
      using hoperation

/-- A composed request that does not nest too deep is read as one operation with one field, with its
literals as values and its selection as selections. -/
theorem parse_compose (kind : OperationKind) (hname : IsName name)
    (hnames : ∀ x ∈ xs, IsName (argumentName x))
    (h : ∀ x ∈ xs, Spells (text x).toList (lexemes x)) (hread : ∀ x ∈ xs, ∀ l ∈ lexemes x, l ≠ .bad)
    (hfits : ∀ x ∈ xs, Value.Fits (lexemes x) (value x)) {selection : Option String}
    {parts : List (List Lexeme × Selection)} (hselection : SpellsSelection selection parts)
    (hparts : ∀ part ∈ parts, IsField part.1 part.2)
    {request : String} (hrequest : request = ExampleRequest.compose kind name
      (xs.map fun x => argumentName x ++ ": " ++ text x) selection)
    (hnesting : nesting 0 (lexemesOf request.toList) ≤ Reader.maxLevels) :
    lexemesOf request.toList = operationLexemes kind (rootParts name
        (xs.map fun x => (lexemes x, argumentName x, value x)) parts) ∧
      Document.parse request = .ok [.operation kind none [] [] [.field none name
        (xs.map fun x => (argumentName x, value x)) [] (parts.map (·.2))]] := by
  have hspells := spells_compose value kind hname hnames h hselection
  rw [← hrequest] at hspells
  have hroot := Document.parse_of_spells (by simp) hspells
    (List.forall_mem_singleton.2 (forall_mem_fieldLexemes (by simp) (by simp)
      (List.forall_mem_map.2 hread) fun part hpart => (hparts part hpart).ne_bad))
    (fits_rootParts name (List.forall_mem_map.2 hfits) fun part hpart => (hparts part hpart).fits)
    hnesting
  refine ⟨hroot.1, ?_⟩
  rw [hroot.2]
  simp [Function.comp_def]

end Compose

namespace Surroundings

variable {around : Surroundings} {session session' : Session}

/-- A literal that passes a parameter writes a value. -/
theorem Passes.writesValue {sources : List (String × String)} (h : around.Reachable session)
    (hschema : SchemaIndex.ofSources sources = .ok around.schema)
    (hhost : around.host.AllowsExamples) {parameter : Member}
    (hparameter : around.host.AllowsExample parameter) {literal : String}
    (hpasses : around.Passes session parameter literal) :
    ∃ used v, WritesValue literal used v := by
  cases hpasses with
  | @leaf element depth leaf hunwrap hkind =>
    obtain ⟨used, v, hwrites⟩ := hhost.writesValue hparameter hunwrap hkind
    exact (hwrites.nest depth).imp fun _ hnested => ⟨_, hnested⟩
  | @object element depth sample hunwrap _ hsample =>
    obtain ⟨used, v, hwrites⟩ :=
      h.argument_writesValue hschema hhost _ (OrderedMap.mem_of_lookup hsample)
    exact (hwrites.nest depth).imp fun _ hnested => ⟨_, hnested⟩

/-- The selection of a sample writes fields, and so does no selection. -/
theorem Reachable.exists_parts {sources : List (String × String)} (h : around.Reachable session)
    (hschema : SchemaIndex.ofSources sources = .ok around.schema) {selection : Option String}
    (hselection : ∀ text, selection = some text →
      ∃ name sample, session.sample? name = some sample ∧ text = sample.selection) :
    ∃ parts, SpellsSelection selection parts ∧ ∀ part ∈ parts, IsField part.1 part.2 := by
  cases selection with
  | none => exact ⟨[], rfl, nofun⟩
  | some text =>
    obtain ⟨name, sample, hsample, rfl⟩ := hselection text rfl
    obtain ⟨selections, tree, ⟨parts, hne, -, hspells, hparts⟩, -, -⟩ :=
      h.mirrors hschema _ (OrderedMap.mem_of_lookup hsample)
    exact ⟨parts, ⟨hne, hspells⟩, hparts⟩

/-- The selection of a composed request writes fields. -/
theorem Composes.exists_parts {sources : List (String × String)} {owner : String}
    {operation : FieldDecl} {accessor : Accessor} {passed : List (Member × String)}
    {selection : Option String} (h : around.ReachableCleanly session)
    (hschema : SchemaIndex.ofSources sources = .ok around.schema)
    (hcomposes : around.Composes owner operation accessor session passed selection session') :
    ∃ parts, SpellsSelection selection parts ∧ ∀ part ∈ parts, IsField part.1 part.2 :=
  (hcomposes.reachableCleanly h).reachable.exists_parts hschema fun _ htext =>
    hcomposes.exists_sample h htext

/-- For a schema that was read, a declared operation, and a host and parameters with allowed
examples: if no call failed before and the host model is not to blame, a request is composed. If it
does not nest deeper than can be read, then it is stored, and the stored request is one operation of
the kind with one field of the operation's name, whose arguments are the parameters in order with
the values of the composed literals, and whose selections are those of the stored selection. -/
theorem request_says_what_was_composed {sources : List (String × String)}
    (hschema : SchemaIndex.ofSources sources = .ok around.schema) {kind : OperationKind}
    {operation : FieldDecl} (hoperation : operation ∈ around.schema.operations kind)
    (hsession : around.ReachableCleanly session) {owner : String} {accessor : Accessor}
    (hnames : ∀ parameter ∈ accessor.parameters, IsName parameter.name)
    (hhost : around.host.AllowsExamples)
    (hparameters : ∀ parameter ∈ accessor.parameters, around.host.AllowsExample parameter)
    (hfault : ∀ error session', (around.assemble kind owner operation accessor).runOn session =
      (.error error, session') → ¬ error.IsModelFault) :
    ∃ passed selection session',
      around.Composes owner operation accessor session passed selection session' ∧
      (nesting 0 (lexemesOf (requestText kind operation passed selection).toList) ≤
          Reader.maxLevels →
        ∃ record arguments selections,
          (around.assemble kind owner operation accessor).runOn session = (.ok record, session') ∧
          Documents operation accessor selection session' record ∧
          Document.parse record.exampleRequest = .ok [.operation kind none [] []
            [.field none operation.name arguments [] selections]] ∧
          List.Forall₂ (fun pair argument => argument.1 = pair.1.name ∧
            Value.read false Reader.maxLevels (lexemesOf pair.2.toList) = .ok (argument.2, []))
            passed arguments ∧
          (selection = none → selections = []) ∧
          ∀ text, selection = some text →
            Document.parse ("query \x7b" ++ text ++ "\x7d") =
              .ok [.operation .query none [] [] selections]) := by
  obtain ⟨passed, selection, session', hcomposes⟩ := exists_composes hsession hfault
  refine ⟨passed, selection, session', hcomposes, fun hnesting => ?_⟩
  have hclean := hcomposes.reachableCleanly hsession
  have hname : IsName operation.name := SchemaIndex.isName_of_ofSources hschema hoperation
  have hparameter : ∀ pair ∈ passed, pair.1 ∈ accessor.parameters := fun pair hpair =>
    hcomposes.parameters ▸ List.mem_map_of_mem hpair
  have hliterals : ∀ pair ∈ passed, ∃ used v, WritesValue pair.2 used v := fun pair hpair =>
    (hcomposes.passes pair hpair).writesValue hclean.reachable hschema hhost
      (hparameters _ (hparameter pair hpair))
  choose! lexemes value hwrites using hliterals
  obtain ⟨parts, hspells, hparts⟩ := hcomposes.exists_parts hsession hschema
  obtain ⟨hlexemes, hparse⟩ := parse_compose value kind hname
    (fun pair hpair => hnames _ (hparameter pair hpair))
    (fun pair hpair => (hwrites pair hpair).spells)
    (fun pair hpair => (hwrites pair hpair).ne_bad) (fun pair hpair => (hwrites pair hpair).fits)
    hspells hparts (rfl : requestText kind operation passed selection = _) hnesting
  have hfaithful : ∀ l ∈ lexemesOf (requestText kind operation passed selection).toList,
      l.IsFaithful := by
    rw [hlexemes]
    exact forall_mem_operationLexemes (fun _ => trivial) (fun _ => trivial)
      (List.forall_mem_singleton.2 (forall_mem_fieldLexemes (fun _ => trivial) (fun _ => trivial)
        (List.forall_mem_map.2 fun pair hpair => (hwrites pair hpair).faithful)
        fun part hpart => (hparts part hpart).faithful))
  obtain ⟨request, hcanonical, hstored⟩ := ExampleRequest.exists_canonical hparse hfaithful
    (List.forall_mem_singleton.2 (.inl rfl)) kind
  obtain ⟨record, hrun, rfl, hdocuments⟩ := hcomposes.exists_record hsession hcanonical
  rw [hlexemes] at hnesting
  obtain ⟨hshallow, hblock⟩ := nesting_rootParts
    (List.forall_mem_map.2 fun pair hpair => (hwrites pair hpair).fits) hnesting
  refine ⟨record, _, _, hrun, hdocuments, hstored, ?_, ?_, ?_⟩
  · rw [List.forall₂_map_right_iff, List.forall₂_same]
    exact fun pair hpair => ⟨rfl, (hwrites pair hpair).read
      (hshallow _ (List.mem_map_of_mem (f := fun x => (lexemes x, x.1.name, value x)) hpair))⟩
  · rintro rfl
    exact congrArg _ hspells
  · rintro text rfl
    obtain ⟨hne, htext⟩ := hspells
    refine parse_fields hne htext hparts ?_
    rw [(spells_query htext).lexemesOf_eq_self fun hbad => ?_]
    · exact hblock hne
    · exact forall_mem_operationLexemes (P := (· ≠ .bad)) (by simp) (by simp)
        (fun part hpart => (hparts part hpart).ne_bad) _ hbad rfl

/-- A shop whose orders are found by a filter, an object with a list of states and a limit. -/
def shop : Surroundings where
  schema :=
    { types := [
        ("Query", [⟨"orders", ⟨"Order", true, true⟩,
          [("filter", ⟨"OrderFilter", false, false⟩), ("note", ⟨"String", false, false⟩)]⟩]),
        ("Order", [⟨"id", ⟨"ID", true, false⟩, []⟩,
          ⟨"filter", ⟨"OrderFilter", false, false⟩, []⟩]),
        ("OrderFilter", [⟨"states", ⟨"State", false, true⟩, []⟩,
          ⟨"limit", ⟨"Int", false, false⟩, []⟩])] }
  host :=
    { types := [
        ⟨"Order", none, none, .object [⟨"id", .plain "Id", {}⟩,
          ⟨"filter", .plain "OrderFilter", {}⟩]⟩,
        ⟨"OrderFilter", none, none, .object [⟨"states", .list "Vec" [.plain "State"], {}⟩,
          ⟨"limit", .plain "i64", { example? := some "-9223372036854775808" }⟩]⟩,
        ⟨"State", none, none, .enumeration ["OPEN", "CLOSED"]⟩]
      distinct := by decide }

/-- The schema of the shop as a text. -/
def shopText : String :=
  "type Query \x7b orders(filter: OrderFilter note: String): [Order!] \x7d " ++
    "type Order \x7b id: ID! filter: OrderFilter \x7d " ++
    "input OrderFilter \x7b states: [State] limit: Int \x7d"

set_option maxRecDepth 2000 in
theorem ofSources_shopText : SchemaIndex.ofSources [("schema", shopText)] = .ok shop.schema := by
  rfl

theorem shop_allowsExamples : shop.host.AllowsExamples where
  variants := by
    have hopen : IsName "OPEN" := by decide
    simp [shop, hopen]
  fields := by
    have hnumber : ∃ value : Int, IsWord value ∧ "-9223372036854775808" = toString value :=
      ⟨-9223372036854775808, ⟨by decide, by decide⟩, rfl⟩
    have hlimit : shop.host.AllowsExample
        ⟨"limit", .plain "i64", { example? := some "-9223372036854775808" }⟩ :=
      HostTypes.allowsExample_of_leaf (.scalar .integer) rfl rfl (by
        rintro _ ⟨⟩
        exact hnumber)
    simp only [shop, List.forall_mem_cons, HostShape.fields, List.not_mem_nil, IsEmpty.forall_iff,
      implies_true, and_true]
    exact ⟨⟨HostTypes.allowsExample_of_none rfl, HostTypes.allowsExample_of_none rfl⟩,
      HostTypes.allowsExample_of_none rfl, hlimit⟩

/-- The accessor of orders, with a note that has to be escaped. -/
def shopAccessor : Accessor where
  name := "orders"
  returns := .list "Vec" [.plain "Order"]
  parameters := [⟨"filter", .plain "OrderFilter", {}⟩,
    ⟨"note", .plain "String", { example? := some "say \"hi\"\t\\" }⟩]

/-- The operation of orders. -/
def shopOperation : FieldDecl :=
  ⟨"orders", ⟨"Order", true, true⟩,
    [("filter", ⟨"OrderFilter", false, false⟩), ("note", ⟨"String", false, false⟩)]⟩

theorem shopAccessor_allowsExample :
    ∀ parameter ∈ shopAccessor.parameters, shop.host.AllowsExample parameter := by
  have hnote : shop.host.AllowsExample
      ⟨"note", .plain "String", { example? := some "say \"hi\"\t\\" }⟩ :=
    HostTypes.allowsExample_of_leaf (.scalar .string) rfl rfl (by
      rintro _ ⟨⟩
      exact List.all_iff_forall_prop.1 (by decide))
  rw [shopAccessor, List.forall_mem_cons, List.forall_mem_singleton]
  exact ⟨HostTypes.allowsExample_of_none rfl, hnote⟩

/-- The session after the filter has been walked on its own. -/
def shopSession : Session :=
  (((Call.synthesize shopOperation "OrderFilter" (.nested "OrderFilter")).step shop).runOn {}).2

/-- The composed request for orders. -/
def shopLoose : String :=
  "query \x7b\norders(filter: \x7b states: [OPEN], limit: -9223372036854775808 \x7d, " ++
    "note: \"say \\\"hi\\\"\\t\\\\\") \x7b\nid\nfilter \x7b\nstates\nlimit\n\x7d\n\x7d\n\x7d\n"

/-- The request for orders is stored. Its filter is an object with a list and the least number, and
its note has quotation marks, a tab and a backslash. -/
theorem shop_request_says_what_was_composed :
    SchemaIndex.ofSources [("schema", shopText)] = .ok shop.schema ∧
      shopOperation ∈ shop.schema.operations .query ∧ shop.ReachableCleanly shopSession ∧
      (∀ parameter ∈ shopAccessor.parameters, IsName parameter.name) ∧ shop.host.AllowsExamples ∧
      (∀ parameter ∈ shopAccessor.parameters, shop.host.AllowsExample parameter) ∧
      ∃ passed selection session',
        shop.Composes "Shop" shopOperation shopAccessor shopSession passed selection session' ∧
        requestText .query shopOperation passed selection = shopLoose ∧
        ∃ record arguments selections,
          (shop.assemble .query "Shop" shopOperation shopAccessor).runOn shopSession =
            (.ok record, session') ∧
          Documents shopOperation shopAccessor selection session' record ∧
          Document.parse record.exampleRequest = .ok [.operation .query none [] []
            [.field none "orders" arguments [] selections]] ∧
          List.Forall₂ (fun pair argument => argument.1 = pair.1.name ∧
            Value.read false Reader.maxLevels (lexemesOf pair.2.toList) = .ok (argument.2, []))
            passed arguments := by
  have hoperation : shopOperation ∈ shop.schema.operations .query := by decide
  have hclean : shop.ReachableCleanly shopSession :=
    .call .fresh (.synthesize shopOperation "OrderFilter" (.nested "OrderFilter")) rfl
  have hnames : ∀ parameter ∈ shopAccessor.parameters, IsName parameter.name := by
    rw [shopAccessor, List.forall_mem_cons, List.forall_mem_singleton]
    exact ⟨⟨'f', ['i', 'l', 't', 'e', 'r'], rfl, by decide, by decide⟩,
      ⟨'n', ['o', 't', 'e'], rfl, by decide, by decide⟩⟩
  have hloose : ((shop.loose .query "Shop" shopOperation shopAccessor).runOn shopSession).1 =
      .ok shopLoose := by decide +kernel
  obtain ⟨passed, selection, session', hcomposes, hstored⟩ :=
    request_says_what_was_composed ofSources_shopText hoperation hclean hnames shop_allowsExamples
      shopAccessor_allowsExample fun error session'
        (herror : (shop.assemble .query "Shop" shopOperation shopAccessor).runOn shopSession =
          (.error error, session')) =>
        ExampleRequest.not_isModelFault_of_canonical (runOn_assemble_eq_error hloose herror)
  have htext : requestText .query shopOperation passed selection = shopLoose := by
    rw [hcomposes.runOn_loose] at hloose
    exact Except.ok.inj hloose
  rw [htext] at hstored
  obtain ⟨record, arguments, selections, hrun, hdocuments, hparse, hvalues, -⟩ :=
    hstored (by decide +kernel)
  exact ⟨ofSources_shopText, hoperation, hclean, hnames, shop_allowsExamples,
    shopAccessor_allowsExample, passed, selection, session', hcomposes, htext, record, arguments,
    selections, hrun, hdocuments, hparse, hvalues⟩

end Surroundings

end OperationAtlas
