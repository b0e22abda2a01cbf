import OperationAtlas.Proofs.Catalog.Records
import OperationAtlas.Proofs.Graphql.Splicing
import OperationAtlas.Proofs.Sample.Stored

/-!
# Requests in a catalog

Every record of a catalog was assembled from an accessor of the host model, in a session to which no
failing call led (`Catalog.exists_records`). Its request was composed of texts that nothing checks
one by one: the names of parameters, numbers and variants of enumerations are spliced in as they
are. What is checked is the composed text as a whole, and so a text may bring along arguments,
selections and even definitions of its own (`top_request_has_another_argument`).

What a stored request asks for is exactly what the composed text asks for: printing neither adds nor
drops a definition, a field at the root or an argument of such a field. If the names of the
parameters are names and the brackets of each literal match, then that is the operation of the
record and nothing else exactly if each literal is one value (`stored_requests_iff`).
-/

namespace OperationAtlas

open Graphql

/-! ## Spliced literals -/

/-- A text of lexemes whose brackets match. -/
def IsBalancedText (text : String) : Prop :=
  ∃ used, Spells text.toList used ∧ Balanced used

/-- A text of one value. -/
def IsOneValue (text : String) : Prop :=
  ∃ used levels v, Spells text.toList used ∧ Value.Derives false levels used v

section Compose

variable {kind : OperationKind} {name : String} {α : Type} {argumentName text : α → String}
  {xs : List α}
  {selection : Option String} {parts : List (List Lexeme × Selection)} {document : Document}

/-- A composed request that is read asks for its arguments and nothing else exactly if each literal
is one value. -/
theorem requests_compose_iff (hname : IsName name) (hnames : ∀ x ∈ xs, IsName (argumentName x))
    (hbalanced : ∀ x ∈ xs, IsBalancedText (text x)) (hselection : SpellsSelection selection parts)
    (hparts : ∀ part ∈ parts, IsField part.1 part.2)
    (hparse : Document.parse (ExampleRequest.compose kind name
      (xs.map fun x => argumentName x ++ ": " ++ text x) selection) = .ok document) :
    document.Requests kind name (xs.map argumentName) ↔ ∀ x ∈ xs, IsOneValue (text x) := by
  generalize hrequest : ExampleRequest.compose kind name
    (xs.map fun x => argumentName x ++ ": " ++ text x) selection = request at hparse
  have hderives := Document.parse_eq_ok_iff.1 hparse
  constructor
  · intro hrequests
    choose! lexemes hspells hmatch using hbalanced
    have hwhole := spells_compose (fun _ => Value.null) kind hname hnames hspells hselection
    rw [hrequest] at hwhole
    have hbad : .bad ∉ operationLexemes kind (rootParts name
        (xs.map fun x => (lexemes x, argumentName x, Value.null)) parts) := by
      have hread := hderives.bad_not_mem
      rwa [hwhole.lexemesOf_eq, bad_mem_untilBad] at hread
    rw [hwhole.lexemesOf_eq_self hbad] at hderives
    intro x hx
    obtain ⟨levels, v, hvalue⟩ := hderives.forall_value_of_requests (List.forall_mem_map.2 hmatch)
      hrequests (by simp) _ (List.mem_map_of_mem hx)
    exact ⟨lexemes x, levels, v, hspells x hx, hvalue⟩
  · intro hvalues
    choose! lexemes levels value hspells hvalue using hvalues
    obtain ⟨-, hread⟩ := parse_compose value kind hname hnames hspells
      (fun x hx l hl hbad => (hvalue x hx).bad_not_mem (hbad ▸ hl)) (fun x hx => (hvalue x hx).fits)
      hselection hparts hrequest.symm hderives.nesting_le
    rw [hparse] at hread
    cases hread
    exact ⟨none, [], [], none, _, [], _, rfl, by simp [Function.comp_def]⟩

end Compose

/-! ## Records of a catalog -/

namespace Catalog

/-- The document of a stored request has one operation of the kind of its group with one field at
the root, of the record's name and with the parameters of the record for arguments, exactly if this
holds of the text that was composed. That text holds the literals that pass the parameters as they
are. If the parameters have names for their names and the brackets of each literal match, then it is
so exactly if each literal is one value. -/
theorem stored_requests_iff {sources : List (String × String)} {schema : SchemaIndex}
    (hschema : SchemaIndex.ofSources sources = .ok schema) {model : HostModel} {catalog : Catalog}
    (hbuild : build schema model = .ok catalog) {key : String} {group : OperationGroup}
    (hgroup : (key, group) ∈ catalog.groups) {record : OperationRecord}
    (hrecord : record ∈ group.operations) :
    ∃ host source accessor operation before after, HostTypes.ofModel model = .ok host ∧
      source ∈ model.groups ∧ groupKey source.key = key ∧
      (Surroundings.mk schema host).Records source accessor operation before after record ∧
      record.name = operation.name ∧
      record.parameters.map (·.name) = accessor.parameters.map (·.name) ∧
      ∃ passed selection, (Surroundings.mk schema host).Composes source.typeName operation accessor
          before passed selection after ∧
        ∃ loose stored,
          Document.parse (Surroundings.requestText source.kind operation passed selection) =
            .ok loose ∧
          Document.parse record.exampleRequest = .ok stored ∧
          (stored.Requests source.kind record.name (record.parameters.map (·.name)) ↔
            loose.Requests source.kind record.name (record.parameters.map (·.name))) ∧
          ((∀ pair ∈ passed, IsName pair.1.name ∧ IsBalancedText pair.2) →
            (stored.Requests source.kind record.name (record.parameters.map (·.name)) ↔
              ∀ pair ∈ passed, IsOneValue pair.2)) := by
  obtain ⟨host, source, accessor, operation, before, after, hhost, hsource, hkey, hrecords⟩ :=
    exists_records hbuild hgroup hrecord
  obtain ⟨passed, selection, hcomposes, hcanonical, hdocuments⟩ :=
    Surroundings.exists_composes_of_assemble hrecords.clean hrecords.runs
  obtain ⟨loose, stored, hloose, htext, hstored, -⟩ :=
    ExampleRequest.canonical_eq_ok_iff.1 hcanonical
  have hsame : ∀ names, stored.Requests source.kind record.name names ↔
      loose.Requests source.kind record.name names := by
    intro names
    rw [Document.requests_iff_outline, Document.requests_iff_outline,
      Document.outline_of_parse_text hloose (htext ▸ hstored)]
  refine ⟨host, source, accessor, operation, before, after, hhost, hsource, hkey, hrecords,
    hdocuments.name, hdocuments.parameters, passed, selection, hcomposes, loose, stored, hloose,
    hstored, hsame _, fun hpassed => ?_⟩
  obtain ⟨parts, hselection, hparts⟩ := hcomposes.exists_parts hrecords.clean hschema
  have hname : IsName operation.name :=
    SchemaIndex.isName_of_ofSources hschema hrecords.operation_mem
  have hnames : record.parameters.map (·.name) = passed.map (·.1.name) := by
    rw [hdocuments.parameters, ← hcomposes.parameters, List.map_map]
    rfl
  rw [hsame, hdocuments.name, hnames]
  exact requests_compose_iff hname (fun pair hpair => (hpassed pair hpair).1)
    (fun pair hpair => (hpassed pair hpair).2) hselection hparts hloose

/-- A schema with one query. -/
def topSchema : SchemaIndex where
  types := [("Query", [⟨"top", ⟨"String", false, false⟩, [("count", ⟨"Int", false, false⟩)]⟩])]

/-- The parameter of a query, with a number and another argument for an example. -/
def topCount : Member :=
  ⟨"count", .plain "i32", { example? := some "1, extra: 2" }⟩

/-- A host with one accessor. -/
def topModel : HostModel where
  groups := [{
    typeName := "Ranking"
    kind := .query
    key := "Ranking"
    accessors := [{ name := "top", returns := .plain "String", parameters := [topCount] }] }]

/-- The record of the accessor. -/
def topRecord : OperationRecord where
  description := ""
  operation := ""
  name := "top"
  methodName := "top"
  outputName := "String"
  parameters := [⟨"count", "Int", "1, extra: 2", "", false⟩]
  exampleRequest := "query \x7b\n  top(count: 1, extra: 2)\n\x7d\n"
  exampleResponse := "\x7b\n  \"data\": \x7b\n    \"top\": \"\"\n  \x7d\n\x7d"
  accessNote := none

/-- The catalog of the schema and the host. -/
def topCatalog : Catalog where
  groups := [("Ranking", ⟨"", "Ranking", [topRecord]⟩)]

theorem spells_topCount :
    Spells "1, extra: 2".toList [.int 1, .name "extra", .punct ':', .int 2] := by
  have hextra : IsName "extra" := by decide
  have hone : Spells ['1'] [.int 1] := Spells.int (⟨by decide, by decide⟩ : IsWord 1)
  have htwo : Spells ['2'] [.int 2] := Spells.int (⟨by decide, by decide⟩ : IsWord 2)
  have hargument := (Spells.name hextra).append (.punct (c := ':') (by decide) (.blank htwo))
    (endsWord_cons.2 rfl)
  exact hone.append (.comma (.blank hargument)) (endsWord_cons.2 rfl)

theorem not_isOneValue_topCount : ¬ IsOneValue "1, extra: 2" := by
  rintro ⟨used, levels, v, hspells, hvalue⟩
  have hused : lexemesOf "1, extra: 2".toList = used := hspells.lexemesOf_eq_self hvalue.bad_not_mem
  rw [spells_topCount.lexemesOf_eq_self (by simp)] at hused
  subst hused
  cases hvalue

/-- The stored request of a query with one parameter has two arguments if the example of the
parameter brings along another one. -/
theorem top_request_has_another_argument :
    SchemaIndex.ofSources [("schema", "type Query \x7b top(count: Int): String \x7d")] =
      .ok topSchema ∧
      build topSchema topModel = .ok topCatalog ∧
      ("Ranking", ⟨"", "Ranking", [topRecord]⟩) ∈ topCatalog.groups ∧
      ∃ stored, Document.parse topRecord.exampleRequest = .ok stored ∧
        stored.Requests .query "top" ["count", "extra"] ∧
        ¬ stored.Requests .query topRecord.name (topRecord.parameters.map (·.name)) := by
  have hschema :
      SchemaIndex.ofSources [("schema", "type Query \x7b top(count: Int): String \x7d")] =
        .ok topSchema := by
    rfl
  have hbuild : build topSchema topModel = .ok topCatalog := by decide +kernel
  have hgroup : ("Ranking", ⟨"", "Ranking", [topRecord]⟩) ∈ topCatalog.groups := List.mem_cons_self
  obtain ⟨host, source, accessor, operation, before, after, -, hsource, -, hrecords, -, -, passed,
    selection, hcomposes, loose, stored, -, hstored, -, hbalanced⟩ :=
    stored_requests_iff hschema hbuild hgroup (List.mem_cons_self : topRecord ∈ [topRecord])
  obtain rfl := List.mem_singleton.1 hsource
  obtain rfl := List.mem_singleton.1 hrecords.mem
  obtain ⟨⟨parameter, literal⟩, rfl, hparameter⟩ := List.map_eq_singleton_iff.1 hcomposes.parameters
  obtain rfl : parameter = topCount := hparameter
  have hliteral : literal = "1, extra: 2" := by
    have hleaf : host.kind (.plain "i32") = .ok (.leaf (.scalar .integer)) := rfl
    have hpasses : (Surroundings.mk topSchema host).Passes after topCount literal :=
      hcomposes.passes _ List.mem_cons_self
    cases hpasses with
    | leaf hunwrap hkind =>
      cases hunwrap
      rw [hleaf] at hkind
      cases hkind
      rfl
    | object hunwrap hkind =>
      cases hunwrap
      exact absurd hleaf (hkind _)
  have hname : IsName topCount.name := ⟨'c', ['o', 'u', 'n', 't'], rfl, by decide, by decide⟩
  have hcondition : ∀ pair ∈ [(topCount, literal)], IsName pair.1.name ∧ IsBalancedText pair.2 := by
    rw [List.forall_mem_singleton, hliteral]
    exact ⟨hname, _, spells_topCount, rfl⟩
  refine ⟨hschema, hbuild, hgroup, stored, hstored, ?_, fun hrequests => ?_⟩
  · have hread : Document.parse topRecord.exampleRequest = .ok [.operation .query none [] []
        [.field none "top" [("count", .int 1), ("extra", .int 2)] [] []]] := by rfl
    rw [hread] at hstored
    cases hstored
    exact ⟨none, [], [], none, _, [], [], rfl, rfl⟩
  · have hvalue := (hbalanced hcondition).1 hrequests _ List.mem_cons_self
    exact not_isOneValue_topCount (hliteral ▸ hvalue)

end Catalog

end OperationAtlas
