import OperationAtlas.Proofs.Catalog.Records
import OperationAtlas.Proofs.Json.Reading
import OperationAtlas.Proofs.Session.Depth

/-!
# Example responses

The example response of a record is the text of a value: under `data`, under the name of the
operation, the example value of the type that the accessor returns, in as many lists as the accessor
returns it in (`Surroundings.Records.exampleResponse`). That text is read back as this value whatever
its strings hold (`Catalog.responses_are_read_back`).

What may be lost is a double. Doubles only come from example texts of numbers, so the condition is
about the example texts that the response shows (`Surroundings.ShowsNumber`): each is an integer of
64 bits, or it is no number and shown as a string (`JsonNumber.IsExact`).
-/

namespace OperationAtlas

open JsonNumber

/-! ## Plain examples -/

namespace Json

theorem IsPlain.nest {value : Json} (h : value.IsPlain) : ∀ depth, (Json.nest depth value).IsPlain
  | 0 => h
  | depth + 1 => .array (List.forall_mem_singleton.2 (h.nest depth))

theorem IsPlain.member {value : Json} (h : value.IsPlain) (key : String) :
    (Json.object [(key, value)]).IsPlain :=
  .object (List.nodup_singleton key) (List.forall_mem_singleton.2 h)

end Json

/-- The example value of a leaf is plain, unless it is a number whose example text writes a double. -/
theorem Leaf.isPlain_response {leaf : Leaf} {override? : Option String}
    (h : ∀ kind text, leaf = .scalar kind → kind.isNumeric = true → override? = some text →
      IsExact text) :
    (leaf.response override?).IsPlain := by
  have hone : FitsWord 1 := ⟨by decide, by decide⟩
  fun_cases Leaf.response leaf override? with
  | case1 => exact .bool true
  | case2 text => exact .bool _
  | case3 kind _ hnumeric => exact .int hone
  | case4 kind _ hnumeric => exact .string ""
  | case5 kind text _ hnumeric number hparse =>
    rcases h kind text rfl hnumeric rfl with hnone | ⟨value, hvalue⟩
    · rw [hnone] at hparse
      cases hparse
    · rw [hvalue] at hparse
      cases hparse
      exact .int (fitsWord_of_parse? hvalue)
  | case6 kind text _ hnumeric hparse => exact .string text
  | case7 kind text _ hnumeric => exact .string text
  | case8 variants => exact .string _
  | case9 variants text => exact .string text

namespace Surroundings

variable {around : Surroundings} {session : Session} {name text : String}

/-- What a schema field shows is plain if the leaf or the sample behind it is. -/
theorem Match.isPlain_response {known : List (String × Sample)} {m : Match}
    (hleaf : ∀ leaf, m.kind = .leaf leaf → (leaf.response m.member.doc.override?).IsPlain)
    (hsample : ∀ sample, OrderedMap.lookup m.element.simpleName known = some sample →
      (∀ leaf, m.kind ≠ .leaf leaf) → sample.response.IsPlain) :
    (m.response known).IsPlain := by
  rw [Match.response, Json.inArrays_eq_nest]
  refine Json.IsPlain.nest ?_ _
  split
  · next leaf hkind => exact hleaf leaf hkind
  · next hobject =>
    cases hknown : OrderedMap.lookup m.element.simpleName known with
    | some sample => exact hsample sample hknown hobject
    | none => exact (Json.IsPlain.string _).member _

/-! ## Numbers in samples -/

/-- The example value of a type shows a number with an example text: that of a field of the last of
the types that are unfolded on the way. -/
inductive ShowsNumber (around : Surroundings) (session : Session) (name text : String) : Prop
  | behind {keys types : List String} {last schemaType : String} {field : FieldDecl}
      {member : Member} {element : TypeRef} {depth : Nat} {kind : LeafKind}
      (h : around.Unfolds session keys (name :: types))
      (hlast : (name :: types).getLast? = some last)
      (hschema : session.schemaName? last = some schemaType)
      (hfield : field ∈ around.schema.describe schemaType)
      (hmember : around.memberOf last schemaType field =
        .ok (member, element, depth, .leaf (.scalar kind)))
      (hnumeric : kind.isNumeric = true) (hoverride : member.doc.override? = some text) :
      ShowsNumber around session name text

/-- A type shows the numbers of the types whose samples it shows. -/
theorem ShowsNumber.field {outer inner schemaType : String} {field : FieldDecl} {sample : Sample}
    {before after : List (String × Sample)}
    (hsplit : session.samples = before ++ (outer, sample) :: after)
    (hschema : session.schemaName? outer = some schemaType)
    (hfield : field ∈ around.schema.describe schemaType)
    (hrefers : around.Refers outer schemaType field inner) (hinner : inner ∈ before.map (·.1))
    (h : around.ShowsNumber session inner text) : around.ShowsNumber session outer text := by
  cases h with
  | behind h hlast hschema' hfield' hmember hnumeric hoverride =>
    exact .behind (.field hsplit hschema hfield hrefers hinner h) (by simpa using hlast) hschema'
      hfield' hmember hnumeric hoverride

/-- A number that is shown is one of a field of a declared type. -/
theorem ShowsNumber.exists_member (h : around.ShowsNumber session name text) :
    ∃ type ∈ around.host.types, ∃ member ∈ type.shape.fields, ∃ element depth kind,
      member.type.unwrap? = some (element, depth) ∧
      around.host.kind element = .ok (.leaf (.scalar kind)) ∧ kind.isNumeric = true ∧
      member.doc.override? = some text := by
  cases h with
  | behind _ _ _ _ hmember hnumeric hoverride =>
    obtain ⟨hfield, hunwrap, hkind⟩ := memberOf_eq_ok_iff.1 hmember
    obtain ⟨type, htype, hdeclared⟩ := HostTypes.exists_type_of_field? hfield
    exact ⟨type, htype, _, hdeclared, _, _, _, hunwrap, hkind, hnumeric, hoverride⟩

/-- The example value of a sample is plain if the numbers that it shows are exact. The samples that
it shows stand before it. -/
theorem isPlain_sample (h : around.Reachable session) :
    ∀ entry ∈ session.samples,
      (∀ text, around.ShowsNumber session entry.1 text → IsExact text) →
      entry.2.response.IsPlain := by
  refine h.forall_sample_at (P := fun name sample =>
    (∀ text, around.ShowsNumber session name text → IsExact text) → sample.response.IsPlain) ?_
  intro before name type schemaType found after hsplit hschema hfields hfound hbefore hexact
  have hshows := shows_ofPieces before type schemaType found
  by_cases hnone : found = []
  · rw [(hshows.bare hnone).1]
    exact (Json.IsPlain.string _).member _
  obtain ⟨members, hresponse, hkeys, hlookup⟩ := hshows.response hnone
  have hdistinct : (members.map (·.1)).Nodup := hkeys ▸ OrderedMap.nodup_eraseDups _
  rw [hresponse]
  refine .object hdistinct ?_
  rintro ⟨key, value⟩ hmember
  -- a member shows what a matched field shows
  have hvalue := OrderedMap.lookup_of_mem hdistinct hmember
  rw [hlookup] at hvalue
  obtain ⟨m, hm, heq⟩ := List.mem_map.1 (List.mem_reverse.1 (OrderedMap.mem_of_lookup hvalue))
  cases heq
  have hfield : m.field ∈ around.schema.describe schemaType := hfields ▸ List.mem_map_of_mem hm
  refine Match.isPlain_response (fun leaf hkind => ?_) fun inner hinner hobject => ?_
  · refine Leaf.isPlain_response fun kind text hleaf hnumeric hoverride => hexact text ?_
    have hbehind := (hfound m hm).memberOf schemaType
    rw [hkind, hleaf] at hbehind
    have hname : name ∈ session.samples.map (·.1) := by simp [hsplit]
    exact .behind (.root hname) rfl hschema hfield hbehind hnumeric hoverride
  · have hshown := OrderedMap.mem_of_lookup hinner
    obtain ⟨-, hrefers⟩ := (hfound m hm).refers schemaType hobject
    exact hbefore _ hshown fun text htext => hexact text
      (htext.field hsplit hschema hfield hrefers (List.mem_map_of_mem hshown))

/-- The example value of a type is plain if the numbers that it shows are exact. -/
theorem HasExample.isPlain (h : around.Reachable session) {value : Json}
    (hvalue : around.HasExample session name value)
    (hexact : ∀ text, around.ShowsNumber session name text → IsExact text) : value.IsPlain := by
  cases hvalue with
  | leaf hkind => exact Leaf.isPlain_response nofun
  | object hkind hsample => exact isPlain_sample h _ (OrderedMap.mem_of_lookup hsample) hexact

/-! ## Records -/

/-- The example response of a record is the text of its envelope around the example value of the type
that its accessor returns, in as many lists as the accessor returns it in. -/
theorem Records.exampleResponse {source : Group} {accessor : Accessor} {operation : FieldDecl}
    {before after : Session} {record : OperationRecord}
    (h : around.Records source accessor operation before after record) :
    ∃ depth value, accessor.returns.unwrap? = some (.plain record.outputName, depth) ∧
      around.HasExample after record.outputName value ∧
      record.exampleResponse = (envelope record.name (Json.nest depth value)).toPretty := by
  obtain ⟨response, outputName, selection, session₁, arguments, request, hresult, harguments, -,
    rfl⟩ := runOn_assemble_eq_ok_iff.1 h.runs
  obtain ⟨depth, value, hunwrap, hvalue, rfl⟩ := hasExample_of_resultOf hresult
  have hclean := (resultOf_eq_ok h.clean hresult).1
  have hgrows := grows_of_keeps (keeps_argumentsOf _ _ _) hclean harguments
  exact ⟨depth, value, hunwrap, hvalue.grows hgrows, rfl⟩

/-- An envelope is read back from its text if the value in it is plain. -/
theorem parse?_envelope (operation : String) {value : Json} (h : value.IsPlain) (depth : Nat) :
    Json.parse? (envelope operation (Json.nest depth value)).toPretty =
      some (.object [("data", .object [(operation, Json.nest depth value)])]) :=
  Json.parse?_toPretty (((h.nest depth).member operation).member "data")

end Surroundings

namespace Catalog

variable {schema : SchemaIndex} {model : HostModel} {catalog : Catalog}

/-- The example response of every record of a catalog is read back as one value: under `data`, under
the name of the record and nothing else, in exactly as many lists of one item as its accessor returns
lists, the example of the leaf that it returns, or the example value of the sample that the catalog's
session keeps of the object type. The only condition is that the example texts of the numbers that
are shown write no doubles. -/
theorem responses_are_read_back (hbuild : build schema model = .ok catalog) :
    ∃ host documented session, HostTypes.ofModel model = .ok host ∧
      ((Surroundings.mk schema host).documentGroups (orderedGroups model)).runOn {} =
        (.ok documented, session) ∧
      catalog = ⟨documented.foldl addRecords [], session.objectTypes, session.schemaNames⟩ ∧
      ∀ key group, (key, group) ∈ catalog.groups → ∀ record ∈ group.operations,
        ∃ source ∈ model.groups, groupKey source.key = key ∧
        ∃ accessor, (Surroundings.mk schema host).RecordsBefore source session accessor record ∧
        ∃ depth value, accessor.returns.unwrap? = some (.plain record.outputName, depth) ∧
          (Surroundings.mk schema host).HasExample session record.outputName value ∧
          ((∀ text, (Surroundings.mk schema host).ShowsNumber session record.outputName text →
              IsExact text) →
            Json.parse? record.exampleResponse =
              some (.object [("data", .object [(record.name, Json.nest depth value)])])) := by
  obtain ⟨host, documented, session, hhost, hrun, hcatalog⟩ := exists_documented hbuild
  have hclean := Surroundings.ReachableCleanly.fresh.documentGroups hrun
  refine ⟨host, documented, session, hhost, hrun, hcatalog, fun key group hgroup record hrecord => ?_⟩
  subst hcatalog
  obtain ⟨source, hsource, hkey, accessor, hbefore⟩ := exists_recordsBefore hrun hgroup hrecord
  have ⟨operation, before, after, hrecords, hgrows⟩ := hbefore
  obtain ⟨depth, value, hunwrap, hvalue, hresponse⟩ := hrecords.exampleResponse
  have hkept := hvalue.grows hgrows
  refine ⟨source, hsource, hkey, accessor, hbefore, depth, value, hunwrap, hkept, fun hexact => ?_⟩
  rw [hresponse, Surroundings.parse?_envelope record.name (hkept.isPlain hclean.reachable hexact)]

/-- A schema with pets, which have friends. -/
def kennelSchema : SchemaIndex where
  types := [
    ("Query", [⟨"pets", ⟨"Pet", false, true⟩, []⟩]),
    ("Pet", [⟨"name", ⟨"String", false, false⟩, []⟩, ⟨"chip", ⟨"Int", false, false⟩, []⟩,
      ⟨"weight", ⟨"Float", false, false⟩, []⟩, ⟨"friend", ⟨"Pet", false, false⟩, []⟩])]

/-- A pet. Its name has quotation marks, a backslash, control characters and a character of two
surrogates, its chip has the greatest number of 64 bits, and its weight is no number. -/
def petView : HostType :=
  ⟨"PetView", none, none, .object [
    ⟨"name", .plain "String", { example? := some "\"Rex\"\n\x01\\ 🐕" }⟩,
    ⟨"chip", .plain "u64", { example? := some "18446744073709551615" }⟩,
    ⟨"weight", .plain "f64", { example? := some "about 7" }⟩,
    ⟨"friend", .plain "PetView", {}⟩]⟩

/-- The accessor for pets, which it returns in two lists. -/
def petsAccessor : Accessor where
  name := "getPets"
  returns := .list "Vec" [.list "Vec" [.plain "PetView"]]

/-- The queries of a kennel. -/
def kennelQueries : Group where
  typeName := "Kennel"
  kind := .query
  key := "Kennel"
  accessors := [petsAccessor]

/-- A host with pets. -/
def kennelModel : HostModel where
  types := [petView]
  groups := [kennelQueries]

/-- The pets next to their schema. -/
def kennel : Surroundings where
  schema := kennelSchema
  host := { types := [petView], distinct := by decide }

/-- The example value of a pet. -/
def petExample : Json :=
  .object [
    ("name", .string "\"Rex\"\n\x01\\ 🐕"),
    ("chip", .number (.int 18446744073709551615)),
    ("weight", .string "about 7"),
    ("friend", .object [("__typename", .string "Pet")])]

theorem isPlain_petExample : petExample.IsPlain :=
  .object (by decide) (List.forall_mem_cons.2 ⟨.string _, List.forall_mem_cons.2
    ⟨.int ⟨by decide, by decide⟩, List.forall_mem_cons.2 ⟨.string _, List.forall_mem_singleton.2
      ((Json.IsPlain.string "Pet").member "__typename")⟩⟩⟩)

/-- The numbers of a pet are exact. -/
theorem isExact_of_petView {host : HostTypes} {member : Member}
    (hmember : member ∈ petView.shape.fields) {element : TypeRef} {depth : Nat} {kind : LeafKind}
    (hunwrap : member.type.unwrap? = some (element, depth))
    (hkind : host.kind element = .ok (.leaf (.scalar kind))) (hnumeric : kind.isNumeric = true)
    {text : String} (htext : member.doc.override? = some text) : IsExact text := by
  simp only [petView, HostShape.fields, List.mem_cons, List.not_mem_nil, or_false] at hmember
  rcases hmember with rfl | rfl | rfl | rfl
  · cases hunwrap
    have hstring : host.kind (.plain "String") = .ok (.leaf (.scalar .string)) := rfl
    rw [hstring] at hkind
    cases hkind
    cases hnumeric
  · cases htext
    exact .inr ⟨18446744073709551615, by decide +kernel⟩
  · cases htext
    exact .inl (by decide +kernel)
  · cases htext

/-- The response with the pets is read back with all that its strings hold, with its greatest number
and in two lists. -/
theorem pets_are_read_back :
    ∃ catalog group record, build kennelSchema kennelModel = .ok catalog ∧
      ("Kennel", group) ∈ catalog.groups ∧ record ∈ group.operations ∧
      Json.parse? record.exampleResponse =
        some (.object [("data", .object [("pets", .array [.array [petExample]])])]) := by
  have hsummary : (build kennelSchema kennelModel).map (fun catalog => catalog.groups.map fun group =>
      (group.1, group.2.operations.map fun record => (record.name, record.outputName))) =
        .ok [("Kennel", [("pets", "PetView")])] := by
    decide +kernel
  obtain ⟨catalog, hbuild, hsummary⟩ := map_eq_ok_iff.1 hsummary
  obtain ⟨⟨key, group⟩, others, hgroups, hfirst, -⟩ := List.map_eq_cons_iff.1 hsummary
  obtain ⟨rfl, hrecords⟩ := Prod.mk.inj hfirst
  obtain ⟨record, hoperations, hrecord⟩ := List.map_eq_singleton_iff.1 hrecords
  obtain ⟨hname, houtput⟩ := Prod.mk.inj hrecord
  have hgroup : ("Kennel", group) ∈ catalog.groups := hgroups ▸ List.mem_cons_self
  have hmem : record ∈ group.operations := hoperations ▸ List.mem_cons_self
  obtain ⟨host, documented, session, hhost, hrun, -, hall⟩ := responses_are_read_back hbuild
  have hkennel : Surroundings.mk kennelSchema host = kennel := by
    obtain ⟨types, distinct⟩ := host
    obtain rfl : types = [petView] := HostTypes.types_of_ofModel hhost
    rfl
  rw [hkennel] at hrun hall
  obtain ⟨source, hsource, -, accessor, ⟨_, _, _, hrecords, -⟩, depth, value, hunwrap, hvalue,
    hread⟩ := hall _ group hgroup record hmem
  obtain rfl := List.mem_singleton.1 hsource
  obtain rfl := List.mem_singleton.1 hrecords.mem
  rw [hname, houtput] at *
  obtain rfl : 2 = depth := (Prod.mk.inj (Option.some.inj hunwrap)).2
  have hexact : ∀ text, kennel.ShowsNumber session "PetView" text → IsExact text := by
    intro text hshows
    obtain ⟨type, htype, member, hmember, _, _, _, hunwrap, hkind, hnumeric, htext⟩ :=
      hshows.exists_member
    obtain rfl := List.mem_singleton.1 htype
    exact isExact_of_petView hmember hunwrap hkind hnumeric htext
  have hobject : kennel.host.kind (.plain "PetView") = .ok .object := rfl
  have hlines : ((kennel.documentGroups (orderedGroups kennelModel)).runOn {}).2.samples.map
      (·.2.response.toPretty) = [petExample.toPretty] := by
    decide +kernel
  rw [hrun] at hlines
  have hreach := (Surroundings.ReachableCleanly.fresh.documentGroups hrun).reachable
  have hplain := hvalue.isPlain hreach hexact
  obtain rfl : value = petExample := by
    cases hvalue with
    | leaf hkind =>
      rw [hobject] at hkind
      cases hkind
    | object _ hsample =>
      have hmem := List.mem_map_of_mem (f := (·.2.response.toPretty))
        (OrderedMap.mem_of_lookup hsample)
      rw [hlines, List.mem_singleton] at hmem
      exact hplain.eq_of_toPretty_eq isPlain_petExample hmem
  exact ⟨catalog, group, record, hbuild, hgroup, hmem, hread hexact⟩

end Catalog

end OperationAtlas
