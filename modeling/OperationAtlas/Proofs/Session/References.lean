import OperationAtlas.Proofs.Session.Failures

/-!
# References between host types

A host type references an object type if a field of the schema type behind it has a member of that
type. Which schema type stands behind a host type is what the session has recorded, and so the
references are those of a session (`Surroundings.References`). Once a host type is met its
references stay the same (`references_iff_of_met`).

As long as no call fails, each running type is referenced by the type whose walk met it (`Stacked`),
and so every running type reaches the innermost one. A field that leads to a running type leads back
to where it comes from: stubs close circles (`StubsCloseCircles`), and away from circles every
reference shows the sample of the type it leads to (`stub_only_on_circles`).
-/

namespace OperationAtlas

/-- Below the lists of a type stands the object type of a name. -/
def HostTypes.MeansObject (host : HostTypes) (type : TypeRef) (name : String) : Prop :=
  ∃ depth, type.unwrap? = some (.plain name, depth) ∧ host.kind (.plain name) = .ok .object

namespace Surroundings

variable (around : Surroundings)

/-! ## References -/

/-- A host type references an object type, given the schema types behind the host types: a field of
its schema type has a member of that type, its own or an inherited one. -/
def References (schemaNames : List (String × String)) (owner name : String) : Prop :=
  ∃ schemaType field member, OrderedMap.lookup owner schemaNames = some schemaType ∧
    field ∈ around.schema.describe schemaType ∧
    around.host.field? owner field.name = .ok (some member) ∧
    around.host.MeansObject member.type name

/-- An object type is reached from a host type through any number of references. -/
abbrev Reaches (schemaNames : List (String × String)) : String → String → Prop :=
  Relation.ReflTransGen (around.References schemaNames)

variable {around : Surroundings} {schemaNames schemaNames' : List (String × String)}
  {owner name schemaType : String}

theorem refers_iff {field : FieldDecl} :
    around.Refers owner schemaType field name ↔
      ∃ member, around.host.field? owner field.name = .ok (some member) ∧
        around.host.MeansObject member.type name := by
  simp only [Refers, memberOf_eq_ok_iff, HostTypes.MeansObject]
  exact ⟨fun ⟨member, depth, hfield, hunwrap, hkind⟩ => ⟨member, hfield, depth, hunwrap, hkind⟩,
    fun ⟨member, hfield, depth, hunwrap, hkind⟩ => ⟨member, depth, hfield, hunwrap, hkind⟩⟩

theorem references_iff :
    around.References schemaNames owner name ↔
      ∃ schemaType, OrderedMap.lookup owner schemaNames = some schemaType ∧
        ∃ field ∈ around.schema.describe schemaType,
          around.Refers owner schemaType field name := by
  simp only [refers_iff]
  exact ⟨fun ⟨schemaType, field, member, hschema, hfield, hmember⟩ =>
      ⟨schemaType, hschema, field, hfield, member, hmember⟩,
    fun ⟨schemaType, hschema, field, hfield, member, hmember⟩ =>
      ⟨schemaType, field, member, hschema, hfield, hmember⟩⟩

theorem Refers.references {field : FieldDecl}
    (hschema : OrderedMap.lookup owner schemaNames = some schemaType)
    (hfield : field ∈ around.schema.describe schemaType)
    (hrefers : around.Refers owner schemaType field name) :
    around.References schemaNames owner name :=
  references_iff.2 ⟨schemaType, hschema, field, hfield, hrefers⟩

/-- Only object types are referenced. -/
theorem References.kind (h : around.References schemaNames owner name) :
    around.host.kind (.plain name) = .ok .object := by
  obtain ⟨_, _, _, _, _, _, _, _, hkind⟩ := h
  exact hkind

/-- The references of a type depend on its own schema type only. -/
theorem references_congr
    (h : OrderedMap.lookup owner schemaNames = OrderedMap.lookup owner schemaNames') :
    around.References schemaNames owner name ↔ around.References schemaNames' owner name := by
  simp only [References, h]

theorem References.mono (hrecorded : schemaNames <+: schemaNames')
    (h : around.References schemaNames owner name) : around.References schemaNames' owner name := by
  obtain ⟨schemaType, field, member, hschema, hmember⟩ := h
  exact ⟨schemaType, field, member, OrderedMap.lookup_of_prefix hrecorded hschema, hmember⟩

theorem Reaches.mono (hrecorded : schemaNames <+: schemaNames')
    (h : around.Reaches schemaNames owner name) : around.Reaches schemaNames' owner name :=
  Relation.ReflTransGen.mono (fun _ _ => References.mono hrecorded) _ _ h

/-- A type that was met references later what it references now. -/
theorem references_iff_of_met (hrecorded : schemaNames <+: schemaNames')
    (hmet : owner ∈ schemaNames.map (·.1)) :
    around.References schemaNames' owner name ↔ around.References schemaNames owner name := by
  obtain ⟨schemaType, hschema⟩ := Option.isSome_iff_exists.1 (OrderedMap.isSome_lookup_iff.2 hmet)
  exact references_congr ((OrderedMap.lookup_of_prefix hrecorded hschema).trans hschema.symm)

/-! ## References are computed -/

/-- The object types that a host type references. -/
def referencesOf (around : Surroundings) (schemaNames : List (String × String)) (owner : String) :
    List String :=
  match OrderedMap.lookup owner schemaNames with
  | none => []
  | some schemaType => (around.schema.describe schemaType).filterMap fun field =>
      match around.memberOf owner schemaType field with
      | .ok (_, .plain name, _, .object) => some name
      | _ => none

theorem references_iff_mem :
    around.References schemaNames owner name ↔ name ∈ around.referencesOf schemaNames owner := by
  rw [references_iff, referencesOf]
  cases OrderedMap.lookup owner schemaNames with
  | none => simp
  | some schemaType =>
    simp only [Option.some.injEq, exists_eq_left', List.mem_filterMap]
    refine exists_congr fun field => and_congr_right fun _ => ?_
    constructor
    · rintro ⟨member, depth, hmember⟩
      simp [hmember]
    · intro h
      split at h
      · next member name' depth hmember =>
        cases h
        exact ⟨member, depth, hmember⟩
      · cases h

instance : Decidable (around.References schemaNames owner name) :=
  decidable_of_iff _ references_iff_mem.symm

/-- Names whose references are among them are all that is reached from them. -/
theorem Reaches.mem_of_closed (names : List String)
    (hclosed : ∀ owner ∈ names, ∀ name ∈ around.referencesOf schemaNames owner, name ∈ names)
    (hmem : owner ∈ names) (h : around.Reaches schemaNames owner name) : name ∈ names := by
  induction h with
  | refl => exact hmem
  | tail _ hreference ih => exact hclosed _ ih _ (references_iff_mem.1 hreference)

/-! ## Running types -/

variable {base : List String} {session session' : Session}

/-- Each running type is referenced by the type whose walk it interrupts. -/
def Stacked (around : Surroundings) (session : Session) : Prop :=
  session.running.IsChain fun inner outer => around.References session.schemaNames outer inner

/-- Steps keep the running types stacked, if a type is met from outside only while no walk is
running. -/
theorem Stacked.step (hwf : session.WellFormed) (h : around.Stacked session)
    (hstep : around.Step [] session session') : around.Stacked session' := by
  have hgrows := hstep.grows
  cases hstep with
  | start hmeets huntouched hdeclared =>
    have hrest : List.IsChain (fun inner outer =>
        around.References (session.start _ _).schemaNames outer inner) session.running :=
      h.imp fun _ _ => References.mono hgrows.schemaNames
    rw [Stacked, Session.start_running]
    cases hmeets with
    | outside hbase =>
      rw [hbase]
      exact .singleton _
    | field hrunning hschema hfield hrefers =>
      rw [hrunning] at hrest ⊢
      exact hrest.cons_cons ((hrefers.references hschema hfield).mono hgrows.schemaNames)
  | finish hrunning hdeclared hschema hcompletes =>
    rw [Stacked, hwf.finish_running hrunning, Session.finish_schemaNames]
    rw [Stacked, hrunning] at h
    exact h.of_cons

/-- Every running type reaches the innermost one. -/
theorem Stacked.reaches (h : around.Stacked session) {innermost : String} {rest : List String}
    (hrunning : session.running = innermost :: rest) (hname : name ∈ session.running) :
    around.Reaches session.schemaNames name innermost := by
  rw [Stacked, hrunning] at h
  rw [hrunning] at hname
  clear hrunning
  induction rest generalizing innermost with
  | nil =>
    rw [List.mem_singleton.1 hname]
  | cons outer rest ih =>
    obtain ⟨hreference, hrest⟩ := List.isChain_cons_cons.1 h
    rcases List.mem_cons.1 hname with rfl | hname
    · exact .refl
    · exact (ih hrest hname).tail hreference

/-! ## Stubs -/

/-- Whatever a sample references but does not show, as it does not stand before it, reaches the type
of the sample. -/
def StubsCloseCircles (around : Surroundings) (session : Session) : Prop :=
  ∀ before owner sample after, session.samples = before ++ (owner, sample) :: after →
    ∀ name, around.References session.schemaNames owner name → name ∉ before.map (·.1) →
      around.Reaches session.schemaNames name owner

/-- Steps let stubs close circles. What the type of a walk that ends references is touched, so
without a sample it is running. -/
theorem StubsCloseCircles.step (hwf : session.WellFormed) (hstacked : around.Stacked session)
    (h : around.StubsCloseCircles session) (hstep : around.Step base session session') :
    around.StubsCloseCircles session' := by
  have hgrows := hstep.grows
  cases hstep with
  | start hmeets huntouched hdeclared =>
    intro before owner sample after hsplit name hreference hbefore
    have hmet : owner ∈ session.schemaNames.map (·.1) := by
      rw [Session.start_samples] at hsplit
      exact (hwf.met owner).2 (.inl (by simp [hsplit]))
    exact (h before owner sample after hsplit name
      ((references_iff_of_met hgrows.schemaNames hmet).1 hreference) hbefore).mono
        hgrows.schemaNames
  | @finish ended schemaType rest type pieces hrunning hdeclared hschema hcompletes =>
    rw [StubsCloseCircles, hwf.finish_samples_eq (by simp [hrunning]), Session.finish_schemaNames]
    refine forall_split_concat h fun name hreference hsamples => ?_
    obtain ⟨endedSchema, hlookup, field, hfield, hrefers⟩ := references_iff.1 hreference
    obtain rfl : schemaType = endedSchema := Option.some.inj (hschema.symm.trans hlookup)
    have htouched := hcompletes.touched field hfield name hrefers
    exact hstacked.reaches hrunning
      ((Session.isUntouched_eq_false_iff.1 htouched).resolve_right hsamples)

theorem ReachableCleanly.stubsCloseCircles (h : around.ReachableCleanly session) :
    around.StubsCloseCircles session := by
  obtain ⟨-, -, hstubs⟩ := h.steps.invariant
    (fun session => around.Stacked session ∧ around.StubsCloseCircles session)
    (fun session session' hwf hholds hstep =>
      ⟨hholds.1.step hwf hstep, hholds.2.step hwf hholds.1 hstep⟩)
    .fresh ⟨.nil, by rintro (_ | _) _ _ _ ⟨⟩⟩
  exact hstubs

/-- The field shows a sample of the object that it leads to. -/
structure Match.ShowsSample (known : List (String × Sample)) (m : Match) (sample : Sample) :
    Prop where
  response : m.response known = Json.nest m.depth sample.response
  selection : m.selection known = m.field.name ++ " \x7b\n" ++ sample.selection ++ "\n\x7d"
  literal : m.literal known = nestLiteral m.depth sample.argument

/-- The field shows the stub. -/
structure Match.ShowsStub (known : List (String × Sample)) (m : Match) : Prop where
  response : m.response known =
    Json.nest m.depth (.object [("__typename", .string m.field.type.name)])
  selection : m.selection known = m.field.name ++ " \x7b\n__typename\n\x7d"
  literal : m.literal known = nestLiteral m.depth "\x7b\x7d"

theorem Match.showsStub {known : List (String × Sample)} {m : Match}
    (helement : m.element = .plain name) (hkind : m.kind = .object)
    (hknown : name ∉ known.map (·.1)) : m.ShowsStub known := by
  obtain ⟨hresponse, hselection, hliteral⟩ := stub_of_not_known helement hkind hknown
  exact ⟨hresponse, hselection, hliteral⟩

theorem Match.showsSample {known : List (String × Sample)} {m : Match} {sample : Sample}
    (helement : m.element = .plain name) (hkind : m.kind = .object)
    (hknown : OrderedMap.lookup name known = some sample) : m.ShowsSample known sample := by
  constructor <;>
    simp [Match.response, Match.selection, Match.literal, helement, hkind, TypeRef.simpleName,
      hknown]

/-- A field that is found to lead to an object type is a reference. -/
theorem Match.Finds.references {m : Match} (hfinds : m.Finds around owner)
    (hschema : OrderedMap.lookup owner schemaNames = some schemaType)
    (hfield : m.field ∈ around.schema.describe schemaType) (helement : m.element = .plain name)
    (hkind : m.kind = .object) : around.References schemaNames owner name := by
  refine ⟨schemaType, m.field, m.member, hschema, hfield,
    HostTypes.field?_eq_ok_iff.2 hfinds.first, m.depth, ?_, ?_⟩
  · rw [hfinds.element, helement]
  · rw [← helement, hfinds.kind, hkind]

/-- As long as no call fails, a sample shows a field that leads to an object type in one of two ways:
by the sample that the session has of that type, which stands before it, or by the stub, and then
that type reaches the type of the sample through references. So a reference that lies on no circle
is shown by the sample of the type it leads to. -/
theorem stub_only_on_circles (h : around.ReachableCleanly session)
    {before after : List (String × Sample)} {sample : Sample}
    (hsplit : session.samples = before ++ (owner, sample) :: after) :
    ∃ schemaType type found,
      session.schemaName? owner = some schemaType ∧ around.host.find? owner = some type ∧
      found.map Match.field = around.schema.describe schemaType ∧
      (∀ m ∈ found, m.Finds around owner) ∧ Shows before type schemaType found sample ∧
      ∀ m ∈ found, ∀ name, m.element = .plain name → m.kind = .object →
        around.References session.schemaNames owner name ∧
        ((∃ inner, (name, inner) ∈ before ∧ session.sample? name = some inner ∧
            m.ShowsSample before inner) ∨
          name ∉ before.map (·.1) ∧ m.ShowsStub before ∧
            around.Reaches session.schemaNames name owner) ∧
        (¬ around.Reaches session.schemaNames name owner →
          ∃ inner, session.sample? name = some inner ∧ m.ShowsSample before inner) := by
  obtain ⟨-, schemaType, type, found, hschema, hfind, -, hfields, hfound, hshows⟩ :=
    sample_shows_its_fields h.reachable hsplit
  refine ⟨schemaType, type, found, hschema, hfind, hfields, hfound, hshows, ?_⟩
  intro m hm name helement hkind
  have hreference : around.References session.schemaNames owner name :=
    (hfound m hm).references hschema (hfields ▸ List.mem_map_of_mem hm) helement hkind
  have hways : (∃ inner, (name, inner) ∈ before ∧ session.sample? name = some inner ∧
      m.ShowsSample before inner) ∨
        name ∉ before.map (·.1) ∧ m.ShowsStub before ∧
          around.Reaches session.schemaNames name owner := by
    cases hknown : OrderedMap.lookup name before with
    | some inner =>
      exact .inl ⟨inner, OrderedMap.mem_of_lookup hknown,
        OrderedMap.lookup_of_prefix (hsplit ▸ List.prefix_append _ _) hknown,
        Match.showsSample helement hkind hknown⟩
    | none =>
      have hbefore := OrderedMap.lookup_eq_none_iff.1 hknown
      exact .inr ⟨hbefore, Match.showsStub helement hkind hbefore,
        h.stubsCloseCircles before owner sample after hsplit name hreference hbefore⟩
  refine ⟨hreference, hways, fun hcircle => ?_⟩
  obtain ⟨inner, -, hinner, hshown⟩ := hways.resolve_right fun hstub => hcircle hstub.2.2
  exact ⟨inner, hinner, hshown⟩

/-- Users live in homes, homes have residents and stand in cities, and cities lie in countries. So
user and home stand in a circle, city and country do not. -/
def household : Surroundings where
  schema :=
    { types := [
        ("User", [⟨"id", ⟨"ID", true, false⟩, []⟩, ⟨"home", ⟨"Home", false, false⟩, []⟩]),
        ("Home", [⟨"city", ⟨"City", false, false⟩, []⟩,
          ⟨"residents", ⟨"User", false, true⟩, []⟩]),
        ("City", [⟨"name", ⟨"String", false, false⟩, []⟩,
          ⟨"country", ⟨"Country", false, false⟩, []⟩]),
        ("Country", [⟨"code", ⟨"String", false, false⟩, []⟩])] }
  host :=
    { types := [
        ⟨"UserView", none, none, .object
          [⟨"id", .plain "Id", {}⟩, ⟨"home", .plain "HomeView", {}⟩]⟩,
        ⟨"PlaceView", none, none, .object [⟨"city", .plain "CityView", {}⟩]⟩,
        ⟨"HomeView", none, some "PlaceView", .object
          [⟨"residents", .list "Vec" [.plain "UserView"], {}⟩]⟩,
        ⟨"CityView", none, none, .object
          [⟨"name", .plain "String", { example? := some "Bergen" }⟩,
            ⟨"country", .plain "CountryView", {}⟩]⟩,
        ⟨"CountryView", none, none, .object
          [⟨"code", .plain "String", { example? := some "NO" }⟩]⟩]
      distinct := by decide }

/-- The session after a walk of the user. -/
def householdSession : Session :=
  (household.synthesize userOperation "UserView" .result {}).2

/-- The home shows its city by the city's sample, and its residents, who reach it, by the stub. -/
theorem household_stub_on_circle :
    household.ReachableCleanly householdSession ∧ ∃ before after sample,
      householdSession.samples = before ++ ("HomeView", sample) :: after ∧
      before.map (·.1) = ["CountryView", "CityView"] ∧
      ¬ household.Reaches householdSession.schemaNames "CityView" "HomeView" ∧
      ∃ schemaType type found,
        householdSession.schemaName? "HomeView" = some schemaType ∧
        household.host.find? "HomeView" = some type ∧
        found.map Match.field = household.schema.describe schemaType ∧
        (∀ m ∈ found, m.Finds household "HomeView") ∧
        Shows before type schemaType found sample ∧
        ∀ m ∈ found, m.kind = .object →
          (m.element = .plain "CityView" →
            ∃ inner, householdSession.sample? "CityView" = some inner ∧
              m.ShowsSample before inner) ∧
          (m.element = .plain "UserView" → m.ShowsStub before ∧
            household.Reaches householdSession.schemaNames "UserView" "HomeView") := by
  have hclean : household.ReachableCleanly householdSession :=
    .call .fresh (.synthesize userOperation "UserView" .result) rfl
  have hsplit : householdSession.samples =
      [householdSession.samples.get ⟨0, by decide⟩, householdSession.samples.get ⟨1, by decide⟩] ++
        ("HomeView", (householdSession.samples.get ⟨2, by decide⟩).2) ::
          [householdSession.samples.get ⟨3, by decide⟩] := by rfl
  have hcity : ¬ household.Reaches householdSession.schemaNames "CityView" "HomeView" := fun h =>
    absurd (Reaches.mem_of_closed ["CityView", "CountryView"] (by decide) (by decide) h)
      (by decide)
  obtain ⟨schemaType, type, found, hschema, hfind, hfields, hfound, hshows, hobjects⟩ :=
    stub_only_on_circles hclean hsplit
  refine ⟨hclean, _, _, _, hsplit, by decide, hcity, schemaType, type, found, hschema, hfind,
    hfields, hfound, hshows, fun m hm hkind => ⟨fun helement => ?_, fun helement => ?_⟩⟩
  · exact (hobjects m hm "CityView" helement hkind).2.2 hcity
  · rcases (hobjects m hm "UserView" helement hkind).2.1 with ⟨inner, hinner, -⟩ | ⟨-, hstub⟩
    · exact absurd (List.mem_map_of_mem (f := (·.1)) hinner)
        (by decide : "UserView" ∉ List.map _ _)
    · exact hstub

end Surroundings

end OperationAtlas
