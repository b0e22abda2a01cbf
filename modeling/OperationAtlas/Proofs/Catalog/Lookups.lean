import OperationAtlas.Proofs.Catalog.Coverage
import OperationAtlas.Proofs.Sample.Stored
import OperationAtlas.Proofs.Session.Ledger

/-!
# What a catalog looks up

After each walk the record of an operation takes what the walk has left: the example and the
selection of its result, the argument of a parameter. A walk that finds its type running succeeds and
leaves nothing, so a record may fail for want of an example. In a catalog this does not happen: it
ends with the first call that fails, and between calls of which none failed no walk is running.

The parts are looked up one by one in a ledger, whose maps are kept apart, at the places that
`Ledger.LooksUp` lists. `Catalog.every_lookup_succeeds`: no call of a catalog comes to such a place
without finding the parts, and neither the calls on a ledger nor the catalog fail for want of an
example. What a catalog may fail with is listed in `Catalog.fault_of_build`.
-/

namespace OperationAtlas

/-! ## How catalogs fail -/

/-- The failures of calls: they blame the host model, or a composed request is no request. -/
inductive DocError.IsCallFault : DocError → Prop
  | model {error : DocError} (h : error.IsModelFault) : IsCallFault error
  | grammar (kind : OperationKind) (fault : RequestFault) (text : String) :
      IsCallFault (.grammar kind fault text)

namespace Surroundings

variable {around : Surroundings} {session session' : Session} {error : DocError}

theorem isCallFault_of_assemble (h : around.ReachableCleanly session) {kind : OperationKind}
    {owner : String} {operation : FieldDecl} {accessor : Accessor}
    (hrun : (around.assemble kind owner operation accessor).runOn session =
      (.error error, session')) : error.IsCallFault := by
  rcases fault_of_assemble h hrun with hfault | ⟨_, _, _, -, hcanonical⟩
  · exact .model hfault.isModelFault
  · obtain ⟨fault, text, rfl⟩ := ExampleRequest.exists_grammar_of_canonical hcanonical
    exact .grammar kind fault text

theorem isCallFault_of_call (h : around.ReachableCleanly session) {call : Call}
    (hrun : (call.step around).runOn session = (.error error, session')) : error.IsCallFault := by
  cases call with
  | synthesize operation name origin =>
    rcases SessionStep.runOn_bind_eq_error_iff.1 hrun with hwalk | ⟨_, _, -, hrun⟩
    · have hends := around.synthesize_ends operation name origin h.reachable.wellFormed
      change around.synthesize operation name origin session = _ at hwalk
      rw [hwalk] at hends
      exact .model (hends.error error rfl).2.isModelFault
    · cases hrun
  | assemble kind owner operation accessor =>
    rcases SessionStep.runOn_bind_eq_error_iff.1 hrun with hassemble | ⟨_, _, -, hrun⟩
    · exact isCallFault_of_assemble h hassemble
    · cases hrun

/-- The first call that fails does so in a session to which no failing call led. -/
theorem isCallFault_of_perform (h : around.ReachableCleanly session) {calls : List Call}
    (hrun : (around.perform calls).runOn session = (.error error, session')) :
    error.IsCallFault := by
  obtain ⟨before, call, after, session₁, -, hbefore, hfails⟩ :=
    exists_call_of_perform_eq_error hrun
  exact isCallFault_of_call (h.perform hbefore) hfails

end Surroundings

/-- A catalog fails as a type is declared twice or as a call fails. -/
theorem Catalog.fault_of_build {schema : SchemaIndex} {model : HostModel} {error : DocError}
    (h : build schema model = .error error) :
    (∃ name, error = .duplicateHostType name) ∨ error.IsCallFault := by
  rcases calls_of_build_eq_error h with hhost | ⟨host, session, -, hrun⟩
  · obtain ⟨name, rfl, -⟩ := HostTypes.exists_duplicate_of_ofModel hhost
    exact .inl ⟨name, rfl⟩
  · exact .inr (Surroundings.isCallFault_of_perform .fresh hrun)

/-- No call fails for want of an example. -/
theorem DocError.IsCallFault.ne_missingExample {error : DocError} (h : error.IsCallFault)
    (operation : String) : error ≠ .missingExample operation := by
  rintro rfl
  cases h with
  | model h => cases h

namespace Ledger

variable (around : Surroundings)

/-! ## Calls on a ledger -/

/-- Makes calls one after the other, up to the first that fails. -/
def perform (calls : List Call) : LedgerStep Unit :=
  forM calls (Call.ledgerStep around)

variable {around} {session : Session} {ledger : Ledger}

theorem follows_perform : ∀ calls : List Call,
    Follows (perform around calls) (around.perform calls)
  | [] => .pure _
  | call :: calls => by
      rw [perform, Surroundings.perform, List.forM_cons, List.forM_cons]
      exact (follows_call call).bind (Surroundings.retains_call call) fun _ =>
        follows_perform calls

/-- A step of a ledger leaves the parts of the session that the step of the session leaves. -/
theorem Follows.exists_session {α : Type} {step : LedgerStep α} {sessionStep : SessionStep α}
    (h : Follows step sessionStep) (hwf : session.WellFormed) {result : Except DocError α}
    (hrun : step.runOn (ofSession session) = (result, ledger)) :
    ∃ session', sessionStep.runOn session = (result, session') ∧ ofSession session' = ledger := by
  rw [h session hwf] at hrun
  obtain ⟨hresult, hledger⟩ := Prod.mk.inj hrun
  exact ⟨_, Prod.ext hresult rfl, hledger⟩

/-! ## Lookups -/

/-- All parts that a record looks up are found under a name. -/
structure Finds (ledger : Ledger) (name : String) : Prop where
  response : ∃ response, OrderedMap.lookup name ledger.examples = some response
  selection : ∃ selection, OrderedMap.lookup name ledger.selections = some selection
  argument : ∃ argument, OrderedMap.lookup name ledger.argumentObjects = some argument

/-- The places at which the record of an accessor looks up parts, with the name and the ledger of the
lookup: after the walk of its result, and after the walk of each parameter that it comes to. -/
inductive LooksUp (around : Surroundings) (owner : String) (operation : FieldDecl)
    (accessor : Accessor) (ledger : Ledger) : String → Ledger → Prop
  | result {name : String} {fields : Option TypeFields} {after : Ledger}
      (hobject : around.host.MeansObject accessor.returns name)
      (hwalk : synthesize around operation name .result ledger = (.ok fields, after)) :
      LooksUp around owner operation accessor ledger name after
  | parameter {parameter : Member} {before others : List Member}
      {result : Json × String × Option String} {arguments : List (String × ParameterSummary)}
      {name : String} {fields : Option TypeFields} {ledger₁ ledger₂ after : Ledger}
      (hparameters : accessor.parameters = before ++ parameter :: others)
      (hresult : (resultOf around operation owner accessor).runOn ledger = (.ok result, ledger₁))
      (harguments : (argumentsOf around operation owner before).runOn ledger₁ =
        (.ok arguments, ledger₂))
      (hobject : around.host.MeansObject parameter.type name)
      (hwalk : synthesize around operation name (.parameter parameter.name) ledger₂ =
        (.ok fields, after)) :
      LooksUp around owner operation accessor ledger name after

/-- Where no call failed before, a walk that succeeds leaves all parts. -/
theorem finds_of_synthesize (h : around.ReachableCleanly session) {operation : FieldDecl}
    {name : String} {origin : Origin} {fields : Option TypeFields}
    (hwalk : synthesize around operation name origin (ofSession session) = (.ok fields, ledger)) :
    ledger.Finds name := by
  obtain ⟨session', hrun, rfl⟩ := (follows_synthesize operation name origin).exists_session
    h.reachable.wellFormed hwalk
  have hmem := (Surroundings.covers_synthesize h hrun).walked name rfl
  obtain ⟨sample, hsample⟩ := Option.isSome_iff_exists.1 (OrderedMap.isSome_lookup_iff.2 hmem)
  replace hsample : session'.sample? name = some sample := hsample
  constructor <;> simp [hsample]

/-- Where no call failed before, a record finds what it looks up. -/
theorem LooksUp.finds (h : around.ReachableCleanly session) {owner : String}
    {operation : FieldDecl} {accessor : Accessor} {name : String}
    (hlooks : LooksUp around owner operation accessor (ofSession session) name ledger) :
    ledger.Finds name := by
  cases hlooks with
  | result hobject hwalk => exact finds_of_synthesize h hwalk
  | parameter hparameters hresult harguments hobject hwalk =>
    obtain ⟨session₁, hresult₁, rfl⟩ := (follows_resultOf operation owner accessor).exists_session
      h.reachable.wellFormed hresult
    have h₁ := (Surroundings.resultOf_eq_ok h hresult₁).1
    obtain ⟨session₂, harguments₂, rfl⟩ := (follows_argumentsOf operation owner _).exists_session
      h₁.reachable.wellFormed harguments
    exact finds_of_synthesize (Surroundings.argumentsOf_eq_ok h₁ harguments₂).1 hwalk

end Ledger

namespace Catalog

/-- A catalog does not fail for want of an example, and neither do its calls on a ledger. Wherever
one of the calls looks up a part of the type that it has just walked, all calls before it having
succeeded, the ledger has the example, the selection and the argument of that type. -/
theorem every_lookup_succeeds (schema : SchemaIndex) (model : HostModel) :
    (∀ operation, build schema model ≠ .error (.missingExample operation)) ∧
      ∀ host, HostTypes.ofModel model = .ok host →
        (∀ operation, ((Ledger.perform ⟨schema, host⟩
          ((Surroundings.mk schema host).assemblies (orderedGroups model))).runOn {}).1 ≠
            .error (.missingExample operation)) ∧
        ∀ before kind owner operation accessor others,
          (Surroundings.mk schema host).assemblies (orderedGroups model) =
            before ++ .assemble kind owner operation accessor :: others →
          ∀ ledger, (Ledger.perform ⟨schema, host⟩ before).runOn {} = (.ok (), ledger) →
            ∀ name after,
              Ledger.LooksUp ⟨schema, host⟩ owner operation accessor ledger name after →
                after.Finds name := by
  refine ⟨fun operation hbuild => ?_, fun host _ => ⟨fun operation hfails => ?_, ?_⟩⟩
  · rcases fault_of_build hbuild with ⟨name, hduplicate⟩ | hfault
    · cases hduplicate
    · exact hfault.ne_missingExample operation rfl
  · obtain ⟨session, hrun, -⟩ := (Ledger.follows_perform _).exists_session .fresh
      (Prod.ext hfails rfl)
    exact (Surroundings.isCallFault_of_perform .fresh hrun).ne_missingExample operation rfl
  · intro before kind owner operation accessor others _ ledger hbefore name after hlooks
    obtain ⟨session, hrun, rfl⟩ := (Ledger.follows_perform before).exists_session .fresh hbefore
    exact hlooks.finds (Surroundings.ReachableCleanly.fresh.perform hrun)

/-- The village with its declared types. -/
def village : Surroundings where
  schema := villageSchema
  host := { types := villageModel.types, distinct := by decide }

/-- The operation that finds something in a city near a home. -/
def findOperation : FieldDecl :=
  ⟨"find", ⟨"Int", false, false⟩, [("by", ⟨"City", false, false⟩), ("near", ⟨"Home", false, false⟩)]⟩

/-- The call for the record of the accessor for a user. -/
def userCall : Call :=
  .assemble .query "Village" Surroundings.userOperation userAccessor

/-- The ledger after the record of the accessor for a user. -/
def villageLedger : Ledger :=
  ((Ledger.perform village [userCall]).runOn {}).2

/-- The ledger after the walk of the city, which is a parameter. -/
def cityLedger : Ledger :=
  ((Ledger.argumentsOf village findOperation "Village"
    [⟨"by", .plain "CityView", {}⟩]).runOn villageLedger).2

/-- A step that does not fail has a result. -/
theorem exists_ok_of_isOk {α : Type} {outcome : Except DocError α × Ledger}
    (h : outcome.1.isOk = true) : ∃ a, outcome = (.ok a, outcome.2) := by
  obtain ⟨_ | a, ledger⟩ := outcome
  · cases h
  · exact ⟨a, rfl⟩

/-- The home is walked for a parameter after the user and the city, and is found although it was
walked behind the user before. -/
theorem village_lookup_succeeds :
    HostTypes.ofModel villageModel = .ok village.host ∧
      village.assemblies (orderedGroups villageModel) =
        [userCall] ++ .assemble .query "Village" findOperation findAccessor :: [] ∧
      (Ledger.perform village [userCall]).runOn {} = (.ok (), villageLedger) ∧
      ∃ after, Ledger.LooksUp village "Village" findOperation findAccessor villageLedger "HomeView"
        after ∧ after.Finds "HomeView" := by
  have hhost : HostTypes.ofModel villageModel = .ok village.host := rfl
  have hcalls : village.assemblies (orderedGroups villageModel) =
      [userCall] ++ .assemble .query "Village" findOperation findAccessor :: [] := by rfl
  obtain ⟨_, hbefore⟩ := exists_ok_of_isOk
    (by decide +kernel : ((Ledger.perform village [userCall]).runOn {}).1.isOk = true)
  change _ = (_, villageLedger) at hbefore
  have hparameters : findAccessor.parameters =
      [⟨"by", .plain "CityView", {}⟩] ++ ⟨"near", .plain "HomeView", {}⟩ :: [] := rfl
  have hresult : ∀ ledger, ∃ result, (Ledger.resultOf village findOperation "Village"
      findAccessor).runOn ledger = (.ok result, ledger) := fun _ => ⟨_, rfl⟩
  obtain ⟨result, hresult⟩ := hresult villageLedger
  obtain ⟨arguments, harguments⟩ := exists_ok_of_isOk
    (by decide +kernel : ((Ledger.argumentsOf village findOperation "Village"
      [⟨"by", .plain "CityView", {}⟩]).runOn villageLedger).1.isOk = true)
  change _ = (_, cityLedger) at harguments
  have hobject : village.host.MeansObject (.plain "HomeView") "HomeView" := ⟨0, rfl, by rfl⟩
  obtain ⟨fields, hwalk⟩ := exists_ok_of_isOk (by decide +kernel : (Ledger.synthesize village
    findOperation "HomeView" (.parameter "near") cityLedger).1.isOk = true)
  have hlooks := Ledger.LooksUp.parameter hparameters hresult harguments hobject hwalk
  obtain ⟨-, hfinds⟩ := (every_lookup_succeeds villageSchema villageModel).2 village.host hhost
  exact ⟨hhost, hcalls, hbefore, _, hlooks, hfinds _ _ _ _ _ _ hcalls _ hbefore _ _ hlooks⟩

end Catalog

end OperationAtlas
