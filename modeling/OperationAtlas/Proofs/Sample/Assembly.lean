import OperationAtlas.Proofs.Session.History

/-!
# How records are assembled

`assemble` walks the types of the result and of the parameters, and composes a request of what the
walks left. `Surroundings.Composes` says of what: the literal that passes each parameter
(`Surroundings.Passes`) and the selection from the result. A composed request with a canonical form
makes a record (`Composes.exists_record`), and every record is made so
(`exists_composes_of_assemble`).

The walks of an assembly are calls of their own. So in a session to which no failing call led they
leave such a session, in which every type that they walked has a sample, and whatever fails before
the request is composed blames the host model (`exists_composes_or_fault`): the type of the result
or of a parameter, or a field of a type that is walked (`Surroundings.AssemblyFault`).
-/

namespace OperationAtlas

namespace Surroundings

variable {around : Surroundings} {operation : FieldDecl} {owner : String}
  {session session' : Session} {error : DocError}

/-! ## Samples -/

theorem ReachableCleanly.synthesize (h : around.ReachableCleanly session) {name : String}
    {origin : Origin} {fields : Option TypeFields}
    (hrun : around.synthesize operation name origin session = (.ok fields, session')) :
    around.ReachableCleanly session' := by
  refine h.call (.synthesize operation name origin) ?_
  refine SessionStep.runOn_bind_eq_ok_iff.2 ⟨fields, session', hrun, rfl⟩

/-- A sample that is given is the one that the walk left. -/
theorem sample?_of_sampleOf {name : String} {origin : Origin} {sample : Sample}
    (hrun : (around.sampleOf operation name origin).runOn session = (.ok sample, session')) :
    session'.sample? name = some sample ∧
      ∃ fields, around.synthesize operation name origin session = (.ok fields, session') := by
  obtain ⟨fields, session₁, hwalk, hrun⟩ := SessionStep.runOn_bind_eq_ok_iff.1 hrun
  obtain ⟨_, _, hget, hrun⟩ := SessionStep.runOn_bind_eq_ok_iff.1 hrun
  cases hget
  cases hsample : session₁.sample? name with
  | none =>
    simp only [hsample] at hrun
    cases hrun
  | some sample' =>
    simp only [hsample] at hrun
    cases hrun
    exact ⟨hsample, fields, hwalk⟩

theorem sampleOf_eq_ok (h : around.ReachableCleanly session) {name : String} {origin : Origin}
    {sample : Sample}
    (hrun : (around.sampleOf operation name origin).runOn session = (.ok sample, session')) :
    around.ReachableCleanly session' ∧ session'.sample? name = some sample := by
  obtain ⟨hsample, fields, hwalk⟩ := sample?_of_sampleOf hrun
  exact ⟨h.synthesize hwalk, hsample⟩

/-- Where no walk is running, a type that was walked has a sample. -/
theorem fault_of_sampleOf (h : around.ReachableCleanly session) {name : String} {origin : Origin}
    (hrun : (around.sampleOf operation name origin).runOn session = (.error error, session')) :
    around.Fault name session' error := by
  have hends := around.synthesize_ends operation name origin h.reachable.wellFormed
  rcases SessionStep.runOn_bind_eq_error_iff.1 hrun with hfails | ⟨fields, session₁, hwalk, hrun⟩
  · change around.synthesize operation name origin session = _ at hfails
    rw [hfails] at hends
    exact (hends.error error rfl).2
  · change around.synthesize operation name origin session = _ at hwalk
    rw [hwalk] at hends
    obtain ⟨hrunning, htouched, -⟩ := hends.ok fields rfl
    obtain ⟨sample, hsample⟩ : ∃ sample, session₁.sample? name = some sample := by
      rw [h.running_eq_nil] at hrunning
      rcases Session.isUntouched_eq_false_iff.1 htouched with hname | hname
      · rw [hrunning] at hname
        cases hname
      · exact Option.isSome_iff_exists.1 (OrderedMap.isSome_lookup_iff.2 hname)
    rw [SessionStep.runOn_bind, SessionStep.runOn_get] at hrun
    simp only [hsample] at hrun
    cases hrun

/-- What fails before the request of an accessor is composed: the type of its result or of a
parameter is to blame, or the host is to blame for a field of a running type. -/
inductive AssemblyFault (around : Surroundings) (owner : String) (accessor : Accessor)
    (session : Session) (error : DocError) : Prop
  | result (h : around.host.MemberFault owner accessor.name accessor.returns error)
  | parameter {parameter : Member} (hmem : parameter ∈ accessor.parameters)
      (h : around.host.MemberFault owner parameter.name parameter.type error)
  | field (h : around.FieldFault session error)

theorem AssemblyFault.isModelFault {accessor : Accessor}
    (h : around.AssemblyFault owner accessor session error) : error.IsModelFault := by
  cases h with
  | result h => exact h.isModelFault
  | parameter _ h => exact h.isModelFault
  | field h => exact h.isModelFault

/-- A type that is no leaf below its lists is declared, so its walk fails at a field. -/
theorem fieldFault_of_sampleOf (h : around.ReachableCleanly session) {type element : TypeRef}
    {depth : Nat} {kind : TypeKind} {origin : Origin}
    (hunwrap : type.unwrap? = some (element, depth)) (hkind : around.host.kind element = .ok kind)
    (hobject : ∀ leaf, kind ≠ .leaf leaf)
    (hrun : (around.sampleOf operation element.simpleName origin).runOn session =
      (.error error, session')) :
    around.FieldFault session' error := by
  obtain ⟨name, rfl⟩ := TypeRef.unwrap?_plain hunwrap
  rcases HostTypes.kind_plain hkind with ⟨leaf, rfl⟩ | ⟨-, type, hdeclared⟩
  · exact absurd rfl (hobject leaf)
  · exact (fault_of_sampleOf h hrun).of_declared hdeclared

/-! ## The result -/

/-- The selection of a result is that of a sample. -/
theorem sample?_of_resultOf {accessor : Accessor} {response : Json} {outputName : String}
    {selection : Option String}
    (hrun : (around.resultOf operation owner accessor).runOn session =
      (.ok (response, outputName, selection), session')) {text : String}
    (htext : selection = some text) :
    ∃ sample, session'.sample? outputName = some sample ∧ text = sample.selection := by
  obtain ⟨⟨element, depth⟩, -, hrun⟩ := SessionStep.runOn_ofExcept_bind_eq_ok_iff.1 hrun
  obtain ⟨kind, -, hrun⟩ := SessionStep.runOn_ofExcept_bind_eq_ok_iff.1 hrun
  split at hrun
  · cases hrun
    cases htext
  · obtain ⟨sample, _, hsample, hrun⟩ := SessionStep.runOn_bind_eq_ok_iff.1 hrun
    cases hrun
    cases htext
    exact ⟨sample, (sample?_of_sampleOf hsample).1, rfl⟩

theorem resultOf_eq_ok (h : around.ReachableCleanly session) {accessor : Accessor} {response : Json}
    {outputName : String} {selection : Option String}
    (hrun : (around.resultOf operation owner accessor).runOn session =
      (.ok (response, outputName, selection), session')) :
    around.ReachableCleanly session' ∧
      ∀ text, selection = some text →
        ∃ sample, session'.sample? outputName = some sample ∧ text = sample.selection := by
  refine ⟨?_, fun text htext => sample?_of_resultOf hrun htext⟩
  obtain ⟨⟨element, depth⟩, -, hrun⟩ := SessionStep.runOn_ofExcept_bind_eq_ok_iff.1 hrun
  obtain ⟨kind, -, hrun⟩ := SessionStep.runOn_ofExcept_bind_eq_ok_iff.1 hrun
  split at hrun
  · cases hrun
    exact h
  · obtain ⟨sample, _, hsample, hrun⟩ := SessionStep.runOn_bind_eq_ok_iff.1 hrun
    cases hrun
    exact (sampleOf_eq_ok h hsample).1

theorem fault_of_resultOf (h : around.ReachableCleanly session) {accessor : Accessor}
    (hrun : (around.resultOf operation owner accessor).runOn session = (.error error, session')) :
    around.AssemblyFault owner accessor session' error := by
  rcases SessionStep.runOn_ofExcept_bind_eq_error_iff.1 hrun with
    ⟨hunwrap, -⟩ | ⟨⟨element, depth⟩, hunwrap, hrun⟩
  · exact .result (HostTypes.memberFault_of_unwrap hunwrap)
  rw [HostTypes.unwrap_eq_ok_iff] at hunwrap
  rcases SessionStep.runOn_ofExcept_bind_eq_error_iff.1 hrun with ⟨hkind, -⟩ | ⟨kind, hkind, hrun⟩
  · exact .result (HostTypes.memberFault_of_kind _ _ hunwrap hkind)
  split at hrun
  · cases hrun
  · next hobject =>
    rcases SessionStep.runOn_bind_eq_error_iff.1 hrun with hsample | ⟨sample, _, -, hrun⟩
    · exact .field (fieldFault_of_sampleOf h hunwrap hkind hobject hsample)
    · cases hrun

/-! ## The parameters -/

/-- A literal passes a parameter: that of a leaf, or the argument of the sample of an object, in the
lists of the parameter's type. -/
inductive Passes (around : Surroundings) (session : Session) (parameter : Member) : String → Prop
  | leaf {element : TypeRef} {depth : Nat} {leaf : Leaf}
      (hunwrap : parameter.type.unwrap? = some (element, depth))
      (hkind : around.host.kind element = .ok (.leaf leaf)) :
      Passes around session parameter (nestLiteral depth (leaf.literal parameter.doc.override?))
  | object {element : TypeRef} {depth : Nat} {sample : Sample}
      (hunwrap : parameter.type.unwrap? = some (element, depth))
      (hkind : ∀ leaf, around.host.kind element ≠ .ok (.leaf leaf))
      (hsample : session.sample? element.simpleName = some sample) :
      Passes around session parameter (nestLiteral depth sample.argument)

theorem Passes.grows {parameter : Member} {literal : String}
    (h : around.Passes session parameter literal) (hgrows : session.Grows session') :
    around.Passes session' parameter literal := by
  cases h with
  | leaf hunwrap hkind => exact .leaf hunwrap hkind
  | object hunwrap hkind hsample => exact .object hunwrap hkind (hgrows.sample? hsample)

/-- An argument as it is written. -/
def argumentText (passed : Member × String) : String :=
  passed.1.name ++ ": " ++ passed.2

theorem argumentOf_eq_ok (h : around.ReachableCleanly session) {parameter : Member}
    {argument : String × ParameterSummary}
    (hrun : (around.argumentOf operation owner parameter).runOn session =
      (.ok argument, session')) :
    around.ReachableCleanly session' ∧ argument.2.name = parameter.name ∧
      ∃ literal, argument.1 = argumentText (parameter, literal) ∧
        around.Passes session' parameter literal := by
  obtain ⟨⟨element, depth⟩, hunwrap, hrun⟩ := SessionStep.runOn_ofExcept_bind_eq_ok_iff.1 hrun
  obtain ⟨kind, hkind, hrun⟩ := SessionStep.runOn_ofExcept_bind_eq_ok_iff.1 hrun
  rw [HostTypes.unwrap_eq_ok_iff] at hunwrap
  dsimp only at hrun
  split at hrun
  · next leaf =>
    cases hrun
    exact ⟨h, rfl, _, rfl, .leaf hunwrap hkind⟩
  · next hobject =>
    obtain ⟨sample, _, hsample, hrun⟩ := SessionStep.runOn_bind_eq_ok_iff.1 hrun
    cases hrun
    obtain ⟨hclean, hsample⟩ := sampleOf_eq_ok h hsample
    refine ⟨hclean, rfl, _, rfl, .object hunwrap (fun leaf hleaf => ?_) hsample⟩
    rw [hkind, Except.ok.injEq] at hleaf
    exact hobject leaf hleaf

theorem fault_of_argumentOf (h : around.ReachableCleanly session) {parameter : Member}
    (hrun : (around.argumentOf operation owner parameter).runOn session =
      (.error error, session')) :
    around.host.MemberFault owner parameter.name parameter.type error ∨
      around.FieldFault session' error := by
  rcases SessionStep.runOn_ofExcept_bind_eq_error_iff.1 hrun with
    ⟨hunwrap, -⟩ | ⟨⟨element, depth⟩, hunwrap, hrun⟩
  · exact .inl (HostTypes.memberFault_of_unwrap hunwrap)
  rw [HostTypes.unwrap_eq_ok_iff] at hunwrap
  rcases SessionStep.runOn_ofExcept_bind_eq_error_iff.1 hrun with ⟨hkind, -⟩ | ⟨kind, hkind, hrun⟩
  · exact .inl (HostTypes.memberFault_of_kind _ _ hunwrap hkind)
  dsimp only at hrun
  split at hrun
  · cases hrun
  · next hobject =>
    rcases SessionStep.runOn_bind_eq_error_iff.1 hrun with hsample | ⟨sample, _, -, hrun⟩
    · exact .inr (fieldFault_of_sampleOf h hunwrap hkind hobject hsample)
    · cases hrun

theorem grows_of_keeps {α : Type} {step : SessionStep α} (hkeeps : around.Keeps step)
    (h : around.ReachableCleanly session) {result : Except DocError α}
    (hrun : step.runOn session = (result, session')) : session.Grows session' :=
  (hkeeps session h.reachable.wellFormed _ _ hrun).1.grows

/-- Each parameter is passed by a literal, and keeps its name in the documentation. -/
theorem argumentsOf_eq_ok : ∀ {parameters : List Member} {session session' : Session}
    {arguments : List (String × ParameterSummary)}, around.ReachableCleanly session →
    (around.argumentsOf operation owner parameters).runOn session = (.ok arguments, session') →
    around.ReachableCleanly session' ∧
      arguments.map (·.2.name) = parameters.map (·.name) ∧
      ∃ passed : List (Member × String), passed.map (·.1) = parameters ∧
        arguments.map (·.1) = passed.map argumentText ∧
        ∀ pair ∈ passed, around.Passes session' pair.1 pair.2
  | [], _, _, _, h, hrun => by
      cases hrun
      exact ⟨h, rfl, [], rfl, rfl, nofun⟩
  | parameter :: parameters, session, session', arguments, h, hrun => by
      obtain ⟨first, session₁, hfirst, hrun⟩ := SessionStep.runOn_bind_eq_ok_iff.1 hrun
      obtain ⟨others, session₂, hothers, hrun⟩ := SessionStep.runOn_bind_eq_ok_iff.1 hrun
      cases hrun
      obtain ⟨hclean₁, hname, literal, htext, hpasses⟩ := argumentOf_eq_ok h hfirst
      obtain ⟨hclean, hnames, passed, hparameters, htexts, hall⟩ :=
        argumentsOf_eq_ok hclean₁ hothers
      have hgrows := grows_of_keeps (keeps_argumentsOf operation owner parameters) hclean₁ hothers
      refine ⟨hclean, by rw [List.map_cons, List.map_cons, hname, hnames],
        (parameter, literal) :: passed, by rw [List.map_cons, hparameters],
        by rw [List.map_cons, List.map_cons, htext, htexts],
        List.forall_mem_cons.2 ⟨hpasses.grows hgrows, hall⟩⟩

theorem fault_of_argumentsOf : ∀ {parameters : List Member} {session : Session},
    around.ReachableCleanly session →
    (around.argumentsOf operation owner parameters).runOn session = (.error error, session') →
    (∃ parameter ∈ parameters,
        around.host.MemberFault owner parameter.name parameter.type error) ∨
      around.FieldFault session' error
  | [], _, _, hrun => by cases hrun
  | parameter :: parameters, session, h, hrun => by
      rcases SessionStep.runOn_bind_eq_error_iff.1 hrun with
        hfirst | ⟨first, session₁, hfirst, hrun⟩
      · exact (fault_of_argumentOf h hfirst).imp_left fun hfault =>
          ⟨parameter, List.mem_cons_self, hfault⟩
      obtain ⟨hclean₁, -⟩ := argumentOf_eq_ok h hfirst
      rcases SessionStep.runOn_bind_eq_error_iff.1 hrun with hothers | ⟨others, _, -, hrun⟩
      · exact (fault_of_argumentsOf hclean₁ hothers).imp_left fun ⟨other, hother, hfault⟩ =>
          ⟨other, List.mem_cons_of_mem _ hother, hfault⟩
      · cases hrun

/-! ## Requests -/

/-- What the request of an accessor is composed of in a session: a literal that passes each
parameter and the selection of the result, if that is an object. -/
structure Composes (around : Surroundings) (owner : String) (operation : FieldDecl)
    (accessor : Accessor) (session : Session) (passed : List (Member × String))
    (selection : Option String) (session' : Session) : Prop where
  parameters : passed.map (·.1) = accessor.parameters
  passes : ∀ pair ∈ passed, around.Passes session' pair.1 pair.2
  runs : ∃ response outputName session₁ arguments,
    (around.resultOf operation owner accessor).runOn session =
      (.ok (response, outputName, selection), session₁) ∧
    (around.argumentsOf operation owner accessor.parameters).runOn session₁ =
      (.ok arguments, session') ∧
    arguments.map (·.1) = passed.map argumentText

/-- The loose text of a request. -/
def requestText (kind : OperationKind) (operation : FieldDecl) (passed : List (Member × String))
    (selection : Option String) : String :=
  ExampleRequest.compose kind operation.name (passed.map argumentText) selection

variable {kind : OperationKind} {accessor : Accessor} {passed : List (Member × String)}
  {selection : Option String}

/-- What a record is assembled of. -/
theorem runOn_assemble_eq_ok_iff {record : OperationRecord} :
    (around.assemble kind owner operation accessor).runOn session = (.ok record, session') ↔
      ∃ response outputName selection session₁ arguments request,
        (around.resultOf operation owner accessor).runOn session =
          (.ok (response, outputName, selection), session₁) ∧
        (around.argumentsOf operation owner accessor.parameters).runOn session₁ =
          (.ok arguments, session') ∧
        ExampleRequest.canonical kind
          (ExampleRequest.compose kind operation.name (arguments.map (·.1)) selection) =
            .ok request ∧
        record = {
          description := accessor.description
          operation := accessor.operation
          name := operation.name
          methodName := accessor.name
          outputName := outputName
          parameters := arguments.map (·.2)
          exampleRequest := request
          exampleResponse := (envelope operation.name response).toPretty
          accessNote := (accessor.access.bind AccessRule.parse?).map (·.note) } := by
  constructor
  · intro hrun
    obtain ⟨⟨response, outputName, selection⟩, session₁, hresult, hrun⟩ :=
      SessionStep.runOn_bind_eq_ok_iff.1 hrun
    obtain ⟨arguments, session₂, harguments, hrun⟩ := SessionStep.runOn_bind_eq_ok_iff.1 hrun
    obtain ⟨request, hrequest, hrun⟩ := SessionStep.runOn_ofExcept_bind_eq_ok_iff.1 hrun
    cases hrun
    exact ⟨response, outputName, selection, session₁, arguments, request, hresult, harguments,
      hrequest, rfl⟩
  · rintro ⟨response, outputName, selection, session₁, arguments, request, hresult, harguments,
      hrequest, rfl⟩
    exact SessionStep.runOn_bind_eq_ok_iff.2 ⟨_, session₁, hresult,
      SessionStep.runOn_bind_eq_ok_iff.2 ⟨arguments, session', harguments,
        SessionStep.runOn_ofExcept_bind_eq_ok_iff.2 ⟨request, hrequest, rfl⟩⟩⟩

/-- A request is composed, or the host model is to blame. -/
theorem exists_composes_or_fault (h : around.ReachableCleanly session) (kind : OperationKind)
    (owner : String) (operation : FieldDecl) (accessor : Accessor) :
    (∃ passed selection session',
        around.Composes owner operation accessor session passed selection session') ∨
      ∃ error session', (around.assemble kind owner operation accessor).runOn session =
        (.error error, session') ∧ around.AssemblyFault owner accessor session' error := by
  rcases hresult : (around.resultOf operation owner accessor).runOn session with
    ⟨error | ⟨response, outputName, selection⟩, session₁⟩
  · exact .inr ⟨error, session₁, SessionStep.runOn_bind_eq_error_iff.2 (.inl hresult),
      fault_of_resultOf h hresult⟩
  obtain ⟨hclean₁, -⟩ := resultOf_eq_ok h hresult
  rcases harguments : (around.argumentsOf operation owner accessor.parameters).runOn session₁ with
    ⟨error | arguments, session'⟩
  · refine .inr ⟨error, session', SessionStep.runOn_bind_eq_error_iff.2 (.inr ⟨_, session₁, hresult,
      SessionStep.runOn_bind_eq_error_iff.2 (.inl harguments)⟩), ?_⟩
    rcases fault_of_argumentsOf hclean₁ harguments with ⟨parameter, hmem, hfault⟩ | hfault
    · exact .parameter hmem hfault
    · exact .field hfault
  · obtain ⟨-, -, passed, hparameters, htexts, hpasses⟩ := argumentsOf_eq_ok hclean₁ harguments
    exact .inl ⟨passed, selection, session', hparameters, hpasses, response, outputName, session₁,
      arguments, hresult, harguments, htexts⟩

/-- Unless the host model is to blame, a request is composed. -/
theorem exists_composes (h : around.ReachableCleanly session)
    (hfault : ∀ error session', (around.assemble kind owner operation accessor).runOn session =
      (.error error, session') → ¬ error.IsModelFault) :
    ∃ passed selection session',
      around.Composes owner operation accessor session passed selection session' := by
  refine (exists_composes_or_fault h kind owner operation accessor).resolve_right ?_
  rintro ⟨error, session', hrun, hassembly⟩
  exact hfault error session' hrun hassembly.isModelFault

/-- Composes the loose text of the request of an accessor. -/
def loose (around : Surroundings) (kind : OperationKind) (owner : String) (operation : FieldDecl)
    (accessor : Accessor) : SessionStep String := do
  let (_, _, selection) ← around.resultOf operation owner accessor
  let arguments ← around.argumentsOf operation owner accessor.parameters
  return ExampleRequest.compose kind operation.name (arguments.map (·.1)) selection

theorem Composes.runOn_loose
    (hcomposes : around.Composes owner operation accessor session passed selection session') :
    (around.loose kind owner operation accessor).runOn session =
      (.ok (requestText kind operation passed selection), session') := by
  obtain ⟨response, outputName, session₁, arguments, hresult, harguments, htexts⟩ := hcomposes.runs
  rw [requestText, ← htexts]
  exact SessionStep.runOn_bind_eq_ok_iff.2 ⟨_, session₁, hresult,
    SessionStep.runOn_bind_eq_ok_iff.2 ⟨arguments, session', harguments, rfl⟩⟩

/-- A record fails as its composition does, or because the composed text is no request. -/
theorem runOn_assemble_eq_error {text : String}
    (hloose : ((around.loose kind owner operation accessor).runOn session).1 = .ok text)
    (hrun : (around.assemble kind owner operation accessor).runOn session =
      (.error error, session')) :
    ExampleRequest.canonical kind text = .error error := by
  rcases SessionStep.runOn_bind_eq_error_iff.1 hrun with
    hresult | ⟨⟨response, outputName, selection⟩, session₁, hresult, hrun⟩
  · rw [loose, SessionStep.runOn_bind, hresult] at hloose
    cases hloose
  rw [loose, SessionStep.runOn_bind, hresult] at hloose
  rcases SessionStep.runOn_bind_eq_error_iff.1 hrun with
    harguments | ⟨arguments, session₂, harguments, hrun⟩
  · simp only [SessionStep.runOn_bind, harguments] at hloose
    cases hloose
  simp only [SessionStep.runOn_bind, harguments, SessionStep.runOn_pure, Except.ok.injEq] at hloose
  rcases SessionStep.runOn_ofExcept_bind_eq_error_iff.1 hrun with
    ⟨hcanonical, -⟩ | ⟨request, -, hrun⟩
  · rwa [hloose] at hcanonical
  · cases hrun

/-- A record fails because the host model is to blame, or because the text that was composed is no
request. -/
theorem fault_of_assemble (h : around.ReachableCleanly session)
    (hrun : (around.assemble kind owner operation accessor).runOn session =
      (.error error, session')) :
    around.AssemblyFault owner accessor session' error ∨
      ∃ passed selection session₁,
        around.Composes owner operation accessor session passed selection session₁ ∧
          ExampleRequest.canonical kind (requestText kind operation passed selection) =
            .error error := by
  rcases exists_composes_or_fault h kind owner operation accessor with
    ⟨passed, selection, session₁, hcomposes⟩ | ⟨error', session₁, hfails, hfault⟩
  · exact .inr ⟨passed, selection, session₁, hcomposes,
      runOn_assemble_eq_error (by rw [hcomposes.runOn_loose]) hrun⟩
  · rw [hrun] at hfails
    cases hfails
    exact .inl hfault

/-- What a request is composed of is left in a session to which no failing call led. -/
theorem Composes.reachableCleanly (h : around.ReachableCleanly session)
    (hcomposes : around.Composes owner operation accessor session passed selection session') :
    around.ReachableCleanly session' := by
  obtain ⟨response, outputName, session₁, arguments, hresult, harguments, -⟩ := hcomposes.runs
  exact (argumentsOf_eq_ok (resultOf_eq_ok h hresult).1 harguments).1

/-- The selection of a composed request is that of a sample. -/
theorem Composes.exists_sample (h : around.ReachableCleanly session)
    (hcomposes : around.Composes owner operation accessor session passed selection session')
    {text : String} (htext : selection = some text) :
    ∃ name sample, session'.sample? name = some sample ∧ text = sample.selection := by
  obtain ⟨response, outputName, session₁, arguments, hresult, harguments, -⟩ := hcomposes.runs
  obtain ⟨hclean₁, hselection⟩ := resultOf_eq_ok h hresult
  have hgrows := grows_of_keeps (keeps_argumentsOf operation owner _) hclean₁ harguments
  obtain ⟨sample, hsample, htext⟩ := hselection text htext
  exact ⟨outputName, sample, hgrows.sample? hsample, htext⟩

/-- A record documents its operation and its accessor. -/
structure Documents (operation : FieldDecl) (accessor : Accessor) (selection : Option String)
    (session : Session) (record : OperationRecord) : Prop where
  name : record.name = operation.name
  parameters : record.parameters.map (·.name) = accessor.parameters.map (·.name)
  selection : ∀ text, selection = some text →
    ∃ sample, session.sample? record.outputName = some sample ∧ text = sample.selection

/-- A composed request with a canonical form makes a record. -/
theorem Composes.exists_record (h : around.ReachableCleanly session)
    (hcomposes : around.Composes owner operation accessor session passed selection session')
    {request : String}
    (hrequest : ExampleRequest.canonical kind (requestText kind operation passed selection) =
      .ok request) :
    ∃ record, (around.assemble kind owner operation accessor).runOn session =
      (.ok record, session') ∧
      record.exampleRequest = request ∧ Documents operation accessor selection session' record := by
  obtain ⟨response, outputName, session₁, arguments, hresult, harguments, htexts⟩ := hcomposes.runs
  obtain ⟨hclean₁, hselection⟩ := resultOf_eq_ok h hresult
  obtain ⟨-, hnames, -⟩ := argumentsOf_eq_ok hclean₁ harguments
  have hgrows := grows_of_keeps (keeps_argumentsOf operation owner _) hclean₁ harguments
  rw [requestText, ← htexts] at hrequest
  refine ⟨_, runOn_assemble_eq_ok_iff.2 ⟨response, outputName, selection, session₁, arguments,
    request, hresult, harguments, hrequest, rfl⟩, rfl, rfl, ?_, ?_⟩
  · simpa [Function.comp_def] using hnames
  · intro text htext
    obtain ⟨sample, hsample, rfl⟩ := hselection text htext
    exact ⟨sample, hgrows.sample? hsample, rfl⟩

/-- Every record is a composed request in canonical form with its documentation. -/
theorem exists_composes_of_assemble (h : around.ReachableCleanly session) {record : OperationRecord}
    (hrun : (around.assemble kind owner operation accessor).runOn session =
      (.ok record, session')) :
    ∃ passed selection, around.Composes owner operation accessor session passed selection session' ∧
      ExampleRequest.canonical kind (requestText kind operation passed selection) =
        .ok record.exampleRequest ∧
      Documents operation accessor selection session' record := by
  obtain ⟨response, outputName, selection, session₁, arguments, request, hresult, harguments,
    hrequest, -⟩ := runOn_assemble_eq_ok_iff.1 hrun
  obtain ⟨-, -, passed, hparameters, htexts, hpasses⟩ :=
    argumentsOf_eq_ok (resultOf_eq_ok h hresult).1 harguments
  have hcomposes : around.Composes owner operation accessor session passed selection session' :=
    ⟨hparameters, hpasses, response, outputName, session₁, arguments, hresult, harguments, htexts⟩
  rw [htexts] at hrequest
  obtain ⟨record', hrun', rfl, hdocuments⟩ := hcomposes.exists_record h hrequest
  rw [hrun] at hrun'
  cases hrun'
  exact ⟨passed, selection, hcomposes, hrequest, hdocuments⟩

end Surroundings

end OperationAtlas
