import OperationAtlas.Proofs.Session.Failures
import OperationAtlas.Sample.Ledger

/-!
# Ledgers and sessions

A ledger that is used by the same calls as a session holds the parts of that session at every moment
(`Ledger.run_ofSession`): between the parts of a call the ledger is `Ledger.ofSession` of the
session, so what is known of sessions holds of ledgers part by part. In `Ledger.holds_after_calls`
the maps of a ledger agree and grow, although nothing in a ledger keeps them together.
-/

namespace OperationAtlas

namespace Ledger

open OrderedMap

/-! ## The parts of a session -/

/-- The parts of a session. The walks were entered in the order in which the types were met. -/
def ofSession (session : Session) : Ledger where
  objectTypes := mapValues (·.fields) session.samples
  examples := mapValues (·.response) session.samples
  selections := mapValues (·.selection) session.samples
  argumentObjects := mapValues (·.argument) session.samples
  schemaNames := session.schemaNames
  running := session.running
  entered := session.schemaNames.map (·.1)

section

variable {session : Session} {name : String}

theorem isUntouched_ofSession (session : Session) (name : String) :
    (ofSession session).isUntouched name = session.isUntouched name := by
  simp [isUntouched, Session.isUntouched, ofSession, contains, Session.sample?]

@[simp] theorem lookup_objectTypes_ofSession (session : Session) (name : String) :
    lookup name (ofSession session).objectTypes = (session.sample? name).map (·.fields) :=
  lookup_mapValues _ name session.samples

@[simp] theorem lookup_examples_ofSession (session : Session) (name : String) :
    lookup name (ofSession session).examples = (session.sample? name).map (·.response) :=
  lookup_mapValues _ name session.samples

@[simp] theorem lookup_selections_ofSession (session : Session) (name : String) :
    lookup name (ofSession session).selections = (session.sample? name).map (·.selection) :=
  lookup_mapValues _ name session.samples

@[simp] theorem lookup_argumentObjects_ofSession (session : Session) (name : String) :
    lookup name (ofSession session).argumentObjects = (session.sample? name).map (·.argument) :=
  lookup_mapValues _ name session.samples

theorem start_ofSession (hwf : session.WellFormed) (huntouched : session.isUntouched name = true)
    (schemaType : String) :
    (ofSession session).start name schemaType = ofSession (session.start name schemaType) := by
  obtain ⟨hrunning, hsamples⟩ := Session.isUntouched_iff.1 huntouched
  have hnew : name ∉ session.schemaNames.map (·.1) := by
    rw [hwf.met]
    exact not_or.2 ⟨hsamples, hrunning⟩
  simp [start, ofSession, Session.start, List.insert_of_not_mem hrunning,
    putNew_of_not_mem hnew]

theorem finish_ofSession (session : Session) (name : String) (sample : Sample) :
    (ofSession session).finish name sample = ofSession (session.finish name sample) := by
  simp only [finish, ofSession, Session.finish, mapValues_putNew]

theorem pieceFor_ofSession (session : Session) (field : FieldDecl) (member : Member)
    (name : String) (depth : Nat) :
    (ofSession session).pieceFor field member name depth =
      Surroundings.nestedPiece field member depth (session.sample? name) := by
  simp only [pieceFor, lookup_examples_ofSession, lookup_selections_ofSession,
    lookup_argumentObjects_ofSession]
  cases session.sample? name <;> rfl

end

variable {around : Surroundings} {operation : FieldDecl}

theorem untouchedCount_ofSession (session : Session) :
    untouchedCount around (ofSession session) = around.untouchedCount session := by
  simp only [untouchedCount, Surroundings.untouchedCount, isUntouched_ofSession]

/-! ## Walks -/

/-- The outcome of a walk of a type, part by part. -/
def visited (name : String) :
    Except DocError Unit × Session → Except DocError (Option TypeFields) × Ledger
  | (result, session) =>
    (result.map fun _ => (session.sample? name).map (·.fields), ofSession session)

/-- A visit that may go down deep enough has an outcome, and leaves a well formed later session. -/
theorem visit?_outcome (operation : FieldDecl) (name : String) (origin : Origin) {depth : Nat}
    {session : Session} (hwf : session.WellFormed)
    (hdepth : around.untouchedCount session < depth) :
    ∃ result session', around.visit? operation depth name origin session =
      some (result, session') ∧ session'.WellFormed ∧
        around.untouchedCount session' ≤ around.untouchedCount session := by
  obtain ⟨result, session', hvisit, hends⟩ := Surroundings.visit?_ends depth hwf
    (.outside rfl : around.Meets session.running session name (origin.schemaType operation)) hdepth
  exact ⟨result, session', hvisit, hends.steps.wellFormed hwf,
    Surroundings.untouchedCount_le hends.steps.grows⟩

/-- The walk of fields does the same to a ledger as to the session, if nested walks do. -/
theorem walk_ofSession {depth : Nat}
    (hnested : ∀ name origin session, session.WellFormed →
      around.untouchedCount session < depth →
      synthesize? around operation depth name origin (ofSession session) =
        (around.visit? operation depth name origin session).map (visited name))
    (hostType schemaType : String) :
    ∀ (fields : List FieldDecl) (session : Session), session.WellFormed →
      around.untouchedCount session < depth →
      walk around (synthesize? around operation depth) hostType schemaType fields
          (ofSession session) =
        (around.walk (around.visit? operation depth) hostType schemaType fields session).map
          (Prod.map id ofSession)
  | [], _, _, _ => rfl
  | field :: fields, session, hwf, hdepth => by
      cases hmember : around.memberOf hostType schemaType field with
      | error error => simp [walk, Surroundings.walk, hmember]
      | ok found =>
        obtain ⟨member, element, levels, kind⟩ := found
        rcases Surroundings.memberOf_kind hmember with ⟨leaf, rfl⟩ | ⟨rfl, name, type, rfl, -⟩
        · have hwalk := walk_ofSession hnested hostType schemaType fields session hwf hdepth
          simp only [walk, Surroundings.walk, hmember, hwalk]
          rcases around.walk (around.visit? operation depth) hostType schemaType fields session
            with _ | ⟨_ | _, _⟩ <;> rfl
        · obtain ⟨result, session₁, hvisit, hwf₁, hle⟩ :=
            visit?_outcome operation name (.nested field.type.name) hwf hdepth
          have hnested₁ := hnested name (.nested field.type.name) session hwf hdepth
          rw [hvisit] at hnested₁
          cases result with
          | error error =>
            simp [walk, Surroundings.walk, hmember, TypeRef.simpleName, hnested₁, hvisit, visited,
              Except.map]
          | ok done =>
            have hwalk := walk_ofSession hnested hostType schemaType fields session₁ hwf₁
              (Nat.lt_of_le_of_lt hle hdepth)
            simp only [walk, Surroundings.walk, hmember, TypeRef.simpleName, hnested₁, hvisit,
              visited, Option.map_some, Except.map, hwalk, pieceFor_ofSession]
            rcases around.walk (around.visit? operation depth) hostType schemaType fields session₁
              with _ | ⟨_ | _, _⟩
            · rfl
            · rfl
            · cases session₁.sample? name <;> rfl

/-- A walk of a type does the same to a ledger as to the session. -/
theorem synthesize?_ofSession : ∀ (depth : Nat) (name : String) (origin : Origin)
    (session : Session), session.WellFormed → around.untouchedCount session < depth →
      synthesize? around operation depth name origin (ofSession session) =
        (around.visit? operation depth name origin session).map (visited name)
  | 0, _, _, _, _, hdepth => absurd hdepth (Nat.not_lt_zero _)
  | depth + 1, name, origin, session, hwf, hdepth => by
      have hcontains : contains name (ofSession session).objectTypes =
          (session.sample? name).isSome := by
        rw [contains, lookup_objectTypes_ofSession, Option.isSome_map]
      cases huntouched : session.isUntouched name with
      | false =>
        simp only [synthesize?, Surroundings.visit?, huntouched, hcontains,
          lookup_objectTypes_ofSession, Bool.false_eq_true, if_false, Option.map_some, visited,
          Except.map]
        by_cases hrunning : name ∈ session.running
        · have hsample : session.sample? name = none :=
            OrderedMap.lookup_eq_none_iff.2 (hwf.disjoint name hrunning)
          simp [ofSession, hrunning, hsample]
        · have hsample : (session.sample? name).isSome := OrderedMap.isSome_lookup_iff.2
            ((Session.isUntouched_eq_false_iff.1 huntouched).resolve_left hrunning)
          simp [ofSession, hrunning, hsample]
      | true =>
        obtain ⟨hrunning, hnone⟩ := Session.isUntouched_iff.1 huntouched
        have hsample : session.sample? name = none := OrderedMap.lookup_eq_none_iff.2 hnone
        have hnotRunning : (ofSession session).running.contains name = false := by
          simpa [ofSession] using hrunning
        simp only [synthesize?, Surroundings.visit?, huntouched, hcontains, hsample, hnotRunning,
          Option.isSome_none, Bool.false_eq_true, if_false, if_true, resolve]
        cases hget : around.host.get name with
        | error error => rfl
        | ok type =>
          have hdeclared := HostTypes.get_eq_ok_iff.1 hget
          have hstart : around.Step session.running session
              (session.start name (origin.schemaType operation)) :=
            .start (.outside rfl) huntouched hdeclared
          have hcount := Surroundings.untouchedCount_start_lt hdeclared huntouched
            (origin.schemaType operation)
          have hwalk := fun schemaType => walk_ofSession
            (synthesize?_ofSession depth) name schemaType (around.schema.describe schemaType)
            _ (hstart.wellFormed hwf) (by omega)
          simp only [start_ofSession hwf huntouched, hwalk]
          rw [show (lookup name (ofSession (session.start name
            (origin.schemaType operation))).schemaNames) = (session.start name
            (origin.schemaType operation)).schemaName? name from rfl]
          rcases around.walk (around.visit? operation depth) name _ _ _
            with _ | ⟨_ | _, _⟩
          · rfl
          · rfl
          · simp [visited, Except.map, finish_ofSession, lookup_objectTypes_ofSession]

/-- Walking a type from outside does the same to a ledger as to the session. -/
theorem synthesize_ofSession (name : String) (origin : Origin) {session : Session}
    (hwf : session.WellFormed) :
    synthesize around operation name origin (ofSession session) =
      Prod.map id ofSession (around.synthesize operation name origin session) := by
  rw [synthesize, untouchedCount_ofSession,
    synthesize?_ofSession _ name origin session hwf (Nat.lt_succ_self _), Surroundings.synthesize]
  rcases around.visit? operation (around.untouchedCount session + 1) name origin session
    with _ | ⟨_ | _, _⟩ <;> rfl

/-! ## Parts of calls -/

/-- A step of a ledger does to the parts of a session what a step of the session does to it. -/
def Follows {α : Type} (step : LedgerStep α) (sessionStep : SessionStep α) : Prop :=
  ∀ session, session.WellFormed →
    step.runOn (ofSession session) = Prod.map id ofSession (sessionStep.runOn session)

section

variable {α β : Type}

theorem runOn_bind (step : LedgerStep α) (next : α → LedgerStep β) (ledger : Ledger) :
    (step >>= next).runOn ledger =
      match step.runOn ledger with
      | (.ok a, ledger') => (next a).runOn ledger'
      | (.error error, ledger') => (.error error, ledger') := by
  change (match step.runOn ledger with
    | (result, ledger') => ExceptT.bindCont next result ledger') = _
  rcases step.runOn ledger with ⟨_ | _, _⟩ <;> rfl

theorem Follows.ofExcept (result : Except DocError α) :
    Follows (LedgerStep.ofExcept result) (SessionStep.ofExcept result) :=
  fun _ _ => rfl

theorem Follows.pure (a : α) : Follows (Pure.pure a) (Pure.pure a) :=
  .ofExcept (.ok a)

theorem Follows.bind {step : LedgerStep α} {sessionStep : SessionStep α} {next : α → LedgerStep β}
    {sessionNext : α → SessionStep β} (h : Follows step sessionStep)
    (hretains : sessionStep.Retains) (hnext : ∀ a, Follows (next a) (sessionNext a)) :
    Follows (step >>= next) (sessionStep >>= sessionNext) := by
  intro session hwf
  have hwf₁ := (hretains session hwf).1
  rw [runOn_bind, SessionStep.runOn_bind, h session hwf]
  rcases hrun : sessionStep.runOn session with ⟨_ | a, session₁⟩
  · rfl
  · rw [hrun] at hwf₁
    exact hnext a session₁ hwf₁

theorem follows_synthesize (operation : FieldDecl) (name : String) (origin : Origin) :
    Follows (ExceptT.mk fun ledger => synthesize around operation name origin ledger)
      (ExceptT.mk fun session => around.synthesize operation name origin session) :=
  fun _ hwf => synthesize_ofSession name origin hwf

/-- After a walk it does not matter whether a sample is found at once or part by part, if a missing
part is a missing sample. -/
theorem follows_afterWalk {name : String} {origin : Origin} {next : Ledger → LedgerStep β}
    {sessionNext : Sample → SessionStep β}
    (hsome : ∀ session sample, session.sample? name = some sample →
      (next (ofSession session)).runOn (ofSession session) =
        Prod.map id ofSession ((sessionNext sample).runOn session))
    (hnone : ∀ session, session.sample? name = none →
      (next (ofSession session)).runOn (ofSession session) =
        (.error (.missingExample operation.name), ofSession session)) :
    Follows (afterWalk around operation name origin >>= next)
      (around.sampleOf operation name origin >>= sessionNext) := by
  intro session hwf
  rw [afterWalk, Surroundings.sampleOf, bind_assoc, bind_assoc, runOn_bind,
    SessionStep.runOn_bind, follows_synthesize operation name origin session hwf]
  rcases hwalk : SessionStep.runOn (ExceptT.mk fun session =>
    around.synthesize operation name origin session) session with ⟨_ | fields, session₁⟩
  · rfl
  · cases hsample : session₁.sample? name with
    | some sample =>
      simp only [SessionStep.runOn_bind, SessionStep.runOn_get, hsample, SessionStep.runOn_pure]
      exact hsome session₁ sample hsample
    | none =>
      simp only [SessionStep.runOn_bind, SessionStep.runOn_get, hsample, SessionStep.runOn_throw]
      exact hnone session₁ hsample

theorem follows_resultOf (operation : FieldDecl) (owner : String) (accessor : Accessor) :
    Follows (resultOf around operation owner accessor)
      (around.resultOf operation owner accessor) := by
  refine .bind (.ofExcept _) (SessionStep.Retains.compositional.ofExcept _)
    fun (element, depth) =>
      .bind (.ofExcept _) (SessionStep.Retains.compositional.ofExcept _) fun kind => ?_
  cases kind with
  | leaf leaf => exact .pure _
  | list | object =>
    refine follows_afterWalk (fun session sample hsample => ?_) fun session hsample => ?_
    · simp only [lookup_examples_ofSession, lookup_selections_ofSession, hsample]
      rfl
    · simp only [lookup_examples_ofSession, lookup_selections_ofSession, hsample]
      rfl

theorem follows_argumentOf (operation : FieldDecl) (owner : String) (parameter : Member) :
    Follows (argumentOf around operation owner parameter)
      (around.argumentOf operation owner parameter) := by
  refine .bind (.ofExcept _) (SessionStep.Retains.compositional.ofExcept _)
    fun (element, depth) =>
      .bind (.ofExcept _) (SessionStep.Retains.compositional.ofExcept _) fun kind => ?_
  dsimp only
  cases kind with
  | leaf leaf => exact .pure _
  | list | object =>
    refine follows_afterWalk (fun session sample hsample => ?_) fun session hsample => ?_
    · simp only [lookup_argumentObjects_ofSession, hsample]
      rfl
    · simp only [lookup_argumentObjects_ofSession, hsample]
      rfl

theorem follows_argumentsOf (operation : FieldDecl) (owner : String) :
    ∀ parameters : List Member, Follows (argumentsOf around operation owner parameters)
      (around.argumentsOf operation owner parameters)
  | [] => .pure _
  | parameter :: parameters =>
    .bind (follows_argumentOf operation owner parameter)
      (SessionStep.Retains.compositional.argumentOf (Surroundings.retains_synthesize operation)
        owner parameter) fun _ =>
      .bind (follows_argumentsOf operation owner parameters)
        (SessionStep.Retains.compositional.argumentsOf (Surroundings.retains_synthesize operation)
          owner parameters) fun _ => .pure _

theorem follows_assemble (kind : OperationKind) (owner : String) (operation : FieldDecl)
    (accessor : Accessor) :
    Follows (assemble around kind owner operation accessor)
      (around.assemble kind owner operation accessor) :=
  .bind (follows_resultOf operation owner accessor)
    (SessionStep.Retains.compositional.resultOf (Surroundings.retains_synthesize operation) owner
      accessor) fun (_, _, _) =>
    .bind (follows_argumentsOf operation owner accessor.parameters)
      (SessionStep.Retains.compositional.argumentsOf (Surroundings.retains_synthesize operation)
        owner accessor.parameters) fun _ =>
      .bind (.ofExcept _) (SessionStep.Retains.compositional.ofExcept _) fun _ => .pure _

end

end Ledger

/-! ## Calls -/

/-- What a call does to a ledger, and whether it succeeds. -/
def Call.ledgerStep (around : Surroundings) : Call → LedgerStep Unit
  | synthesize operation name origin => do
    let _ ← (ExceptT.mk fun ledger => Ledger.synthesize around operation name origin ledger :
      LedgerStep (Option TypeFields))
  | assemble kind owner operation accessor => do
    let _ ← Ledger.assemble around kind owner operation accessor

namespace Surroundings

variable (around : Surroundings)

/-- The session after some calls, and the outcome of each. -/
def run : List Call → Session → List (Except DocError Unit) × Session
  | [], session => ([], session)
  | call :: calls, session =>
    let (outcome, session) := (call.step around).runOn session
    let (outcomes, session) := run calls session
    (outcome :: outcomes, session)

variable {around} {session : Session}

theorem Reachable.run (h : around.Reachable session) (calls : List Call) :
    around.Reachable (around.run calls session).2 := by
  induction calls generalizing session with
  | nil => exact h
  | cons call calls ih => exact ih (h.call call)

theorem run_concat_snd (calls : List Call) (call : Call) (session : Session) :
    (around.run (calls ++ [call]) session).2 =
      ((call.step around).runOn (around.run calls session).2).2 := by
  induction calls generalizing session with
  | nil => rfl
  | cons first calls ih => exact ih _

theorem ReachableCleanly.run (h : around.ReachableCleanly session) {calls : List Call}
    (hok : ∀ outcome ∈ (around.run calls session).1, outcome = .ok ()) :
    around.ReachableCleanly (around.run calls session).2 := by
  induction calls generalizing session with
  | nil => exact h
  | cons call calls ih =>
    obtain ⟨hfirst, hothers⟩ := List.forall_mem_cons.1 hok
    exact ih (h.call call (Prod.ext hfirst rfl)) hothers

end Surroundings

namespace Ledger

variable (around : Surroundings)

/-- The ledger after some calls, and the outcome of each. -/
def run : List Call → Ledger → List (Except DocError Unit) × Ledger
  | [], ledger => ([], ledger)
  | call :: calls, ledger =>
    let (outcome, ledger) := (call.ledgerStep around).runOn ledger
    let (outcomes, ledger) := run calls ledger
    (outcome :: outcomes, ledger)

variable {around}

theorem follows_call : ∀ call : Call, Follows (call.ledgerStep around) (call.step around)
  | .synthesize operation name origin =>
    .bind (follows_synthesize operation name origin)
      (Surroundings.retains_synthesize operation name origin) fun _ => .pure _
  | .assemble kind owner operation accessor =>
    .bind (follows_assemble kind owner operation accessor)
      (SessionStep.Retains.compositional.assemble (Surroundings.retains_synthesize operation) kind
        owner accessor) fun _ => .pure _

/-- The same calls have the same outcomes on a ledger and on the session, and leave the parts of the
session in the ledger. -/
theorem run_ofSession (calls : List Call) {session : Session} (hwf : session.WellFormed) :
    run around calls (ofSession session) = Prod.map id ofSession (around.run calls session) := by
  induction calls generalizing session with
  | nil => rfl
  | cons call calls ih =>
    have hwf₁ : ((call.step around).runOn session).2.WellFormed :=
      (Surroundings.retains_call call session hwf).1
    rw [run, follows_call call session hwf]
    simp only [Prod.map, id_eq, ih hwf₁, Surroundings.run]

/-- A walk from outside that fails leaves its type without a sample. -/
theorem not_sampled_of_fails {operation : FieldDecl} {name : String} {origin : Origin}
    {session session' : Session} {error : DocError} (hwf : session.WellFormed)
    (hfails : around.synthesize operation name origin session = (.error error, session')) :
    name ∉ session'.samples.map (·.1) := by
  cases hdeclared : around.host.find? name with
  | some type =>
    obtain ⟨-, hrunning⟩ := Surroundings.synthesize_fails hwf hdeclared hfails
    have hends := around.synthesize_ends operation name origin hwf
    rw [hfails] at hends
    exact (hends.steps.wellFormed hwf).disjoint name hrunning
  | none =>
    cases huntouched : session.isUntouched name with
    | false => simp [Surroundings.synthesize, Surroundings.visit?, huntouched] at hfails
    | true =>
      rw [Surroundings.synthesize_of_undeclared huntouched hdeclared] at hfails
      cases hfails
      exact (Session.isUntouched_iff.1 huntouched).2

/-! ## The maps of a ledger -/

/-- The parts of a ledger agree: the same types have a documentation, an example, a selection and an
argument, none of them is running, and the types with a schema type are these and the running
ones. -/
structure Agrees (ledger : Ledger) : Prop where
  nodup : (ledger.objectTypes.map (·.1)).Nodup
  examples : ledger.examples.map (·.1) = ledger.objectTypes.map (·.1)
  selections : ledger.selections.map (·.1) = ledger.objectTypes.map (·.1)
  argumentObjects : ledger.argumentObjects.map (·.1) = ledger.objectTypes.map (·.1)
  disjoint : ∀ name ∈ ledger.running, name ∉ ledger.objectTypes.map (·.1)
  schemaNames_nodup : (ledger.schemaNames.map (·.1)).Nodup
  schemaNames : ∀ name, name ∈ ledger.schemaNames.map (·.1) ↔
    name ∈ ledger.objectTypes.map (·.1) ∨ name ∈ ledger.running

/-- A later ledger: every map is continued. -/
structure Grows (ledger ledger' : Ledger) : Prop where
  objectTypes : ledger.objectTypes <+: ledger'.objectTypes
  examples : ledger.examples <+: ledger'.examples
  selections : ledger.selections <+: ledger'.selections
  argumentObjects : ledger.argumentObjects <+: ledger'.argumentObjects
  schemaNames : ledger.schemaNames <+: ledger'.schemaNames

/-- No part of the sample of a type is in the ledger. -/
structure Lacks (ledger : Ledger) (name : String) : Prop where
  objectTypes : name ∉ ledger.objectTypes.map (·.1)
  examples : name ∉ ledger.examples.map (·.1)
  selections : name ∉ ledger.selections.map (·.1)
  argumentObjects : name ∉ ledger.argumentObjects.map (·.1)

section

variable {session session' : Session} {name : String}

theorem agrees_ofSession (hwf : session.WellFormed) : (ofSession session).Agrees where
  nodup := by simpa [ofSession] using hwf.samples_nodup
  examples := by simp [ofSession]
  selections := by simp [ofSession]
  argumentObjects := by simp [ofSession]
  disjoint := by simpa [ofSession] using hwf.disjoint
  schemaNames_nodup := hwf.schemaNames_nodup
  schemaNames := by simpa [ofSession] using hwf.met

theorem grows_ofSession (h : session.Grows session') :
    (ofSession session).Grows (ofSession session') where
  objectTypes := h.samples.map _
  examples := h.samples.map _
  selections := h.samples.map _
  argumentObjects := h.samples.map _
  schemaNames := h.schemaNames

theorem lacks_ofSession (h : name ∉ session.samples.map (·.1)) :
    (ofSession session).Lacks name where
  objectTypes := by simpa [ofSession] using h
  examples := by simpa [ofSession] using h
  selections := by simpa [ofSession] using h
  argumentObjects := by simpa [ofSession] using h

/-- Whatever calls are made, and whether they fail or not: the parts of the ledger agree, no walk is
running if no call failed, the next call continues the maps, and the next walk, if it fails, leaves
no part of a sample of its type. -/
theorem holds_after_calls (around : Surroundings) (calls : List Call) :
    (run around calls {}).2.Agrees ∧
      ((∀ outcome ∈ (run around calls {}).1, outcome = .ok ()) →
        (run around calls {}).2.running = []) ∧
      (∀ call : Call, (run around calls {}).2.Grows (run around (calls ++ [call]) {}).2) ∧
      ∀ operation name origin error ledger,
        synthesize around operation name origin (run around calls {}).2 = (.error error, ledger) →
          ledger.Lacks name := by
  have hreach : around.Reachable (around.run calls {}).2 := .run .fresh calls
  have hwf := hreach.wellFormed
  have hrun : ∀ calls, run around calls {} = Prod.map id ofSession (around.run calls {}) :=
    fun calls => run_ofSession calls .fresh
  rw [hrun calls]
  refine ⟨agrees_ofSession hwf, fun hok => ?_, fun call => ?_, ?_⟩
  · have hclean : around.ReachableCleanly (around.run calls {}).2 := .run .fresh hok
    exact hclean.running_eq_nil
  · rw [hrun (calls ++ [call])]
    simp only [Prod.map, Surroundings.run_concat_snd]
    exact grows_ofSession (call.keeps _ hwf _ _ rfl).1.grows
  · intro operation name origin error ledger hfails
    simp only [Prod.map, synthesize_ofSession name origin hwf, Prod.mk.injEq, id_eq] at hfails
    obtain ⟨herror, rfl⟩ := hfails
    exact lacks_ofSession (not_sampled_of_fails hwf (Prod.ext herror rfl))

/-- A walk of the user, which fails, and a walk of the group. -/
def driftedCalls : List Call :=
  [.synthesize Surroundings.userOperation "UserView" .result,
    .synthesize ⟨"group", ⟨"Group", false, false⟩, []⟩ "GroupView" .result]

/-- The walk of the user leaves its schema type and nothing else, and the maps agree after it and
after the walk of the group. -/
theorem drifted_ledger_holds_after_calls :
    synthesize Surroundings.drifted Surroundings.userOperation "UserView" .result {} =
        (.error (.schemaDrift "UserView" "User" "email"),
          (run Surroundings.drifted (driftedCalls.take 1) {}).2) ∧
      (run Surroundings.drifted (driftedCalls.take 1) {}).2.Lacks "UserView" ∧
      (run Surroundings.drifted driftedCalls {}).2.Agrees ∧
      (run Surroundings.drifted driftedCalls {}).2.objectTypes.map (·.1) = ["GroupView"] ∧
      (run Surroundings.drifted driftedCalls {}).2.running = ["UserView"] ∧
      (run Surroundings.drifted driftedCalls {}).2.schemaNames =
        [("UserView", "User"), ("GroupView", "Group")] := by
  have hfails : synthesize Surroundings.drifted Surroundings.userOperation "UserView" .result {} =
      (.error (.schemaDrift "UserView" "User" "email"),
        (run Surroundings.drifted (driftedCalls.take 1) {}).2) := by
    rfl
  obtain ⟨hagrees, -, -, -⟩ := holds_after_calls Surroundings.drifted driftedCalls
  obtain ⟨-, -, -, hlacks⟩ := holds_after_calls Surroundings.drifted []
  exact ⟨hfails, hlacks _ _ _ _ _ hfails, hagrees, by rfl, by rfl, by rfl⟩

end

end Ledger

end OperationAtlas
