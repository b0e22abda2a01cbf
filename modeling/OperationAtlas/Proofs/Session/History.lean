import OperationAtlas.Proofs.Session.Walk
import OperationAtlas.Sample.Record

/-!
# Histories of sessions

A session is used from outside by two calls: to walk a type, and to assemble the record of an
operation. `Surroundings.Reachable` holds of the sessions that any number of calls lead to, whether
they succeed or not, and `Surroundings.ReachableCleanly` of those that no failing call led to. Every
call is a sequence of steps (`Call.keeps`), so what steps preserve holds of every reachable session
(`Reachable.invariant`), and between calls of which none failed no walk is running
(`ReachableCleanly.running_eq_nil`).
-/

namespace OperationAtlas

namespace SessionStep

variable {α β : Type} {session : Session}

@[simp] theorem runOn_pure (a : α) :
    (pure a : SessionStep α).runOn session = (.ok a, session) := rfl

@[simp] theorem runOn_throw (error : DocError) :
    (throw error : SessionStep α).runOn session = (.error error, session) := rfl

@[simp] theorem runOn_get :
    (get : SessionStep Session).runOn session = (.ok session, session) := rfl

@[simp] theorem runOn_ofExcept (result : Except DocError α) :
    (ofExcept result).runOn session = (result, session) := rfl

theorem runOn_bind (step : SessionStep α) (next : α → SessionStep β) :
    (step >>= next).runOn session =
      match step.runOn session with
      | (.ok a, session') => (next a).runOn session'
      | (.error error, session') => (.error error, session') := by
  change (match step.runOn session with
    | (result, session') => ExceptT.bindCont next result session') = _
  rcases step.runOn session with ⟨_ | _, _⟩ <;> rfl

/-- A bind succeeds exactly if both parts do. -/
theorem runOn_bind_eq_ok_iff {step : SessionStep α} {next : α → SessionStep β} {b : β}
    {session' : Session} :
    (step >>= next).runOn session = (.ok b, session') ↔
      ∃ a session₁, step.runOn session = (.ok a, session₁) ∧
        (next a).runOn session₁ = (.ok b, session') := by
  rw [runOn_bind]
  rcases step.runOn session with ⟨_ | _, _⟩ <;> simp

/-- A bind fails exactly if its first part does, or its second part after the first. -/
theorem runOn_bind_eq_error_iff {step : SessionStep α} {next : α → SessionStep β} {error : DocError}
    {session' : Session} :
    (step >>= next).runOn session = (.error error, session') ↔
      step.runOn session = (.error error, session') ∨
        ∃ a session₁, step.runOn session = (.ok a, session₁) ∧
          (next a).runOn session₁ = (.error error, session') := by
  rw [runOn_bind]
  rcases step.runOn session with ⟨_ | _, _⟩ <;> simp

/-- What fails without changing the session is passed on. -/
theorem runOn_ofExcept_bind_eq_ok_iff {result : Except DocError α} {next : α → SessionStep β}
    {b : β}
    {session' : Session} :
    (ofExcept result >>= next).runOn session = (.ok b, session') ↔
      ∃ a, result = .ok a ∧ (next a).runOn session = (.ok b, session') := by
  rw [runOn_bind, runOn_ofExcept]
  cases result <;> simp

theorem runOn_ofExcept_bind_eq_error_iff {result : Except DocError α} {next : α → SessionStep β}
    {error : DocError} {session' : Session} :
    (ofExcept result >>= next).runOn session = (.error error, session') ↔
      (result = .error error ∧ session = session') ∨
        ∃ a, result = .ok a ∧ (next a).runOn session = (.error error, session') := by
  rw [runOn_bind, runOn_ofExcept]
  cases result <;> simp

/-! ## Parts of a call -/

/-- A property of parts of a call that holds of those that leave the session alone, and of two parts
one after the other if it holds of each. -/
structure Compositional (Holds : ∀ α : Type, SessionStep α → Prop) : Prop where
  ofExcept {α : Type} (result : Except DocError α) : Holds α (ofExcept result)
  get : Holds Session get
  bind {α β : Type} {step : SessionStep α} {next : α → SessionStep β} (hstep : Holds α step)
    (hnext : ∀ a, Holds β (next a)) : Holds β (step >>= next)

namespace Compositional

variable {Holds : ∀ α : Type, SessionStep α → Prop} (h : Compositional Holds)
  {around : Surroundings} {operation : FieldDecl}
  (hwalk : ∀ name origin, Holds (Option TypeFields)
    (ExceptT.mk fun session => around.synthesize operation name origin session))

include h

theorem pure (a : α) : Holds α (Pure.pure a) :=
  h.ofExcept (.ok a)

theorem throw (error : DocError) : Holds α (MonadExcept.throw error) :=
  h.ofExcept (.error error)

include hwalk

theorem sampleOf (name : String) (origin : Origin) :
    Holds Sample (around.sampleOf operation name origin) := by
  refine h.bind (hwalk name origin) fun _ => h.bind h.get fun session => ?_
  split
  · exact h.pure _
  · exact h.throw _

theorem resultOf (owner : String) (accessor : Accessor) :
    Holds (Json × String × Option String) (around.resultOf operation owner accessor) := by
  refine h.bind (h.ofExcept _) fun (element, depth) => h.bind (h.ofExcept _) fun kind => ?_
  split
  · exact h.pure _
  · exact h.bind (h.sampleOf hwalk _ _) fun _ => h.pure _

theorem argumentOf (owner : String) (parameter : Member) :
    Holds (String × ParameterSummary) (around.argumentOf operation owner parameter) := by
  refine h.bind (h.ofExcept _) fun (element, depth) => h.bind (h.ofExcept _) fun kind => ?_
  dsimp only
  split
  · exact h.bind (h.pure _) fun _ => h.pure _
  · exact h.bind (h.sampleOf hwalk _ _) fun _ => h.bind (h.pure _) fun _ => h.pure _

theorem argumentsOf (owner : String) : ∀ parameters : List Member,
    Holds (List (String × ParameterSummary)) (around.argumentsOf operation owner parameters)
  | [] => h.pure _
  | parameter :: parameters =>
    h.bind (h.argumentOf hwalk owner parameter) fun _ =>
      h.bind (argumentsOf owner parameters) fun _ => h.pure _

/-- A record is assembled by walks and by parts that leave the session alone. -/
theorem assemble (kind : OperationKind) (owner : String) (accessor : Accessor) :
    Holds OperationRecord (around.assemble kind owner operation accessor) :=
  h.bind (h.resultOf hwalk owner accessor) fun (_, _, _) =>
    h.bind (h.argumentsOf hwalk owner accessor.parameters) fun _ =>
      h.bind (h.ofExcept _) fun _ => h.pure _

end Compositional

end SessionStep

namespace Surroundings

variable (around : Surroundings)

/-! ## What parts of a call keep -/

/-- A part of a call changes the session by steps only, and leaves the running types as they were if
it succeeds. -/
def Keeps {α : Type} (step : SessionStep α) : Prop :=
  ∀ session, session.WellFormed → ∀ result session', step.runOn session = (result, session') →
    around.Steps session.running session session' ∧
      ∀ a, result = .ok a → session'.running = session.running

variable {around : Surroundings} {α β : Type}

theorem Keeps.get : around.Keeps (get : SessionStep Session) := by
  rintro session - result session' ⟨⟩
  exact ⟨.refl, fun _ _ => rfl⟩

theorem Keeps.ofExcept (result : Except DocError α) :
    around.Keeps (SessionStep.ofExcept result) := by
  rintro session - result session' ⟨⟩
  exact ⟨.refl, fun _ _ => rfl⟩

theorem Keeps.bind {step : SessionStep α} {next : α → SessionStep β} (hstep : around.Keeps step)
    (hnext : ∀ a, around.Keeps (next a)) : around.Keeps (step >>= next) := by
  intro session hwf result session' hrun
  cases result with
  | error error =>
    rcases SessionStep.runOn_bind_eq_error_iff.1 hrun with hfails | ⟨a, session₁, hfirst, hsecond⟩
    · exact ⟨(hstep session hwf _ _ hfails).1, nofun⟩
    · obtain ⟨hsteps₁, hrunning₁⟩ := hstep session hwf _ _ hfirst
      obtain ⟨hsteps, -⟩ := hnext a session₁ (hsteps₁.wellFormed hwf) _ _ hsecond
      rw [hrunning₁ a rfl] at hsteps
      exact ⟨hsteps₁.trans hsteps, nofun⟩
  | ok b =>
    obtain ⟨a, session₁, hfirst, hsecond⟩ := SessionStep.runOn_bind_eq_ok_iff.1 hrun
    obtain ⟨hsteps₁, hrunning₁⟩ := hstep session hwf _ _ hfirst
    obtain ⟨hsteps, hrunning⟩ := hnext a session₁ (hsteps₁.wellFormed hwf) _ _ hsecond
    rw [hrunning₁ a rfl] at hsteps hrunning
    exact ⟨hsteps₁.trans hsteps, hrunning⟩

theorem Keeps.compositional : SessionStep.Compositional fun _ step => around.Keeps step where
  ofExcept := .ofExcept
  get := .get
  bind := .bind

/-- Walking a type from outside ends as a walk should, with the documentation of the type if it has
a sample. -/
theorem synthesize_ends (operation : FieldDecl) (name : String) (origin : Origin)
    {session : Session}
    (hwf : session.WellFormed) :
    around.Ends session.running name session
      (fun fields session' => session'.isUntouched name = false ∧
        fields = (session'.sample? name).map (·.fields))
      (around.synthesize operation name origin session).1
      (around.synthesize operation name origin session).2 := by
  obtain ⟨result, session', hvisit, hends⟩ := visit?_ends _ hwf
    (.outside rfl : around.Meets session.running session name (origin.schemaType operation))
    (Nat.lt_succ_self _)
  cases result with
  | error error =>
    simp only [synthesize, hvisit]
    exact ⟨hends.steps, nofun, fun e he => hends.error e (by simpa using he)⟩
  | ok done =>
    simp only [synthesize, hvisit]
    refine ⟨hends.steps, ?_, nofun⟩
    rintro _ ⟨⟩
    obtain ⟨hrunning, htouched⟩ := hends.ok () rfl
    exact ⟨hrunning, htouched, rfl⟩

/-- Walking an untouched declared type from outside changes the session by steps from where the walk
starts, and all the types that it meets besides are met behind fields: `base` is any list. If the
walk fails, the type is running still. -/
theorem synthesize_of_untouched {operation : FieldDecl} {name : String} {origin : Origin}
    {session session' : Session} {type : HostType} {result : Except DocError (Option TypeFields)}
    (hwf : session.WellFormed) (huntouched : session.isUntouched name = true)
    (hdeclared : around.host.find? name = some type)
    (hrun : around.synthesize operation name origin session = (result, session'))
    (base : List String) :
    around.Steps base (session.start name (origin.schemaType operation)) session' ∧
      ∀ error, result = .error error → name ∈ session'.running := by
  obtain ⟨outcome, session₁, hvisit, hsteps, -, herror⟩ := visit?_of_untouched base origin
    (fun _ _ _ hwf hmeets hdepth => visit?_ends _ hwf hmeets hdepth) hwf huntouched hdeclared
    (Nat.lt_succ_self _)
  rw [synthesize, hvisit] at hrun
  cases outcome with
  | error error =>
    cases hrun
    exact ⟨hsteps, fun _ _ => (herror error rfl).1.subset List.mem_cons_self⟩
  | ok done =>
    cases hrun
    exact ⟨hsteps, nofun⟩

theorem keeps_synthesize (operation : FieldDecl) (name : String) (origin : Origin) :
    around.Keeps (ExceptT.mk fun session => around.synthesize operation name origin session) := by
  intro session hwf result session' hrun
  have hends := around.synthesize_ends operation name origin hwf
  change around.synthesize operation name origin session = _ at hrun
  rw [hrun] at hends
  exact ⟨hends.steps, fun a ha => (hends.ok a ha).1⟩

theorem keeps_argumentsOf (operation : FieldDecl) (owner : String) (parameters : List Member) :
    around.Keeps (around.argumentsOf operation owner parameters) :=
  Keeps.compositional.argumentsOf (keeps_synthesize operation) owner parameters

end Surroundings

/-! ## Calls -/

/-- A call from outside. -/
inductive Call
  /-- Walks a type. -/
  | synthesize (operation : FieldDecl) (name : String) (origin : Origin)
  /-- Assembles the record of an operation. -/
  | assemble (kind : OperationKind) (owner : String) (operation : FieldDecl) (accessor : Accessor)

namespace Call

variable (around : Surroundings)

/-- What a call does to a session, and whether it succeeds. -/
def step : Call → SessionStep Unit
  | synthesize operation name origin => do
    let _ ← (ExceptT.mk fun session => around.synthesize operation name origin session :
      SessionStep (Option TypeFields))
  | assemble kind owner operation accessor => do
    let _ ← around.assemble kind owner operation accessor

/-- Calls are walks and parts that leave the session alone. -/
theorem compositional {around : Surroundings} {Holds : ∀ α : Type, SessionStep α → Prop}
    (h : SessionStep.Compositional Holds)
    (hwalk : ∀ operation name origin, Holds (Option TypeFields)
      (ExceptT.mk fun session => around.synthesize operation name origin session)) :
    ∀ call : Call, Holds Unit (call.step around)
  | synthesize operation name origin => h.bind (hwalk operation name origin) fun _ => h.pure _
  | assemble kind owner operation accessor =>
    h.bind (h.assemble (hwalk operation) kind owner accessor) fun _ => h.pure _

theorem keeps {around : Surroundings} : ∀ call : Call, around.Keeps (call.step around) :=
  compositional Surroundings.Keeps.compositional Surroundings.keeps_synthesize

end Call

namespace Surroundings

variable (around : Surroundings)

/-- Makes calls one after the other, up to the first that fails. -/
def perform (calls : List Call) : SessionStep Unit :=
  forM calls (Call.step around)

theorem perform_append (calls later : List Call) :
    around.perform (calls ++ later) = around.perform calls >>= fun _ => around.perform later :=
  List.forM_append

/-- Calls succeed one after the other exactly if the first one does and the others do after it. -/
theorem runOn_perform_cons_eq_ok_iff {call : Call} {calls : List Call} {session session' : Session} :
    (around.perform (call :: calls)).runOn session = (.ok (), session') ↔
      ∃ session₁, (call.step around).runOn session = (.ok (), session₁) ∧
        (around.perform calls).runOn session₁ = (.ok (), session') := by
  rw [perform, List.forM_cons, SessionStep.runOn_bind_eq_ok_iff]
  exact ⟨fun ⟨_, session₁, h⟩ => ⟨session₁, h⟩, fun ⟨session₁, h⟩ => ⟨(), session₁, h⟩⟩

/-- A session that calls lead to, some of which may fail. -/
inductive Reachable : Session → Prop
  | fresh : Reachable {}
  | call {session : Session} (h : Reachable session) (call : Call) :
      Reachable ((call.step around).runOn session).2

/-- A session that calls lead to of which none fails. -/
inductive ReachableCleanly : Session → Prop
  | fresh : ReachableCleanly {}
  | call {session session' : Session} (h : ReachableCleanly session) (call : Call)
      (hok : (call.step around).runOn session = (.ok (), session')) : ReachableCleanly session'

variable {around : Surroundings} {session : Session}

theorem ReachableCleanly.reachable (h : around.ReachableCleanly session) :
    around.Reachable session := by
  induction h with
  | fresh => exact .fresh
  | call _ call hok ih =>
    have := ih.call call
    rwa [hok] at this

/-- What a step preserves, any number of steps do. -/
theorem Steps.invariant {base : List String} {session' : Session}
    (hsteps : around.Steps base session session') (Holds : Session → Prop)
    (hstep : ∀ session session', session.WellFormed → Holds session →
      around.Step base session session' → Holds session')
    (hwf : session.WellFormed) (hholds : Holds session) : session'.WellFormed ∧ Holds session' := by
  induction hsteps with
  | refl => exact ⟨hwf, hholds⟩
  | tail _ hlast ih => exact ⟨hlast.wellFormed ih.1, hstep _ _ ih.1 ih.2 hlast⟩

/-- What holds of a new session and is preserved by steps holds of every reachable session. -/
theorem Reachable.invariant (h : around.Reachable session) (Holds : Session → Prop)
    (hfresh : Holds {})
    (hstep : ∀ base session session', session.WellFormed → Holds session →
      around.Step base session session' → Holds session') :
    session.WellFormed ∧ Holds session := by
  induction h with
  | fresh => exact ⟨.fresh, hfresh⟩
  | @call session _ call ih =>
    obtain ⟨hwf, hholds⟩ := ih
    exact (call.keeps session hwf _ _ rfl).1.invariant Holds (hstep _) hwf hholds

/-- A part of a call leads from every reachable session to such a session. -/
theorem Reachable.compositional : SessionStep.Compositional fun _ step =>
    ∀ session, around.Reachable session → around.Reachable (step.runOn session).2 where
  ofExcept _ := fun _ h => h
  get := fun _ h => h
  bind {_ _ step _} hstep hnext := by
    intro session h
    have h₁ := hstep session h
    rw [SessionStep.runOn_bind]
    rcases hrun : step.runOn session with ⟨_ | a, session₁⟩
    · rw [hrun] at h₁
      exact h₁
    · rw [hrun] at h₁
      exact hnext a session₁ h₁

theorem Reachable.synthesize (h : around.Reachable session) (operation : FieldDecl) (name : String)
    (origin : Origin) : around.Reachable (around.synthesize operation name origin session).2 := by
  have hcall : (((Call.synthesize operation name origin).step around).runOn session).2 =
      (around.synthesize operation name origin session).2 := by
    have hwalk : SessionStep.runOn
        (ExceptT.mk fun session => around.synthesize operation name origin session) session =
          around.synthesize operation name origin session :=
      rfl
    rw [Call.step, SessionStep.runOn_bind, hwalk]
    rcases around.synthesize operation name origin session with ⟨_ | _, _⟩ <;> rfl
  exact hcall ▸ h.call (.synthesize operation name origin)

theorem Reachable.wellFormed (h : around.Reachable session) : session.WellFormed :=
  (h.invariant (fun _ => True) trivial fun _ _ _ _ _ _ => trivial).1

/-- Between calls of which none failed no walk is running. -/
theorem ReachableCleanly.running_eq_nil (h : around.ReachableCleanly session) :
    session.running = [] := by
  induction h with
  | fresh => rfl
  | call hclean call hok ih =>
    rw [← ih]
    exact (call.keeps _ hclean.reachable.wellFormed _ _ hok).2 () rfl

/-- Calls that succeed one after the other lead from such a session to such a session. -/
theorem ReachableCleanly.perform : ∀ {calls : List Call} {session session' : Session},
    around.ReachableCleanly session →
    (around.perform calls).runOn session = (.ok (), session') → around.ReachableCleanly session'
  | [], _, _, h, hrun => by
      cases hrun
      exact h
  | first :: calls, _, _, h, hrun => by
      obtain ⟨session₁, hfirst, hothers⟩ := around.runOn_perform_cons_eq_ok_iff.1 hrun
      exact (h.call first hfirst).perform hothers

/-- Where calls succeed one after the other, each of them does in some session. -/
theorem exists_step_of_perform_eq_ok {calls : List Call} {call : Call} {session session' : Session}
    (hrun : (around.perform calls).runOn session = (.ok (), session')) (hcall : call ∈ calls) :
    ∃ before after, (call.step around).runOn before = (.ok (), after) := by
  obtain ⟨earlier, later, rfl⟩ := List.append_of_mem hcall
  rw [around.perform_append] at hrun
  obtain ⟨_, before, -, hrun⟩ := SessionStep.runOn_bind_eq_ok_iff.1 hrun
  obtain ⟨after, hstep, -⟩ := around.runOn_perform_cons_eq_ok_iff.1 hrun
  exact ⟨before, after, hstep⟩

/-- Where calls fail one after the other, all calls before some call succeed and this call fails. -/
theorem exists_call_of_perform_eq_error {error : DocError} :
    ∀ {calls : List Call} {session session' : Session},
      (around.perform calls).runOn session = (.error error, session') →
      ∃ before call after session₁, calls = before ++ call :: after ∧
        (around.perform before).runOn session = (.ok (), session₁) ∧
        (call.step around).runOn session₁ = (.error error, session')
  | [], _, _, hrun => by cases hrun
  | call :: calls, session, session', hrun => by
      rw [Surroundings.perform, List.forM_cons] at hrun
      rcases SessionStep.runOn_bind_eq_error_iff.1 hrun with hfirst | ⟨_, session₁, hfirst, hothers⟩
      · exact ⟨[], call, calls, session, rfl, rfl, hfirst⟩
      · obtain ⟨before, failing, after, session₂, rfl, hbefore, hfails⟩ :=
          exists_call_of_perform_eq_error hothers
        exact ⟨call :: before, failing, after, session₂, rfl,
          around.runOn_perform_cons_eq_ok_iff.2 ⟨session₁, hfirst, hbefore⟩, hfails⟩

/-- Calls of which none fails are steps between which a type is met from outside only while no walk
is running. -/
theorem ReachableCleanly.steps (h : around.ReachableCleanly session) :
    around.Steps [] {} session := by
  induction h with
  | fresh => exact .refl
  | call hclean call hok ih =>
    have hsteps := (call.keeps _ hclean.reachable.wellFormed _ _ hok).1
    rw [hclean.running_eq_nil] at hsteps
    exact ih.trans hsteps

end Surroundings

end OperationAtlas
