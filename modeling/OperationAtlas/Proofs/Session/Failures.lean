import OperationAtlas.Proofs.Session.Samples

/-!
# Sessions after failures

A walk that fails takes nothing back: the types on its way stay running, and as nothing ends their
walks any more, they stay so for good (`LeadsTo.running`). So a type of which no walk is running may
still be taken for a running one, and that is exactly a type that an earlier call stranded
(`mem_running_iff`). `Abandoned` says what becomes of it. An undeclared type is not started at all,
and walking it fails in the same way each time.
-/

namespace OperationAtlas

/-! ## What runs keeps running -/

namespace SessionStep

/-- A part of a call takes well formed sessions to such, and leaves running types running. -/
def Retains {α : Type} (step : SessionStep α) : Prop :=
  ∀ session, session.WellFormed →
    (step.runOn session).2.WellFormed ∧ session.running <:+ (step.runOn session).2.running

theorem Retains.bind {α β : Type} {step : SessionStep α} {next : α → SessionStep β}
    (hstep : step.Retains) (hnext : ∀ a, (next a).Retains) : (step >>= next).Retains := by
  intro session hwf
  obtain ⟨hwf₁, hrunning₁⟩ := hstep session hwf
  rw [runOn_bind]
  rcases hrun : step.runOn session with ⟨_ | a, session₁⟩
  · rw [hrun] at hwf₁ hrunning₁
    exact ⟨hwf₁, hrunning₁⟩
  · rw [hrun] at hwf₁ hrunning₁
    obtain ⟨hwf', hrunning'⟩ := hnext a session₁ hwf₁
    exact ⟨hwf', hrunning₁.trans hrunning'⟩

theorem Retains.compositional : Compositional fun _ step => step.Retains where
  ofExcept _ := fun _ hwf => ⟨hwf, List.suffix_rfl⟩
  get := fun _ hwf => ⟨hwf, List.suffix_rfl⟩
  bind := .bind

end SessionStep

namespace Surroundings

variable {around : Surroundings} {session session' : Session} {operation : FieldDecl}
  {name : String} {origin : Origin}

theorem retains_synthesize (operation : FieldDecl) (name : String) (origin : Origin) :
    SessionStep.Retains
      (ExceptT.mk fun session => around.synthesize operation name origin session) := by
  intro session hwf
  have hends := around.synthesize_ends operation name origin hwf
  refine ⟨hends.steps.wellFormed hwf, ?_⟩
  change session.running <:+ (around.synthesize operation name origin session).2.running
  cases hresult : (around.synthesize operation name origin session).1 with
  | error error => exact (hends.error error hresult).1
  | ok fields => exact (hends.ok fields hresult).1 ▸ List.suffix_rfl

theorem retains_call (call : Call) : (call.step around).Retains :=
  Call.compositional SessionStep.Retains.compositional retains_synthesize call

/-- Calls lead from one session to another. -/
abbrev LeadsTo (around : Surroundings) : Session → Session → Prop :=
  Relation.ReflTransGen fun session session' =>
    ∃ call : Call, ((call.step around).runOn session).2 = session'

theorem LeadsTo.reachable (h : around.LeadsTo session session')
    (hreach : around.Reachable session) : around.Reachable session' := by
  induction h with
  | refl => exact hreach
  | tail _ hcall ih =>
    obtain ⟨call, rfl⟩ := hcall
    exact ih.call call

/-- What runs between two calls runs for good. -/
theorem LeadsTo.running (h : around.LeadsTo session session') (hwf : session.WellFormed) :
    session.running <:+ session'.running := by
  suffices session'.WellFormed ∧ session.running <:+ session'.running from this.2
  induction h with
  | refl => exact ⟨hwf, List.suffix_rfl⟩
  | tail _ hcall ih =>
    obtain ⟨call, rfl⟩ := hcall
    obtain ⟨hwf', hrunning'⟩ := retains_call call _ ih.1
    exact ⟨hwf', ih.2.trans hrunning'⟩

/-! ## Stranded types -/

/-- A call fails in a session and leaves a type running whose walk was not running before. -/
structure Strands (around : Surroundings) (call : Call) (session : Session) (name : String)
    (session' : Session) : Prop where
  fails : ∃ error, (call.step around).runOn session = (.error error, session')
  before : name ∉ session.running
  after : name ∈ session'.running

/-- Outside of all calls the running types are those that failing calls stranded. -/
theorem Reachable.mem_running_iff (h : around.Reachable session) :
    name ∈ session.running ↔ ∃ before call after,
      around.Reachable before ∧ around.Strands call before name after ∧
        around.LeadsTo after session := by
  refine ⟨fun hname => ?_, ?_⟩
  · induction h with
    | fresh => cases hname
    | @call session hreach call ih =>
      by_cases hbefore : name ∈ session.running
      · obtain ⟨before, first, after, hreach', hstrands, hleads⟩ := ih hbefore
        exact ⟨before, first, after, hreach', hstrands, hleads.tail ⟨call, rfl⟩⟩
      · cases hrun : (call.step around).runOn session with
        | mk result session' =>
          rw [hrun] at hname
          cases result with
          | error error =>
            exact ⟨session, call, session', hreach, ⟨⟨error, hrun⟩, hbefore, hname⟩, .refl⟩
          | ok done =>
            -- a call that succeeds ends all the walks that it starts
            rw [(call.keeps session hreach.wellFormed _ _ hrun).2 () rfl] at hname
            exact absurd hname hbefore
  · rintro ⟨before, call, after, hreach, hstrands, hleads⟩
    obtain ⟨error, hrun⟩ := hstrands.fails
    have hafter : around.Reachable after := by
      have := hreach.call call
      rwa [hrun] at this
    exact (hleads.running hafter.wellFormed).subset hstrands.after

/-! ## Walks from outside -/

/-- A running type is not walked. -/
theorem synthesize_of_running (hwf : session.WellFormed) (hname : name ∈ session.running) :
    around.synthesize operation name origin session = (.ok none, session) := by
  have htouched := Session.isUntouched_eq_false_iff.2 (.inl hname)
  have hsample : session.sample? name = none :=
    OrderedMap.lookup_eq_none_iff.2 (hwf.disjoint name hname)
  simp [synthesize, visit?, htouched, hsample]

/-- Whatever was met is declared. -/
theorem Reachable.declared (h : around.Reachable session)
    (hname : session.isUntouched name = false) : ∃ type, around.host.find? name = some type := by
  obtain ⟨hwf, hmet⟩ := h.invariant
    (fun session => ∀ name ∈ session.schemaNames.map (·.1),
      ∃ type, around.host.find? name = some type) nofun (by
    intro base session session' _ hmet hstep
    cases hstep with
    | start hmeets huntouched hdeclared =>
      intro other hother
      rcases OrderedMap.mem_keys_putNew.1 hother with rfl | hother
      · exact ⟨_, hdeclared⟩
      · exact hmet other hother
    | finish hrunning hdeclared hschema hcompletes => exact hmet)
  refine hmet name ((hwf.met name).2 ?_)
  exact (Session.isUntouched_eq_false_iff.1 hname).symm

/-- An undeclared type is not started. -/
theorem synthesize_of_undeclared (huntouched : session.isUntouched name = true)
    (hundeclared : around.host.find? name = none) :
    around.synthesize operation name origin session =
      (.error (.unknownHostType name), session) := by
  have hget := HostTypes.get_eq_error_iff.2 ⟨hundeclared, rfl⟩
  simp [synthesize, visit?, huntouched, hget]

/-- A declared type whose walk fails was not touched before, and stays running. -/
theorem synthesize_fails (hwf : session.WellFormed) {type : HostType} {error : DocError}
    (hdeclared : around.host.find? name = some type)
    (h : around.synthesize operation name origin session = (.error error, session')) :
    session.isUntouched name = true ∧ name ∈ session'.running := by
  cases huntouched : session.isUntouched name with
  | false => simp [synthesize, visit?, huntouched] at h
  | true =>
    exact ⟨rfl, (synthesize_of_untouched hwf huntouched hdeclared h session.running).2 error rfl⟩

/-! ## What becomes of a type whose walk failed -/

/-- A type is taken to be running: it has no sample, walking it gives nothing, and where a field of
another type leads to it, the sample of that type shows the stub. -/
structure Abandoned (around : Surroundings) (name : String) (session : Session) : Prop where
  sample : session.sample? name = none
  answer : ∀ operation origin,
    around.synthesize operation name origin session = (.ok none, session)
  shown : ∀ before owner sample after, session.samples = before ++ (owner, sample) :: after →
    ∃ schemaType type found,
      session.schemaName? owner = some schemaType ∧ around.host.find? owner = some type ∧
      found.map Match.field = around.schema.describe schemaType ∧
      (∀ m ∈ found, m.Finds around owner) ∧ Shows before type schemaType found sample ∧
      ∀ m ∈ found, m.element = .plain name → m.kind = .object →
        m.response before =
          Json.nest m.depth (.object [("__typename", .string m.field.type.name)]) ∧
        m.selection before = m.field.name ++ " \x7b\n__typename\n\x7d" ∧
        m.literal before = nestLiteral m.depth "\x7b\x7d"

/-- An object without a sample is shown by the stub. -/
theorem Match.stub_of_not_known {known : List (String × Sample)} {m : Match}
    (helement : m.element = .plain name) (hkind : m.kind = .object)
    (hknown : name ∉ known.map (·.1)) :
    m.response known = Json.nest m.depth (.object [("__typename", .string m.field.type.name)]) ∧
      m.selection known = m.field.name ++ " \x7b\n__typename\n\x7d" ∧
      m.literal known = nestLiteral m.depth "\x7b\x7d" := by
  have hsample := OrderedMap.lookup_eq_none_iff.2 hknown
  simp [Match.response, Match.selection, Match.literal, helement, hkind, TypeRef.simpleName,
    hsample]

theorem Reachable.abandoned (h : around.Reachable session) (hname : name ∈ session.running) :
    around.Abandoned name session where
  sample := OrderedMap.lookup_eq_none_iff.2 (h.wellFormed.disjoint name hname)
  answer _ _ := synthesize_of_running h.wellFormed hname
  shown := by
    intro before owner sample after hsplit
    obtain ⟨-, schemaType, type, found, hschema, hfind, -, hfields, hfound, hshows⟩ :=
      sample_shows_its_fields h hsplit
    refine ⟨schemaType, type, found, hschema, hfind, hfields, hfound, hshows, ?_⟩
    intro m _ helement hkind
    refine Match.stub_of_not_known helement hkind fun hknown => ?_
    refine h.wellFormed.disjoint name hname ?_
    rw [hsplit, List.map_append]
    exact List.mem_append_left _ hknown

/-- A walk from outside gives nothing exactly if its type is running. -/
theorem synthesize_eq_none_iff (hwf : session.WellFormed) :
    (around.synthesize operation name origin session).1 = .ok none ↔ name ∈ session.running := by
  refine ⟨fun hnone => ?_, fun hname => by rw [synthesize_of_running hwf hname]⟩
  obtain ⟨hrunning, htouched, hfields⟩ :=
    (around.synthesize_ends operation name origin hwf).ok none hnone
  have hsample : (around.synthesize operation name origin session).2.sample? name = none := by
    simpa using hfields.symm
  rw [← hrunning]
  exact (Session.isUntouched_eq_false_iff.1 htouched).resolve_right
    (OrderedMap.lookup_eq_none_iff.1 hsample)

/-- As long as no call fails, a walk from outside does not give nothing. -/
theorem ReachableCleanly.synthesize_ne_none (h : around.ReachableCleanly session) :
    (around.synthesize operation name origin session).1 ≠ .ok none := by
  rw [Ne, synthesize_eq_none_iff h.reachable.wellFormed, h.running_eq_nil]
  exact List.not_mem_nil

/-- In a session that calls lead to, whether they fail or not, a walk from outside gives nothing
exactly if a failing call stranded its type. When such a walk fails, an undeclared type fails in the
same way in every later session; a declared type is stranded, and so it is abandoned in every later
session. -/
theorem failing_walk_strands_its_type (h : around.Reachable session) (operation : FieldDecl)
    (name : String) (origin : Origin) :
    ((around.synthesize operation name origin session).1 = .ok none ↔
      ∃ before call after, around.Reachable before ∧ around.Strands call before name after ∧
        around.LeadsTo after session) ∧
    ∀ error after, around.synthesize operation name origin session = (.error error, after) →
      (around.host.find? name = none →
        error = .unknownHostType name ∧ ∀ later, around.LeadsTo after later →
          ∀ operation origin,
            around.synthesize operation name origin later = (.error error, later)) ∧
      ∀ type, around.host.find? name = some type →
        around.Strands (.synthesize operation name origin) session name after ∧
          ∀ later, around.LeadsTo after later → around.Abandoned name later := by
  refine ⟨(synthesize_eq_none_iff h.wellFormed).trans h.mem_running_iff, ?_⟩
  intro error after hfails
  have hcall : ((Call.synthesize operation name origin).step around).runOn session =
      (.error error, after) :=
    SessionStep.runOn_bind_eq_error_iff.2 (.inl hfails)
  have hafter : around.Reachable after := by
    have := h.call (.synthesize operation name origin)
    rwa [hcall] at this
  refine ⟨fun hundeclared => ?_, fun type hdeclared => ?_⟩
  · have huntouched : ∀ later, around.Reachable later → later.isUntouched name = true := by
      intro later hlater
      refine (Bool.eq_false_or_eq_true _).resolve_right fun htouched => ?_
      obtain ⟨type, hdeclared⟩ := hlater.declared htouched
      rw [hundeclared] at hdeclared
      cases hdeclared
    rw [synthesize_of_undeclared (huntouched session h) hundeclared] at hfails
    cases hfails
    exact ⟨rfl, fun later hleads operation origin => synthesize_of_undeclared
      (huntouched later (hleads.reachable hafter)) hundeclared⟩
  · obtain ⟨huntouched, hrunning⟩ := synthesize_fails h.wellFormed hdeclared hfails
    refine ⟨⟨⟨error, hcall⟩, (Session.isUntouched_iff.1 huntouched).1, hrunning⟩, ?_⟩
    intro later hleads
    exact (hleads.reachable hafter).abandoned
      ((hleads.running hafter.wellFormed).subset hrunning)

/-- A schema whose user has an email, and a host without one. Another type has a user. -/
def drifted : Surroundings where
  schema :=
    { types := [
        ("User", [⟨"id", ⟨"ID", false, false⟩, []⟩, ⟨"email", ⟨"String", false, false⟩, []⟩]),
        ("Group", [⟨"owner", ⟨"User", false, false⟩, []⟩])] }
  host :=
    { types := [
        ⟨"UserView", none, none, .object [⟨"id", .plain "Id", {}⟩]⟩,
        ⟨"GroupView", none, none, .object [⟨"owner", .plain "UserView", {}⟩]⟩]
      distinct := by decide }

/-- The operation that gives a user. -/
def userOperation : FieldDecl := ⟨"user", ⟨"User", false, false⟩, []⟩

/-- The session after the walk of the user, which fails. -/
def driftedSession : Session :=
  (drifted.synthesize userOperation "UserView" .result {}).2

/-- The session after a walk of the group as well. -/
def driftedLater : Session :=
  (((Call.synthesize ⟨"group", ⟨"Group", false, false⟩, []⟩ "GroupView" .result).step
    drifted).runOn driftedSession).2

/-- The walk of the user fails the first time and gives nothing the second time, and the group shows
the user by the stub. -/
theorem drifted_user_is_stranded :
    drifted.synthesize userOperation "UserView" .result {} =
        (.error (.schemaDrift "UserView" "User" "email"), driftedSession) ∧
      drifted.synthesize userOperation "UserView" .result driftedSession =
        (.ok none, driftedSession) ∧
      (driftedLater.sample? "GroupView").map (·.selection) =
        some "owner \x7b\n__typename\n\x7d" ∧
      drifted.Abandoned "UserView" driftedLater := by
  have hfails : drifted.synthesize userOperation "UserView" .result {} =
      (.error (.schemaDrift "UserView" "User" "email"), driftedSession) := by
    rfl
  obtain ⟨-, hstrands⟩ := failing_walk_strands_its_type .fresh userOperation "UserView" .result
  obtain ⟨-, habandoned⟩ := (hstrands _ _ hfails).2 _ rfl
  exact ⟨hfails, (habandoned _ .refl).answer _ _, by rfl,
    habandoned driftedLater (.single ⟨_, rfl⟩)⟩

end Surroundings

end OperationAtlas
