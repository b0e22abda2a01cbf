import OperationAtlas.Proofs.Session.Step

/-!
# Walks are sequences of steps

`visit?_ends` simulates a whole walk, nested walks included, by steps. It also says that the walk
has an outcome if it may go down deeper than there are untouched types, that a walk that succeeds
leaves the running types as they were and its type touched, and that a walk that fails blames the
host model and leaves the types on the way running.

The piece of a nested object is made when its field is passed, the sample of the type only when all
fields are passed. In between nothing that matters changes: a sample that was there stays, and a
type without a sample was running and is so still, and has no sample then (`pieceOf_eq_of_ended`).
-/

namespace OperationAtlas

namespace Surroundings

variable {around : Surroundings} {base : List String}

/-! ## How many types are untouched -/

/-- The count only goes down. -/
theorem untouchedCount_le {session session' : Session} (h : session.Grows session') :
    around.untouchedCount session' ≤ around.untouchedCount session :=
  List.Sublist.length_le (List.monotone_filter_right _ fun type => h.touched type.name)

/-- The count goes down when an untouched type starts. -/
theorem untouchedCount_start_lt {session : Session} {name : String} {type : HostType}
    (hdeclared : around.host.find? name = some type) (huntouched : session.isUntouched name = true)
    (schemaType : String) :
    around.untouchedCount (session.start name schemaType) < around.untouchedCount session := by
  have hgone : ∀ other, (session.start name schemaType).isUntouched other = true →
      session.isUntouched other = true ∧ other ≠ name := by
    intro other hother
    rw [Session.isUntouched_iff, Session.start_running, List.mem_cons, not_or,
      Session.start_samples] at hother
    exact ⟨Session.isUntouched_iff.2 ⟨hother.1.2, hother.2⟩, hother.1.1⟩
  have hsub : ((around.host.types.filter fun type => session.isUntouched type.name).filter
      fun type => (session.start name schemaType).isUntouched type.name) =
      around.host.types.filter fun type =>
        (session.start name schemaType).isUntouched type.name := by
    rw [List.filter_filter]
    exact List.filter_congr fun other _ => by
      by_cases h : (session.start name schemaType).isUntouched other.name = true
      · simp [h, (hgone _ h).1]
      · simp [h]
  unfold untouchedCount
  rw [← hsub]
  refine List.length_filter_lt_length_iff_exists.2 ⟨type, ?_, ?_⟩
  · rw [List.mem_filter, HostTypes.name_of_find? hdeclared]
    exact ⟨HostTypes.mem_of_find? hdeclared, huntouched⟩
  · rw [HostTypes.name_of_find? hdeclared]
    exact fun h => (hgone name h).2 rfl

/-! ## What a part of a walk ends in -/

/-- The host is to blame for a field of a running type. -/
inductive FieldFault (around : Surroundings) (session : Session) (error : DocError) : Prop
  | intro {owner ownerSchema : String} {field : FieldDecl} (hrunning : owner ∈ session.running)
      (hschema : session.schemaName? owner = some ownerSchema)
      (hfield : field ∈ around.schema.describe ownerSchema)
      (herror : around.memberOf owner ownerSchema field = .error error) :
      FieldFault around session error

/-- A failure of the walk of a type: the type is not declared, or the host is to blame for a
field. -/
inductive Fault (around : Surroundings) (name : String) (session : Session) : DocError → Prop
  | undeclared (h : around.host.find? name = none) :
      Fault around name session (.unknownHostType name)
  | field {error : DocError} (h : around.FieldFault session error) :
      Fault around name session error

theorem FieldFault.isModelFault {session : Session} {error : DocError}
    (h : around.FieldFault session error) : error.IsModelFault := by
  obtain ⟨_, _, _, herror⟩ := h
  exact isModelFault_of_memberOf herror

theorem Fault.isModelFault {name : String} {session : Session} {error : DocError}
    (h : around.Fault name session error) : error.IsModelFault := by
  cases h with
  | undeclared h => exact .unknownHostType name
  | field h => exact h.isModelFault

/-- The walk of a declared type fails at a field. -/
theorem Fault.of_declared {name : String} {session : Session} {error : DocError} {type : HostType}
    (h : around.Fault name session error) (hdeclared : around.host.find? name = some type) :
    around.FieldFault session error := by
  cases h with
  | undeclared hnone =>
    rw [hdeclared] at hnone
    cases hnone
  | field h => exact h

/-- What a part of the walk of a type that starts in `session` ends in: by steps, with the running
types as they were and a result as wanted, or in a failure. -/
structure Ends (around : Surroundings) (base : List String) (name : String) (session : Session)
    {α : Type} (Wanted : α → Session → Prop) (result : Except DocError α) (session' : Session) :
    Prop where
  steps : around.Steps base session session'
  ok : ∀ a, result = .ok a → session'.running = session.running ∧ Wanted a session'
  error : ∀ e, result = .error e →
    session.running <:+ session'.running ∧ around.Fault name session' e

/-- A visit leaves its type touched. -/
abbrev VisitEnds (around : Surroundings) (base : List String) (session : Session) (name : String) :
    Except DocError Unit → Session → Prop :=
  around.Ends base name session fun _ session' => session'.isUntouched name = false

/-- A part of a walk whose result is wrapped ends as before. -/
theorem Ends.map {α β : Type} {name : String} {session session' : Session}
    {Wanted : α → Session → Prop} {Wanted' : β → Session → Prop} {result : Except DocError α}
    (h : around.Ends base name session Wanted result session') {wrap : α → β}
    (hwrap : ∀ a, session'.running = session.running → Wanted a session' →
      Wanted' (wrap a) session') :
    around.Ends base name session Wanted' (result.map wrap) session' := by
  refine ⟨h.steps, ?_, ?_⟩
  · intro b hb
    cases result with
    | error => cases hb
    | ok a =>
      cases hb
      obtain ⟨hrunning, hwanted⟩ := h.ok a rfl
      exact ⟨hrunning, hwrap a hrunning hwanted⟩
  · intro e he
    cases result with
    | error =>
      cases he
      exact h.error e rfl
    | ok => cases he

/-- Two parts of a walk, one after the other, of which the first succeeds. -/
theorem Ends.after {α β : Type} {name nested : String} {session session₁ session' : Session}
    {Wanted : α → Session → Prop} {Wanted₁ : β → Session → Prop} {result : Except DocError α}
    {done : β} (h : around.Ends base name session₁ Wanted result session')
    (h₁ : around.Ends base nested session Wanted₁ (.ok done) session₁) :
    around.Ends base name session Wanted result session' := by
  have hrunning := (h₁.ok done rfl).1
  refine ⟨h₁.steps.trans h.steps, fun a ha => ?_, fun e he => ?_⟩
  · exact ⟨(h.ok a ha).1.trans hrunning, (h.ok a ha).2⟩
  · exact hrunning ▸ h.error e he

/-! ## The pieces of the fields -/

/-- The contribution of a field that leads to an object type, given the sample of that type. -/
def nestedPiece (field : FieldDecl) (member : Member) (depth : Nat) : Option Sample → Piece
  | some sample => .ofSample field member sample depth
  | none => .stub field member depth

section

variable {owner ownerSchema name : String} {field : FieldDecl} {member : Member} {levels : Nat}
  {known : List (String × Sample)}

theorem pieceOf_of_leaf {element : TypeRef} {leaf : Leaf}
    (h : around.memberOf owner ownerSchema field = .ok (member, element, levels, .leaf leaf)) :
    around.pieceOf known owner ownerSchema field = .ok (.ofLeaf field member leaf levels) := by
  simp [pieceOf, h]

theorem pieceOf_of_object
    (h : around.memberOf owner ownerSchema field = .ok (member, .plain name, levels, .object)) :
    around.pieceOf known owner ownerSchema field =
      .ok (nestedPiece field member levels (OrderedMap.lookup name known)) := by
  simp only [pieceOf, h, ok_bind, TypeRef.simpleName]
  cases OrderedMap.lookup name known <;> rfl

theorem not_refers_of_leaf {element : TypeRef} {leaf : Leaf}
    (h : around.memberOf owner ownerSchema field = .ok (member, element, levels, .leaf leaf)) :
    ¬around.Refers owner ownerSchema field name := by
  rintro ⟨_, _, hobject⟩
  rw [h] at hobject
  cases hobject

theorem Refers.eq {other : String} (hother : around.Refers owner ownerSchema field other)
    (h : around.Refers owner ownerSchema field name) : other = name := by
  obtain ⟨_, _, hother⟩ := hother
  obtain ⟨_, _, h⟩ := h
  rw [h] at hother
  cases hother
  rfl

/-- Between two sessions of a walk with the same running types, the piece of a field stays the same
once the type that the field leads to is touched. -/
theorem pieceOf_eq_of_ended {session session' : Session} (hwf' : session'.WellFormed)
    (hgrows : session.Grows session') (hrunning : session'.running = session.running)
    (hmember :
      around.memberOf owner ownerSchema field = .ok (member, .plain name, levels, .object))
    (htouched : session.isUntouched name = false) :
    around.pieceOf session'.samples owner ownerSchema field =
      .ok (nestedPiece field member levels (session.sample? name)) := by
  rw [pieceOf_of_object hmember]
  unfold Session.sample?
  cases hsample : OrderedMap.lookup name session.samples with
  | some sample => rw [OrderedMap.lookup_of_prefix hgrows.samples hsample]
  | none =>
    -- without a sample the nested type is running, and so it is without a sample still
    have hnone := OrderedMap.lookup_eq_none_iff.1 hsample
    have hrun : name ∈ session.running :=
      (Session.isUntouched_eq_false_iff.1 htouched).resolve_right hnone
    rw [OrderedMap.lookup_eq_none_iff.2 (hwf'.disjoint name (hrunning ▸ hrun))]

/-- A walk that leaves the pieces of some fields and the piece of one more before them. -/
theorem Completes.cons {session : Session} {fields : List FieldDecl} {piece : Piece}
    {pieces : List Piece} (h : around.Completes session owner ownerSchema fields pieces)
    (hpiece : around.pieceOf session.samples owner ownerSchema field = .ok piece)
    (htouched : ∀ nested, around.Refers owner ownerSchema field nested →
      session.isUntouched nested = false) :
    around.Completes session owner ownerSchema (field :: fields) (piece :: pieces) where
  pieces := .cons hpiece h.pieces
  touched := List.forall_mem_cons.2 ⟨htouched, h.touched⟩

variable {visitNested : String → Origin → Session → Outcome Unit} {fields : List FieldDecl}
  {session session₁ session' : Session} {result : Except DocError (List Piece)}

theorem walk_of_leaf {element : TypeRef} {leaf : Leaf}
    (h : around.memberOf owner ownerSchema field = .ok (member, element, levels, .leaf leaf))
    (hwalk : around.walk visitNested owner ownerSchema fields session = some (result, session')) :
    around.walk visitNested owner ownerSchema (field :: fields) session =
      some (result.map (.ofLeaf field member leaf levels :: ·), session') := by
  cases result <;> simp [walk, h, hwalk, Except.map]

theorem walk_of_object
    (h : around.memberOf owner ownerSchema field = .ok (member, .plain name, levels, .object))
    (hnested : visitNested name (.nested field.type.name) session = some (.ok (), session₁))
    (hwalk : around.walk visitNested owner ownerSchema fields session₁ = some (result, session')) :
    around.walk visitNested owner ownerSchema (field :: fields) session =
      some (result.map (nestedPiece field member levels (session₁.sample? name) :: ·),
        session') := by
  simp only [walk, h, TypeRef.simpleName, hnested, hwalk]
  cases result with
  | error => rfl
  | ok => cases session₁.sample? name <;> rfl

end

/-! ## The simulation -/

variable {operation : FieldDecl}

/-- The walk of some fields of the innermost type has an outcome, reached by steps. -/
theorem walk_ends (visitNested : String → Origin → Session → Outcome Unit) {depth : Nat}
    (hvisit : ∀ name schemaType session, session.WellFormed →
      around.Meets base session name schemaType → around.untouchedCount session < depth →
      ∃ result session', visitNested name (.nested schemaType) session = some (result, session') ∧
        around.VisitEnds base session name result session')
    {owner ownerSchema : String} {rest : List String} :
    ∀ (fields : List FieldDecl) (session : Session), session.WellFormed →
      session.running = owner :: rest → session.schemaName? owner = some ownerSchema →
      (∀ field ∈ fields, field ∈ around.schema.describe ownerSchema) →
      around.untouchedCount session < depth →
      ∃ result session',
        around.walk visitNested owner ownerSchema fields session = some (result, session') ∧
        around.Ends base owner session
          (fun pieces session' => around.Completes session' owner ownerSchema fields pieces)
          result session'
  | [], session, _, _, _, _, _ => by
      refine ⟨.ok [], session, rfl, .refl, ?_, nofun⟩
      rintro _ ⟨⟩
      exact ⟨rfl, .nil, nofun⟩
  | field :: fields, session, hwf, hrunning, hschema, hfields, hdepth => by
      obtain ⟨hfield, hothers⟩ := List.forall_mem_cons.1 hfields
      cases hmember : around.memberOf owner ownerSchema field with
      | error error =>
        refine ⟨.error error, session, by simp [walk, hmember], .refl, nofun, ?_⟩
        rintro _ ⟨⟩
        exact ⟨List.suffix_rfl, .field ⟨by simp [hrunning], hschema, hfield, hmember⟩⟩
      | ok found =>
        obtain ⟨member, element, levels, kind⟩ := found
        rcases memberOf_kind hmember with ⟨leaf, rfl⟩ | ⟨rfl, name, type, rfl, hdeclared⟩
        · obtain ⟨result, session', hwalk, hends⟩ :=
            walk_ends visitNested hvisit fields session hwf hrunning hschema hothers hdepth
          refine ⟨_, session', walk_of_leaf hmember hwalk, hends.map fun pieces _ hcompletes => ?_⟩
          exact hcompletes.cons (pieceOf_of_leaf hmember) fun nested hrefers =>
            absurd hrefers (not_refers_of_leaf hmember)
        · have hrefers : around.Refers owner ownerSchema field name := ⟨member, levels, hmember⟩
          obtain ⟨result₁, session₁, hnested, hends₁⟩ := hvisit name field.type.name session hwf
            (.field hrunning hschema hfield hrefers) hdepth
          cases result₁ with
          | error error =>
            refine ⟨.error error, session₁, by simp [walk, hmember, TypeRef.simpleName, hnested],
              hends₁.steps, nofun, ?_⟩
            rintro _ ⟨⟩
            exact (hends₁.error error rfl).imp_right fun h => .field (h.of_declared hdeclared)
          | ok done =>
            obtain ⟨hrunning₁, htouched⟩ := hends₁.ok done rfl
            have hwf₁ := hends₁.steps.wellFormed hwf
            obtain ⟨result, session', hwalk, hends⟩ :=
              walk_ends visitNested hvisit fields session₁ hwf₁ (hrunning₁.trans hrunning)
                (hends₁.steps.grows.schemaName? hschema) hothers
                (Nat.lt_of_le_of_lt (untouchedCount_le hends₁.steps.grows) hdepth)
            have hgrows := hends.steps.grows
            refine ⟨_, session', walk_of_object hmember hnested hwalk,
              (hends.map fun pieces hrunning' hcompletes => ?_).after hends₁⟩
            refine hcompletes.cons (pieceOf_eq_of_ended (hends.steps.wellFormed hwf₁) hgrows
              hrunning' hmember htouched) fun nested hnested => ?_
            rw [hnested.eq hrefers, Bool.eq_false_iff]
            exact fun h => Bool.eq_false_iff.1 htouched (hgrows.touched name h)

/-- The walk of an untouched declared type has an outcome, reached by steps from where it starts. If
it fails, the type is running still. -/
theorem visit?_of_untouched (base : List String) (origin : Origin) {depth : Nat} {name : String}
    {session : Session} {type : HostType}
    (hvisit : ∀ nested schemaType later, later.WellFormed →
      around.Meets base later nested schemaType → around.untouchedCount later < depth →
      ∃ result later',
        around.visit? operation depth nested (.nested schemaType) later = some (result, later') ∧
        around.VisitEnds base later nested result later')
    (hwf : session.WellFormed) (huntouched : session.isUntouched name = true)
    (hdeclared : around.host.find? name = some type)
    (hdepth : around.untouchedCount session < depth + 1) :
    ∃ result session',
      around.visit? operation (depth + 1) name origin session = some (result, session') ∧
      around.Steps base (session.start name (origin.schemaType operation)) session' ∧
      (result = .ok () → session'.running = session.running ∧ session'.isUntouched name = false) ∧
      ∀ error, result = .error error →
        name :: session.running <:+ session'.running ∧ around.Fault name session' error := by
  have hget := HostTypes.get_eq_ok_iff.2 hdeclared
  have hstart : around.Step session.running session
      (session.start name (origin.schemaType operation)) :=
    .start (.outside rfl) huntouched hdeclared
  have hwf₁ := hstart.wellFormed hwf
  have hschema := hwf.schemaName?_start huntouched (origin.schemaType operation)
  obtain ⟨result, session', hwalk, hends⟩ := walk_ends (around.visit? operation depth) hvisit
    (around.schema.describe (origin.schemaType operation)) _ hwf₁ Session.start_running hschema
    (fun _ h => h) (by
      have := untouchedCount_start_lt hdeclared huntouched (origin.schemaType operation)
      omega)
  cases result with
  | error error =>
    refine ⟨.error error, session', by simp [visit?, huntouched, hget, hschema, hwalk],
      hends.steps, nofun, ?_⟩
    rintro _ ⟨⟩
    exact hends.error error rfl
  | ok pieces =>
    obtain ⟨hrunning', hcompletes⟩ := hends.ok pieces rfl
    rw [Session.start_running] at hrunning'
    have hfinish : around.Step base session' _ := Step.finish hrunning' hdeclared
      (hends.steps.grows.schemaName? hschema) hcompletes
    refine ⟨.ok (), _, by simp [visit?, huntouched, hget, hschema, hwalk],
      hends.steps.tail hfinish, fun _ => ?_, nofun⟩
    refine ⟨(hends.steps.wellFormed hwf₁).finish_running hrunning' _, ?_⟩
    rw [Session.isUntouched_eq_false_iff, Session.finish_samples, OrderedMap.mem_keys_putNew]
    exact .inr (.inl rfl)

/-- A visit that may go down deeper than there are untouched types has an outcome, reached by
steps. -/
theorem visit?_ends : ∀ (depth : Nat) {name : String} {origin : Origin} {session : Session},
    session.WellFormed → around.Meets base session name (origin.schemaType operation) →
    around.untouchedCount session < depth →
    ∃ result session', around.visit? operation depth name origin session = some (result, session') ∧
      around.VisitEnds base session name result session'
  | 0, _, _, _, _, _, hdepth => absurd hdepth (Nat.not_lt_zero _)
  | depth + 1, name, origin, session, hwf, hmeets, hdepth => by
      cases huntouched : session.isUntouched name with
      | false =>
        refine ⟨.ok (), session, by simp [visit?, huntouched], .refl, ?_, nofun⟩
        rintro _ ⟨⟩
        exact ⟨rfl, huntouched⟩
      | true =>
        cases hget : around.host.get name with
        | error error =>
          obtain ⟨hnone, rfl⟩ := HostTypes.get_eq_error_iff.1 hget
          refine ⟨.error (.unknownHostType name), session, by simp [visit?, huntouched, hget],
            .refl, nofun, ?_⟩
          rintro _ ⟨⟩
          exact ⟨List.suffix_rfl, .undeclared hnone⟩
        | ok type =>
          have hdeclared := HostTypes.get_eq_ok_iff.1 hget
          obtain ⟨result, session', hvisit, hsteps, hok, herror⟩ := visit?_of_untouched base origin
            (fun _ _ _ hwf hmeets hdepth => visit?_ends depth hwf hmeets hdepth) hwf huntouched
            hdeclared hdepth
          refine ⟨result, session', hvisit,
            .head (Step.start hmeets huntouched hdeclared) hsteps, fun _ ha => hok ha, ?_⟩
          intro error hfails
          obtain ⟨hsuffix, hfault⟩ := herror error hfails
          exact ⟨(List.suffix_cons _ _).trans hsuffix, hfault⟩

end Surroundings

end OperationAtlas
