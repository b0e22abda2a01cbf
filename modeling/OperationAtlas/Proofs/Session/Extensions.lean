import OperationAtlas.Proofs.Host.Extensions
import OperationAtlas.Proofs.Session.History

/-!
# Walks next to a host that answers more

A walk that succeeds has an answer to each of its questions, and next to a host that extends the one
it ran on (`Surroundings.Extends`) it gets the same answers. So it does the same there: it leaves the
same session, however much deeper it may go (`Extends.visit?`). This passes on to all that a call is
made of, as `SessionStep.Carries` is a property of one part after the other, up to the assembly of a
record (`Extends.assemble`).

Nothing is said about walks that fail. What is added to a host may repair them.
-/

namespace OperationAtlas

variable {around around' : Surroundings} {operation : FieldDecl} {session session' : Session}

/-! ## Walks -/

namespace Surroundings

section

variable {visitNested visitNested' : String → Origin → Session → Outcome Unit}
  {owner schemaType : String} {field : FieldDecl} {fields : List FieldDecl} {pieces : List Piece}

/-- A walk of fields that succeeds passes the first field and then the others: behind the first
stands a leaf, or an object whose visit succeeds. -/
theorem exists_of_walk_cons
    (hwalk : around.walk visitNested owner schemaType (field :: fields) session =
      some (.ok pieces, session')) :
    ∃ member depth others,
      (∃ element leaf,
        around.memberOf owner schemaType field = .ok (member, element, depth, .leaf leaf) ∧
        around.walk visitNested owner schemaType fields session = some (.ok others, session') ∧
        pieces = .ofLeaf field member leaf depth :: others) ∨
      ∃ name session₁,
        around.memberOf owner schemaType field = .ok (member, .plain name, depth, .object) ∧
        visitNested name (.nested field.type.name) session = some (.ok (), session₁) ∧
        around.walk visitNested owner schemaType fields session₁ = some (.ok others, session') ∧
        pieces = nestedPiece field member depth (session₁.sample? name) :: others := by
  cases hmember : around.memberOf owner schemaType field with
  | error error => simp [walk, hmember] at hwalk
  | ok found =>
    obtain ⟨member, element, depth, kind⟩ := found
    rcases memberOf_kind hmember with ⟨leaf, rfl⟩ | ⟨rfl, name, type, rfl, -⟩
    · rcases hothers : around.walk visitNested owner schemaType fields session with
        _ | ⟨error | others, session₁⟩
      · simp [walk, hmember, hothers] at hwalk
      · simp [walk, hmember, hothers] at hwalk
      · rw [walk_of_leaf hmember hothers] at hwalk
        cases hwalk
        exact ⟨member, depth, others, .inl ⟨element, leaf, rfl, rfl, rfl⟩⟩
    · rcases hnested : visitNested name (.nested field.type.name) session with
        _ | ⟨error | done, session₁⟩
      · simp [walk, hmember, TypeRef.simpleName, hnested] at hwalk
      · simp [walk, hmember, TypeRef.simpleName, hnested] at hwalk
      · rcases hothers : around.walk visitNested owner schemaType fields session₁ with
          _ | ⟨error | others, session₂⟩
        · simp [walk, hmember, TypeRef.simpleName, hnested, hothers] at hwalk
        · simp [walk, hmember, TypeRef.simpleName, hnested, hothers] at hwalk
        · rw [walk_of_object hmember hnested hothers] at hwalk
          cases hwalk
          exact ⟨member, depth, others, .inr ⟨name, session₁, rfl, hnested, hothers, rfl⟩⟩

/-- The walk of schema fields does the same if nested visits do. -/
theorem Extends.walk (h : around.Extends around')
    (hnested : ∀ name origin session session',
      visitNested name origin session = some (.ok (), session') →
        visitNested' name origin session = some (.ok (), session')) :
    ∀ {fields : List FieldDecl} {session : Session} {pieces : List Piece},
      (∀ field ∈ fields, field ∈ around.schema.describe schemaType) →
      around.walk visitNested owner schemaType fields session = some (.ok pieces, session') →
      around'.walk visitNested' owner schemaType fields session = some (.ok pieces, session')
  | [], _, _, _, hwalk => hwalk
  | field :: fields, session, pieces, hfields, hwalk => by
      obtain ⟨hfield, hothers⟩ := List.forall_mem_cons.1 hfields
      obtain ⟨member, depth, others, ⟨element, leaf, hmember, hrest, rfl⟩ |
        ⟨name, session₁, hmember, hvisit, hrest, rfl⟩⟩ := exists_of_walk_cons hwalk
      · exact walk_of_leaf (h.memberOf hfield hmember) (h.walk hnested hothers hrest)
      · exact walk_of_object (h.memberOf hfield hmember) (hnested _ _ _ _ hvisit)
          (h.walk hnested hothers hrest)

end

/-- A type that says the same to a schema has the same sample. -/
theorem ofPieces_of_extends {schema : SchemaIndex} {type type' : HostType}
    (h : type.Extends schema type') (schemaType : String) (pieces : List Piece) :
    Sample.ofPieces type' schemaType pieces = Sample.ofPieces type schemaType pieces := by
  rw [Sample.ofPieces, Sample.ofPieces, h.name, h.description]

/-- A visit that succeeds does the same where it may go down at least as deep. -/
theorem Extends.visit? (h : around.Extends around') : ∀ {depth depth' : Nat} {name : String}
    {origin : Origin} {session session' : Session}, depth ≤ depth' →
    around.visit? operation depth name origin session = some (.ok (), session') →
    around'.visit? operation depth' name origin session = some (.ok (), session')
  | 0, _, _, _, _, _, _, hvisit => by cases hvisit
  | depth + 1, 0, _, _, _, _, hdepth, _ => absurd hdepth (Nat.not_succ_le_zero depth)
  | depth + 1, depth' + 1, name, origin, session, session', hdepth, hvisit => by
      cases huntouched : session.isUntouched name with
      | false =>
        simp only [Surroundings.visit?, huntouched] at hvisit ⊢
        exact hvisit
      | true =>
        cases hget : around.host.get name with
        | error error =>
          simp only [Surroundings.visit?, huntouched, hget] at hvisit
          cases hvisit
        | ok type =>
          obtain ⟨type', hfind, hextends⟩ := h.host name type (HostTypes.get_eq_ok_iff.1 hget)
          simp only [Surroundings.visit?, huntouched, hget, if_true] at hvisit
          simp only [Surroundings.visit?, huntouched, HostTypes.get_eq_ok_iff.2 hfind, if_true,
            h.schema]
          split at hvisit
          · cases hvisit
          · cases hvisit
          · next pieces session₁ hwalk =>
            cases hvisit
            have hwalk' := h.walk
              (fun _ _ _ _ hnested => h.visit? (Nat.le_of_succ_le_succ hdepth) hnested)
              (fun _ hfield => hfield) hwalk
            rw [hwalk']
            simp only [ofPieces_of_extends hextends]

/-- The walk of a type does the same. -/
theorem Extends.synthesize (h : around.Extends around') {name : String} {origin : Origin}
    (hwf : session.WellFormed) {fields : Option TypeFields}
    (hrun : around.synthesize operation name origin session = (.ok fields, session')) :
    around'.synthesize operation name origin session = (.ok fields, session') := by
  obtain ⟨result, session₁, hvisit, -⟩ := visit?_ends _ hwf
    (.outside rfl : around.Meets session.running session name (origin.schemaType operation))
    (Nat.lt_succ_self _)
  rw [Surroundings.synthesize, hvisit] at hrun
  cases result with
  | error error => cases hrun
  | ok done =>
    have hvisit' := h.visit? (Nat.succ_le_succ (h.untouchedCount_le session)) hvisit
    rw [Surroundings.synthesize, hvisit']
    exact hrun

end Surroundings

/-! ## Parts of a call -/

namespace SessionStep

variable {α β : Type}

/-- Wherever a part of a call succeeds, another one does the same. -/
def Carries (step step' : SessionStep α) : Prop :=
  ∀ session, session.WellFormed → ∀ a session', step.runOn session = (.ok a, session') →
    session'.WellFormed ∧ step'.runOn session = (.ok a, session')

theorem Carries.ofExcept {result result' : Except DocError α}
    (h : ∀ a, result = .ok a → result' = .ok a) : Carries (ofExcept result) (ofExcept result') := by
  rintro session hwf a session' hrun
  rw [runOn_ofExcept] at hrun
  cases hrun
  exact ⟨hwf, by rw [runOn_ofExcept, h a rfl]⟩

theorem Carries.same (result : Except DocError α) :
    Carries (SessionStep.ofExcept result) (SessionStep.ofExcept result) :=
  .ofExcept fun _ => id

theorem Carries.pure (a : α) : Carries (Pure.pure a) (Pure.pure a) :=
  .same (.ok a)

theorem Carries.bind {step step' : SessionStep α} {next next' : α → SessionStep β}
    (h : Carries step step') (hnext : ∀ a, Carries (next a) (next' a)) :
    Carries (step >>= next) (step' >>= next') := by
  intro session hwf b session' hrun
  obtain ⟨a, session₁, hstep, hrun⟩ := runOn_bind_eq_ok_iff.1 hrun
  obtain ⟨hwf₁, hstep'⟩ := h session hwf a session₁ hstep
  obtain ⟨hwf', hrun'⟩ := hnext a session₁ hwf₁ b session' hrun
  exact ⟨hwf', runOn_bind_eq_ok_iff.2 ⟨a, session₁, hstep', hrun'⟩⟩

end SessionStep

namespace Surroundings.Extends

open SessionStep

variable (h : around.Extends around')

include h

theorem carries_synthesize (name : String) (origin : Origin) :
    Carries (ExceptT.mk fun session => around.synthesize operation name origin session)
      (ExceptT.mk fun session => around'.synthesize operation name origin session) :=
  fun session hwf _ _ hrun =>
    ⟨(keeps_synthesize operation name origin session hwf _ _ hrun).1.wellFormed hwf,
      h.synthesize hwf hrun⟩

theorem sampleOf (name : String) (origin : Origin) :
    Carries (around.sampleOf operation name origin) (around'.sampleOf operation name origin) := by
  refine .bind (h.carries_synthesize name origin) fun _ =>
    .bind (fun session hwf _ _ hrun => ?_) fun session => ?_
  · cases hrun
    exact ⟨hwf, rfl⟩
  · split
    · exact .pure _
    · exact .same _

theorem resultOf (owner : String) (accessor : Accessor) :
    Carries (around.resultOf operation owner accessor)
      (around'.resultOf operation owner accessor) := by
  refine .bind (.same _) fun (element, depth) => .bind (.ofExcept fun _ => h.host.kind)
    fun kind => ?_
  cases kind with
  | leaf leaf => exact .pure _
  | list | object => exact .bind (h.sampleOf _ _) fun _ => .pure _

theorem argumentOf (owner : String) (parameter : Member) :
    Carries (around.argumentOf operation owner parameter)
      (around'.argumentOf operation owner parameter) := by
  refine .bind (.same _) fun (element, depth) => .bind (.ofExcept fun _ => h.host.kind)
    fun kind => ?_
  cases kind with
  | leaf leaf => exact .pure _
  | list | object => exact .bind (h.sampleOf _ _) fun _ => .pure _

theorem argumentsOf (owner : String) : ∀ parameters : List Member,
    Carries (around.argumentsOf operation owner parameters)
      (around'.argumentsOf operation owner parameters)
  | [] => .pure _
  | parameter :: parameters =>
    .bind (h.argumentOf owner parameter) fun _ => .bind (argumentsOf owner parameters) fun _ =>
      .pure _

/-- A record that is assembled is assembled in the same way. -/
theorem assemble (kind : OperationKind) (owner : String) (accessor : Accessor) :
    Carries (around.assemble kind owner operation accessor)
      (around'.assemble kind owner operation accessor) :=
  .bind (h.resultOf owner accessor) fun (_, _, _) =>
    .bind (h.argumentsOf owner accessor.parameters) fun _ => .bind (.same _) fun _ => .pure _

end Surroundings.Extends

end OperationAtlas
