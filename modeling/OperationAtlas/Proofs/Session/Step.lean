import Mathlib.Logic.Relation
import OperationAtlas.Proofs.Host
import OperationAtlas.Proofs.OrderedMap

/-!
# The steps of a session

A walk changes a session in two ways only: the walk of a type starts, or it ends and leaves a
sample. `Surroundings.Step` says when each may happen. A type starts if it is declared, untouched
and met: at the outset, or behind a field of the type whose walk is running innermost. A walk that
ends is the innermost one, and its sample is made of one piece for each schema field, where a nested
object shows the sample that it has *at the end* of the walk; that this is the sample it had when
the field was passed is part of the simulation in `Proofs/Session/Walk`.

A session is well formed (`Session.WellFormed`) if its three parts agree. Steps keep that
(`Step.wellFormed`), and they only ever append (`Session.Grows`).
-/

namespace OperationAtlas

namespace Session

/-! ## Well-formed sessions -/

/-- The parts of a session agree: every met type is walked or running and never both, and has one
schema type. -/
structure WellFormed (session : Session) : Prop where
  samples_nodup : (session.samples.map (·.1)).Nodup
  schemaNames_nodup : (session.schemaNames.map (·.1)).Nodup
  running_nodup : session.running.Nodup
  disjoint : ∀ name ∈ session.running, name ∉ session.samples.map (·.1)
  met : ∀ name, name ∈ session.schemaNames.map (·.1) ↔
    name ∈ session.samples.map (·.1) ∨ name ∈ session.running

theorem WellFormed.fresh : WellFormed {} where
  samples_nodup := .nil
  schemaNames_nodup := .nil
  running_nodup := .nil
  disjoint := by simp
  met := by simp

variable {session session' : Session} {name schemaType : String}

theorem isUntouched_iff :
    session.isUntouched name = true ↔
      name ∉ session.running ∧ name ∉ session.samples.map (·.1) := by
  rw [← OrderedMap.lookup_eq_none_iff]
  simp [isUntouched, sample?]

theorem isUntouched_eq_false_iff :
    session.isUntouched name = false ↔
      name ∈ session.running ∨ name ∈ session.samples.map (·.1) := by
  rw [← Bool.not_eq_true, isUntouched_iff, not_and_or, not_not, not_not]

@[simp] theorem start_samples : (session.start name schemaType).samples = session.samples := rfl

@[simp] theorem start_running : (session.start name schemaType).running = name :: session.running :=
  rfl

@[simp] theorem start_schemaNames : (session.start name schemaType).schemaNames =
    OrderedMap.putNew name schemaType session.schemaNames := rfl

@[simp] theorem finish_schemaNames (sample : Sample) :
    (session.finish name sample).schemaNames = session.schemaNames := rfl

@[simp] theorem finish_samples (sample : Sample) : (session.finish name sample).samples =
    OrderedMap.putNew name sample session.samples := rfl

/-- The schema type under which an untouched type starts. -/
theorem WellFormed.schemaName?_start (hwf : session.WellFormed)
    (huntouched : session.isUntouched name = true) (schemaType : String) :
    (session.start name schemaType).schemaName? name = some schemaType := by
  obtain ⟨hrunning, hsamples⟩ := isUntouched_iff.1 huntouched
  have hnew : name ∉ session.schemaNames.map (·.1) := by
    rw [hwf.met]
    exact not_or.2 ⟨hsamples, hrunning⟩
  rw [schemaName?, start_schemaNames, OrderedMap.putNew_of_not_mem hnew, OrderedMap.lookup_append,
    OrderedMap.lookup_eq_none_iff.2 hnew]
  simp

/-- The walk that ends leaves the walks around it running. -/
theorem WellFormed.finish_running (hwf : session.WellFormed) {rest : List String}
    (hrunning : session.running = name :: rest) (sample : Sample) :
    (session.finish name sample).running = rest := by
  have hnodup := hwf.running_nodup
  rw [hrunning, List.nodup_cons] at hnodup
  simp only [finish, hrunning, ne_eq, not_true_eq_false, decide_false, Bool.false_eq_true,
    not_false_eq_true, List.filter_cons_of_neg]
  exact List.filter_eq_self.2 fun other hother => by
    simpa using fun heq : other = name => hnodup.1 (heq ▸ hother)

/-- A running type has no sample, so its sample goes to the end. -/
theorem WellFormed.finish_samples_eq (hwf : session.WellFormed)
    (hrunning : name ∈ session.running) (sample : Sample) :
    (session.finish name sample).samples = session.samples ++ [(name, sample)] :=
  OrderedMap.putNew_of_not_mem (hwf.disjoint name hrunning)

/-! ## Sessions grow -/

/-- A later session: samples and schema types are only appended, and nothing that was touched is
untouched again. -/
structure Grows (session session' : Session) : Prop where
  samples : session.samples <+: session'.samples
  schemaNames : session.schemaNames <+: session'.schemaNames
  touched : ∀ name, session'.isUntouched name = true → session.isUntouched name = true

theorem Grows.refl (session : Session) : Grows session session where
  samples := List.prefix_rfl
  schemaNames := List.prefix_rfl
  touched := fun _ h => h

theorem Grows.trans {session'' : Session} (h : Grows session session')
    (h' : Grows session' session'') : Grows session session'' where
  samples := h.samples.trans h'.samples
  schemaNames := h.schemaNames.trans h'.schemaNames
  touched := fun name hname => h.touched name (h'.touched name hname)

/-- A schema type that was given stays. -/
theorem Grows.schemaName? (h : Grows session session')
    (hname : session.schemaName? name = some schemaType) :
    session'.schemaName? name = some schemaType :=
  OrderedMap.lookup_of_prefix h.schemaNames hname

/-- A sample that was made stays. -/
theorem Grows.sample? (h : Grows session session') {sample : Sample}
    (hsample : session.sample? name = some sample) : session'.sample? name = some sample :=
  OrderedMap.lookup_of_prefix h.samples hsample

end Session

namespace Surroundings

/-! ## Steps -/

variable (around : Surroundings)

/-- A schema field of a host type leads to an object type. -/
def Refers (hostType schemaType : String) (field : FieldDecl) (name : String) : Prop :=
  ∃ member depth,
    around.memberOf hostType schemaType field = .ok (member, .plain name, depth, .object)

/-- The contribution of a schema field of a host type, given the samples that are known. -/
def pieceOf (known : List (String × Sample)) (hostType schemaType : String) (field : FieldDecl) :
    Except DocError Piece := do
  let (member, element, depth, kind) ← around.memberOf hostType schemaType field
  match kind with
  | .leaf leaf => .ok (.ofLeaf field member leaf depth)
  | _ =>
    match OrderedMap.lookup element.simpleName known with
    | some sample => .ok (.ofSample field member sample depth)
    | none => .ok (.stub field member depth)

/-- A type is met in a session through a schema type: from outside, while the types in `base` are
running, or behind a field of the type whose walk is innermost. -/
inductive Meets (base : List String) (session : Session) (name : String) : String → Prop
  | outside {schemaType : String} (hbase : session.running = base) :
      Meets base session name schemaType
  | field {owner ownerSchema : String} {rest : List String} {field : FieldDecl}
      (hrunning : session.running = owner :: rest)
      (hschema : session.schemaName? owner = some ownerSchema)
      (hfield : field ∈ around.schema.describe ownerSchema)
      (hrefers : around.Refers owner ownerSchema field name) :
      Meets base session name field.type.name

/-- What the walk of a type leaves: one piece for each schema field, and every object type that a
field leads to touched. -/
structure Completes (session : Session) (name schemaType : String) (fields : List FieldDecl)
    (pieces : List Piece) : Prop where
  pieces : List.Forall₂
    (fun field piece => around.pieceOf session.samples name schemaType field = .ok piece)
    fields pieces
  touched : ∀ field ∈ fields, ∀ nested, around.Refers name schemaType field nested →
    session.isUntouched nested = false

/-- A step of a session: a walk starts or ends. -/
inductive Step (base : List String) : Session → Session → Prop
  | start {session : Session} {name schemaType : String} {type : HostType}
      (hmeets : around.Meets base session name schemaType)
      (huntouched : session.isUntouched name = true)
      (hdeclared : around.host.find? name = some type) :
      Step base session (session.start name schemaType)
  | finish {session : Session} {name schemaType : String} {rest : List String} {type : HostType}
      {pieces : List Piece}
      (hrunning : session.running = name :: rest)
      (hdeclared : around.host.find? name = some type)
      (hschema : session.schemaName? name = some schemaType)
      (hcompletes : around.Completes session name schemaType
        (around.schema.describe schemaType) pieces) :
      Step base session (session.finish name (.ofPieces type schemaType pieces))

/-- Any number of steps. -/
abbrev Steps (base : List String) : Session → Session → Prop :=
  Relation.ReflTransGen (around.Step base)

variable {around : Surroundings} {base : List String} {session session' : Session}

theorem Step.wellFormed (hstep : around.Step base session session') (hwf : session.WellFormed) :
    session'.WellFormed := by
  cases hstep with
  | @start name schemaType type hmeets huntouched hdeclared =>
    obtain ⟨hnotRunning, hnotSampled⟩ := Session.isUntouched_iff.1 huntouched
    exact {
      samples_nodup := hwf.samples_nodup
      schemaNames_nodup := OrderedMap.nodup_keys_putNew hwf.schemaNames_nodup
      running_nodup := List.nodup_cons.2 ⟨hnotRunning, hwf.running_nodup⟩
      disjoint := by
        intro other hother
        rcases List.mem_cons.1 hother with rfl | hother
        · exact hnotSampled
        · exact hwf.disjoint other hother
      met := by
        intro other
        rw [Session.start_schemaNames, OrderedMap.mem_keys_putNew, hwf.met]
        simp only [Session.start_samples, Session.start_running, List.mem_cons]
        tauto }
  | @finish name schemaType rest type pieces hrunning hdeclared hschema hcompletes =>
    have hmem : name ∈ session.running := by simp [hrunning]
    have hnodup := hwf.running_nodup
    rw [hrunning, List.nodup_cons] at hnodup
    exact {
      samples_nodup := OrderedMap.nodup_keys_putNew hwf.samples_nodup
      schemaNames_nodup := hwf.schemaNames_nodup
      running_nodup := by rw [hwf.finish_running hrunning]; exact hnodup.2
      disjoint := by
        intro other hother
        rw [hwf.finish_running hrunning] at hother
        rw [Session.finish_samples, OrderedMap.mem_keys_putNew, not_or]
        refine ⟨fun heq => hnodup.1 (heq ▸ hother), hwf.disjoint other ?_⟩
        rw [hrunning]
        exact List.mem_cons_of_mem _ hother
      met := by
        intro other
        rw [Session.finish_schemaNames, hwf.met, hwf.finish_running hrunning,
          Session.finish_samples, OrderedMap.mem_keys_putNew, hrunning, List.mem_cons]
        tauto }

theorem Step.grows (hstep : around.Step base session session') : session.Grows session' := by
  cases hstep with
  | start hmeets huntouched hdeclared =>
    refine ⟨List.prefix_rfl, OrderedMap.prefix_putNew _ _ _, fun other hother => ?_⟩
    rw [Session.isUntouched_iff] at hother ⊢
    exact ⟨fun h => hother.1 (List.mem_cons_of_mem _ h), hother.2⟩
  | @finish name _ _ type _ hrunning hdeclared hschema hcompletes =>
    refine ⟨OrderedMap.prefix_putNew _ _ _, List.prefix_rfl, fun other hother => ?_⟩
    rw [Session.isUntouched_iff, Session.finish_samples, OrderedMap.mem_keys_putNew,
      not_or] at hother
    rw [Session.isUntouched_iff]
    refine ⟨fun h => hother.1 ?_, hother.2.2⟩
    exact List.mem_filter.2 ⟨h, by simpa using hother.2.1⟩

theorem Steps.wellFormed (hsteps : around.Steps base session session') (hwf : session.WellFormed) :
    session'.WellFormed := by
  induction hsteps with
  | refl => exact hwf
  | tail _ hstep ih => exact hstep.wellFormed ih

theorem Steps.grows (hsteps : around.Steps base session session') : session.Grows session' := by
  induction hsteps with
  | refl => exact .refl _
  | tail _ hstep ih => exact ih.trans hstep.grows

end Surroundings

end OperationAtlas
