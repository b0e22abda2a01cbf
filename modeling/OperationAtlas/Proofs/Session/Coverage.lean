import OperationAtlas.Proofs.Sample.Assembly
import OperationAtlas.Proofs.Session.References

/-!
# Which types are walked

A call starts its walks at the object types that it asks for: a walk from outside at its own type,
the record of an accessor at those of the result and of the parameters (`Call.StartsAt`). From there
walks spread along references. As long as no call fails, they meet nothing else
(`Surroundings.covers_synthesize`), and in the end they have walked everything that a walked type
references (`Surroundings.ReachableCleanly.mem_samples_of_references`): a type that is met while it
is running is not walked again, but its own walk ends later. So the types that a session has walked,
and those that it has recorded a schema type for, are exactly the types that the calls reach
(`Surroundings.mem_schemaNames_iff_reached`).
-/

namespace OperationAtlas

/-- What a type means follows from the element below its lists. -/
theorem HostTypes.meansObject_iff {host : HostTypes} {type element : TypeRef} {depth : Nat}
    {kind : TypeKind} {name : String} (hunwrap : type.unwrap? = some (element, depth))
    (hkind : host.kind element = .ok kind) :
    host.MeansObject type name ↔ kind = .object ∧ name = element.simpleName := by
  obtain ⟨element, rfl⟩ := TypeRef.unwrap?_plain hunwrap
  constructor
  · rintro ⟨_, hunwrap', hobject⟩
    rw [hunwrap] at hunwrap'
    cases hunwrap'
    rw [hkind] at hobject
    exact ⟨Except.ok.inj hobject, rfl⟩
  · rintro ⟨rfl, rfl⟩
    exact ⟨depth, hunwrap, hkind⟩

/-- Below the lists of a type stands a leaf or an object. -/
theorem HostTypes.kind_of_unwrap {host : HostTypes} {type element : TypeRef} {depth : Nat}
    {kind : TypeKind} (hunwrap : type.unwrap? = some (element, depth))
    (hkind : host.kind element = .ok kind) : (∃ leaf, kind = .leaf leaf) ∨ kind = .object := by
  obtain ⟨name, rfl⟩ := TypeRef.unwrap?_plain hunwrap
  exact (HostTypes.kind_plain hkind).imp_right fun hobject => hobject.1

namespace Surroundings

variable {around : Surroundings} {session session' : Session} {name : String}

/-! ## Walks end -/

/-- Whatever a walked type references is touched. -/
def ReferencesTouched (around : Surroundings) (session : Session) : Prop :=
  ∀ owner ∈ session.samples.map (·.1), ∀ name, around.References session.schemaNames owner name →
    session.isUntouched name = false

theorem ReferencesTouched.step {base : List String} (hwf : session.WellFormed)
    (h : around.ReferencesTouched session) (hstep : around.Step base session session') :
    around.ReferencesTouched session' := by
  have hgrows := hstep.grows
  have hstays : ∀ name, session.isUntouched name = false → session'.isUntouched name = false :=
    fun name hname => Bool.eq_false_iff.2 fun huntouched =>
      Bool.eq_false_iff.1 hname (hgrows.touched name huntouched)
  cases hstep with
  | start hmeets huntouched hdeclared =>
    intro owner howner name hreference
    rw [Session.start_samples] at howner
    have hmet : owner ∈ session.schemaNames.map (·.1) := (hwf.met owner).2 (.inl howner)
    exact hstays name
      (h owner howner name ((references_iff_of_met hgrows.schemaNames hmet).1 hreference))
  | @finish ended schemaType rest type pieces hrunning hdeclared hschema hcompletes =>
    intro owner howner name hreference
    rw [Session.finish_samples, OrderedMap.mem_keys_putNew] at howner
    rw [Session.finish_schemaNames] at hreference
    rcases howner with rfl | howner
    · obtain ⟨schemaType', hlookup, field, hfield, hrefers⟩ := references_iff.1 hreference
      obtain rfl : schemaType = schemaType' := Option.some.inj (hschema.symm.trans hlookup)
      exact hstays name (hcompletes.touched field hfield name hrefers)
    · exact hstays name (h owner howner name hreference)

/-- Between calls of which none failed a touched type is walked. -/
theorem ReachableCleanly.mem_samples_of_touched (h : around.ReachableCleanly session)
    (htouched : session.isUntouched name = false) : name ∈ session.samples.map (·.1) := by
  refine (Session.isUntouched_eq_false_iff.1 htouched).resolve_left ?_
  rw [h.running_eq_nil]
  exact List.not_mem_nil

/-- Between calls of which none failed a type that is referenced by a walked one is walked. -/
theorem ReachableCleanly.mem_samples_of_references (h : around.ReachableCleanly session)
    {owner : String} (howner : owner ∈ session.samples.map (·.1))
    (hreference : around.References session.schemaNames owner name) :
    name ∈ session.samples.map (·.1) := by
  obtain ⟨-, htouched⟩ := h.steps.invariant around.ReferencesTouched
    (fun _ _ hwf hholds hstep => hholds.step hwf hstep) .fresh nofun
  exact h.mem_samples_of_touched (htouched owner howner name hreference)

/-- Between calls of which none failed a type has a schema type exactly if it is walked. -/
theorem ReachableCleanly.mem_schemaNames_iff (h : around.ReachableCleanly session) :
    name ∈ session.schemaNames.map (·.1) ↔ name ∈ session.samples.map (·.1) := by
  rw [h.reachable.wellFormed.met, h.running_eq_nil]
  simp

/-! ## Walks spread along references -/

/-- All running types, and all types that were met and not known before, are reached from a root. -/
structure SpreadsFrom (around : Surroundings) (root : String) (known : List String)
    (session : Session) : Prop where
  running : ∀ name ∈ session.running, around.Reaches session.schemaNames root name
  met : ∀ name ∈ session.schemaNames.map (·.1),
    name ∈ known ∨ around.Reaches session.schemaNames root name

/-- Steps spread along references if no type is met from outside: the running types of a session are
distinct, so a `base` with a repetition is never reached. -/
theorem SpreadsFrom.step {base known : List String} {root : String} (hbase : ¬ base.Nodup)
    (hwf : session.WellFormed) (h : around.SpreadsFrom root known session)
    (hstep : around.Step base session session') : around.SpreadsFrom root known session' := by
  have hgrows := hstep.grows
  have hmono : ∀ {name}, around.Reaches session.schemaNames root name →
      around.Reaches session'.schemaNames root name := Reaches.mono hgrows.schemaNames
  cases hstep with
  | @start name schemaType type hmeets huntouched hdeclared =>
    have hname : around.Reaches (session.start name schemaType).schemaNames root name := by
      cases hmeets with
      | outside hrunning => exact absurd (hrunning ▸ hwf.running_nodup) hbase
      | @field owner ownerSchema rest field hrunning hschema hfield hrefers =>
        have howner := h.running owner (by simp [hrunning])
        exact hmono (howner.tail (hrefers.references hschema hfield))
    constructor
    · intro other hother
      rcases List.mem_cons.1 hother with rfl | hother
      · exact hname
      · exact hmono (h.running other hother)
    · intro other hother
      rcases OrderedMap.mem_keys_putNew.1 hother with rfl | hother
      · exact .inr hname
      · exact (h.met other hother).imp_right hmono
  | finish hrunning hdeclared hschema hcompletes =>
    exact ⟨fun other hother => h.running other (List.mem_of_mem_filter hother), h.met⟩

/-- Between two sessions, all roots are walked, and only types that roots reach are met. -/
structure Covers (around : Surroundings) (roots : String → Prop) (session session' : Session) :
    Prop where
  grows : session.Grows session'
  walked : ∀ root, roots root → root ∈ session'.samples.map (·.1)
  met : ∀ name ∈ session'.schemaNames.map (·.1), name ∈ session.schemaNames.map (·.1) ∨
    ∃ root, roots root ∧ around.Reaches session'.schemaNames root name

theorem Covers.nothing {roots : String → Prop} (hroots : ∀ root, ¬ roots root)
    (session : Session) : around.Covers roots session session where
  grows := .refl session
  walked root hroot := absurd hroot (hroots root)
  met _ hname := .inl hname

theorem Covers.congr {roots roots' : String → Prop} (h : around.Covers roots session session')
    (hroots : ∀ root, roots' root ↔ roots root) : around.Covers roots' session session' := by
  obtain rfl : roots' = roots := funext fun root => propext (hroots root)
  exact h

/-- What covers its roots before and what covers its roots after cover the roots of both. -/
theorem Covers.after {roots roots' : String → Prop} {session₁ : Session}
    (h : around.Covers roots session session₁) (h' : around.Covers roots' session₁ session') :
    around.Covers (fun root => roots root ∨ roots' root) session session' where
  grows := h.grows.trans h'.grows
  walked root hroot := by
    rcases hroot with hroot | hroot
    · exact (h'.grows.samples.map _).subset (h.walked root hroot)
    · exact h'.walked root hroot
  met name hname := by
    rcases h'.met name hname with hname | ⟨root, hroot, hreaches⟩
    · rcases h.met name hname with hname | ⟨root, hroot, hreaches⟩
      · exact .inl hname
      · exact .inr ⟨root, .inl hroot, hreaches.mono h'.grows.schemaNames⟩
    · exact .inr ⟨root, .inr hroot, hreaches⟩

variable {operation : FieldDecl} {owner : String}

/-- A walk from outside covers its type. -/
theorem covers_synthesize (h : around.ReachableCleanly session) {origin : Origin}
    {fields : Option TypeFields}
    (hrun : around.synthesize operation name origin session = (.ok fields, session')) :
    around.Covers (· = name) session session' := by
  have hwf := h.reachable.wellFormed
  have hends := around.synthesize_ends operation name origin hwf
  rw [hrun] at hends
  obtain ⟨-, htouched, -⟩ := hends.ok fields rfl
  refine ⟨hends.steps.grows, ?_, ?_⟩
  · rintro _ rfl
    exact (h.synthesize hrun).mem_samples_of_touched htouched
  · cases huntouched : session.isUntouched name with
    | false =>
      simp only [synthesize, visit?, huntouched, Bool.false_eq_true, if_false, Prod.mk.injEq] at hrun
      obtain ⟨-, rfl⟩ := hrun
      exact fun _ hname => .inl hname
    | true =>
      cases hdeclared : around.host.find? name with
      | none =>
        rw [synthesize_of_undeclared huntouched hdeclared] at hrun
        cases hrun
      | some type =>
        obtain ⟨hsteps, -⟩ := synthesize_of_untouched hwf huntouched hdeclared hrun ["", ""]
        have hstart : around.Step session.running session
            (session.start name (origin.schemaType operation)) :=
          .start (.outside rfl) huntouched hdeclared
        obtain ⟨-, hspreads⟩ := hsteps.invariant
          (around.SpreadsFrom name (session.schemaNames.map (·.1)))
          (fun _ _ hwf hholds hstep => hholds.step (by decide) hwf hstep) (hstart.wellFormed hwf) (by
            constructor
            · intro other hother
              rw [Session.start_running, h.running_eq_nil, List.mem_singleton] at hother
              exact hother ▸ .refl
            · intro other hother
              rcases OrderedMap.mem_keys_putNew.1 hother with rfl | hother
              · exact .inr .refl
              · exact .inl hother)
        exact fun other hother => (hspreads.met other hother).imp_right fun hreaches =>
          ⟨name, rfl, hreaches⟩

/-! ## Where calls start -/

/-- An accessor mentions the object types of its result and of its parameters. -/
inductive Mentions (around : Surroundings) (accessor : Accessor) (name : String) : Prop
  | result (hobject : around.host.MeansObject accessor.returns name)
  | parameter {parameter : Member} (hmem : parameter ∈ accessor.parameters)
      (hobject : around.host.MeansObject parameter.type name)

theorem covers_sampleOf (h : around.ReachableCleanly session) {origin : Origin} {sample : Sample}
    (hrun : (around.sampleOf operation name origin).runOn session = (.ok sample, session')) :
    around.Covers (· = name) session session' := by
  obtain ⟨-, fields, hwalk⟩ := sample?_of_sampleOf hrun
  exact covers_synthesize h hwalk

/-- The walks for a type cover the object type below its lists: a leaf needs none, and an object type
is walked. -/
theorem covers_of_unwrap (h : around.ReachableCleanly session) {type element : TypeRef}
    {depth : Nat} {kind : TypeKind} (hunwrap : type.unwrap? = some (element, depth))
    (hkind : around.host.kind element = .ok kind)
    (hleaf : ∀ leaf, kind = .leaf leaf → session = session')
    (hobject : kind = .object → ∃ operation origin sample,
      (around.sampleOf operation element.simpleName origin).runOn session =
        (.ok sample, session')) :
    around.Covers (around.host.MeansObject type) session session' := by
  have hroots : ∀ root, around.host.MeansObject type root ↔
      kind = .object ∧ root = element.simpleName :=
    fun _ => HostTypes.meansObject_iff hunwrap hkind
  rcases HostTypes.kind_of_unwrap hunwrap hkind with ⟨leaf, rfl⟩ | rfl
  · obtain rfl := hleaf leaf rfl
    exact .nothing (fun root hroot => nomatch ((hroots root).1 hroot).1) session
  · obtain ⟨operation, origin, sample, hsample⟩ := hobject rfl
    exact (covers_sampleOf h hsample).congr fun root => by simp [hroots]

theorem covers_resultOf (h : around.ReachableCleanly session) {accessor : Accessor}
    {result : Json × String × Option String}
    (hrun : (around.resultOf operation owner accessor).runOn session = (.ok result, session')) :
    around.Covers (around.host.MeansObject accessor.returns) session session' := by
  obtain ⟨⟨element, depth⟩, hunwrap, hrun⟩ := SessionStep.runOn_ofExcept_bind_eq_ok_iff.1 hrun
  obtain ⟨kind, hkind, hrun⟩ := SessionStep.runOn_ofExcept_bind_eq_ok_iff.1 hrun
  refine covers_of_unwrap h (HostTypes.unwrap_eq_ok_iff.1 hunwrap) hkind ?_ ?_
  · rintro leaf rfl
    cases hrun
    rfl
  · rintro rfl
    obtain ⟨sample, _, hsample, hrun⟩ := SessionStep.runOn_bind_eq_ok_iff.1 hrun
    cases hrun
    exact ⟨operation, _, sample, hsample⟩

theorem covers_argumentOf (h : around.ReachableCleanly session) {parameter : Member}
    {argument : String × ParameterSummary}
    (hrun : (around.argumentOf operation owner parameter).runOn session =
      (.ok argument, session')) :
    around.Covers (around.host.MeansObject parameter.type) session session' := by
  obtain ⟨⟨element, depth⟩, hunwrap, hrun⟩ := SessionStep.runOn_ofExcept_bind_eq_ok_iff.1 hrun
  obtain ⟨kind, hkind, hrun⟩ := SessionStep.runOn_ofExcept_bind_eq_ok_iff.1 hrun
  refine covers_of_unwrap h (HostTypes.unwrap_eq_ok_iff.1 hunwrap) hkind ?_ ?_
  · rintro leaf rfl
    cases hrun
    rfl
  · rintro rfl
    obtain ⟨sample, _, hsample, hrun⟩ := SessionStep.runOn_bind_eq_ok_iff.1 hrun
    cases hrun
    exact ⟨operation, _, sample, hsample⟩

theorem covers_argumentsOf : ∀ {parameters : List Member} {session session' : Session}
    {arguments : List (String × ParameterSummary)}, around.ReachableCleanly session →
    (around.argumentsOf operation owner parameters).runOn session = (.ok arguments, session') →
    around.Covers (fun root => ∃ parameter ∈ parameters,
      around.host.MeansObject parameter.type root) session session'
  | [], session, _, _, _, hrun => by
      cases hrun
      exact .nothing (by simp) session
  | parameter :: parameters, session, session', arguments, h, hrun => by
      obtain ⟨first, session₁, hfirst, hrun⟩ := SessionStep.runOn_bind_eq_ok_iff.1 hrun
      obtain ⟨others, session₂, hothers, hrun⟩ := SessionStep.runOn_bind_eq_ok_iff.1 hrun
      cases hrun
      have hclean₁ := (argumentOf_eq_ok h hfirst).1
      exact ((covers_argumentOf h hfirst).after (covers_argumentsOf hclean₁ hothers)).congr
        fun root => by simp

/-- A record covers the object types that its accessor mentions. -/
theorem covers_assemble (h : around.ReachableCleanly session) {kind : OperationKind}
    {accessor : Accessor} {record : OperationRecord}
    (hrun : (around.assemble kind owner operation accessor).runOn session =
      (.ok record, session')) :
    around.Covers (around.Mentions accessor) session session' := by
  obtain ⟨_, _, _, session₁, arguments, _, hresult, harguments, -, -⟩ :=
    runOn_assemble_eq_ok_iff.1 hrun
  have hclean₁ := (resultOf_eq_ok h hresult).1
  refine ((covers_resultOf h hresult).after (covers_argumentsOf hclean₁ harguments)).congr
    fun root => ⟨fun hmentions => ?_, fun hmentions => ?_⟩
  · cases hmentions with
    | result hobject => exact .inl hobject
    | parameter hmem hobject => exact .inr ⟨_, hmem, hobject⟩
  · rcases hmentions with hobject | ⟨parameter, hmem, hobject⟩
    · exact .result hobject
    · exact .parameter hmem hobject

end Surroundings

/-- The types at which the walks of a call start. -/
def Call.StartsAt (around : Surroundings) : Call → String → Prop
  | synthesize _ name _, root => root = name
  | assemble _ _ _ accessor, root => around.Mentions accessor root

namespace Surroundings

variable {around : Surroundings} {session session' : Session}

/-- A call that does not fail covers the types at which its walks start. -/
theorem covers_call (h : around.ReachableCleanly session) {call : Call}
    (hok : (call.step around).runOn session = (.ok (), session')) :
    around.Covers (call.StartsAt around) session session' := by
  cases call with
  | synthesize operation name origin =>
    obtain ⟨fields, session₁, hrun, hok⟩ := SessionStep.runOn_bind_eq_ok_iff.1 hok
    cases hok
    exact covers_synthesize h hrun
  | assemble kind owner operation accessor =>
    obtain ⟨record, session₁, hrun, hok⟩ := SessionStep.runOn_bind_eq_ok_iff.1 hok
    cases hok
    exact covers_assemble h hrun

/-! ## Calls one after the other -/

/-- Calls that succeed one after the other cover the types at which they start. -/
theorem covers_perform : ∀ {calls : List Call} {session session' : Session},
    around.ReachableCleanly session →
    (around.perform calls).runOn session = (.ok (), session') →
    around.Covers (fun root => ∃ call ∈ calls, call.StartsAt around root) session session'
  | [], session, _, _, hrun => by
      cases hrun
      exact .nothing (by simp) session
  | call :: calls, session, session', h, hrun => by
      obtain ⟨session₁, hfirst, hothers⟩ := around.runOn_perform_cons_eq_ok_iff.1 hrun
      have hcovers := covers_perform (h.call call hfirst) hothers
      exact ((covers_call h hfirst).after hcovers).congr fun root => by simp

/-- After calls of which none fails, the types with a schema type are those that are reached from
the types at which the calls start. -/
theorem mem_schemaNames_iff_reached {calls : List Call}
    (hrun : (around.perform calls).runOn {} = (.ok (), session)) {name : String} :
    name ∈ session.schemaNames.map (·.1) ↔
      ∃ root, (∃ call ∈ calls, call.StartsAt around root) ∧
        around.Reaches session.schemaNames root name := by
  have hclean : around.ReachableCleanly session := .perform .fresh hrun
  have hcovers := covers_perform .fresh hrun
  constructor
  · intro hname
    exact (hcovers.met name hname).resolve_left List.not_mem_nil
  · rintro ⟨root, hroot, hreaches⟩
    rw [hclean.mem_schemaNames_iff]
    induction hreaches with
    | refl => exact hcovers.walked root hroot
    | tail _ hreference ih => exact hclean.mem_samples_of_references ih hreference

end Surroundings

end OperationAtlas
