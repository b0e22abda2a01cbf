import OperationAtlas.Proofs.Session.References

/-!
# Samples away from circles

A sample shows the samples that stand before it, and so it may depend on everything that its session
has done before. On circles it does: the type that is met first shows the others, and is shown by
the stub. Away from circles it does not. If two sessions that no failing call led to record the same
schema types for a type and for all that it reaches, and none of these stands on a circle, then they
have the same sample of it (`sample_eq_of_acyclic`).

The samples are compared in the order in which they stand in one of the sessions: there, all types
that a type references stand before it, so they are compared already, and in the other session they
stand before it as well (`ReachableCleanly.lookup_before`).
-/

namespace OperationAtlas

namespace Surroundings

variable {around : Surroundings} {session session' : Session} {owner name : String}

/-! ## What a sample depends on -/

/-- The contribution of a field depends only on the sample of the object type that it leads to. -/
theorem pieceOf_congr {known known' : List (String × Sample)} {schemaType : String}
    {field : FieldDecl}
    (hknown : ∀ name, around.Refers owner schemaType field name →
      OrderedMap.lookup name known = OrderedMap.lookup name known') :
    around.pieceOf known owner schemaType field = around.pieceOf known' owner schemaType field := by
  cases hmember : around.memberOf owner schemaType field with
  | error error => simp [pieceOf, hmember]
  | ok found =>
    obtain ⟨member, element, levels, kind⟩ := found
    rcases memberOf_kind hmember with ⟨leaf, rfl⟩ | ⟨rfl, name, type, rfl, -⟩
    · rw [pieceOf_of_leaf hmember, pieceOf_of_leaf hmember]
    · rw [pieceOf_of_object hmember, pieceOf_of_object hmember, hknown name ⟨_, _, hmember⟩]

/-- Two samples of a type are the same if the same schema type stands behind it and the types that
it references have the same samples before it. -/
theorem MadeOfPieces.sample_eq (h : around.MadeOfPieces session)
    (h' : around.MadeOfPieces session') {before before' after after' : List (String × Sample)}
    {sample sample' : Sample} (hsplit : session.samples = before ++ (owner, sample) :: after)
    (hsplit' : session'.samples = before' ++ (owner, sample') :: after')
    (hschema : session.schemaName? owner = session'.schemaName? owner)
    (hknown : ∀ name, around.References session.schemaNames owner name →
      OrderedMap.lookup name before = OrderedMap.lookup name before') : sample = sample' := by
  obtain ⟨type, schemaType, pieces, hfind, hschemaType, hpieces, rfl⟩ := h _ _ _ _ hsplit
  obtain ⟨type', schemaType', pieces', hfind', hschemaType', hpieces', rfl⟩ := h' _ _ _ _ hsplit'
  obtain rfl : type = type' := Option.some.inj (hfind.symm.trans hfind')
  obtain rfl : schemaType = schemaType' :=
    Option.some.inj (hschemaType.symm.trans (hschema.trans hschemaType'))
  have hsame : ∀ field ∈ around.schema.describe schemaType,
      around.pieceOf before owner schemaType field =
        around.pieceOf before' owner schemaType field :=
    fun field hfield => pieceOf_congr fun name hrefers =>
      hknown name (hrefers.references hschemaType hfield)
  have hpieces'' : List.Forall₂
      (fun field piece => around.pieceOf before owner schemaType field = .ok piece)
      (around.schema.describe schemaType) pieces' :=
    ((List.forall₂_and_left _ _).2 ⟨hsame, hpieces'⟩).imp fun _ _ hpiece => hpiece.1.trans hpiece.2
  have hunique : Relator.RightUnique
      (fun field piece => around.pieceOf before owner schemaType field = .ok piece) :=
    fun _ _ _ hpiece hpiece' => Except.ok.inj (hpiece.symm.trans hpiece')
  rw [List.right_unique_forall₂' hunique hpieces hpieces'']

/-! ## Two sessions -/

/-- If it does not lead back, a reference of a type has a sample before that of the type. -/
theorem ReachableCleanly.lookup_before (h : around.ReachableCleanly session)
    {before after : List (String × Sample)} {sample : Sample}
    (hsplit : session.samples = before ++ (owner, sample) :: after)
    (hreference : around.References session.schemaNames owner name)
    (hcircle : ¬ around.Reaches session.schemaNames name owner) :
    ∃ inner, (name, inner) ∈ before ∧ OrderedMap.lookup name before = some inner ∧
      session.sample? name = some inner := by
  have hbefore : name ∈ before.map (·.1) := Decidable.not_not.1 fun hnot =>
    hcircle (h.stubsCloseCircles before owner sample after hsplit name hreference hnot)
  obtain ⟨inner, hinner⟩ := Option.isSome_iff_exists.1 (OrderedMap.isSome_lookup_iff.2 hbefore)
  exact ⟨inner, OrderedMap.mem_of_lookup hinner, hinner,
    OrderedMap.lookup_of_prefix (hsplit ▸ List.prefix_append _ _) hinner⟩

/-- Where the same schema types are recorded, the same types are reached. -/
theorem Reaches.of_agree {schemaNames schemaNames' : List (String × String)}
    (hagree : ∀ name, around.Reaches schemaNames owner name →
      OrderedMap.lookup name schemaNames = OrderedMap.lookup name schemaNames')
    (h : around.Reaches schemaNames' owner name) : around.Reaches schemaNames owner name := by
  induction h with
  | refl => exact .refl
  | tail _ hreference ih => exact ih.tail ((references_congr (hagree _ ih)).2 hreference)

/-- Let two sessions that no failing call led to both have a sample of a type, and let the same
schema types be recorded in both for it and for all types that it reaches. If none of these stands
on a circle of references, the samples are the same, whatever else the sessions walked and in
whichever order. -/
theorem sample_eq_of_acyclic (h : around.ReachableCleanly session)
    (h' : around.ReachableCleanly session') {root : String} {sample sample' : Sample}
    (hsample : session.sample? root = some sample)
    (hsample' : session'.sample? root = some sample')
    (hagree : ∀ name, around.Reaches session.schemaNames root name →
      session.schemaName? name = session'.schemaName? name)
    (hacyclic : ∀ name, around.Reaches session.schemaNames root name →
      ¬ Relation.TransGen (around.References session.schemaNames) name name) :
    sample = sample' := by
  -- by induction on the samples that stand first in the one session
  suffices hfirst : ∀ first rest, session.samples = first ++ rest → ∀ entry ∈ first,
      around.Reaches session.schemaNames root entry.1 →
      ∀ sample', session'.sample? entry.1 = some sample' → entry.2 = sample' from
    hfirst session.samples [] (by simp) (root, sample) (OrderedMap.mem_of_lookup hsample) .refl
      sample' hsample'
  intro first
  induction first using List.reverseRecOn with
  | nil => exact fun _ _ _ => nofun
  | append_singleton before last ih =>
    obtain ⟨owner, shown⟩ := last
    intro after hsplit entry hentry hreached shown' hshown'
    rw [List.append_assoc, List.singleton_append] at hsplit
    rcases List.mem_append.1 hentry with hentry | hentry
    · exact ih _ hsplit entry hentry hreached shown' hshown'
    obtain rfl := List.mem_singleton.1 hentry
    obtain ⟨before', after', hsplit'⟩ := List.append_of_mem (OrderedMap.mem_of_lookup hshown')
    refine h.reachable.madeOfPieces.sample_eq h'.reachable.madeOfPieces hsplit hsplit'
      (hagree owner hreached) fun name hreference => ?_
    -- what is referenced does not lead back, in either session
    have hname := hreached.tail hreference
    have hcircle : ¬ around.Reaches session.schemaNames name owner := fun hback =>
      hacyclic owner hreached (.head' hreference hback)
    have hreference' : around.References session'.schemaNames owner name :=
      (references_congr (hagree owner hreached)).1 hreference
    have hcircle' : ¬ around.Reaches session'.schemaNames name owner := fun hback =>
      hcircle (hback.of_agree fun other hother => hagree other (hname.trans hother))
    obtain ⟨inner, hmem, hlookup, -⟩ := h.lookup_before hsplit hreference hcircle
    obtain ⟨inner', -, hlookup', hinner'⟩ := h'.lookup_before hsplit' hreference' hcircle'
    have hsame : inner = inner' := ih _ hsplit (name, inner) hmem hname inner' hinner'
    rw [hlookup, hlookup', hsame]

/-- The session after a walk of the city alone. -/
def citySession : Session :=
  (household.synthesize ⟨"city", ⟨"City", false, false⟩, []⟩ "CityView" .result {}).2

/-- Whether the city is walked alone or behind the home of a user, its sample is the same. -/
theorem city_sample_eq :
    household.ReachableCleanly citySession ∧ household.ReachableCleanly householdSession ∧
      citySession.samples.map (·.1) = ["CountryView", "CityView"] ∧
      householdSession.samples.map (·.1) =
        ["CountryView", "CityView", "HomeView", "UserView"] ∧
      (∀ name, household.Reaches citySession.schemaNames "CityView" name →
        citySession.schemaName? name = householdSession.schemaName? name) ∧
      (∀ name, household.Reaches citySession.schemaNames "CityView" name →
        ¬ Relation.TransGen (household.References citySession.schemaNames) name name) ∧
      ∃ sample, citySession.sample? "CityView" = some sample ∧
        householdSession.sample? "CityView" = some sample := by
  have hclean : household.ReachableCleanly citySession :=
    .call .fresh (.synthesize ⟨"city", ⟨"City", false, false⟩, []⟩ "CityView" .result) rfl
  have hclean' : household.ReachableCleanly householdSession :=
    .call .fresh (.synthesize userOperation "UserView" .result) rfl
  have hreached : ∀ name, household.Reaches citySession.schemaNames "CityView" name →
      name ∈ ["CityView", "CountryView"] :=
    fun name h => h.mem_of_closed _ (by decide) (by decide)
  have hagree : ∀ name, household.Reaches citySession.schemaNames "CityView" name →
      citySession.schemaName? name = householdSession.schemaName? name := by
    intro name hname
    have hall : ∀ name ∈ ["CityView", "CountryView"],
        citySession.schemaName? name = householdSession.schemaName? name := by decide
    exact hall name (hreached name hname)
  have hacyclic : ∀ name, household.Reaches citySession.schemaNames "CityView" name →
      ¬ Relation.TransGen (household.References citySession.schemaNames) name name := by
    intro name hname hcircle
    obtain ⟨next, hreference, hback⟩ := Relation.TransGen.head'_iff.1 hcircle
    have hall : ∀ name ∈ ["CityView", "CountryView"],
        ∀ next ∈ household.referencesOf citySession.schemaNames name,
          next = "CountryView" ∧ name = "CityView" := by decide
    obtain ⟨rfl, rfl⟩ := hall name (hreached name hname) next (references_iff_mem.1 hreference)
    have hmem := Reaches.mem_of_closed ["CountryView"] (by decide) (by decide) hback
    exact absurd hmem (by decide)
  obtain ⟨sample, hsample⟩ : ∃ sample, citySession.sample? "CityView" = some sample :=
    Option.isSome_iff_exists.1 (by decide)
  obtain ⟨sample', hsample'⟩ : ∃ sample, householdSession.sample? "CityView" = some sample :=
    Option.isSome_iff_exists.1 (by decide)
  have hsame := sample_eq_of_acyclic hclean hclean' hsample hsample' hagree hacyclic
  exact ⟨hclean, hclean', by decide, by decide, hagree, hacyclic, sample, hsample,
    hsame ▸ hsample'⟩

end Surroundings

end OperationAtlas
