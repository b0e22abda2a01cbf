import OperationAtlas.Proofs.Sample.Mirror
import OperationAtlas.Proofs.Session.Ledger

/-!
# How deep walks and samples go

A walk goes down one level for each type that it starts, and no type is started twice. So a walk
that may go down one level more than there are untouched types comes to an end, and a larger bound
does not change anything (`visit?_eq_of_lt`). The walks that were entered are logged in a ledger, and no
type is logged twice.

Samples are as shallow as that. A sample shows only samples that stand before it, so the types that
are shown inside of one another are distinct (`Unfolds.nodup`), and what stands in so many objects
is the sample of a type or the stub below one (`object_in_sample`).
`walks_end_and_samples_are_shallow` says all this of the sessions and ledgers that calls lead to.
-/

namespace OperationAtlas

open Graphql

namespace Surroundings

variable {around : Surroundings} {operation : FieldDecl}

/-! ## Depths of walks -/

/-- The walk of fields does not depend on the bound if nested walks do not. -/
theorem walk_congr {depth depth' : Nat}
    (hnested : ∀ name origin session, session.WellFormed →
      around.untouchedCount session < depth → around.untouchedCount session < depth' →
      around.visit? operation depth name origin session =
        around.visit? operation depth' name origin session)
    (hostType schemaType : String) :
    ∀ (fields : List FieldDecl) (session : Session), session.WellFormed →
      around.untouchedCount session < depth → around.untouchedCount session < depth' →
      around.walk (around.visit? operation depth) hostType schemaType fields session =
        around.walk (around.visit? operation depth') hostType schemaType fields session
  | [], _, _, _, _ => rfl
  | field :: fields, session, hwf, hdepth, hdepth' => by
      cases hmember : around.memberOf hostType schemaType field with
      | error error => simp only [walk, hmember]
      | ok found =>
        obtain ⟨member, element, levels, kind⟩ := found
        rcases memberOf_kind hmember with ⟨leaf, rfl⟩ | ⟨rfl, name, type, rfl, -⟩
        · simp only [walk, hmember, walk_congr hnested hostType schemaType fields session hwf
            hdepth hdepth']
        · obtain ⟨result, session₁, hvisit, hwf₁, hle⟩ := Ledger.visit?_outcome
            operation name (.nested field.type.name) hwf hdepth
          have hvisit' := hnested name (.nested field.type.name) session hwf hdepth hdepth'
          rw [hvisit] at hvisit'
          cases result with
          | error error => simp only [walk, hmember, TypeRef.simpleName, hvisit, ← hvisit']
          | ok done =>
            have hwalk := walk_congr hnested hostType schemaType fields session₁ hwf₁
              (Nat.lt_of_le_of_lt hle hdepth) (Nat.lt_of_le_of_lt hle hdepth')
            simp only [walk, hmember, TypeRef.simpleName, hvisit, ← hvisit', hwalk]

/-- A walk that may go down deeper than there are untouched types does not depend on the bound. -/
theorem visit?_eq_of_lt : ∀ (depth depth' : Nat) (name : String) (origin : Origin)
    (session : Session), session.WellFormed → around.untouchedCount session < depth →
      around.untouchedCount session < depth' →
      around.visit? operation depth name origin session =
        around.visit? operation depth' name origin session
  | 0, _, _, _, _, _, hdepth, _ => absurd hdepth (Nat.not_lt_zero _)
  | _, 0, _, _, _, _, _, hdepth' => absurd hdepth' (Nat.not_lt_zero _)
  | depth + 1, depth' + 1, name, origin, session, hwf, hdepth, hdepth' => by
      cases huntouched : session.isUntouched name with
      | false => simp only [visit?, huntouched, Bool.false_eq_true, if_false]
      | true =>
        cases hget : around.host.get name with
        | error error => simp only [visit?, huntouched, hget]
        | ok type =>
          have hdeclared := HostTypes.get_eq_ok_iff.1 hget
          have hstart : around.Step session.running session
              (session.start name (origin.schemaType operation)) :=
            .start (.outside rfl) huntouched hdeclared
          have hcount := untouchedCount_start_lt hdeclared huntouched
            (origin.schemaType operation)
          have hwalk := fun schemaType => walk_congr (visit?_eq_of_lt depth depth') name
            schemaType (around.schema.describe schemaType) _ (hstart.wellFormed hwf)
            (by omega) (by omega)
          simp only [visit?, huntouched, hget, hwalk]

end Surroundings

/-- A walk of the parts of a session has its outcome if it may go down deeper than there are
untouched types, however deep that is. -/
theorem Ledger.synthesize?_eq_of_lt {around : Surroundings} {operation : FieldDecl} (name : String)
    (origin : Origin) {session : Session} (hwf : session.WellFormed) {depth : Nat}
    (hdepth : untouchedCount around (ofSession session) < depth) :
    synthesize? around operation depth name origin (ofSession session) =
      some (synthesize around operation name origin (ofSession session)) := by
  rw [untouchedCount_ofSession] at hdepth
  have henough := Nat.lt_succ_self (around.untouchedCount session)
  obtain ⟨result, session', hvisit, -, -⟩ := visit?_outcome operation name
    origin hwf henough
  rw [synthesize, untouchedCount_ofSession, synthesize?_ofSession depth name origin session hwf
    hdepth, synthesize?_ofSession _ name origin session hwf henough,
    Surroundings.visit?_eq_of_lt depth _ name origin session hwf hdepth henough, hvisit,
    Option.map_some]

/-! ## Places in values -/

namespace Json

/-- The value inside lists of one item. -/
def item : Json → Json
  | array [value] => value.item
  | value => value

/-- The value that keys lead to, through lists of one item. -/
def at? : Json → List String → Option Json
  | value, [] => some value.item
  | value, key :: keys =>
    match value.item with
    | object members => (OrderedMap.lookup key members).bind (at? · keys)
    | _ => none

theorem item_array (value : Json) : (array [value]).item = value.item := by
  rw [item]

theorem item_object (members : List (String × Json)) : (object members).item = object members := by
  rw [item]
  nofun

theorem item_nest (depth : Nat) (value : Json) : (nest depth value).item = value.item := by
  induction depth with
  | zero => rfl
  | succ depth ih => rw [nest, item_array, ih]

theorem at?_nest (depth : Nat) (value : Json) (keys : List String) :
    (nest depth value).at? keys = value.at? keys := by
  cases keys <;> simp only [at?, item_nest]

theorem at?_object_cons (members : List (String × Json)) (key : String) (keys : List String) :
    (object members).at? (key :: keys) = (OrderedMap.lookup key members).bind (at? · keys) := by
  simp only [at?, item_object]

theorem item_ne_array (value inner : Json) : value.item ≠ array [inner] := by
  fun_induction item value with
  | case1 value ih => exact ih
  | case2 value hvalue => exact hvalue inner

theorem keyTree?_item (value : Json) : value.item.keyTree? = value.keyTree? := by
  fun_induction item value with
  | case1 value ih => exact ih
  | case2 value hvalue => rfl

theorem map_keyTree?_lookup {members : List (String × Json)} {trees : List (String × KeyTree)}
    (h : keyTrees? members = some trees) (key : String) :
    (OrderedMap.lookup key members).map keyTree? = (OrderedMap.lookup key trees).map some := by
  induction members generalizing trees with
  | nil =>
    cases h
    rfl
  | cons member members ih =>
    obtain ⟨k, v⟩ := member
    simp only [keyTrees?, Option.bind_eq_bind, Option.bind_eq_some_iff, Option.some.injEq] at h
    obtain ⟨t, ht, ts, hts, rfl⟩ := h
    by_cases hk : k = key
    · simp [hk, ht]
    · simpa [hk] using ih hts

end Json

/-- The tree that keys lead to. -/
def KeyTree.at? : KeyTree → List String → Option KeyTree
  | tree, [] => some tree
  | tree, key :: keys => (OrderedMap.lookup key tree.children).bind (at? · keys)

namespace Json

/-- Keys lead to the same place in a value and in the tree of its keys. -/
theorem map_keyTree?_at? {value : Json} {tree : KeyTree} (h : value.keyTree? = some tree)
    (keys : List String) : (value.at? keys).map keyTree? = (tree.at? keys).map some := by
  induction keys generalizing value tree with
  | nil => simp [at?, KeyTree.at?, keyTree?_item, h]
  | cons key keys ih =>
    rw [← keyTree?_item] at h
    cases hitem : value.item with
    | object members =>
      rw [hitem, keyTree?, Option.map_eq_some_iff] at h
      obtain ⟨trees, htrees, rfl⟩ := h
      have hlookup := map_keyTree?_lookup htrees key
      simp only [at?, hitem, KeyTree.at?, KeyTree.children]
      cases hmember : OrderedMap.lookup key members with
      | none =>
        have htree : OrderedMap.lookup key trees = none := by
          simpa [hmember] using hlookup.symm
        simp [htree]
      | some v =>
        rw [hmember, Option.map_some] at hlookup
        obtain ⟨t, htree, ht⟩ := Option.map_eq_some_iff.1 hlookup.symm
        rw [htree]
        exact ih ht.symm
    | array items =>
      rw [hitem] at h
      rcases items with _ | ⟨inner, _ | ⟨_, _⟩⟩
      · cases h
      · exact absurd hitem (item_ne_array value inner)
      · cases h
    | null =>
      rw [hitem] at h
      cases h
    | bool _ | number _ | string _ =>
      rw [hitem] at h
      cases h
      simp [at?, hitem, KeyTree.at?, KeyTree.children]

theorem at?_ne_array (value : Json) (keys : List String) (inner : Json) :
    value.at? keys ≠ some (array [inner]) := by
  induction keys generalizing value with
  | nil => exact fun h => item_ne_array value inner (Option.some.inj h)
  | cons key keys ih =>
    rw [at?]
    split
    · intro h
      obtain ⟨v, -, hv⟩ := Option.bind_eq_some_iff.1 h
      exact ih v hv
    · nofun

/-- Keys lead to an object in a value exactly if there are keys below in the tree of its keys. -/
theorem at?_eq_object_iff {value : Json} {tree : KeyTree} (h : value.keyTree? = some tree)
    (keys : List String) :
    (∃ members, value.at? keys = some (.object members)) ↔
      ∃ children, tree.at? keys = some (.node children) := by
  have hplaces := map_keyTree?_at? h keys
  constructor
  · rintro ⟨members, hmembers⟩
    rw [hmembers, Option.map_some] at hplaces
    obtain ⟨found, hfound, htree⟩ := Option.map_eq_some_iff.1 hplaces.symm
    obtain ⟨trees, -, rfl⟩ := Option.map_eq_some_iff.1 htree.symm
    exact ⟨trees, hfound⟩
  · rintro ⟨children, hchildren⟩
    rw [hchildren, Option.map_some] at hplaces
    obtain ⟨found, hfound, htree⟩ := Option.map_eq_some_iff.1 hplaces
    cases found with
    | object members => exact ⟨members, hfound⟩
    | array items =>
      match items, htree with
      | [inner], _ => exact absurd hfound (at?_ne_array value keys inner)
    | null | bool _ | number _ | string _ => cases htree

end Json

/-! ## Samples inside of samples -/

namespace Surroundings

/-- Keys lead from the sample of a type through the samples of others, the types in order: behind
each key stands a schema field of the type before, which leads to a type whose sample stands before
the sample of that type. -/
inductive Unfolds (around : Surroundings) (session : Session) : List String → List String → Prop
  | root {name : String} (hname : name ∈ session.samples.map (·.1)) :
      Unfolds around session [] [name]
  | field {outer inner schemaType : String} {field : FieldDecl} {sample : Sample}
      {before after : List (String × Sample)} {keys types : List String}
      (hsplit : session.samples = before ++ (outer, sample) :: after)
      (hschema : session.schemaName? outer = some schemaType)
      (hfield : field ∈ around.schema.describe schemaType)
      (hrefers : around.Refers outer schemaType field inner)
      (hinner : inner ∈ before.map (·.1))
      (h : Unfolds around session keys (inner :: types)) :
      Unfolds around session (field.name :: keys) (outer :: inner :: types)

variable {around : Surroundings} {session : Session} {keys types : List String}

theorem Unfolds.length (h : around.Unfolds session keys types) :
    types.length = keys.length + 1 := by
  induction h with
  | root hname => rfl
  | field _ _ _ _ _ _ ih => simp [ih]

theorem Unfolds.mem_samples (h : around.Unfolds session keys types) :
    ∀ type ∈ types, type ∈ session.samples.map (·.1) := by
  induction h with
  | root hname => exact List.forall_mem_singleton.2 hname
  | field hsplit _ _ _ _ _ ih =>
    refine List.forall_mem_cons.2 ⟨?_, ih⟩
    simp [hsplit]

/-- The samples of the types on the way stand before the sample of the first type. -/
theorem Unfolds.mem_before (h : around.Unfolds session keys types)
    (hnodup : (session.samples.map (·.1)).Nodup) {outer : String} {sample : Sample}
    {before after : List (String × Sample)}
    (hsplit : session.samples = before ++ (outer, sample) :: after)
    (hhead : types.head? = some outer) : ∀ type ∈ types.tail, type ∈ before.map (·.1) := by
  induction h generalizing outer sample before after with
  | root hname => nofun
  | @field outer' inner _ _ _ before' after' _ types hsplit' _ _ _ hinner _ ih =>
    obtain rfl : outer' = outer := Option.some.inj hhead
    have hbefore : before'.map (·.1) = before.map (·.1) := by
      -- a name has one place among distinct names
      have hkeys := congrArg (List.map (·.1)) (hsplit'.symm.trans hsplit)
      rw [hsplit', List.map_append, List.map_cons, List.nodup_middle, List.nodup_cons,
        List.mem_append, not_or] at hnodup
      simp only [List.map_append, List.map_cons] at hkeys
      exact ((List.append_cons_inj_of_notMem hnodup.1.1 hnodup.1.2).1 hkeys).1
    obtain ⟨⟨_, innerSample⟩, hmem, rfl⟩ := List.mem_map.1 hinner
    obtain ⟨first, second, rfl⟩ := List.append_of_mem hmem
    rw [← hbefore]
    refine List.forall_mem_cons.2 ⟨hinner, fun type htype => ?_⟩
    have hfirst : type ∈ first.map (·.1) := ih (by simpa using hsplit') rfl type htype
    rw [List.map_append]
    exact List.mem_append_left _ hfirst

/-- No type is unfolded inside of itself. -/
theorem Unfolds.nodup (h : around.Unfolds session keys types)
    (hnodup : (session.samples.map (·.1)).Nodup) : types.Nodup := by
  induction h with
  | root hname => exact List.nodup_singleton _
  | field hsplit hschema hfield hrefers hinner h ih =>
    refine List.nodup_cons.2 ⟨fun hmem => ?_, ih⟩
    have hbefore := (Unfolds.field hsplit hschema hfield hrefers hinner h).mem_before hnodup hsplit
      rfl _ hmem
    rw [hsplit, List.map_append, List.map_cons] at hnodup
    exact (List.nodup_append.1 hnodup).2.2 _ hbefore _ List.mem_cons_self rfl

/-- Types are unfolded inside of one another at most as often as there are declared types. -/
theorem Unfolds.length_lt (h : around.Unfolds session keys types)
    (hreach : around.Reachable session) : keys.length < around.host.types.length := by
  have hnodup := h.nodup hreach.wellFormed.samples_nodup
  have hdeclared : types ⊆ around.host.types.map (·.name) := by
    intro name hname
    have htouched := Session.isUntouched_eq_false_iff.2 (.inr (h.mem_samples name hname))
    obtain ⟨type, hfind⟩ := hreach.declared htouched
    rw [← HostTypes.name_of_find? hfind]
    exact List.mem_map_of_mem (HostTypes.mem_of_find? hfind)
  have hle := hnodup.length_le_of_subset hdeclared
  rw [h.length, List.length_map] at hle
  exact hle

/-- An object that keys lead to in the sample of the first of some types: the example value of the
last of the types that are unfolded on the way, or the stub in it. -/
inductive IsShown (around : Surroundings) (session : Session) (types : List String) :
    List String → List (String × Json) → Prop
  | sample {keys : List String} {members : List (String × Json)} {last : String} {sample : Sample}
      (h : around.Unfolds session keys types) (hlast : types.getLast? = some last)
      (hsample : session.sample? last = some sample)
      (hresponse : sample.response = .object members) :
      IsShown around session types keys members
  | stub {keys : List String} {last schemaType : String} {field : FieldDecl}
      (h : around.Unfolds session keys types) (hlast : types.getLast? = some last)
      (hschema : session.schemaName? last = some schemaType)
      (hfield : field ∈ around.schema.describe schemaType) :
      IsShown around session types (keys ++ [field.name])
        [("__typename", .string field.type.name)]

/-- One key more before the types that are unfolded. -/
theorem IsShown.field {outer inner schemaType : String} {field : FieldDecl} {sample : Sample}
    {before after : List (String × Sample)} {members : List (String × Json)}
    (hsplit : session.samples = before ++ (outer, sample) :: after)
    (hschema : session.schemaName? outer = some schemaType)
    (hfield : field ∈ around.schema.describe schemaType)
    (hrefers : around.Refers outer schemaType field inner) (hinner : inner ∈ before.map (·.1))
    (h : around.IsShown session (inner :: types) keys members) :
    around.IsShown session (outer :: inner :: types) (field.name :: keys) members := by
  cases h with
  | sample h hlast hsample hresponse =>
    exact .sample (.field hsplit hschema hfield hrefers hinner h) (by simpa using hlast) hsample
      hresponse
  | stub h hlast hschema' hfield' =>
    exact .stub (.field hsplit hschema hfield hrefers hinner h) (by simpa using hlast) hschema'
      hfield'

/-- Nothing in the example value of a leaf is an object. -/
theorem not_object_of_leaf (leaf : Leaf) (override? : Option String) (keys : List String)
    (members : List (String × Json)) :
    (leaf.response override?).at? keys ≠ some (.object members) := by
  intro h
  obtain ⟨children, hchildren⟩ :=
    (Json.at?_eq_object_iff (leaf.keyTree?_response override?) keys).1 ⟨members, h⟩
  cases keys with
  | nil => cases hchildren
  | cons key keys => cases hchildren

/-- The only object in a stub is the stub. -/
theorem eq_nil_of_stub {schemaType : String} {members : List (String × Json)}
    (h : (Json.object [("__typename", .string schemaType)]).at? keys = some (.object members)) :
    keys = [] ∧ members = [("__typename", .string schemaType)] := by
  cases keys with
  | nil =>
    rw [Json.at?, Json.item_object] at h
    cases h
    exact ⟨rfl, rfl⟩
  | cons key keys =>
    rw [Json.at?_object_cons] at h
    obtain ⟨value, hvalue, hplace⟩ := Option.bind_eq_some_iff.1 h
    obtain ⟨-, rfl⟩ : "__typename" = key ∧ Json.string schemaType = value := by
      simpa using hvalue
    cases keys with
    | nil => cases hplace
    | cons key keys => cases hplace

/-- Behind a schema field stands what was found for it. -/
theorem Match.Finds.memberOf {hostType : String} {m : Match} (h : m.Finds around hostType)
    (schemaType : String) :
    around.memberOf hostType schemaType m.field = .ok (m.member, m.element, m.depth, m.kind) :=
  memberOf_eq_ok_iff.2 ⟨HostTypes.field?_eq_ok_iff.2 h.first, h.element, h.kind⟩

/-- A field behind which no leaf stands leads to the object type that stands there. -/
theorem Match.Finds.refers {hostType : String} {m : Match} (h : m.Finds around hostType)
    (schemaType : String) (hobject : ∀ leaf, m.kind ≠ .leaf leaf) :
    m.kind = .object ∧ around.Refers hostType schemaType m.field m.element.simpleName := by
  have hbehind := h.memberOf schemaType
  obtain ⟨hkind, inner, -, helement, -⟩ :=
    (memberOf_kind hbehind).resolve_left fun ⟨leaf, hleaf⟩ => hobject leaf hleaf
  rw [hkind, helement] at hbehind
  rw [helement]
  exact ⟨hkind, _, _, hbehind⟩

/-- The example value of a type is an object. -/
theorem Shows.exists_members {known : List (String × Sample)} {type : HostType}
    {schemaType : String} {found : List Match} {sample : Sample}
    (h : Shows known type schemaType found sample) :
    ∃ members, sample.response = .object members := by
  by_cases hfound : found = []
  · exact ⟨_, (h.bare hfound).1⟩
  · obtain ⟨members, hresponse, -⟩ := h.response hfound
    exact ⟨members, hresponse⟩

/-- Behind the first of some keys stands the value of a field, if there is something. -/
theorem Shows.exists_match {known : List (String × Sample)} {type : HostType}
    {schemaType : String} {found : List Match} {sample : Sample}
    (h : Shows known type schemaType found sample) {key : String} {members : List (String × Json)}
    (hplace : sample.response.at? (key :: keys) = some (.object members)) :
    ∃ m ∈ found, m.field.name = key ∧ (m.response known).at? keys = some (.object members) := by
  by_cases hfound : found = []
  · rw [(h.bare hfound).1] at hplace
    cases (eq_nil_of_stub hplace).1
  · obtain ⟨shown, hresponse, -, hlookup⟩ := h.response hfound
    rw [hresponse, Json.at?_object_cons, hlookup] at hplace
    obtain ⟨value, hvalue, hplace⟩ := Option.bind_eq_some_iff.1 hplace
    have hmem := OrderedMap.mem_of_lookup hvalue
    rw [List.mem_reverse, List.mem_map] at hmem
    obtain ⟨m, hm, heq⟩ := hmem
    cases heq
    exact ⟨m, hm, rfl, hplace⟩

/-- Every object in a sample is the example value of a type that is unfolded on the way, or a
stub. -/
theorem object_in_sample (h : around.Reachable session) {name : String} {sample : Sample}
    (hsample : (name, sample) ∈ session.samples) {members : List (String × Json)}
    (hplace : sample.response.at? keys = some (.object members)) :
    ∃ types, around.IsShown session (name :: types) keys members := by
  induction keys generalizing name sample members with
  | nil =>
    obtain ⟨before, after, hsplit⟩ := List.append_of_mem hsample
    obtain ⟨hlookup, _, _, _, -, -, -, -, -, hshows⟩ := sample_shows_its_fields h hsplit
    obtain ⟨shown, hresponse⟩ := hshows.exists_members
    rw [hresponse, Json.at?, Json.item_object] at hplace
    cases hplace
    exact ⟨[], .sample (.root (List.mem_map_of_mem hsample)) rfl hlookup hresponse⟩
  | cons key keys ih =>
    obtain ⟨before, after, hsplit⟩ := List.append_of_mem hsample
    obtain ⟨-, schemaType, type, found, hschema, -, -, hfields, hfound, hshows⟩ :=
      sample_shows_its_fields h hsplit
    obtain ⟨m, hm, rfl, hbehind⟩ := hshows.exists_match hplace
    have hfield : m.field ∈ around.schema.describe schemaType := hfields ▸ List.mem_map_of_mem hm
    have hmember := (hfound m hm).memberOf schemaType
    rw [Match.response, Json.inArrays_eq_nest, Json.at?_nest] at hbehind
    rcases memberOf_kind hmember with ⟨leaf, hkind⟩ | ⟨hkind, inner, innerType, helement, -⟩
    · rw [hkind] at hbehind
      exact absurd hbehind (not_object_of_leaf _ _ _ _)
    · rw [hkind, helement] at hmember
      have hrefers : around.Refers name schemaType m.field inner := ⟨_, _, hmember⟩
      simp only [hkind, helement, TypeRef.simpleName] at hbehind
      cases hknown : OrderedMap.lookup inner before with
      | some innerSample =>
        have hinner := OrderedMap.mem_of_lookup hknown
        rw [hknown] at hbehind
        obtain ⟨types, hshown⟩ := ih (hsplit ▸ List.mem_append_left _ hinner) hbehind
        exact ⟨inner :: types,
          hshown.field hsplit hschema hfield hrefers (List.mem_map_of_mem hinner)⟩
      | none =>
        rw [hknown] at hbehind
        obtain ⟨rfl, rfl⟩ := eq_nil_of_stub hbehind
        exact ⟨[], .stub (.root (List.mem_map_of_mem hsample)) rfl hschema hfield⟩

/-- An object stands inside at most as many others as there are declared types. -/
theorem IsShown.length_le {members : List (String × Json)}
    (h : around.IsShown session types keys members) (hreach : around.Reachable session) :
    keys.length ≤ around.host.types.length := by
  cases h with
  | sample h _ _ _ => exact (h.length_lt hreach).le
  | stub h _ _ _ =>
    rw [List.length_append, List.length_singleton]
    exact h.length_lt hreach

/-- For every schema that was read and after any calls, some of which may fail:

* a walk of a type ends if it may go down one level more than there are types that are neither
  walked nor running, and how much deeper it may go does not matter;
* no type's walk was entered twice;
* the types that are unfolded inside of one another in a sample are distinct, and every object of an
  example value is unfolded or the stub of a field, so that it stands inside at most as many others
  as there are declared types;
* the selection has fields below a field exactly where the example value has an object. -/
theorem walks_end_and_samples_are_shallow {sources : List (String × String)}
    (hschema : SchemaIndex.ofSources sources = .ok around.schema) (calls : List Call) :
    (∀ operation name origin depth,
      Ledger.untouchedCount around (Ledger.run around calls {}).2 < depth →
        Ledger.synthesize? around operation depth name origin (Ledger.run around calls {}).2 =
          some (Ledger.synthesize around operation name origin (Ledger.run around calls {}).2)) ∧
    (Ledger.run around calls {}).2.entered.Nodup ∧
    (Ledger.run around calls {}).2 = Ledger.ofSession (around.run calls {}).2 ∧
    (∀ keys types, around.Unfolds (around.run calls {}).2 keys types →
      types.Nodup ∧ types.length ≤ around.host.types.length) ∧
    ∀ name sample, (around.run calls {}).2.sample? name = some sample →
      (∀ keys members, sample.response.at? keys = some (.object members) →
        keys.length ≤ around.host.types.length ∧
          ∃ types, around.IsShown (around.run calls {}).2 (name :: types) keys members) ∧
      ∃ selections : List Selection,
        (nesting 0 (lexemesOf ("query \x7b" ++ sample.selection ++ "\x7d").toList) ≤
          Reader.maxLevels →
          Document.parse ("query \x7b" ++ sample.selection ++ "\x7d") =
            .ok [.operation .query none [] [] selections]) ∧
        ∀ keys, (∃ children, (Selection.keyTree selections).at? keys = some (.node children)) ↔
          ∃ members, sample.response.at? keys = some (.object members) := by
  have hreach : around.Reachable (around.run calls {}).2 := .run .fresh calls
  have hwf := hreach.wellFormed
  have hledger : (Ledger.run around calls {}).2 = Ledger.ofSession (around.run calls {}).2 :=
    congrArg Prod.snd (Ledger.run_ofSession calls .fresh)
  rw [hledger]
  refine ⟨fun operation name origin depth hdepth =>
    Ledger.synthesize?_eq_of_lt name origin hwf hdepth, hwf.schemaNames_nodup, rfl, ?_, ?_⟩
  · intro keys types hunfolds
    have hlt := hunfolds.length_lt hreach
    have hlength := hunfolds.length
    exact ⟨hunfolds.nodup hwf.samples_nodup, by omega⟩
  · intro name sample hsample
    refine ⟨fun keys members hplace => ?_, ?_⟩
    · obtain ⟨types, hshown⟩ :=
        object_in_sample hreach (OrderedMap.mem_of_lookup hsample) hplace
      exact ⟨hshown.length_le hreach, types, hshown⟩
    · obtain ⟨selections, -, -, htree, hparse⟩ :=
        selection_mirrors_response hschema hreach hsample
      exact ⟨selections, hparse, fun keys => (Json.at?_eq_object_iff htree keys).symm⟩

/-- A walk of a type that is not declared, and a walk of the user with friends. -/
def friendsCalls : List Call :=
  [.synthesize userOperation "Ghost" .result, .synthesize userOperation "UserView" .result]

/-- The walk of the user ends four levels deep, as there are three types. It enters the user and the
address, and in the sample of the user a friend is a stub. -/
theorem friends_are_shallow :
    SchemaIndex.ofSources [("schema", friendsText)] = .ok friends.schema ∧
      Ledger.untouchedCount friends (Ledger.run friends (friendsCalls.take 1) {}).2 < 4 ∧
      Ledger.synthesize? friends userOperation 4 "UserView" .result
          (Ledger.run friends (friendsCalls.take 1) {}).2 =
        some (Ledger.synthesize friends userOperation "UserView" .result
          (Ledger.run friends (friendsCalls.take 1) {}).2) ∧
      (Ledger.run friends friendsCalls {}).2.entered = ["UserView", "AddressView"] ∧
      ∃ sample types, (friends.run friendsCalls {}).2.sample? "UserView" = some sample ∧
        sample.response.at? ["friends"] = some (.object [("__typename", .string "User")]) ∧
        friends.IsShown (friends.run friendsCalls {}).2 ("UserView" :: types) ["friends"]
          [("__typename", .string "User")] := by
  have hcount :
      Ledger.untouchedCount friends (Ledger.run friends (friendsCalls.take 1) {}).2 < 4 := by
    decide
  have hdeep := (walks_end_and_samples_are_shallow ofSources_friendsText (friendsCalls.take 1)).1
    userOperation "UserView" .result 4 hcount
  have hsample : (friends.run friendsCalls {}).2.sample? "UserView" =
      some (((friends.run friendsCalls {}).2.sample? "UserView").get (by decide)) := by simp
  obtain ⟨-, -, -, -, hshallow⟩ :=
    walks_end_and_samples_are_shallow ofSources_friendsText friendsCalls
  obtain ⟨-, types, hshown⟩ := (hshallow _ _ hsample).1 ["friends"] _ rfl
  exact ⟨ofSources_friendsText, hcount, hdeep, by decide, _, types, hsample, by rfl, hshown⟩

end Surroundings

end OperationAtlas
