import OperationAtlas.Graphql.Request
import OperationAtlas.Json.Value
import OperationAtlas.Proofs.OrderedMap

/-!
# Trees of keys

A request says by the names of its fields what the response looks like. `KeyTree` is what both have
in common: `Selection.graftAll` merges the names of selections into a tree, and `Json.keyTree?`
reads the keys of a response, in which a list of one item stands for the item.

Selections may repeat a field, in which case the selections below all its occurrences are merged.
The values of a response are written under their keys one after the other. Both come to the same if
a repeated field has the same selections each time, because merging selections a second time changes
nothing (`Selection.Grows`); `Selection.grows_fields` is the law for one level of fields.
-/

namespace OperationAtlas

/-- Keys in order, one below the other. -/
inductive KeyTree
  | leaf
  | node (children : List (String × KeyTree))

/-- The keys below. -/
def KeyTree.children : KeyTree → List (String × KeyTree)
  | leaf => []
  | node children => children

/-! ## Keys of responses -/

namespace Json

mutual

/-- The keys of a value, in which a list of one item stands for the item. A null and other lists
have none. -/
def keyTree? : Json → Option KeyTree
  | bool _ | number _ | string _ => some .leaf
  | object members => (keyTrees? members).map .node
  | array items => itemTree? items
  | null => none

/-- The keys of the one item of a list. -/
def itemTree? : List Json → Option KeyTree
  | [item] => item.keyTree?
  | _ => none

/-- The keys of members. -/
def keyTrees? : List (String × Json) → Option (List (String × KeyTree))
  | [] => some []
  | (key, value) :: members => do
    let tree ← value.keyTree?
    let trees ← keyTrees? members
    some ((key, tree) :: trees)

end

@[simp] theorem keyTree?_nest (depth : Nat) (value : Json) :
    (nest depth value).keyTree? = value.keyTree? := by
  induction depth with
  | zero => rfl
  | succ depth ih => exact ih

theorem keyTrees?_put {key : String} {value : Json} {tree : KeyTree}
    (hvalue : value.keyTree? = some tree) {members : List (String × Json)}
    {trees : List (String × KeyTree)} (h : keyTrees? members = some trees) :
    keyTrees? (OrderedMap.put key value members) = some (OrderedMap.put key tree trees) := by
  induction members generalizing trees with
  | nil =>
    cases h
    simp [OrderedMap.put, keyTrees?, hvalue]
  | cons member members ih =>
    obtain ⟨k, v⟩ := member
    simp only [keyTrees?, Option.bind_eq_bind, Option.bind_eq_some_iff, Option.some.injEq] at h
    obtain ⟨t, ht, ts, hts, rfl⟩ := h
    by_cases hk : k = key
    · simp [OrderedMap.put, hk, keyTrees?, hvalue, hts]
    · simp [OrderedMap.put, hk, keyTrees?, ht, ih hts]

/-- The keys of an object that is written member by member. -/
theorem keyTrees?_ofPairs (pairs : List (String × Json × KeyTree))
    (h : ∀ pair ∈ pairs, pair.2.1.keyTree? = some pair.2.2) :
    keyTrees? (OrderedMap.ofPairs (pairs.map fun pair => (pair.1, pair.2.1))) =
      some (OrderedMap.ofPairs (pairs.map fun pair => (pair.1, pair.2.2))) := by
  induction pairs using List.reverseRecOn with
  | nil => rfl
  | append_singleton pairs pair ih =>
    rw [List.map_append, List.map_append, List.map_singleton, List.map_singleton,
      OrderedMap.ofPairs_concat, OrderedMap.ofPairs_concat]
    exact keyTrees?_put (h pair (by simp)) (ih fun other hother => h other (by simp [hother]))

end Json

/-! ## Names of selections -/

namespace Graphql.Selection

/-- A field without another name, arguments and directives, and all fields below it so. -/
inductive IsPlain : Selection → Prop
  | field (name : String) (selections : List Selection) (h : ∀ below ∈ selections, IsPlain below) :
      IsPlain (.field none name [] [] selections)

mutual

/-- Merges a field into keys: its name goes to the end if it is new, and the fields below it are
merged into the keys below its name. -/
def graft : Selection → List (String × KeyTree) → List (String × KeyTree)
  | field _ name _ _ selections, keys =>
    OrderedMap.adjust name .leaf (graftAll selections) keys
  | spread .., keys | inline .., keys => keys

/-- Merges selections in order into the keys of a tree. -/
def graftAll : List Selection → KeyTree → KeyTree
  | [], tree => tree
  | selection :: selections, tree => graftAll selections (.node (graft selection tree.children))

end

/-- The names of selections, those of a repeated field merged. -/
def keyTree (selections : List Selection) : KeyTree :=
  graftAll selections .leaf

/-- Selections have the names of a tree, and merging them into it changes nothing. -/
structure Grows (selections : List Selection) (tree : KeyTree) : Prop where
  keyTree : keyTree selections = tree
  again : graftAll selections tree = tree

theorem Grows.nil : Grows [] .leaf := ⟨rfl, rfl⟩

theorem graftAll_concat (selections : List Selection) (last : Selection) (tree : KeyTree) :
    graftAll (selections ++ [last]) tree =
      .node (graft last (graftAll selections tree).children) := by
  induction selections generalizing tree with
  | nil => rfl
  | cons first selections ih => exact ih _

/-- A plain field with the names below it. -/
structure Branch where
  name : String
  selections : List Selection
  tree : KeyTree

instance : Inhabited Branch := ⟨⟨"", [], .leaf⟩⟩

/-- The field of a branch. -/
def Branch.field (branch : Branch) : Selection :=
  .field none branch.name [] [] branch.selections

variable {branches : List Branch}

/-- Merging a field into keys in which its name is missing or has its tree writes the tree. -/
theorem graft_field {branch : Branch} (hgrows : Grows branch.selections branch.tree)
    {keys : List (String × KeyTree)}
    (h : ∀ tree, OrderedMap.lookup branch.name keys = some tree → tree = branch.tree) :
    graft branch.field keys = OrderedMap.put branch.name branch.tree keys := by
  rw [Branch.field, graft, OrderedMap.adjust_eq_put]
  cases hkey : OrderedMap.lookup branch.name keys with
  | none => rw [Option.getD_none, ← hgrows.keyTree]; rfl
  | some tree => rw [Option.getD_some, h tree hkey, hgrows.again]

/-- A name that is written with branches has the tree of one of them. -/
theorem exists_branch_of_lookup {name : String} {tree : KeyTree}
    (h : OrderedMap.lookup name (OrderedMap.ofPairs (branches.map fun b => (b.name, b.tree))) =
      some tree) :
    ∃ branch ∈ branches, branch.name = name ∧ branch.tree = tree := by
  rw [OrderedMap.lookup_ofPairs] at h
  simpa using OrderedMap.mem_of_lookup h

/-- Fields of one name have one tree, so that is what their name has when all are written. -/
theorem lookup_branch (hsame : ∀ b ∈ branches, ∀ b' ∈ branches, b.name = b'.name → b.tree = b'.tree)
    {branch : Branch} (hmem : branch ∈ branches) :
    OrderedMap.lookup branch.name (OrderedMap.ofPairs (branches.map fun b => (b.name, b.tree))) =
      some branch.tree := by
  cases hfound : OrderedMap.lookup branch.name
      (OrderedMap.ofPairs (branches.map fun b => (b.name, b.tree))) with
  | none =>
    rw [OrderedMap.lookup_ofPairs, OrderedMap.lookup_eq_none_iff] at hfound
    exact absurd (by simpa using ⟨branch, hmem, rfl⟩) hfound
  | some tree =>
    obtain ⟨other, hother, hname, rfl⟩ := exists_branch_of_lookup hfound
    rw [hsame other hother branch hmem hname]

/-- Merging fields writes the name of each with what is below it. -/
theorem keyTree_fields (hne : branches ≠ [])
    (hgrows : ∀ branch ∈ branches, Grows branch.selections branch.tree)
    (hsame : ∀ b ∈ branches, ∀ b' ∈ branches, b.name = b'.name → b.tree = b'.tree) :
    keyTree (branches.map Branch.field) =
      .node (OrderedMap.ofPairs (branches.map fun b => (b.name, b.tree))) := by
  induction branches using List.reverseRecOn with
  | nil => exact absurd rfl hne
  | append_singleton done last ih =>
    have hdone : ∀ branch ∈ done, branch ∈ done ++ [last] := fun _ => List.mem_append_left _
    have hlast : last ∈ done ++ [last] := by simp
    have hkeys : (keyTree (done.map Branch.field)).children =
        OrderedMap.ofPairs (done.map fun b => (b.name, b.tree)) := by
      cases done with
      | nil => rfl
      | cons first done =>
        rw [ih (List.cons_ne_nil _ _) (fun b hb => hgrows b (hdone b hb))
          fun b hb b' hb' => hsame b (hdone b hb) b' (hdone b' hb')]
        rfl
    rw [List.map_append, List.map_singleton, keyTree, graftAll_concat, ← keyTree, hkeys,
      graft_field (hgrows last hlast), List.map_append, List.map_singleton,
      OrderedMap.ofPairs_concat]
    intro tree htree
    obtain ⟨other, hother, hname, rfl⟩ := exists_branch_of_lookup htree
    exact hsame other (hdone other hother) last hlast hname

/-- Merging fields changes nothing where each has its tree already. -/
theorem graftAll_fields {keys : List (String × KeyTree)}
    (hgrows : ∀ branch ∈ branches, Grows branch.selections branch.tree)
    (hkeys : ∀ branch ∈ branches, OrderedMap.lookup branch.name keys = some branch.tree) :
    graftAll (branches.map Branch.field) (.node keys) = .node keys := by
  induction branches with
  | nil => rfl
  | cons first branches ih =>
    obtain ⟨hgrow, hgrows⟩ := List.forall_mem_cons.1 hgrows
    obtain ⟨hkey, hkeys⟩ := List.forall_mem_cons.1 hkeys
    rw [List.map_cons, graftAll, KeyTree.children, graft_field hgrow,
      OrderedMap.put_of_lookup hkey, ih hgrows hkeys]
    intro tree htree
    rw [hkey] at htree
    exact (Option.some.inj htree).symm

/-- Plain fields have the names that are written when each field writes its own with what is below
it. -/
theorem grows_fields (hne : branches ≠ [])
    (hgrows : ∀ branch ∈ branches, Grows branch.selections branch.tree)
    (hsame : ∀ b ∈ branches, ∀ b' ∈ branches, b.name = b'.name → b.tree = b'.tree) :
    Grows (branches.map Branch.field)
      (.node (OrderedMap.ofPairs (branches.map fun b => (b.name, b.tree)))) where
  keyTree := keyTree_fields hne hgrows hsame
  again := graftAll_fields hgrows fun _ hbranch => lookup_branch hsame hbranch

end Graphql.Selection

end OperationAtlas
