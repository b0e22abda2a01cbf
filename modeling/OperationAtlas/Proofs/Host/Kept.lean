import OperationAtlas.Proofs.Host.Records

/-!
# Values that are kept for later

A type and a member keep the values of all keys but their own. A value can be kept exactly if nothing
in it is without a value and it opens no more brackets than are left (`Decode.keep_eq_ok_iff`).
`Decode.Fits` says this of a value behind so many open brackets: in a text there is a limit, in a
value there is none.
-/

namespace OperationAtlas

namespace Draft

mutual

/-- How many bracket levels a draft opens. -/
def depth : Draft → Nat
  | array items _ => depthOfItems items + 1
  | object members _ => depthOfMembers members + 1
  | _ => 0

/-- The greatest depth of several drafts. -/
def depthOfItems : List Draft → Nat
  | [] => 0
  | item :: items => max (depth item) (depthOfItems items)

/-- The greatest depth of members. -/
def depthOfMembers : List (Option String × Draft) → Nat
  | [] => 0
  | (_, value) :: members => max (depth value) (depthOfMembers members)

end

variable {items : List Draft} {members : List (Option String × Draft)} {n : Nat}

theorem isSome_itemsToJson?_cons {item : Draft} :
    (itemsToJson? (item :: items)).isSome = true ↔
      item.toJson?.isSome = true ∧ (itemsToJson? items).isSome = true := by
  rw [itemsToJson?]
  cases item.toJson? <;> cases itemsToJson? items <;> simp

theorem isSome_membersToJson?_cons {key : String} {value : Draft} :
    (membersToJson? ((some key, value) :: members)).isSome = true ↔
      value.toJson?.isSome = true ∧ (membersToJson? members).isSome = true := by
  rw [membersToJson?]
  cases value.toJson? <;> cases membersToJson? members <;> simp

theorem depthOfItems_le_iff : depthOfItems items ≤ n ↔ ∀ item ∈ items, item.depth ≤ n := by
  induction items with
  | nil => simp [depthOfItems]
  | cons item items ih => rw [depthOfItems, Nat.max_le, ih, List.forall_mem_cons]

theorem depthOfMembers_le_iff :
    depthOfMembers members ≤ n ↔ ∀ member ∈ members, member.2.depth ≤ n := by
  induction members with
  | nil => simp [depthOfMembers]
  | cons member members ih => rw [depthOfMembers, Nat.max_le, ih, List.forall_mem_cons]

end Draft

namespace Decode

open Draft

/-- One level less is left inside a bracket. -/
theorem le_of_levels_iff {levels : Option Nat} {depth : Nat} :
    (levels ≠ some 0 ∧ ∀ n ∈ levels.map (· - 1), depth ≤ n) ↔ ∀ n ∈ levels, depth + 1 ≤ n := by
  rcases levels with _ | _ | n
  · simp
  · simp
  · simp

theorem max_le_levels_iff {levels : Option Nat} {depth depth' : Nat} :
    (∀ n ∈ levels, max depth depth' ≤ n) ↔
      (∀ n ∈ levels, depth ≤ n) ∧ ∀ n ∈ levels, depth' ≤ n := by
  cases levels with
  | none => simp
  | some n =>
    simp only [Option.mem_some_iff, forall_eq']
    exact Nat.max_le

mutual

/-- A value can be kept exactly if it is one, and opens no more levels than are left. -/
theorem keep_eq_ok_iff {levels : Option Nat} : ∀ {draft : Draft},
    keep levels draft = .ok () ↔ draft.toJson?.isSome = true ∧ ∀ n ∈ levels, draft.depth ≤ n
  | .null | .bool _ | .number (some _) | .string (some _) => by simp [keep, toJson?, depth]
  | .number none | .string none | .broken => by simp [keep, toJson?]
  | .array items false | .object members false => by
      simp only [keep, toJson?]
      split
      · simp
      · simp [check_bind_eq_ok_iff]
  | .array items true => by
      have hitems := @keepItems_eq_ok_iff (levels.map (· - 1)) items
      rw [keep, toJson?, Option.isSome_map, depth, ← le_of_levels_iff, and_left_comm, ← hitems]
      split <;> simp_all [check_bind_eq_ok_iff]
  | .object members true => by
      have hmembers := @keepMembers_eq_ok_iff (levels.map (· - 1)) members
      rw [keep, toJson?, Option.isSome_map, depth, ← le_of_levels_iff, and_left_comm, ← hmembers]
      split <;> simp_all [check_bind_eq_ok_iff]

theorem keepItems_eq_ok_iff {levels : Option Nat} : ∀ {drafts : List Draft},
    keepItems levels drafts = .ok () ↔
      (itemsToJson? drafts).isSome = true ∧ ∀ n ∈ levels, depthOfItems drafts ≤ n
  | [] => by simp [keepItems, itemsToJson?, depthOfItems]
  | draft :: drafts => by
      have hdraft := @keep_eq_ok_iff levels draft
      have hdrafts := @keepItems_eq_ok_iff levels drafts
      rw [keepItems, check_bind_eq_ok_iff, hdraft, hdrafts, isSome_itemsToJson?_cons, depthOfItems,
        max_le_levels_iff, and_and_and_comm]

theorem keepMembers_eq_ok_iff {levels : Option Nat} : ∀ {members : List (Option String × Draft)},
    keepMembers levels members = .ok () ↔
      (membersToJson? members).isSome = true ∧ ∀ n ∈ levels, depthOfMembers members ≤ n
  | [] => by simp [keepMembers, membersToJson?, depthOfMembers]
  | (none, draft) :: members => by simp [keepMembers, membersToJson?]
  | (some key, draft) :: members => by
      have hdraft := @keep_eq_ok_iff levels draft
      have hmembers := @keepMembers_eq_ok_iff levels members
      rw [keepMembers, if_neg (by simp), check_bind_eq_ok_iff, hdraft, hmembers,
        isSome_membersToJson?_cons, depthOfMembers, max_le_levels_iff, and_and_and_comm]

end

/-! ## Values that fit -/

/-- Values that can be kept behind so many open brackets. -/
def Fits (medium : Medium) (opened : Nat) (draft : Draft) : Prop :=
  draft.toJson?.isSome = true ∧ (medium = .text → opened + draft.depth ≤ 127)

variable {medium : Medium} {opened : Nat} {draft : Draft}

theorem Fits.keep (h : Fits medium opened draft) :
    Decode.keep (medium.levelsBehind opened) draft = .ok () := by
  refine keep_eq_ok_iff.2 ⟨h.1, fun n hn => ?_⟩
  cases medium with
  | text =>
    have := h.2 rfl
    cases hn
    omega
  | value => cases hn

/-- Without a limit a value that fits is kept, too. -/
theorem Fits.keep_none (h : Fits medium opened draft) : Decode.keep none draft = .ok () :=
  keep_eq_ok_iff.2 ⟨h.1, nofun⟩

/-- A value without brackets. -/
def IsLeaf (draft : Draft) : Prop :=
  draft.toJson?.isSome = true ∧ draft.depth = 0

/-- A value without brackets is kept whatever is left. -/
theorem IsLeaf.keep (h : IsLeaf draft) (levels : Option Nat) : Decode.keep levels draft = .ok () :=
  keep_eq_ok_iff.2 ⟨h.1, fun n _ => h.2 ▸ Nat.zero_le n⟩

theorem IsLeaf.fits (h : IsLeaf draft) (hopened : opened ≤ 127) : Fits medium opened draft :=
  ⟨h.1, fun _ => by rwa [h.2]⟩

theorem fits_array {items : List Draft} (hopened : opened < 127)
    (h : ∀ item ∈ items, Fits medium (opened + 1) item) :
    Fits medium opened (.array items true) := by
  constructor
  · have hitems : (itemsToJson? items).isSome = true := by
      induction items with
      | nil => rfl
      | cons item items ih =>
        obtain ⟨hitem, hothers⟩ := List.forall_mem_cons.1 h
        exact isSome_itemsToJson?_cons.2 ⟨hitem.1, ih hothers⟩
    rw [toJson?, Option.isSome_map, hitems]
  · intro hmedium
    have hdepth : depthOfItems items ≤ 127 - (opened + 1) :=
      depthOfItems_le_iff.2 fun item hitem => by
        have := (h item hitem).2 hmedium
        omega
    rw [depth]
    omega

theorem fits_object {members : List (String × Draft)} (hopened : opened < 127)
    (h : ∀ member ∈ members, Fits medium (opened + 1) member.2) :
    Fits medium opened (object members) := by
  constructor
  · have hmembers : (membersToJson? (entries members)).isSome = true := by
      induction members with
      | nil => rfl
      | cons member members ih =>
        obtain ⟨hmember, hothers⟩ := List.forall_mem_cons.1 h
        exact isSome_membersToJson?_cons.2 ⟨hmember.1, ih hothers⟩
    rw [object, toJson?, Option.isSome_map, hmembers]
  · intro hmedium
    have hdepth : depthOfMembers (entries members) ≤ 127 - (opened + 1) :=
      depthOfMembers_le_iff.2 <| List.forall_mem_map.2 fun member hmember => by
        have := (h member hmember).2 hmedium
        show member.2.depth ≤ 127 - (opened + 1)
        omega
    rw [object, depth]
    omega

end Decode

end OperationAtlas
