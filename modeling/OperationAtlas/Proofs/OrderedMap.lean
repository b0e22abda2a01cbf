import Mathlib.Data.List.Induction
import Mathlib.Data.List.Nodup
import OperationAtlas.OrderedMap

/-!
# Laws of maps that keep the order of insertion

What `lookup` and the list of keys say after each way to write. `putNew` only ever appends, so a map
that grows by it keeps its old entries as a prefix (`prefix_putNew`) and their values
(`lookup_of_prefix`). `ofPairs` keeps one entry for each key, in the place of its first pair and
with the value of its last one (`keys_ofPairs`, `lookup_ofPairs`). `mapValues` changes all values and
leaves the keys in their places.
-/

namespace OperationAtlas.OrderedMap

variable {α : Type}

/-! ## Looking up -/

@[simp] theorem lookup_nil (key : String) : lookup key ([] : List (String × α)) = none := rfl

@[simp] theorem lookup_cons (key k : String) (v : α) (entries : List (String × α)) :
    lookup key ((k, v) :: entries) = if k = key then some v else lookup key entries := rfl

/-- A key is looked up in the first part of a map, then in the second. -/
theorem lookup_append (key : String) (first second : List (String × α)) :
    lookup key (first ++ second) = (lookup key first).or (lookup key second) := by
  induction first with
  | nil => simp
  | cons entry first ih =>
      obtain ⟨k, v⟩ := entry
      by_cases hk : k = key <;> simp [hk, ih]

/-- A key has no value exactly if it is none of the keys. -/
theorem lookup_eq_none_iff {key : String} {entries : List (String × α)} :
    lookup key entries = none ↔ key ∉ entries.map (·.1) := by
  induction entries with
  | nil => simp
  | cons entry entries ih =>
      obtain ⟨k, v⟩ := entry
      by_cases hk : k = key
      · simp [hk]
      · simp [hk, ih, Ne.symm hk]

/-- A key has a value exactly if it is one of the keys. -/
theorem isSome_lookup_iff {key : String} {entries : List (String × α)} :
    (lookup key entries).isSome ↔ key ∈ entries.map (·.1) := by
  rw [← Option.ne_none_iff_isSome, Ne, lookup_eq_none_iff, not_not]

/-- A value that is found stands in the map under its key. -/
theorem mem_of_lookup {key : String} {v : α} {entries : List (String × α)}
    (h : lookup key entries = some v) : (key, v) ∈ entries := by
  induction entries with
  | nil => cases h
  | cons entry entries ih =>
      obtain ⟨k, w⟩ := entry
      by_cases hk : k = key
      · simp_all
      · exact List.mem_cons_of_mem _ (ih (by simpa [hk] using h))

/-- In a map with distinct keys every entry is found. -/
theorem lookup_of_mem {key : String} {v : α} {entries : List (String × α)}
    (hnodup : (entries.map (·.1)).Nodup) (h : (key, v) ∈ entries) :
    lookup key entries = some v := by
  induction entries with
  | nil => cases h
  | cons entry entries ih =>
      obtain ⟨k, w⟩ := entry
      simp only [List.map_cons, List.nodup_cons] at hnodup
      rcases List.mem_cons.1 h with heq | hmem
      · cases heq; simp
      · have hk : k ≠ key := by
          rintro rfl
          exact hnodup.1 (List.mem_map_of_mem (f := (·.1)) hmem)
        simpa [hk] using ih hnodup.2 hmem

/-- A map that grows at its end keeps the values that it had. -/
theorem lookup_of_prefix {key : String} {v : α} {before after : List (String × α)}
    (hgrows : before <+: after) (h : lookup key before = some v) : lookup key after = some v := by
  obtain ⟨added, rfl⟩ := hgrows
  simp [lookup_append, h]

/-! ## Writing a key that is not there -/

theorem contains_iff {key : String} {entries : List (String × α)} :
    contains key entries = true ↔ key ∈ entries.map (·.1) :=
  isSome_lookup_iff

/-- A new entry goes to the end. -/
theorem putNew_of_not_mem {key : String} {v : α} {entries : List (String × α)}
    (h : key ∉ entries.map (·.1)) : putNew key v entries = entries ++ [(key, v)] := by
  rw [putNew, if_neg (by rwa [contains_iff])]

/-- An entry that is there stays as it is. -/
theorem putNew_of_mem {key : String} {v : α} {entries : List (String × α)}
    (h : key ∈ entries.map (·.1)) : putNew key v entries = entries := by
  rw [putNew, if_pos (contains_iff.2 h)]

/-- No entry is moved or changed. -/
theorem prefix_putNew (key : String) (v : α) (entries : List (String × α)) :
    entries <+: putNew key v entries := by
  rw [putNew]
  split
  · exact List.prefix_rfl
  · exact List.prefix_append _ _

/-- The keys after a write. -/
theorem mem_keys_putNew {key k : String} {v : α} {entries : List (String × α)} :
    k ∈ (putNew key v entries).map (·.1) ↔ k = key ∨ k ∈ entries.map (·.1) := by
  by_cases h : key ∈ entries.map (·.1)
  · rw [putNew_of_mem h]
    exact ⟨Or.inr, fun hk => hk.elim (fun hkey => hkey ▸ h) id⟩
  · rw [putNew_of_not_mem h, List.map_append, List.mem_append, List.map_cons, List.map_nil,
      List.mem_singleton, or_comm]

/-- Keys stay distinct. -/
theorem nodup_keys_putNew {key : String} {v : α} {entries : List (String × α)}
    (h : (entries.map (·.1)).Nodup) : ((putNew key v entries).map (·.1)).Nodup := by
  by_cases hmem : key ∈ entries.map (·.1)
  · rwa [putNew_of_mem hmem]
  · rw [putNew_of_not_mem hmem, List.map_append, List.nodup_append]
    refine ⟨h, List.nodup_singleton _, ?_⟩
    rintro a ha b hb rfl
    rw [List.map_cons, List.map_nil, List.mem_singleton] at hb
    subst hb
    exact hmem ha

/-! ## Writing one pair after the other -/

theorem keys_put (key : String) (v : α) (entries : List (String × α)) :
    (put key v entries).map (·.1) =
      if key ∈ entries.map (·.1) then entries.map (·.1) else entries.map (·.1) ++ [key] := by
  induction entries with
  | nil => simp [put]
  | cons entry entries ih =>
      obtain ⟨k, w⟩ := entry
      by_cases hk : k = key
      · simp [put, hk]
      · simp only [put, if_neg hk, List.map_cons, ih, List.mem_cons, Ne.symm hk, false_or]
        split <;> simp

theorem lookup_put (key k : String) (v : α) (entries : List (String × α)) :
    lookup k (put key v entries) = if key = k then some v else lookup k entries := by
  induction entries with
  | nil => simp [put]
  | cons entry entries ih =>
      obtain ⟨k', w⟩ := entry
      by_cases hk' : k' = key
      · subst hk'
        by_cases hk : k' = k <;> simp [put, hk]
      · by_cases hk : key = k
        · subst hk; simp [put, hk', ih]
        · simp [put, hk', ih, hk]

/-- A map is written pair by pair; the last pair is written last. -/
theorem ofPairs_concat (pairs : List (String × α)) (key : String) (v : α) :
    ofPairs (pairs ++ [(key, v)]) = put key v (ofPairs pairs) := by
  simp [ofPairs]

/-- Writing the value that a key has changes nothing. -/
theorem put_of_lookup {key : String} {v : α} {entries : List (String × α)}
    (h : lookup key entries = some v) : put key v entries = entries := by
  induction entries with
  | nil => cases h
  | cons entry entries ih =>
      obtain ⟨k, w⟩ := entry
      by_cases hk : k = key
      · simp_all [put]
      · rw [lookup_cons, if_neg hk] at h
        rw [put, if_neg hk, ih h]

/-- A key that is not there goes to the end. -/
theorem put_of_not_mem {key : String} {v : α} {entries : List (String × α)}
    (h : key ∉ entries.map (·.1)) : put key v entries = entries ++ [(key, v)] := by
  induction entries with
  | nil => rfl
  | cons entry entries ih =>
      obtain ⟨k, w⟩ := entry
      rw [List.map_cons, List.mem_cons, not_or] at h
      rw [put, if_neg (Ne.symm h.1), ih h.2, List.cons_append]

/-- A changed value is a written one. -/
theorem adjust_eq_put (key : String) (fallback : α) (change : α → α) (entries : List (String × α)) :
    adjust key fallback change entries =
      put key (change ((lookup key entries).getD fallback)) entries := by
  induction entries with
  | nil => rfl
  | cons entry entries ih =>
      obtain ⟨k, w⟩ := entry
      by_cases hk : k = key <;> simp [adjust, put, hk, ih]

/-- A name at the end of a list is new, or was there before. -/
theorem eraseDups_concat (names : List String) (name : String) :
    (names ++ [name]).eraseDups =
      if name ∈ names then names.eraseDups else names.eraseDups ++ [name] := by
  rw [List.eraseDups_append]
  by_cases hname : name ∈ names
  · have hgone : List.removeAll [name] names = [] := by
      simp [List.removeAll, hname]
    rw [if_pos hname, hgone]
    simp
  · have hstays : List.removeAll [name] names = [name] := by
      simp [List.removeAll, hname]
    rw [if_neg hname, hstays]
    rfl

theorem nodup_eraseDups (names : List String) : names.eraseDups.Nodup := by
  induction names using List.reverseRecOn with
  | nil => exact List.nodup_nil
  | append_singleton names name ih =>
      rw [eraseDups_concat]
      split
      · exact ih
      · next hname =>
        rw [← List.concat_eq_append]
        exact ih.concat fun h => hname (List.mem_eraseDups.1 h)

/-- The keys of a map that is written pair by pair are the keys of the pairs, each in the place of
its first pair. -/
theorem keys_ofPairs (pairs : List (String × α)) :
    (ofPairs pairs).map (·.1) = (pairs.map (·.1)).eraseDups := by
  induction pairs using List.reverseRecOn with
  | nil => rfl
  | append_singleton pairs pair ih =>
      obtain ⟨key, v⟩ := pair
      rw [ofPairs_concat, keys_put, ih, List.map_append, List.map_singleton, eraseDups_concat]
      simp only [List.mem_eraseDups]

/-- The value of a key in a map that is written pair by pair is that of its last pair. -/
theorem lookup_ofPairs (k : String) (pairs : List (String × α)) :
    lookup k (ofPairs pairs) = lookup k pairs.reverse := by
  induction pairs using List.reverseRecOn with
  | nil => rfl
  | append_singleton pairs pair ih =>
      obtain ⟨key, v⟩ := pair
      rw [ofPairs_concat, lookup_put, ih, List.reverse_concat, lookup_cons]

/-- Pairs with distinct keys are a map. -/
theorem ofPairs_of_nodup {pairs : List (String × α)} (h : (pairs.map (·.1)).Nodup) :
    ofPairs pairs = pairs := by
  induction pairs using List.reverseRecOn with
  | nil => rfl
  | append_singleton pairs pair ih =>
      obtain ⟨key, v⟩ := pair
      rw [List.map_append, List.nodup_append] at h
      obtain ⟨hpairs, -, hnew⟩ := h
      have hkey : key ∉ pairs.map (·.1) := fun hmem =>
        hnew key hmem key (by simp) rfl
      rw [ofPairs_concat, ih hpairs, put_of_not_mem hkey]

/-- Changing the values of a map commutes with writing to it. -/
theorem map_put {β : Type} (f : String → α → β) (key : String) (v : α)
    (entries : List (String × α)) :
    (put key v entries).map (fun entry => (entry.1, f entry.1 entry.2)) =
      put key (f key v) (entries.map fun entry => (entry.1, f entry.1 entry.2)) := by
  induction entries with
  | nil => rfl
  | cons entry entries ih =>
      obtain ⟨k, w⟩ := entry
      by_cases hk : k = key <;> simp [put, hk, ih]

theorem map_ofPairs {β : Type} (f : String → α → β) (pairs : List (String × α)) :
    (ofPairs pairs).map (fun entry => (entry.1, f entry.1 entry.2)) =
      ofPairs (pairs.map fun entry => (entry.1, f entry.1 entry.2)) := by
  induction pairs using List.reverseRecOn with
  | nil => rfl
  | append_singleton pairs pair ih =>
      obtain ⟨key, v⟩ := pair
      rw [ofPairs_concat, map_put, ih, List.map_append, List.map_singleton, ofPairs_concat]

/-- The entries of a changed map are those of the map and the changed one. -/
theorem mem_adjust {key k : String} {fallback v : α} {change : α → α}
    {entries : List (String × α)} (h : (k, v) ∈ adjust key fallback change entries) :
    (k, v) ∈ entries ∨
      k = key ∧ (v = change fallback ∨ ∃ w, (k, w) ∈ entries ∧ v = change w) := by
  induction entries with
  | nil =>
      obtain ⟨rfl, rfl⟩ : k = key ∧ v = change fallback := by simpa [adjust] using h
      exact .inr ⟨rfl, .inl rfl⟩
  | cons entry entries ih =>
      obtain ⟨k', w⟩ := entry
      unfold adjust at h
      split at h
      · next hkey =>
        rcases List.mem_cons.1 h with heq | h
        · cases heq
          exact .inr ⟨hkey, .inr ⟨w, List.mem_cons_self, rfl⟩⟩
        · exact .inl (List.mem_cons_of_mem _ h)
      · rcases List.mem_cons.1 h with heq | h
        · cases heq
          exact .inl List.mem_cons_self
        · rcases ih h with h | ⟨hkey, h | ⟨w', hw', rfl⟩⟩
          · exact .inl (List.mem_cons_of_mem _ h)
          · exact .inr ⟨hkey, .inl h⟩
          · exact .inr ⟨hkey, .inr ⟨w', List.mem_cons_of_mem _ hw', rfl⟩⟩

/-! ## Maps with changed values -/

section MapValues

variable {β : Type} (f : α → β)

/-- A map with changed values. -/
def mapValues (entries : List (String × α)) : List (String × β) :=
  entries.map fun (key, value) => (key, f value)

@[simp] theorem mapValues_cons (key : String) (value : α) (entries : List (String × α)) :
    mapValues f ((key, value) :: entries) = (key, f value) :: mapValues f entries := rfl

@[simp] theorem keys_mapValues (entries : List (String × α)) :
    (mapValues f entries).map (·.1) = entries.map (·.1) := by
  simp [mapValues]

@[simp] theorem lookup_mapValues (key : String) (entries : List (String × α)) :
    lookup key (mapValues f entries) = (lookup key entries).map f := by
  induction entries with
  | nil => rfl
  | cons entry entries ih =>
      obtain ⟨k, v⟩ := entry
      by_cases hk : k = key <;> simp [hk, ih]

theorem contains_mapValues (key : String) (entries : List (String × α)) :
    contains key (mapValues f entries) = contains key entries := by
  rw [contains, lookup_mapValues, contains, Option.isSome_map]

theorem mapValues_putNew (key : String) (value : α) (entries : List (String × α)) :
    mapValues f (putNew key value entries) = putNew key (f value) (mapValues f entries) := by
  rw [putNew, putNew, contains_mapValues]
  split <;> simp [mapValues]

end MapValues

end OperationAtlas.OrderedMap
