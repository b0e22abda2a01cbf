import OperationAtlas.Files

/-!
# Files after a write

A write changes one file. `Files.Replaced` says that a state has some bytes in one file and is
otherwise the state before: every other file has the same bytes, and the same locations are
directories. A write at a location that a path leads to, and at which there is no directory, has this
effect (`Files.replaced_write`), because a path is only followed through directories
(`Files.isDirectory_dropLast_of_locate?`).
-/

namespace OperationAtlas.Files

variable {files : Files} {location other : Location}

/-! ## Directories -/

theorem namesBelow?_eq_some_iff {directory : Location} {names : List String} :
    namesBelow? directory location = some names ↔ location = directory ++ names := by
  induction directory generalizing location with
  | nil => simp [namesBelow?]
  | cons d directory ih =>
    cases location with
    | nil => simp [namesBelow?]
    | cons n location =>
      rw [namesBelow?]
      split
      · next hname => simp [ih, hname]
      · next hname => simp [Ne.symm hname]

/-- An entry shows that a location is a directory: it is that directory, or it stands below it. -/
def ShowsDirectory (location : Location) (entry : Location × Option ByteArray) : Prop :=
  entry = (location, none) ∨ ∃ name names, entry.1 = location ++ name :: names

theorem isDirectory_iff :
    files.isDirectory location = true ↔
      location = [] ∨ ∃ entry ∈ files.entries, ShowsDirectory location entry := by
  rw [isDirectory, Bool.or_eq_true, List.isEmpty_iff, List.any_eq_true]
  refine or_congr_right (exists_congr fun entry => and_congr_right fun _ => ?_)
  obtain ⟨at_, content⟩ := entry
  unfold ShowsDirectory
  dsimp only
  cases hbelow : namesBelow? location at_ with
  | none =>
    have hnot : ∀ names, at_ ≠ location ++ names := fun names heq => by
      rw [namesBelow?_eq_some_iff.2 heq] at hbelow
      cases hbelow
    have hself : at_ ≠ location := by simpa using hnot []
    simp [hnot, hself]
  | some names =>
    obtain rfl := namesBelow?_eq_some_iff.1 hbelow
    cases names <;> simp

/-- What stands above a directory is a directory. -/
theorem isDirectory_of_append {names : List String}
    (h : files.isDirectory (location ++ names) = true) : files.isDirectory location = true := by
  rw [isDirectory_iff] at h ⊢
  rcases h with hroot | ⟨entry, hentry, hshows⟩
  · exact .inl (List.append_eq_nil_iff.1 hroot).1
  · refine .inr ⟨entry, hentry, ?_⟩
    cases names with
    | nil => simpa using hshows
    | cons name names =>
      rcases hshows with rfl | ⟨last, lower, hbelow⟩
      · exact .inr ⟨name, names, rfl⟩
      · exact .inr ⟨name, names ++ last :: lower, by simpa using hbelow⟩

theorem isDirectory_dropLast (h : files.isDirectory location = true) :
    files.isDirectory location.dropLast = true := by
  rcases List.eq_nil_or_concat location with rfl | ⟨front, last, rfl⟩
  · exact h
  · rw [List.concat_eq_append] at h ⊢
    rw [List.dropLast_concat]
    exact isDirectory_of_append h

/-! ## Paths -/

/-- Pieces of a path that are followed end in a directory. -/
theorem isDirectory_dropLast_of_follow? {pieces : List String} (hne : pieces ≠ []) {here : Location}
    (h : files.follow? here pieces = some location) :
    files.isDirectory location.dropLast = true := by
  induction pieces generalizing here with
  | nil => exact absurd rfl hne
  | cons piece more ih =>
    rw [follow?] at h
    split at h
    · cases h
    · next hhere =>
      have hhere : files.isDirectory here = true := by simpa using hhere
      -- the last piece stays, goes up or goes down by one name
      have hend : ∀ next, (next = here ∨ next = here.dropLast ∨ next = here ++ [piece]) →
          files.follow? next more = some location → files.isDirectory location.dropLast = true := by
        intro next hnext hfollow
        cases more with
        | cons second more => exact ih (List.cons_ne_nil second more) hfollow
        | nil =>
          cases hfollow
          rcases hnext with rfl | rfl | rfl
          · exact isDirectory_dropLast hhere
          · exact isDirectory_dropLast (isDirectory_dropLast hhere)
          · rwa [List.dropLast_concat]
      split at h
      · exact hend _ (.inl rfl) h
      · split at h
        · exact hend _ (.inr (.inl rfl)) h
        · exact hend _ (.inr (.inr rfl)) h

theorem pieces_ne_nil (path : String) : pieces path ≠ [] := by
  have hsplit : ∀ cs : List Char, Text.splitAt '/' cs ≠ [] := by
    intro cs
    fun_induction Text.splitAt '/' cs <;> exact List.cons_ne_nil _ _
  rw [pieces, Ne, List.map_eq_nil_iff]
  exact hsplit path.toList

/-- A path leads into a directory. -/
theorem isDirectory_dropLast_of_locate? {working : Location} {path : String}
    (h : files.locate? working path = some location) :
    files.isDirectory location.dropLast = true := by
  unfold locate? at h
  split at h
  · cases h
  · exact isDirectory_dropLast_of_follow? (pieces_ne_nil path) h

/-! ## Writes -/

/-- The states differ in one file only, which has the bytes afterwards. -/
structure Replaced (files : Files) (location : Location) (content : ByteArray) (after : Files) :
    Prop where
  content : after.bytes? location = some content
  others : ∀ other, other ≠ location → after.bytes? other = files.bytes? other
  directories : ∀ other, after.isDirectory other = files.isDirectory other

theorem bytes?_write_self (content : ByteArray) :
    (files.write location content).bytes? location = some content := by
  simp [bytes?, write]

theorem bytes?_write_of_ne (h : other ≠ location) (content : ByteArray) :
    (files.write location content).bytes? other = files.bytes? other := by
  have hkept : ∀ entry : Location × Option ByteArray,
      (entry.1 ≠ location ∧ entry.1 = other ∧ entry.2.isSome) ↔
        (entry.1 = other ∧ entry.2.isSome) := by
    intro entry
    refine and_iff_right_of_imp ?_
    rintro ⟨rfl, -⟩
    exact h
  unfold bytes? write
  dsimp only
  rw [List.find?_cons_of_neg (by simp [Ne.symm h]), List.find?_filter]
  simp only [decide_eq_true_eq, hkept]

/-- A write into a directory, at a location that is no directory, makes no directory and removes
none. -/
theorem isDirectory_write (habove : files.isDirectory location.dropLast = true)
    (hlocation : files.isDirectory location = false) (content : ByteArray) (other : Location) :
    (files.write location content).isDirectory other = files.isDirectory other := by
  have hne : location ≠ [] := by
    rintro rfl
    cases hlocation
  rw [Bool.eq_iff_iff]
  constructor
  · rw [isDirectory_iff]
    rintro (rfl | ⟨entry, hentry, hshows⟩)
    · exact isDirectory_iff.2 (.inl rfl)
    · rcases List.mem_cons.1 hentry with rfl | hentry
      · rcases hshows with hself | ⟨name, names, hbelow⟩
        · cases hself
        · dsimp only at hbelow
          rw [hbelow, List.dropLast_append_of_ne_nil (List.cons_ne_nil name names)] at habove
          exact isDirectory_of_append habove
      · exact isDirectory_iff.2 (.inr ⟨entry, (List.mem_filter.1 hentry).1, hshows⟩)
  · intro h
    rcases isDirectory_iff.1 h with rfl | ⟨entry, hentry, hshows⟩
    · exact isDirectory_iff.2 (.inl rfl)
    · rw [isDirectory_iff]
      by_cases hat : entry.1 = location
      · -- an entry at the location shows directories above it only
        rcases hshows with rfl | ⟨name, names, hbelow⟩
        · obtain rfl : other = location := hat
          rw [h] at hlocation
          cases hlocation
        · exact .inr ⟨(location, some content), List.mem_cons_self, .inr ⟨name, names, hat ▸ hbelow⟩⟩
      · exact .inr ⟨entry, List.mem_cons_of_mem _ (List.mem_filter.2 ⟨hentry, by simpa using hat⟩),
          hshows⟩

/-- A write where a path leads to, but no directory stands, changes one file and nothing else. -/
theorem replaced_write {working : Location} {path : String}
    (hpath : files.locate? working path = some location)
    (hlocation : files.isDirectory location = false) (content : ByteArray) :
    files.Replaced location content (files.write location content) where
  content := bytes?_write_self content
  others _ hother := bytes?_write_of_ne hother _
  directories := isDirectory_write (isDirectory_dropLast_of_locate? hpath) hlocation _

end OperationAtlas.Files
