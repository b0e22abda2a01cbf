import Mathlib.Data.List.Nodup
import OperationAtlas.Proofs.Files
import OperationAtlas.SchemaFiles

/-!
# Listings of the same files

The entries of a state stand in the order in which a directory tree was listed. `Files.ListsSame`
says that two states list the same entries, in whatever order. Such states agree on every location
(`Files.ListsSame.agrees`): the same bytes are there, and it is a directory in both or in neither.

All that a search asks goes through these two questions: where a path leads to, which rules a
directory sets, and so whether a file is left out. Only the table of the rules depends on the order,
and it is never asked for more than the rules of one directory (`RuleTable.rulesOf_ruleTable`).
-/

namespace OperationAtlas

namespace Files

variable {files other : Files} {location directory working : Location}

/-- A name of a file or of a directory. -/
structure IsName (name : String) : Prop where
  ne_empty : name ≠ ""
  ne_here : name ≠ "."
  slash_not_mem : '/' ∉ name.toList

instance (name : String) : Decidable (IsName name) :=
  decidable_of_iff (name ≠ "" ∧ name ≠ "." ∧ '/' ∉ name.toList)
    ⟨fun ⟨hempty, hhere, hslash⟩ => ⟨hempty, hhere, hslash⟩,
      fun h => ⟨h.ne_empty, h.ne_here, h.slash_not_mem⟩⟩

/-- A listing of a directory tree: it has every location once, and a location is made of names. -/
structure IsListing (files : Files) : Prop where
  distinct : (files.entries.map (·.1)).Nodup
  named : ∀ entry ∈ files.entries, ∀ name ∈ entry.1, IsName name

/-- The states list the same entries, in whatever order. -/
def ListsSame (files other : Files) : Prop :=
  ∀ entry, entry ∈ files.entries ↔ entry ∈ other.entries

/-! ## Agreement -/

/-- The same is at each location. -/
structure Agrees (files other : Files) : Prop where
  bytes? : files.bytes? = other.bytes?
  isDirectory : files.isDirectory = other.isDirectory

/-- The bytes at a location are those that are listed there. -/
theorem IsListing.bytes?_eq_some_iff (h : files.IsListing) {content : ByteArray} :
    files.bytes? location = some content ↔ (location, some content) ∈ files.entries := by
  unfold Files.bytes?
  constructor
  · intro hbytes
    obtain ⟨⟨at_, listed⟩, hfind, rfl⟩ := Option.bind_eq_some_iff.1 hbytes
    obtain rfl : at_ = location := by simpa using List.find?_some hfind
    exact List.mem_of_find?_eq_some hfind
  · intro hmem
    change (files.entries.find? fun entry => entry.1 = location ∧ entry.2.isSome).bind (·.2) = _
    cases hfind : files.entries.find? fun entry => entry.1 = location ∧ entry.2.isSome with
    | none => exact absurd (List.find?_eq_none.1 hfind _ hmem) (by simp)
    | some entry =>
      have hfound := List.find?_some hfind
      have hat : entry.1 = location := (of_decide_eq_true hfound).1
      rw [List.inj_on_of_nodup_map h.distinct (List.mem_of_find?_eq_some hfind) hmem hat]
      rfl

/-- Listings of the same entries agree. -/
theorem ListsSame.agrees (hsame : files.ListsSame other) (hfiles : files.IsListing)
    (hother : other.IsListing) : files.Agrees other where
  bytes? := by
    funext location
    ext content
    rw [hfiles.bytes?_eq_some_iff, hother.bytes?_eq_some_iff, hsame]
  isDirectory := by
    funext location
    rw [Bool.eq_iff_iff, isDirectory_iff, isDirectory_iff]
    simp only [hsame _]

theorem ListsSame.perm (hsame : files.ListsSame other) (hfiles : files.IsListing)
    (hother : other.IsListing) : files.entries.Perm other.entries :=
  (List.perm_ext_iff_of_nodup (.of_map _ hfiles.distinct) (.of_map _ hother.distinct)).2 hsame

/-! ## What is asked of a state -/

namespace Agrees

theorem isFile (h : files.Agrees other) : files.isFile = other.isFile := by
  funext location
  rw [Files.isFile, Files.isFile, h.bytes?]

theorem hasEntry (h : files.Agrees other) : files.hasEntry = other.hasEntry := by
  funext location
  rw [Files.hasEntry, Files.hasEntry, h.isFile, h.isDirectory]

theorem text? (h : files.Agrees other) : files.text? = other.text? := by
  funext location
  rw [Files.text?, Files.text?, h.bytes?]

theorem follow? (h : files.Agrees other) (here : Location) (pieces : List String) :
    files.follow? here pieces = other.follow? here pieces := by
  induction pieces generalizing here with
  | nil => rfl
  | cons piece more ih => simp only [Files.follow?, h.isDirectory, ih]

theorem locate? (h : files.Agrees other) : files.locate? = other.locate? := by
  funext working path
  simp only [Files.locate?, h.follow?]

theorem ruleFile (h : files.Agrees other) : files.ruleFile = other.ruleFile := by
  funext location
  rw [Files.ruleFile, Files.ruleFile, h.bytes?]

theorem firstLine (h : files.Agrees other) : files.firstLine = other.firstLine := by
  funext location
  rw [Files.firstLine, Files.firstLine, h.bytes?]

theorem gitExclude (h : files.Agrees other) : files.gitExclude = other.gitExclude := by
  funext working directory
  simp only [Files.gitExclude, h.isFile, h.firstLine, h.locate?, h.ruleFile]

/-- A directory sets the same rules. -/
theorem directoryRules (h : files.Agrees other) : files.directoryRules = other.directoryRules := by
  funext working directory
  simp only [Files.directoryRules, h.gitExclude, h.ruleFile, h.hasEntry]

end Agrees

end Files

/-! ## Rules of directories -/

namespace RuleTable

variable {table other : RuleTable} {files : Files} {working directory : Location}

/-- In a table that has rules of some directories, all of them are found. -/
theorem rulesOf_map (rulesAt : Location → DirectoryRules) (directories : List Location) :
    rulesOf (directories.map fun directory => (directory, rulesAt directory)) directory =
      if directory ∈ directories then rulesAt directory else {} := by
  rw [rulesOf]
  induction directories with
  | nil => rfl
  | cons first directories ih =>
    by_cases hfirst : first = directory
    · simp [hfirst]
    · simpa [hfirst, Ne.symm hfirst] using ih

/-- The rules of a directory are looked up in the table if something is listed at or below one of
the names at which rules are found. -/
theorem rulesOf_ruleTable :
    (files.ruleTable working).rulesOf directory =
      if ∃ entry ∈ files.entries, directory ∈ Files.ruledAbove entry.1 then
        files.directoryRules working directory
      else {} := by
  rw [Files.ruleTable, rulesOf_map]
  simp only [List.mem_eraseDups, List.mem_flatMap]

theorem withinRepository_congr (h : table.rulesOf = other.rulesOf) (directories : List Location) :
    table.withinRepository directories = other.withinRepository directories := by
  induction directories with
  | nil => rfl
  | cons directory directories ih => simp only [withinRepository, h, ih]

/-- What a table ignores is said by the rules of single directories. -/
theorem isIgnored_congr (h : table.rulesOf = other.rulesOf) : table.isIgnored = other.isIgnored := by
  funext location forDirectory
  have hwithin : table.withinRepository = other.withinRepository :=
    funext (withinRepository_congr h)
  have hnearest : table.nearest? = other.nearest? := by
    funext kind location forDirectory directories
    rw [nearest?, nearest?, h]
  rw [isIgnored, isIgnored, hwithin, hnearest]

end RuleTable

namespace Files

variable {files other : Files} {directory working : Location}

theorem ListsSame.rulesOf_ruleTable (hsame : files.ListsSame other) (h : files.Agrees other) :
    (files.ruleTable working).rulesOf = (other.ruleTable working).rulesOf := by
  funext directory
  simp only [RuleTable.rulesOf_ruleTable, hsame _, h.directoryRules]

end Files

end OperationAtlas
