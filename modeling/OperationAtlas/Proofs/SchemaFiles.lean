import Mathlib.Data.List.Lex
import OperationAtlas.Proofs.Chain
import OperationAtlas.Proofs.Files.Listing
import OperationAtlas.Proofs.Text.Lines

/-!
# The order of schema files

Paths are compared name by name, and names character by character (`PathBefore`). The order in which
schema files are sorted is this one (`namesPrecede_iff`), and it is a strict total order on paths. So
sorting leaves nothing of the order in which the files were found (`mergeSort_eq_of_perm`), and the
paths of the files that are found are strictly increasing, each of them once
(`Files.pairwise_schemaFiles`).
-/

namespace OperationAtlas

/-! ## Paths in order -/

/-- A character comes before another. -/
def CharBefore (c d : Char) : Prop := c.toNat < d.toNat

/-- A text comes before another, character by character. -/
def TextBefore (text other : String) : Prop := List.Lex CharBefore text.toList other.toList

/-- A path comes before another, name by name. It comes before those below it. -/
def PathBefore : List String → List String → Prop := List.Lex TextBefore

instance : Std.Trichotomous CharBefore where
  trichotomous c d hcd hdc := by
    unfold CharBefore at hcd hdc
    exact Char.toNat_inj.1 (by omega)

instance : Std.Trichotomous TextBefore where
  trichotomous _ _ hbefore hbehind :=
    String.toList_inj.1 (Std.Trichotomous.trichotomous (r := List.Lex CharBefore) _ _ hbefore hbehind)

theorem TextBefore.irrefl (text : String) : ¬ TextBefore text text :=
  List.lex_irrefl (fun c => Nat.lt_irrefl c.toNat) text.toList

theorem TextBefore.trans {text other third : String} (h : TextBefore text other)
    (hother : TextBefore other third) : TextBefore text third :=
  List.lex_trans Nat.lt_trans h hother

namespace PathBefore

variable {path other third : List String}

theorem irrefl (path : List String) : ¬ PathBefore path path :=
  List.lex_irrefl TextBefore.irrefl path

theorem trans (h : PathBefore path other) (hother : PathBefore other third) :
    PathBefore path third :=
  List.lex_trans TextBefore.trans h hother

theorem trichotomy (path other : List String) :
    PathBefore path other ∨ path = other ∨ PathBefore other path :=
  trichotomous_of (List.Lex TextBefore) path other

end PathBefore

theorem textPrecedes_iff {text other : List Char} :
    textPrecedes text other = true ↔ text = other ∨ List.Lex CharBefore text other := by
  induction text generalizing other with
  | nil => cases other <;> simp [textPrecedes]
  | cons c text ih =>
    cases other with
    | nil => simp [textPrecedes]
    | cons d other =>
      have hchar : c.toNat = d.toNat ↔ c = d := Char.toNat_inj
      rw [textPrecedes, List.cons_lex_cons_iff, Bool.or_eq_true, Bool.and_eq_true,
        decide_eq_true_eq, decide_eq_true_eq, ih, hchar, CharBefore]
      grind

/-- Names that precede others are the same or come before them. -/
theorem namesPrecede_iff {path other : List String} :
    namesPrecede path other = true ↔ path = other ∨ PathBefore path other := by
  induction path generalizing other with
  | nil => cases other <;> simp [namesPrecede, PathBefore]
  | cons name path ih =>
    cases other with
    | nil => simp [namesPrecede, PathBefore]
    | cons name' other =>
      rw [namesPrecede, PathBefore, List.cons_lex_cons_iff]
      split
      · next hname =>
        simp [hname, ih, PathBefore, TextBefore.irrefl]
      · next hname =>
        rw [textPrecedes_iff, String.toList_inj]
        simp [hname, TextBefore]

theorem namesPrecede_total (path other : List String) :
    (namesPrecede path other || namesPrecede other path) = true := by
  rw [Bool.or_eq_true, namesPrecede_iff, namesPrecede_iff]
  grind [PathBefore.trichotomy path other]

theorem namesPrecede_trans (path other third : List String) (h : namesPrecede path other = true)
    (hother : namesPrecede other third = true) : namesPrecede path third = true := by
  rw [namesPrecede_iff] at *
  grind [PathBefore.trans]

theorem namesPrecede_antisymm {path other : List String} (h : namesPrecede path other = true)
    (hother : namesPrecede other path = true) : path = other := by
  rw [namesPrecede_iff] at *
  grind [PathBefore.trans, PathBefore.irrefl]

/-- Names in order are the same for whatever order they were found in. -/
theorem mergeSort_eq_of_perm {found other : List (List String)} (h : found.Perm other) :
    found.mergeSort namesPrecede = other.mergeSort namesPrecede := by
  have hsorted := List.pairwise_mergeSort namesPrecede_trans namesPrecede_total
  refine List.Perm.eq_of_pairwise (fun _ _ _ _ => namesPrecede_antisymm) (hsorted found)
    (hsorted other) ?_
  exact (List.mergeSort_perm _ _).trans (h.trans (List.mergeSort_perm _ _).symm)

/-- Different names in order are strictly increasing. -/
theorem pairwise_mergeSort {found : List (List String)} (h : found.Nodup) :
    (found.mergeSort namesPrecede).Pairwise PathBefore := by
  have hsorted := List.pairwise_mergeSort namesPrecede_trans namesPrecede_total found
  have hnodup := (List.mergeSort_perm found namesPrecede).nodup_iff.2 h
  refine (hsorted.and hnodup).imp fun ⟨hprecede, hne⟩ => ?_
  exact (namesPrecede_iff.1 hprecede).resolve_left hne

namespace Files

variable {files other : Files} {location directory working : Location} {names : List String}

/-! ## Paths -/

/-- The names of a path. A piece that stays where it is counts for nothing. -/
def components (path : String) : List String :=
  (pieces path).filter fun piece => piece ≠ "" ∧ piece ≠ "."

theorem pieces_intercalate (hne : names ≠ []) (hnames : ∀ name ∈ names, IsName name) :
    pieces ("/".intercalate names) = names := by
  have hslash : ∀ piece ∈ names.map String.toList, '/' ∉ piece := by
    rintro _ hpiece
    obtain ⟨name, hname, rfl⟩ := List.mem_map.1 hpiece
    exact (hnames name hname).slash_not_mem
  rw [pieces, String.toList_intercalate]
  exact (congrArg _ (Text.splitAt_intercalate (by simpa using hne) hslash)).trans (by simp)

theorem components_intercalate (hne : names ≠ []) (hnames : ∀ name ∈ names, IsName name) :
    components ("/".intercalate names) = names := by
  rw [components, pieces_intercalate hne hnames, List.filter_eq_self]
  intro name hname
  simpa using ⟨(hnames name hname).ne_empty, (hnames name hname).ne_here⟩

/-- A path of names does not start at the top directory. -/
theorem head?_intercalate_ne (hne : names ≠ []) (hnames : ∀ name ∈ names, IsName name) :
    ("/".intercalate names).toList.head? ≠ some '/' := by
  intro hhead
  obtain ⟨rest, hrest⟩ := List.head?_eq_some_iff.1 hhead
  have hpieces := pieces_intercalate hne hnames
  rw [pieces, hrest, Text.splitAt, if_pos rfl, List.map_cons] at hpieces
  exact (hnames "" (hpieces ▸ List.mem_cons_self)).ne_empty rfl

theorem components_append_slash (front back : String) :
    components (front ++ "/" ++ back) = components front ++ components back := by
  simp [components, pieces, Text.splitAt_append_feed]

/-- A path below a directory has the names of both. -/
theorem components_join (root : String) (hne : names ≠ [])
    (hnames : ∀ name ∈ names, IsName name) :
    components (join root ("/".intercalate names)) = components root ++ names := by
  have hempty : components "" = [] := by decide
  have hbelow := components_intercalate hne hnames
  unfold join
  split
  · next h =>
    obtain rfl := h.resolve_right (head?_intercalate_ne hne hnames)
    rw [hempty, hbelow, List.nil_append]
  split
  · next hlast =>
    -- the slash at the end of the root opens no name of its own
    obtain ⟨front, hfront⟩ := List.getLast?_eq_some_iff.1 hlast
    obtain rfl : root = String.ofList front ++ "/" := by
      rw [← String.toList_inj, hfront]
      simp
    have hroot := components_append_slash (String.ofList front) ""
    rw [String.append_empty, hempty, List.append_nil] at hroot
    rw [components_append_slash, hroot, hbelow]
  · rw [components_append_slash, hbelow]

/-! ## Files below a directory -/

/-- The names that lead from a directory to an entry, if it is a file below the directory. -/
def namesOf? (directory : Location) (entry : Location × Option ByteArray) : Option (List String) :=
  match namesBelow? directory entry.1, entry.2 with
  | some (name :: names), some _ => some (name :: names)
  | _, _ => none

theorem namesOf?_eq_some_iff {entry : Location × Option ByteArray} :
    namesOf? directory entry = some names ↔
      names ≠ [] ∧ ∃ content, entry = (directory ++ names, some content) := by
  obtain ⟨at_, content⟩ := entry
  unfold namesOf?
  constructor
  · intro h
    split at h
    · next name more content hbelow hcontent =>
      cases h
      exact ⟨List.cons_ne_nil name more, content,
        Prod.ext (namesBelow?_eq_some_iff.1 hbelow) hcontent⟩
    · cases h
  · rintro ⟨hne, content, hentry⟩
    cases hentry
    obtain ⟨name, more, rfl⟩ := List.exists_cons_of_ne_nil hne
    rw [namesBelow?_eq_some_iff.2 rfl]

theorem namesOfFilesBelow_eq (files : Files) (directory : Location) :
    files.namesOfFilesBelow directory = files.entries.filterMap (namesOf? directory) :=
  rfl

theorem IsListing.isName (h : files.IsListing) (hnames : names ∈ files.namesOfFilesBelow directory) :
    names ≠ [] ∧ ∀ name ∈ names, IsName name := by
  rw [namesOfFilesBelow_eq, List.mem_filterMap] at hnames
  obtain ⟨entry, hentry, hnames⟩ := hnames
  obtain ⟨hne, content, rfl⟩ := namesOf?_eq_some_iff.1 hnames
  exact ⟨hne, fun name hname => h.named _ hentry name (List.mem_append_right _ hname)⟩

/-- A listing shows each file below a directory once. -/
theorem IsListing.nodup_namesOfFilesBelow (h : files.IsListing) (directory : Location) :
    (files.namesOfFilesBelow directory).Nodup := by
  rw [namesOfFilesBelow_eq, List.Nodup, List.pairwise_filterMap]
  refine (List.pairwise_map.1 h.distinct).imp fun hne names hnames names' hnames' heq => hne ?_
  obtain ⟨-, content, rfl⟩ := namesOf?_eq_some_iff.1 hnames
  obtain ⟨-, content', rfl⟩ := namesOf?_eq_some_iff.1 hnames'
  rw [heq]

/-! ## The search -/

/-- The rule that a pattern is, if it is one. -/
def patternRule (pattern : String) : Except SchemaFilesError (Option IgnoreRule) :=
  match IgnoreRule.readLine false pattern.toList with
  | .rule rule => .ok (some rule)
  | .nothing => .ok none
  | .malformed => .error .invalidPattern

/-- The names that lead from a directory to the files that are found below it, in the order in which
they are listed. -/
def foundBelow (files : Files) (working : Location) (pattern? : Option IgnoreRule)
    (directory : Location) : List (List String) :=
  (files.namesOfFilesBelow directory).filter
    (SchemaSearch.isFound ⟨directory, pattern?, files.ruleTable working⟩)

/-- The search below a root, once the pattern is read. -/
def search (files : Files) (working : Location) (root : String) (pattern? : Option IgnoreRule) :
    Except SchemaFilesError (List (String × Location)) :=
  if root = "-" then .error .noMatch
  else match files.locate? working root with
    | none => .error .unsearchable
    | some location =>
      if files.isFile location then .ok [(root, location)]
      else if !files.isDirectory location || hasFaultAbove (files.ruleTable working) location then
        .error .unsearchable
      else if (files.foundBelow working pattern? location).isEmpty then .error .noMatch
      else .ok (((files.foundBelow working pattern? location).mergeSort namesPrecede).map
        fun names => (join root ("/".intercalate names), location ++ names))

theorem schemaFiles_eq (files : Files) (working : Location) (root pattern : String) :
    files.schemaFiles working root pattern = patternRule pattern >>= files.search working root := by
  unfold schemaFiles patternRule
  cases IgnoreRule.readLine false pattern.toList with
  | malformed => rfl
  | rule _ | nothing =>
    simp only [ok_bind, search]
    split
    · rfl
    cases files.locate? working root with
    | none => rfl
    | some location =>
      dsimp only
      cases files.isFile location
      case true => rfl
      cases files.isDirectory location
      case false => rfl
      cases hasFaultAbove (files.ruleTable working) location
      case true => rfl
      unfold foundBelow
      simp only [Bool.not_true, Bool.false_eq_true, if_false, Bool.or_false]
      split <;> rfl

/-- Whether a file is found is said by the rules of single directories. -/
theorem isFound_congr {root : Location} {pattern? : Option IgnoreRule} {table table' : RuleTable}
    (h : table.rulesOf = table'.rulesOf) :
    SchemaSearch.isFound ⟨root, pattern?, table⟩ = SchemaSearch.isFound ⟨root, pattern?, table'⟩ := by
  have hleftOut : SchemaSearch.isLeftOut ⟨root, pattern?, table⟩ =
      SchemaSearch.isLeftOut ⟨root, pattern?, table'⟩ := by
    funext names forDirectory
    rw [SchemaSearch.isLeftOut, SchemaSearch.isLeftOut, RuleTable.isIgnored_congr h]
    rfl
  funext names
  rw [SchemaSearch.isFound, SchemaSearch.isFound, hleftOut]

/-- The same files are found in listings of the same entries, in another order. -/
theorem ListsSame.foundBelow_perm (hsame : files.ListsSame other) (hfiles : files.IsListing)
    (hother : other.IsListing) (pattern? : Option IgnoreRule) :
    (files.foundBelow working pattern? directory).Perm
      (other.foundBelow working pattern? directory) := by
  have hrules : (files.ruleTable working).rulesOf = (other.ruleTable working).rulesOf :=
    hsame.rulesOf_ruleTable (hsame.agrees hfiles hother)
  rw [foundBelow, foundBelow, isFound_congr hrules]
  exact ((hsame.perm hfiles hother).filterMap _).filter _

/-- A search has the same answer for listings of the same entries. -/
theorem ListsSame.schemaFiles_eq (hsame : files.ListsSame other) (hfiles : files.IsListing)
    (hother : other.IsListing) (working : Location) (root pattern : String) :
    files.schemaFiles working root pattern = other.schemaFiles working root pattern := by
  have hagrees := hsame.agrees hfiles hother
  have hrules : (files.ruleTable working).rulesOf = (other.ruleTable working).rulesOf :=
    hsame.rulesOf_ruleTable hagrees
  have hfault : hasFaultAbove (files.ruleTable working) = hasFaultAbove (other.ruleTable working) := by
    funext directory
    rw [hasFaultAbove, hasFaultAbove, hrules]
  rw [Files.schemaFiles_eq, Files.schemaFiles_eq]
  refine congrArg (patternRule pattern >>= ·) (funext fun pattern? => ?_)
  rw [search, search, hagrees.locate?, hagrees.isFile, hagrees.isDirectory, hfault]
  cases other.locate? working root with
  | none => rfl
  | some location =>
    have hperm : (files.foundBelow working pattern? location).Perm
        (other.foundBelow working pattern? location) :=
      hsame.foundBelow_perm hfiles hother pattern?
    dsimp only
    rw [mergeSort_eq_of_perm hperm, hperm.isEmpty_eq]

/-- The paths of the schema files that are found are strictly increasing, name by name. -/
theorem IsListing.pairwise_schemaFiles (h : files.IsListing) {root pattern : String}
    {found : List (String × Location)} (hfound : files.schemaFiles working root pattern = .ok found) :
    (found.map fun file => components file.1).Pairwise PathBefore := by
  rw [Files.schemaFiles_eq] at hfound
  obtain ⟨pattern?, -, hfound⟩ := bind_eq_ok_iff.1 hfound
  unfold search at hfound
  split at hfound
  · cases hfound
  split at hfound
  · cases hfound
  · next location hlocation =>
    split at hfound
    · cases hfound
      exact List.pairwise_singleton _ _
    split at hfound
    · cases hfound
    split at hfound
    · cases hfound
    · cases hfound
      have hlisted : ∀ names ∈ (files.foundBelow working pattern? location).mergeSort namesPrecede,
          names ≠ [] ∧ ∀ name ∈ names, IsName name := fun names hnames =>
        h.isName (List.mem_of_mem_filter (List.mem_mergeSort.1 hnames))
      have hsorted := pairwise_mergeSort ((h.nodup_namesOfFilesBelow location).filter
        (SchemaSearch.isFound ⟨location, pattern?, files.ruleTable working⟩))
      rw [List.map_map, List.pairwise_map]
      refine hsorted.imp_of_mem fun {names names'} hnames hnames' hbefore => ?_
      have hbelow := fun names hnames =>
        components_join root (hlisted names hnames).1 (hlisted names hnames).2
      simp only [Function.comp_apply, hbelow names hnames, hbelow names' hnames']
      exact List.Lex.append_left TextBefore hbefore (components root)

/-- No schema file is found twice. -/
theorem IsListing.nodup_schemaFiles (h : files.IsListing) {root pattern : String}
    {found : List (String × Location)} (hfound : files.schemaFiles working root pattern = .ok found) :
    (found.map (·.1)).Nodup := by
  rw [List.Nodup, List.pairwise_map]
  refine (List.pairwise_map.1 (h.pairwise_schemaFiles hfound)).imp fun hbefore heq => ?_
  exact PathBefore.irrefl _ (heq ▸ hbefore)

end Files

end OperationAtlas
