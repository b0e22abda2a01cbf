import Mathlib.Data.List.Induction
import OperationAtlas.CommandLine
import OperationAtlas.Proofs.Chain
import OperationAtlas.Proofs.Files

/-!
# What a run leaves behind

A run that is asked for a page delivers it, leaves nothing behind, or breaks off while it writes.
`Outcome.IsSilent` says that nothing is printed and every file stays as it is, `Outcome.Delivers`
that the page is printed with a line feed, or is all that the file of a path holds while every other
file stays as it is. `Outcome.BreaksOff` says the same of the first bytes of the page: its file is
opened, and so emptied, before the page is written, and what is written or printed stays.

`CommandLine.run_delivers_or_breaks_off` goes through the ways in which a run may end. If something
fails before the place of the page is opened, the outcome is silent; so it is without a settings
file, or if the text of the settings does not enable a page (`Config.enables`). Else the page is
delivered exactly if the project has one and its place can be opened and takes all of it.
-/

namespace OperationAtlas

/-! ## Settings -/

namespace Config

/-- Whether a text of settings enables a page: the last that it says of the key `enabled` is
true. -/
def enables (text : String) : Bool :=
  match Toml.parse text with
  | .error _ => false
  | .ok entries =>
    match entries.reverse.find? (·.key == "enabled") with
    | some entry => (entry.value matches .boolean true)
    | none => false

/-- Only the key `enabled` enables a page. -/
theorem enabled_of_set {config config' : Config} {entry : TomlEntry}
    (h : config.set entry = .ok config') :
    config'.enabled =
      if entry.key = "enabled" then entry.value matches .boolean true else config.enabled := by
  unfold set at h
  dsimp only at h
  split at h
  case h_1 hkey =>
    obtain ⟨value, hflag, h⟩ := bind_eq_ok_iff.1 h
    cases h
    rw [if_pos hkey]
    unfold flag at hflag
    split at hflag
    · next hvalue =>
      cases hflag
      rw [hvalue]
      cases value <;> rfl
    · cases hflag
  case h_14 => cases h
  all_goals
    next hkey =>
      obtain ⟨_, -, h⟩ := bind_eq_ok_iff.1 h
      cases h
      simp [hkey]

/-- Of several entries the last one with the key decides. -/
theorem enabled_of_foldlM {config config' : Config} {entries : List TomlEntry}
    (h : entries.foldlM set config = .ok config') :
    config'.enabled =
      match entries.reverse.find? (·.key == "enabled") with
      | some entry => (entry.value matches .boolean true)
      | none => config.enabled := by
  induction entries using List.reverseRecOn generalizing config' with
  | nil => cases h; rfl
  | append_singleton entries last ih =>
    rw [List.foldlM_append] at h
    obtain ⟨before, hbefore, h⟩ := bind_eq_ok_iff.1 h
    obtain ⟨_, hset, h⟩ := bind_eq_ok_iff.1 h
    cases h
    rw [enabled_of_set hset, ih hbefore, List.reverse_concat, List.find?_cons]
    by_cases hkey : last.key = "enabled"
    · simp [hkey]
    · rw [if_neg hkey, beq_false_of_ne hkey]

/-- Settings enable a page exactly if their text does. -/
theorem enabled_eq_enables {text : String} {config : Config} (h : parse text = .ok config) :
    config.enabled = enables text := by
  unfold parse at h
  cases hentries : Toml.parse text with
  | error position => simp [hentries] at h
  | ok entries =>
    rw [hentries] at h
    rw [enabled_of_foldlM h, enables, hentries]

end Config

/-! ## Pages and their places -/

/-- Nothing is printed on the standard output, and the files stay as they are. -/
def Outcome.IsSilent (outcome : Outcome) (files : Files) : Prop :=
  outcome.printed = .empty ∧ outcome.filesAfter files = files

/-- The bytes are all that a run leaves behind: they are printed, or they are what the file that a
path leads to holds. -/
inductive Outcome.Puts (outcome : Outcome) (files : Files) (working : Location)
    (content : ByteArray) : Option String → Prop
  | printed (hprinted : outcome.printed = content) (hfiles : outcome.filesAfter files = files) :
      Puts outcome files working content none
  | written {path : String} {location : Location}
      (hpath : files.locate? working path = some location) (hprinted : outcome.printed = .empty)
      (hfiles : files.Replaced location content (outcome.filesAfter files)) :
      Puts outcome files working content (some path)

/-- The bytes of a page. On the standard output a line feed stands behind it. -/
def pageBytes (page : String) : Option String → ByteArray
  | none => (page ++ "\n").toUTF8
  | some _ => page.toUTF8

/-- A page is delivered. -/
def Outcome.Delivers (outcome : Outcome) (files : Files) (working : Location) (page : String)
    (output : Option String) : Prop :=
  outcome.Puts files working (pageBytes page output) output

/-- The limit of the place of a page. -/
def Limits.on (limits : Limits) : Option String → Limit
  | none => limits.output
  | some _ => limits.file

/-- The place of a page takes all of it. -/
def Limits.Fit (limits : Limits) (page : String) (output : Option String) : Prop :=
  ∀ size, limits.on output = some size → (pageBytes page output).size ≤ size

/-- A page is cut off: its place takes so many bytes of it, which are not all. -/
def Outcome.BreaksOff (outcome : Outcome) (files : Files) (working : Location) (limits : Limits)
    (page : String) (output : Option String) : Prop :=
  ∃ size, limits.on output = some size ∧ size < (pageBytes page output).size ∧
    outcome.Puts files working ((pageBytes page output).extract 0 size) output

/-- There is a place for a page: no path is given for it, or the path leads into a directory, to a
location at which there is no directory itself, and the file there can be opened. -/
def Files.HasPlace (files : Files) (working : Location) (limits : Limits) : Option String → Prop
  | none => True
  | some path => limits.opens = true ∧
    ∃ location, files.locate? working path = some location ∧ files.isDirectory location = false

theorem Outcome.failed_isSilent (error : ProjectError) (files : Files) :
    (failed error).exitCode ≠ 0 ∧ (failed error).IsSilent files :=
  ⟨Nat.one_ne_zero, rfl, rfl⟩

namespace Limit

variable {limit : Limit} {content : ByteArray}

theorem admits_iff :
    limit.admits content = true ↔ ∀ size, limit = some size → content.size ≤ size := by
  cases limit <;> simp [admits]

theorem cut_of_admits (h : limit.admits content = true) : limit.cut content = content := by
  cases limit with
  | none => rfl
  | some size =>
    have hsize : content.data.size ≤ size := by simpa using admits_iff.1 h size rfl
    rw [cut, ByteArray.ext_iff, ByteArray.data_extract, Array.extract_eq_self_of_le hsize]

/-- Not all of the bytes can be written if there is a number below theirs. -/
theorem exists_of_not_admits (h : ¬ limit.admits content = true) :
    ∃ size, limit = some size ∧ size < content.size ∧
      limit.cut content = content.extract 0 size := by
  obtain ⟨size, rfl, hless⟩ : ∃ size, limit = some size ∧ size < content.size := by
    simpa [admits_iff] using h
  exact ⟨size, rfl, hless, rfl⟩

end Limit

namespace CommandLine

variable {files : Files} {working : Location} {arguments : Arguments} {limits : Limits}
  {output : Option String} (page : String)

theorem writable?_eq_some_iff {path : String} {location : Location} :
    writable? files working path = some location ↔
      files.locate? working path = some location ∧ files.isDirectory location = false := by
  simp [writable?, Option.filter_eq_some_iff]

/-- Without a place for the page nothing is opened. -/
theorem deliver_of_not_hasPlace (h : ¬ files.HasPlace working limits output) :
    (deliver files working limits page output).exitCode ≠ 0 ∧
      (deliver files working limits page output).IsSilent files := by
  cases output with
  | none => exact absurd trivial h
  | some path =>
    have hfailed : deliver files working limits page (some path) = .failed (.unwritable path) := by
      rw [deliver, writePage]
      cases hlocation : writable? files working path with
      | none => rfl
      | some location =>
        have hcloses : limits.opens ≠ true := fun hopens =>
          h ⟨hopens, location, writable?_eq_some_iff.1 hlocation⟩
        simp [hcloses]
    rw [hfailed]
    exact Outcome.failed_isSilent _ files

/-- The place of a page takes of it what its limit admits, and a run fails if that is not all. -/
theorem deliver_of_hasPlace (h : files.HasPlace working limits output) :
    (deliver files working limits page output).Puts files working
        ((limits.on output).cut (pageBytes page output)) output ∧
      ((deliver files working limits page output).exitCode = 0 ↔
        (limits.on output).admits (pageBytes page output) = true) := by
  cases output with
  | none =>
    rw [deliver, printPage, Limits.on, pageBytes]
    split
    · next hadmits => exact ⟨.printed rfl rfl, iff_of_true rfl hadmits⟩
    · next hadmits => exact ⟨.printed rfl rfl, iff_of_false (Nat.succ_ne_zero 100) hadmits⟩
  | some path =>
    obtain ⟨hopens, location, hpath, hlocation⟩ := h
    have hreplaced := Files.replaced_write hpath hlocation
    rw [deliver, writePage, writable?_eq_some_iff.2 ⟨hpath, hlocation⟩, Limits.on, pageBytes]
    simp only [hopens, Bool.not_true, Bool.false_eq_true, if_false]
    split
    · next hadmits => exact ⟨.written hpath rfl (hreplaced _), iff_of_true rfl hadmits⟩
    · next hadmits => exact ⟨.written hpath rfl (hreplaced _), iff_of_false Nat.one_ne_zero hadmits⟩

theorem delivers_of_fit (h : files.HasPlace working limits output)
    (hfit : limits.Fit page output) :
    (deliver files working limits page output).exitCode = 0 ∧
      (deliver files working limits page output).Delivers files working page output := by
  obtain ⟨hputs, hexit⟩ := deliver_of_hasPlace page h
  have hadmits := Limit.admits_iff.2 hfit
  rw [Limit.cut_of_admits hadmits] at hputs
  exact ⟨hexit.2 hadmits, hputs⟩

theorem breaksOff_of_not_fit (h : files.HasPlace working limits output)
    (hfit : ¬ limits.Fit page output) :
    (deliver files working limits page output).exitCode ≠ 0 ∧
      (deliver files working limits page output).BreaksOff files working limits page output := by
  obtain ⟨hputs, hexit⟩ := deliver_of_hasPlace page h
  have hadmits : ¬ (limits.on output).admits (pageBytes page output) = true :=
    fun hadmits => hfit (Limit.admits_iff.1 hadmits)
  obtain ⟨size, hsize, hless, hcut⟩ := Limit.exists_of_not_admits hadmits
  exact ⟨fun hzero => hadmits (hexit.1 hzero), size, hsize, hless, hcut ▸ hputs⟩

/-! ## The settings of a run -/

/-- The path of the settings. -/
def configPath (arguments : Arguments) : String := arguments.config.getD "graphql-doc.toml"

/-- There is a file of settings. -/
def HasConfig (files : Files) (working : Location) (arguments : Arguments) : Prop :=
  ∃ location, files.locate? working (configPath arguments) = some location ∧
    files.isFile location = true

/-- There is a file of settings, and it has the text. -/
def HasConfigText (files : Files) (working : Location) (arguments : Arguments) (text : String) :
    Prop :=
  ∃ location, files.locate? working (configPath arguments) = some location ∧
    files.text? location = some text

/-- There is a file of settings with a text that can be read as settings. -/
def Configures (files : Files) (working : Location) (arguments : Arguments) (text : String)
    (config : Config) : Prop :=
  HasConfigText files working arguments text ∧ Config.parse text = .ok config

/-- The project that arguments mean. -/
def projectOf (files : Files) (working : Location) (arguments : Arguments) (config : Config) :
    Project where
  files := files
  working := working
  root := arguments.root.getD "."
  config := config

theorem configOf_of_hasConfig (h : HasConfig files working arguments) :
    configOf files working arguments = Project.loadConfig files working (configPath arguments) := by
  obtain ⟨location, hpath, hfile⟩ := h
  rw [configPath] at hpath
  simp [configOf, configPath, hpath, hfile]

/-- Without a file the settings are the defaults. -/
theorem configOf_of_not_hasConfig (h : ¬ HasConfig files working arguments) :
    configOf files working arguments = .ok {} := by
  unfold HasConfig configPath at h
  unfold configOf
  dsimp only
  cases hpath : files.locate? working (arguments.config.getD "graphql-doc.toml") with
  | none => rfl
  | some location =>
    rw [Option.map_some, Option.getD_some, if_neg fun hfile => h ⟨location, hpath, hfile⟩]

/-- With a file the settings are those that its text can be read as. -/
theorem configOf_eq_ok_iff (h : HasConfig files working arguments) {config : Config} :
    configOf files working arguments = .ok config ↔
      ∃ text, Configures files working arguments text config := by
  rw [configOf_of_hasConfig h]
  obtain ⟨location, hpath, hfile⟩ := h
  have hread : ∀ text, files.read working (configPath arguments) = .ok text ↔
      HasConfigText files working arguments text := by
    intro text
    rw [Files.read, hpath]
    cases htext : files.text? location <;> simp [hfile, htext, HasConfigText, hpath]
  rw [Project.loadConfig, bind_eq_ok_iff]
  refine exists_congr fun text => and_congr ?_ mapError_eq_ok_iff
  exact mapError_eq_ok_iff.trans (hread text)

theorem Configures.hasConfig {text : String} {config : Config}
    (h : Configures files working arguments text config) : HasConfig files working arguments := by
  obtain ⟨⟨location, hpath, htext⟩, -⟩ := h
  obtain ⟨content, hcontent, -⟩ := Option.bind_eq_some_iff.1 htext
  exact ⟨location, hpath, Option.isSome_of_eq_some hcontent⟩

theorem Configures.configOf {text : String} {config : Config}
    (h : Configures files working arguments text config) :
    configOf files working arguments = .ok config :=
  (configOf_eq_ok_iff h.hasConfig).2 ⟨text, h⟩

/-! ## Runs -/

variable {words : List String} {text : String} {config : Config} (limits)

/-- A run without a page fails and is silent. -/
theorem run_of_error (h : parse words = .generate arguments) {error : ProjectError}
    (herror : pageFor files working arguments = .error error) :
    (run files working words limits).exitCode ≠ 0 ∧
      (run files working words limits).IsSilent files := by
  have hrun : run files working words limits = .failed error := by simp only [run, h, herror]
  rw [hrun]
  exact Outcome.failed_isSilent error files

/-- Settings that do not enable a page end a run at once. -/
theorem run_of_disabled (h : parse words = .generate arguments)
    (hconfig : configOf files working arguments = .ok config) (henabled : config.enabled = false) :
    (run files working words limits).exitCode = 0 ∧
      (run files working words limits).IsSilent files := by
  have hpage : pageFor files working arguments = .ok none := by
    rw [pageFor, hconfig, ok_bind, henabled]
    rfl
  have hrun : run files working words limits = { exitCode := 0 } := by simp only [run, h, hpage]
  rw [hrun]
  exact ⟨rfl, rfl, rfl⟩

theorem run_of_not_hasConfig (h : parse words = .generate arguments)
    (hfile : ¬ HasConfig files working arguments) :
    (run files working words limits).exitCode = 0 ∧
      (run files working words limits).IsSilent files :=
  run_of_disabled limits h (configOf_of_not_hasConfig hfile) rfl

theorem run_of_not_enables (h : parse words = .generate arguments)
    (htext : Configures files working arguments text config)
    (henables : Config.enables text = false) :
    (run files working words limits).exitCode = 0 ∧
      (run files working words limits).IsSilent files :=
  run_of_disabled limits h htext.configOf ((Config.enabled_eq_enables htext.2).trans henables)

/-- A file that cannot be read as settings is an error before there is a page. -/
theorem run_of_not_configures (h : parse words = .generate arguments)
    (hfile : HasConfig files working arguments)
    (hnone : ¬ ∃ text config, Configures files working arguments text config) :
    (run files working words limits).exitCode ≠ 0 ∧
      (run files working words limits).IsSilent files := by
  cases hconfig : configOf files working arguments with
  | ok config =>
    obtain ⟨text, htext⟩ := (configOf_eq_ok_iff hfile).1 hconfig
    exact absurd ⟨text, config, htext⟩ hnone
  | error error =>
    have herror : pageFor files working arguments = .error error := by
      rw [pageFor, hconfig, error_bind]
    exact run_of_error limits h herror

/-- How a run may end whose settings enable a page: silently, if there is no page or no place for
it; else with the page in its place or, if it does not fit there, with a part of it. -/
theorem run_of_enables (h : parse words = .generate arguments)
    (htext : Configures files working arguments text config)
    (henables : Config.enables text = true) :
    ((run files working words limits).exitCode ≠ 0 ∧
      (run files working words limits).IsSilent files ∧
      ∀ page, (projectOf files working arguments config).page = .ok page →
        ¬ files.HasPlace working limits arguments.output) ∨
    ∃ page, (projectOf files working arguments config).page = .ok page ∧
      files.HasPlace working limits arguments.output ∧
      ((limits.Fit page arguments.output ∧ (run files working words limits).exitCode = 0 ∧
          (run files working words limits).Delivers files working page arguments.output) ∨
        (¬ limits.Fit page arguments.output ∧ (run files working words limits).exitCode ≠ 0 ∧
          (run files working words limits).BreaksOff files working limits page
            arguments.output)) := by
  have hpageFor : pageFor files working arguments =
      (projectOf files working arguments config).page >>= fun page => .ok (some page) := by
    rw [pageFor, htext.configOf, ok_bind, Config.enabled_eq_enables htext.2, henables]
    rfl
  cases hpage : (projectOf files working arguments config).page with
  | error error =>
    rw [hpage, error_bind] at hpageFor
    obtain ⟨hfails, hsilent⟩ := run_of_error limits h hpageFor
    exact .inl ⟨hfails, hsilent, nofun⟩
  | ok page =>
    rw [hpage, ok_bind] at hpageFor
    have hrun : run files working words limits =
        deliver files working limits page arguments.output := by simp only [run, h, hpageFor]
    rw [hrun]
    by_cases hplace : files.HasPlace working limits arguments.output
    · refine .inr ⟨page, rfl, hplace, ?_⟩
      by_cases hfit : limits.Fit page arguments.output
      · exact .inl ⟨hfit, delivers_of_fit page hplace hfit⟩
      · exact .inr ⟨hfit, breaksOff_of_not_fit page hplace hfit⟩
    · obtain ⟨hfails, hsilent⟩ := deliver_of_not_hasPlace page hplace
      exact .inl ⟨hfails, hsilent, fun _ _ => hplace⟩

/-- A run that is asked for a page and fails is silent, whatever fails, unless the settings enable a
page, the project has one, its place was opened, and that took only a part of it. Without a file of
settings, or with settings whose text does not enable a page, a run succeeds and is silent, whatever
else is missing or wrong. With settings whose text enables a page it succeeds exactly if the project
has a page and the place of the page can be opened and takes all of it; then the page is delivered.
With a file that cannot be read as settings it fails. -/
theorem run_delivers_or_breaks_off (h : parse words = .generate arguments) :
    ((run files working words limits).exitCode ≠ 0 →
      (run files working words limits).IsSilent files ∨
        ∃ text config page, Configures files working arguments text config ∧
          Config.enables text = true ∧
          (projectOf files working arguments config).page = .ok page ∧
          files.HasPlace working limits arguments.output ∧
          (run files working words limits).BreaksOff files working limits page
            arguments.output) ∧
    (¬ HasConfig files working arguments ∨
        (∃ text config, Configures files working arguments text config ∧
          Config.enables text = false) →
      (run files working words limits).exitCode = 0 ∧
        (run files working words limits).IsSilent files) ∧
    (∀ text config, Configures files working arguments text config →
      Config.enables text = true →
      ((run files working words limits).exitCode = 0 ↔
        ∃ page, (projectOf files working arguments config).page = .ok page ∧
          files.HasPlace working limits arguments.output ∧ limits.Fit page arguments.output) ∧
      ((run files working words limits).exitCode = 0 →
        ∃ page, (projectOf files working arguments config).page = .ok page ∧
          (run files working words limits).Delivers files working page arguments.output)) ∧
    (HasConfig files working arguments →
      (¬ ∃ text config, Configures files working arguments text config) →
      (run files working words limits).exitCode ≠ 0) := by
  refine ⟨fun hfails => ?_, ?_, fun text config htext henables => ?_,
    fun hfile hnone => (run_of_not_configures limits h hfile hnone).1⟩
  · by_cases hfile : HasConfig files working arguments
    · by_cases hreads : ∃ text config, Configures files working arguments text config
      · obtain ⟨text, config, htext⟩ := hreads
        cases henables : Config.enables text with
        | false => exact absurd (run_of_not_enables limits h htext henables).1 hfails
        | true =>
          obtain ⟨-, hsilent, -⟩ | ⟨page, hpage, hplace, ⟨-, hzero, -⟩ | ⟨-, -, hbreaks⟩⟩ :=
            run_of_enables limits h htext henables
          · exact .inl hsilent
          · exact absurd hzero hfails
          · exact .inr ⟨text, config, page, htext, henables, hpage, hplace, hbreaks⟩
      · exact .inl (run_of_not_configures limits h hfile hreads).2
    · exact absurd (run_of_not_hasConfig limits h hfile).1 hfails
  · rintro (hfile | ⟨text, config, htext, henables⟩)
    · exact run_of_not_hasConfig limits h hfile
    · exact run_of_not_enables limits h htext henables
  · obtain ⟨hfails, -, hnoplace⟩ | ⟨page, hpage, hplace, hend⟩ :=
      run_of_enables limits h htext henables
    · exact ⟨⟨fun hzero => absurd hzero hfails,
        fun ⟨page, hpage, hplace, _⟩ => absurd hplace (hnoplace page hpage)⟩,
        fun hzero => absurd hzero hfails⟩
    · obtain ⟨hfit, hzero, hdelivers⟩ | ⟨hfit, hfails, -⟩ := hend
      · exact ⟨iff_of_true hzero ⟨page, hpage, hplace, hfit⟩, fun _ => ⟨page, hpage, hdelivers⟩⟩
      · refine ⟨iff_of_false hfails ?_, fun hzero => absurd hzero hfails⟩
        rintro ⟨other, hother, -, hotherFit⟩
        rw [hpage] at hother
        cases hother
        exact hfit hotherFit

/-- A project whose host model is to be overwritten by its page. -/
def versionFiles : Files where
  entries := [
    (["work", "graphql-doc.toml"], some "enabled = true".toUTF8),
    (["work", "a.graphqls"], some "type Query \x7b version: Int \x7d".toUTF8),
    (["work", "graphql-doc.json"], some "\x7b\"types\":[],\"groups\":[]\x7d".toUTF8)]

/-- The arguments that name the host model as the file for the page. -/
def versionArguments : Arguments where
  output := some "graphql-doc.json"

/-- Settings that do not enable a page, beside a schema that cannot be read and no host model. -/
def idleFiles : Files where
  entries := [
    (["work", "graphql-doc.toml"], some "enabled = false".toUTF8),
    (["work", "a.graphqls"], some "type".toUTF8)]

/-- Settings that do not enable a page, with a key that no settings have. -/
def refusedFiles : Files where
  entries := [(["work", "graphql-doc.toml"], some "enabled = false\nbogus = 1\n".toUTF8)]

/-- The page replaces the host model that it was made from, and nothing is printed. The idle project
is left as it is. -/
theorem version_page_replaces_its_model :
    (parse ["-o", "graphql-doc.json"] = .generate versionArguments ∧
      Configures versionFiles ["work"] versionArguments "enabled = true" { enabled := true } ∧
      Config.enables "enabled = true" = true ∧
      (run versionFiles ["work"] ["-o", "graphql-doc.json"]).exitCode = 0 ∧
      ∃ page, (projectOf versionFiles ["work"] versionArguments { enabled := true }).page =
          .ok page ∧
        (run versionFiles ["work"] ["-o", "graphql-doc.json"]).Delivers versionFiles ["work"] page
          (some "graphql-doc.json")) ∧
    (parse [] = .generate {} ∧ Configures idleFiles ["work"] {} "enabled = false" {} ∧
      Config.enables "enabled = false" = false ∧
      (run idleFiles ["work"] []).exitCode = 0 ∧
      (run idleFiles ["work"] []).IsSilent idleFiles) := by
  have hparse : parse ["-o", "graphql-doc.json"] = .generate versionArguments := by decide
  have henabled : Config.enables "enabled = true" = true := by decide +kernel
  have hversion :
      Configures versionFiles ["work"] versionArguments "enabled = true" { enabled := true } :=
    ⟨⟨["work", "graphql-doc.toml"], by decide +kernel, by decide +kernel⟩, by decide +kernel⟩
  have hzero : (run versionFiles ["work"] ["-o", "graphql-doc.json"]).exitCode = 0 := by
    decide +kernel
  have hdisabled : Config.enables "enabled = false" = false := by decide +kernel
  have hidle : Configures idleFiles ["work"] {} "enabled = false" {} :=
    ⟨⟨["work", "graphql-doc.toml"], by decide +kernel, by decide +kernel⟩, by decide +kernel⟩
  obtain ⟨-, -, hdelivers, -⟩ :=
    @run_delivers_or_breaks_off versionFiles ["work"] versionArguments {} _ hparse
  obtain ⟨-, hstays, -⟩ := @run_delivers_or_breaks_off idleFiles ["work"] {} {} [] rfl
  exact ⟨⟨hparse, hversion, henabled, hzero, (hdelivers _ _ hversion henabled).2 hzero⟩,
    rfl, hidle, hdisabled, hstays (.inr ⟨_, _, hidle, hdisabled⟩)⟩

/-- A file that takes one byte only holds that byte instead of what it held before, and the run
fails. Settings that do not enable a page are refused like all others. -/
theorem page_cut_off_and_settings_refused :
    (versionFiles.text? ["work", "graphql-doc.json"] =
        some "\x7b\"types\":[],\"groups\":[]\x7d" ∧
      (run versionFiles ["work"] ["-o", "graphql-doc.json"] { file := some 1 }).exitCode = 1 ∧
      ((run versionFiles ["work"] ["-o", "graphql-doc.json"] { file := some 1 }).filesAfter
        versionFiles).text? ["work", "graphql-doc.json"] = some "\x7b") ∧
    (HasConfigText refusedFiles ["work"] {} "enabled = false\nbogus = 1\n" ∧
      Config.enables "enabled = false\nbogus = 1\n" = false ∧
      (run refusedFiles ["work"] []).exitCode = 1) := by
  refine ⟨by decide +kernel, ⟨["work", "graphql-doc.toml"], ?_, ?_⟩, ?_⟩ <;> decide +kernel

end CommandLine

end OperationAtlas
