import OperationAtlas.Graphql.Request
import OperationAtlas.Proofs.Graphql.Lexing
import OperationAtlas.Proofs.Graphql.Values

/-!
# The grammar of request documents

`Selection.Derives`, `RequestDefinition.Derives` and `Document.Derives` are the grammar of request
documents over lexemes, with a bound on the levels of brackets. A text parses as a document exactly
if the grammar derives the text's lexemes for it (`Document.parse_eq_ok_iff`), so the position-free
grammar says all about what is read, and a proof about a composed or printed text only builds
derivations.

A selection ends where a lexeme follows that does not continue it (`continues`); a block of
selections and a definition end with their closing brace.
-/

namespace OperationAtlas.Graphql

open Reader

/-! ## First lexemes -/

theorem starts_append_eq_false {test : Lexeme → Bool} {ls ls' : List Lexeme}
    (h : starts test ls = false) (h' : starts test ls' = false) :
    starts test (ls ++ ls') = false := by
  cases ls with
  | nil => exact h'
  | cons l ls => exact h

theorem ArgumentsDerive.starts_eq_false {constant : Bool} {levels : Nat} {used : List Lexeme}
    {arguments : List (String × Value)} (h : ArgumentsDerive constant levels used arguments)
    {test : Lexeme → Bool} (htest : test (.punct '(') = false) : starts test used = false := by
  cases h with
  | none => rfl
  | some => exact htest

theorem directives_starts_eq_false {levels : Nat} {used : List Lexeme} {directives : List Directive}
    (h : Sequence (DirectiveDerives levels) used directives) {test : Lexeme → Bool}
    (htest : test (.punct '@') = false) : starts test used = false := by
  obtain ⟨parts, rfl, -, hparts⟩ := h
  cases parts with
  | nil => rfl
  | cons part parts =>
    obtain ⟨within, hused, -⟩ := hparts part List.mem_cons_self
    rw [List.flatMap_cons, hused]
    exact htest

/-! ## Selections -/

namespace Selection

/-- The lexemes of the name of a field, before which another name may stand. -/
def nameLexemes : Option String → String → List Lexeme
  | some responseName, name => [.name responseName, .punct ':', .name name]
  | none, name => [.name name]

/-- The lexemes of the type that an inline fragment is for. -/
def conditionLexemes : Option String → List Lexeme
  | some type => [.name "on", .name type]
  | none => []

/-- The lexemes of a block of selections. -/
def blockLexemes (parts : List (List Lexeme × Selection)) : List Lexeme :=
  .punct '\x7b' :: (parts.flatMap (·.1) ++ [.punct '\x7d'])

/-- Lexemes that write a selection with at most so many levels of brackets. -/
inductive Derives : Nat → List Lexeme → Selection → Prop
  | leaf {levels : Nat} {responseName : Option String} {name : String}
      {args dirs : List Lexeme} {arguments : List (String × Value)} {directives : List Directive}
      (harguments : ArgumentsDerive false levels args arguments)
      (hdirectives : Sequence (DirectiveDerives levels) dirs directives) :
      Derives levels (nameLexemes responseName name ++ (args ++ dirs))
        (.field responseName name arguments directives [])
  | nested {levels : Nat} {responseName : Option String} {name : String}
      {args dirs : List Lexeme} {arguments : List (String × Value)} {directives : List Directive}
      (harguments : ArgumentsDerive false (levels + 1) args arguments)
      (hdirectives : Sequence (DirectiveDerives (levels + 1)) dirs directives)
      (parts : List (List Lexeme × Selection)) (hne : parts ≠ [])
      (h : ∀ part ∈ parts, Derives levels part.1 part.2) :
      Derives (levels + 1) (nameLexemes responseName name ++ (args ++ (dirs ++ blockLexemes parts)))
        (.field responseName name arguments directives (parts.map (·.2)))
  | spread {levels : Nat} {fragment : String} {dirs : List Lexeme} {directives : List Directive}
      (hname : fragment ≠ "on") (hdirectives : Sequence (DirectiveDerives levels) dirs directives) :
      Derives levels (.spread :: .name fragment :: dirs) (.spread fragment directives)
  | inline {levels : Nat} {onType : Option String} {dirs : List Lexeme}
      {directives : List Directive}
      (hdirectives : Sequence (DirectiveDerives (levels + 1)) dirs directives)
      (parts : List (List Lexeme × Selection)) (hne : parts ≠ [])
      (h : ∀ part ∈ parts, Derives levels part.1 part.2) :
      Derives (levels + 1) (.spread :: (conditionLexemes onType ++ (dirs ++ blockLexemes parts)))
        (.inline onType directives (parts.map (·.2)))

/-- Lexemes that write selections in braces. -/
inductive BlockDerives : Nat → List Lexeme → List Selection → Prop
  | block {levels : Nat} (parts : List (List Lexeme × Selection)) (hne : parts ≠ [])
      (h : ∀ part ∈ parts, Derives levels part.1 part.2) :
      BlockDerives (levels + 1) (blockLexemes parts) (parts.map (·.2))

theorem takes_readNames :
    Takes readNames fun used names => used = nameLexemes names.1 names.2 := by
  intro ls names rest h
  obtain ⟨⟨first, ls₁⟩, hfirst, h⟩ := bind_eq_ok_iff.1 h
  rw [eq_cons_of_name hfirst]
  dsimp only at h
  split at h
  · obtain ⟨⟨second, ls₂⟩, hsecond, h⟩ := bind_eq_ok_iff.1 h
    cases h
    rw [eq_cons_of_name hsecond]
    exact ⟨[_, _, _], rfl, rfl⟩
  · cases h
    exact ⟨[_], rfl, rfl⟩

/-- A field is taken as the grammar says if blocks are. -/
theorem takes_readField {levels : Nat} (hblock : Takes (readBlock levels) (BlockDerives levels)) :
    Takes (readField levels (readBlock levels)) (Derives levels) := by
  intro ls selection rest h
  obtain ⟨⟨⟨responseName, name⟩, ls₁⟩, hnames, h⟩ := bind_eq_ok_iff.1 h
  obtain ⟨⟨arguments, ls₂⟩, harguments, h⟩ := bind_eq_ok_iff.1 h
  obtain ⟨⟨directives, ls₃⟩, hdirectives, h⟩ := bind_eq_ok_iff.1 h
  obtain ⟨⟨selections?, ls₄⟩, hselections, h⟩ := bind_eq_ok_iff.1 h
  cases h
  obtain ⟨names, rfl, rfl⟩ := takes_readNames _ _ _ hnames
  obtain ⟨args, rfl, hargs⟩ := takes_readArguments _ _ _ _ _ harguments
  obtain ⟨dirs, rfl, hdirs⟩ := takes_readDirectives _ _ _ _ hdirectives
  obtain ⟨block, rfl, hblock⟩ := takes_optional hblock _ _ _ hselections
  cases selections? with
  | none =>
    subst hblock
    exact ⟨nameLexemes responseName name ++ (args ++ dirs), by simp, .leaf hargs hdirs⟩
  | some selections =>
    cases hblock with
    | block parts hne hparts =>
      exact ⟨nameLexemes responseName name ++ (args ++ (dirs ++ blockLexemes parts)), by simp,
        .nested hargs hdirs parts hne hparts⟩

/-- The directives and the block of an inline fragment are taken as the grammar says. -/
theorem exists_inline {levels : Nat} (hblock : Takes (readBlock levels) (BlockDerives levels))
    (onType : Option String) {ls ls₁ rest : List Lexeme} {directives : List Directive}
    {selections : List Selection} (hdirectives : readDirectives levels ls = .ok (directives, ls₁))
    (hselections : readBlock levels ls₁ = .ok (selections, rest)) :
    ∃ used, ls = used ++ rest ∧ Derives levels (.spread :: (conditionLexemes onType ++ used))
      (.inline onType directives selections) := by
  obtain ⟨dirs, rfl, hdirs⟩ := takes_readDirectives _ _ _ _ hdirectives
  obtain ⟨used, rfl, hused⟩ := hblock _ _ _ hselections
  cases hused with
  | block parts hne hparts =>
    exact ⟨dirs ++ blockLexemes parts, by rw [List.append_assoc], .inline hdirs parts hne hparts⟩

theorem takes_readSpread {levels : Nat} (hblock : Takes (readBlock levels) (BlockDerives levels)) :
    Takes (readSpread levels (readBlock levels)) fun used selection =>
      Derives levels (.spread :: used) selection := by
  intro ls selection rest h
  unfold readSpread at h
  split at h
  · obtain ⟨⟨onType, ls₁⟩, hname, h⟩ := bind_eq_ok_iff.1 h
    obtain ⟨⟨directives, ls₂⟩, hdirectives, h⟩ := bind_eq_ok_iff.1 h
    obtain ⟨⟨selections, ls₃⟩, hselections, h⟩ := bind_eq_ok_iff.1 h
    cases h
    obtain ⟨used, rfl, hused⟩ := exists_inline hblock (some onType) hdirectives hselections
    rw [eq_cons_of_name hname]
    exact ⟨conditionLexemes (some onType) ++ used, rfl, hused⟩
  · next fragment ls₀ hfragment =>
    obtain ⟨⟨directives, ls₁⟩, hdirectives, h⟩ := bind_eq_ok_iff.1 h
    cases h
    obtain ⟨dirs, rfl, hdirs⟩ := takes_readDirectives _ _ _ _ hdirectives
    exact ⟨.name fragment :: dirs, rfl, .spread hfragment hdirs⟩
  · obtain ⟨⟨directives, ls₁⟩, hdirectives, h⟩ := bind_eq_ok_iff.1 h
    obtain ⟨⟨selections, ls₂⟩, hselections, h⟩ := bind_eq_ok_iff.1 h
    cases h
    exact exists_inline hblock none hdirectives hselections

theorem takes_readOne {levels : Nat} (hblock : Takes (readBlock levels) (BlockDerives levels)) :
    Takes (readOne levels (readBlock levels)) (Derives levels) := by
  intro ls selection rest h
  unfold readOne at h
  split at h
  · obtain ⟨used, rfl, hused⟩ := takes_readSpread hblock _ _ _ h
    exact ⟨.spread :: used, rfl, hused⟩
  · exact takes_readField hblock _ _ _ h

/-- The reader of blocks obeys the grammar. -/
theorem takes_readBlock : ∀ levels, Takes (readBlock levels) (BlockDerives levels)
  | levels, ls, selections, rest, h => by
      unfold readBlock at h
      split at h
      · next levels ls₀ =>
        obtain ⟨⟨inner, ls₁⟩, hinner, h⟩ := bind_eq_ok_iff.1 h
        obtain ⟨⟨⟨⟩, ls₂⟩, hclosing, h⟩ := bind_eq_ok_iff.1 h
        cases h
        obtain ⟨used, rfl, hne, parts, rfl, rfl, hparts⟩ :=
          takes_many1 (takes_readOne (takes_readBlock levels)) _ _ _ hinner
        rw [eq_cons_of_punct hclosing]
        exact ⟨_, by simp [blockLexemes], .block parts (by simpa using hne) hparts⟩
      · cases h

/-- Whether a selection goes on with a lexeme. -/
def continues (l : Lexeme) : Bool :=
  isPunct ':' l || isPunct '(' l || isPunct '@' l || isPunct '\x7b' l

theorem starts_of_not_continues {rest : List Lexeme} (h : starts continues rest = false) :
    starts (isPunct ':') rest = false ∧ starts (isPunct '(') rest = false ∧
      starts (isPunct '@') rest = false ∧ starts (isPunct '\x7b') rest = false := by
  cases rest with
  | nil => exact ⟨rfl, rfl, rfl, rfl⟩
  | cons l rest =>
    simp only [starts_cons, continues, Bool.or_eq_false_iff] at h ⊢
    exact ⟨h.1.1.1, h.1.1.2, h.1.2, h.2⟩

theorem Derives.starts {levels : Nat} {used : List Lexeme} {selection : Selection}
    (h : Derives levels used selection) : starts isStart used = true := by
  cases h with
  | @leaf _ responseName | @nested _ responseName => cases responseName <;> rfl
  | spread | inline => rfl

/-- The names of a field are read before anything but a colon. -/
theorem readNames_nameLexemes (responseName : Option String) (name : String) (rest : List Lexeme)
    (hrest : Reader.starts (isPunct ':') rest = false) :
    readNames (nameLexemes responseName name ++ rest) = .ok ((responseName, name), rest) := by
  cases responseName with
  | some responseName => rfl
  | none =>
    simp only [nameLexemes, List.singleton_append, readNames, name_cons, ok_bind]
    split
    · simp [starts_cons] at hrest
    · rfl

/-- A spread without a name is read from its directives on. -/
theorem readSpread_of_starts {levels : Nat} {block : Reader (List Selection)} {ls : List Lexeme}
    (h : Reader.starts isName ls = false) :
    readSpread levels block ls = (do
      let (directives, ls) ← readDirectives levels ls
      let (selections, ls) ← block ls
      .ok (.inline none directives selections, ls)) := by
  unfold readSpread
  split
  · cases h
  · cases h
  · rfl

/-- Selections in braces are read if the selections are. -/
theorem readBlock_of_parts {levels : Nat} {parts : List (List Lexeme × Selection)}
    (hne : parts ≠ [])
    (hstarts : ∀ part ∈ parts, Reader.starts isStart part.1 = true)
    (hread : ∀ part ∈ parts, ∀ rest, Reader.starts continues rest = false →
      readOne levels (readBlock levels) (part.1 ++ rest) = .ok (part.2, rest))
    (rest : List Lexeme) :
    readBlock (levels + 1) (blockLexemes parts ++ rest) = .ok (parts.map (·.2), rest) := by
  have hmany := many1_of_parts isStart (readOne levels (readBlock levels))
    (fun rest => Reader.starts continues rest = false) (.punct '\x7d' :: rest) (by
      intro l ls hl
      cases l <;> first | rfl | (simp [isStart, isName] at hl)) rfl rfl hne
    fun part hpart => ⟨hstarts part hpart, hread part hpart⟩
  simp only [blockLexemes, List.cons_append, List.append_assoc, List.nil_append, readBlock, hmany,
    ok_bind, punct_cons]

/-- A field is read as what its parts are read as, with the selections behind them if there are
some. -/
theorem readOne_field {levels : Nat} {block : Reader (List Selection)}
    {responseName : Option String}
    {name : String} {args dirs : List Lexeme} {arguments : List (String × Value)}
    {directives : List Directive} (harguments : ArgumentsDerive false levels args arguments)
    (hdirectives : Sequence (DirectiveDerives levels) dirs directives) {ls rest : List Lexeme}
    (hcolon : Reader.starts (isPunct ':') ls = false)
    (hopening : Reader.starts (isPunct '(') ls = false)
    (hmark : Reader.starts (isPunct '@') ls = false) {selections? : Option (List Selection)}
    (hselections : optional (isPunct '\x7b') block ls = .ok (selections?, rest)) :
    readOne levels block (nameLexemes responseName name ++ (args ++ (dirs ++ ls))) =
      .ok (.field responseName name arguments directives (selections?.getD []), rest) := by
  have hreadDirs := directives_read hdirectives ls hmark hopening
  have hreadArgs := harguments.read (dirs ++ ls)
    (starts_append_eq_false (directives_starts_eq_false hdirectives rfl) hopening)
  have hreadNames := readNames_nameLexemes responseName name (args ++ (dirs ++ ls))
    (starts_append_eq_false (harguments.starts_eq_false rfl)
      (starts_append_eq_false (directives_starts_eq_false hdirectives rfl) hcolon))
  have hfield : readField levels block (nameLexemes responseName name ++ (args ++ (dirs ++ ls))) =
      .ok (.field responseName name arguments directives (selections?.getD []), rest) := by
    simp only [readField, hreadNames, ok_bind, hreadArgs, hreadDirs, hselections]
  cases responseName <;> exact hfield

/-- A spread with a name that is not `on` is read as a spread of that fragment. -/
theorem readSpread_fragment {levels : Nat} {block : Reader (List Selection)} {fragment : String}
    (hname : fragment ≠ "on") {ls rest : List Lexeme} {directives : List Directive}
    (h : readDirectives levels ls = .ok (directives, rest)) :
    readSpread levels block (.name fragment :: ls) = .ok (.spread fragment directives, rest) := by
  unfold readSpread
  split
  · next heq => exact absurd (Lexeme.name.inj (List.cons.inj heq).1) hname
  · next heq =>
    cases heq
    rw [h]
    rfl
  · next hnone => exact absurd rfl (hnone fragment _)

/-- What the grammar derives is read before anything that does not continue it. -/
theorem Derives.read {levels : Nat} {used : List Lexeme} {selection : Selection}
    (h : Derives levels used selection) {rest : List Lexeme}
    (hrest : Reader.starts continues rest = false) :
    readOne levels (readBlock levels) (used ++ rest) = .ok (selection, rest) := by
  induction h generalizing rest with
  | leaf harguments hdirectives =>
    obtain ⟨hcolon, hopening, hmark, hbrace⟩ := starts_of_not_continues hrest
    rw [List.append_assoc, List.append_assoc]
    exact readOne_field harguments hdirectives hcolon hopening hmark (optional_of_not_starts hbrace)
  | nested harguments hdirectives parts hne hparts ih =>
    have hreadBlock := readBlock_of_parts hne (fun part hpart => (hparts part hpart).starts)
      (fun part hpart rest hrest => ih part hpart hrest) rest
    rw [List.append_assoc, List.append_assoc, List.append_assoc]
    exact readOne_field harguments hdirectives rfl rfl rfl (optional_of_starts rfl hreadBlock)
  | spread hname hdirectives =>
    obtain ⟨-, hopening, hmark, -⟩ := starts_of_not_continues hrest
    exact readSpread_fragment hname (directives_read hdirectives rest hmark hopening)
  | @inline levels onType dirs directives hdirectives parts hne hparts ih =>
    have hreadBlock := readBlock_of_parts hne (fun part hpart => (hparts part hpart).starts)
      (fun part hpart rest hrest => ih part hpart hrest) rest
    have hreadDirs := directives_read hdirectives (blockLexemes parts ++ rest) rfl rfl
    rw [List.cons_append, List.append_assoc, List.append_assoc]
    cases onType with
    | some type =>
      have hspread : readSpread (levels + 1) (readBlock (levels + 1))
          (.name "on" :: .name type :: (dirs ++ (blockLexemes parts ++ rest))) =
            .ok (.inline (some type) directives (parts.map (·.2)), rest) := by
        simp only [readSpread, name_cons, ok_bind, hreadDirs, hreadBlock]
      exact hspread
    | none =>
      have hspread : readSpread (levels + 1) (readBlock (levels + 1))
          (dirs ++ (blockLexemes parts ++ rest)) =
            .ok (.inline none directives (parts.map (·.2)), rest) := by
        rw [readSpread_of_starts (starts_append_eq_false
          (directives_starts_eq_false hdirectives rfl) rfl), hreadDirs]
        simp only [ok_bind, hreadBlock]
      exact hspread

/-- A block is read before any lexemes. -/
theorem BlockDerives.read {levels : Nat} {used : List Lexeme} {selections : List Selection}
    (h : BlockDerives levels used selections) (rest : List Lexeme) :
    readBlock levels (used ++ rest) = .ok (selections, rest) := by
  cases h with
  | block parts hne hparts =>
    exact readBlock_of_parts hne (fun part hpart => (hparts part hpart).starts)
      (fun part hpart _ hrest => (hparts part hpart).read hrest) rest

theorem nameLexemes_bad_not_mem (responseName : Option String) (name : String) :
    .bad ∉ nameLexemes responseName name := by
  cases responseName <;> simp [nameLexemes]

theorem conditionLexemes_bad_not_mem (onType : Option String) : .bad ∉ conditionLexemes onType := by
  cases onType <;> simp [conditionLexemes]

theorem blockLexemes_bad_not_mem {parts : List (List Lexeme × Selection)}
    (h : ∀ part ∈ parts, .bad ∉ part.1) : .bad ∉ blockLexemes parts := by
  simpa [blockLexemes] using not_mem_flatMap_parts h

/-- No rule takes a bad lexeme. -/
theorem Derives.bad_not_mem {levels : Nat} {used : List Lexeme} {selection : Selection}
    (h : Derives levels used selection) : .bad ∉ used := by
  induction h with
  | leaf harguments hdirectives =>
    simp [nameLexemes_bad_not_mem, harguments.bad_not_mem, directives_bad_not_mem hdirectives]
  | nested harguments hdirectives parts _ _ ih =>
    simp [nameLexemes_bad_not_mem, harguments.bad_not_mem, directives_bad_not_mem hdirectives,
      blockLexemes_bad_not_mem ih]
  | spread _ hdirectives => simp [directives_bad_not_mem hdirectives]
  | inline hdirectives parts _ _ ih =>
    simp [conditionLexemes_bad_not_mem, directives_bad_not_mem hdirectives,
      blockLexemes_bad_not_mem ih]

theorem BlockDerives.bad_not_mem {levels : Nat} {used : List Lexeme} {selections : List Selection}
    (h : BlockDerives levels used selections) : .bad ∉ used := by
  cases h with
  | block parts _ hparts => exact blockLexemes_bad_not_mem fun part hpart =>
      (hparts part hpart).bad_not_mem

end Selection

/-! ## Variables -/

/-- Lexemes that write the definition of a variable. -/
inductive VariableDerives (levels : Nat) : List Lexeme → VariableDefinition → Prop
  | bare {name : String} {used : List Lexeme} {type : TypeExpr}
      (htype : TypeExpr.Derives levels used type) :
      VariableDerives levels (.punct '$' :: .name name :: .punct ':' :: used) ⟨name, type, none⟩
  | withDefault {name : String} {used valueUsed : List Lexeme} {type : TypeExpr} {value : Value}
      (htype : TypeExpr.Derives levels used type)
      (hvalue : Value.Derives true levels valueUsed value) :
      VariableDerives levels
        (.punct '$' :: .name name :: .punct ':' :: (used ++ .punct '=' :: valueUsed))
        ⟨name, type, some value⟩

/-- Lexemes that write variables in parentheses, or nothing for none. -/
inductive VariablesDerive : Nat → List Lexeme → List VariableDefinition → Prop
  | none {levels : Nat} : VariablesDerive levels [] []
  | some {levels : Nat} (parts : List (List Lexeme × VariableDefinition)) (hne : parts ≠ [])
      (h : ∀ part ∈ parts, VariableDerives levels part.1 part.2) :
      VariablesDerive (levels + 1) (.punct '(' :: (parts.flatMap (·.1) ++ [.punct ')']))
        (parts.map (·.2))

/-- Reads the variables of an operation; there may be none without parentheses. -/
def readVariables (levels : Nat) : Reader (Option (List VariableDefinition)) :=
  Reader.optional (isPunct '(') (between '(' ')' levels fun levels =>
    many1 (isPunct '$') (Document.readVariable levels))

theorem takes_readVariable (levels : Nat) :
    Takes (Document.readVariable levels) (VariableDerives levels) := by
  intro ls definition rest h
  obtain ⟨⟨⟨⟩, ls₁⟩, hmark, h⟩ := bind_eq_ok_iff.1 h
  obtain ⟨⟨name, ls₂⟩, hname, h⟩ := bind_eq_ok_iff.1 h
  obtain ⟨⟨⟨⟩, ls₃⟩, hcolon, h⟩ := bind_eq_ok_iff.1 h
  obtain ⟨⟨type, ls₄⟩, htype, hdefault⟩ := bind_eq_ok_iff.1 h
  obtain ⟨used, rfl, hused⟩ := TypeExpr.takes_read _ _ _ _ htype
  rw [eq_cons_of_punct hmark, eq_cons_of_name hname, eq_cons_of_punct hcolon]
  dsimp only at hdefault
  split at hdefault
  · obtain ⟨⟨value, ls₅⟩, hvalue, hdefault⟩ := bind_eq_ok_iff.1 hdefault
    cases hdefault
    obtain ⟨valueUsed, rfl, hderives⟩ := Value.takes_read _ _ _ _ _ hvalue
    exact ⟨_, by simp, .withDefault hused hderives⟩
  · cases hdefault
    exact ⟨.punct '$' :: .name name :: .punct ':' :: used, rfl, .bare hused⟩

theorem takes_readVariables (levels : Nat) :
    Takes (readVariables levels) fun used declared =>
      VariablesDerive levels used (declared.getD []) := by
  refine (takes_optional (takes_between fun levels =>
    takes_many1 (takes_readVariable levels))).mono ?_
  rintro used (_ | declared) hused
  · obtain rfl : used = [] := hused
    exact .none
  · obtain ⟨levels, within, rfl, rfl, hne, parts, rfl, rfl, hparts⟩ := hused
    exact .some parts (by simpa using hne) hparts

theorem VariableDerives.starts {levels : Nat} {used : List Lexeme} {definition : VariableDefinition}
    (h : VariableDerives levels used definition) : starts (isPunct '$') used = true := by
  cases h <;> simp [starts_cons]

/-- A variable is read before another one and before a parenthesis. -/
theorem VariableDerives.read {levels : Nat} {used : List Lexeme} {definition : VariableDefinition}
    (h : VariableDerives levels used definition) {rest : List Lexeme}
    (hmark : Reader.starts (isPunct '!') rest = false)
    (hdefault : Reader.starts (isPunct '=') rest = false) :
    Document.readVariable levels (used ++ rest) = .ok (definition, rest) := by
  cases h with
  | bare htype =>
    simp only [Document.readVariable, List.cons_append, punct_cons, name_cons, ok_bind,
      htype.read rest hmark]
    split
    · simp [starts_cons] at hdefault
    · rfl
  | @withDefault _ _ valueUsed _ _ htype hvalue =>
    have hread := htype.read (.punct '=' :: (valueUsed ++ rest)) rfl
    simp only [Document.readVariable, List.cons_append, List.append_assoc, punct_cons, name_cons,
      ok_bind, hread, hvalue.read rest]

/-- Variables are read before anything but a parenthesis. -/
theorem VariablesDerive.read {levels : Nat} {used : List Lexeme}
    {declared : List VariableDefinition} (h : VariablesDerive levels used declared)
    (rest : List Lexeme) (hrest : starts (isPunct '(') rest = false) :
    ∃ declared?, readVariables levels (used ++ rest) = .ok (declared?, rest) ∧
      declared?.getD [] = declared := by
  cases h with
  | none => exact ⟨Option.none, optional_of_not_starts hrest, rfl⟩
  | @some levels parts hne hparts =>
    refine ⟨Option.some (parts.map (·.2)), ?_, rfl⟩
    have hmany := many1_of_parts (isPunct '$') (Document.readVariable levels)
      (fun rest => starts (isPunct '!') rest = false ∧ starts (isPunct '=') rest = false)
      (.punct ')' :: rest) (by
        intro l ls hl
        obtain rfl : l = .punct '$' := by simpa [isPunct] using hl
        exact ⟨rfl, rfl⟩) ⟨rfl, rfl⟩ rfl hne
      (fun part hpart => ⟨(hparts part hpart).starts,
        fun rest hrest => (hparts part hpart).read hrest.1 hrest.2⟩)
    simp only [List.cons_append, List.append_assoc, List.nil_append]
    exact optional_of_starts rfl (between_of_eq hmany)

theorem VariablesDerive.starts_eq_false {levels : Nat} {used : List Lexeme}
    {declared : List VariableDefinition} (h : VariablesDerive levels used declared)
    {test : Lexeme → Bool} (htest : test (.punct '(') = false) : starts test used = false := by
  cases h with
  | none => rfl
  | some => exact htest

theorem VariablesDerive.bad_not_mem {levels : Nat} {used : List Lexeme}
    {declared : List VariableDefinition} (h : VariablesDerive levels used declared) :
    .bad ∉ used := by
  cases h with
  | none => simp
  | some parts _ hparts =>
    have : .bad ∉ parts.flatMap (·.1) := by
      refine not_mem_flatMap_parts fun part hpart => ?_
      have hderives := hparts part hpart
      generalize part.1 = used, part.2 = definition at hderives
      cases hderives with
      | bare htype => simpa using htype.bad_not_mem
      | withDefault htype hvalue => simpa using ⟨htype.bad_not_mem, hvalue.bad_not_mem⟩
    simpa using this

/-! ## Definitions and documents -/

/-- The lexemes of the name of an operation, if it has one. -/
def titleLexemes : Option String → List Lexeme
  | some name => [.name name]
  | none => []

/-- Lexemes that write a definition with at most so many levels of brackets. -/
inductive RequestDefinition.Derives (levels : Nat) : List Lexeme → RequestDefinition → Prop
  | selections {used : List Lexeme} {selections : List Selection}
      (hblock : Selection.BlockDerives levels used selections) :
      Derives levels used (.selections selections)
  | operation {kind : OperationKind} {name : Option String} {vars dirs used : List Lexeme}
      {declared : List VariableDefinition} {directives : List Directive}
      {selections : List Selection}
      (hdeclared : VariablesDerive levels vars declared)
      (hdirectives : Sequence (DirectiveDerives levels) dirs directives)
      (hblock : Selection.BlockDerives levels used selections) :
      Derives levels (.name kind.keyword :: (titleLexemes name ++ (vars ++ (dirs ++ used))))
        (.operation kind name declared directives selections)
  | fragment {name onType : String} {dirs used : List Lexeme} {directives : List Directive}
      {selections : List Selection}
      (hdirectives : Sequence (DirectiveDerives levels) dirs directives)
      (hblock : Selection.BlockDerives levels used selections) :
      Derives levels (.name "fragment" :: .name name :: .name "on" :: .name onType ::
        (dirs ++ used))
        (.fragment name onType directives selections)

/-- Lexemes that write a document. -/
def Document.Derives (used : List Lexeme) (document : Document) : Prop :=
  document ≠ [] ∧ Sequence (RequestDefinition.Derives maxLevels) used document

namespace Document

theorem readOperation_eq (levels : Nat) (kind : OperationKind) (ls : List Lexeme) :
    readOperation levels kind ls = (do
      let (name, ls) ← Reader.optional isName Reader.name ls
      let (declared, ls) ← readVariables levels ls
      let (directives, ls) ← readDirectives levels ls
      let (selections, ls) ← Selection.readBlock levels ls
      .ok (.operation kind name (declared.getD []) directives selections, ls)) :=
  rfl

theorem takes_readOperation (levels : Nat) (kind : OperationKind) :
    Takes (readOperation levels kind) fun used definition =>
      RequestDefinition.Derives levels (.name kind.keyword :: used) definition := by
  intro ls definition rest h
  obtain ⟨⟨name, ls₁⟩, hname, h⟩ := bind_eq_ok_iff.1 h
  obtain ⟨⟨declared?, ls₂⟩, hvariables, h⟩ := bind_eq_ok_iff.1 h
  obtain ⟨⟨directives, ls₃⟩, hdirectives, h⟩ := bind_eq_ok_iff.1 h
  obtain ⟨⟨selections, ls₄⟩, hselections, h⟩ := bind_eq_ok_iff.1 h
  cases h
  have htitle : ls = titleLexemes name ++ ls₁ := by
    obtain ⟨used, rfl, hused⟩ := takes_optional (P := fun used name => used = [.name name])
      (fun ls name rest h => ⟨[.name name], eq_cons_of_name h, rfl⟩) _ _ _ hname
    cases name <;> simp_all [titleLexemes]
  obtain ⟨vars, rfl, hvars⟩ := takes_readVariables levels _ _ _ hvariables
  obtain ⟨dirs, rfl, hdirs⟩ := takes_readDirectives _ _ _ _ hdirectives
  obtain ⟨used, rfl, hused⟩ := Selection.takes_readBlock _ _ _ _ hselections
  exact ⟨titleLexemes name ++ (vars ++ (dirs ++ used)), by simp [htitle],
    .operation hvars hdirs hused⟩

theorem takes_readFragment (levels : Nat) :
    Takes (readFragment levels) fun used definition =>
      RequestDefinition.Derives levels (.name "fragment" :: used) definition := by
  intro ls definition rest h
  obtain ⟨⟨name, ls₁⟩, hname, h⟩ := bind_eq_ok_iff.1 h
  obtain ⟨⟨⟨⟩, ls₂⟩, hword, h⟩ := bind_eq_ok_iff.1 h
  obtain ⟨⟨onType, ls₃⟩, htype, h⟩ := bind_eq_ok_iff.1 h
  obtain ⟨⟨directives, ls₄⟩, hdirectives, h⟩ := bind_eq_ok_iff.1 h
  obtain ⟨⟨selections, ls₅⟩, hselections, h⟩ := bind_eq_ok_iff.1 h
  cases h
  obtain ⟨dirs, rfl, hdirs⟩ := takes_readDirectives _ _ _ _ hdirectives
  obtain ⟨used, rfl, hused⟩ := Selection.takes_readBlock _ _ _ _ hselections
  rw [eq_cons_of_name hname, eq_cons_of_word hword, eq_cons_of_name htype]
  exact ⟨.name name :: .name "on" :: .name onType :: (dirs ++ used), by simp, .fragment hdirs hused⟩

/-- The reader of definitions obeys the grammar. -/
theorem takes_readDefinition (levels : Nat) :
    Takes (readDefinition levels) (RequestDefinition.Derives levels) := by
  intro ls definition rest h
  unfold readDefinition at h
  split at h
  · obtain ⟨used, rfl, hused⟩ := takes_readOperation _ _ _ _ _ h
    exact ⟨_, rfl, hused⟩
  · obtain ⟨used, rfl, hused⟩ := takes_readOperation _ _ _ _ _ h
    exact ⟨_, rfl, hused⟩
  · obtain ⟨used, rfl, hused⟩ := takes_readOperation _ _ _ _ _ h
    exact ⟨_, rfl, hused⟩
  · obtain ⟨used, rfl, hused⟩ := takes_readFragment _ _ _ _ h
    exact ⟨_, rfl, hused⟩
  · obtain ⟨⟨selections, ls₁⟩, hselections, h⟩ := bind_eq_ok_iff.1 h
    cases h
    obtain ⟨used, rfl, hused⟩ := Selection.takes_readBlock _ _ _ _ hselections
    exact ⟨used, rfl, .selections hused⟩

end Document

/-- A block starts with a brace. -/
theorem Selection.BlockDerives.starts_append {levels : Nat} {used : List Lexeme}
    {selections : List Selection} (h : Selection.BlockDerives levels used selections)
    (test : Lexeme → Bool) (rest : List Lexeme) :
    Reader.starts test (used ++ rest) = test (.punct '\x7b') := by
  cases h with
  | block => rfl

theorem Selection.BlockDerives.starts {levels : Nat} {used : List Lexeme}
    {selections : List Selection} (h : Selection.BlockDerives levels used selections)
    (test : Lexeme → Bool) : starts test used = test (.punct '\x7b') := by
  rw [← h.starts_append test [], List.append_nil]

namespace RequestDefinition.Derives

variable {levels : Nat} {used : List Lexeme} {definition : RequestDefinition}

theorem starts (h : Derives levels used definition) : starts Document.isStart used = true := by
  cases h with
  | selections hblock => rw [hblock.starts]; rfl
  | operation | fragment => rfl

/-- A definition is read before any lexemes. -/
theorem read (h : Derives levels used definition) (rest : List Lexeme) :
    Document.readDefinition levels (used ++ rest) = .ok (definition, rest) := by
  cases h with
  | selections hblock =>
    have hread := hblock.read rest
    cases hblock with
    | block parts =>
      simp only [Selection.blockLexemes, List.cons_append] at hread ⊢
      simp only [Document.readDefinition, hread, ok_bind]
  | @operation kind name vars dirs used declared directives selections hdeclared hdirectives
    hblock =>
    have hbrace : ∀ test, Reader.starts test (used ++ rest) = test (.punct '\x7b') :=
      fun test => hblock.starts_append test rest
    have hdirs := directives_read hdirectives (used ++ rest) (hbrace _) (hbrace _)
    obtain ⟨declared?, hvars, rfl⟩ := hdeclared.read (dirs ++ (used ++ rest))
      (starts_append_eq_false (directives_starts_eq_false hdirectives rfl) (hbrace _))
    have htitle : Reader.optional isName Reader.name
        (titleLexemes name ++ (vars ++ (dirs ++ (used ++ rest)))) =
          .ok (name, vars ++ (dirs ++ (used ++ rest))) := by
      cases name with
      | some name => rfl
      | none =>
        rw [titleLexemes, List.nil_append]
        exact optional_of_not_starts (starts_append_eq_false (hdeclared.starts_eq_false rfl)
          (starts_append_eq_false (directives_starts_eq_false hdirectives rfl) (hbrace isName)))
    have hoperation : Document.readOperation levels kind
        (titleLexemes name ++ (vars ++ (dirs ++ (used ++ rest)))) =
          .ok (.operation kind name (declared?.getD []) directives selections, rest) := by
      rw [Document.readOperation_eq]
      simp only [htitle, hvars, hdirs, hblock.read rest, ok_bind]
    simp only [List.cons_append, List.append_assoc]
    cases kind <;> exact hoperation
  | @fragment name onType dirs used directives selections hdirectives hblock =>
    have hbrace : ∀ test, Reader.starts test (used ++ rest) = test (.punct '\x7b') :=
      fun test => hblock.starts_append test rest
    have hdirs := directives_read hdirectives (used ++ rest) (hbrace _) (hbrace _)
    have hfragment : Document.readFragment levels
        (.name name :: .name "on" :: .name onType :: (dirs ++ (used ++ rest))) =
          .ok (.fragment name onType directives selections, rest) := by
      simp only [Document.readFragment, name_cons, word_cons, hdirs, hblock.read rest, ok_bind]
    simp only [List.cons_append, List.append_assoc]
    exact hfragment

end RequestDefinition.Derives

/-- No rule takes a bad lexeme. -/
theorem Document.Derives.bad_not_mem {used : List Lexeme} {document : Document}
    (h : Document.Derives used document) : .bad ∉ used := by
  refine h.2.not_mem fun used definition hdefinition => ?_
  cases hdefinition with
  | selections hblock => exact hblock.bad_not_mem
  | @operation kind name vars dirs used _ _ _ hdeclared hdirectives hblock =>
    have htitle : .bad ∉ titleLexemes name := by cases name <;> simp [titleLexemes]
    simp [htitle, hdeclared.bad_not_mem, directives_bad_not_mem hdirectives, hblock.bad_not_mem]
  | fragment hdirectives hblock =>
    simp [directives_bad_not_mem hdirectives, hblock.bad_not_mem]

/-- The reader of documents is the grammar of documents, and it reads to the end. -/
theorem Document.read_eq_ok_iff {ls rest : List Lexeme} {document : Document} :
    Document.read ls = .ok (document, rest) ↔ rest = [] ∧ Document.Derives ls document := by
  constructor
  · intro h
    obtain ⟨⟨definitions, ls₁⟩, hdefinitions, h⟩ := bind_eq_ok_iff.1 h
    dsimp only at h
    split at h
    · next hend =>
      cases h
      obtain rfl := List.isEmpty_iff.1 hend
      obtain ⟨used, rfl, hne, hsequence⟩ :=
        takes_many1 (takes_readDefinition maxLevels) _ _ _ hdefinitions
      rw [List.append_nil]
      exact ⟨rfl, hne, hsequence⟩
    · cases h
  · rintro ⟨rfl, hne, parts, rfl, rfl, hparts⟩
    have hmany := many1_of_parts isStart (readDefinition maxLevels) (fun _ => True) []
      (fun _ _ _ => trivial) trivial rfl (by simpa using hne)
      (fun part hpart => ⟨(hparts part hpart).starts, fun rest _ => (hparts part hpart).read rest⟩)
    rw [List.append_nil] at hmany
    rw [Document.read, hmany]
    rfl

/-- Lexemes write at most one document. -/
theorem Document.Derives.unique {used : List Lexeme} {document document' : Document}
    (h : Document.Derives used document) (h' : Document.Derives used document') :
    document = document' := by
  have hread := Document.read_eq_ok_iff.2 ⟨rfl, h⟩
  rw [Document.read_eq_ok_iff.2 ⟨rfl, h'⟩] at hread
  cases hread
  rfl

/-- A text parses as a document exactly if its lexemes derive that document. -/
theorem Document.parse_eq_ok_iff {text : String} {document : Document} :
    Document.parse text = .ok document ↔ Document.Derives (lexemesOf text.toList) document := by
  rw [Document.parse, lexemes_ofText]
  cases hread : Document.read (lexemesOf text.toList) with
  | error left =>
    refine ⟨nofun, fun h => ?_⟩
    rw [Document.read_eq_ok_iff.2 ⟨rfl, h⟩] at hread
    cases hread
  | ok result =>
    obtain ⟨document', rest⟩ := result
    obtain ⟨rfl, hderives⟩ := Document.read_eq_ok_iff.1 hread
    refine ⟨?_, fun h => ?_⟩
    · rintro ⟨⟩
      exact hderives
    · rw [Document.read_eq_ok_iff.2 ⟨rfl, h⟩] at hread
      cases hread
      rfl

end OperationAtlas.Graphql
