import OperationAtlas.Proofs.Graphql.Printing.Values

/-!
# Reading printed documents

A document that was read from a text is printed and read again. Its values may change on the way,
and the printer leaves out the variables of a subscription without a name. But what the document
asks for stays: its outline has the kinds of its operations, the names of their fields and the names
of those fields' arguments (`Document.outline_of_parse_text`). A document that is faithful and keeps
its variables stays altogether (`Document.parse_text`).
-/

namespace OperationAtlas.Graphql

open Reader

/-! ## Selections -/

theorem isName_on : IsName "on" := by decide

theorem isName_fragment : IsName "fragment" := by decide

theorem isName_keyword (kind : OperationKind) : IsName kind.keyword := by
  cases kind <;> decide

namespace Selection

/-- What a selection asks for: the name of a field and those of its arguments. -/
def outline : Selection → Option (String × List String)
  | field _ name arguments _ _ => some (name, arguments.map (·.1))
  | spread .. | inline .. => none

theorem printAll_eq (indent : Nat) : ∀ selections : List Selection,
    printAll indent selections = selections.flatMap (print indent)
  | [] => rfl
  | selection :: selections => by
      rw [printAll, printAll_eq indent selections, List.flatMap_cons]

theorem endsWord_blanks {n : Nat} (h : 0 < n) (cs : List Char) : EndsWord (blanks n ++ cs) := by
  obtain ⟨m, rfl⟩ := Nat.exists_eq_succ_of_ne_zero h.ne'
  exact endsWord_cons.2 rfl

theorem endsWord_print {indent : Nat} (h : 0 < indent) (selection : Selection) :
    EndsWord (selection.print indent) := by
  cases selection <;> simp only [print, List.append_assoc] <;> exact endsWord_blanks h _

/-- The text of the names of a field. -/
def namesText : Option String → String → List Char
  | some responseName, name => responseName.toList ++ ':' :: ' ' :: name.toList
  | none, name => name.toList

theorem spells_namesText (responseName : Option String) (name : String)
    (hvalid : ∀ l ∈ nameLexemes responseName name, l.IsValid) :
    Spells (namesText responseName name) (nameLexemes responseName name) := by
  cases responseName with
  | none => exact .name (hvalid (.name name) (by simp [nameLexemes]))
  | some responseName =>
    have hfirst : IsName responseName := hvalid (.name responseName) (by simp [nameLexemes])
    have hsecond : IsName name := hvalid (.name name) (by simp [nameLexemes])
    exact (Spells.name hfirst).append (.punct (by decide) (.blank (.name hsecond)))
      (endsWord_cons.2 rfl)

/-- The text of a block of selections behind its opening brace. -/
def blockText (outer inner : Nat) (selections : List Selection) : List Char :=
  '\x7b' :: '\n' :: (printAll inner selections ++ (blanks outer ++ ['\x7d', '\n']))

/-- A printed block is read as a block if its selections are. -/
theorem reprints_blockText {levels inner : Nat} (hinner : 0 < inner)
    {parts : List (List Lexeme × Selection)} (hne : parts ≠ [])
    (hvalid : ∀ l ∈ blockLexemes parts, l.IsValid)
    (h : ∀ part ∈ parts, (∀ l ∈ part.1, l.IsValid) →
      Reprints (part.2.print inner) (∀ l ∈ part.1, l.IsFaithful) (Derives levels)
        (fun selection => selection.outline = part.2.outline) part.2) (outer : Nat) :
    Reprints (blockText outer inner (parts.map (·.2))) (∀ l ∈ blockLexemes parts, l.IsFaithful)
      (fun used selections => ∃ parts', parts' ≠ [] ∧ used = blockLexemes parts' ∧
        selections = parts'.map (·.2) ∧ ∀ part ∈ parts', Derives levels part.1 part.2)
      (fun selections => selections.map outline = (parts.map (·.2)).map outline)
      (parts.map (·.2)) := by
  have hall : Reprints (printAll inner (parts.map (·.2))) (∀ l ∈ blockLexemes parts, l.IsFaithful)
      (Sequence (Derives levels))
      (List.Forall₂ (fun selection selection' => selection'.outline = selection.outline)
        (parts.map (·.2))) (parts.map (·.2)) := by
    rw [printAll_eq]
    refine .flatMap (fun selection _ => endsWord_print hinner selection)
      fun selection hselection => ?_
    obtain ⟨part, hpart, rfl⟩ := List.mem_map.1 hselection
    exact (h part hpart fun l hl => hvalid l (mem_bracketed hpart hl)).of_subset
      fun l hl => mem_bracketed hpart hl
  refine hall.wrap id (fun used => .punct '\x7b' :: (used ++ [.punct '\x7d']))
    (fun used hspells => ?_) (fun used => by simp) ?_ fun _ => map_eq_of_forall₂
  · have hends : EndsWord (blanks outer ++ ['\x7d', '\n']) := by
      cases outer with
      | zero => exact endsWord_cons.2 rfl
      | succ outer => exact endsWord_cons.2 rfl
    exact .punct (by decide) (.feed (hspells.append
      (.blanks outer (.punct (by decide) (.feed .nil))) hends))
  · rintro used selections ⟨parts', rfl, rfl, hparts'⟩ houtlines
    refine ⟨parts', ?_, rfl, rfl, hparts'⟩
    rintro rfl
    exact hne (by simpa using houtlines.length_eq)

/-- The text of a field before its selections. -/
def headText (indent : Nat) (responseName : Option String) (name : String)
    (arguments : List (String × Value)) (directives : List Directive) : List Char :=
  namesText responseName name ++ (printArguments indent arguments ++
    printDirectives indent directives)

/-- What stands before the selections of a field is read as names, arguments and directives. -/
theorem reprints_headText {levels : Nat} {responseName : Option String} {name : String}
    {args dirs : List Lexeme} {arguments : List (String × Value)} {directives : List Directive}
    (harguments : ArgumentsDerive false levels args arguments)
    (hdirectives : Sequence (DirectiveDerives levels) dirs directives) {used : List Lexeme}
    (hused : ∀ l ∈ nameLexemes responseName name ++ (args ++ dirs), l ∈ used)
    (hvalid : ∀ l ∈ used, l.IsValid) (indent : Nat) :
    Reprints (headText indent responseName name arguments directives) (∀ l ∈ used, l.IsFaithful)
      (fun used' head => ∃ args' dirs', used' = nameLexemes responseName name ++ (args' ++ dirs') ∧
        ArgumentsDerive false levels args' head.1 ∧ Sequence (DirectiveDerives levels) dirs' head.2)
      (fun head => head.1.map (·.1) = arguments.map (·.1)) (arguments, directives) := by
  have hargsUsed : args ⊆ used := fun l hl => hused l (by simp [hl])
  have hdirsUsed : dirs ⊆ used := fun l hl => hused l (by simp [hl])
  have hargs := (harguments.reprints (fun l hl => hvalid l (hargsUsed hl)) indent).of_subset
    hargsUsed
  have hdirs := (reprints_directives hdirectives (fun l hl => hvalid l (hdirsUsed hl))
    indent).of_subset hdirsUsed
  have hspellsNames := spells_namesText responseName name
    fun l hl => hvalid l (hused l (by simp [hl]))
  have hends := endsWord_printDirectives indent directives
  refine (hargs.append hdirs hends).wrap id (nameLexemes responseName name ++ ·)
    (fun used hspells => ?_) (fun used => by simp [nameLexemes_bad_not_mem]) ?_ fun _ => And.left
  · exact hspellsNames.append hspells ((endsWord_printArguments _ _).append hends)
  · rintro _ head ⟨args', dirs', rfl, hhead⟩ -
    exact ⟨args', dirs', rfl, hhead⟩

theorem print_field (indent : Nat) (responseName : Option String) (name : String)
    (arguments : List (String × Value)) (directives : List Directive)
    (selections : List Selection) :
    (field responseName name arguments directives selections).print indent =
      blanks indent ++ (headText indent responseName name arguments directives ++
        if selections.isEmpty then ['\n']
        else ' ' :: blockText indent (indent + 2) selections) := by
  cases responseName <;> simp [print, headText, namesText, blockText]

theorem print_inline (indent : Nat) (onType : Option String) (directives : List Directive)
    (selections : List Selection) :
    (inline onType directives selections).print indent =
      blanks indent ++ ('.' :: '.' :: '.' :: ((match onType with
        | some type => ' ' :: 'o' :: 'n' :: ' ' :: type.toList
        | none => []) ++ (printDirectives indent directives ++
          ' ' :: blockText indent (indent + 2) selections))) := by
  cases onType <;> simp [print, blockText]

/-- A printed selection is read as a selection with the same outline. -/
theorem Derives.reprints {levels : Nat} {used : List Lexeme} {selection : Selection}
    (h : Derives levels used selection) (hvalid : ∀ l ∈ used, l.IsValid) (indent : Nat) :
    Reprints (selection.print indent) (∀ l ∈ used, l.IsFaithful) (Derives levels)
      (fun selection' => selection'.outline = selection.outline) selection := by
  induction h generalizing indent with
  | @leaf levels responseName name args dirs arguments directives harguments hdirectives =>
    have hhead := reprints_headText harguments hdirectives (fun _ => id) hvalid indent
    rw [print_field]
    refine hhead.wrap (fun head => field responseName name head.1 head.2 []) id
      (fun used hspells => ?_) (fun _ => .rfl) ?_ fun head hnames => by simpa [outline] using hnames
    · have hline := hspells.append (.feed .nil) (endsWord_cons.2 rfl)
      exact .blanks indent (by simpa using hline)
    · rintro _ head ⟨args', dirs', rfl, hargs, hdirs⟩ -
      exact .leaf hargs hdirs
  | @nested levels responseName name args dirs arguments directives harguments hdirectives parts hne
      hparts ih =>
    have hhead := reprints_headText harguments hdirectives (fun l hl => by
      simp only [List.mem_append] at hl ⊢
      tauto) hvalid indent
    have hblockUsed : blockLexemes parts ⊆
        nameLexemes responseName name ++ (args ++ (dirs ++ blockLexemes parts)) :=
      fun l hl => by simp [hl]
    have hblock := (reprints_blockText (Nat.succ_pos (indent + 1)) hne
      (fun l hl => hvalid l (hblockUsed hl))
      (fun part hpart hpartValid => ih part hpart hpartValid _) indent).of_subset hblockUsed
    have hbrace : (parts.map (·.2)).isEmpty = false := by simpa using hne
    rw [print_field, hbrace, if_neg Bool.false_ne_true]
    refine (hhead.append (hblock.of_spells fun _ => .blank) (endsWord_cons.2 rfl)).wrap
      (fun both => field responseName name both.1.1 both.1.2 both.2) id
      (fun _ => .blanks indent) (fun _ => .rfl) ?_
      fun both hnames => by simpa [outline] using hnames.1
    rintro _ ⟨head, selections⟩
      ⟨_, _, rfl, ⟨args', dirs', rfl, hargs, hdirs⟩, parts', hne', rfl, rfl, hparts'⟩ -
    rw [id, List.append_assoc, List.append_assoc]
    exact .nested hargs hdirs parts' hne' hparts'
  | @spread levels fragment dirs directives hname hdirectives =>
    have hdirsUsed : dirs ⊆ .spread :: .name fragment :: dirs := fun l hl => by simp [hl]
    have hdirs := (reprints_directives hdirectives (fun l hl => hvalid l (hdirsUsed hl))
      indent).of_subset hdirsUsed
    have hfragment : IsName fragment := hvalid (.name fragment) (by simp)
    simp only [print, List.append_assoc]
    refine hdirs.wrap (Selection.spread fragment) (.spread :: .name fragment :: ·)
      (fun used hspells => ?_) (fun used => by simp)
      (fun used _ hdirs' _ => .spread hname hdirs') fun _ _ => rfl
    refine .blanks indent (.spread ((Spells.name hfragment).append ?_
      (.append (endsWord_printDirectives _ _) (endsWord_cons.2 rfl))))
    simpa using hspells.append (.feed .nil) (endsWord_cons.2 rfl)
  | @inline levels onType dirs directives hdirectives parts hne hparts ih =>
    have hdirsUsed : dirs ⊆ .spread :: (conditionLexemes onType ++ (dirs ++ blockLexemes parts)) :=
      fun l hl => by simp [hl]
    have hblockUsed : blockLexemes parts ⊆
        .spread :: (conditionLexemes onType ++ (dirs ++ blockLexemes parts)) :=
      fun l hl => by simp [hl]
    have hdirs := (reprints_directives hdirectives (fun l hl => hvalid l (hdirsUsed hl))
      indent).of_subset hdirsUsed
    have hblock := (reprints_blockText (Nat.succ_pos (indent + 1)) hne
      (fun l hl => hvalid l (hblockUsed hl))
      (fun part hpart hpartValid => ih part hpart hpartValid _) indent).of_subset hblockUsed
    rw [print_inline]
    refine (hdirs.append (hblock.of_spells fun _ => .blank) (endsWord_cons.2 rfl)).wrap
      (fun both => Selection.inline onType both.1 both.2)
      (fun used => .spread :: (conditionLexemes onType ++ used)) (fun used hspells => ?_)
      (fun used => by simp [conditionLexemes_bad_not_mem]) ?_ fun _ _ => rfl
    · refine .blanks indent (.spread ?_)
      cases onType with
      | none => exact hspells
      | some type =>
        have htype : IsName type := hvalid (.name type) (by simp [conditionLexemes])
        have hon := Spells.word isName_on ((Spells.name htype).append hspells
          (.append (endsWord_printDirectives _ _) (endsWord_cons.2 rfl)))
        simpa [conditionLexemes] using Spells.blank hon
    · rintro _ ⟨directives', selections⟩ ⟨_, _, rfl, hdirs', parts', hne', rfl, rfl, hparts'⟩ -
      exact .inline hdirs' parts' hne' hparts'

end Selection

/-! ## Definitions and documents -/

/-- A printed variable is read as a variable. -/
theorem VariableDerives.reprints {levels : Nat} {used : List Lexeme}
    {definition : VariableDefinition} (h : VariableDerives levels used definition)
    (hvalid : ∀ l ∈ used, l.IsValid) :
    Reprints (Document.printVariable definition) (∀ l ∈ used, l.IsFaithful) (VariableDerives levels)
      (fun _ => True) definition := by
  cases h with
  | @bare name used type htype =>
    have hname : IsName name := hvalid (.name name) (by simp)
    obtain ⟨hspells, hbad⟩ := htype.spells fun l hl => hvalid l (by simp [hl])
    refine .of_derives ?_ (by simpa using hbad) (.bare htype) trivial
    simpa [Document.printVariable] using Spells.punct (c := '$') (by decide)
      ((Spells.name hname).append (.punct (c := ':') (by decide) (.blank hspells))
        (endsWord_cons.2 rfl))
  | @withDefault name used valueUsed type value htype hvalue =>
    have hname : IsName name := hvalid (.name name) (by simp)
    obtain ⟨hspells, hbad⟩ := htype.spells fun l hl => hvalid l (by simp [hl])
    have hvalueUsed : valueUsed ⊆
        .punct '$' :: .name name :: .punct ':' :: (used ++ .punct '=' :: valueUsed) :=
      fun l hl => by simp [hl]
    have hread := (hvalue.reprints (fun l hl => hvalid l (hvalueUsed hl)) 0).of_subset hvalueUsed
    refine hread.wrap (fun value' => VariableDefinition.mk name type (some value'))
      (fun valueUsed' =>
        .punct '$' :: .name name :: .punct ':' :: (used ++ .punct '=' :: valueUsed'))
      (fun valueUsed' hspellsValue => ?_) (fun valueUsed' => by simp [hbad])
      (fun valueUsed' value' hvalue' _ => .withDefault htype hvalue') fun _ _ => trivial
    have hdefault := hspells.append (.blank (.punct (c := '=') (by decide) (.blank hspellsValue)))
      (endsWord_cons.2 rfl)
    exact .punct (by decide) ((Spells.name hname).append (.punct (by decide) (.blank hdefault))
      (endsWord_cons.2 rfl))

/-- Whether the printer keeps the variables of an operation. -/
def keepsVariables (kind : OperationKind) (name : Option String)
    (declared : List VariableDefinition) : Prop :=
  declared = [] ∨ kind ≠ .subscription ∨ name.isSome = true

theorem endsWord_printVariables (kind : OperationKind) (named : Bool)
    (declared : List VariableDefinition) :
    EndsWord (Document.printVariables kind named declared) := by
  unfold Document.printVariables
  split
  · exact endsWord_nil
  · cases kind with
    | query | mutation => exact endsWord_cons.2 rfl
    | subscription => cases named <;> first | exact endsWord_nil | exact endsWord_cons.2 rfl

/-- Variables in parentheses are read as variables, with whatever the printer puts between them. -/
theorem reprints_bracketed_variables {levels : Nat} {declared : List VariableDefinition}
    (hne : declared ≠ []) {cs : List Char} {faithful : Prop}
    (h : Reprints cs faithful (Sequence (VariableDerives levels))
      (List.Forall₂ (fun _ _ => True) declared) declared) :
    Reprints ('(' :: (cs ++ [')'])) faithful (VariablesDerive (levels + 1)) (fun _ => True)
      declared := by
  refine h.bracketed id (by decide) (by decide) ?_ fun _ _ => trivial
  rintro used declared' ⟨parts, rfl, rfl, hparts⟩ hlike
  refine .some parts ?_ hparts
  rintro rfl
  exact hne (List.eq_nil_of_length_eq_zero hlike.length_eq)

/-- Printed variables are read as variables. -/
theorem VariablesDerive.reprints {levels : Nat} {used : List Lexeme}
    {declared : List VariableDefinition} (h : VariablesDerive levels used declared)
    (hvalid : ∀ l ∈ used, l.IsValid) (kind : OperationKind) (name : Option String) :
    Reprints (Document.printVariables kind name.isSome declared)
      ((∀ l ∈ used, l.IsFaithful) ∧ keepsVariables kind name declared) (VariablesDerive levels)
      (fun _ => True) declared := by
  cases h with
  | none => exact .of_derives .nil List.not_mem_nil .none trivial
  | @some levels parts hne hparts =>
    have hdeclared : parts.map (·.2) ≠ [] := by simpa using hne
    have hvariables : ∀ x ∈ parts.map (·.2), Reprints (Document.printVariable x)
        ((∀ l ∈ Lexeme.punct '(' :: (parts.flatMap (·.1) ++ [.punct ')']), l.IsFaithful) ∧
          keepsVariables kind name (parts.map (·.2)))
        (VariableDerives levels) (fun _ => True) x := by
      intro x hx
      obtain ⟨part, hpart, rfl⟩ := List.mem_map.1 hx
      exact ((hparts part hpart).reprints fun l hl => hvalid l (mem_bracketed hpart hl)).mono
        fun h l hl => h.1 l (mem_bracketed hpart hl)
    have hkept := reprints_bracketed_variables hdeclared (.intercalate hvariables)
    have hrun := reprints_bracketed_variables hdeclared
      (.flatMap (fun _ _ => endsWord_cons.2 rfl) hvariables)
    unfold Document.printVariables
    rw [List.isEmpty_eq_false_iff.2 hdeclared, if_neg Bool.false_ne_true]
    cases kind with
    | query | mutation => exact hkept
    | subscription =>
      cases name with
      | some name => exact hrun
      | none =>
        refine ⟨[], [], .nil, fun _ => .none, trivial, fun hfaithful => ?_⟩
        rcases hfaithful.2 with hnil | hkind | hname
        · exact absurd hnil hdeclared
        · exact absurd rfl hkind
        · cases hname

namespace RequestDefinition

/-- What an operation asks for: its kind and the outlines of its selections. -/
def outline : RequestDefinition → Option (OperationKind × List (Option (String × List String)))
  | operation kind _ _ _ inner => some (kind, inner.map Selection.outline)
  | selections .. | fragment .. => none

/-- Whether the printer keeps the variables of a definition. -/
def KeepsVariables : RequestDefinition → Prop
  | operation kind name declared _ _ => keepsVariables kind name declared
  | selections .. | fragment .. => True

end RequestDefinition

/-- A printed block at the outset is read as a block. -/
theorem Selection.BlockDerives.reprints {levels : Nat} {used : List Lexeme}
    {selections : List Selection} (h : Selection.BlockDerives levels used selections)
    (hvalid : ∀ l ∈ used, l.IsValid) :
    Reprints (Selection.printBlock selections) (∀ l ∈ used, l.IsFaithful)
      (Selection.BlockDerives levels)
      (fun selections' => selections'.map outline = selections.map outline) selections := by
  cases h with
  | block parts hne hparts =>
    have hblock := reprints_blockText Nat.two_pos hne hvalid
      (fun part hpart hpartValid => (hparts part hpart).reprints hpartValid _) 0
    refine hblock.wrap id id (fun _ => id) (fun _ => .rfl) ?_ fun _ => id
    rintro _ _ ⟨parts', hne', rfl, rfl, hparts'⟩ -
    exact .block parts' hne' hparts'

/-- The text behind the names of an operation or a fragment. -/
def Document.tailText (directives : List Directive) (selections : List Selection) : List Char :=
  printDirectives 0 directives ++ ' ' :: Selection.printBlock selections

theorem Document.endsWord_tailText (directives : List Directive) (selections : List Selection) :
    EndsWord (tailText directives selections) :=
  (endsWord_printDirectives _ _).append (endsWord_cons.2 rfl)

/-- What stands behind the names of a definition is read as directives and selections. -/
theorem Document.reprints_tailText {levels : Nat} {dirs block : List Lexeme}
    {directives : List Directive} {selections : List Selection}
    (hdirectives : Sequence (DirectiveDerives levels) dirs directives)
    (hblock : Selection.BlockDerives levels block selections)
    (hvalid : ∀ l ∈ dirs ++ block, l.IsValid) :
    Reprints (tailText directives selections) (∀ l ∈ dirs ++ block, l.IsFaithful)
      (fun used tail => ∃ dirs' block', used = dirs' ++ block' ∧
        Sequence (DirectiveDerives levels) dirs' tail.1 ∧
        Selection.BlockDerives levels block' tail.2)
      (fun tail => tail.2.map Selection.outline = selections.map Selection.outline)
      (directives, selections) := by
  have hdirs := (reprints_directives hdirectives (fun l hl => hvalid l (by simp [hl]))
    0).of_subset (List.subset_append_left dirs block)
  have hselections := (hblock.reprints fun l hl => hvalid l (by simp [hl])).of_subset
    (List.subset_append_right dirs block)
  exact (hdirs.append (hselections.of_spells fun _ => .blank) (endsWord_cons.2 rfl)).wrap id id
    (fun _ => id) (fun _ => .rfl) (fun _ _ h _ => h) fun _ => And.right

/-- The text of the name of an operation, if it has one. -/
def titleText : Option String → List Char
  | some name => ' ' :: name.toList
  | none => []

theorem Document.printDefinition_operation (kind : OperationKind) (name : Option String)
    (declared : List VariableDefinition) (directives : List Directive)
    (selections : List Selection) :
    printDefinition (.operation kind name declared directives selections) =
      kind.keyword.toList ++ (titleText name ++ (printVariables kind name.isSome declared ++
        tailText directives selections)) := by
  have htext : printDefinition (.operation kind name declared directives selections) =
      kind.keyword.toList ++ titleText name ++ printVariables kind name.isSome declared ++
        printDirectives 0 directives ++ ' ' :: Selection.printBlock selections := rfl
  rw [htext]
  simp only [List.append_assoc, tailText]

theorem Document.printDefinition_fragment (name onType : String) (directives : List Directive)
    (selections : List Selection) :
    printDefinition (.fragment name onType directives selections) =
      "fragment".toList ++ ' ' :: (name.toList ++ ' ' :: ("on".toList ++ ' ' :: (onType.toList ++
        tailText directives selections))) := by
  have htext : printDefinition (.fragment name onType directives selections) =
      ("fragment".toList ++ [' ']) ++ name.toList ++ (' ' :: "on".toList ++ [' ']) ++
        onType.toList ++ printDirectives 0 directives ++
          ' ' :: Selection.printBlock selections := by
    rfl
  rw [htext]
  simp only [List.append_assoc, List.cons_append, List.nil_append, tailText]

/-- A printed definition is read as a definition with the same outline. -/
theorem RequestDefinition.Derives.reprints {levels : Nat} {used : List Lexeme}
    {definition : RequestDefinition} (h : RequestDefinition.Derives levels used definition)
    (hvalid : ∀ l ∈ used, l.IsValid) :
    Reprints (Document.printDefinition definition)
      ((∀ l ∈ used, l.IsFaithful) ∧ definition.KeepsVariables)
      (RequestDefinition.Derives levels)
      (fun definition' => definition'.outline = definition.outline) definition := by
  cases h with
  | selections hblock =>
    exact ((hblock.reprints hvalid).mono And.left).wrap RequestDefinition.selections id
      (fun _ => id) (fun _ => .rfl) (fun _ _ hblock' _ => .selections hblock') fun _ _ => rfl
  | @operation kind name vars dirs block declared directives selections hdeclared hdirectives
    hblock =>
    have hvarsUsed : vars ⊆
        .name kind.keyword :: (titleLexemes name ++ (vars ++ (dirs ++ block))) :=
      fun l hl => by simp [hl]
    have htailUsed : dirs ++ block ⊆
        .name kind.keyword :: (titleLexemes name ++ (vars ++ (dirs ++ block))) :=
      fun l hl => List.mem_cons_of_mem _ (List.mem_append_right _ (List.mem_append_right _ hl))
    have hkept : (∀ l ∈ .name kind.keyword :: (titleLexemes name ++ (vars ++ (dirs ++ block))),
          l.IsFaithful) ∧ keepsVariables kind name declared →
        (∀ l ∈ vars, l.IsFaithful) ∧ keepsVariables kind name declared :=
      And.imp_left fun h l hl => h l (hvarsUsed hl)
    have hvars := (hdeclared.reprints (fun l hl => hvalid l (hvarsUsed hl)) kind name).mono hkept
    have htail := (Document.reprints_tailText hdirectives hblock fun l hl =>
      hvalid l (htailUsed hl)).of_subset htailUsed
    have htitle : .bad ∉ titleLexemes name := by cases name <;> simp [titleLexemes]
    have hkeyword : Spells kind.keyword.toList [.name kind.keyword] :=
      .name (isName_keyword kind)
    have hends := (endsWord_printVariables kind name.isSome declared).append
      (Document.endsWord_tailText directives selections)
    refine (hvars.append (htail.mono And.left) (Document.endsWord_tailText _ _)).wrap
      (fun both => RequestDefinition.operation kind name both.1 both.2.1 both.2.2)
      (fun used => .name kind.keyword :: (titleLexemes name ++ used)) (fun used hspells => ?_)
      (fun used => by simp [htitle]) ?_
      fun both houtline => by simpa [RequestDefinition.outline] using houtline.2
    · rw [Document.printDefinition_operation]
      cases name with
      | none => exact hkeyword.append hspells hends
      | some name =>
        have hname : IsName name := hvalid (.name name) (by simp [titleLexemes])
        exact Spells.word (isName_keyword kind) ((Spells.name hname).append hspells hends)
    · rintro _ ⟨declared', tail⟩ ⟨vars', _, rfl, hvars', dirs', block', rfl, hdirs', hblock'⟩ -
      exact .operation hvars' hdirs' hblock'
  | @fragment name onType dirs block directives selections hdirectives hblock =>
    have hname : IsName name := hvalid (.name name) (by simp)
    have htype : IsName onType := hvalid (.name onType) (by simp)
    have htailUsed : dirs ++ block ⊆
        .name "fragment" :: .name name :: .name "on" :: .name onType :: (dirs ++ block) :=
      fun l hl => by simp only [List.mem_cons, hl, or_true]
    have htail := (Document.reprints_tailText hdirectives hblock fun l hl =>
      hvalid l (htailUsed hl)).of_subset htailUsed
    refine (htail.mono And.left).wrap
      (fun tail => RequestDefinition.fragment name onType tail.1 tail.2)
      (.name "fragment" :: .name name :: .name "on" :: .name onType :: ·) (fun used hspells => ?_)
      (fun used => by simp) ?_ fun _ _ => rfl
    · rw [Document.printDefinition_fragment]
      exact Spells.word isName_fragment (.word hname (.word isName_on
        ((Spells.name htype).append hspells (Document.endsWord_tailText _ _))))
    · rintro _ tail ⟨dirs', block', rfl, hdirs', hblock'⟩ -
      exact .fragment hdirs' hblock'

namespace Document

/-- What the definitions of a document ask for. -/
def outline (document : Document) :
    List (Option (OperationKind × List (Option (String × List String)))) :=
  document.map RequestDefinition.outline

/-- Printed definitions are read as definitions with the same outlines. -/
theorem reprints_print {faithful : Prop} {definitions : Document}
    (h : ∀ definition ∈ definitions, Reprints (printDefinition definition) faithful
      (RequestDefinition.Derives maxLevels)
      (fun definition' => definition'.outline = definition.outline) definition) :
    Reprints definitions.print faithful (Sequence (RequestDefinition.Derives maxLevels))
      (List.Forall₂ (fun definition definition' => definition'.outline = definition.outline)
        definitions) definitions := by
  induction definitions with
  | nil => exact .nil
  | cons definition definitions ih =>
    obtain ⟨hfirst, hothers⟩ := List.forall_mem_cons.1 h
    cases definitions with
    | nil => simpa [print] using hfirst.cons .nil endsWord_nil
    | cons next definitions =>
      exact hfirst.cons ((ih hothers).of_spells fun used hused => .feed hused)
        (endsWord_cons.2 rfl)

/-- A printed document is read as a document with the same outline. -/
theorem Derives.reprints {used : List Lexeme} {document : Document} (h : Derives used document)
    (hvalid : ∀ l ∈ used, l.IsValid) :
    Reprints document.print
      ((∀ l ∈ used, l.IsFaithful) ∧ ∀ definition ∈ document, definition.KeepsVariables) Derives
      (fun document' => document'.outline = document.outline) document := by
  obtain ⟨hne, parts, rfl, rfl, hparts⟩ := h
  have hdefinitions : ∀ definition ∈ parts.map (·.2), Reprints (printDefinition definition)
      ((∀ l ∈ parts.flatMap (·.1), l.IsFaithful) ∧
        ∀ definition ∈ parts.map (·.2), definition.KeepsVariables)
      (RequestDefinition.Derives maxLevels)
      (fun definition' => definition'.outline = definition.outline) definition := by
    intro definition hdefinition
    obtain ⟨part, hpart, rfl⟩ := List.mem_map.1 hdefinition
    have hsub : ∀ l ∈ part.1, l ∈ parts.flatMap (·.1) := fun l hl =>
      List.mem_flatMap.2 ⟨part, hpart, hl⟩
    exact ((hparts part hpart).reprints fun l hl => hvalid l (hsub l hl)).mono fun h =>
      ⟨fun l hl => h.1 l (hsub l hl), h.2 _ hdefinition⟩
  refine (reprints_print hdefinitions).wrap id id (fun _ => id) (fun _ => .rfl)
    (fun used document hsequence houtlines => ⟨?_, hsequence⟩) fun _ => map_eq_of_forall₂
  rintro rfl
  exact hne (List.eq_nil_of_length_eq_zero houtlines.length_eq)

/-- Printing a document that was read and reading it again changes nothing in its outline. -/
theorem outline_of_parse_text {text : String} {document again : Document}
    (h : parse text = .ok document) (hagain : parse document.text = .ok again) :
    again.outline = document.outline := by
  obtain ⟨used, document', hspells, hderives, houtline, -⟩ :=
    (parse_eq_ok_iff.1 h).reprints isValid_of_mem_lexemesOf
  have hagain := parse_eq_ok_iff.1 hagain
  have hbad : .bad ∉ used := by
    have := hagain.bad_not_mem
    rwa [Document.text, String.toList_ofList, hspells.lexemesOf_eq, bad_mem_untilBad] at this
  rw [Document.text, String.toList_ofList, hspells.lexemesOf_eq_self hbad] at hagain
  rw [Derives.unique hagain (hderives hbad), houtline]

/-- A faithful document that was read is read again as itself when it is printed. -/
theorem parse_text {used : List Lexeme} {document : Document} (h : Derives used document)
    (hvalid : ∀ l ∈ used, l.IsValid) (hfaithful : ∀ l ∈ used, l.IsFaithful)
    (hkeeps : ∀ definition ∈ document, definition.KeepsVariables) :
    parse document.text = .ok document := by
  obtain ⟨used', document', hspells, hderives, -, hsame⟩ := h.reprints hvalid
  obtain ⟨hbad, rfl⟩ := hsame ⟨hfaithful, hkeeps⟩
  rw [parse_eq_ok_iff, Document.text, String.toList_ofList, hspells.lexemesOf_eq_self hbad]
  exact hderives hbad

end Document

end OperationAtlas.Graphql
