import Mathlib.Data.String.Basic
import OperationAtlas.Proofs.Graphql.Nesting
import OperationAtlas.Proofs.Graphql.Spelling

/-!
# Composed texts

Requests are composed of plain fields with arguments. This module has the lexemes of such fields and
of the operations that hold them, the levels that they need, and the texts that spell them. A
property that names and punctuation have passes from the parts to the whole
(`forall_mem_fieldLexemes`), so what is composed of readable parts is readable.
-/

namespace OperationAtlas.Graphql

open Reader

/-! ## Lexemes -/

/-- The lexemes of arguments: none without parentheses. -/
def argumentLexemes (parts : List (List Lexeme × String × Value)) : List Lexeme :=
  if parts.isEmpty then [] else .punct '(' :: (parts.flatMap fieldLexemes ++ [.punct ')'])

theorem fits_arguments {parts : List (List Lexeme × String × Value)}
    (h : ∀ part ∈ parts, Value.Fits part.1 part.2.2) :
    Fits (fun levels => ArgumentsDerive false levels (argumentLexemes parts) (parts.map (·.2)))
      (argumentLexemes parts) := by
  unfold argumentLexemes
  split
  · next hnil =>
    obtain rfl := List.isEmpty_iff.1 hnil
    exact .nil fun _ => .none
  · next hne => exact .between rfl rfl (fits_fields h) fun _ => .some parts (by simpa using hne)

namespace Selection

/-- A field without another name and directives. -/
def fieldLexemes (name : String) (arguments : List (List Lexeme × String × Value))
    (parts : List (List Lexeme × Selection)) : List Lexeme :=
  .name name :: (argumentLexemes arguments ++ if parts.isEmpty then [] else blockLexemes parts)

theorem fits_field (name : String) {arguments : List (List Lexeme × String × Value)}
    {parts : List (List Lexeme × Selection)}
    (harguments : ∀ part ∈ arguments, Value.Fits part.1 part.2.2)
    (h : ∀ part ∈ parts, Fits part.1 part.2) :
    Fits (fieldLexemes name arguments parts)
      (.field none name (arguments.map (·.2)) [] (parts.map (·.2))) := by
  refine .cons rfl rfl ?_
  unfold fieldLexemes
  split
  · next hnil =>
    obtain rfl := List.isEmpty_iff.1 hnil
    refine ((fits_arguments harguments).append (.nil fun _ => trivial)).mono fun levels hargs => ?_
    have hleaf : Derives levels (nameLexemes none name ++ (argumentLexemes arguments ++ []))
        (.field none name (arguments.map (·.2)) [] []) :=
      .leaf hargs.1 .nil
    exact hleaf
  · next hne =>
    refine ((fits_arguments harguments).append (fits_block h)).mono ?_
    rintro _ ⟨hargs, inner, rfl, hparts⟩
    have hnested : Derives (inner + 1)
        (nameLexemes none name ++ (argumentLexemes arguments ++ ([] ++ blockLexemes parts)))
        (.field none name (arguments.map (·.2)) [] (parts.map (·.2))) :=
      .nested hargs .nil parts (by simpa using hne) hparts
    exact hnested

end Selection

/-- A text of one operation without a name, variables and directives. -/
def operationLexemes (kind : OperationKind) (parts : List (List Lexeme × Selection)) :
    List Lexeme :=
  .name kind.keyword :: Selection.blockLexemes parts

/-- A keyword before a block is a document. -/
theorem Document.derives_of_block (kind : OperationKind) {parts : List (List Lexeme × Selection)}
    {selections : List Selection}
    (hblock : Selection.BlockDerives maxLevels (Selection.blockLexemes parts) selections) :
    Document.Derives (operationLexemes kind parts) [.operation kind none [] [] selections] := by
  have hoperation : RequestDefinition.Derives maxLevels
      (.name kind.keyword :: (titleLexemes none ++ ([] ++ ([] ++ Selection.blockLexemes parts))))
      (.operation kind none [] [] selections) :=
    .operation .none .nil hblock
  refine ⟨List.cons_ne_nil _ _, ?_⟩
  simpa [operationLexemes, titleLexemes] using Sequence.cons hoperation .nil

/-- An operation that does not nest too deep is a document. -/
theorem Document.derives_operation (kind : OperationKind) {parts : List (List Lexeme × Selection)}
    (hne : parts ≠ []) (h : ∀ part ∈ parts, Selection.Fits part.1 part.2)
    (hnesting : nesting 0 (operationLexemes kind parts) ≤ maxLevels) :
    Document.Derives (operationLexemes kind parts)
      [.operation kind none [] [] (parts.map (·.2))] := by
  obtain ⟨inner, hlevels, hparts⟩ :=
    ((Selection.fits_block h).cons (l := .name kind.keyword) rfl rfl).holds hnesting
  exact derives_of_block kind (hlevels ▸ .block parts hne hparts)

/-- The only field of a request, with its lexemes. -/
abbrev rootParts (name : String) (arguments : List (List Lexeme × String × Value))
    (parts : List (List Lexeme × Selection)) : List (List Lexeme × Selection) :=
  [(Selection.fieldLexemes name arguments parts,
    .field none name (arguments.map (·.2)) [] (parts.map (·.2)))]

theorem fits_rootParts (name : String) {arguments : List (List Lexeme × String × Value)}
    {parts : List (List Lexeme × Selection)}
    (harguments : ∀ part ∈ arguments, Value.Fits part.1 part.2.2)
    (h : ∀ part ∈ parts, Selection.Fits part.1 part.2) :
    ∀ part ∈ rootParts name arguments parts, Selection.Fits part.1 part.2 :=
  List.forall_mem_singleton.2 (Selection.fits_field name harguments h)

/-- The arguments and the selections of a request nest no deeper than the request. -/
theorem nesting_rootParts {kind : OperationKind} {name : String}
    {arguments : List (List Lexeme × String × Value)} {parts : List (List Lexeme × Selection)}
    {levels : Nat} (harguments : ∀ part ∈ arguments, Value.Fits part.1 part.2.2)
    (hnesting : nesting 0 (operationLexemes kind (rootParts name arguments parts)) ≤ levels) :
    (∀ part ∈ arguments, nesting 0 part.1 ≤ levels) ∧
      (parts ≠ [] → nesting 0 (operationLexemes .query parts) ≤ levels) := by
  have hfield : nesting 1 (argumentLexemes arguments ++
      ((if parts.isEmpty then [] else Selection.blockLexemes parts) ++ [.punct '\x7d'])) ≤
        levels := by
    simpa [operationLexemes, Selection.blockLexemes, Selection.fieldLexemes, nesting,
      Lexeme.isOpening, Lexeme.isClosing] using hnesting
  refine ⟨fun part hpart => ?_, fun hne => ?_⟩
  · have hne : arguments.isEmpty = false :=
      List.isEmpty_eq_false_iff.2 (List.ne_nil_of_mem hpart)
    rw [argumentLexemes, hne, if_neg Bool.false_ne_true, List.cons_append,
      List.append_assoc] at hfield
    change nesting 2 _ ≤ levels at hfield
    have hdeep := Fits.nesting_le_of_mem (P := fun part levels =>
      Value.Derives false levels part.1 part.2.2) (fun part hpart =>
        .cons rfl rfl (.cons rfl rfl (harguments part hpart))) hfield hpart
    exact Nat.le_trans (nesting_mono (Nat.zero_le 2) part.1) hdeep
  · obtain ⟨-, hblock⟩ := fits_arguments harguments levels 1 _ hfield
    rw [List.isEmpty_eq_false_iff.2 hne, if_neg Bool.false_ne_true] at hblock
    exact Nat.le_trans (nesting_mono (Nat.zero_le 1) _)
      (Nat.le_trans (nesting_le_append 1 _ _) hblock)

/-- The selections of a request are part of it. -/
theorem mem_operationLexemes_rootParts {kind : OperationKind} {name : String}
    {arguments : List (List Lexeme × String × Value)} {parts : List (List Lexeme × Selection)}
    {part : List Lexeme × Selection} (hpart : part ∈ parts) {l : Lexeme} (hl : l ∈ part.1) :
    l ∈ operationLexemes kind (rootParts name arguments parts) := by
  have hne : parts.isEmpty = false := List.isEmpty_eq_false_iff.2 (List.ne_nil_of_mem hpart)
  have hfield : l ∈ Selection.fieldLexemes name arguments parts := by
    rw [Selection.fieldLexemes, hne, if_neg Bool.false_ne_true]
    exact List.mem_cons_of_mem _ (List.mem_append_right _ (mem_bracketed hpart hl))
  exact List.mem_cons_of_mem _ (mem_bracketed (List.mem_singleton_self _) hfield)

/-- The selections of a request are two levels deep. -/
theorem derives_of_nesting_rootParts {kind : OperationKind} {name : String}
    {arguments : List (List Lexeme × String × Value)} {parts : List (List Lexeme × Selection)}
    {levels : Nat} (harguments : ∀ part ∈ arguments, Value.Fits part.1 part.2.2)
    (h : ∀ part ∈ parts, Selection.Fits part.1 part.2)
    (hnesting : nesting 0 (operationLexemes kind (rootParts name arguments parts)) ≤ levels + 2) :
    ∀ part ∈ parts, Selection.Derives levels part.1 part.2 := by
  by_cases hne : parts = []
  · subst hne
    exact nofun
  have hfield : Fits (fun levels => ∃ inner, levels = inner + 1 ∧
      ∀ part ∈ parts, Selection.Derives inner part.1 part.2)
      (Selection.fieldLexemes name arguments parts) := by
    rw [Selection.fieldLexemes, List.isEmpty_eq_false_iff.2 hne, if_neg Bool.false_ne_true]
    exact .cons rfl rfl (((fits_arguments harguments).append (Selection.fits_block h)).mono
      fun _ hboth => hboth.2)
  have hblock : Fits (fun levels => ∃ inner, levels = inner + 2 ∧
      ∀ part ∈ parts, Selection.Derives inner part.1 part.2)
      (Selection.blockLexemes (rootParts name arguments parts)) := by
    rw [Selection.blockLexemes, List.flatMap_singleton]
    exact .between rfl rfl hfield fun levels hinner => by
      obtain ⟨inner, rfl, hparts⟩ := hinner
      exact ⟨inner, rfl, hparts⟩
  obtain ⟨inner, hlevels, hparts⟩ := (hblock.cons (l := .name kind.keyword) rfl rfl).holds hnesting
  obtain rfl : levels = inner := by omega
  exact hparts

/-! ## What holds of all lexemes -/

section Lexemes

variable {P : Lexeme → Prop} {α : Type}

theorem forall_mem_flatMap {lexemes : α → List Lexeme} {xs : List α}
    (h : ∀ x ∈ xs, ∀ l ∈ lexemes x, P l) : ∀ l ∈ xs.flatMap lexemes, P l := by
  intro l hl
  obtain ⟨x, hx, hl⟩ := List.mem_flatMap.1 hl
  exact h x hx l hl

/-- Lexemes between two brackets. -/
theorem forall_mem_between (hpunct : ∀ c, P (.punct c)) {used : List Lexeme} (h : ∀ l ∈ used, P l)
    (opening closing : Char) : ∀ l ∈ .punct opening :: (used ++ [.punct closing]), P l := by
  rw [List.forall_mem_cons, List.forall_mem_append, List.forall_mem_singleton]
  exact ⟨hpunct opening, h, hpunct closing⟩

theorem forall_mem_fields (hpunct : ∀ c, P (.punct c)) (hname : ∀ text, P (.name text))
    {parts : List (List Lexeme × String × Value)} (h : ∀ part ∈ parts, ∀ l ∈ part.1, P l) :
    ∀ l ∈ parts.flatMap fieldLexemes, P l := by
  refine forall_mem_flatMap fun part hpart => ?_
  rw [fieldLexemes, List.forall_mem_cons, List.forall_mem_cons]
  exact ⟨hname _, hpunct _, h part hpart⟩

theorem forall_mem_blockLexemes (hpunct : ∀ c, P (.punct c))
    {parts : List (List Lexeme × Selection)} (h : ∀ part ∈ parts, ∀ l ∈ part.1, P l) :
    ∀ l ∈ Selection.blockLexemes parts, P l :=
  forall_mem_between hpunct (forall_mem_flatMap h) _ _

theorem forall_mem_fieldLexemes (hpunct : ∀ c, P (.punct c)) (hname : ∀ text, P (.name text))
    {name : String} {arguments : List (List Lexeme × String × Value)}
    {parts : List (List Lexeme × Selection)} (harguments : ∀ part ∈ arguments, ∀ l ∈ part.1, P l)
    (h : ∀ part ∈ parts, ∀ l ∈ part.1, P l) :
    ∀ l ∈ Selection.fieldLexemes name arguments parts, P l := by
  unfold Selection.fieldLexemes argumentLexemes
  rw [List.forall_mem_cons, List.forall_mem_append]
  refine ⟨hname name, ?_, ?_⟩
  · split
    · exact nofun
    · exact forall_mem_between hpunct (forall_mem_fields hpunct hname harguments) _ _
  · split
    · exact nofun
    · exact forall_mem_blockLexemes hpunct h

theorem forall_mem_operationLexemes (hpunct : ∀ c, P (.punct c)) (hname : ∀ text, P (.name text))
    {kind : OperationKind} {parts : List (List Lexeme × Selection)}
    (h : ∀ part ∈ parts, ∀ l ∈ part.1, P l) : ∀ l ∈ operationLexemes kind parts, P l :=
  List.forall_mem_cons.2 ⟨hname _, forall_mem_blockLexemes hpunct h⟩

end Lexemes

/-! ## Texts -/

/-- Texts with a separator between them that ends a word and is no lexeme. -/
theorem spells_intercalate {α : Type} {text : α → String} {lexemes : α → List Lexeme}
    (separator : String) (hseparator : ∀ cs used, Spells cs used →
      Spells (separator.toList ++ cs) used ∧ EndsWord (separator.toList ++ cs)) {xs : List α}
    (h : ∀ x ∈ xs, Spells (text x).toList (lexemes x)) :
    Spells (separator.intercalate (xs.map text)).toList (xs.flatMap lexemes) := by
  induction xs with
  | nil => exact .nil
  | cons x xs ih =>
    obtain ⟨hx, hxs⟩ := List.forall_mem_cons.1 h
    cases xs with
    | nil => simpa using hx
    | cons y xs =>
      obtain ⟨hspells, hends⟩ := hseparator _ _ (ih hxs)
      simpa [String.intercalate_cons_cons] using hx.append hspells hends

/-- The text of a block of fields. -/
theorem spells_block_of_fields {text : String} {parts : List (List Lexeme × Selection)}
    (h : Spells text.toList (parts.flatMap (·.1))) :
    Spells ('\x7b' :: (text.toList ++ ['\x7d'])) (Selection.blockLexemes parts) :=
  .bracketed (by decide) (by decide) h

/-- Names before values, with commas between them. -/
theorem spells_fields {α : Type} {name text : α → String} {lexemes : α → List Lexeme}
    (value : α → Value) {xs : List α} (hnames : ∀ x ∈ xs, IsName (name x))
    (h : ∀ x ∈ xs, Spells (text x).toList (lexemes x)) :
    Spells (", ".intercalate (xs.map fun x => name x ++ ": " ++ text x)).toList
      ((xs.map fun x => (lexemes x, name x, value x)).flatMap fieldLexemes) := by
  rw [List.flatMap_map]
  refine spells_intercalate ", "
    (fun cs used hused => ⟨.comma (.blank hused), endsWord_cons.2 rfl⟩) ?_
  intro x hx
  have hcolon : Spells (':' :: ' ' :: (text x).toList) (.punct ':' :: lexemes x) :=
    .punct (by decide) (.blank (h x hx))
  have hfield := (Spells.name (hnames x hx)).append hcolon (endsWord_cons.2 rfl)
  simpa [fieldLexemes] using hfield

/-- A text that spells an operation is read as it, if it does not nest too deep. -/
theorem Document.parse_of_spells {text : String} {kind : OperationKind}
    {parts : List (List Lexeme × Selection)} (hne : parts ≠ [])
    (hspells : Spells text.toList (operationLexemes kind parts))
    (hread : ∀ part ∈ parts, ∀ l ∈ part.1, l ≠ .bad)
    (hfits : ∀ part ∈ parts, Selection.Fits part.1 part.2)
    (hnesting : nesting 0 (lexemesOf text.toList) ≤ maxLevels) :
    lexemesOf text.toList = operationLexemes kind parts ∧
      Document.parse text = .ok [.operation kind none [] [] (parts.map (·.2))] := by
  have hall : ∀ l ∈ operationLexemes kind parts, l ≠ .bad :=
    forall_mem_operationLexemes (by simp) (by simp) hread
  have hlexemes := hspells.lexemesOf_eq_self fun hbad => hall _ hbad rfl
  rw [hlexemes] at hnesting
  refine ⟨hlexemes, ?_⟩
  rw [Document.parse_eq_ok_iff, hlexemes]
  exact Document.derives_operation kind hne hfits hnesting

end OperationAtlas.Graphql
