import OperationAtlas.Proofs.Graphql.Composing
import OperationAtlas.Proofs.Graphql.Printing.Documents

/-!
# Printed requests with strings

A request for one operation with one field, whose arguments are strings (`Document.ofStrings`), is
printed and read again as such a request, with each string as it is read back
(`Document.parse_text_ofStrings`). A printed string ends where it is read up to, so the texts of two
requests that differ in their strings only are the same exactly if each string is printed alike. So
what is printed of the request that was read back is the same text exactly if all strings are stable
(`Document.text_rereadStrings_iff`).
-/

namespace OperationAtlas.Graphql

open Reader

/-! ## String arguments -/

/-- Arguments that are strings. -/
def stringArguments (strings : List (String × String)) : List (String × Value) :=
  strings.map fun string => (string.1, .string string.2)

/-- The lexemes of arguments that are strings. -/
def stringParts (strings : List (String × String)) : List (List Lexeme × String × Value) :=
  strings.map fun string => ([.text string.2], string.1, .string string.2)

/-- The strings of printed arguments as they are read back. -/
def rereadStrings (strings : List (String × String)) : List (String × String) :=
  strings.map fun string => (string.1, String.ofList (reread string.2.toList))

theorem map_stringParts (strings : List (String × String)) :
    (stringParts strings).map (·.2) = stringArguments strings := by
  rw [stringParts, List.map_map]
  rfl

theorem fits_stringParts (strings : List (String × String)) :
    ∀ part ∈ stringParts strings, Value.Fits part.1 part.2.2 :=
  List.forall_mem_map.2 fun string _ => Value.fits_text string.2

/-- The text of an argument that is a string. -/
def stringText (indent : Nat) (string : String × String) : List Char :=
  string.1.toList ++ ':' :: ' ' :: writeString indent string.2.toList

/-- The texts of arguments that are strings, with commas between them. -/
theorem printFields_stringArguments (indent : Nat) (strings : List (String × String)) :
    Value.printFields indent (stringArguments strings) =
      [',', ' '].intercalate (strings.map (stringText indent)) := by
  rw [Value.printFields_eq, stringArguments, List.map_map]
  rfl

theorem spells_stringText (indent : Nat) {string : String × String} (hname : IsName string.1) :
    Spells (stringText indent string)
      (fieldLexemes ([.text (String.ofList (reread string.2.toList))], string.1, .null)) :=
  (Spells.name hname).append (.punct (by decide) (.blank (spells_writeString _ _)))
    (endsWord_cons.2 rfl)

theorem spells_stringTexts (indent : Nat) {strings : List (String × String)}
    (hnames : ∀ string ∈ strings, IsName string.1) :
    Spells ([',', ' '].intercalate (strings.map (stringText indent)))
      ((stringParts (rereadStrings strings)).flatMap fieldLexemes) := by
  induction strings with
  | nil => exact .nil
  | cons string strings ih =>
    obtain ⟨hname, hothers⟩ := List.forall_mem_cons.1 hnames
    cases strings with
    | nil => simpa [stringParts, rereadStrings, fieldLexemes] using spells_stringText indent hname
    | cons next strings =>
      rw [List.map_cons, List.map_cons, List.intercalate_cons_cons, List.append_assoc]
      exact (spells_stringText indent hname).append (.comma (.blank (ih hothers)))
        (endsWord_cons.2 rfl)

theorem printArguments_stringArguments (indent : Nat) {strings : List (String × String)}
    (hne : strings ≠ []) :
    printArguments indent (stringArguments strings) =
      '(' :: ([',', ' '].intercalate (strings.map (stringText indent)) ++ [')']) := by
  obtain ⟨string, strings, rfl⟩ := List.exists_cons_of_ne_nil hne
  rw [← printFields_stringArguments]
  rfl

theorem spells_stringArguments (indent : Nat) {strings : List (String × String)}
    (hnames : ∀ string ∈ strings, IsName string.1) :
    Spells (printArguments indent (stringArguments strings))
      (argumentLexemes (stringParts (rereadStrings strings))) := by
  by_cases hne : strings = []
  · subst hne
    exact .nil
  · have hfields := Spells.bracketed (by decide : '(' ∈ punctuation)
      (by decide : ')' ∈ punctuation) (spells_stringTexts indent hnames)
    rw [printArguments_stringArguments indent hne]
    simpa [argumentLexemes, stringParts, rereadStrings, hne] using hfields

theorem derives_stringArguments (levels : Nat) (strings : List (String × String)) :
    ArgumentsDerive false (levels + 1) (argumentLexemes (stringParts strings))
      (stringArguments strings) := by
  cases strings with
  | nil => exact .none
  | cons string strings =>
    rw [← map_stringParts]
    exact .some _ (by simp [stringParts])
      (List.forall_mem_map.2 fun string _ => .text string.2)

/-! ## Requests -/

/-- A request for one operation with one field, whose arguments are strings. -/
def Document.ofStrings (kind : OperationKind) (name : String) (strings : List (String × String))
    (selections : List Selection) : Document :=
  [.operation kind none [] [] [.field none name (stringArguments strings) [] selections]]

/-- What is printed behind the arguments. -/
def closingText (selections : List Selection) : List Char :=
  (if selections.isEmpty then ['\n'] else ' ' :: Selection.blockText 2 4 selections) ++
    ['\x7d', '\n']

/-- The lexemes behind the arguments. -/
def closingLexemes (parts : List (List Lexeme × Selection)) : List Lexeme :=
  (if parts.isEmpty then [] else Selection.blockLexemes parts) ++ [.punct '\x7d']

theorem endsWord_closingText (selections : List Selection) : EndsWord (closingText selections) := by
  unfold closingText
  split <;> exact endsWord_cons.2 rfl

theorem printBlock_field (name : String) (arguments : List (String × Value))
    (selections : List Selection) :
    Selection.printBlock [.field none name arguments [] selections] =
      '\x7b' :: '\n' :: ' ' :: ' ' ::
        (name.toList ++ (printArguments 2 arguments ++ closingText selections)) := by
  rw [Selection.printBlock, Selection.printAll_eq, List.flatMap_singleton, Selection.print_field,
    Selection.headText, closingText]
  simp only [Selection.namesText, printDirectives, List.flatMap_nil, List.append_nil,
    List.append_assoc]
  rfl

theorem Document.print_ofStrings (kind : OperationKind) (name : String)
    (strings : List (String × String)) (selections : List Selection) :
    (ofStrings kind name strings selections).print =
      kind.keyword.toList ++ ' ' :: '\x7b' :: '\n' :: ' ' :: ' ' ::
        (name.toList ++
          (printArguments 2 (stringArguments strings) ++ closingText selections)) := by
  have hprint : (ofStrings kind name strings selections).print =
      kind.keyword.toList ++ [] ++ [] ++ [] ++ ' ' :: Selection.printBlock
        [.field none name (stringArguments strings) [] selections] :=
    rfl
  rw [hprint, printBlock_field]
  simp only [List.append_nil]

/-- Selections that are faithful are printed behind the arguments as they are read. -/
theorem exists_spells_closingText {levels : Nat} {parts : List (List Lexeme × Selection)}
    (hparts : ∀ part ∈ parts, Selection.Derives levels part.1 part.2)
    (hvalid : ∀ part ∈ parts, ∀ l ∈ part.1, l.IsValid)
    (hfaithful : ∀ part ∈ parts, ∀ l ∈ part.1, l.IsFaithful) :
    ∃ parts' : List (List Lexeme × Selection), parts'.map (·.2) = parts.map (·.2) ∧
      Spells (closingText (parts.map (·.2))) (closingLexemes parts') ∧
      ∀ part ∈ parts', Selection.Derives levels part.1 part.2 := by
  by_cases hne : parts = []
  · subst hne
    exact ⟨[], rfl, .feed (.punct (by decide) (.feed .nil)), nofun⟩
  · have hblockValid : ∀ l ∈ Selection.blockLexemes parts, l.IsValid := by
      rw [Selection.blockLexemes, List.forall_mem_cons, List.forall_mem_append,
        List.forall_mem_singleton]
      have hopening : '\x7b' ∈ punctuation := by decide
      have hclosing : '\x7d' ∈ punctuation := by decide
      exact ⟨hopening, forall_mem_flatMap hvalid, hclosing⟩
    obtain ⟨used, selections, hspells, hblock, -, hsame⟩ :=
      Selection.reprints_blockText (by decide : 0 < 4) hne hblockValid
        (fun part hpart hpartValid => (hparts part hpart).reprints hpartValid 4) 2
    obtain ⟨hbad, rfl⟩ := hsame (forall_mem_blockLexemes (fun _ => trivial) hfaithful)
    obtain ⟨parts', hne', rfl, hselections, hparts'⟩ := hblock hbad
    refine ⟨parts', hselections.symm, ?_, hparts'⟩
    have hclosing : Spells ['\x7d', '\n'] [.punct '\x7d'] := .punct (by decide) (.feed .nil)
    have htail := (Spells.blank hspells).append hclosing (endsWord_cons.2 rfl)
    simpa [closingText, closingLexemes, hne, hne'] using htail

/-- The grammar derives a request with strings if its selections are two levels deep. -/
theorem Document.derives_ofStrings {levels : Nat} (hlevels : levels + 2 = maxLevels)
    (kind : OperationKind) (name : String) (strings : List (String × String))
    {parts : List (List Lexeme × Selection)}
    (hparts : ∀ part ∈ parts, Selection.Derives levels part.1 part.2) :
    Derives (operationLexemes kind (rootParts name (stringParts strings) parts))
      (ofStrings kind name strings (parts.map (·.2))) := by
  have harguments := derives_stringArguments levels strings
  have hroot : Selection.Derives (levels + 1)
      (Selection.fieldLexemes name (stringParts strings) parts)
      (.field none name (stringArguments strings) [] (parts.map (·.2))) := by
    unfold Selection.fieldLexemes
    split
    · next hnil =>
      obtain rfl := List.isEmpty_iff.1 hnil
      have hleaf : Selection.Derives (levels + 1)
          (Selection.nameLexemes none name ++ (argumentLexemes (stringParts strings) ++ []))
          (.field none name (stringArguments strings) [] []) :=
        .leaf harguments .nil
      exact hleaf
    · next hne =>
      have hnested : Selection.Derives (levels + 1)
          (Selection.nameLexemes none name ++
            (argumentLexemes (stringParts strings) ++ ([] ++ Selection.blockLexemes parts)))
          (.field none name (stringArguments strings) [] (parts.map (·.2))) :=
        .nested harguments .nil parts (by simpa using hne) hparts
      exact hnested
  rw [← map_stringParts] at hroot
  rw [ofStrings, ← map_stringParts]
  refine derives_of_block kind (hlevels ▸ ?_)
  exact .block (rootParts name (stringParts strings) parts) (List.cons_ne_nil _ _)
    (List.forall_mem_singleton.2 hroot)

/-- A printed request with strings is read as the request with the strings as they are read back. -/
theorem Document.parse_text_ofStrings {levels : Nat} (hlevels : levels + 2 = maxLevels)
    (kind : OperationKind) {name : String} (hname : IsName name) {strings : List (String × String)}
    (hnames : ∀ string ∈ strings, IsName string.1) {parts : List (List Lexeme × Selection)}
    (hparts : ∀ part ∈ parts, Selection.Derives levels part.1 part.2)
    (hvalid : ∀ part ∈ parts, ∀ l ∈ part.1, l.IsValid)
    (hfaithful : ∀ part ∈ parts, ∀ l ∈ part.1, l.IsFaithful) :
    parse (ofStrings kind name strings (parts.map (·.2))).text =
      .ok (ofStrings kind name (rereadStrings strings) (parts.map (·.2))) := by
  obtain ⟨parts', hselections, hclosing, hparts'⟩ :=
    exists_spells_closingText hparts hvalid hfaithful
  have hderives := derives_ofStrings hlevels kind name (rereadStrings strings) hparts'
  have hspells : Spells (ofStrings kind name strings (parts.map (·.2))).print
      (operationLexemes kind (rootParts name (stringParts (rereadStrings strings)) parts')) := by
    have harguments := (spells_stringArguments 2 hnames).append hclosing (endsWord_closingText _)
    have hfield := (Spells.name hname).append harguments
      ((endsWord_printArguments _ _).append (endsWord_closingText _))
    have hoperation := Spells.word (isName_keyword kind)
      (.punct (c := '\x7b') (by decide) (.feed (.blank (.blank hfield))))
    rw [print_ofStrings]
    simpa [operationLexemes, Selection.blockLexemes, Selection.fieldLexemes, closingLexemes] using
      hoperation
  rw [parse_eq_ok_iff, Document.text, String.toList_ofList,
    hspells.lexemesOf_eq_self hderives.bad_not_mem, ← hselections]
  exact hderives

/-! ## Equal texts -/

/-- A printed string ends where it is read up to. -/
theorem writeString_append_inj {indent : Nat} {text text' rest rest' : List Char}
    (hrest : EndsWord rest) (hrest' : EndsWord rest')
    (h : writeString indent text ++ rest = writeString indent text' ++ rest') :
    writeString indent text = writeString indent text' ∧ rest = rest' := by
  have hfirst := congrArg firstLexeme h
  rw [firstLexeme_writeString indent text hrest,
    firstLexeme_writeString indent text' hrest'] at hfirst
  obtain rfl := (Prod.mk.inj hfirst).2
  exact ⟨List.append_cancel_right h, rfl⟩

theorem stringText_append_inj {indent : Nat} {string string' : String × String}
    {rest rest' : List Char} (hname : string.1 = string'.1) (hrest : EndsWord rest)
    (hrest' : EndsWord rest')
    (h : stringText indent string ++ rest = stringText indent string' ++ rest') :
    writeString indent string.2.toList = writeString indent string'.2.toList ∧ rest = rest' := by
  rw [stringText, stringText, hname, List.append_assoc, List.append_assoc,
    List.append_cancel_left_eq] at h
  exact writeString_append_inj hrest hrest' (List.cons.inj (List.cons.inj h).2).2

/-- Arguments of the same names have the same text only if their strings are printed alike. -/
theorem stringTexts_append_inj {indent : Nat} {rest rest' : List Char}
    {strings strings' : List (String × String)}
    (hnames : strings.map (·.1) = strings'.map (·.1))
    (h : [',', ' '].intercalate (strings.map (stringText indent)) ++ ')' :: rest =
      [',', ' '].intercalate (strings'.map (stringText indent)) ++ ')' :: rest') :
    strings.map (fun string => writeString indent string.2.toList) =
      strings'.map fun string => writeString indent string.2.toList := by
  induction strings generalizing strings' with
  | nil =>
    obtain rfl := List.map_eq_nil_iff.1 hnames.symm
    rfl
  | cons string strings ih =>
    obtain ⟨string', strings', rfl, hname, hothers⟩ := List.map_eq_cons_iff.1 hnames.symm
    rw [List.map_cons, List.map_cons]
    cases strings with
    | nil =>
      obtain rfl := List.map_eq_nil_iff.1 hothers
      simp only [List.map_cons, List.map_nil, List.intercalate_singleton] at h
      obtain ⟨hsame, -⟩ := stringText_append_inj hname.symm (endsWord_cons.2 rfl)
        (endsWord_cons.2 rfl) h
      rw [hsame]
    | cons next strings =>
      obtain ⟨next', strings', rfl, -, -⟩ := List.map_eq_cons_iff.1 hothers
      simp only [List.map_cons, List.intercalate_cons_cons, List.append_assoc] at h
      obtain ⟨hsame, hrest⟩ := stringText_append_inj hname.symm (endsWord_cons.2 rfl)
        (endsWord_cons.2 rfl) h
      rw [hsame, ih hothers.symm (List.cons.inj (List.cons.inj hrest).2).2]

/-- The text of a request with strings is that of the request with the strings as they are read back
exactly if all strings are stable. -/
theorem Document.text_rereadStrings_iff {kind : OperationKind} {name : String}
    {strings : List (String × String)} {selections : List Selection} :
    (ofStrings kind name (rereadStrings strings) selections).text =
        (ofStrings kind name strings selections).text ↔
      ∀ string ∈ strings, IsStable string.2.toList := by
  have hsame : (rereadStrings strings).map (fun string => writeString 2 string.2.toList) =
        strings.map (fun string => writeString 2 string.2.toList) ↔
      ∀ string ∈ strings, IsStable string.2.toList := by
    rw [rereadStrings, List.map_map, List.map_inj_left]
    simp only [Function.comp_apply, String.toList_ofList, writeString_reread_iff]
  have hnames : (rereadStrings strings).map (·.1) = strings.map (·.1) := by
    rw [rereadStrings, List.map_map]
    rfl
  by_cases hne : strings = []
  · subst hne
    exact iff_of_true rfl nofun
  have hne' : rereadStrings strings ≠ [] := by simpa [rereadStrings] using hne
  rw [← hsame, Document.text, Document.text, String.ofList_inj, print_ofStrings, print_ofStrings,
    printArguments_stringArguments 2 hne, printArguments_stringArguments 2 hne']
  simp only [List.append_cancel_left_eq, List.cons.injEq, true_and, List.cons_append,
    List.append_assoc]
  constructor
  · exact stringTexts_append_inj hnames
  · intro h
    have htexts : (rereadStrings strings).map (stringText 2) = strings.map (stringText 2) := by
      rw [rereadStrings, List.map_map, List.map_inj_left] at h ⊢
      intro string hstring
      have hsame := h string hstring
      rw [Function.comp_apply] at hsame ⊢
      rw [stringText, stringText, hsame]
    rw [htexts]

end OperationAtlas.Graphql
