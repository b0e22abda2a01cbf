import Mathlib.Data.List.DropRight
import OperationAtlas.Host.TypeRef.Reader
import OperationAtlas.Proofs.Text.Digits
import OperationAtlas.Proofs.Text.Lines

/-!
# Spellings of type references

`TypeRef.Spells` is the grammar of references: what a text may look like that spells one. The reader
takes exactly these texts (`TypeRef.ofText_reads_spellings`), and a reference has a spelling of its
own among them, the one that `display` writes.

A name ends where no character of a path follows, so a reference is read whole before anything that
stands behind it in a list (`TypeRef.EndsRef`). Each bracket level and each parameter has a
character of its own, so the bounds of the reader are never used up.
-/

namespace OperationAtlas.TypeRef

open Text

/-! ## The grammar -/

/-- Blanks only. -/
def IsBlanks (cs : List Char) : Prop := ∀ c ∈ cs, isBlank c = true

/-- A path that qualifies the name behind it: it ends in a full stop or a colon. -/
inductive IsQualifier : List Char → Prop
  | absent : IsQualifier []
  | path {front : List Char} {mark : Char} (hfront : ∀ c ∈ front, isPathChar c = true)
      (hmark : mark = '.' ∨ mark = ':') : IsQualifier (front ++ [mark])

/-- A text spells a name, which may be qualified, with blanks around it. -/
inductive SpellsName : List Char → String → Prop
  | name {before path name after : List Char} (hbefore : IsBlanks before) (hpath : IsQualifier path)
      (hne : name ≠ []) (hname : ∀ c ∈ name, isNameChar c = true) (hafter : IsBlanks after) :
      SpellsName (before ++ (path ++ name) ++ after) (String.ofList name)

/-- No parameters: brackets around blanks, or no brackets at all. -/
inductive SpellsNothing : List Char → Prop
  | absent : SpellsNothing []
  | brackets {inner after : List Char} (hinner : IsBlanks inner) (hafter : IsBlanks after) :
      SpellsNothing ('<' :: (inner ++ '>' :: after))

/-- What may stand before a closing bracket: one extra comma. -/
inductive SpellsEnd : List Char → Prop
  | absent : SpellsEnd []
  | comma {blanks : List Char} (h : IsBlanks blanks) : SpellsEnd (',' :: blanks)

/-- The text of parameters with commas between them. -/
def joined (parts : List (List Char × TypeRef)) : List Char :=
  [','].intercalate (parts.map (·.1))

/-- A text spells a reference: a plain name, a container with any number of parameters, or a wrapper
around a spelling of the reference. -/
inductive Spells : List Char → TypeRef → Prop
  | plain {text brackets : List Char} {name : String} (htext : SpellsName text name)
      (hcontainer : name ∉ containers) (hwrapper : name ∉ wrappers)
      (hbrackets : SpellsNothing brackets) : Spells (text ++ brackets) (.plain name)
  | empty {text brackets : List Char} {name : String} (htext : SpellsName text name)
      (hcontainer : name ∈ containers) (hbrackets : SpellsNothing brackets) :
      Spells (text ++ brackets) (.list name [])
  | list {text closing after : List Char} {name : String} (parts : List (List Char × TypeRef))
      (htext : SpellsName text name) (hcontainer : name ∈ containers) (hne : parts ≠ [])
      (hparts : ∀ part ∈ parts, Spells part.1 part.2) (hclosing : SpellsEnd closing)
      (hafter : IsBlanks after) :
      Spells (text ++ '<' :: (joined parts ++ (closing ++ '>' :: after)))
        (.list name (parts.map (·.2)))
  | wrapped {text inner closing after : List Char} {name : String} {ref : TypeRef}
      (htext : SpellsName text name) (hwrapper : name ∈ wrappers) (h : Spells inner ref)
      (hclosing : SpellsEnd closing) (hafter : IsBlanks after) :
      Spells (text ++ '<' :: (inner ++ (closing ++ '>' :: after))) ref

/-! ## Characters -/

/-- The characters that are blanks, by number. -/
def blankNumbers : List Nat :=
  [9, 10, 11, 12, 13, 32, 0x85, 0xA0, 0x1680, 0x2000, 0x2001, 0x2002, 0x2003, 0x2004, 0x2005, 0x2006,
    0x2007, 0x2008, 0x2009, 0x200A, 0x2028, 0x2029, 0x202F, 0x205F, 0x3000]

theorem mem_blankNumbers {c : Char} (h : isBlank c = true) : c.toNat ∈ blankNumbers := by
  simp only [isBlank, Bool.or_eq_true, Bool.and_eq_true, decide_eq_true_eq, beq_iff_eq] at h
  simp only [blankNumbers, List.mem_cons, List.not_mem_nil, or_false]
  omega

/-- No blank stands in a path. -/
theorem isPathChar_of_isBlank {c : Char} (h : isBlank c = true) : isPathChar c = false := by
  have hall : ∀ n ∈ blankNumbers, isPathChar (Char.ofNat n) = false := by decide +kernel
  have hc := hall _ (mem_blankNumbers h)
  rwa [Char.ofNat_toNat] at hc

theorem isPathChar_of_isNameChar {c : Char} (h : isNameChar c = true) : isPathChar c = true := by
  simp [isPathChar, h]

theorem isBlank_of_isPathChar {c : Char} (h : isPathChar c = true) : isBlank c = false := by
  by_contra hblank
  rw [isPathChar_of_isBlank (by simpa using hblank)] at h
  cases h

theorem isBlanks_nil : IsBlanks [] := nofun

theorem IsBlanks.append {cs cs' : List Char} (h : IsBlanks cs) (h' : IsBlanks cs') :
    IsBlanks (cs ++ cs') :=
  List.forall_mem_append.2 ⟨h, h'⟩

/-- Blanks at the start of a text are trimmed. -/
theorem trimLeft_append {blanks : List Char} (h : IsBlanks blanks) (cs : List Char) :
    trimLeft (blanks ++ cs) = trimLeft cs :=
  List.dropWhile_append_of_pos h

theorem exists_trimLeft (cs : List Char) : ∃ blanks, IsBlanks blanks ∧ cs = blanks ++ trimLeft cs :=
  ⟨cs.takeWhile isBlank, fun _ hc => List.mem_takeWhile_imp hc,
    List.takeWhile_append_dropWhile.symm⟩

theorem trimLeft_cons {c : Char} (h : isBlank c = false) (cs : List Char) :
    trimLeft (c :: cs) = c :: cs := by
  simp [trimLeft, h]

/-- A character stands behind blanks, or another one does. -/
theorem afterChar?_cons {blanks : List Char} (hblanks : IsBlanks blanks) {d : Char}
    (hd : isBlank d = false) (c : Char) (cs : List Char) :
    afterChar? c (blanks ++ d :: cs) = if d = c then some cs else none := by
  rw [afterChar?, trimLeft_append hblanks, trimLeft_cons hd]

theorem afterChar?_eq_some_iff {c : Char} (hc : isBlank c = false) {cs rest : List Char} :
    afterChar? c cs = some rest ↔ ∃ blanks, IsBlanks blanks ∧ cs = blanks ++ c :: rest := by
  constructor
  · intro h
    obtain ⟨blanks, hblanks, hcs⟩ := exists_trimLeft cs
    rw [afterChar?] at h
    split at h
    · next d rest' htrim =>
      split at h
      · next hd =>
        cases h
        rw [htrim, hd] at hcs
        exact ⟨blanks, hblanks, hcs⟩
      · cases h
    · cases h
  · rintro ⟨blanks, hblanks, rfl⟩
    rw [afterChar?_cons hblanks hc, if_pos rfl]

/-! ## Names -/

theorem IsQualifier.isPathChar {path : List Char} (h : IsQualifier path) :
    ∀ c ∈ path, isPathChar c = true := by
  cases h with
  | absent => nofun
  | path hfront hmark =>
    refine List.forall_mem_append.2 ⟨hfront, List.forall_mem_singleton.2 ?_⟩
    rcases hmark with rfl | rfl <;> simp [TypeRef.isPathChar]

/-- Whether a character is no mark of a path. -/
abbrev isSegmentChar (c : Char) : Bool := !(c == '.' || c == ':')

theorem isSegmentChar_of_isNameChar {c : Char} (h : isNameChar c = true) :
    isSegmentChar c = true := by
  have hmarks : isNameChar '.' = false ∧ isNameChar ':' = false := by decide +kernel
  rw [isSegmentChar, Bool.not_eq_true', Bool.or_eq_false_iff, beq_eq_false_iff_ne,
    beq_eq_false_iff_ne]
  constructor
  · rintro rfl
    rw [hmarks.1] at h
    cases h
  · rintro rfl
    rw [hmarks.2] at h
    cases h

theorem lastSegment_eq (path : List Char) : lastSegment path = path.rtakeWhile isSegmentChar := rfl

/-- The last segment of a path is the name that the rest of the path qualifies. -/
theorem lastSegment_append {path name : List Char} (hpath : IsQualifier path)
    (hname : ∀ c ∈ name, isNameChar c = true) : lastSegment (path ++ name) = name := by
  have hsegment : ∀ c ∈ name.reverse, isSegmentChar c = true := fun c hc =>
    isSegmentChar_of_isNameChar (hname c (List.mem_reverse.1 hc))
  have hstop : path.reverse.takeWhile isSegmentChar = [] := by
    cases hpath with
    | absent => rfl
    | path _ hmark => rcases hmark with rfl | rfl <;> simp
  rw [lastSegment_eq, List.rtakeWhile, List.reverse_append, List.takeWhile_append_of_pos hsegment,
    hstop, List.append_nil, List.reverse_reverse]

/-- Characters of a path are a name behind a qualifier. -/
theorem exists_qualifier {cs : List Char} (h : ∀ c ∈ cs, isPathChar c = true) :
    ∃ path, IsQualifier path ∧ cs = path ++ lastSegment cs ∧
      ∀ c ∈ lastSegment cs, isNameChar c = true := by
  refine ⟨cs.rdropWhile isSegmentChar, ?_, ?_, fun c hc => ?_⟩
  · rcases List.eq_nil_or_concat (cs.rdropWhile isSegmentChar) with hnil | ⟨front, mark, hpath⟩
    · rw [hnil]
      exact .absent
    · have hmark : isSegmentChar mark = false := by
        have hlast := List.rdropWhile_last_not isSegmentChar cs (by simp [hpath])
        simpa [hpath] using hlast
      have hall : ∀ c ∈ front ++ [mark], isPathChar c = true := fun c hc =>
        h c ((List.rdropWhile_prefix isSegmentChar cs).subset (by simpa [hpath] using hc))
      rw [hpath, List.concat_eq_append]
      refine .path (List.forall_mem_append.1 hall).1 ?_
      rwa [isSegmentChar, Bool.not_eq_false', Bool.or_eq_true, beq_iff_eq, beq_iff_eq] at hmark
  · rw [lastSegment_eq, List.rdropWhile_append_rtakeWhile]
  · have hsegment : isSegmentChar c = true := List.mem_rtakeWhile_imp hc
    have hpath := h c (by
      rw [← List.rdropWhile_append_rtakeWhile (p := isSegmentChar) (l := cs)]
      exact List.mem_append_right _ hc)
    rw [isSegmentChar, Bool.not_eq_true'] at hsegment
    simpa [isPathChar, Bool.or_assoc, hsegment] using hpath

/-! ## Reading names -/

/-- The reader of a reference finds a name behind a path, and parameters if a bracket follows. -/
theorem read?_name {levels : Nat} {before path name behind : List Char} (hbefore : IsBlanks before)
    (hpath : IsQualifier path) (hne : name ≠ []) (hname : ∀ c ∈ name, isNameChar c = true)
    (hbehind : ∀ c ∈ behind.head?, isPathChar c = false) :
    read? levels (before ++ (path ++ name) ++ behind) =
      match afterChar? '<' behind with
      | none => (ofName? (String.ofList name) []).map fun ref => (ref, behind)
      | some inner =>
        match levels with
        | 0 => none
        | levels + 1 =>
          (readParameters (read? levels) (inner.length + 1) inner).bind fun found =>
            (ofName? (String.ofList name) found.1).map fun ref => (ref, found.2) := by
  have hall : ∀ c ∈ path ++ name, isPathChar c = true :=
    List.forall_mem_append.2 ⟨hpath.isPathChar, fun c hc => isPathChar_of_isNameChar (hname c hc)⟩
  have htrim : trimLeft (before ++ (path ++ name) ++ behind) = path ++ name ++ behind := by
    obtain ⟨c, cs, hcons⟩ := List.exists_cons_of_ne_nil
      (List.append_ne_nil_of_right_ne_nil path hne)
    rw [List.append_assoc, trimLeft_append hbefore, hcons, List.cons_append,
      trimLeft_cons (isBlank_of_isPathChar (hall c (by simp [hcons])))]
  obtain ⟨htake, hdrop⟩ := takeWhile_append_of_head behind (List.all_eq_true.2 hall) hbehind
  cases hbracket : afterChar? '<' behind <;> cases levels <;> unfold read? <;>
    simp only [htrim, htake, hdrop, lastSegment_append hpath hname, hbracket,
      List.isEmpty_eq_false_iff.2 hne, Bool.false_eq_true, if_false, Option.bind_eq_bind,
      Option.map_eq_bind, Function.comp_def]

/-- What is read as a reference starts with a name behind a path. -/
theorem exists_name_of_read? {levels : Nat} {cs : List Char} {result : TypeRef × List Char}
    (h : read? levels cs = some result) :
    ∃ before path name behind, IsBlanks before ∧ IsQualifier path ∧ name ≠ [] ∧
      (∀ c ∈ name, isNameChar c = true) ∧ (∀ c ∈ behind.head?, isPathChar c = false) ∧
      cs = before ++ (path ++ name) ++ behind := by
  obtain ⟨before, hbefore, hcs⟩ := exists_trimLeft cs
  have hchars : ∀ c ∈ (trimLeft cs).takeWhile isPathChar, isPathChar c = true := fun c hc =>
    List.mem_takeWhile_imp hc
  obtain ⟨path, hpath, hsegment, hname⟩ := exists_qualifier hchars
  refine ⟨before, path, _, (trimLeft cs).dropWhile isPathChar, hbefore, hpath, ?_, hname, ?_, ?_⟩
  · intro hnil
    unfold read? at h
    simp only [hnil, List.isEmpty_nil, if_true] at h
    cases h
  · intro c hc
    have hstop := List.head?_dropWhile_not isPathChar (trimLeft cs)
    rwa [Option.mem_def.1 hc] at hstop
  · rw [← hsegment, List.append_assoc, List.takeWhile_append_dropWhile, ← hcs]

theorem ofName?_eq_some_iff {name : String} {parameters : List TypeRef} {ref : TypeRef} :
    ofName? name parameters = some ref ↔
      name ∈ containers ∧ ref = .list name parameters ∨
      name ∈ wrappers ∧ parameters = [ref] ∨
      name ∉ containers ∧ name ∉ wrappers ∧ parameters = [] ∧ ref = .plain name := by
  have hdistinct : ∀ wrapper ∈ wrappers, wrapper ∉ containers := by decide
  unfold ofName?
  simp only [List.contains_iff_mem]
  split
  · next hcontainer =>
    have hwrapper : name ∉ wrappers := fun hmem => hdistinct name hmem hcontainer
    simp [hcontainer, hwrapper, eq_comm]
  · next hcontainer =>
    split
    · next hwrapper =>
      simp only [hcontainer, hwrapper, false_and, true_and, not_true_eq_false, and_false, or_false,
        false_or]
      split
      · next inner => simp
      · next hother => simpa using fun h => hother ref h
    · next hwrapper =>
      cases parameters <;> simp [hcontainer, hwrapper, eq_comm]

/-! ## Texts that are read -/

theorem joined_cons {part : List Char × TypeRef} {parts : List (List Char × TypeRef)}
    (h : parts ≠ []) : joined (part :: parts) = part.1 ++ ',' :: joined parts := by
  obtain ⟨second, others, rfl⟩ := List.exists_cons_of_ne_nil h
  simp [joined, List.intercalate_cons_cons]

theorem SpellsName.append {text blanks : List Char} {name : String} (h : SpellsName text name)
    (hblanks : IsBlanks blanks) : SpellsName (text ++ blanks) name := by
  cases h with
  | name hbefore hpath hne hname hafter =>
    rw [List.append_assoc _ _ blanks]
    exact .name hbefore hpath hne hname (hafter.append hblanks)

theorem SpellsName.cons {text : List Char} {name : String} (h : SpellsName text name) {blank : Char}
    (hblank : isBlank blank = true) : SpellsName (blank :: text) name := by
  cases h with
  | name hbefore hpath hne hname hafter =>
    rw [← List.cons_append, ← List.cons_append]
    exact .name (List.forall_mem_cons.2 ⟨hblank, hbefore⟩) hpath hne hname hafter

/-- Blanks may stand behind a spelling. -/
theorem Spells.append {text blanks : List Char} {ref : TypeRef} (h : Spells text ref)
    (hblanks : IsBlanks blanks) : Spells (text ++ blanks) ref := by
  have hnothing : ∀ {text brackets : List Char} {name : String}, SpellsName text name →
      SpellsNothing brackets → ∃ text' brackets', text ++ brackets ++ blanks = text' ++ brackets' ∧
        SpellsName text' name ∧ SpellsNothing brackets' := by
    intro text brackets name htext hbrackets
    cases hbrackets with
    | absent => exact ⟨text ++ blanks, [], by simp, htext.append hblanks, .absent⟩
    | @brackets inner after hinner hafter =>
      exact ⟨text, _, by simp, htext, .brackets hinner (hafter.append hblanks)⟩
  cases h with
  | plain htext hcontainer hwrapper hbrackets =>
    obtain ⟨text', brackets', heq, htext', hbrackets'⟩ := hnothing htext hbrackets
    rw [heq]
    exact .plain htext' hcontainer hwrapper hbrackets'
  | empty htext hcontainer hbrackets =>
    obtain ⟨text', brackets', heq, htext', hbrackets'⟩ := hnothing htext hbrackets
    rw [heq]
    exact .empty htext' hcontainer hbrackets'
  | list parts htext hcontainer hne hparts hclosing hafter =>
    have hlist := Spells.list parts htext hcontainer hne hparts hclosing (hafter.append hblanks)
    simpa using hlist
  | wrapped htext hwrapper hinner hclosing hafter =>
    have hwrapped := Spells.wrapped htext hwrapper hinner hclosing (hafter.append hblanks)
    simpa using hwrapped

/-- A blank may stand before a spelling. -/
theorem Spells.cons {text : List Char} {ref : TypeRef} (h : Spells text ref) {blank : Char}
    (hblank : isBlank blank = true) : Spells (blank :: text) ref := by
  cases h with
  | plain htext hcontainer hwrapper hbrackets =>
    exact .plain (htext.cons hblank) hcontainer hwrapper hbrackets
  | empty htext hcontainer hbrackets => exact .empty (htext.cons hblank) hcontainer hbrackets
  | list parts htext hcontainer hne hparts hclosing hafter =>
    exact .list parts (htext.cons hblank) hcontainer hne hparts hclosing hafter
  | wrapped htext hwrapper hinner hclosing hafter =>
    exact .wrapped (htext.cons hblank) hwrapper hinner hclosing hafter

/-- What a reader of references takes is a spelling. -/
def TakesSpellings (readOne : List Char → Option (TypeRef × List Char)) : Prop :=
  ∀ cs ref rest, readOne cs = some (ref, rest) → ∃ used, cs = used ++ rest ∧ Spells used ref

/-- Parameters that are read are spelled up to the closing bracket. -/
theorem exists_parts_of_readParameters {readOne : List Char → Option (TypeRef × List Char)}
    (hone : TakesSpellings readOne) :
    ∀ {n : Nat} {cs rest : List Char} {parameters : List TypeRef},
      readParameters readOne n cs = some (parameters, rest) →
      (parameters = [] ∧ ∃ blanks, IsBlanks blanks ∧ cs = blanks ++ '>' :: rest) ∨
      ∃ parts closing, parts ≠ [] ∧ parameters = parts.map (·.2) ∧
        (∀ part ∈ parts, Spells part.1 part.2) ∧ SpellsEnd closing ∧
        cs = joined parts ++ (closing ++ '>' :: rest)
  | 0, _, _, _, h => by cases h
  | n + 1, cs, rest, parameters, h => by
      rw [readParameters] at h
      split at h
      · next after hclosing =>
        cases h
        exact .inl ⟨rfl, (afterChar?_eq_some_iff (by decide)).1 hclosing⟩
      · rw [Option.bind_eq_bind, Option.bind_eq_some_iff] at h
        obtain ⟨⟨parameter, behind⟩, hread, h⟩ := h
        obtain ⟨used, rfl, hused⟩ := hone _ _ _ hread
        right
        dsimp only at h
        split at h
        · next after hcomma =>
          obtain ⟨blanks, hblanks, rfl⟩ := (afterChar?_eq_some_iff (by decide)).1 hcomma
          obtain ⟨⟨others, rest'⟩, hothers, h⟩ := Option.bind_eq_some_iff.1 h
          cases h
          rcases exists_parts_of_readParameters hone hothers with
            ⟨rfl, blanks', hblanks', rfl⟩ | ⟨parts, closing, hne, rfl, hparts, hclosing, rfl⟩
          · exact ⟨[(used ++ blanks, parameter)], ',' :: blanks', List.cons_ne_nil _ _, rfl,
              List.forall_mem_singleton.2 (hused.append hblanks), .comma hblanks',
              by simp [joined]⟩
          · refine ⟨(used ++ blanks, parameter) :: parts, closing, List.cons_ne_nil _ _, rfl,
              List.forall_mem_cons.2 ⟨hused.append hblanks, hparts⟩, hclosing, ?_⟩
            simp [joined_cons hne]
        · obtain ⟨rest', hclosing, h⟩ := Option.bind_eq_some_iff.1 h
          cases h
          obtain ⟨blanks, hblanks, rfl⟩ := (afterChar?_eq_some_iff (by decide)).1 hclosing
          exact ⟨[(used ++ blanks, parameter)], [], List.cons_ne_nil _ _, rfl,
            List.forall_mem_singleton.2 (hused.append hblanks), .absent, by simp [joined]⟩

/-- The reader of references takes spellings. -/
theorem takesSpellings_read? : ∀ levels, TakesSpellings (read? levels)
  | levels, cs, ref, rest, h => by
      obtain ⟨before, path, name, behind, hbefore, hpath, hne, hname, hbehind, rfl⟩ :=
        exists_name_of_read? h
      rw [read?_name hbefore hpath hne hname hbehind] at h
      have htext : SpellsName (before ++ (path ++ name)) (String.ofList name) := by
        have hspells : SpellsName (before ++ (path ++ name) ++ []) (String.ofList name) :=
          .name hbefore hpath hne hname isBlanks_nil
        rwa [List.append_nil] at hspells
      split at h
      · obtain ⟨ref', hmeans, h⟩ := Option.map_eq_some_iff.1 h
        cases h
        refine ⟨before ++ (path ++ name) ++ [], by simp, ?_⟩
        rcases ofName?_eq_some_iff.1 hmeans with
          ⟨hcontainer, rfl⟩ | ⟨-, hnil⟩ | ⟨hcontainer, hwrapper, -, rfl⟩
        · exact .empty htext hcontainer .absent
        · cases hnil
        · exact .plain htext hcontainer hwrapper .absent
      · next inner hopening =>
        obtain ⟨blanks, hblanks, rfl⟩ := (afterChar?_eq_some_iff (by decide)).1 hopening
        split at h
        · cases h
        · next levels =>
          obtain ⟨⟨parameters, rest'⟩, hread, h⟩ := Option.bind_eq_some_iff.1 h
          obtain ⟨ref', hmeans, h⟩ := Option.map_eq_some_iff.1 h
          cases h
          replace htext := htext.append hblanks
          rcases exists_parts_of_readParameters (takesSpellings_read? levels) hread with
            ⟨rfl, inner', hinner, rfl⟩ | ⟨parts, closing, hparts_ne, rfl, hparts, hclosing, rfl⟩
          · refine ⟨before ++ (path ++ name) ++ blanks ++ '<' :: (inner' ++ ['>']), by simp, ?_⟩
            have hbrackets : SpellsNothing ('<' :: (inner' ++ ['>'])) := .brackets hinner isBlanks_nil
            rcases ofName?_eq_some_iff.1 hmeans with
              ⟨hcontainer, rfl⟩ | ⟨-, hnil⟩ | ⟨hcontainer, hwrapper, -, rfl⟩
            · exact .empty htext hcontainer hbrackets
            · cases hnil
            · exact .plain htext hcontainer hwrapper hbrackets
          · refine ⟨before ++ (path ++ name) ++ blanks ++
              '<' :: (joined parts ++ (closing ++ ['>'])), by simp, ?_⟩
            rcases ofName?_eq_some_iff.1 hmeans with
              ⟨hcontainer, rfl⟩ | ⟨hwrapper, hsingle⟩ | ⟨-, -, hnil, -⟩
            · exact .list parts htext hcontainer hparts_ne hparts hclosing isBlanks_nil
            · obtain ⟨part, rfl, rfl⟩ := List.map_eq_singleton_iff.1 hsingle
              have hinner := List.forall_mem_singleton.1 hparts
              simpa [joined] using Spells.wrapped htext hwrapper hinner hclosing isBlanks_nil
            · exact absurd (List.map_eq_nil_iff.1 hnil) hparts_ne

/-! ## Spellings are read -/

/-- A reference before the given text ends there. -/
def EndsRef (rest : List Char) : Prop := ∀ c ∈ rest.head?, c = ',' ∨ c = '>'

theorem endsRef_cons {c : Char} (h : c = ',' ∨ c = '>') (cs : List Char) : EndsRef (c :: cs) := by
  rintro _ ⟨⟩
  exact h

/-- Neither a path nor a bracket goes on behind blanks where a reference ends. -/
theorem EndsRef.behind {blanks rest : List Char} (h : EndsRef rest) (hblanks : IsBlanks blanks) :
    (∀ c ∈ (blanks ++ rest).head?, isPathChar c = false) ∧ afterChar? '<' (blanks ++ rest) = none := by
  have hmarks : isPathChar ',' = false ∧ isPathChar '>' = false := by decide +kernel
  constructor
  · intro c hc
    cases blanks with
    | nil => rcases h c hc with rfl | rfl <;> simp [hmarks]
    | cons blank blanks =>
      cases hc
      exact isPathChar_of_isBlank (hblanks _ List.mem_cons_self)
  · cases rest with
    | nil =>
      have htrim : trimLeft (blanks ++ []) = [] := by rw [trimLeft_append hblanks]; rfl
      rw [afterChar?, htrim]
    | cons c rest =>
      rcases h c rfl with rfl | rfl <;> rw [afterChar?_cons hblanks (by decide), if_neg (by decide)]

/-- No closing bracket stands before a spelling. -/
theorem Spells.afterChar?_eq_none {text : List Char} {ref : TypeRef} (h : Spells text ref)
    (rest : List Char) : afterChar? '>' (text ++ rest) = none := by
  have hname : ∀ {text : List Char} {name : String}, SpellsName text name →
      ∀ rest, afterChar? '>' (text ++ rest) = none := by
    intro text name htext rest
    cases htext with
    | @name before path name after hbefore hpath hne hname hafter =>
      obtain ⟨c, cs, hcons⟩ := List.exists_cons_of_ne_nil
        (List.append_ne_nil_of_right_ne_nil path hne)
      have hc : isPathChar c = true := List.forall_mem_append.2
        ⟨hpath.isPathChar, fun c hc => isPathChar_of_isNameChar (hname c hc)⟩ c (by simp [hcons])
      have hmark : isPathChar '>' = false := by decide +kernel
      rw [hcons, List.append_assoc, List.append_assoc, List.cons_append,
        afterChar?_cons hbefore (isBlank_of_isPathChar hc), if_neg]
      rintro rfl
      rw [hmark] at hc
      cases hc
  cases h with
  | plain htext | empty htext => rw [List.append_assoc]; exact hname htext _
  | list _ htext | wrapped htext => rw [List.append_assoc]; exact hname htext _

/-- A name with parameters in brackets is read if the parameters are. -/
theorem read?_brackets {text inner rest : List Char} {name : String} (htext : SpellsName text name)
    {levels : Nat} {parameters : List TypeRef} {ref : TypeRef}
    (hread : readParameters (read? levels) (inner.length + 1) inner = some (parameters, rest))
    (hmeans : ofName? name parameters = some ref) :
    read? (levels + 1) (text ++ '<' :: inner) = some (ref, rest) := by
  cases htext with
  | @name before path name after hbefore hpath hne hname hafter =>
    have hopening : afterChar? '<' (after ++ '<' :: inner) = some inner :=
      (afterChar?_eq_some_iff (by decide)).2 ⟨after, hafter, rfl⟩
    have hbehind : ∀ c ∈ (after ++ '<' :: inner).head?, isPathChar c = false := by
      have hmark : isPathChar '<' = false := by decide +kernel
      intro c hc
      cases after with
      | nil =>
        cases hc
        exact hmark
      | cons blank blanks =>
        cases hc
        exact isPathChar_of_isBlank (hafter _ List.mem_cons_self)
    rw [List.append_assoc, read?_name hbefore hpath hne hname hbehind, hopening]
    simp only [hread, hmeans, Option.bind_some, Option.map_some]

/-- A name without parameters is read. -/
theorem read?_of_spellsNothing {text brackets rest : List Char} {name : String} {ref : TypeRef}
    {levels : Nat} (htext : SpellsName text name) (hbrackets : SpellsNothing brackets)
    (hmeans : ofName? name [] = some ref) (hlevels : (text ++ brackets).length ≤ levels)
    (hrest : EndsRef rest) :
    ∃ after, IsBlanks after ∧ read? levels (text ++ brackets ++ rest) = some (ref, after ++ rest) := by
  cases hbrackets with
  | absent =>
    cases htext with
    | @name before path name after hbefore hpath hne hname hafter =>
      obtain ⟨hbehind, hopening⟩ := hrest.behind hafter
      refine ⟨after, hafter, ?_⟩
      rw [List.append_nil, List.append_assoc, read?_name hbefore hpath hne hname hbehind, hopening]
      simp only [hmeans, Option.map_some]
  | @brackets inner after hinner hafter =>
    obtain ⟨levels, rfl⟩ : ∃ inner, levels = inner + 1 := by
      rw [List.length_append, List.length_cons] at hlevels
      exact ⟨levels - 1, by omega⟩
    refine ⟨after, hafter, ?_⟩
    have hclosing : readParameters (read? levels) ((inner ++ '>' :: (after ++ rest)).length + 1)
        (inner ++ '>' :: (after ++ rest)) = some ([], after ++ rest) := by
      rw [readParameters, (afterChar?_eq_some_iff (by decide)).2 ⟨inner, hinner, rfl⟩]
    have hread := read?_brackets htext hclosing hmeans
    simpa using hread

/-- A reader of references reads a text before anything that ends a reference, up to blanks. -/
def IsRead (readOne : List Char → Option (TypeRef × List Char)) (part : List Char × TypeRef) :
    Prop :=
  ∀ rest, EndsRef rest →
    ∃ after, IsBlanks after ∧ readOne (part.1 ++ rest) = some (part.2, after ++ rest)

/-- Parameters are read up to the closing bracket if each of them is. -/
theorem readParameters_of_parts {readOne : List Char → Option (TypeRef × List Char)}
    {closing : List Char} (hclosing : SpellsEnd closing) (rest : List Char) :
    ∀ {parts : List (List Char × TypeRef)} {n : Nat}, parts ≠ [] →
      (∀ part ∈ parts, IsRead readOne part) →
      (∀ part ∈ parts, ∀ rest, afterChar? '>' (part.1 ++ rest) = none) → parts.length < n →
      readParameters readOne n (joined parts ++ (closing ++ '>' :: rest)) =
        some (parts.map (·.2), rest)
  | [], _, hne, _, _, _ => absurd rfl hne
  | _ :: _, 0, _, _, _, hn => absurd hn (Nat.not_lt_zero _)
  | [part], n + 1, _, hread, hstart, hn => by
      have hstart := List.forall_mem_singleton.1 hstart
      have hread : IsRead readOne part := List.forall_mem_singleton.1 hread
      have hjoined : joined [part] = part.1 := by simp [joined]
      rw [hjoined, readParameters, hstart]
      cases hclosing with
      | absent =>
        obtain ⟨after, hafter, hpart⟩ := hread ('>' :: rest) (endsRef_cons (.inr rfl) rest)
        simp only [List.nil_append, hpart, Option.bind_eq_bind, Option.bind_some,
          afterChar?_cons hafter (show isBlank '>' = false by decide)]
        rfl
      | @comma blanks hblanks =>
        obtain ⟨n, rfl⟩ : ∃ m, n = m + 1 := by
          rw [List.length_singleton] at hn
          exact ⟨n - 1, by omega⟩
        obtain ⟨after, hafter, hpart⟩ := hread (',' :: (blanks ++ '>' :: rest))
          (endsRef_cons (.inl rfl) _)
        simp only [List.cons_append, hpart, Option.bind_eq_bind, Option.bind_some,
          afterChar?_cons hafter (show isBlank ',' = false by decide), if_true, readParameters,
          afterChar?_cons hblanks (show isBlank '>' = false by decide)]
        rfl
  | part :: second :: parts, n + 1, _, hread, hstart, hn => by
      obtain ⟨hpart, hothers⟩ := List.forall_mem_cons.1 hread
      obtain ⟨hfirst, hstarts⟩ := List.forall_mem_cons.1 hstart
      have hrest := readParameters_of_parts (n := n) hclosing rest (List.cons_ne_nil second parts)
        hothers hstarts (Nat.lt_of_succ_lt_succ hn)
      obtain ⟨after, hafter, hpart⟩ := hpart
        (',' :: (joined (second :: parts) ++ (closing ++ '>' :: rest))) (endsRef_cons (.inl rfl) _)
      rw [joined_cons (List.cons_ne_nil second parts), List.append_assoc, List.cons_append,
        readParameters, hfirst]
      simp only [hpart, Option.bind_eq_bind, Option.bind_some,
        afterChar?_cons hafter (show isBlank ',' = false by decide), if_true, hrest]
      rfl

theorem length_le_joined {parts : List (List Char × TypeRef)} :
    ∀ part ∈ parts, part.1.length ≤ (joined parts).length :=
  fun part hpart => length_le_intercalate part.1 (List.mem_map_of_mem hpart)

theorem length_parts_le (parts : List (List Char × TypeRef)) :
    parts.length ≤ (joined parts).length + 1 := by
  have hcount := length_pieces_le ',' (parts.map (·.1))
  rwa [List.length_map] at hcount

/-- A name with spelled parameters in brackets is read. -/
theorem read?_of_parts {text closing after : List Char} {name : String} {ref : TypeRef}
    {levels : Nat} {parts : List (List Char × TypeRef)} (htext : SpellsName text name)
    (hne : parts ≠ []) (hparts : ∀ part ∈ parts, Spells part.1 part.2)
    (hread : ∀ part ∈ parts, ∀ levels, part.1.length ≤ levels → IsRead (read? levels) part)
    (hclosing : SpellsEnd closing) (hmeans : ofName? name (parts.map (·.2)) = some ref)
    (hlevels : (text ++ '<' :: (joined parts ++ (closing ++ '>' :: after))).length ≤ levels)
    (rest : List Char) :
    read? levels (text ++ '<' :: (joined parts ++ (closing ++ '>' :: after)) ++ rest) =
      some (ref, after ++ rest) := by
  simp only [List.length_append, List.length_cons] at hlevels
  obtain ⟨levels, rfl⟩ : ∃ inner, levels = inner + 1 := ⟨levels - 1, by omega⟩
  have hinner := readParameters_of_parts hclosing (after ++ rest) hne
    (n := (joined parts ++ (closing ++ '>' :: (after ++ rest))).length + 1)
    (fun part hpart => hread part hpart levels
      (Nat.le_trans (length_le_joined part hpart) (by omega)))
    (fun part hpart => (hparts part hpart).afterChar?_eq_none) (by
      have := length_parts_le parts
      simp only [List.length_append, List.length_cons]
      omega)
  have hbrackets := read?_brackets htext hinner hmeans
  simpa using hbrackets

/-- A spelling is read before anything that ends a reference, up to blanks. -/
theorem Spells.isRead {text : List Char} {ref : TypeRef} (h : Spells text ref) :
    ∀ levels, text.length ≤ levels → IsRead (read? levels) (text, ref) := by
  induction h with
  | plain htext hcontainer hwrapper hbrackets =>
    exact fun levels hlevels rest hrest => read?_of_spellsNothing htext hbrackets
      (ofName?_eq_some_iff.2 (.inr (.inr ⟨hcontainer, hwrapper, rfl, rfl⟩))) hlevels hrest
  | empty htext hcontainer hbrackets =>
    exact fun levels hlevels rest hrest => read?_of_spellsNothing htext hbrackets
      (ofName?_eq_some_iff.2 (.inl ⟨hcontainer, rfl⟩)) hlevels hrest
  | @list _ _ after _ parts htext hcontainer hne hparts hclosing hafter ih =>
    exact fun levels hlevels rest _ => ⟨after, hafter, read?_of_parts htext hne hparts ih hclosing
      (ofName?_eq_some_iff.2 (.inl ⟨hcontainer, rfl⟩)) hlevels rest⟩
  | @wrapped text inner closing after _ ref htext hwrapper hinner hclosing hafter ih =>
    intro levels hlevels rest _
    have hjoined : joined [(inner, ref)] = inner := by simp [joined]
    have hbound : (text ++ '<' :: (joined [(inner, ref)] ++ (closing ++ '>' :: after))).length ≤
        levels := by
      rwa [hjoined]
    have hread := read?_of_parts htext (List.cons_ne_nil (inner, ref) [])
      (List.forall_mem_singleton.2 hinner) (List.forall_mem_singleton.2 ih) hclosing
      (ofName?_eq_some_iff.2 (.inr (.inl ⟨hwrapper, rfl⟩))) hbound rest
    rw [hjoined] at hread
    exact ⟨after, hafter, hread⟩

/-- A text is read as a reference exactly if it spells it. -/
theorem parse?_eq_some_iff {text : String} {ref : TypeRef} :
    parse? text = some ref ↔ Spells text.toList ref := by
  constructor
  · intro h
    unfold parse? at h
    dsimp only at h
    split at h
    · next rest hread =>
      split at h
      · next hblank =>
        cases h
        obtain ⟨used, hused, hspells⟩ := takesSpellings_read? _ _ _ _ hread
        rw [hused]
        exact hspells.append (List.all_eq_true.1 hblank)
      · cases h
    · cases h
  · intro h
    obtain ⟨after, hafter, hread⟩ := h.isRead _ (Nat.le_refl _) [] nofun
    rw [List.append_nil, List.append_nil] at hread
    unfold parse?
    simp only [hread]
    rw [if_pos (List.all_eq_true.2 hafter)]

/-! ## The canonical spelling -/

/-- A name spells itself. -/
theorem SpellsName.self {text : List Char} {name : String} (h : SpellsName text name) :
    SpellsName name.toList name := by
  cases h with
  | name _ _ hne hname _ =>
    have hself := SpellsName.name isBlanks_nil .absent hne hname isBlanks_nil
    simpa using hself

/-- References that are spelled by their canonical spellings are so with commas between them. -/
theorem exists_parts_of_displayAll : ∀ {refs : List TypeRef}, refs ≠ [] →
    (∀ ref ∈ refs, Spells ref.display.toList ref) →
    ∃ parts, parts ≠ [] ∧ refs = parts.map (·.2) ∧ (∀ part ∈ parts, Spells part.1 part.2) ∧
      (displayAll refs).toList = joined parts
  | [], hne, _ => absurd rfl hne
  | [ref], _, h =>
      have href : Spells ref.display.toList ref := h ref List.mem_cons_self
      ⟨[(ref.display.toList, ref)], List.cons_ne_nil _ _, rfl, List.forall_mem_singleton.2 href,
        by simp [joined, displayAll]⟩
  | ref :: second :: refs, _, h => by
      obtain ⟨href, hothers⟩ := List.forall_mem_cons.1 h
      obtain ⟨parts, hne, hrefs, hparts, hjoined⟩ :=
        exists_parts_of_displayAll (List.cons_ne_nil second refs) hothers
      obtain ⟨part, parts, rfl⟩ := List.exists_cons_of_ne_nil hne
      obtain ⟨hpart, hrest⟩ := List.forall_mem_cons.1 hparts
      -- the blank behind a comma stands before the next parameter
      have hblank : joined ((' ' :: part.1, part.2) :: parts) = ' ' :: joined (part :: parts) := by
        by_cases hnil : parts = []
        · simp [joined, hnil]
        · rw [joined_cons hnil, joined_cons hnil, List.cons_append]
      refine ⟨(ref.display.toList, ref) :: (' ' :: part.1, part.2) :: parts, List.cons_ne_nil _ _,
        by rw [hrefs]; rfl, List.forall_mem_cons.2 ⟨href, List.forall_mem_cons.2
          ⟨hpart.cons (by decide), hrest⟩⟩, ?_⟩
      rw [joined_cons (List.cons_ne_nil _ _), hblank, ← hjoined, displayAll]
      · simp
      · nofun

/-- What has a spelling is spelled by its canonical spelling. -/
theorem Spells.display {text : List Char} {ref : TypeRef} (h : Spells text ref) :
    Spells ref.display.toList ref := by
  induction h with
  | plain htext hcontainer hwrapper _ =>
    have hplain := Spells.plain htext.self hcontainer hwrapper .absent
    simpa [TypeRef.display] using hplain
  | empty htext hcontainer _ =>
    have hempty := Spells.empty htext.self hcontainer (.brackets isBlanks_nil isBlanks_nil)
    simpa [TypeRef.display, displayAll] using hempty
  | list parts htext hcontainer hne _ _ _ ih =>
    have hsome : parts.map (·.2) ≠ [] := by simpa using hne
    obtain ⟨parts', hne', hrefs, hparts, hjoined⟩ :=
      exists_parts_of_displayAll hsome (List.forall_mem_map.2 ih)
    have hlist := Spells.list parts' htext.self hcontainer hne' hparts .absent isBlanks_nil
    rw [← hrefs, ← hjoined] at hlist
    simpa [TypeRef.display] using hlist
  | wrapped _ _ _ _ _ ih => exact ih

theorem ofText_eq_ok_iff {text : String} {ref : TypeRef} :
    ofText text = .ok ref ↔ Spells text.toList ref := by
  rw [← parse?_eq_some_iff, ofText]
  cases parse? text <;> simp

/-- A text is read as a reference exactly if it is a spelling of it, and every text that spells no
reference is named as the one that is not valid. A reference that was read is read again from its
canonical spelling. -/
theorem ofText_reads_spellings (text : String) :
    (∀ ref, ofText text = .ok ref ↔ Spells text.toList ref) ∧
      ((∀ ref, ¬ Spells text.toList ref) ↔ ofText text = .error (.invalidTypeRef text)) ∧
      ∀ ref, ofText text = .ok ref → ofText ref.display = .ok ref := by
  refine ⟨fun ref => ofText_eq_ok_iff, ?_, fun ref h => ?_⟩
  · simp only [← parse?_eq_some_iff, ofText]
    cases parse? text <;> simp
  · rw [ofText_eq_ok_iff] at h ⊢
    exact h.display

/-- A container with two parameters, the first of them in a wrapper, behind paths and with blanks and
an extra comma. -/
example : (ofText " crate::Vec< Option <java.lang.Long>\t, List , > ").map display =
    .ok "Vec<Long, List<>>" := by
  decide +kernel

end OperationAtlas.TypeRef
