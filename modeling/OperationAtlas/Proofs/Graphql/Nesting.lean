import Mathlib.Order.MinMax
import OperationAtlas.Proofs.Graphql.Documents

/-!
# How deep brackets nest

`nesting` counts the brackets that are open at once in a list of lexemes, without regard to the
grammar. A composed text is derived within the levels of a reader if its lexemes nest no deeper than
these levels. `Fits P used` states this for a part of a text, before any lexemes: what the part
needs is `P` of the levels that are left where the part begins. Each rule of the grammar has a law
for `Fits`, so a composed text needs no count of its levels.

In the other direction, what the grammar derives takes no more levels than it may
(`Document.Derives.nesting_le`).
-/

namespace OperationAtlas.Graphql

open Reader

/-- Whether a lexeme opens a bracket. -/
def Lexeme.isOpening (l : Lexeme) : Bool :=
  l == .punct '(' || l == .punct '[' || l == .punct '\x7b'

/-- Whether a lexeme closes a bracket. -/
def Lexeme.isClosing (l : Lexeme) : Bool :=
  l == .punct ')' || l == .punct ']' || l == .punct '\x7d'

theorem Lexeme.isOpening_of_isClosing {l : Lexeme} (h : l.isClosing = true) :
    l.isOpening = false := by
  simp only [Lexeme.isClosing, Bool.or_eq_true, beq_iff_eq] at h
  rcases h with (rfl | rfl) | rfl <;> rfl

/-- The greatest number of brackets that are open at once, if so many are open at first. -/
def nesting : Nat → List Lexeme → Nat
  | depth, [] => depth
  | depth, l :: ls =>
    if l.isOpening then nesting (depth + 1) ls
    else if l.isClosing then max depth (nesting (depth - 1) ls)
    else nesting depth ls

theorem le_nesting (depth : Nat) (ls : List Lexeme) : depth ≤ nesting depth ls := by
  induction ls generalizing depth with
  | nil => exact Nat.le_refl _
  | cons l ls ih =>
    unfold nesting
    split
    · exact Nat.le_of_succ_le (ih _)
    · split
      · exact Nat.le_max_left _ _
      · exact ih depth

theorem nesting_mono {depth depth' : Nat} (h : depth ≤ depth') (ls : List Lexeme) :
    nesting depth ls ≤ nesting depth' ls := by
  induction ls generalizing depth depth' with
  | nil => exact h
  | cons l ls ih =>
    unfold nesting
    split
    · exact ih (Nat.add_le_add_right h 1)
    · split
      · exact max_le_max h (ih (Nat.sub_le_sub_right h 1))
      · exact ih h

theorem nesting_le_append (depth : Nat) (ls ls' : List Lexeme) :
    nesting depth ls ≤ nesting depth (ls ++ ls') := by
  induction ls generalizing depth with
  | nil => exact le_nesting depth ls'
  | cons l ls ih =>
    rw [List.cons_append, nesting, nesting]
    split
    · exact ih _
    · split
      · exact max_le_max (Nat.le_refl _) (ih _)
      · exact ih _

/-! ## Parts of a text -/

/-- Lexemes that nest no deeper than the levels leave as many brackets open as there were, and `P`
holds of the levels that are left. -/
def Fits (P : Nat → Prop) (used : List Lexeme) : Prop :=
  ∀ levels depth rest, nesting depth (used ++ rest) ≤ levels →
    P (levels - depth) ∧ nesting depth rest ≤ levels

namespace Fits

variable {P Q : Nat → Prop} {used used' : List Lexeme}

theorem mono (h : Fits P used) (hPQ : ∀ levels, P levels → Q levels) : Fits Q used :=
  fun levels depth rest hnesting => (h levels depth rest hnesting).imp_left (hPQ _)

theorem nil (h : ∀ levels, P levels) : Fits P [] := fun _ _ _ hnesting => ⟨h _, hnesting⟩

/-- A lexeme that is no bracket takes no level. -/
theorem cons {l : Lexeme} (hopening : l.isOpening = false) (hclosing : l.isClosing = false)
    (h : Fits P used) : Fits P (l :: used) := by
  intro levels depth rest hnesting
  rw [List.cons_append, nesting, hopening, hclosing] at hnesting
  exact h levels depth rest hnesting

theorem append (h : Fits P used) (h' : Fits Q used') :
    Fits (fun levels => P levels ∧ Q levels) (used ++ used') := by
  intro levels depth rest hnesting
  rw [List.append_assoc] at hnesting
  obtain ⟨hP, hnesting⟩ := h levels depth _ hnesting
  obtain ⟨hQ, hnesting⟩ := h' levels depth rest hnesting
  exact ⟨⟨hP, hQ⟩, hnesting⟩

theorem flatMap {α : Type} {P : α → Nat → Prop} {lexemes : α → List Lexeme} {xs : List α}
    (h : ∀ x ∈ xs, Fits (P x) (lexemes x)) :
    Fits (fun levels => ∀ x ∈ xs, P x levels) (xs.flatMap lexemes) := by
  induction xs with
  | nil => exact .nil fun _ => nofun
  | cons x xs ih =>
    obtain ⟨hx, hxs⟩ := List.forall_mem_cons.1 h
    exact (hx.append (ih hxs)).mono fun levels hall =>
      (List.forall_mem_cons (p := fun x => P x levels)).2 hall

/-- No part of a text nests deeper than the text. -/
theorem nesting_le_of_mem {α : Type} {P : α → Nat → Prop} {lexemes : α → List Lexeme} {xs : List α}
    (h : ∀ x ∈ xs, Fits (P x) (lexemes x)) {levels depth : Nat} {rest : List Lexeme}
    (hnesting : nesting depth (xs.flatMap lexemes ++ rest) ≤ levels) {x : α} (hx : x ∈ xs) :
    nesting depth (lexemes x) ≤ levels := by
  induction xs with
  | nil => cases hx
  | cons y xs ih =>
    obtain ⟨hy, hxs⟩ := List.forall_mem_cons.1 h
    rw [List.flatMap_cons, List.append_assoc] at hnesting
    rcases List.mem_cons.1 hx with rfl | hx
    · exact Nat.le_trans (nesting_le_append _ _ _) hnesting
    · exact ih hxs (hy levels depth _ hnesting).2 hx

/-- What stands between brackets is one level deeper. -/
theorem between {opening closing : Lexeme} (hopening : opening.isOpening = true)
    (hclosing : closing.isClosing = true) (h : Fits P used)
    (hPQ : ∀ levels, P levels → Q (levels + 1)) :
    Fits Q (opening :: (used ++ [closing])) := by
  intro levels depth rest hnesting
  have hnot := Lexeme.isOpening_of_isClosing hclosing
  rw [List.cons_append, List.append_assoc, nesting, if_pos hopening] at hnesting
  have hdeep := Nat.le_trans (le_nesting _ _) hnesting
  obtain ⟨hP, hnesting⟩ := h levels (depth + 1) _ hnesting
  rw [List.singleton_append, nesting, if_neg (by simp [hnot]), if_pos hclosing,
    Nat.add_sub_cancel] at hnesting
  have hlevels : levels - depth = levels - (depth + 1) + 1 := by omega
  exact ⟨hlevels ▸ hPQ _ hP, Nat.le_trans (Nat.le_max_right _ _) hnesting⟩

/-- A whole text that nests no deeper than the levels has what it needs. -/
theorem holds (h : Fits P used) {levels : Nat} (hnesting : nesting 0 used ≤ levels) : P levels :=
  (h levels 0 [] (by rwa [List.append_nil])).1

end Fits

/-! ## Rules of the grammar -/

/-- Lexemes that write a value with the levels that they need. -/
abbrev Value.Fits (used : List Lexeme) (v : Value) : Prop :=
  Graphql.Fits (fun levels => Value.Derives false levels used v) used

/-- A value of one lexeme. -/
theorem Value.fits_singleton {l : Lexeme} {v : Value} (hopening : l.isOpening = false)
    (hclosing : l.isClosing = false) (h : ∀ levels, Value.Derives false levels [l] v) :
    Value.Fits [l] v :=
  .cons hopening hclosing (.nil h)

theorem Value.fits_text (text : String) : Value.Fits [.text text] (.string text) :=
  Value.fits_singleton rfl rfl fun _ => .text text

theorem Value.fits_list (parts : List (List Lexeme × Value))
    (h : ∀ part ∈ parts, Value.Fits part.1 part.2) :
    Value.Fits (.punct '[' :: (parts.flatMap (·.1) ++ [.punct ']'])) (.list (parts.map (·.2))) :=
  .between rfl rfl (.flatMap h) fun _ => .list parts

theorem fits_fields {parts : List (List Lexeme × String × Value)}
    (h : ∀ part ∈ parts, Value.Fits part.1 part.2.2) :
    Fits (fun levels => ∀ part ∈ parts, Value.Derives false levels part.1 part.2.2)
      (parts.flatMap fieldLexemes) :=
  .flatMap fun part hpart => .cons rfl rfl (.cons rfl rfl (h part hpart))

theorem Value.fits_object (parts : List (List Lexeme × String × Value))
    (h : ∀ part ∈ parts, Value.Fits part.1 part.2.2) :
    Value.Fits (.punct '\x7b' :: (parts.flatMap fieldLexemes ++ [.punct '\x7d']))
      (.ofFields (parts.map (·.2))) :=
  .between rfl rfl (fits_fields h) fun _ => .object parts

/-- A value needs no more levels than it has brackets. -/
theorem Value.Derives.fits {levels : Nat} {used : List Lexeme} {v : Value}
    (h : Value.Derives false levels used v) : Value.Fits used v := by
  induction h with
  | word text => exact Value.fits_singleton rfl rfl fun _ => .word text
  | int value => exact Value.fits_singleton rfl rfl fun _ => .int value
  | float value => exact Value.fits_singleton rfl rfl fun _ => .float value
  | text text => exact Value.fits_text text
  | var name => exact .cons rfl rfl (.cons rfl rfl (.nil fun _ => .var name rfl))
  | list parts _ ih => exact Value.fits_list parts ih
  | object parts _ ih => exact Value.fits_object parts ih

namespace Selection

/-- Lexemes that write a selection with the levels that they need. -/
abbrev Fits (used : List Lexeme) (selection : Selection) : Prop :=
  Graphql.Fits (fun levels => Derives levels used selection) used

/-- The selections of a block are one level deeper. -/
theorem fits_block {parts : List (List Lexeme × Selection)}
    (h : ∀ part ∈ parts, Fits part.1 part.2) :
    Graphql.Fits
      (fun levels => ∃ inner, levels = inner + 1 ∧ ∀ part ∈ parts, Derives inner part.1 part.2)
      (blockLexemes parts) :=
  .between rfl rfl (.flatMap h) fun inner hparts => ⟨inner, rfl, hparts⟩

end Selection

/-! ## What is derived -/

/-- Lexemes that take at most so many levels, wherever they stand. -/
def Within (levels : Nat) (used : List Lexeme) : Prop :=
  ∀ depth bound rest, depth + levels ≤ bound → nesting depth rest ≤ bound →
    nesting depth (used ++ rest) ≤ bound

namespace Within

variable {levels : Nat} {used used' : List Lexeme}

theorem nil : Within levels [] := fun _ _ _ _ hrest => hrest

theorem cons {l : Lexeme} (hopening : l.isOpening = false) (hclosing : l.isClosing = false)
    (h : Within levels used) : Within levels (l :: used) := by
  intro depth bound rest hbound hrest
  rw [List.cons_append, nesting, hopening, hclosing]
  exact h depth bound rest hbound hrest

theorem append (h : Within levels used) (h' : Within levels used') :
    Within levels (used ++ used') := by
  intro depth bound rest hbound hrest
  rw [List.append_assoc]
  exact h depth bound _ hbound (h' depth bound rest hbound hrest)

theorem flatMap {α : Type} {lexemes : α → List Lexeme} {xs : List α}
    (h : ∀ x ∈ xs, Within levels (lexemes x)) : Within levels (xs.flatMap lexemes) := by
  induction xs with
  | nil => exact nil
  | cons x xs ih =>
    obtain ⟨hx, hxs⟩ := List.forall_mem_cons.1 h
    exact hx.append (ih hxs)

theorem between {opening closing : Lexeme} (hopening : opening.isOpening = true)
    (hclosing : closing.isClosing = true) (h : Within levels used) :
    Within (levels + 1) (opening :: (used ++ [closing])) := by
  intro depth bound rest hbound hrest
  have hnot := Lexeme.isOpening_of_isClosing hclosing
  have hafter : nesting (depth + 1) (closing :: rest) ≤ bound := by
    rw [nesting, hnot, if_neg Bool.false_ne_true, if_pos hclosing, Nat.add_sub_cancel]
    exact Nat.max_le.2 ⟨by omega, hrest⟩
  rw [List.cons_append, List.append_assoc, nesting, if_pos hopening]
  exact h (depth + 1) bound _ (by omega) hafter

theorem of_sequence {α : Type} {P : List Lexeme → α → Prop} {xs : List α}
    (hsequence : Sequence P used xs) (h : ∀ used x, P used x → Within levels used) :
    Within levels used := by
  obtain ⟨parts, rfl, -, hparts⟩ := hsequence
  exact flatMap fun part hpart => h _ _ (hparts part hpart)

end Within

theorem within_fields {levels : Nat} {parts : List (List Lexeme × String × Value)}
    (h : ∀ part ∈ parts, Within levels part.1) : Within levels (parts.flatMap fieldLexemes) :=
  .flatMap fun part hpart => .cons rfl rfl (.cons rfl rfl (h part hpart))

theorem Value.Derives.within {constant : Bool} {levels : Nat} {used : List Lexeme} {v : Value}
    (h : Value.Derives constant levels used v) : Within levels used := by
  induction h with
  | word | int | float | text => exact .cons rfl rfl .nil
  | var => exact .cons rfl rfl (.cons rfl rfl .nil)
  | list parts _ ih => exact .between rfl rfl (.flatMap ih)
  | object parts _ ih => exact .between rfl rfl (within_fields ih)

theorem ArgumentsDerive.within {constant : Bool} {levels : Nat} {used : List Lexeme}
    {arguments : List (String × Value)} (h : ArgumentsDerive constant levels used arguments) :
    Within levels used := by
  cases h with
  | none => exact .nil
  | some parts _ hparts =>
    exact .between rfl rfl (within_fields fun part hpart => (hparts part hpart).within)

theorem directives_within {levels : Nat} {used : List Lexeme} {directives : List Directive}
    (h : Sequence (DirectiveDerives levels) used directives) : Within levels used := by
  refine .of_sequence h fun used directive hdirective => ?_
  obtain ⟨within, rfl, harguments⟩ := hdirective
  exact .cons rfl rfl (.cons rfl rfl harguments.within)

theorem TypeExpr.Derives.within {levels : Nat} {used : List Lexeme} {type : TypeExpr}
    (h : TypeExpr.Derives levels used type) : Within levels used := by
  have hmark : ∀ levels mark, Within levels (TypeExpr.markLexemes mark) := by
    rintro levels (_ | _)
    · exact .nil
    · exact .cons rfl rfl .nil
  induction h with
  | named name mark => exact .cons rfl rfl (hmark _ mark)
  | @list levels used inner _ mark ih =>
    have hbrackets : Within (levels + 1) (.punct '[' :: (used ++ [.punct ']'])) :=
      .between rfl rfl ih
    simpa using hbrackets.append (hmark _ mark)

namespace Selection

theorem within_block {levels : Nat} {parts : List (List Lexeme × Selection)}
    (h : ∀ part ∈ parts, Within levels part.1) : Within (levels + 1) (blockLexemes parts) :=
  .between rfl rfl (.flatMap h)

theorem Derives.within {levels : Nat} {used : List Lexeme} {selection : Selection}
    (h : Derives levels used selection) : Within levels used := by
  have hnames : ∀ levels responseName name, Within levels (nameLexemes responseName name) := by
    rintro levels (_ | _) name
    · exact .cons rfl rfl .nil
    · exact .cons rfl rfl (.cons rfl rfl (.cons rfl rfl .nil))
  induction h with
  | leaf harguments hdirectives =>
    exact (hnames _ _ _).append (harguments.within.append (directives_within hdirectives))
  | nested harguments hdirectives parts _ _ ih =>
    exact (hnames _ _ _).append (harguments.within.append
      ((directives_within hdirectives).append (within_block ih)))
  | spread _ hdirectives => exact .cons rfl rfl (.cons rfl rfl (directives_within hdirectives))
  | @inline levels onType _ _ hdirectives parts _ _ ih =>
    have hcondition : Within (levels + 1) (conditionLexemes onType) := by
      cases onType
      · exact .nil
      · exact .cons rfl rfl (.cons rfl rfl .nil)
    exact .cons rfl rfl (hcondition.append
      ((directives_within hdirectives).append (within_block ih)))

theorem BlockDerives.within {levels : Nat} {used : List Lexeme} {selections : List Selection}
    (h : BlockDerives levels used selections) : Within levels used := by
  cases h with
  | block parts _ hparts => exact within_block fun part hpart => (hparts part hpart).within

end Selection

theorem VariablesDerive.within {levels : Nat} {used : List Lexeme}
    {declared : List VariableDefinition} (h : VariablesDerive levels used declared) :
    Within levels used := by
  cases h with
  | none => exact .nil
  | @some levels parts _ hparts =>
    refine .between rfl rfl (.flatMap fun part hpart => ?_)
    have hderives := hparts part hpart
    generalize part.1 = used, part.2 = definition at hderives
    cases hderives with
    | bare htype => exact .cons rfl rfl (.cons rfl rfl (.cons rfl rfl htype.within))
    | withDefault htype hvalue =>
      exact .cons rfl rfl (.cons rfl rfl (.cons rfl rfl
        (htype.within.append (.cons rfl rfl hvalue.within))))

theorem RequestDefinition.Derives.within {levels : Nat} {used : List Lexeme}
    {definition : RequestDefinition} (h : RequestDefinition.Derives levels used definition) :
    Within levels used := by
  cases h with
  | selections hblock => exact hblock.within
  | @operation kind name _ _ _ _ _ _ hdeclared hdirectives hblock =>
    have htitle : Within levels (titleLexemes name) := by
      cases name
      · exact .nil
      · exact .cons rfl rfl .nil
    exact .cons rfl rfl (htitle.append (hdeclared.within.append
      ((directives_within hdirectives).append hblock.within)))
  | fragment hdirectives hblock =>
    exact .cons rfl rfl (.cons rfl rfl (.cons rfl rfl (.cons rfl rfl
      ((directives_within hdirectives).append hblock.within))))

/-- A document that is read nests no deeper than can be read. -/
theorem Document.Derives.nesting_le {used : List Lexeme} {document : Document}
    (h : Document.Derives used document) : nesting 0 used ≤ maxLevels := by
  have hwithin : Within maxLevels used := .of_sequence h.2 fun _ _ hdefinition => hdefinition.within
  simpa using hwithin 0 maxLevels [] (by omega) (Nat.zero_le _)

end OperationAtlas.Graphql
