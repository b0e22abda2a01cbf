import OperationAtlas.Proofs.Graphql.Composing
import OperationAtlas.Proofs.Graphql.Printing.Documents

/-!
# Spliced arguments

An argument whose value is spliced in need not be one argument: what is spliced may end the value
and bring along more arguments. If it closes the brackets that it opens and no others, then the
arguments that are read are cut where the composed ones are. So there are at least as many
(`length_le_of_fields`), and if there are not more, then each spliced part is one value
(`derives_of_fields`).
-/

namespace OperationAtlas.Graphql

open Reader

/-! ## Matching brackets -/

/-- The number of brackets that are open behind lexemes if so many are open before them. There is
none if a bracket is closed that is not open. -/
def openAfter : Nat → List Lexeme → Option Nat
  | depth, [] => some depth
  | depth, l :: ls =>
    if l.isOpening then openAfter (depth + 1) ls
    else if l.isClosing then if depth = 0 then none else openAfter (depth - 1) ls
    else openAfter depth ls

/-- Every bracket that is opened is closed, and no other. -/
def Balanced (used : List Lexeme) : Prop :=
  openAfter 0 used = some 0

theorem openAfter_append (depth : Nat) (ls ls' : List Lexeme) :
    openAfter depth (ls ++ ls') = (openAfter depth ls).bind fun depth => openAfter depth ls' := by
  induction ls generalizing depth with
  | nil => rfl
  | cons l ls ih =>
    rw [List.cons_append, openAfter, openAfter]
    split
    · exact ih _
    · split
      · split
        · rfl
        · exact ih _
      · exact ih _

/-- Brackets that are open all along change nothing. -/
theorem openAfter_add {depth after : Nat} {ls : List Lexeme} (h : openAfter depth ls = some after)
    (outer : Nat) : openAfter (depth + outer) ls = some (after + outer) := by
  induction ls generalizing depth with
  | nil =>
    cases h
    rfl
  | cons l ls ih =>
    unfold openAfter at h ⊢
    split
    · next hopening =>
      rw [if_pos hopening] at h
      rw [Nat.add_right_comm]
      exact ih h
    · next hopening =>
      rw [if_neg hopening] at h
      split
      · next hclosing =>
        rw [if_pos hclosing] at h
        split at h
        · cases h
        · next hdepth =>
          rw [if_neg (by omega), Nat.sub_add_comm (Nat.pos_of_ne_zero hdepth)]
          exact ih h
      · next hclosing =>
        rw [if_neg hclosing] at h
        exact ih h

theorem openAfter_closing {l : Lexeme} (h : l.isClosing = true) (ls : List Lexeme) :
    openAfter 0 (l :: ls) = none := by
  rw [openAfter, Lexeme.isOpening_of_isClosing h, if_neg Bool.false_ne_true, if_pos h, if_pos rfl]

namespace Balanced

variable {used used' rest rest' : List Lexeme}

theorem nil : Balanced [] := rfl

theorem openAfter_append (h : Balanced used) (depth : Nat) (rest : List Lexeme) :
    openAfter depth (used ++ rest) = openAfter depth rest := by
  have hshift := openAfter_add h depth
  rw [Nat.zero_add] at hshift
  rw [Graphql.openAfter_append, hshift]
  rfl

theorem cons_iff {l : Lexeme} (hopening : l.isOpening = false) (hclosing : l.isClosing = false) :
    Balanced (l :: used) ↔ Balanced used := by
  rw [Balanced, openAfter, hopening, hclosing]
  rfl

theorem append_iff (h : Balanced used) : Balanced (used ++ used') ↔ Balanced used' := by
  rw [Balanced, h.openAfter_append]
  rfl

theorem flatMap {α : Type} {lexemes : α → List Lexeme} {xs : List α}
    (h : ∀ x ∈ xs, Balanced (lexemes x)) : Balanced (xs.flatMap lexemes) := by
  induction xs with
  | nil => exact nil
  | cons x xs ih =>
    obtain ⟨hx, hxs⟩ := List.forall_mem_cons.1 h
    exact hx.append_iff.2 (ih hxs)

theorem between {opening closing : Lexeme} (hopening : opening.isOpening = true)
    (hclosing : closing.isClosing = true) (h : Balanced used) :
    Balanced (opening :: (used ++ [closing])) := by
  rw [Balanced, openAfter, if_pos hopening, h.openAfter_append, openAfter,
    Lexeme.isOpening_of_isClosing hclosing, if_neg Bool.false_ne_true, if_pos hclosing]
  rfl

/-- What stands between two brackets closes neither, so nothing balanced ends within. -/
theorem eq_nil_of_append_eq_between {opening closing : Lexeme} (hopening : opening.isOpening = true)
    {before after : List Lexeme} (h : Balanced used) (hbefore : Balanced before)
    (heq : before ++ after = opening :: (used ++ [closing])) : before = [] ∨ after = [] := by
  rcases before with _ | ⟨l, before⟩
  · exact .inl rfl
  rcases List.eq_nil_or_concat after with rfl | ⟨after, last, rfl⟩
  · exact .inr rfl
  obtain ⟨rfl, hwithin⟩ := List.cons.inj heq
  rw [List.concat_eq_append, List.append_eq, ← List.append_assoc] at hwithin
  obtain rfl := (List.append_inj' hwithin rfl).1
  -- Behind `before` one bracket is open in the text, but none if it is balanced.
  rw [Balanced, openAfter, if_pos hopening] at hbefore
  rw [Balanced, Graphql.openAfter_append] at h
  obtain ⟨depth, hdepth, -⟩ := Option.bind_eq_some_iff.1 h
  rw [openAfter_add hdepth 1] at hbefore
  cases hbefore

/-- What stands before the first bracket that closes none is the same. -/
theorem eq_of_append_closing {closing closing' : Lexeme} (hclosing : closing.isClosing = true)
    (hclosing' : closing'.isClosing = true) (h : Balanced used) (h' : Balanced used')
    (heq : used ++ closing :: rest = used' ++ closing' :: rest') : used = used' := by
  rcases List.append_eq_append_iff.1 heq with ⟨more, rfl, hmore⟩ | ⟨more, rfl, hmore⟩
  · rcases more with _ | ⟨l, more⟩
    · exact (List.append_nil _).symm
    · obtain ⟨rfl, -⟩ := List.cons.inj hmore
      rw [h.append_iff, Balanced, openAfter_closing hclosing] at h'
      cases h'
  · rcases more with _ | ⟨l, more⟩
    · exact List.append_nil _
    · obtain ⟨rfl, -⟩ := List.cons.inj hmore
      rw [h'.append_iff, Balanced, openAfter_closing hclosing'] at h
      cases h

end Balanced

theorem balanced_fieldLexemes_iff {part : List Lexeme × String × Value} :
    Balanced (fieldLexemes part) ↔ Balanced part.1 := by
  rw [fieldLexemes, Balanced.cons_iff rfl rfl, Balanced.cons_iff rfl rfl]

theorem Value.Derives.balanced {constant : Bool} {levels : Nat} {used : List Lexeme} {v : Value}
    (h : Value.Derives constant levels used v) : Balanced used := by
  induction h with
  | word | int | float | text | var => rfl
  | list parts _ ih => exact .between rfl rfl (.flatMap ih)
  | object parts _ ih =>
    exact .between rfl rfl (.flatMap fun part hpart => balanced_fieldLexemes_iff.2 (ih part hpart))

/-! ## Arguments within balanced texts -/

section Fields

variable {levels : Nat} {given derived others : List (List Lexeme × String × Value)}

/-- Fields do not start with a colon. -/
theorem colon_cons_ne_fields {ls : List Lexeme} :
    .punct ':' :: ls ≠ given.flatMap fieldLexemes := by
  cases given with
  | nil => exact nofun
  | cons part given => exact nofun

/-- No value ends behind a name that starts a field, if the brackets before it match. -/
theorem Value.Derives.eq_nil_of_append {before after : List Lexeme} {v : Value}
    (h : Value.Derives false levels (before ++ after) v) (hbefore : Balanced before)
    (heq : after ++ others.flatMap fieldLexemes = given.flatMap fieldLexemes) : after = [] := by
  by_contra hne
  obtain ⟨l, after, rfl⟩ := List.exists_cons_of_ne_nil hne
  rcases given with _ | ⟨part, given⟩
  · cases heq
  obtain ⟨rfl, hcolon⟩ := List.cons.inj heq
  rcases after with _ | ⟨l, after⟩
  · exact colon_cons_ne_fields hcolon.symm
  obtain ⟨rfl, -⟩ := List.cons.inj hcolon
  generalize hused : before ++ .name part.2.1 :: .punct ':' :: after = used at h
  have hbrackets : ∀ {c c' : Char} {within : List Lexeme}, (Lexeme.punct c).isOpening = true →
      Balanced within → used ≠ .punct c :: (within ++ [.punct c']) := by
    rintro c c' within hopening hwithin rfl
    rcases hwithin.eq_nil_of_append_eq_between hopening hbefore hused with rfl | hafter
    · cases hused
    · cases hafter
  have hlength := congrArg List.length hused
  cases h with
  | word | int | float | text =>
    simp at hlength
    omega
  | var name =>
    rcases before with _ | ⟨l, before⟩
    · cases hused
    · simp at hlength
      omega
  | list parts hparts =>
    exact hbrackets rfl (.flatMap fun part hpart => (hparts part hpart).balanced) rfl
  | object parts hparts =>
    exact hbrackets rfl
      (.flatMap fun part hpart => balanced_fieldLexemes_iff.2 (hparts part hpart).balanced) rfl

/-- Fields of which a balanced part stands before other fields are cut between both. -/
theorem exists_split {within : List Lexeme} (hwithin : Balanced within)
    (hderived : ∀ part ∈ derived, Value.Derives false levels part.1 part.2.2)
    (heq : within ++ given.flatMap fieldLexemes = derived.flatMap fieldLexemes) :
    ∃ first second, derived = first ++ second ∧ within = first.flatMap fieldLexemes ∧
      given.flatMap fieldLexemes = second.flatMap fieldLexemes := by
  induction derived generalizing within with
  | nil =>
    obtain ⟨rfl, hgiven⟩ := List.append_eq_nil_iff.1 heq
    exact ⟨[], [], rfl, rfl, hgiven⟩
  | cons part derived ih =>
    obtain ⟨hpart, hderived⟩ := List.forall_mem_cons.1 hderived
    rcases within with _ | ⟨l, within⟩
    · exact ⟨[], part :: derived, rfl, rfl, heq⟩
    obtain ⟨rfl, hcolon⟩ := List.cons.inj heq
    rcases within with _ | ⟨l, within⟩
    · exact absurd hcolon.symm colon_cons_ne_fields
    obtain ⟨rfl, htail⟩ := List.cons.inj hcolon
    rw [Balanced.cons_iff rfl rfl, Balanced.cons_iff rfl rfl] at hwithin
    rcases List.append_eq_append_iff.1 htail with ⟨after, hused, hgiven⟩ | ⟨within, rfl, hmore⟩
    · rw [hused] at hpart
      obtain rfl := hpart.eq_nil_of_append hwithin hgiven.symm
      rw [List.append_nil] at hused
      refine ⟨[part], derived, rfl, ?_, hgiven⟩
      rw [List.flatMap_cons, List.flatMap_nil, List.append_nil, fieldLexemes, hused]
    · obtain ⟨first, second, rfl, rfl, hsecond⟩ :=
        ih (hpart.balanced.append_iff.1 hwithin) hderived hmore.symm
      exact ⟨part :: first, second, rfl, rfl, hsecond⟩

/-- Each balanced part is read as one or more arguments, and as one only if it is one value. -/
theorem length_le_of_fields (hgiven : ∀ part ∈ given, Balanced part.1)
    (hderived : ∀ part ∈ derived, Value.Derives false levels part.1 part.2.2)
    (heq : given.flatMap fieldLexemes = derived.flatMap fieldLexemes) :
    given.length ≤ derived.length ∧ (derived.length = given.length →
      ∀ part ∈ given, ∃ v, Value.Derives false levels part.1 v) := by
  induction given generalizing derived with
  | nil => exact ⟨Nat.zero_le _, fun _ => nofun⟩
  | cons part given ih =>
    obtain ⟨hpart, hgiven⟩ := List.forall_mem_cons.1 hgiven
    rcases derived with _ | ⟨read, derived⟩
    · cases heq
    obtain ⟨hread, hderived⟩ := List.forall_mem_cons.1 hderived
    have htail := (List.cons.inj (List.cons.inj heq).2).2
    rcases List.append_eq_append_iff.1 htail with ⟨after, hused, hmore⟩ | ⟨within, hused, hmore⟩
    · rw [hused] at hread
      obtain rfl := hread.eq_nil_of_append hpart hmore.symm
      obtain ⟨hle, hall⟩ := ih hgiven hderived hmore
      rw [List.append_nil] at hread
      refine ⟨Nat.succ_le_succ hle, fun hlength => ?_⟩
      exact List.forall_mem_cons.2 ⟨⟨_, hread⟩, hall (Nat.succ.inj hlength)⟩
    · rw [hused, hread.balanced.append_iff] at hpart
      obtain ⟨first, second, rfl, rfl, hsecond⟩ := exists_split hpart hderived hmore.symm
      obtain ⟨-, hderived⟩ := List.forall_mem_append.1 hderived
      obtain ⟨hle, hall⟩ := ih hgiven hderived hsecond
      simp only [List.length_cons, List.length_append]
      refine ⟨by omega, fun hlength => ?_⟩
      obtain rfl : first = [] := List.eq_nil_of_length_eq_zero (by omega)
      rw [List.flatMap_nil, List.append_nil] at hused
      exact List.forall_mem_cons.2 ⟨⟨_, hused ▸ hread⟩, hall (by omega)⟩

end Fields

/-! ## Spliced requests -/

section Requests

variable {levels : Nat} {given : List (List Lexeme × String × Value)}
  {arguments : List (String × Value)}

/-- The lexemes of the given arguments are read as arguments, which may be cut elsewhere. -/
def AreReadAs (given : List (List Lexeme × String × Value)) (arguments : List (String × Value)) :
    Prop :=
  ∃ levels, ∃ derived : List (List Lexeme × String × Value),
    given.flatMap fieldLexemes = derived.flatMap fieldLexemes ∧ arguments = derived.map (·.2) ∧
      ∀ part ∈ derived, Value.Derives false levels part.1 part.2.2

theorem ArgumentsDerive.areReadAs {args more block : List Lexeme}
    (h : ArgumentsDerive false levels args arguments) (hgiven : ∀ part ∈ given, Balanced part.1)
    (hmore : starts (isPunct '(') more = false) (hblock : starts (isPunct '(') block = false)
    (heq : args ++ more = argumentLexemes given ++ block) : AreReadAs given arguments := by
  unfold argumentLexemes at heq
  cases h with
  | none =>
    split at heq
    · next hnil => exact ⟨levels, [], by rw [List.isEmpty_iff.1 hnil], rfl, nofun⟩
    · subst heq
      simp [starts_cons] at hmore
  | @some levels derived _ hderived =>
    split at heq
    · subst heq
      simp [starts_cons] at hblock
    · simp only [List.cons_append, List.append_assoc, List.nil_append, List.cons.injEq,
        true_and] at heq
      exact ⟨levels, derived, Balanced.eq_of_append_closing rfl rfl
        (.flatMap fun part hpart => balanced_fieldLexemes_iff.2 (hgiven part hpart))
        (.flatMap fun part hpart => balanced_fieldLexemes_iff.2 (hderived part hpart).balanced)
        heq.symm, rfl, hderived⟩

namespace Selection

theorem starts_fieldLexemes_tail {test : Lexeme → Bool} (hopening : test (.punct '(') = false)
    (hbrace : test (.punct '\x7b') = false) (given : List (List Lexeme × String × Value))
    (parts : List (List Lexeme × Selection)) :
    starts test (argumentLexemes given ++ if parts.isEmpty then [] else blockLexemes parts) =
      false := by
  refine starts_append_eq_false ?_ ?_
  · unfold argumentLexemes
    split
    · rfl
    · exact hopening
  · split
    · rfl
    · exact hbrace

theorem eq_of_nameLexemes_append {responseName : Option String} {name name' : String}
    {ls ls' : List Lexeme} (hls : starts (isPunct ':') ls' = false)
    (heq : nameLexemes responseName name ++ ls = .name name' :: ls') : ls = ls' := by
  cases responseName with
  | none => exact (List.cons.inj heq).2
  | some responseName =>
    obtain ⟨-, rfl⟩ := List.cons.inj heq
    cases hls

theorem Derives.areReadAs {name name' : String} {responseName : Option String}
    {parts : List (List Lexeme × Selection)} {directives : List Directive}
    {selections : List Selection} (hgiven : ∀ part ∈ given, Balanced part.1)
    (h : Derives levels (fieldLexemes name given parts)
      (.field responseName name' arguments directives selections)) : AreReadAs given arguments := by
  have hblock :
      Reader.starts (isPunct '(') (if parts.isEmpty then [] else blockLexemes parts) = false := by
    split <;> rfl
  generalize hused : fieldLexemes name given parts = used at h
  cases h with
  | leaf harguments hdirectives =>
    have htail := eq_of_nameLexemes_append (starts_fieldLexemes_tail rfl rfl given parts) hused.symm
    exact harguments.areReadAs hgiven (directives_starts_eq_false hdirectives rfl) hblock htail
  | nested harguments hdirectives =>
    have htail := eq_of_nameLexemes_append (starts_fieldLexemes_tail rfl rfl given parts) hused.symm
    exact harguments.areReadAs hgiven
      (starts_append_eq_false (directives_starts_eq_false hdirectives rfl) rfl) hblock htail

end Selection

namespace Document

/-- Whether a document is one operation with one field at its root, which has arguments of these
names. -/
def Requests (document : Document) (kind : OperationKind) (name : String)
    (argumentNames : List String) : Prop :=
  ∃ title declared directives responseName arguments fieldDirectives selections,
    document = [.operation kind title declared directives
      [.field responseName name arguments fieldDirectives selections]] ∧
    arguments.map (·.1) = argumentNames

variable {kind kind' : OperationKind} {name name' : String} {argumentNames : List String}
  {document : Document}

theorem requests_iff_outline :
    document.Requests kind name argumentNames ↔
      document.outline = [some (kind, [some (name, argumentNames)])] := by
  constructor
  · rintro ⟨title, declared, directives, responseName, arguments, fieldDirectives, selections, rfl,
      rfl⟩
    rfl
  · intro h
    obtain ⟨definition, rfl, hdefinition⟩ := List.map_eq_singleton_iff.1 h
    cases definition with
    | selections | fragment => cases hdefinition
    | operation kind title declared directives inner =>
      simp only [RequestDefinition.outline, Option.some.injEq, Prod.mk.injEq] at hdefinition
      obtain ⟨rfl, hinner⟩ := hdefinition
      obtain ⟨selection, rfl, hselection⟩ := List.map_eq_singleton_iff.1 hinner
      cases selection with
      | spread | inline => cases hselection
      | field responseName name arguments fieldDirectives selections =>
        cases hselection
        exact ⟨title, declared, directives, responseName, arguments, fieldDirectives, selections,
          rfl, rfl⟩

/-- Nothing stands between the kind of an operation and its block if a brace follows the kind. -/
theorem eq_of_block {levels : Nat} {title : Option String} {vars dirs used block : List Lexeme}
    {declared : List VariableDefinition} {directives : List Directive}
    (hdeclared : VariablesDerive levels vars declared)
    (hdirectives : Sequence (DirectiveDerives levels) dirs directives)
    (hblock : starts (isPunct '\x7b') block = true)
    (heq : block = titleLexemes title ++ (vars ++ (dirs ++ used))) : block = used := by
  obtain ⟨parts, rfl, -, hparts⟩ := hdirectives
  cases title with
  | some title =>
    subst heq
    cases hblock
  | none =>
    cases hdeclared with
    | some =>
      subst heq
      cases hblock
    | none =>
      cases parts with
      | nil => exact heq
      | cons part parts =>
        obtain ⟨within, hused, -⟩ := hparts part List.mem_cons_self
        rw [List.flatMap_cons, hused] at heq
        subst heq
        cases hblock

/-- The only field of a request is read from the lexemes of the only field that was composed. -/
theorem Derives.exists_field {selection : Selection} {title : Option String}
    {declared : List VariableDefinition} {directives : List Directive}
    {root : List Lexeme × Selection}
    (h : Derives (operationLexemes kind [root])
      [.operation kind' title declared directives [selection]]) :
    ∃ levels, Selection.Derives levels root.1 selection := by
  obtain ⟨-, definitions, hused, hdefinitions, hderives⟩ := h
  obtain ⟨⟨used, definition⟩, rfl, hdefinition⟩ := List.map_eq_singleton_iff.1 hdefinitions.symm
  obtain rfl : definition = _ := hdefinition
  have hoperation := hderives _ List.mem_cons_self
  rw [List.flatMap_singleton] at hused
  dsimp only at hused hoperation
  cases hoperation with
  | operation hdeclared hdirectives hblock =>
    obtain ⟨-, htail⟩ := List.cons.inj hused
    obtain rfl := eq_of_block hdeclared hdirectives rfl htail
    generalize hblockUsed : Selection.blockLexemes [root] = used at hblock
    generalize hselections : [selection] = selections at hblock
    cases hblock with
    | block parts _ hparts =>
      obtain ⟨⟨used, selection'⟩, rfl, rfl⟩ := List.map_eq_singleton_iff.1 hselections.symm
      have hroot : root.1 = used := by simpa [Selection.blockLexemes] using hblockUsed
      exact ⟨_, hroot ▸ hparts _ List.mem_cons_self⟩

/-- If balanced parts are spliced into the arguments of a request and as many arguments are read,
then each part is one value. -/
theorem Derives.forall_value_of_requests {given : List (List Lexeme × String × Value)}
    {parts : List (List Lexeme × Selection)}
    (h : Derives (operationLexemes kind (rootParts name given parts)) document)
    (hgiven : ∀ part ∈ given, Balanced part.1)
    (hrequests : document.Requests kind' name' argumentNames)
    (hlength : argumentNames.length = given.length) :
    ∀ part ∈ given, ∃ levels v, Value.Derives false levels part.1 v := by
  obtain ⟨title, declared, directives, responseName, arguments, fieldDirectives, selections, rfl,
    rfl⟩ :=
    hrequests
  obtain ⟨_, hfield⟩ := h.exists_field
  obtain ⟨levels, derived, heq, rfl, hderived⟩ := hfield.areReadAs hgiven
  intro part hpart
  simp only [List.length_map] at hlength
  exact ⟨levels, (length_le_of_fields hgiven hderived heq).2 hlength part hpart⟩

end Document

end Requests

end OperationAtlas.Graphql
