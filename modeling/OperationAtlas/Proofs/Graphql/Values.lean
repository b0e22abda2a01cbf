import OperationAtlas.Graphql.TypeExpr
import OperationAtlas.Graphql.Value
import OperationAtlas.Proofs.Graphql.Reading

/-!
# The grammar of values, directives and types

`Value.Derives constant levels used v` says that the lexemes `used` write the value `v` and open at
most `levels` brackets one within another. The reader of values obeys this grammar
(`Value.takes_read`) and reads all that it derives (`Value.Derives.read`). Arguments, directives and
types have a grammar each, which their readers obey, and what a grammar derives is read before any
lexeme that does not continue it.
-/

namespace OperationAtlas.Graphql

open Reader

/-- The lexemes of a field of an object, or of an argument, given those of its value. -/
def fieldLexemes (part : List Lexeme × String × Value) : List Lexeme :=
  .name part.2.1 :: .punct ':' :: part.1

/-! ## Values -/

/-- Lexemes that write a value with at most so many levels of brackets. -/
inductive Value.Derives (constant : Bool) : Nat → List Lexeme → Value → Prop
  | word {levels : Nat} (text : String) : Derives constant levels [.name text] (.ofWord text)
  | int {levels : Nat} (value : Int) : Derives constant levels [.int value] (.int value)
  | float {levels : Nat} (value : Binary64) : Derives constant levels [.float value] (.float value)
  | text {levels : Nat} (text : String) : Derives constant levels [.text text] (.string text)
  | var {levels : Nat} (name : String) (h : constant = false) :
      Derives constant levels [.punct '$', .name name] (.var name)
  | list {levels : Nat} (parts : List (List Lexeme × Value))
      (h : ∀ part ∈ parts, Derives constant levels part.1 part.2) :
      Derives constant (levels + 1) (.punct '[' :: (parts.flatMap (·.1) ++ [.punct ']']))
        (.list (parts.map (·.2)))
  | object {levels : Nat} (parts : List (List Lexeme × String × Value))
      (h : ∀ part ∈ parts, Derives constant levels part.1 part.2.2) :
      Derives constant (levels + 1) (.punct '\x7b' ::
        (parts.flatMap fieldLexemes ++ [.punct '\x7d']))
        (.ofFields (parts.map (·.2)))

/-- Lexemes that write a name and a value behind a colon. -/
def FieldDerives (constant : Bool) (levels : Nat) (used : List Lexeme) (field : String × Value) :
    Prop :=
  ∃ within, used = fieldLexemes (within, field) ∧ Value.Derives constant levels within field.2

/-- Fields one behind the other, with the lexemes of their values. -/
theorem exists_parts_of_sequence {constant : Bool} {levels : Nat} {used : List Lexeme}
    {fields : List (String × Value)} (h : Sequence (FieldDerives constant levels) used fields) :
    ∃ parts : List (List Lexeme × String × Value), used = parts.flatMap fieldLexemes ∧
      fields = parts.map (·.2) ∧
      ∀ part ∈ parts, Value.Derives constant levels part.1 part.2.2 := by
  obtain ⟨parts, rfl, rfl, hparts⟩ := h
  induction parts with
  | nil => exact ⟨[], rfl, rfl, nofun⟩
  | cons part parts ih =>
    obtain ⟨⟨within, hused, hvalue⟩, hothers⟩ := List.forall_mem_cons.1 hparts
    obtain ⟨parts', hused', hfields, hparts'⟩ := ih hothers
    refine ⟨(within, part.2) :: parts', ?_, ?_, List.forall_mem_cons.2 ⟨hvalue, hparts'⟩⟩
    · rw [List.flatMap_cons, List.flatMap_cons, hused, hused']
    · rw [List.map_cons, List.map_cons, hfields]

theorem takes_readField {constant : Bool} {levels : Nat} {readOne : Reader Value}
    (h : Takes readOne (Value.Derives constant levels)) :
    Takes (Value.readField readOne) (FieldDerives constant levels) := by
  intro ls field rest hread
  obtain ⟨⟨name, ls₁⟩, hname, hread⟩ := bind_eq_ok_iff.1 hread
  obtain ⟨⟨⟨⟩, ls₂⟩, hcolon, hread⟩ := bind_eq_ok_iff.1 hread
  obtain ⟨⟨value, ls₃⟩, hvalue, hread⟩ := bind_eq_ok_iff.1 hread
  cases hread
  obtain ⟨within, rfl, hderives⟩ := h _ _ _ hvalue
  rw [eq_cons_of_name hname, eq_cons_of_punct hcolon]
  exact ⟨fieldLexemes (within, name, value), rfl, within, rfl, hderives⟩

/-- The reader of values obeys the grammar. -/
theorem Value.takes_read (constant : Bool) :
    ∀ levels, Takes (Value.read constant levels) (Value.Derives constant levels)
  | levels, ls, v, rest, h => by
      unfold Value.read at h
      split at h
      · cases h; exact ⟨[_], rfl, .word _⟩
      · cases h; exact ⟨[_], rfl, .int _⟩
      · cases h; exact ⟨[_], rfl, .float _⟩
      · cases h; exact ⟨[_], rfl, .text _⟩
      · split at h
        · cases h
        · next hconstant =>
          obtain ⟨⟨name, ls₁⟩, hname, h⟩ := bind_eq_ok_iff.1 h
          cases h
          rw [eq_cons_of_name hname]
          exact ⟨[_, _], rfl, .var name (by simpa using hconstant)⟩
      · next levels ls₀ =>
        obtain ⟨⟨items, ls₁⟩, hitems, h⟩ := bind_eq_ok_iff.1 h
        obtain ⟨⟨⟨⟩, ls₂⟩, hclosing, h⟩ := bind_eq_ok_iff.1 h
        cases h
        obtain ⟨used, rfl, parts, rfl, rfl, hparts⟩ :=
          takes_many (takes_read constant levels) _ _ _ hitems
        rw [eq_cons_of_punct hclosing]
        exact ⟨_, by simp, .list parts hparts⟩
      · next levels ls₀ =>
        obtain ⟨⟨fields, ls₁⟩, hfields, h⟩ := bind_eq_ok_iff.1 h
        obtain ⟨⟨⟨⟩, ls₂⟩, hclosing, h⟩ := bind_eq_ok_iff.1 h
        cases h
        obtain ⟨used, rfl, hsequence⟩ :=
          takes_many (takes_readField (takes_read constant levels)) _ _ _ hfields
        obtain ⟨parts, rfl, rfl, hparts⟩ := exists_parts_of_sequence hsequence
        rw [eq_cons_of_punct hclosing]
        exact ⟨_, by simp, .object parts hparts⟩
      · cases h

/-- A value starts as values do. -/
theorem Value.Derives.starts {constant : Bool} {levels : Nat} {used : List Lexeme} {v : Value}
    (h : Value.Derives constant levels used v) :
    starts (Value.startsWith constant) used = true := by
  cases h with
  | var name hconstant => simp [Reader.starts, Value.startsWith, hconstant]
  | word | int | float | text | list | object => rfl

/-- Fields one behind the other are read if their values are. -/
theorem isRead_fields {constant : Bool} {levels : Nat} {parts : List (List Lexeme × String × Value)}
    (h : ∀ part ∈ parts, ∀ rest,
      Value.read constant levels (part.1 ++ rest) = .ok (part.2.2, rest)) :
    ∀ field ∈ parts.map fun part => (fieldLexemes part, part.2),
      IsRead isName (Value.readField (Value.read constant levels)) (fun _ => True) field := by
  intro field hfield
  obtain ⟨part, hpart, rfl⟩ := List.mem_map.1 hfield
  exact ⟨rfl, fun rest _ => by simp [Value.readField, fieldLexemes, h part hpart]⟩

/-- What the grammar derives is read before any lexemes. -/
theorem Value.Derives.read {constant : Bool} {levels : Nat} {used : List Lexeme} {v : Value}
    (h : Value.Derives constant levels used v) (rest : List Lexeme) :
    Value.read constant levels (used ++ rest) = .ok (v, rest) := by
  induction h generalizing rest with
  | word | int | float | text => simp [Value.read]
  | var name hconstant => simp [Value.read, hconstant]
  | @list levels parts hparts ih =>
    have hmany := many_of_parts (Value.startsWith constant) (Value.read constant levels)
      (fun _ => True) (.punct ']' :: rest) (fun _ _ _ => trivial) trivial rfl
      fun part hpart => ⟨(hparts part hpart).starts, fun rest _ => ih part hpart rest⟩
    simp only [List.cons_append, List.append_assoc, List.nil_append, Value.read, hmany, ok_bind,
      punct_cons]
  | @object levels parts hparts ih =>
    have hmany := many_of_parts _ _ _ (.punct '\x7d' :: rest) (fun _ _ _ => trivial) trivial rfl
      (isRead_fields ih)
    simp only [List.flatMap_map, List.map_map, Function.comp_def] at hmany
    simp only [List.cons_append, List.append_assoc, List.nil_append, Value.read, hmany, ok_bind,
      punct_cons]

theorem bad_not_mem_fields {parts : List (List Lexeme × String × Value)}
    (h : ∀ part ∈ parts, .bad ∉ part.1) : .bad ∉ parts.flatMap fieldLexemes := by
  rw [List.mem_flatMap]
  rintro ⟨part, hpart, hbad⟩
  simp only [fieldLexemes, List.mem_cons, reduceCtorEq, false_or] at hbad
  exact h part hpart hbad

/-- No rule takes a bad lexeme. -/
theorem Value.Derives.bad_not_mem {constant : Bool} {levels : Nat} {used : List Lexeme} {v : Value}
    (h : Value.Derives constant levels used v) : .bad ∉ used := by
  induction h with
  | word | int | float | text | var => simp
  | list parts _ ih => simpa using not_mem_flatMap_parts ih
  | object parts _ ih => simpa using bad_not_mem_fields ih

/-! ## Arguments and directives -/

/-- Lexemes that write arguments in parentheses, or nothing for none. -/
inductive ArgumentsDerive (constant : Bool) : Nat → List Lexeme → List (String × Value) → Prop
  | none {levels : Nat} : ArgumentsDerive constant levels [] []
  | some {levels : Nat} (parts : List (List Lexeme × String × Value)) (hne : parts ≠ [])
      (h : ∀ part ∈ parts, Value.Derives constant levels part.1 part.2.2) :
      ArgumentsDerive constant (levels + 1)
        (.punct '(' :: (parts.flatMap fieldLexemes ++ [.punct ')'])) (parts.map (·.2))

theorem takes_readArguments (constant : Bool) (levels : Nat) :
    Takes (readArguments constant levels) (ArgumentsDerive constant levels) := by
  intro ls arguments rest h
  obtain ⟨⟨arguments?, ls₁⟩, hread, h⟩ := bind_eq_ok_iff.1 h
  cases h
  obtain ⟨used, rfl, hused⟩ := takes_optional (takes_between fun levels =>
    takes_many1 (takes_readField (Value.takes_read constant levels))) _ _ _ hread
  cases arguments? with
  | none =>
    subst hused
    exact ⟨[], rfl, .none⟩
  | some arguments =>
    obtain ⟨levels, within, rfl, rfl, hne, hsequence⟩ := hused
    obtain ⟨parts, rfl, rfl, hparts⟩ := exists_parts_of_sequence hsequence
    exact ⟨_, rfl, .some parts (by simpa using hne) hparts⟩

/-- Arguments are read before anything but a parenthesis. -/
theorem ArgumentsDerive.read {constant : Bool} {levels : Nat} {used : List Lexeme}
    {arguments : List (String × Value)} (h : ArgumentsDerive constant levels used arguments)
    (rest : List Lexeme) (hrest : starts (isPunct '(') rest = false) :
    readArguments constant levels (used ++ rest) = .ok (arguments, rest) := by
  cases h with
  | none =>
    rw [List.nil_append, readArguments, optional_of_not_starts hrest]
    rfl
  | @some levels parts hne hparts =>
    have hmany := many1_of_parts _ _ _ (.punct ')' :: rest) (fun _ _ _ => trivial) trivial rfl
      (by simpa using hne) (isRead_fields fun part hpart rest => (hparts part hpart).read rest)
    simp only [List.flatMap_map, List.map_map, Function.comp_def] at hmany
    simp only [readArguments, List.cons_append, List.append_assoc, List.nil_append]
    rw [optional_of_starts rfl (between_of_eq hmany)]
    rfl

theorem ArgumentsDerive.bad_not_mem {constant : Bool} {levels : Nat} {used : List Lexeme}
    {arguments : List (String × Value)} (h : ArgumentsDerive constant levels used arguments) :
    .bad ∉ used := by
  cases h with
  | none => simp
  | some parts _ hparts =>
    simpa using bad_not_mem_fields fun part hpart => (hparts part hpart).bad_not_mem

/-- Lexemes that write a directive. -/
def DirectiveDerives (levels : Nat) (used : List Lexeme) (directive : Directive) : Prop :=
  ∃ within, used = .punct '@' :: .name directive.name :: within ∧
    ArgumentsDerive false levels within directive.arguments

theorem takes_readDirectives (levels : Nat) :
    Takes (readDirectives levels) (Sequence (DirectiveDerives levels)) := by
  refine takes_many ?_
  intro ls directive rest h
  obtain ⟨⟨⟨⟩, ls₁⟩, hmark, h⟩ := bind_eq_ok_iff.1 h
  obtain ⟨⟨name, ls₂⟩, hname, h⟩ := bind_eq_ok_iff.1 h
  obtain ⟨⟨arguments, ls₃⟩, harguments, h⟩ := bind_eq_ok_iff.1 h
  cases h
  obtain ⟨within, rfl, hderive⟩ := takes_readArguments _ _ _ _ _ harguments
  rw [eq_cons_of_punct hmark, eq_cons_of_name hname]
  exact ⟨.punct '@' :: .name name :: within, rfl, within, rfl, hderive⟩

/-- Directives are read before anything but another directive and a parenthesis. -/
theorem directives_read {levels : Nat} {used : List Lexeme} {directives : List Directive}
    (h : Sequence (DirectiveDerives levels) used directives) (rest : List Lexeme)
    (hmark : starts (isPunct '@') rest = false) (hrest : starts (isPunct '(') rest = false) :
    readDirectives levels (used ++ rest) = .ok (directives, rest) := by
  obtain ⟨parts, rfl, rfl, hparts⟩ := h
  refine many_of_parts _ _ (fun rest => starts (isPunct '(') rest = false) _ ?_ hrest hmark ?_
  · intro l ls hl
    obtain rfl : l = .punct '@' := by simpa [isPunct] using hl
    rfl
  · intro part hpart
    obtain ⟨within, hused, harguments⟩ := hparts part hpart
    refine ⟨by rw [hused]; rfl, fun rest hrest => ?_⟩
    simp [hused, harguments.read rest hrest]

theorem directives_bad_not_mem {levels : Nat} {used : List Lexeme} {directives : List Directive}
    (h : Sequence (DirectiveDerives levels) used directives) : .bad ∉ used := by
  refine h.not_mem fun used directive hdirective => ?_
  obtain ⟨within, rfl, harguments⟩ := hdirective
  simpa using harguments.bad_not_mem

/-! ## Types -/

namespace TypeExpr

/-- The lexemes of the mark of a type that is never null. -/
def markLexemes : Bool → List Lexeme
  | true => [.punct '!']
  | false => []

/-- A type with or without the mark. -/
def marked : Bool → TypeExpr → TypeExpr
  | true, type => .nonNull type
  | false, type => type

/-- Lexemes that write a type. -/
inductive Derives : Nat → List Lexeme → TypeExpr → Prop
  | named {levels : Nat} (name : String) (mark : Bool) :
      Derives levels (.name name :: markLexemes mark) (marked mark (.named name))
  | list {levels : Nat} {used : List Lexeme} {inner : TypeExpr} (h : Derives levels used inner)
      (mark : Bool) :
      Derives (levels + 1) (.punct '[' :: (used ++ .punct ']' :: markLexemes mark))
        (marked mark (.list inner))

theorem takes_readMark (type : TypeExpr) :
    Takes (readMark type) fun used type' =>
      ∃ mark, used = markLexemes mark ∧ type' = marked mark type := by
  intro ls type' rest h
  unfold readMark at h
  split at h <;> cases h
  · exact ⟨_, rfl, true, rfl, rfl⟩
  · exact ⟨[], rfl, false, rfl, rfl⟩

theorem readMark_of_starts (mark : Bool) (type : TypeExpr) {rest : List Lexeme}
    (hrest : starts (isPunct '!') rest = false) :
    readMark type (markLexemes mark ++ rest) = .ok (marked mark type, rest) := by
  cases mark with
  | true => rfl
  | false =>
    unfold readMark
    split
    · next heq =>
      simp only [markLexemes, List.nil_append] at heq
      simp [heq, starts_cons] at hrest
    · rfl

/-- The reader of types obeys the grammar. -/
theorem takes_read : ∀ levels, Takes (read levels) (Derives levels)
  | levels, ls, type, rest, h => by
      unfold read at h
      split at h
      · obtain ⟨used, rfl, mark, rfl, rfl⟩ := takes_readMark _ _ _ _ h
        exact ⟨_, rfl, .named _ mark⟩
      · next levels ls₀ =>
        obtain ⟨⟨inner, ls₁⟩, hinner, h⟩ := bind_eq_ok_iff.1 h
        obtain ⟨⟨⟨⟩, ls₂⟩, hclosing, hmark⟩ := bind_eq_ok_iff.1 h
        obtain ⟨used', rfl, mark, rfl, rfl⟩ := takes_readMark _ _ _ _ hmark
        obtain ⟨used, rfl, hderives⟩ := takes_read levels _ _ _ hinner
        rw [eq_cons_of_punct hclosing]
        exact ⟨_, by simp, .list hderives mark⟩
      · cases h

/-- A type is read before anything but its mark. -/
theorem Derives.read {levels : Nat} {used : List Lexeme} {type : TypeExpr}
    (h : Derives levels used type) (rest : List Lexeme)
    (hrest : starts (isPunct '!') rest = false) :
    TypeExpr.read levels (used ++ rest) = .ok (type, rest) := by
  induction h generalizing rest with
  | named name mark =>
    rw [List.cons_append, TypeExpr.read]
    exact readMark_of_starts mark _ hrest
  | list _ mark ih =>
    rw [List.cons_append, List.append_assoc, List.cons_append, TypeExpr.read, ih _ rfl]
    simp only [ok_bind, punct_cons]
    exact readMark_of_starts mark _ hrest

theorem Derives.bad_not_mem {levels : Nat} {used : List Lexeme} {type : TypeExpr}
    (h : Derives levels used type) : .bad ∉ used := by
  have hmark : ∀ mark, .bad ∉ markLexemes mark := by rintro (_ | _) <;> simp [markLexemes]
  induction h with
  | named name mark => simpa using hmark mark
  | list _ mark ih => simpa using ⟨ih, hmark mark⟩

end TypeExpr

end OperationAtlas.Graphql
