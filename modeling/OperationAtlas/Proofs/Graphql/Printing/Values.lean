import Mathlib.Data.List.Forall2
import Mathlib.Data.String.Basic
import OperationAtlas.Proofs.Graphql.Documents
import OperationAtlas.Proofs.Graphql.Strings

/-!
# Reading printed values

A value that was read from a text is printed and read again. What the second reading gives is in
general not the first value: string values may change, and a double may become an integer or a word,
or may not be readable at all. But the value stays if its strings are plain and it holds no doubles.
`Reprints` states both for a printed text. It passes to what is printed around a text
(`Reprints.wrap`) and to two texts one behind the other (`Reprints.append`), and from these each rule
of the grammar has a theorem that says so of its printer, here up to arguments and directives. Types
are always read as themselves.
-/

namespace OperationAtlas.Graphql

open Reader

/-! ## Objects in order -/

namespace Value

theorem setField_of_forall_lt {name : String} {value : Value} {fields : List (String × Value)}
    (h : ∀ field ∈ fields, field.1 < name) :
    setField name value fields = fields ++ [(name, value)] := by
  induction fields with
  | nil => rfl
  | cons field fields ih =>
    rw [List.forall_mem_cons] at h
    rw [setField, if_neg h.1.ne', if_neg h.1.asymm, ih h.2, List.cons_append]

theorem mem_of_mem_setField {name : String} {value : Value} {fields : List (String × Value)}
    {field : String × Value} (h : field ∈ setField name value fields) :
    field = (name, value) ∨ field ∈ fields := by
  induction fields with
  | nil => simpa [setField] using h
  | cons first fields ih =>
    unfold setField at h
    split at h
    · rcases List.mem_cons.1 h with rfl | h
      · exact .inl rfl
      · exact .inr (List.mem_cons_of_mem _ h)
    · split at h
      · rcases List.mem_cons.1 h with rfl | h
        · exact .inl rfl
        · exact .inr h
      · rcases List.mem_cons.1 h with rfl | h
        · exact .inr List.mem_cons_self
        · exact (ih h).imp_right (List.mem_cons_of_mem _)

theorem pairwise_setField (name : String) (value : Value) {fields : List (String × Value)}
    (h : fields.Pairwise (·.1 < ·.1)) : (setField name value fields).Pairwise (·.1 < ·.1) := by
  induction fields with
  | nil => simp [setField]
  | cons first fields ih =>
    obtain ⟨hfirst, hfields⟩ := List.pairwise_cons.1 h
    unfold setField
    split
    · next heq => exact List.pairwise_cons.2 ⟨by simpa [heq] using hfirst, hfields⟩
    · next hne =>
      split
      · next hlt =>
        refine List.pairwise_cons.2 ⟨?_, h⟩
        intro field hfield
        rcases List.mem_cons.1 hfield with rfl | hfield
        · exact hlt
        · exact hlt.trans (hfirst field hfield)
      · next hnlt =>
        refine List.pairwise_cons.2 ⟨?_, ih hfields⟩
        intro field hfield
        rcases mem_of_mem_setField hfield with rfl | hfield
        · exact lt_of_le_of_ne (not_lt.1 hnlt) (Ne.symm hne)
        · exact hfirst field hfield

theorem ofFields_eq (fields : List (String × Value)) :
    ofFields fields =
      .object (fields.foldl (fun done field => setField field.1 field.2 done) []) := rfl

/-- The fields of an object stand in the order of their names, and each was written. -/
theorem exists_ofFields (fields : List (String × Value)) :
    ∃ ordered, ofFields fields = .object ordered ∧ ordered.Pairwise (·.1 < ·.1) ∧
      ∀ field ∈ ordered, field ∈ fields := by
  refine ⟨_, ofFields_eq fields, ?_⟩
  suffices h : ∀ done : List (String × Value), done.Pairwise (·.1 < ·.1) →
      (fields.foldl (fun done field => setField field.1 field.2 done) done).Pairwise
        (·.1 < ·.1) ∧
      ∀ field ∈ fields.foldl (fun done field => setField field.1 field.2 done) done,
        field ∈ done ∨ field ∈ fields by
    simpa using h [] .nil
  induction fields with
  | nil => exact fun done hdone => ⟨hdone, fun _ => .inl⟩
  | cons first fields ih =>
    intro done hdone
    obtain ⟨hordered, hmem⟩ := ih _ (pairwise_setField first.1 first.2 hdone)
    refine ⟨hordered, fun field hfield => ?_⟩
    rcases hmem field hfield with hfield | hfield
    · rcases mem_of_mem_setField hfield with rfl | hfield
      · exact .inr List.mem_cons_self
      · exact .inl hfield
    · exact .inr (List.mem_cons_of_mem _ hfield)

/-- Fields in order make the object that holds them. -/
theorem ofFields_of_pairwise {fields : List (String × Value)} (h : fields.Pairwise (·.1 < ·.1)) :
    ofFields fields = .object fields := by
  suffices hfold : ∀ done : List (String × Value), (done ++ fields).Pairwise (·.1 < ·.1) →
      fields.foldl (fun done field => setField field.1 field.2 done) done = done ++ fields from
    (ofFields_eq fields).trans (congrArg _ (hfold [] h))
  induction fields with
  | nil => simp
  | cons first fields ih =>
    intro done hdone
    have hlt : ∀ field ∈ done, field.1 < first.1 := fun field hfield =>
      (List.pairwise_append.1 hdone).2.2 field hfield first List.mem_cons_self
    rw [List.append_cons] at hdone
    rw [List.foldl_cons, List.append_cons, ← ih (List.pairwise_cons.1 h).2 _ hdone]
    exact congrArg (fun done => List.foldl _ done fields) (setField_of_forall_lt hlt)

end Value

/-! ## Printed texts -/

/-- A lexeme that is printed so that it reads back. -/
def Lexeme.IsFaithful : Lexeme → Prop
  | .text value => ∀ c ∈ value.toList, isPlain c = true
  | .float .. | .bad => False
  | .punct .. | .spread | .name .. | .int .. => True

/-- A printed text spells lexemes that a relation derives for something like `x`, unless one of them
is bad; and for `x` itself in the case that it is faithful. -/
def Reprints {α : Type} (cs : List Char) (faithful : Prop) (P : List Lexeme → α → Prop)
    (like : α → Prop) (x : α) : Prop :=
  ∃ used x', Spells cs used ∧ (.bad ∉ used → P used x') ∧ like x' ∧
    (faithful → .bad ∉ used ∧ x' = x)

theorem map_eq_of_forall₂ {α β : Type} {f : α → β} {xs ys : List α}
    (h : List.Forall₂ (fun x y => f y = f x) xs ys) : ys.map f = xs.map f := by
  induction h with
  | nil => rfl
  | cons hxy _ ih => rw [List.map_cons, List.map_cons, hxy, ih]

theorem endsWord_flatMap {α : Type} {print : α → List Char} {xs : List α}
    (h : ∀ x ∈ xs, EndsWord (print x)) : EndsWord (xs.flatMap print) := by
  induction xs with
  | nil => exact endsWord_nil
  | cons x xs ih =>
    rw [List.forall_mem_cons] at h
    exact h.1.append (ih h.2)

namespace Reprints

variable {α β : Type} {cs cs' : List Char} {faithful faithful' : Prop} {P : List Lexeme → α → Prop}
  {Q : List Lexeme → β → Prop} {alike : α → Prop} {alike' : β → Prop} {like : α → α → Prop} {x : α}
  {y : β} {xs : List α}

/-- A text is read as what was printed if no lexeme of it changes. -/
theorem of_derives {used : List Lexeme} (hspells : Spells cs used) (hgood : .bad ∉ used)
    (hderives : P used x) (hlike : alike x) : Reprints cs faithful P alike x :=
  ⟨used, x, hspells, fun _ => hderives, hlike, fun _ => ⟨hgood, rfl⟩⟩

theorem mono (h : Reprints cs faithful P alike x) (hfaithful : faithful' → faithful) :
    Reprints cs faithful' P alike x := by
  obtain ⟨used, x', hspells, hderives, hlike, hx⟩ := h
  exact ⟨used, x', hspells, hderives, hlike, fun h => hx (hfaithful h)⟩

/-- A text is faithful if it is part of a text that is. -/
theorem of_subset {used used' : List Lexeme}
    (h : Reprints cs (∀ l ∈ used, l.IsFaithful) P alike x) (hsub : used ⊆ used') :
    Reprints cs (∀ l ∈ used', l.IsFaithful) P alike x :=
  h.mono fun hfaithful l hl => hfaithful l (hsub hl)

/-- Blanks in front and behind make no difference. -/
theorem of_spells (h : Reprints cs faithful P alike x)
    (hspells : ∀ used, Spells cs used → Spells cs' used) : Reprints cs' faithful P alike x := by
  obtain ⟨used, x', hused, hx⟩ := h
  exact ⟨used, x', hspells used hused, hx⟩

theorem nil : Reprints [] faithful (Sequence P) (List.Forall₂ like []) [] :=
  of_derives .nil List.not_mem_nil .nil .nil

/-- Good lexemes are read around those of `x` when more is printed around it, and the whole is made
of what is read for `x`. -/
theorem wrap (h : Reprints cs faithful P alike x) (make : α → β)
    (enclose : List Lexeme → List Lexeme)
    (hspells : ∀ used, Spells cs used → Spells cs' (enclose used))
    (hbad : ∀ used, .bad ∈ enclose used ↔ .bad ∈ used)
    (hderives : ∀ used x', P used x' → alike x' → Q (enclose used) (make x'))
    (hlike : ∀ x', alike x' → alike' (make x')) : Reprints cs' faithful Q alike' (make x) := by
  obtain ⟨used, x', hused, hx', halike, hsame⟩ := h
  refine ⟨enclose used, make x', hspells used hused, fun hgood => ?_, hlike x' halike,
    fun hfaithful => ?_⟩
  · exact hderives used x' (hx' (mt (hbad used).2 hgood)) halike
  · obtain ⟨hgood, rfl⟩ := hsame hfaithful
    exact ⟨mt (hbad used).1 hgood, rfl⟩

/-- A text between two brackets. -/
theorem bracketed {opening closing : Char} (h : Reprints cs faithful P alike x) (make : α → β)
    (hopening : opening ∈ punctuation) (hclosing : closing ∈ punctuation)
    (hderives : ∀ used x', P used x' → alike x' →
      Q (.punct opening :: (used ++ [.punct closing])) (make x'))
    (hlike : ∀ x', alike x' → alike' (make x')) :
    Reprints (opening :: (cs ++ [closing])) faithful Q alike' (make x) :=
  h.wrap make _ (fun _ => .bracketed hopening hclosing) (fun used => by simp) hderives hlike

/-- Two texts one behind the other, where a word ends between them. -/
theorem append (h : Reprints cs faithful P alike x) (h' : Reprints cs' faithful Q alike' y)
    (hends : EndsWord cs') :
    Reprints (cs ++ cs') faithful
      (fun used both => ∃ front behind, used = front ++ behind ∧ P front both.1 ∧ Q behind both.2)
      (fun both => alike both.1 ∧ alike' both.2) (x, y) := by
  obtain ⟨used, x', hspells, hx', halike, hsame⟩ := h
  obtain ⟨used', y', hspells', hy', halike', hsame'⟩ := h'
  refine ⟨used ++ used', (x', y'), hspells.append hspells' hends, fun hgood => ?_,
    ⟨halike, halike'⟩, fun hfaithful => ?_⟩
  · rw [List.mem_append, not_or] at hgood
    exact ⟨used, used', rfl, hx' hgood.1, hy' hgood.2⟩
  · obtain ⟨hgood, rfl⟩ := hsame hfaithful
    obtain ⟨hgood', rfl⟩ := hsame' hfaithful
    exact ⟨by simp [hgood, hgood'], rfl⟩

theorem cons (h : Reprints cs faithful P (like x) x)
    (h' : Reprints cs' faithful (Sequence P) (List.Forall₂ like xs) xs) (hends : EndsWord cs') :
    Reprints (cs ++ cs') faithful (Sequence P) (List.Forall₂ like (x :: xs)) (x :: xs) := by
  refine (h.append h' hends).wrap (fun both => both.1 :: both.2) id (fun _ => id) (fun _ => .rfl) ?_
    fun _ hlike => .cons hlike.1 hlike.2
  rintro _ _ ⟨front, behind, rfl, hfront, hbehind⟩ -
  exact hbehind.cons hfront

/-- Items with commas between them. -/
theorem intercalate {print : α → List Char}
    (h : ∀ x ∈ xs, Reprints (print x) faithful P (like x) x) :
    Reprints ([',', ' '].intercalate (xs.map print)) faithful (Sequence P) (List.Forall₂ like xs)
      xs := by
  induction xs with
  | nil => exact nil
  | cons x xs ih =>
    obtain ⟨hx, hxs⟩ := List.forall_mem_cons.1 h
    cases xs with
    | nil => simpa using hx.cons nil endsWord_nil
    | cons y xs =>
      rw [List.map_cons, List.map_cons, List.intercalate_cons_cons, List.append_assoc]
      exact hx.cons ((ih hxs).of_spells fun used hused => .comma (.blank hused))
        (endsWord_cons.2 rfl)

/-- Items one behind the other, before each of which a word ends. -/
theorem flatMap {print : α → List Char} (hends : ∀ x ∈ xs, EndsWord (print x))
    (h : ∀ x ∈ xs, Reprints (print x) faithful P (like x) x) :
    Reprints (xs.flatMap print) faithful (Sequence P) (List.Forall₂ like xs) xs := by
  induction xs with
  | nil => exact nil
  | cons x xs ih =>
    obtain ⟨hx, hxs⟩ := List.forall_mem_cons.1 h
    obtain ⟨-, hothers⟩ := List.forall_mem_cons.1 hends
    exact hx.cons (ih hothers hxs) (endsWord_flatMap hothers)

end Reprints

/-! ## Values -/

namespace Value

theorem printItems_eq (indent : Nat) : ∀ items : List Value,
    printItems indent items = [',', ' '].intercalate (items.map (print indent))
  | [] => rfl
  | [_] => by simp [printItems]
  | item :: next :: items => by
      rw [printItems, printItems_eq indent (next :: items), List.map_cons, List.map_cons,
        List.map_cons, List.intercalate_cons_cons]
      · simp
      · simp

/-- The text of a field of an object, or of an argument. -/
def printField (indent : Nat) (field : String × Value) : List Char :=
  field.1.toList ++ ':' :: ' ' :: print indent field.2

theorem printFields_eq (indent : Nat) : ∀ fields : List (String × Value),
    printFields indent fields = [',', ' '].intercalate (fields.map (printField indent))
  | [] => rfl
  | [_] => by simp [printFields, printField]
  | field :: next :: fields => by
      rw [printFields, printFields_eq indent (next :: fields), List.map_cons, List.map_cons,
        List.map_cons, List.intercalate_cons_cons]
      · simp [printField]
      · simp

/-- The word of a value that stands for itself. -/
theorem reprints_ofWord {constant : Bool} {levels : Nat} {faithful : Prop} (indent : Nat)
    {word : String} (h : IsName word) :
    Reprints ((ofWord word).print indent) faithful (Derives constant levels) (fun _ => True)
      (ofWord word) := by
  have hprint : (ofWord word).print indent = word.toList := by
    unfold ofWord
    split
    · next hword => subst hword; rfl
    · split
      · next hword => subst hword; rfl
      · split
        · next hword => subst hword; rfl
        · rfl
  rw [hprint]
  exact .of_derives (.name h) (by simp) (.word word) trivial

end Value

/-- A value that is not faithful is printed as one lexeme, which is read as some value unless it is
bad. -/
theorem Value.reprints_lossy {constant : Bool} {levels : Nat} {cs : List Char} {l : Lexeme}
    {faithful : Prop} {v : Value} (hspells : Spells cs [l])
    (hderives : l ≠ .bad → ∃ v', Value.Derives constant levels [l] v') (hlossy : ¬ faithful) :
    Reprints cs faithful (Value.Derives constant levels) (fun _ => True) v := by
  by_cases hbad : l = .bad
  · exact ⟨[l], v, hspells, fun h => absurd (by simp [hbad]) h, trivial, fun h => absurd h hlossy⟩
  · obtain ⟨v', hv'⟩ := hderives hbad
    exact ⟨[l], v', hspells, fun _ => hv', trivial, fun h => absurd h hlossy⟩

/-- What is printed of a field. -/
theorem reprints_field {constant : Bool} {levels indent : Nat} {faithful : Prop}
    {field : String × Value} (hname : IsName field.1)
    (h : Reprints (field.2.print indent) faithful (Value.Derives constant levels) (fun _ => True)
      field.2) :
    Reprints (Value.printField indent field) faithful (FieldDerives constant levels)
      (fun field' => field'.1 = field.1) field := by
  refine h.wrap (field.1, ·) (.name field.1 :: .punct ':' :: ·) (fun used hspells => ?_)
    (fun used => by simp) (fun used value hvalue _ => ⟨used, rfl, hvalue⟩) fun _ _ => rfl
  exact (Spells.name hname).append (.punct (by decide) (.blank hspells)) (endsWord_cons.2 rfl)

/-- What is printed of fields that were read between two brackets, in whatever order. -/
theorem reprints_fields {constant : Bool} {levels indent : Nat} {opening closing : Char}
    {parts : List (List Lexeme × String × Value)} {fields : List (String × Value)}
    (hfields : ∀ field ∈ fields, field ∈ parts.map (·.2))
    (hvalid : ∀ l ∈ .punct opening :: (parts.flatMap fieldLexemes ++ [.punct closing]), l.IsValid)
    (h : ∀ part ∈ parts, (∀ l ∈ part.1, l.IsValid) →
      Reprints (part.2.2.print indent) (∀ l ∈ part.1, l.IsFaithful)
        (Value.Derives constant levels) (fun _ => True) part.2.2) :
    Reprints (Value.printFields indent fields)
      (∀ l ∈ .punct opening :: (parts.flatMap fieldLexemes ++ [.punct closing]), l.IsFaithful)
      (Sequence (FieldDerives constant levels))
      (List.Forall₂ (fun field field' => field'.1 = field.1) fields) fields := by
  rw [Value.printFields_eq]
  refine .intercalate fun field hfield => ?_
  obtain ⟨part, hpart, rfl⟩ := List.mem_map.1 (hfields field hfield)
  have hname : .name part.2.1 ∈ fieldLexemes part := List.mem_cons_self
  have hvalue : ∀ l ∈ part.1, l ∈ fieldLexemes part := fun l hl => by simp [fieldLexemes, hl]
  refine reprints_field (hvalid (.name part.2.1) (mem_bracketed hpart hname)) ?_
  have hpartValid : ∀ l ∈ part.1, l.IsValid := fun l hl =>
    hvalid l (mem_bracketed hpart (hvalue l hl))
  exact (h part hpart hpartValid).of_subset fun l hl => mem_bracketed hpart (hvalue l hl)

/-- A printed value is read as some value, if it can be read. -/
theorem Value.Derives.reprints {constant : Bool} {levels : Nat} {used : List Lexeme} {v : Value}
    (h : Value.Derives constant levels used v) (hvalid : ∀ l ∈ used, l.IsValid) (indent : Nat) :
    Reprints (v.print indent) (∀ l ∈ used, l.IsFaithful) (Value.Derives constant levels)
      (fun _ => True) v := by
  induction h with
  | word text => exact Value.reprints_ofWord indent (hvalid _ List.mem_cons_self)
  | int value =>
    exact .of_derives (.int (hvalid _ List.mem_cons_self)) (by simp) (.int value) trivial
  | @float levels value =>
    obtain ⟨l, hspells, hl⟩ := exists_spells_floatText value
    refine Value.reprints_lossy hspells ?_ fun h => h _ List.mem_cons_self
    rcases hl with rfl | ⟨n, rfl⟩ | ⟨x, rfl⟩ | ⟨word, rfl⟩
    · exact fun hbad => absurd rfl hbad
    · exact fun _ => ⟨_, .int n⟩
    · exact fun _ => ⟨_, .float x⟩
    · exact fun _ => ⟨_, .word word⟩
  | @text levels text =>
    by_cases hplain : ∀ c ∈ text.toList, isPlain c = true
    · have hspells := spells_writeString indent text.toList
      rw [reread_of_isPlain hplain, String.ofList_toList] at hspells
      exact .of_derives hspells (by simp) (.text text) trivial
    · exact Value.reprints_lossy (spells_writeString indent text.toList) (fun _ => ⟨_, .text _⟩)
        fun h => hplain (h _ List.mem_cons_self)
  | var name hconstant =>
    have hname : IsName name := hvalid (.name name) (by simp)
    exact .of_derives (.punct (by decide) (.name hname)) (by simp) (.var name hconstant) trivial
  | @list levels parts hparts ih =>
    have hitems : Reprints (printItems indent (parts.map (·.2)))
        (∀ l ∈ Lexeme.punct '[' :: (parts.flatMap (·.1) ++ [.punct ']']), l.IsFaithful)
        (Sequence (Value.Derives constant levels))
          (List.Forall₂ (fun _ _ => True) (parts.map (·.2)))
        (parts.map (·.2)) := by
      rw [printItems_eq]
      refine .intercalate fun v hv => ?_
      obtain ⟨part, hpart, rfl⟩ := List.mem_map.1 hv
      exact (ih part hpart fun l hl => hvalid l (mem_bracketed hpart hl)).of_subset
        fun l hl => mem_bracketed hpart hl
    refine hitems.bracketed Value.list (by decide) (by decide) ?_ fun _ _ => trivial
    rintro used items ⟨parts', rfl, rfl, hparts'⟩ -
    exact .list parts' hparts'
  | @object levels parts hparts ih =>
    obtain ⟨ordered, hobject, hordered, hwritten⟩ := exists_ofFields (parts.map (·.2))
    have hfields := reprints_fields hwritten hvalid ih
    rw [hobject, print, ← ofFields_of_pairwise hordered]
    refine hfields.bracketed Value.ofFields (by decide) (by decide) ?_ fun _ _ => trivial
    intro used fields hsequence _
    obtain ⟨parts', rfl, rfl, hparts'⟩ := exists_parts_of_sequence hsequence
    exact .object parts' hparts'

/-! ## Arguments, directives and types -/

theorem endsWord_printArguments (indent : Nat) (arguments : List (String × Value)) :
    EndsWord (printArguments indent arguments) := by
  cases arguments with
  | nil => exact endsWord_nil
  | cons => exact endsWord_cons.2 rfl

/-- Printed arguments have the names that were read. -/
theorem ArgumentsDerive.reprints {constant : Bool} {levels : Nat} {used : List Lexeme}
    {arguments : List (String × Value)} (h : ArgumentsDerive constant levels used arguments)
    (hvalid : ∀ l ∈ used, l.IsValid) (indent : Nat) :
    Reprints (printArguments indent arguments) (∀ l ∈ used, l.IsFaithful)
      (ArgumentsDerive constant levels)
      (fun arguments' => arguments'.map (·.1) = arguments.map (·.1)) arguments := by
  cases h with
  | none => exact .of_derives .nil List.not_mem_nil .none rfl
  | @some levels parts hne hparts =>
    have hfields := reprints_fields (fun _ => id) hvalid fun part hpart hpartValid =>
      (hparts part hpart).reprints hpartValid indent
    have hprint : printArguments indent (parts.map (·.2)) =
        '(' :: (Value.printFields indent (parts.map (·.2)) ++ [')']) := by
      obtain ⟨part, parts, rfl⟩ := List.exists_cons_of_ne_nil hne
      rfl
    rw [hprint]
    refine hfields.bracketed id (by decide) (by decide) ?_ fun _ => map_eq_of_forall₂
    intro used fields hsequence hnames
    obtain ⟨parts', rfl, rfl, hparts'⟩ := exists_parts_of_sequence hsequence
    refine .some parts' ?_ hparts'
    rintro rfl
    exact hne (by simpa using hnames.length_eq)

theorem endsWord_printDirectives (indent : Nat) (directives : List Directive) :
    EndsWord (printDirectives indent directives) :=
  endsWord_flatMap fun _ _ => endsWord_cons.2 rfl

/-- Printed directives are read as directives. -/
theorem reprints_directives {levels : Nat} {used : List Lexeme} {directives : List Directive}
    (h : Sequence (DirectiveDerives levels) used directives) (hvalid : ∀ l ∈ used, l.IsValid)
    (indent : Nat) :
    Reprints (printDirectives indent directives) (∀ l ∈ used, l.IsFaithful)
      (Sequence (DirectiveDerives levels)) (List.Forall₂ (fun _ _ => True) directives)
      directives := by
  obtain ⟨parts, rfl, rfl, hparts⟩ := h
  refine .flatMap (fun _ _ => endsWord_cons.2 rfl) fun directive hdirective => ?_
  obtain ⟨part, hpart, rfl⟩ := List.mem_map.1 hdirective
  have hsub : ∀ l ∈ part.1, l ∈ parts.flatMap (·.1) := fun l hl =>
    List.mem_flatMap.2 ⟨part, hpart, hl⟩
  obtain ⟨within, hused, harguments⟩ := hparts part hpart
  rw [hused] at hsub
  have hname : IsName part.2.name := hvalid (.name part.2.name) (hsub _ (by simp))
  have hsub' : ∀ l ∈ within, l ∈ parts.flatMap (·.1) := fun l hl => hsub l (by simp [hl])
  have hread := (harguments.reprints (fun l hl => hvalid l (hsub' l hl)) indent).of_subset hsub'
  refine hread.wrap (Directive.mk part.2.name) (.punct '@' :: .name part.2.name :: ·)
    (fun used hspells => ?_) (fun used => by simp) (fun used _ hderives _ => ⟨used, rfl, hderives⟩)
    fun _ _ => trivial
  exact .blank (.punct (by decide)
    ((Spells.name hname).append hspells (endsWord_printArguments _ _)))

/-- A printed type is read as itself. -/
theorem TypeExpr.Derives.spells {levels : Nat} {used : List Lexeme} {type : TypeExpr}
    (h : TypeExpr.Derives levels used type) (hvalid : ∀ l ∈ used, l.IsValid) :
    Spells type.text.toList used ∧ .bad ∉ used := by
  have hmark : ∀ mark, Spells (if mark then ['!'] else []) (TypeExpr.markLexemes mark) ∧
      EndsWord (if mark then ['!'] else []) ∧ .bad ∉ TypeExpr.markLexemes mark := by
    rintro (_ | _)
    · exact ⟨.nil, endsWord_nil, by simp [TypeExpr.markLexemes]⟩
    · exact ⟨.punct (by decide) .nil, endsWord_cons.2 rfl, by simp [TypeExpr.markLexemes]⟩
  have htext : ∀ mark (type : TypeExpr), (TypeExpr.marked mark type).text.toList =
      type.text.toList ++ if mark then ['!'] else [] := by
    rintro (_ | _) type <;> simp [TypeExpr.marked, TypeExpr.text]
  induction h with
  | named name mark =>
    obtain ⟨hspells, hends, hbad⟩ := hmark mark
    rw [htext]
    exact ⟨(Spells.name (hvalid _ List.mem_cons_self)).append hspells hends, by simpa using hbad⟩
  | list _ mark ih =>
    obtain ⟨hspells, hends, hbad⟩ := hmark mark
    obtain ⟨hinner, hinnerBad⟩ := ih fun l hl => hvalid l (by simp [hl])
    rw [htext, TypeExpr.text, String.toList_append, String.toList_append]
    refine ⟨?_, by simp [hinnerBad, hbad]⟩
    have := (hinner.append (.punct (c := ']') (by decide) .nil) (endsWord_cons.2 rfl)).append
      hspells
      hends
    simpa using Spells.punct (c := '[') (by decide) this

end OperationAtlas.Graphql
