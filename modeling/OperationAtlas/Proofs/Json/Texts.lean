import OperationAtlas.Proofs.Json.Grammar
import OperationAtlas.Proofs.Text.Lines

/-!
# The texts of JSON

`Draft.Spells` says which texts are JSON, and which draft each of them has. Blanks may stand around
a text and around every value and key in it. Every such text is read as its draft, and nothing else
is read without a fault of form (`Draft.read_eq_iff_spells`).

The reader goes down as many levels as the text has characters, and reads as many items and members
as its rest has characters. A text never uses them up: each level and each item has a character of
its own. So the bound of a value is the length of its text (`Draft.Spells.isRead`).
-/

namespace OperationAtlas.Draft

open JsonNumber

/-- Blanks. -/
def IsBlank (cs : List Char) : Prop := ∀ c ∈ cs, isSpace c = true

/-- The text of a member of an object: the text of its key and the text of its value. -/
structure MemberText where
  keyText : List Char
  key : Option String
  valueText : List Char
  value : Draft

/-- The whole text of a member. -/
def MemberText.text (part : MemberText) : List Char :=
  part.keyText ++ ':' :: part.valueText

/-- A text spells a draft. A string with half of a surrogate pair has a text, but no value. -/
inductive Spells : List Char → Draft → Prop
  | nullWord : Spells ['n', 'u', 'l', 'l'] .null
  | trueWord : Spells ['t', 'r', 'u', 'e'] (.bool true)
  | falseWord : Spells ['f', 'a', 'l', 's', 'e'] (.bool false)
  | number {cs : List Char} {value : Option JsonNumber} (h : JsonNumber.Spells cs value) :
      Spells cs (.number value)
  | string {cs : List Char} {pieces : List Quoted.Piece} {text : String}
      (h : Quoted.SpellsPieces cs pieces) (hmeans : Quoted.Means pieces text.toList) :
      Spells ('"' :: (cs ++ ['"'])) (.string (some text))
  | halfString {cs : List Char} {pieces : List Quoted.Piece} (h : Quoted.SpellsPieces cs pieces)
      (hmeans : ∀ text, ¬Quoted.Means pieces text) : Spells ('"' :: (cs ++ ['"'])) (.string none)
  | emptyArray {blanks : List Char} (h : IsBlank blanks) :
      Spells ('[' :: (blanks ++ [']'])) (.array [] true)
  | array (parts : List (List Char × Draft)) (hne : parts ≠ [])
      (h : ∀ part ∈ parts, Spells part.1 part.2) :
      Spells ('[' :: ([','].intercalate (parts.map (·.1)) ++ [']'])) (.array (parts.map (·.2)) true)
  | emptyObject {blanks : List Char} (h : IsBlank blanks) :
      Spells ('\x7b' :: (blanks ++ ['\x7d'])) (.object [] true)
  | object (parts : List MemberText) (hne : parts ≠ [])
      (hkeys : ∀ part ∈ parts, Spells part.keyText (.string part.key))
      (hvalues : ∀ part ∈ parts, Spells part.valueText part.value) :
      Spells ('\x7b' :: ([','].intercalate (parts.map (·.text)) ++ ['\x7d']))
        (.object (parts.map fun part => (part.key, part.value)) true)
  | blanks {before cs behind : List Char} {draft : Draft} (hbefore : IsBlank before)
      (h : Spells cs draft) (hbehind : IsBlank behind) : Spells (before ++ (cs ++ behind)) draft

variable {cs rest blanks : List Char} {draft : Draft} {levels : Nat}

theorem Spells.isComplete (h : Spells cs draft) : draft.isComplete = true := by
  induction h with
  | blanks _ _ _ ih => exact ih
  | _ => rfl

/-! ## Blanks and words -/

theorem isBlank_nil : IsBlank [] := nofun

theorem IsBlank.append {blanks' : List Char} (h : IsBlank blanks) (h' : IsBlank blanks') :
    IsBlank (blanks ++ blanks') :=
  fun c hc => (List.mem_append.1 hc).elim (h c) (h' c)

theorem skipSpace_append (h : IsBlank blanks) (cs : List Char) :
    skipSpace (blanks ++ cs) = skipSpace cs :=
  List.dropWhile_append_of_pos h

theorem skipSpace_cons {c : Char} (h : isSpace c = false) (cs : List Char) :
    skipSpace (c :: cs) = c :: cs := by
  simp [skipSpace, h]

theorem exists_skipSpace (cs : List Char) :
    ∃ blanks, IsBlank blanks ∧ cs = blanks ++ skipSpace cs :=
  ⟨cs.takeWhile isSpace, fun _ hc => List.mem_takeWhile_imp hc,
    List.takeWhile_append_dropWhile.symm⟩

/-- Blanks before a value do not matter. -/
theorem readValue_of_skipSpace {cs cs' : List Char} (h : skipSpace cs = skipSpace cs')
    (levels : Nat) : readValue levels cs = readValue levels cs' := by
  unfold readValue
  rw [h]

/-- A number ends before a character that does not go on with it. -/
theorem endsNumber_cons {c : Char} (h : isDigit c = false ∧ c ≠ '.' ∧ c ≠ 'e' ∧ c ≠ 'E')
    (cs : List Char) : EndsNumber (c :: cs) := by
  rintro c ⟨⟩
  exact h

/-- A number ends before blanks if it ends before what stands behind them. -/
theorem endsNumber_behind (h : EndsNumber rest)
    (hblanks : IsBlank blanks) : EndsNumber (blanks ++ rest) := by
  cases blanks with
  | nil => exact h
  | cons c blanks =>
    have hblank : EndsNumber [c] := endsNumber_of_isSpace (by simpa using hblanks c (by simp))
    exact endsNumber_cons (hblank c rfl) _

/-- A word is not at the start of a text that starts with another character. -/
theorem afterWord?_of_ne {first c : Char} (h : c ≠ first) (word cs : List Char) :
    afterWord? (first :: word) (c :: cs) = none := by
  rw [afterWord?, if_neg]
  intro hword
  rw [List.length_cons, List.take_succ_cons, List.cons.injEq] at hword
  exact h hword.1

theorem exists_of_afterWord? {word : List Char} (h : afterWord? word cs = some rest) :
    cs = word ++ rest := by
  unfold afterWord? at h
  split at h
  · next hword =>
    cases h
    conv_lhs => rw [← List.take_append_drop word.length cs, hword]
  · cases h

/-- Where a sign or a digit stands, a number is read. -/
theorem readValue_number {c : Char} (hc : StartsNumber c) {cs rest : List Char}
    {number : Option JsonNumber} (h : read? (c :: cs) = some (number, rest)) (levels : Nat) :
    readValue levels (c :: cs) = (.number number, rest) := by
  unfold readValue
  rw [skipSpace_cons hc.isSpace]
  split
  · next heq => exact absurd (List.cons.inj heq).1 (hc.ne (by decide) (by decide))
  · next heq => exact absurd (List.cons.inj heq).1 (hc.ne (by decide) (by decide))
  · next heq => exact absurd (List.cons.inj heq).1 (hc.ne (by decide) (by decide))
  · have hnull : c ≠ 'n' := hc.ne (by decide) (by decide)
    have htrue : c ≠ 't' := hc.ne (by decide) (by decide)
    have hfalse : c ≠ 'f' := hc.ne (by decide) (by decide)
    simp only [afterWord?_of_ne hnull, afterWord?_of_ne htrue, afterWord?_of_ne hfalse, h]

/-- A string is read behind its opening quotation mark. -/
theorem readValue_string {text : Option String} (h : readString? cs = some (text, rest))
    (levels : Nat) : readValue levels ('"' :: cs) = (.string text, rest) := by
  unfold readValue
  rw [skipSpace_cons (by decide)]
  simp only [h]

/-- Behind an opening bracket items are read, unless the closing one stands there. -/
theorem readValue_array {items : List Draft} {closed : Bool}
    (hopen : ∀ cs', skipSpace cs ≠ ']' :: cs')
    (hread : readItems (readValue levels) cs.length cs = (items, closed, rest)) :
    readValue (levels + 1) ('[' :: cs) = (.array items closed, rest) := by
  unfold readValue
  rw [skipSpace_cons (by decide)]
  split
  · next heq => exact absurd (List.cons.inj heq).1 (by decide)
  · next heq =>
    obtain rfl := (List.cons.inj heq).2
    dsimp only
    split
    · next hclosed => exact absurd hclosed (hopen _)
    · rw [hread]
  · next heq => exact absurd (List.cons.inj heq).1 (by decide)
  · next hother _ => exact absurd rfl (hother cs)

/-- Behind an opening brace members are read, unless the closing one stands there. -/
theorem readValue_object {members : List (Option String × Draft)} {closed : Bool}
    (hopen : ∀ cs', skipSpace cs ≠ '\x7d' :: cs')
    (hread : readMembers (readValue levels) cs.length cs = (members, closed, rest)) :
    readValue (levels + 1) ('\x7b' :: cs) = (.object members closed, rest) := by
  unfold readValue
  rw [skipSpace_cons (by decide)]
  split
  · next heq => exact absurd (List.cons.inj heq).1 (by decide)
  · next heq => exact absurd (List.cons.inj heq).1 (by decide)
  · next heq =>
    obtain rfl := (List.cons.inj heq).2
    dsimp only
    split
    · next hclosed => exact absurd hclosed (hopen _)
    · rw [hread]
  · next hother => exact absurd rfl (hother cs)

theorem readValue_emptyArray (h : skipSpace cs = ']' :: rest) :
    readValue (levels + 1) ('[' :: cs) = (.array [] true, rest) := by
  unfold readValue
  rw [skipSpace_cons (by decide)]
  simp only [h]

theorem readValue_emptyObject (h : skipSpace cs = '\x7d' :: rest) :
    readValue (levels + 1) ('\x7b' :: cs) = (.object [] true, rest) := by
  unfold readValue
  rw [skipSpace_cons (by decide)]
  simp only [h]

/-- How a value starts, and what is read then. -/
inductive Starts (levels : Nat) : List Char → Draft → List Char → Prop
  | null (rest : List Char) : Starts levels (['n', 'u', 'l', 'l'] ++ rest) .null rest
  | bool {word : List Char} {value : Bool}
      (hword : word = if value then ['t', 'r', 'u', 'e'] else ['f', 'a', 'l', 's', 'e'])
      (rest : List Char) : Starts levels (word ++ rest) (.bool value) rest
  | number {cs rest : List Char} {value : Option JsonNumber} (h : read? cs = some (value, rest)) :
      Starts levels cs (.number value) rest
  | string {cs rest : List Char} {text : Option String}
      (h : readString? cs = some (text, rest)) : Starts levels ('"' :: cs) (.string text) rest
  | emptyArray {cs rest : List Char} (h : skipSpace cs = ']' :: rest) :
      Starts levels ('[' :: cs) (.array [] true) rest
  | array {lower : Nat} {cs rest : List Char} {items : List Draft} {closed : Bool}
      (hlevels : levels = lower + 1)
      (h : readItems (readValue lower) cs.length cs = (items, closed, rest)) :
      Starts levels ('[' :: cs) (.array items closed) rest
  | emptyObject {cs rest : List Char} (h : skipSpace cs = '\x7d' :: rest) :
      Starts levels ('\x7b' :: cs) (.object [] true) rest
  | object {lower : Nat} {cs rest : List Char} {members : List (Option String × Draft)}
      {closed : Bool} (hlevels : levels = lower + 1)
      (h : readMembers (readValue lower) cs.length cs = (members, closed, rest)) :
      Starts levels ('\x7b' :: cs) (.object members closed) rest

/-- What is read starts a value, unless nothing is. -/
theorem starts_of_readValue (h : readValue levels cs = (draft, rest)) :
    Starts levels (skipSpace cs) draft rest ∨ draft = .broken := by
  unfold readValue at h
  split at h
  · next hskip =>
    rw [hskip]
    split at h
    · next hread =>
      cases h
      exact .inl (.string hread)
    · cases h
      exact .inr rfl
  · next hskip =>
    rw [hskip]
    split at h
    · cases h
      exact .inr rfl
    · split at h
      · next hclose =>
        cases h
        exact .inl (.emptyArray hclose)
      · cases h
        exact .inl (.array rfl rfl)
  · next hskip =>
    rw [hskip]
    split at h
    · cases h
      exact .inr rfl
    · split at h
      · next hclose =>
        cases h
        exact .inl (.emptyObject hclose)
      · cases h
        exact .inl (.object rfl rfl)
  · split at h
    · next hword =>
      cases h
      rw [exists_of_afterWord? hword]
      exact .inl (.null rest)
    · split at h
      · next hword =>
        cases h
        rw [exists_of_afterWord? hword]
        exact .inl (.bool (if_pos rfl).symm rest)
      · split at h
        · next hword =>
          cases h
          rw [exists_of_afterWord? hword]
          exact .inl (.bool (if_neg Bool.false_ne_true).symm rest)
        · split at h
          · next hread =>
            cases h
            exact .inl (.number hread)
          · cases h
            exact .inr rfl

/-! ## Texts are read -/

/-- A text is read as a draft, with anything behind it before which a number ends, up to blanks. -/
def IsRead (readOne : List Char → Draft × List Char) (cs : List Char) (draft : Draft) : Prop :=
  ∀ rest, EndsNumber rest →
    ∃ blanks, IsBlank blanks ∧ readOne (cs ++ rest) = (draft, blanks ++ rest)

/-- Items are read up to the closing bracket if each of them is. -/
theorem readItems_of_parts {readOne : List Char → Draft × List Char} (rest : List Char)
    {parts : List (List Char × Draft)} {n : Nat} (hne : parts ≠ [])
    (hread : ∀ part ∈ parts, IsRead readOne part.1 part.2)
    (hcomplete : ∀ part ∈ parts, part.2.isComplete = true) (hn : parts.length ≤ n) :
    readItems readOne n ([','].intercalate (parts.map (·.1)) ++ ']' :: rest) =
      (parts.map (·.2), true, rest) := by
  induction parts generalizing n with
  | nil => exact absurd rfl hne
  | cons part parts ih =>
    obtain ⟨n, rfl⟩ : ∃ m, n = m + 1 := ⟨n - 1, by rw [List.length_cons] at hn; omega⟩
    obtain ⟨hpart, hothers⟩ := List.forall_mem_cons.1 hread
    obtain ⟨hvalue, hvalues⟩ := List.forall_mem_cons.1 hcomplete
    cases parts with
    | nil =>
      obtain ⟨blanks, hblanks, hpart⟩ := hpart (']' :: rest) (endsNumber_cons (by decide) rest)
      simp only [List.map_cons, List.map_nil, List.intercalate_singleton, readItems, hpart, hvalue,
        skipSpace_append hblanks, skipSpace_cons (show isSpace ']' = false by decide)]
      rfl
    | cons second parts =>
      have hrest := ih (List.cons_ne_nil second parts) hothers hvalues (Nat.le_of_succ_le_succ hn)
      obtain ⟨blanks, hblanks, hpart⟩ := hpart
        (',' :: ([','].intercalate ((second :: parts).map (·.1)) ++ ']' :: rest))
        (endsNumber_cons (by decide) _)
      rw [List.map_cons, List.intercalate_cons_of_ne_nil (by simp), List.append_assoc,
        List.append_assoc, List.singleton_append, readItems]
      simp only [hpart, hvalue, skipSpace_append hblanks,
        skipSpace_cons (show isSpace ',' = false by decide), hrest]
      rfl

/-- Where a string is read, it stands behind the blanks. -/
theorem exists_of_readValue_string {text : Option String}
    (h : readValue levels cs = (.string text, rest)) :
    ∃ cs', skipSpace cs = '"' :: cs' ∧ readString? cs' = some (text, rest) := by
  rcases starts_of_readValue h with hstarts | hbroken
  · generalize skipSpace cs = start at hstarts
    cases hstarts with
    | string hread => exact ⟨_, rfl, hread⟩
  · cases hbroken

/-- A member whose key and value are read. -/
structure MemberText.IsRead (levels : Nat) (part : MemberText) : Prop where
  key : Draft.IsRead (readValue levels) part.keyText (.string part.key)
  value : Draft.IsRead (readValue levels) part.valueText part.value
  complete : part.value.isComplete = true

/-- A member starts with the quotation mark of its key. -/
theorem MemberText.IsRead.exists_key {part : MemberText} (h : part.IsRead levels)
    (rest : List Char) :
    ∃ cs blanks, skipSpace (part.text ++ rest) = '"' :: cs ∧ IsBlank blanks ∧
      readString? cs = some (part.key, blanks ++ ':' :: (part.valueText ++ rest)) := by
  obtain ⟨blanks, hblanks, hkey⟩ := h.key (':' :: (part.valueText ++ rest))
    (endsNumber_cons (by decide) _)
  obtain ⟨cs, hskip, hread⟩ := exists_of_readValue_string hkey
  refine ⟨cs, blanks, ?_, hblanks, hread⟩
  rw [text, List.append_assoc, List.cons_append, hskip]

/-- A member is read as its key and its value, and what stands behind it decides how it goes on. -/
theorem MemberText.IsRead.readMembers_succ {part : MemberText} (h : part.IsRead levels) (n : Nat)
    (hrest : EndsNumber rest) :
    readMembers (readValue levels) (n + 1) (part.text ++ rest) =
      match skipSpace rest with
      | ',' :: rest =>
        let (members, closed, rest) := readMembers (readValue levels) n rest
        ((part.key, part.value) :: members, closed, rest)
      | '\x7d' :: rest => ([(part.key, part.value)], true, rest)
      | _ => ([(part.key, part.value)], false, []) := by
  obtain ⟨cs, blanks, hskip, hblanks, hkey⟩ := h.exists_key rest
  obtain ⟨blanks', hblanks', hvalue⟩ := h.value rest hrest
  rw [readMembers, hskip]
  simp only [hkey, skipSpace_append hblanks, skipSpace_cons (show isSpace ':' = false by decide),
    hvalue, h.complete, skipSpace_append hblanks']
  rfl

/-- Members are read up to the closing brace if each of them is. -/
theorem readMembers_of_parts (rest : List Char) {parts : List MemberText} {n : Nat}
    (hne : parts ≠ []) (hread : ∀ part ∈ parts, part.IsRead levels) (hn : parts.length ≤ n) :
    readMembers (readValue levels) n ([','].intercalate (parts.map (·.text)) ++ '\x7d' :: rest) =
      (parts.map fun part => (part.key, part.value), true, rest) := by
  induction parts generalizing n with
  | nil => exact absurd rfl hne
  | cons part parts ih =>
    obtain ⟨n, rfl⟩ : ∃ m, n = m + 1 := ⟨n - 1, by rw [List.length_cons] at hn; omega⟩
    obtain ⟨hpart, hothers⟩ := List.forall_mem_cons.1 hread
    cases parts with
    | nil =>
      rw [List.map_singleton, List.intercalate_singleton,
        hpart.readMembers_succ n (endsNumber_cons (by decide) rest), skipSpace_cons (by decide)]
      rfl
    | cons second parts =>
      have hrest := ih (List.cons_ne_nil second parts) hothers (Nat.le_of_succ_le_succ hn)
      rw [List.map_cons, List.intercalate_cons_of_ne_nil (by simp), List.append_assoc,
        List.append_assoc, List.singleton_append,
        hpart.readMembers_succ n (endsNumber_cons (by decide) _), skipSpace_cons (by decide)]
      simp only [hrest]
      rfl

/-- What stands behind an opening quotation mark is read up to the closing one. -/
theorem readString?_of_spells {pieces : List Quoted.Piece} (h : Quoted.SpellsPieces cs pieces)
    (rest : List Char) :
    readString? (cs ++ '"' :: rest) = some ((Quoted.text? pieces).map String.ofList, rest) := by
  rw [readString?, Quoted.pieces?_eq_some_iff.2 ⟨cs, rfl, h⟩, Option.map_some]

/-- No value starts with a closing bracket. -/
theorem readValue_bracket (levels : Nat) (cs : List Char) :
    readValue levels (']' :: cs) = (.broken, []) := by
  unfold readValue
  rfl

theorem skipSpace_ne_bracket (h : readValue levels cs = (draft, rest))
    (hcomplete : draft.isComplete = true) (cs' : List Char) : skipSpace cs ≠ ']' :: cs' := by
  intro hskip
  rw [readValue_of_skipSpace (hskip.trans (skipSpace_cons (by decide) cs').symm),
    readValue_bracket] at h
  cases h
  cases hcomplete

/-- Before what stands behind the first piece a number ends. -/
theorem exists_intercalate_cons (piece : List Char) (pieces : List (List Char))
    (hrest : EndsNumber rest) :
    ∃ behind, [','].intercalate (piece :: pieces) ++ rest = piece ++ behind ∧
      EndsNumber behind := by
  cases pieces with
  | nil => exact ⟨rest, by rw [List.intercalate_singleton], hrest⟩
  | cons second pieces =>
    refine ⟨_, ?_, endsNumber_cons (c := ',') (by decide)
      ([','].intercalate (second :: pieces) ++ rest)⟩
    rw [List.intercalate_cons_cons, List.append_assoc, List.append_assoc, List.singleton_append]

theorem isRead_array {parts : List (List Char × Draft)} (hne : parts ≠ [])
    (hread : ∀ part ∈ parts, IsRead (readValue levels) part.1 part.2)
    (hcomplete : ∀ part ∈ parts, part.2.isComplete = true) :
    IsRead (readValue (levels + 1)) ('[' :: ([','].intercalate (parts.map (·.1)) ++ [']']))
      (.array (parts.map (·.2)) true) := by
  intro rest _
  have hcount := Text.length_pieces_le ',' (parts.map (·.1))
  have hitems := readItems_of_parts rest hne hread hcomplete
    (n := ([','].intercalate (parts.map (·.1)) ++ ']' :: rest).length) (by
      rw [List.length_map] at hcount
      rw [List.length_append, List.length_cons]
      omega)
  refine ⟨[], isBlank_nil, ?_⟩
  rw [List.cons_append, List.append_assoc, List.singleton_append]
  refine readValue_array (fun cs' => ?_) hitems
  -- the first item is read there
  obtain ⟨first, parts, rfl⟩ := List.exists_cons_of_ne_nil hne
  obtain ⟨behind, hbehind, hends⟩ := exists_intercalate_cons first.1 (parts.map (·.1))
    (endsNumber_cons (show isDigit ']' = false ∧ _ by decide) rest)
  obtain ⟨_, _, hfirst⟩ := hread first List.mem_cons_self behind hends
  rw [List.map_cons, hbehind]
  exact skipSpace_ne_bracket hfirst (hcomplete first List.mem_cons_self) cs'

theorem isRead_object {parts : List MemberText} (hne : parts ≠ [])
    (hread : ∀ part ∈ parts, part.IsRead levels) :
    IsRead (readValue (levels + 1)) ('\x7b' :: ([','].intercalate (parts.map (·.text)) ++ ['\x7d']))
      (.object (parts.map fun part => (part.key, part.value)) true) := by
  intro rest _
  have hcount := Text.length_pieces_le ',' (parts.map (·.text))
  have hmembers := readMembers_of_parts rest hne hread
    (n := ([','].intercalate (parts.map (·.text)) ++ '\x7d' :: rest).length) (by
      rw [List.length_map] at hcount
      rw [List.length_append, List.length_cons]
      omega)
  refine ⟨[], isBlank_nil, ?_⟩
  rw [List.cons_append, List.append_assoc, List.singleton_append]
  refine readValue_object (fun cs' hclose => ?_) hmembers
  -- the first key stands there
  obtain ⟨first, parts, rfl⟩ := List.exists_cons_of_ne_nil hne
  obtain ⟨behind, hbehind, -⟩ := exists_intercalate_cons first.text (parts.map (·.text))
    (endsNumber_cons (show isDigit '\x7d' = false ∧ _ by decide) rest)
  obtain ⟨_, _, hskip, -⟩ := (hread first List.mem_cons_self).exists_key behind
  rw [List.map_cons] at hclose
  rw [hbehind, hskip] at hclose
  exact absurd (List.cons.inj hclose).1 (by decide)

theorem isRead_string {pieces : List Quoted.Piece} (h : Quoted.SpellsPieces cs pieces) :
    IsRead (readValue levels) ('"' :: (cs ++ ['"']))
      (.string ((Quoted.text? pieces).map String.ofList)) := by
  intro rest _
  refine ⟨[], isBlank_nil, ?_⟩
  rw [List.cons_append, List.append_assoc, List.singleton_append]
  refine readValue_string ?_ levels
  rw [readString?_of_spells h]
  rfl

theorem isRead_emptyArray (h : IsBlank blanks) :
    IsRead (readValue (levels + 1)) ('[' :: (blanks ++ [']'])) (.array [] true) := by
  intro rest _
  refine ⟨[], isBlank_nil, ?_⟩
  rw [List.cons_append, List.append_assoc, List.singleton_append]
  exact readValue_emptyArray ((skipSpace_append h _).trans (skipSpace_cons (by decide) rest))

theorem isRead_emptyObject (h : IsBlank blanks) :
    IsRead (readValue (levels + 1)) ('\x7b' :: (blanks ++ ['\x7d'])) (.object [] true) := by
  intro rest _
  refine ⟨[], isBlank_nil, ?_⟩
  rw [List.cons_append, List.append_assoc, List.singleton_append]
  exact readValue_emptyObject ((skipSpace_append h _).trans (skipSpace_cons (by decide) rest))

theorem MemberText.length_text (part : MemberText) :
    part.text.length = part.keyText.length + part.valueText.length + 1 := by
  rw [text, List.length_append, List.length_cons, Nat.add_assoc]

/-- A text of JSON is read as its draft, if the reader may go down as deep as the text is long. -/
theorem Spells.isRead (h : Spells cs draft) :
    ∀ {levels : Nat}, cs.length ≤ levels → IsRead (readValue levels) cs draft := by
  induction h with
  | nullWord | trueWord | falseWord =>
    intro levels _ rest _
    refine ⟨[], isBlank_nil, ?_⟩
    unfold readValue
    rfl
  | number h =>
    intro levels _ rest hrest
    have hread := h.read? hrest
    obtain ⟨c, cs, rfl, hc⟩ := h.exists_first
    exact ⟨[], isBlank_nil, readValue_number hc hread levels⟩
  | @string cs pieces text h hmeans =>
    intro levels _
    have hread : IsRead (readValue levels) _ _ := isRead_string h
    rwa [hmeans.text?, Option.map_some, String.ofList_toList] at hread
  | @halfString cs pieces h hmeans =>
    intro levels _
    have hnone : Quoted.text? pieces = none :=
      Option.eq_none_iff_forall_ne_some.2 fun text htext =>
        hmeans text ((Quoted.text?_eq_some_iff h).1 htext)
    have hread : IsRead (readValue levels) _ _ := isRead_string h
    rwa [hnone] at hread
  | emptyArray h =>
    intro levels hlevels
    obtain ⟨levels, rfl⟩ := Nat.exists_eq_add_one_of_ne_zero (Nat.ne_zero_of_lt hlevels)
    exact isRead_emptyArray h
  | array parts hne h ih =>
    intro levels hlevels
    obtain ⟨levels, rfl⟩ := Nat.exists_eq_add_one_of_ne_zero (Nat.ne_zero_of_lt hlevels)
    rw [List.length_cons, List.length_append] at hlevels
    refine isRead_array hne (fun part hpart => ih part hpart ?_) fun part hpart =>
      (h part hpart).isComplete
    have hlength : part.1.length ≤ ([','].intercalate (parts.map (·.1))).length :=
      Text.length_le_intercalate _ (List.mem_map_of_mem hpart)
    omega
  | emptyObject h =>
    intro levels hlevels
    obtain ⟨levels, rfl⟩ := Nat.exists_eq_add_one_of_ne_zero (Nat.ne_zero_of_lt hlevels)
    exact isRead_emptyObject h
  | object parts hne hkeys hvalues ihkeys ihvalues =>
    intro levels hlevels
    obtain ⟨levels, rfl⟩ := Nat.exists_eq_add_one_of_ne_zero (Nat.ne_zero_of_lt hlevels)
    rw [List.length_cons, List.length_append] at hlevels
    refine isRead_object hne fun part hpart => ?_
    have hlength : part.text.length ≤ ([','].intercalate (parts.map (·.text))).length :=
      Text.length_le_intercalate _ (List.mem_map_of_mem hpart)
    rw [part.length_text] at hlength
    exact ⟨ihkeys part hpart (by omega), ihvalues part hpart (by omega),
      (hvalues part hpart).isComplete⟩
  | blanks hbefore h hbehind ih =>
    intro levels hlevels rest hrest
    simp only [List.length_append] at hlevels
    have hinner : IsRead (readValue levels) _ _ := ih (by omega)
    obtain ⟨blanks, hblanks, hread⟩ := hinner _ (endsNumber_behind hrest hbehind)
    refine ⟨_, hblanks.append hbehind, ?_⟩
    rw [List.append_assoc, List.append_assoc, List.append_assoc,
      readValue_of_skipSpace (skipSpace_append hbefore _), hread]

/-! ## Nothing else is read -/

/-- A draft without a fault at its end has the text that was read. -/
def TakesSpellings (readOne : List Char → Draft × List Char) : Prop :=
  ∀ {cs draft rest}, readOne cs = (draft, rest) → draft.isComplete = true →
    ∃ text, Spells text draft ∧ cs = text ++ rest

theorem Spells.append (h : Spells cs draft) (hblanks : IsBlank blanks) :
    Spells (cs ++ blanks) draft := h.blanks isBlank_nil hblanks

theorem exists_spells_of_readString? {text : Option String}
    (h : readString? cs = some (text, rest)) :
    ∃ body, Spells ('"' :: (body ++ ['"'])) (.string text) ∧ cs = body ++ '"' :: rest := by
  obtain ⟨⟨pieces, _⟩, hpieces, hread⟩ := Option.map_eq_some_iff.1 h
  cases hread
  obtain ⟨body, rfl, hbody⟩ := Quoted.pieces?_eq_some_iff.1 hpieces
  refine ⟨body, ?_, rfl⟩
  cases htext : Quoted.text? pieces with
  | none =>
    refine .halfString hbody fun text hmeans => ?_
    rw [hmeans.text?] at htext
    cases htext
  | some text =>
    refine .string hbody ?_
    rw [String.toList_ofList]
    exact (Quoted.text?_eq_some_iff hbody).1 htext

/-- Items that are read have texts with commas between them. -/
theorem exists_parts_of_readItems {readOne : List Char → Draft × List Char}
    (hone : TakesSpellings readOne) {n : Nat} {items : List Draft}
    (h : readItems readOne n cs = (items, true, rest)) :
    ∃ parts : List (List Char × Draft), parts ≠ [] ∧ (∀ part ∈ parts, Spells part.1 part.2) ∧
      items = parts.map (·.2) ∧ cs = [','].intercalate (parts.map (·.1)) ++ ']' :: rest := by
  induction n generalizing cs items with
  | zero => cases h
  | succ n ih =>
    rw [readItems] at h
    cases hread : readOne cs with
    | mk item behind =>
      simp only [hread] at h
      split at h
      · cases h
      · next hcomplete =>
        obtain ⟨text, htext, rfl⟩ := hone hread (by simpa using hcomplete)
        obtain ⟨blanks, hblanks, hbehind⟩ := exists_skipSpace behind
        split at h
        · next more hskip =>
          rw [hskip] at hbehind
          cases hrest : readItems readOne n more with
          | mk others ends =>
            obtain ⟨closed, rest'⟩ := ends
            simp only [hrest] at h
            cases h
            obtain ⟨parts, hne, hparts, rfl, rfl⟩ := ih hrest
            refine ⟨(text ++ blanks, item) :: parts, List.cons_ne_nil _ _,
              List.forall_mem_cons.2 ⟨htext.append hblanks, hparts⟩, rfl, ?_⟩
            rw [hbehind, List.map_cons, List.intercalate_cons_of_ne_nil (by simpa using hne)]
            simp
        · next more hskip =>
          rw [hskip] at hbehind
          cases h
          refine ⟨[(text ++ blanks, item)], List.cons_ne_nil _ _,
            List.forall_mem_singleton.2 (htext.append hblanks), rfl, ?_⟩
          rw [hbehind, List.map_singleton, List.intercalate_singleton, List.append_assoc]
        · cases h

/-- The first of the members that are read has a text, and so have the others, if there are any. -/
theorem exists_part_of_readMembers {readOne : List Char → Draft × List Char}
    (hone : TakesSpellings readOne) {n : Nat} {members : List (Option String × Draft)}
    (h : readMembers readOne (n + 1) cs = (members, true, rest)) :
    ∃ part : MemberText, Spells part.keyText (.string part.key) ∧
      Spells part.valueText part.value ∧
      (members = [(part.key, part.value)] ∧ cs = part.text ++ '\x7d' :: rest ∨
        ∃ others more, readMembers readOne n more = (others, true, rest) ∧
          members = (part.key, part.value) :: others ∧ cs = part.text ++ ',' :: more) := by
  rw [readMembers] at h
  split at h
  case h_2 => cases h
  next inner hquote =>
  split at h
  · cases h
  next key behindKey hkey =>
  split at h
  case h_2 => cases h
  next inValue hcolon =>
  cases hread : readOne inValue with | mk value behind =>
  simp only [hread] at h
  split at h
  · cases h
  next hcomplete =>
  obtain ⟨before, hbefore, hcs⟩ := exists_skipSpace cs
  obtain ⟨body, hbody, rfl⟩ := exists_spells_of_readString? hkey
  obtain ⟨between, hbetween, hbehindKey⟩ := exists_skipSpace behindKey
  obtain ⟨text, htext, rfl⟩ := hone hread (by simpa using hcomplete)
  obtain ⟨after, hafter, hbehind⟩ := exists_skipSpace behind
  have hcs : cs = MemberText.text ⟨before ++ ('"' :: (body ++ ['"']) ++ between), key,
      text ++ after, value⟩ ++ skipSpace behind := by
    rw [hcs, hquote, hbehindKey, hcolon, hbehind]
    simp [MemberText.text, ← hbehind]
  refine ⟨⟨_, key, text ++ after, value⟩, hbody.blanks hbefore hbetween, htext.append hafter, ?_⟩
  split at h
  · next more hcomma =>
    cases hrest : readMembers readOne n more with | mk others ends =>
    obtain ⟨closed, rest'⟩ := ends
    simp only [hrest] at h
    cases h
    exact .inr ⟨others, more, hrest, rfl, hcomma ▸ hcs⟩
  · next more hbrace =>
    cases h
    exact .inl ⟨rfl, hbrace ▸ hcs⟩
  · cases h

/-- Members that are read have texts with commas between them. -/
theorem exists_parts_of_readMembers {readOne : List Char → Draft × List Char}
    (hone : TakesSpellings readOne) {n : Nat} {members : List (Option String × Draft)}
    (h : readMembers readOne n cs = (members, true, rest)) :
    ∃ parts : List MemberText, parts ≠ [] ∧
      (∀ part ∈ parts, Spells part.keyText (.string part.key)) ∧
      (∀ part ∈ parts, Spells part.valueText part.value) ∧
      members = parts.map (fun part => (part.key, part.value)) ∧
      cs = [','].intercalate (parts.map (·.text)) ++ '\x7d' :: rest := by
  induction n generalizing cs members with
  | zero => cases h
  | succ n ih =>
    obtain ⟨part, hkey, hvalue, ⟨rfl, rfl⟩ | ⟨others, more, hrest, rfl, rfl⟩⟩ :=
      exists_part_of_readMembers hone h
    · refine ⟨[part], List.cons_ne_nil _ _, List.forall_mem_singleton.2 hkey,
        List.forall_mem_singleton.2 hvalue, rfl, ?_⟩
      rw [List.map_singleton, List.intercalate_singleton]
    · obtain ⟨parts, hne, hkeys, hvalues, rfl, rfl⟩ := ih hrest
      refine ⟨part :: parts, List.cons_ne_nil _ _, List.forall_mem_cons.2 ⟨hkey, hkeys⟩,
        List.forall_mem_cons.2 ⟨hvalue, hvalues⟩, rfl, ?_⟩
      rw [List.map_cons, List.intercalate_cons_of_ne_nil (by simpa using hne)]
      simp

/-- What is read has the text that was read, if this holds of what is read inside its brackets. -/
theorem takesSpellings_of_lower
    (hlower : ∀ lower, levels = lower + 1 → TakesSpellings (readValue lower)) :
    TakesSpellings (readValue levels) := by
  intro cs draft rest h hcomplete
  obtain ⟨blanks, hblanks, hcs⟩ := exists_skipSpace cs
  suffices hstart : ∃ text, Spells text draft ∧ skipSpace cs = text ++ rest by
    obtain ⟨text, htext, hskip⟩ := hstart
    refine ⟨blanks ++ (text ++ []), htext.blanks hblanks isBlank_nil, ?_⟩
    rw [List.append_nil, List.append_assoc, ← hskip, ← hcs]
  obtain hstarts | rfl := starts_of_readValue h
  · generalize skipSpace cs = start at hstarts
    cases hstarts with
    | null => exact ⟨_, .nullWord, rfl⟩
    | @bool word value hword =>
      subst hword
      cases value with
      | true => exact ⟨_, .trueWord, rfl⟩
      | false => exact ⟨_, .falseWord, rfl⟩
    | number hread =>
      obtain ⟨text, htext, rfl⟩ := JsonNumber.exists_spells_of_read? hread
      exact ⟨text, .number htext, rfl⟩
    | string hread =>
      obtain ⟨body, hbody, rfl⟩ := exists_spells_of_readString? hread
      exact ⟨_, hbody, by simp⟩
    | @emptyArray inner _ hclose =>
      obtain ⟨blanks, hblanks, hinner⟩ := exists_skipSpace inner
      rw [hclose] at hinner
      exact ⟨_, .emptyArray hblanks, by simp [hinner]⟩
    | @array lower inner _ items closed hlevels hread =>
      obtain rfl : closed = true := hcomplete
      obtain ⟨parts, hne, hparts, rfl, rfl⟩ :=
        exists_parts_of_readItems (hlower lower hlevels) hread
      exact ⟨_, .array parts hne hparts, by simp⟩
    | @emptyObject inner _ hclose =>
      obtain ⟨blanks, hblanks, hinner⟩ := exists_skipSpace inner
      rw [hclose] at hinner
      exact ⟨_, .emptyObject hblanks, by simp [hinner]⟩
    | @object lower inner _ members closed hlevels hread =>
      obtain rfl : closed = true := hcomplete
      obtain ⟨parts, hne, hkeys, hvalues, rfl, rfl⟩ :=
        exists_parts_of_readMembers (hlower lower hlevels) hread
      exact ⟨_, .object parts hne hkeys hvalues, by simp⟩
  · cases hcomplete

theorem takesSpellings_readValue (levels : Nat) : TakesSpellings (readValue levels) := by
  induction levels with
  | zero =>
    exact takesSpellings_of_lower fun lower hlevels => absurd hlevels.symm (Nat.succ_ne_zero lower)
  | succ levels ih => exact takesSpellings_of_lower fun lower hlevels => Nat.succ.inj hlevels ▸ ih

/-- What a text is read as, to its end, it spells. -/
theorem spells_of_readValue (h : readValue cs.length cs = (draft, []))
    (hcomplete : draft.isComplete = true) : Spells cs draft := by
  obtain ⟨text, htext, hcs⟩ := takesSpellings_readValue _ h hcomplete
  rw [List.append_nil] at hcs
  exact hcs ▸ htext

/-- A text is read as a draft without a fault of form exactly if it spells that draft. -/
theorem read_eq_iff_spells {text : String} {draft : Draft} :
    read text = (draft, true) ∧ draft.isComplete = true ↔ Spells text.toList draft := by
  constructor
  · rintro ⟨hread, hcomplete⟩
    cases hvalue : readValue text.toList.length text.toList with
    | mk start rest =>
      simp only [read, hvalue, Prod.mk.injEq, List.all_eq_true] at hread
      obtain ⟨rfl, hrest⟩ := hread
      obtain ⟨cs, hcs, htext⟩ := takesSpellings_readValue _ hvalue hcomplete
      exact htext ▸ hcs.append hrest
  · intro h
    obtain ⟨blanks, hblanks, hread⟩ := h.isRead (Nat.le_refl _) [] nofun
    rw [List.append_nil, List.append_nil] at hread
    refine ⟨?_, h.isComplete⟩
    simp only [read, hread]
    rw [List.all_eq_true.2 hblanks]

end OperationAtlas.Draft
