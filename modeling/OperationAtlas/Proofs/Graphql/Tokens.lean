import Mathlib.Data.Bool.AllAny
import Mathlib.Tactic.Conv
import Mathlib.Tactic.Tauto
import OperationAtlas.Proofs.Graphql.Lexing
import OperationAtlas.Proofs.Text.Digits

/-!
# Names, punctuation and numbers in texts

What a name, a punctuation character or a number is read as, with any rest behind it under which it
ends. An integer of the 64-bit range is read as itself (`numberLexeme_int`).
-/

namespace OperationAtlas.Graphql

open Text

/-! ## Names -/

/-- A name: a letter or an underscore, then letters, digits and underscores. -/
def IsName (text : String) : Prop :=
  ∃ c cs, text.toList = c :: cs ∧ isNameStart c = true ∧ cs.all isNameRest = true

theorem isName_iff {text : String} : IsName text ↔
    text.toList.head?.any isNameStart = true ∧ text.toList.tail.all isNameRest = true := by
  constructor
  · rintro ⟨c, cs, htext, hname⟩
    simpa [htext] using hname
  · intro h
    cases htext : text.toList with
    | nil => simp [htext] at h
    | cons c cs => exact ⟨c, cs, htext, by simpa [htext] using h⟩

instance (text : String) : Decidable (IsName text) :=
  decidable_of_iff _ isName_iff.symm

/-- A word before the given text ends there. -/
def EndsWord (rest : List Char) : Prop :=
  ∀ c ∈ rest.head?, endsNumber c = true

@[simp] theorem endsWord_nil : EndsWord [] := nofun

@[simp] theorem endsWord_cons {c : Char} {cs : List Char} :
    EndsWord (c :: cs) ↔ endsNumber c = true := by
  simp [EndsWord]

theorem endsNumber_cases {c : Char} (h : endsNumber c = true) :
    c ∈ [' ', '\n', '\r', '\t', ',', '#'] ++ punctuation := by
  simp only [endsNumber, Bool.or_eq_true, beq_iff_eq, List.contains_eq_mem, decide_eq_true_eq] at h
  simp only [List.mem_append, List.mem_cons, List.not_mem_nil, or_false]
  tauto

theorem isNameRest_of_endsNumber {c : Char} (h : endsNumber c = true) : isNameRest c = false := by
  have hall : ∀ c ∈ [' ', '\n', '\r', '\t', ',', '#'] ++ punctuation, isNameRest c = false :=
    List.all_iff_forall_prop.1 (by decide)
  exact hall c (endsNumber_cases h)

theorem ne_quote_of_endsNumber {c : Char} (h : endsNumber c = true) : c ≠ '"' := by
  rintro rfl
  exact absurd h (by decide)

/-- The lexeme of a text that starts with neither a quotation mark nor a point. -/
theorem firstLexeme_of_ne {c : Char} {rest : List Char} (hquote : c ≠ '"') (hpoint : c ≠ '.') :
    firstLexeme (c :: rest) =
      if isNameStart c then
        (.name (String.ofList (c :: rest.takeWhile isNameRest)), rest.dropWhile isNameRest)
      else if c == '-' || JsonNumber.isDigit c then
        (numberLexeme (c :: rest.takeWhile fun c => !endsNumber c),
          rest.dropWhile fun c => !endsNumber c)
      else if punctuation.contains c then (.punct c, rest)
      else (.bad, []) := by
  conv_lhs => unfold firstLexeme
  split
  · next heq => exact absurd (List.cons.inj heq).1 hquote
  · next heq => exact absurd (List.cons.inj heq).1 hquote
  · next heq => exact absurd (List.cons.inj heq).1 hpoint
  · next heq => cases heq; rfl
  · next heq => cases heq

/-- A name is read as that name. -/
theorem lexemesOf_name {text : String} (h : IsName text) {rest : List Char}
    (hrest : EndsWord rest) :
    lexemesOf (text.toList ++ rest) = .name text :: lexemesOf rest := by
  obtain ⟨c, cs, htext, hc, hcs⟩ := h
  obtain ⟨htake, hdrop⟩ := takeWhile_append_of_head rest hcs
    fun d hd => isNameRest_of_endsNumber (hrest d hd)
  have hquote : c ≠ '"' := by rintro rfl; exact absurd hc (by decide)
  have hpoint : c ≠ '.' := by rintro rfl; exact absurd hc (by decide)
  have hskip : skipText false (text.toList ++ rest) = c :: (cs ++ rest) := by
    rw [htext, List.cons_append]
    refine skipText_cons fun hmem => ?_
    have hall : ∀ c ∈ separators, isNameStart c = false := List.all_iff_forall_prop.1 (by decide)
    exact absurd hc (by simp [hall c hmem])
  have hfirst : firstLexeme (c :: (cs ++ rest)) = (.name text, rest) := by
    rw [firstLexeme_of_ne hquote hpoint, if_pos hc, htake, hdrop, ← htext, String.ofList_toList]
  exact lexemesOf_of_firstLexeme hskip hfirst nofun

/-! ## Punctuation -/

/-- A punctuation character is read as itself. -/
theorem lexemesOf_punct {c : Char} (h : c ∈ punctuation) (cs : List Char) :
    lexemesOf (c :: cs) = .punct c :: lexemesOf cs := by
  have hall : ∀ c ∈ punctuation, c ∉ separators ∧ c ≠ '"' ∧ c ≠ '.' ∧ isNameStart c = false ∧
      (c == '-' || JsonNumber.isDigit c) = false := List.all_iff_forall_prop.1 (by decide)
  obtain ⟨hskip, hquote, hpoint, hname, hnumber⟩ := hall c h
  have hfirst : firstLexeme (c :: cs) = (.punct c, cs) := by
    rw [firstLexeme_of_ne hquote hpoint, hname, hnumber]
    simp [h]
  exact lexemesOf_of_firstLexeme (skipText_cons hskip) hfirst nofun

/-- Three points are read as one lexeme. -/
theorem lexemesOf_spread (cs : List Char) :
    lexemesOf ('.' :: '.' :: '.' :: cs) = .spread :: lexemesOf cs :=
  lexemesOf_of_firstLexeme (skipText_cons (by decide)) rfl nofun

/-! ## Numbers -/

/-- A text that the lexer takes for a number up to where it ends. -/
structure IsNumberText (cs : List Char) : Prop where
  start : ∃ c rest, cs = c :: rest ∧ (c = '-' ∨ JsonNumber.isDigit c = true)
  inside : cs.all (fun c => !endsNumber c) = true

theorem not_isNameStart_of_isDigit {c : Char} (h : JsonNumber.isDigit c = true) :
    isNameStart c = false := by
  simp only [JsonNumber.isDigit, Bool.and_eq_true, decide_eq_true_eq] at h
  have hunderscore : c ≠ '_' := by rintro rfl; exact absurd h.2 (by decide)
  simp only [isNameStart, Bool.or_eq_false_iff, beq_eq_false_iff_ne]
  refine ⟨?_, hunderscore⟩
  have hnat : 48 ≤ c.val.toNat ∧ c.val.toNat ≤ 57 := h
  delta Char.isAlpha Char.isUpper Char.isLower
  simp only [Bool.or_eq_false_iff, Bool.and_eq_false_iff, decide_eq_false_iff_not]
  refine ⟨?_, ?_⟩
  · rintro ⟨hlow, -⟩
    have : 65 ≤ c.val.toNat := UInt32.le_iff_toNat_le.1 hlow
    omega
  · refine .inl fun hlow => ?_
    have : 97 ≤ c.val.toNat := UInt32.le_iff_toNat_le.1 hlow
    omega

theorem not_endsNumber_of_isDigit {c : Char} (h : JsonNumber.isDigit c = true) :
    endsNumber c = false := by
  rw [← Bool.not_eq_true]
  intro hends
  have hall : ∀ c ∈ [' ', '\n', '\r', '\t', ',', '#'] ++ punctuation,
      JsonNumber.isDigit c = false := List.all_iff_forall_prop.1 (by decide)
  exact absurd h (by simp [hall c (endsNumber_cases hends)])

/-- A number is read as what it writes. -/
theorem lexemesOf_number {cs rest : List Char} (h : IsNumberText cs) (hrest : EndsWord rest) :
    lexemesOf (cs ++ rest) = untilBad (numberLexeme cs :: lexemesOf rest) := by
  obtain ⟨⟨c, cs, rfl, hc⟩, hinside⟩ := h
  simp only [List.all_cons, Bool.and_eq_true] at hinside
  obtain ⟨htake, hdrop⟩ := takeWhile_append_of_head rest hinside.2 fun d hd => by simp [hrest d hd]
  have hname : isNameStart c = false := by
    rcases hc with rfl | hc
    · decide
    · exact not_isNameStart_of_isDigit hc
  have hquote : c ≠ '"' := by rintro rfl; rcases hc with h | h <;> revert h <;> decide
  have hpoint : c ≠ '.' := by rintro rfl; rcases hc with h | h <;> revert h <;> decide
  have hnumber : (c == '-' || JsonNumber.isDigit c) = true := by simpa using hc
  have hskip : c ∉ separators := by
    intro hmem
    have hall : ∀ c ∈ separators, (c == '-' || JsonNumber.isDigit c) = false :=
      List.all_iff_forall_prop.1 (by decide)
    exact absurd hnumber (by simp [hall c hmem])
  have hfirst : firstLexeme (c :: (cs ++ rest)) = (numberLexeme (c :: cs), rest) := by
    rw [firstLexeme_of_ne hquote hpoint, hname, hnumber, htake, hdrop]
    simp
  exact lexemesOf_eq_untilBad (skipText_cons hskip) hfirst

theorem isWhole_toDigits (n : Nat) : isWhole (Nat.toDigits 10 n) = true := by
  simp only [isWhole, Bool.and_eq_true, Bool.or_eq_true, Bool.not_eq_true',
    List.isEmpty_eq_false_iff,
    ne_eq, Nat.toDigits_ne_nil, not_false_eq_true, List.all_eq_true, true_and, bne_iff_ne,
    beq_iff_eq]
  refine ⟨fun c hc => isDigit_of_mem_toDigits hc, ?_⟩
  by_cases hn : n = 0
  · subst hn; right; rfl
  · left; exact fun h => hn (head?_toDigits h)

theorem guard_of {p : Prop} [Decidable p] (h : p) : (guard p : Option Unit) = some () :=
  if_pos h

/-- The parts of a natural behind its sign. -/
theorem numberParts?_toDigits (negative : Bool) (n : Nat) :
    numberParts? ((if negative then ['-'] else []) ++ Nat.toDigits 10 n) =
      some ⟨negative, Nat.toDigits 10 n, none, none⟩ := by
  obtain ⟨htakeMark, hdropMark⟩ := takeWhile_toDigits (p := fun c => !c == 'e' && !c == 'E')
    (fun c hc => by
      simp [ne_of_isDigit (d := 'e') hc (by decide), ne_of_isDigit (d := 'E') hc (by decide)]) n
  obtain ⟨htakePoint, hdropPoint⟩ := takeWhile_toDigits (p := fun c => !decide (c = '.'))
    (fun c hc => by simp [ne_of_isDigit (d := '.') hc (by decide)]) n
  have hhead : ((Nat.toDigits 10 n).head? == some '-') = false := by
    rw [List.head?_eq_some_head Nat.toDigits_ne_nil]
    simpa using ne_of_isDigit (isDigit_of_mem_toDigits (List.head_mem _)) (by decide)
  cases negative with
  | true =>
    simp [numberParts?, htakeMark, hdropMark, htakePoint, hdropPoint, isWhole_toDigits, ↓guard_of]
  | false =>
    simp [numberParts?, hhead, htakeMark, hdropMark, htakePoint, hdropPoint, isWhole_toDigits,
      ↓guard_of]

/-- The integers of 64 bits. -/
def IsWord (value : Int) : Prop := -0x8000000000000000 ≤ value ∧ value < 0x8000000000000000

/-- An integer of 64 bits is read as itself. -/
theorem numberLexeme_int {value : Int} (h : IsWord value) :
    numberLexeme (toString value).toList = .int value := by
  rw [toList_toString_int, numberLexeme, numberParts?_toDigits]
  by_cases hneg : value < 0
  · have hvalue : -(value.natAbs : Int) = value := by omega
    simp only [hneg, decide_true, ↓reduceIte, natOfDigits_toDigits, hvalue, h.1, h.2, and_self]
  · have hvalue : (value.natAbs : Int) = value := by omega
    simp only [hneg, decide_false, Bool.false_eq_true, ↓reduceIte, natOfDigits_toDigits,
      hvalue, h.1, h.2, and_self]

theorem isNumberText_int (value : Int) : IsNumberText (toString value).toList := by
  rw [toList_toString_int]
  have hdigits : (Nat.toDigits 10 value.natAbs).all (fun c => !endsNumber c) = true :=
    List.all_eq_true.2 fun c hc => by
      simp [not_endsNumber_of_isDigit (isDigit_of_mem_toDigits hc)]
  by_cases hneg : value < 0
  · simp only [hneg, decide_true, if_true]
    exact ⟨⟨'-', _, rfl, .inl rfl⟩, by
      rw [List.all_append, hdigits]; rfl⟩
  · simp only [hneg, decide_false, Bool.false_eq_true, if_false, List.nil_append]
    obtain ⟨c, cs, heq⟩ := List.exists_cons_of_ne_nil
      (Nat.toDigits_ne_nil (n := value.natAbs) (b := 10))
    exact ⟨⟨c, cs, heq, .inr (isDigit_of_mem_toDigits (heq ▸ List.mem_cons_self))⟩, hdigits⟩

/-! ## Valid lexemes -/

/-- A lexeme that a text can have: its name is a name, its integer has 64 bits. -/
def Lexeme.IsValid : Lexeme → Prop
  | .name word => IsName word
  | .int value => IsWord value
  | .punct c => c ∈ punctuation
  | .spread | .float .. | .text .. | .bad => True

/-- A number is bad, an integer of 64 bits or a double. -/
theorem numberLexeme_cases (cs : List Char) :
    numberLexeme cs = .bad ∨ (∃ value, IsWord value ∧ numberLexeme cs = .int value) ∨
      ∃ value, numberLexeme cs = .float value := by
  unfold numberLexeme
  split
  · exact .inl rfl
  · next negative whole _ =>
    dsimp only
    generalize (if negative = true then -(JsonNumber.natOfDigits whole : Int)
      else JsonNumber.natOfDigits whole) = value
    by_cases hrange : -0x8000000000000000 ≤ value ∧ value < 0x8000000000000000
    · exact .inr (.inl ⟨value, hrange, if_pos hrange⟩)
    · exact .inl (if_neg hrange)
  · exact .inr (.inr ⟨_, rfl⟩)

theorem numberLexeme_isValid (cs : List Char) : (numberLexeme cs).IsValid := by
  rcases numberLexeme_cases cs with h | ⟨value, hvalue, h⟩ | ⟨value, h⟩ <;> rw [h]
  · trivial
  · exact hvalue
  · trivial

theorem firstLexeme_isValid (cs : List Char) : (firstLexeme cs).1.IsValid := by
  unfold firstLexeme
  split
  · split <;> trivial
  · split
    · split <;> trivial
    · trivial
  · trivial
  · next c rest _ _ _ =>
    split
    · next hstart =>
      refine ⟨c, rest.takeWhile isNameRest, String.toList_ofList, hstart, ?_⟩
      exact List.all_takeWhile
    · split
      · exact numberLexeme_isValid _
      · split
        · next hpunct => simpa [Lexeme.IsValid] using hpunct
        · trivial
  · trivial

/-- Every lexeme of a text is valid. -/
theorem isValid_of_mem_lexemesOf {cs : List Char} : ∀ l ∈ lexemesOf cs, l.IsValid := by
  induction hn : cs.length using Nat.strongRecOn generalizing cs with
  | _ n ih =>
    cases htext : skipText false cs with
    | nil => simp [lexemesOf_of_skipText_nil htext]
    | cons c rest =>
      rcases hfirst : firstLexeme (c :: rest) with ⟨l, behind⟩
      have hvalid := firstLexeme_isValid (c :: rest)
      rw [hfirst] at hvalid
      by_cases hl : l = .bad
      · subst hl
        simpa [lexemesOf_of_firstLexeme_bad htext hfirst] using hvalid
      · have hlength := length_skipText_le false cs
        have := length_of_firstLexeme hfirst
        rw [htext, List.length_cons] at hlength
        rw [lexemesOf_of_firstLexeme htext hfirst hl]
        exact List.forall_mem_cons.2 ⟨hvalid, ih behind.length (by omega) rfl⟩

end OperationAtlas.Graphql
