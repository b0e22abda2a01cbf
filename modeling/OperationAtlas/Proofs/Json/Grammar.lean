import OperationAtlas.Json.Draft
import OperationAtlas.Proofs.Text.Digits

/-!
# The grammar of numbers and strings

A number has a whole part, a fraction and an exponent (`JsonNumber.Spells`). It is read as what its
parts make (`JsonNumber.Spells.read?`), and nothing else is read (`JsonNumber.exists_spells_of_read?`).

A character of a string is written as itself or as an escape (`Quoted.SpellsPieces`), and two escapes
may stand for one character (`Quoted.Means`). A string is read as what its pieces mean
(`Quoted.pieces?_eq_some_iff`, `Quoted.text?_eq_some_iff`).
-/

namespace OperationAtlas

/-! ## Numbers -/

namespace JsonNumber

open Text

/-- Digits, at least one. -/
def IsDigits (cs : List Char) : Prop := cs ≠ [] ∧ ∀ c ∈ cs, isDigit c = true

/-- A whole number has no superfluous zero in front. -/
def IsWhole (cs : List Char) : Prop := IsDigits cs ∧ (cs.head? = some '0' → cs.length = 1)

/-- The text of a fraction, and its digits if there is one. -/
inductive SpellsFraction : List Char → Option (List Char) → Prop
  | absent : SpellsFraction [] none
  | digits {cs : List Char} (h : IsDigits cs) : SpellsFraction ('.' :: cs) (some cs)

/-- The text of an exponent, and whether it is negative and its digits if there is one. -/
inductive SpellsExponent : List Char → Option (Bool × List Char) → Prop
  | absent : SpellsExponent [] none
  | unsigned {mark : Char} {cs : List Char} (hmark : mark = 'e' ∨ mark = 'E') (h : IsDigits cs) :
      SpellsExponent (mark :: cs) (some (false, cs))
  | up {mark : Char} {cs : List Char} (hmark : mark = 'e' ∨ mark = 'E') (h : IsDigits cs) :
      SpellsExponent (mark :: '+' :: cs) (some (false, cs))
  | down {mark : Char} {cs : List Char} (hmark : mark = 'e' ∨ mark = 'E') (h : IsDigits cs) :
      SpellsExponent (mark :: '-' :: cs) (some (true, cs))

/-- The text of a number, and the number, or nothing if it lies beyond the range of doubles. -/
inductive Spells : List Char → Option JsonNumber → Prop
  | parts (negative : Bool) {whole fractionText exponentText : List Char}
      {fraction : Option (List Char)} {exponent : Option (Bool × List Char)}
      (hwhole : IsWhole whole) (hfraction : SpellsFraction fractionText fraction)
      (hexponent : SpellsExponent exponentText exponent) :
      Spells ((if negative then ['-'] else []) ++ (whole ++ (fractionText ++ exponentText)))
        (ofParts? negative whole fraction exponent)

/-! ## Where a number starts and ends -/

/-- A number before the given text ends there. -/
def EndsNumber (rest : List Char) : Prop :=
  ∀ c ∈ rest.head?, isDigit c = false ∧ c ≠ '.' ∧ c ≠ 'e' ∧ c ≠ 'E'

theorem endsNumber_of_isSpace {rest : List Char} (h : rest.all isSpace = true) :
    EndsNumber rest := by
  intro c hc
  have hspace := List.all_eq_true.1 h c (List.mem_of_mem_head? hc)
  simp only [isSpace, Bool.or_eq_true, beq_iff_eq] at hspace
  rcases hspace with ((rfl | rfl) | rfl) | rfl <;> decide

/-- A character that starts a number: a sign or a digit. -/
def StartsNumber (c : Char) : Prop :=
  c = '-' ∨ isDigit c = true

theorem StartsNumber.ne {c d : Char} (h : StartsNumber c) (hsign : d ≠ '-')
    (hdigit : isDigit d = false) : c ≠ d := by
  rintro rfl
  rcases h with rfl | h
  · exact hsign rfl
  · rw [hdigit] at h
    cases h

theorem StartsNumber.isSpace {c : Char} (h : StartsNumber c) : JsonNumber.isSpace c = false := by
  simp only [JsonNumber.isSpace, Bool.or_eq_false_iff, beq_eq_false_iff_ne]
  exact ⟨⟨⟨h.ne (by decide) (by decide), h.ne (by decide) (by decide)⟩,
    h.ne (by decide) (by decide)⟩, h.ne (by decide) (by decide)⟩

/-! ## The parts of a number -/

/-- Reads the digits of a fraction, if a point stands there. -/
def fraction? (cs : List Char) : Option (Option (List Char) × List Char) :=
  match cs with
  | '.' :: rest =>
    let digits := rest.takeWhile isDigit
    if digits.isEmpty then none else some (some digits, rest.dropWhile isDigit)
  | _ => some (none, cs)

/-- Reads an exponent, if its mark stands there. -/
def exponent? (cs : List Char) : Option (Option (Bool × List Char) × List Char) :=
  match cs with
  | c :: rest =>
    if c = 'e' ∨ c = 'E' then
      let down := rest.head? == some '-'
      let rest := if down || rest.head? == some '+' then rest.drop 1 else rest
      let digits := rest.takeWhile isDigit
      if digits.isEmpty then none else some (some (down, digits), rest.dropWhile isDigit)
    else some (none, c :: rest)
  | [] => some (none, [])

/-- Reads a number without its sign. -/
def unsigned? (negative : Bool) (cs : List Char) : Option (Option JsonNumber × List Char) :=
  let whole := cs.takeWhile isDigit
  if whole.isEmpty || (whole.head? == some '0' && whole.length > 1) then none
  else match fraction? (cs.dropWhile isDigit) with
    | none => none
    | some (fraction, cs) =>
      (exponent? cs).map fun (exponent, cs) => (ofParts? negative whole fraction exponent, cs)

theorem read?_eq (cs : List Char) :
    read? cs = unsigned? (cs.head? == some '-') (if cs.head? == some '-' then cs.drop 1 else cs) :=
  rfl

variable {cs rest digits : List Char}

theorem IsDigits.span (h : IsDigits digits) (hrest : ∀ c ∈ rest.head?, isDigit c = false) :
    (digits ++ rest).takeWhile isDigit = digits ∧ (digits ++ rest).dropWhile isDigit = rest :=
  takeWhile_append_of_head rest (List.all_eq_true.2 h.2) hrest

theorem IsDigits.exists_first (h : IsDigits digits) :
    ∃ c cs, digits = c :: cs ∧ isDigit c = true := by
  obtain ⟨c, cs, rfl⟩ := List.exists_cons_of_ne_nil h.1
  exact ⟨c, cs, rfl, h.2 c List.mem_cons_self⟩

theorem isDigits_takeWhile (h : (cs.takeWhile isDigit).isEmpty = false) :
    IsDigits (cs.takeWhile isDigit) :=
  ⟨List.isEmpty_eq_false_iff.1 h, fun _ hc => List.mem_takeWhile_imp hc⟩

/-- A fraction is read up to a character that does not go on with it. -/
theorem fraction?_of_spells {fraction : Option (List Char)} (h : SpellsFraction cs fraction)
    (hrest : ∀ c ∈ rest.head?, isDigit c = false ∧ c ≠ '.') :
    fraction? (cs ++ rest) = some (fraction, rest) := by
  cases h with
  | absent =>
    cases rest with
    | nil => rfl
    | cons c rest => simp [fraction?, (hrest c rfl).2]
  | @digits digits h =>
    obtain ⟨htake, hdrop⟩ := h.span fun c hc => (hrest c hc).1
    simp [fraction?, htake, hdrop, h.1]

theorem spellsFraction_of_fraction? {fraction : Option (List Char)}
    (h : fraction? cs = some (fraction, rest)) :
    ∃ text, SpellsFraction text fraction ∧ cs = text ++ rest := by
  unfold fraction? at h
  split at h
  · next tail =>
    dsimp only at h
    split at h
    · cases h
    · next hdigits =>
      cases h
      exact ⟨_, .digits (isDigits_takeWhile (by simpa using hdigits)), by simp⟩
  · cases h
    exact ⟨[], .absent, rfl⟩

/-- An exponent is read up to a character that does not go on with it. -/
theorem exponent?_of_spells {exponent : Option (Bool × List Char)} (h : SpellsExponent cs exponent)
    (hrest : EndsNumber rest) : exponent? (cs ++ rest) = some (exponent, rest) := by
  have hends : ∀ c, rest.head? = some c → c.isDigit = false := fun c hc => (hrest c hc).1
  cases h with
  | absent =>
    cases rest with
    | nil => rfl
    | cons c rest =>
      obtain ⟨-, -, he, hE⟩ := hrest c rfl
      simp [exponent?, he, hE]
  | @unsigned mark digits hmark h =>
    obtain ⟨htake, hdrop⟩ := h.span hends
    obtain ⟨c, more, rfl, hc⟩ := h.exists_first
    have hminus : c ≠ '-' := ne_of_isDigit hc (by decide)
    have hplus : c ≠ '+' := ne_of_isDigit hc (by decide)
    rw [List.cons_append] at htake hdrop
    simp [exponent?, hmark, hminus, hplus, htake, hdrop]
  | up hmark h | down hmark h =>
    obtain ⟨htake, hdrop⟩ := h.span hends
    simp [exponent?, hmark, htake, hdrop, h.1]

/-- Digits that stand at the start of a text are read, if there is one at least. -/
theorem spellsDigits_of_exponent {tail : List Char} {down : Bool}
    {exponent : Option (Bool × List Char)}
    (h : (if (tail.takeWhile isDigit).isEmpty then none
      else some (some (down, tail.takeWhile isDigit), tail.dropWhile isDigit)) =
        some (exponent, rest)) :
    ∃ digits, IsDigits digits ∧ exponent = some (down, digits) ∧ tail = digits ++ rest := by
  split at h
  · cases h
  · next hdigits =>
    cases h
    exact ⟨_, isDigits_takeWhile (Bool.not_eq_true _ ▸ hdigits), rfl,
      List.takeWhile_append_dropWhile.symm⟩

theorem spellsExponent_of_exponent? {exponent : Option (Bool × List Char)}
    (h : exponent? cs = some (exponent, rest)) :
    ∃ text, SpellsExponent text exponent ∧ cs = text ++ rest := by
  unfold exponent? at h
  split at h
  · next mark tail =>
    split at h
    · next hmark =>
      dsimp only at h
      by_cases hdown : tail.head? = some '-'
      · obtain ⟨tail, rfl⟩ := List.head?_eq_some_iff.1 hdown
        obtain ⟨digits, hdigits, rfl, rfl⟩ := spellsDigits_of_exponent h
        exact ⟨_, .down hmark hdigits, rfl⟩
      · by_cases hup : tail.head? = some '+'
        · obtain ⟨tail, rfl⟩ := List.head?_eq_some_iff.1 hup
          obtain ⟨digits, hdigits, rfl, rfl⟩ := spellsDigits_of_exponent h
          exact ⟨_, .up hmark hdigits, rfl⟩
        · rw [beq_false_of_ne hdown, beq_false_of_ne hup] at h
          obtain ⟨digits, hdigits, rfl, rfl⟩ := spellsDigits_of_exponent h
          exact ⟨_, .unsigned hmark hdigits, rfl⟩
    · cases h
      exact ⟨[], .absent, rfl⟩
  · cases h
    exact ⟨[], .absent, rfl⟩

/-- A whole number does not start with a superfluous zero. -/
theorem isWhole_iff {whole : List Char} (hall : ∀ c ∈ whole, isDigit c = true) :
    IsWhole whole ↔
      (whole.isEmpty || (whole.head? == some '0' && decide (whole.length > 1))) = false := by
  cases whole with
  | nil => simp [IsWhole, IsDigits]
  | cons c cs =>
    simp only [IsWhole, IsDigits, ne_eq, reduceCtorEq, not_false_eq_true, true_and,
      List.head?_cons, List.length_cons, List.isEmpty_cons, Bool.false_or]
    cases cs <;> grind

theorem unsigned?_of_spells (negative : Bool) {whole fractionText exponentText : List Char}
    {fraction : Option (List Char)} {exponent : Option (Bool × List Char)}
    (hwhole : IsWhole whole) (hfraction : SpellsFraction fractionText fraction)
    (hexponent : SpellsExponent exponentText exponent) (hrest : EndsNumber rest) :
    unsigned? negative (whole ++ (fractionText ++ (exponentText ++ rest))) =
      some (ofParts? negative whole fraction exponent, rest) := by
  -- an exponent starts with a letter, so the digits and the fraction before it end there
  have hmark : ∀ c ∈ (exponentText ++ rest).head?, isDigit c = false ∧ c ≠ '.' := by
    cases hexponent with
    | absent => exact fun c hc => ⟨(hrest c hc).1, (hrest c hc).2.1⟩
    | unsigned hmark _ | up hmark _ | down hmark _ =>
      rintro c ⟨⟩
      obtain rfl | rfl := hmark <;> decide
  have hpoint : ∀ c ∈ (fractionText ++ (exponentText ++ rest)).head?, isDigit c = false := by
    cases hfraction with
    | absent => exact fun c hc => (hmark c hc).1
    | digits _ =>
      rintro c ⟨⟩
      decide
  obtain ⟨htake, hdrop⟩ := hwhole.1.span hpoint
  rw [unsigned?, htake, hdrop, fraction?_of_spells hfraction hmark]
  simp only [(isWhole_iff hwhole.1.2).1 hwhole, exponent?_of_spells hexponent hrest]
  rfl

/-- A number starts with its sign or a digit. -/
theorem Spells.exists_first {value : Option JsonNumber} (h : Spells cs value) :
    ∃ c cs', cs = c :: cs' ∧ StartsNumber c := by
  obtain ⟨negative, hwhole, -, -⟩ := h
  obtain ⟨c, digits, rfl, hc⟩ := hwhole.1.exists_first
  cases negative with
  | true => exact ⟨'-', _, rfl, .inl rfl⟩
  | false => exact ⟨c, _, rfl, .inr hc⟩

/-- A number is read up to a text before which it ends. -/
theorem Spells.read? {value : Option JsonNumber} (h : Spells cs value) (hrest : EndsNumber rest) :
    read? (cs ++ rest) = some (value, rest) := by
  obtain ⟨negative, hwhole, hfraction, hexponent⟩ := h
  have hread := unsigned?_of_spells negative hwhole hfraction hexponent hrest
  obtain ⟨c, digits, rfl, hc⟩ := hwhole.1.exists_first
  have hsign : (c == '-') = false := beq_false_of_ne (ne_of_isDigit hc (by decide))
  rw [read?_eq]
  cases negative with
  | true => simpa using hread
  | false => simpa [hsign] using hread

theorem exists_spells_of_unsigned? {negative : Bool} {value : Option JsonNumber}
    (h : unsigned? negative cs = some (value, rest)) :
    ∃ text, Spells ((if negative then ['-'] else []) ++ text) value ∧ cs = text ++ rest := by
  unfold unsigned? at h
  dsimp only at h
  split at h
  · cases h
  next hwhole =>
  split at h
  · cases h
  next fraction behind hfraction =>
  obtain ⟨⟨exponent, _⟩, hexponent, hparts⟩ := Option.map_eq_some_iff.1 h
  cases hparts
  obtain ⟨fractionText, hfractionText, hbehind⟩ := spellsFraction_of_fraction? hfraction
  obtain ⟨exponentText, hexponentText, rfl⟩ := spellsExponent_of_exponent? hexponent
  have hall : ∀ c ∈ cs.takeWhile isDigit, isDigit c = true := fun _ hc => List.mem_takeWhile_imp hc
  refine ⟨_, .parts negative ((isWhole_iff hall).2 (Bool.not_eq_true _ ▸ hwhole)) hfractionText
    hexponentText, ?_⟩
  rw [List.append_assoc, List.append_assoc, ← hbehind, List.takeWhile_append_dropWhile]

/-- What is read is a number at the start of the text. -/
theorem exists_spells_of_read? {value : Option JsonNumber} (h : read? cs = some (value, rest)) :
    ∃ text, Spells text value ∧ cs = text ++ rest := by
  rw [read?_eq] at h
  by_cases hsign : cs.head? = some '-'
  · obtain ⟨cs, rfl⟩ := List.head?_eq_some_iff.1 hsign
    obtain ⟨text, htext, rfl⟩ := exists_spells_of_unsigned? h
    exact ⟨_, htext, rfl⟩
  · rw [beq_false_of_ne hsign] at h
    obtain ⟨text, htext, rfl⟩ := exists_spells_of_unsigned? h
    exact ⟨_, htext, rfl⟩

end JsonNumber

/-! ## Strings -/

namespace Quoted

/-- What stands between quotation marks, and its pieces: characters that are written as themselves,
escapes with a letter and UTF-16 units with four hexadecimal digits. -/
inductive SpellsPieces : List Char → List Piece → Prop
  | nil : SpellsPieces [] []
  | plain {c : Char} {cs : List Char} {pieces : List Piece} (hcontrol : ¬c.toNat < 0x20)
      (hquote : c ≠ '"') (hslash : c ≠ '\\') (h : SpellsPieces cs pieces) :
      SpellsPieces (c :: cs) (.char c :: pieces)
  | letter {e c : Char} {cs : List Char} {pieces : List Piece} (hletter : letterEscape? e = some c)
      (h : SpellsPieces cs pieces) : SpellsPieces ('\\' :: e :: cs) (.char c :: pieces)
  | unit {a b c d : Char} {value : Nat} {cs : List Char} {pieces : List Piece}
      (hquad : hexQuad? a b c d = some value) (h : SpellsPieces cs pieces) :
      SpellsPieces ('\\' :: 'u' :: a :: b :: c :: d :: cs) (.unit value :: pieces)

/-- The characters that pieces stand for: a unit is a character of its own, or two units of the
surrogate range are one. -/
inductive Means : List Piece → List Char → Prop
  | nil : Means [] []
  | char (c : Char) {pieces : List Piece} {cs : List Char} (h : Means pieces cs) :
      Means (.char c :: pieces) (c :: cs)
  | unit {c : Char} (hplane : c.toNat < 0x10000) {pieces : List Piece} {cs : List Char}
      (h : Means pieces cs) : Means (.unit c.toNat :: pieces) (c :: cs)
  | pair {c : Char} {high low : Nat} (hhigh : 0xD800 ≤ high ∧ high ≤ 0xDBFF)
      (hlow : 0xDC00 ≤ low ∧ low ≤ 0xDFFF)
      (hc : c.toNat = 0x10000 + (high - 0xD800) * 0x400 + (low - 0xDC00)) {pieces : List Piece}
      {cs : List Char} (h : Means pieces cs) :
      Means (.unit high :: .unit low :: pieces) (c :: cs)

variable {cs rest body : List Char} {pieces : List Piece}

theorem ne_u_of_letterEscape? {e c : Char} (h : letterEscape? e = some c) : e ≠ 'u' := by
  rintro rfl
  cases h

/-- Pieces are read up to the first quotation mark that is not escaped. -/
theorem pieces?_eq_some_iff :
    pieces? cs = some (pieces, rest) ↔
      ∃ body, cs = body ++ '"' :: rest ∧ SpellsPieces body pieces := by
  constructor
  · intro h
    fun_induction pieces? cs generalizing pieces with
    | case1 => cases h
    | case2 rest =>
      cases h
      exact ⟨[], rfl, .nil⟩
    | case3 a b c d cs ih =>
      obtain ⟨value, hquad, h⟩ := Option.bind_eq_some_iff.1 h
      obtain ⟨⟨more, _⟩, hmore, h⟩ := Option.bind_eq_some_iff.1 h
      cases h
      obtain ⟨body, rfl, hbody⟩ := ih hmore
      exact ⟨_, rfl, .unit hquad hbody⟩
    | case4 e cs hunit ih =>
      obtain ⟨c, hletter, h⟩ := Option.bind_eq_some_iff.1 h
      obtain ⟨⟨more, _⟩, hmore, h⟩ := Option.bind_eq_some_iff.1 h
      cases h
      obtain ⟨body, rfl, hbody⟩ := ih hmore
      exact ⟨_, rfl, .letter hletter hbody⟩
    | case5 => cases h
    | case6 c cs hquote _ _ hplain ih =>
      obtain ⟨⟨more, _⟩, hmore, h⟩ := Option.bind_eq_some_iff.1 h
      cases h
      obtain ⟨body, rfl, hbody⟩ := ih hmore
      rw [not_or] at hplain
      exact ⟨_, rfl, .plain hplain.1 hquote hplain.2 hbody⟩
  · rintro ⟨body, rfl, h⟩
    induction h with
    | nil => rfl
    | plain hcontrol hquote hslash _ ih => simp [pieces?, hcontrol, hslash, ih]
    | letter hletter _ ih =>
      have hunit := ne_u_of_letterEscape? hletter
      simp [pieces?, hunit, hletter, ih]
    | unit hquad _ ih => simp [pieces?, hquad, ih]

/-- No character has a number of the surrogate range. -/
theorem toNat_not_surrogate (c : Char) : ¬(0xD800 ≤ c.toNat ∧ c.toNat ≤ 0xDFFF) := by
  have hvalid : c.toNat < 0xD800 ∨ 0xDFFF < c.toNat ∧ c.toNat < 0x110000 := c.valid
  omega

theorem toNat_ofNat {n : Nat} (h : ¬(0xD800 ≤ n ∧ n ≤ 0xDFFF)) (hn : n < 0x110000) :
    (Char.ofNat n).toNat = n := by
  have hvalid : n.isValidChar := by
    unfold Nat.isValidChar
    omega
  rw [Char.ofNat, dif_pos hvalid]
  rfl

/-- A unit that is a character of its own is read as that, whatever follows it. -/
theorem text?_unit (c : Char) (pieces : List Piece) :
    text? (.unit c.toNat :: pieces) = (text? pieces).map (c :: ·) := by
  have hvalid := toNat_not_surrogate c
  rcases pieces with _ | ⟨_ | low, pieces⟩
  · simp [text?, hvalid, Char.ofNat_toNat]
  · simp [text?, hvalid, Char.ofNat_toNat]
  · rw [text?, if_neg (by omega), if_neg (by omega), Char.ofNat_toNat]

theorem Means.text? (h : Means pieces cs) : text? pieces = some cs := by
  induction h with
  | nil => rfl
  | char c _ ih => rw [Quoted.text?, ih, Option.map_some]
  | @unit c hplane _ _ _ ih => rw [text?_unit, ih, Option.map_some]
  | pair hhigh hlow hc _ ih =>
    rw [Quoted.text?, if_pos hhigh, if_pos hlow, ih, ← hc, Char.ofNat_toNat, Option.map_some]

theorem hexQuad?_lt {a b c d : Char} {value : Nat} (h : hexQuad? a b c d = some value) :
    value < 0x10000 := by
  have hdigit : ∀ {c n}, hexValue? c = some n → n < 16 := by
    intro c n h
    unfold hexValue? at h
    dsimp only at h
    grind
  simp only [hexQuad?, Option.bind_eq_bind, Option.bind_eq_some_iff, Option.some.injEq] at h
  obtain ⟨na, ha, nb, hb, nc, hc, nd, hd, rfl⟩ := h
  have := hdigit ha
  have := hdigit hb
  have := hdigit hc
  have := hdigit hd
  omega

theorem SpellsPieces.unit_lt (h : SpellsPieces body pieces) {value : Nat}
    (hvalue : .unit value ∈ pieces) : value < 0x10000 := by
  induction h with
  | nil => cases hvalue
  | plain _ _ _ _ ih | letter _ _ ih => exact ih ((List.mem_cons.1 hvalue).resolve_left nofun)
  | unit hquad _ ih =>
    rcases List.mem_cons.1 hvalue with heq | hvalue
    · cases heq
      exact hexQuad?_lt hquad
    · exact ih hvalue

theorem Means.unit_ofNat (h : Means pieces cs) {value : Nat}
    (hsurrogate : ¬(0xD800 ≤ value ∧ value ≤ 0xDFFF)) (hplane : value < 0x10000) :
    Means (.unit value :: pieces) (Char.ofNat value :: cs) := by
  have hvalue := toNat_ofNat hsurrogate (by omega)
  have hmeans := h.unit (c := Char.ofNat value) (by rwa [hvalue])
  rwa [hvalue] at hmeans

theorem means_of_text? (hplane : ∀ value, .unit value ∈ pieces → value < 0x10000)
    (h : text? pieces = some cs) : Means pieces cs := by
  fun_induction Quoted.text? pieces generalizing cs with
  | case1 =>
    cases h
    exact .nil
  | case2 c pieces ih =>
    obtain ⟨cs, htext, rfl⟩ := Option.map_eq_some_iff.1 h
    exact .char c (ih (fun value hvalue => hplane value (List.mem_cons_of_mem _ hvalue)) htext)
  | case3 high low pieces hhigh hlow ih =>
    obtain ⟨cs, htext, rfl⟩ := Option.map_eq_some_iff.1 h
    have hmeans := ih (fun value hvalue =>
      hplane value (List.mem_cons_of_mem _ (List.mem_cons_of_mem _ hvalue))) htext
    exact .pair hhigh hlow (toNat_ofNat (by omega) (by omega)) hmeans
  | case4 | case5 | case7 => cases h
  | case6 high low pieces hhigh hlow ih | case8 high pieces _ hhigh ih =>
    obtain ⟨cs, htext, rfl⟩ := Option.map_eq_some_iff.1 h
    have hmeans := ih (fun value hvalue => hplane value (List.mem_cons_of_mem _ hvalue)) htext
    exact hmeans.unit_ofNat (by omega) (hplane high List.mem_cons_self)

/-- Pieces that are read have a text exactly when they mean it. -/
theorem text?_eq_some_iff (hpieces : SpellsPieces body pieces) :
    text? pieces = some cs ↔ Means pieces cs :=
  ⟨means_of_text? fun _ => hpieces.unit_lt, Means.text?⟩

end Quoted

end OperationAtlas
