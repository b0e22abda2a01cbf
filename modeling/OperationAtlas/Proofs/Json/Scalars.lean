import OperationAtlas.Proofs.Json.Grammar

/-!
# Numbers and strings of JSON

An integer of 64 bits, signed or unsigned, is written with its digits and read as itself
(`JsonNumber.read?_write`), and no other integer is read (`JsonNumber.fitsWord_of_read?`). What is
written for a string means that string, whatever characters it has (`Quoted.exists_pieces_of_escape`):
each character is written as one piece, as itself or as an escape.
-/

namespace OperationAtlas

/-! ## Integers -/

namespace JsonNumber

open Text

/-- The integers of 64 bits, signed or unsigned. -/
def FitsWord (value : Int) : Prop :=
  -0x8000000000000000 ≤ value ∧ value ≤ 0xFFFFFFFFFFFFFFFF

/-- The natural that digits write behind those of another one. -/
def extend (word : Nat) (digits : List Char) : Nat :=
  digits.foldl (fun n c => n * 10 + digitValue c) word

theorem le_extend (word : Nat) (digits : List Char) : word ≤ extend word digits := by
  induction digits generalizing word with
  | nil => exact Nat.le_refl word
  | cons c digits ih =>
    have := ih (word * 10 + digitValue c)
    rw [extend, List.foldl_cons]
    rw [extend] at this
    omega

/-- Digits whose number fits are all collected. -/
theorem collect_of_le {word : Nat} {digits : List Char} (h : extend word digits ≤ maxWord) :
    collect word digits = (extend word digits, []) := by
  induction digits generalizing word with
  | nil => rfl
  | cons c digits ih =>
    have hle : word * 10 + digitValue c ≤ extend word (c :: digits) := le_extend _ digits
    rw [collect, if_neg (by omega)]
    exact ih h

theorem collect_le {word : Nat} (h : word ≤ maxWord) (digits : List Char) :
    (collect word digits).1 ≤ maxWord := by
  induction digits generalizing word with
  | nil => exact h
  | cons c digits ih =>
    rw [collect]
    split
    · exact h
    · exact ih (by omega)

theorem double?_ne_int (negative : Bool) (word : Nat) (exponent n : Int) :
    double? negative word exponent ≠ some (.int n) := by
  intro h
  obtain ⟨value, -, h⟩ := Option.map_eq_some_iff.1 h
  cases h

/-- An integer that parts make fits. -/
theorem fitsWord_of_ofParts? {negative : Bool} {whole : List Char} {fraction : Option (List Char)}
    {exponent : Option (Bool × List Char)} {n : Int}
    (h : ofParts? negative whole fraction exponent = some (.int n)) : FitsWord n := by
  have hword := collect_le (Nat.zero_le maxWord) whole
  unfold ofParts? at h
  dsimp only at h
  split at h
  · split at h
    · cases h
      unfold FitsWord
      unfold maxWord at hword
      omega
    · split at h
      · cases h
      · next hsmall =>
        cases h
        unfold FitsWord
        omega
  · split at h
    · exact absurd h (double?_ne_int _ _ _ _)
    · split at h
      · split at h <;> cases h
      · exact absurd h (double?_ne_int _ _ _ _)

/-- An integer that is read fits. -/
theorem fitsWord_of_read? {cs rest : List Char} {n : Int}
    (h : read? cs = some (some (.int n), rest)) : FitsWord n := by
  unfold read? at h
  dsimp only at h
  generalize (if (cs.head? == some '-') = true then cs.drop 1 else cs) = unsigned at h
  split at h
  · cases h
  split at h
  · cases h
  · obtain ⟨⟨exponent, _⟩, -, h⟩ := Option.map_eq_some_iff.1 h
    exact fitsWord_of_ofParts? (Prod.mk.inj h).1

theorem fitsWord_of_parse? {text : List Char} {n : Int} (h : parse? text = some (.int n)) :
    FitsWord n := by
  unfold parse? at h
  split at h
  · next number rest hread =>
    split at h
    · cases h
      exact fitsWord_of_read? hread
    · cases h
  · cases h

/-- The digits of a natural are a whole number: there are some, and no superfluous zero. -/
theorem isWhole_toDigits (n : Nat) : IsWhole (Nat.toDigits 10 n) :=
  ⟨⟨Nat.toDigits_ne_nil, fun _ hc => isDigit_of_mem_toDigits hc⟩, fun hzero => by
    rw [head?_toDigits hzero]
    rfl⟩

/-- The digits of an integer that fits are a text of it. -/
theorem spells_write {value : Int} (h : FitsWord value) :
    Spells (write (.int value)) (some (.int value)) := by
  have hnat : extend 0 (Nat.toDigits 10 value.natAbs) = value.natAbs :=
    natOfDigits_toDigits value.natAbs
  have hfits : extend 0 (Nat.toDigits 10 value.natAbs) ≤ maxWord := by
    rw [hnat]
    unfold FitsWord at h
    unfold maxWord
    omega
  have hcollect := collect_of_le hfits
  rw [hnat] at hcollect
  have hspells := Spells.parts (decide (value < 0)) (isWhole_toDigits value.natAbs) .absent .absent
  rw [List.append_nil, List.append_nil, ← toList_toString_int, ofParts?, hcollect] at hspells
  rw [write]
  unfold FitsWord at h
  by_cases hneg : value < 0
  · have hsmall : ¬(value.natAbs = 0 ∨ 0x8000000000000000 < value.natAbs) := by omega
    have hvalue : -(value.natAbs : Int) = value := by omega
    simpa only [decide_eq_true hneg, Option.isNone_none, List.isEmpty_nil, Bool.and_self, if_true,
      Bool.not_true, Bool.false_eq_true, if_false, if_neg hsmall, hvalue] using hspells
  · have hvalue : (value.natAbs : Int) = value := by omega
    simpa only [decide_eq_false hneg, Option.isNone_none, List.isEmpty_nil, Bool.and_self, if_true,
      Bool.not_false, hvalue] using hspells

/-- An integer that fits is read as it was written. -/
theorem read?_write {value : Int} (h : FitsWord value) {rest : List Char}
    (hrest : EndsNumber rest) :
    read? (write (.int value) ++ rest) = some (some (.int value), rest) :=
  (spells_write h).read? hrest

/-- The text of an integer that fits, with blanks around it, writes that integer. -/
theorem parse?_write {value : Int} (h : FitsWord value) {before after : List Char}
    (hbefore : before.all isSpace = true) (hafter : after.all isSpace = true) :
    parse? (before ++ write (.int value) ++ after) = some (.int value) := by
  have hread := read?_write h (endsNumber_of_isSpace hafter)
  obtain ⟨c, cs, hwrite, hc⟩ := (spells_write h).exists_first
  have hdrop : (before ++ write (.int value) ++ after).dropWhile isSpace =
      write (.int value) ++ after := by
    rw [List.append_assoc, List.dropWhile_append_of_pos (List.all_eq_true.1 hbefore), hwrite,
      List.cons_append, List.dropWhile_cons_of_neg (by simp [hc.isSpace])]
  rw [parse?, hdrop, hread]
  simp [hafter]

/-- A text that writes no double: no number at all, or an integer, which has 64 bits. The digits of
such an integer are a text of this kind (`parse?_write`). -/
def IsExact (text : String) : Prop :=
  parse? text.toList = none ∨ ∃ value, parse? text.toList = some (.int value)

end JsonNumber

/-! ## Strings -/

namespace Quoted

/-- A character is written as one letter behind a backslash, as four digits, or as itself. -/
theorem escape_cases (c : Char) :
    (∃ e, escape c = ['\\', e] ∧ letterEscape? e = some c) ∨
      (c.toNat < 0x20 ∧
        escape c = ['\\', 'u', '0', '0', hexDigit (c.toNat / 16), hexDigit (c.toNat % 16)]) ∨
      (escape c = [c] ∧ ¬c.toNat < 0x20 ∧ c ≠ '"' ∧ c ≠ '\\') := by
  unfold escape
  split
  case h_8 hquote hslash _ _ _ _ _ =>
    split
    · next hcontrol => exact .inr (.inl ⟨hcontrol, rfl⟩)
    · next hcontrol => exact .inr (.inr ⟨rfl, hcontrol, hquote, hslash⟩)
  all_goals exact .inl ⟨_, rfl, rfl⟩

/-- The text between the quotation marks has pieces that mean what was written. -/
theorem exists_pieces_of_escape (text : List Char) :
    ∃ pieces, SpellsPieces (text.flatMap escape) pieces ∧ Means pieces text := by
  induction text with
  | nil => exact ⟨[], .nil, .nil⟩
  | cons c text ih =>
    obtain ⟨pieces, hspells, hmeans⟩ := ih
    rw [List.flatMap_cons]
    rcases escape_cases c with ⟨e, hescape, hletter⟩ | ⟨hcontrol, hescape⟩ |
      ⟨hescape, hcontrol, hquote, hslash⟩
    · rw [hescape]
      exact ⟨_, .letter hletter hspells, .char c hmeans⟩
    · have hquad : ∀ n < 0x20,
          hexQuad? '0' '0' (hexDigit (n / 16)) (hexDigit (n % 16)) = some n := by
        decide
      rw [hescape]
      exact ⟨_, .unit (hquad _ hcontrol) hspells, .unit (by omega) hmeans⟩
    · rw [hescape]
      exact ⟨_, .plain hcontrol hquote hslash hspells, .char c hmeans⟩

end Quoted

end OperationAtlas
