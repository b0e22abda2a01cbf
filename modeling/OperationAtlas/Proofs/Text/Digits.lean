import Mathlib.Data.List.TakeWhile
import OperationAtlas.Json.Number

/-!
# Decimal digits

The digits of a natural are digits, have no superfluous zero in front and write the natural. An
integer is written as its sign and the digits of its magnitude (`toList_toString_int`).
-/

namespace OperationAtlas.Text

/-! ## The front of a text -/

/-- The longest part in front of which all characters have a property, where the text behind it starts
with a character that does not have it. -/
theorem takeWhile_append_of_head {p : Char → Bool} {cs : List Char} (rest : List Char)
    (hcs : cs.all p = true)
    (hrest : ∀ c ∈ rest.head?, p c = false) :
    (cs ++ rest).takeWhile p = cs ∧ (cs ++ rest).dropWhile p = rest := by
  induction cs with
  | nil =>
    cases rest with
    | nil => exact ⟨rfl, rfl⟩
    | cons c rest => simp [hrest c (by simp)]
  | cons c cs ih =>
    simp only [List.all_cons, Bool.and_eq_true] at hcs
    obtain ⟨htake, hdrop⟩ := ih hcs.2
    simp [hcs.1, htake, hdrop]

/-! ## Digits -/

/-- The digits of a natural. -/
theorem isDigit_of_mem_toDigits {n : Nat} {c : Char} (h : c ∈ Nat.toDigits 10 n) :
    JsonNumber.isDigit c = true := by
  have hdigit := Nat.isDigit_of_mem_toDigits (by decide) (by decide) h
  simp only [Char.isDigit, Bool.and_eq_true, decide_eq_true_eq, ge_iff_le, UInt32.le_iff_toNat_le]
    at hdigit
  simp only [JsonNumber.isDigit, Bool.and_eq_true, decide_eq_true_eq, Char.toNat]
  simpa using hdigit

theorem natOfDigits_toDigits (n : Nat) : JsonNumber.natOfDigits (Nat.toDigits 10 n) = n := by
  have := Nat.ofDigitChars_ten_toDigits (n := n)
  rw [Nat.ofDigitChars_eq_foldl] at this
  rw [JsonNumber.natOfDigits]
  simpa [JsonNumber.digitValue, Nat.mul_comm] using this

/-- Digits start with a zero only if there is no other digit. -/
theorem head?_toDigits {n : Nat} (h : (Nat.toDigits 10 n).head? = some '0') : n = 0 := by
  induction n using Nat.strongRecOn with
  | _ n ih =>
    by_cases hn : n < 10
    · rw [Nat.toDigits_of_lt_base hn, List.head?_cons, Option.some.injEq] at h
      have hall : ∀ n < 10, Nat.digitChar n = '0' → n = 0 := by decide
      exact hall n hn h
    · rw [Nat.toDigits_of_base_le (by decide) (by omega), List.head?_append,
        List.head?_eq_some_head Nat.toDigits_ne_nil, Option.some_or,
        ← List.head?_eq_some_head] at h
      have := ih (n / 10) (by omega) h
      omega

theorem takeWhile_toDigits {p : Char → Bool} (hp : ∀ c, JsonNumber.isDigit c = true → p c = true)
    (n : Nat) : (Nat.toDigits 10 n).takeWhile p = Nat.toDigits 10 n ∧
      (Nat.toDigits 10 n).dropWhile p = [] := by
  have hall : ∀ c ∈ Nat.toDigits 10 n, p c = true := fun c hc => hp c (isDigit_of_mem_toDigits hc)
  exact ⟨List.takeWhile_eq_self_iff.2 hall, List.dropWhile_eq_nil_iff.2 hall⟩

theorem ne_of_isDigit {c d : Char} (h : JsonNumber.isDigit c = true)
    (hd : JsonNumber.isDigit d = false) : c ≠ d := by
  rintro rfl
  exact absurd h (by simp [hd])

/-- The text of an integer: its sign and its digits. -/
theorem toList_toString_int (value : Int) :
    (toString value).toList =
      (if decide (value < 0) then ['-'] else []) ++ Nat.toDigits 10 value.natAbs := by
  cases value with
  | ofNat n => simp [Int.toString_eq_repr, Int.repr]
  | negSucc n => simp [Int.toString_eq_repr, Int.repr]

end OperationAtlas.Text
