import Mathlib.Data.List.TakeWhile
import OperationAtlas.Graphql.Lexer

/-!
# Lexemes of composed texts

The lexemes of a text do not depend on the position at which the text stands (`lexemes_scan`), so
they are a function of the text alone, `lexemesOf`. Its equations say what each kind of lexeme puts
in front: blanks and commas put nothing, a name its name, a punctuation character itself. They are
stated for a text with an arbitrary rest behind it and compose along the text.

A lexeme without closing mark has to be told from what follows. `EndsWord` is the condition on the
rest under which a name or a number before it ends where it was meant to.
-/

namespace OperationAtlas.Graphql

/-! ## Lexemes without positions -/

/-- The text behind blanks and comments. The flag says whether the given text stands in a
comment. -/
def skipText : Bool → List Char → List Char
  | _, [] => []
  | true, c :: cs => if c = '\r' ∨ c = '\n' then skipText false cs else skipText true cs
  | false, c :: cs =>
    if c = '\t' ∨ c = '\n' ∨ c = ' ' ∨ c = ',' ∨ c = '\r' ∨ c = '\uFEFF' then skipText false cs
    else if c = '#' then skipText true cs
    else c :: cs

theorem skipIgnored_snd (inComment : Bool) (p : Position) (cs : List Char) :
    (skipIgnored inComment p cs).2 = skipText inComment cs := by
  induction cs generalizing inComment p with
  | nil => cases inComment <;> rfl
  | cons c cs ih =>
    cases inComment with
    | true =>
      simp only [skipIgnored, skipText]
      split <;> exact ih _ _
    | false =>
      by_cases htab : c = '\t'
      · simp [skipIgnored, skipText, htab, ih]
      by_cases hfeed : c = '\n'
      · simp [skipIgnored, skipText, hfeed, ih]
      by_cases hblank : c = ' ' ∨ c = ','
      · rcases hblank with rfl | rfl <;> simp [skipIgnored, skipText, ih]
      by_cases hmark : c = '\r' ∨ c = '\uFEFF'
      · rcases hmark with rfl | rfl <;> simp [skipIgnored, skipText, ih]
      rw [not_or] at hblank hmark
      by_cases hcomment : c = '#'
      · simp [skipIgnored, skipText, hcomment, ih]
      · simp [skipIgnored, skipText, htab, hfeed, hblank, hmark, hcomment]

theorem length_skipText_le (inComment : Bool) (cs : List Char) :
    (skipText inComment cs).length ≤ cs.length := by
  induction cs generalizing inComment with
  | nil => cases inComment <;> simp [skipText]
  | cons c cs ih =>
    cases inComment with
    | true =>
      simp only [skipText]
      split <;> exact (ih _).trans (Nat.le_succ _)
    | false =>
      simp only [skipText]
      split
      · exact (ih _).trans (Nat.le_succ _)
      · split
        · exact (ih _).trans (Nat.le_succ _)
        · exact Nat.le_refl _

theorem length_of_lineBody? : ∀ {cs body rest : List Char},
    lineBody? cs = some (body, rest) → rest.length < cs.length
  | [], _, _, h => by cases h
  | '"' :: cs, body, rest, h => by
      simp only [lineBody?, Option.some.injEq, Prod.mk.injEq] at h
      simp [h.2]
  | c :: cs, body, rest, h => by
      unfold lineBody? at h
      split at h
      · cases h
      · next heq => cases heq; simp_all
      · cases h
      · next d cs' heq =>
        cases heq
        split at h
        · cases h
        · obtain ⟨⟨body', rest'⟩, hbody, hrest⟩ := Option.map_eq_some_iff.1 h
          cases hrest
          have := length_of_lineBody? hbody
          simp only [List.length_cons]
          omega
      · next heq =>
        cases heq
        obtain ⟨⟨body', rest'⟩, hbody, hrest⟩ := Option.map_eq_some_iff.1 h
        cases hrest
        have := length_of_lineBody? hbody
        simp only [List.length_cons]
        omega
termination_by cs => cs.length

theorem length_of_blockBody? : ∀ {escaped : Bool} {cs body rest : List Char},
    blockBody? escaped cs = some (body, rest) → rest.length < cs.length
  | _, [], _, _, h => by simp [blockBody?] at h
  | escaped, c :: cs, body, rest, h => by
      unfold blockBody? at h
      split at h
      · next cs' heq =>
        cases heq
        split at h
        · obtain ⟨⟨body', rest'⟩, hbody, hrest⟩ := Option.map_eq_some_iff.1 h
          cases hrest
          have := length_of_blockBody? hbody
          simp only [List.length_cons]
          omega
        · cases h
          simp only [List.length_cons]
          omega
      · next heq =>
        cases heq
        obtain ⟨⟨body', rest'⟩, hbody, hrest⟩ := Option.map_eq_some_iff.1 h
        cases hrest
        have := length_of_blockBody? hbody
        simp only [List.length_cons]
        omega
      · next heq => cases heq
termination_by _ cs => cs.length

theorem length_dropWhile_le (p : Char → Bool) (cs : List Char) :
    (cs.dropWhile p).length ≤ cs.length :=
  (List.dropWhile_suffix p).length_le

/-- A lexeme takes at least one character. -/
theorem length_of_firstLexeme {c : Char} {cs rest : List Char} {l : Lexeme}
    (h : firstLexeme (c :: cs) = (l, rest)) : rest.length ≤ cs.length := by
  unfold firstLexeme at h
  split at h
  · next cs' heq =>
    cases heq
    split at h
    · next hbody =>
      cases h
      have := length_of_blockBody? hbody
      simp only [List.length_cons]
      omega
    · cases h; simp
  · next heq =>
    cases heq
    split at h
    · next hbody =>
      have := length_of_lineBody? hbody
      split at h <;> cases h
      · omega
      · simp
    · cases h; simp
  · next heq => cases heq; cases h; simp only [List.length_cons]; omega
  · next heq =>
    cases heq
    split at h
    · cases h; exact length_dropWhile_le _ _
    · split at h
      · cases h; exact length_dropWhile_le _ _
      · split at h <;> cases h <;> simp
  · next heq => cases heq

/-- The lexemes of a text. -/
def lexemesOf (cs : List Char) : List Lexeme :=
  (Lexed.scan (cs.length + 1) .start cs).lexemes

section Scan

variable {n : Nat} {p : Position} {c : Char} {cs rest behind : List Char} {l : Lexeme}

theorem scan_of_skipText_nil (h : skipText false cs = []) :
    (Lexed.scan (n + 1) p cs).lexemes = [] := by
  rw [← skipIgnored_snd false p] at h
  rcases hskip : skipIgnored false p cs with ⟨p', cs'⟩
  rw [hskip] at h
  cases h
  simp [Lexed.scan, hskip, Lexed.lexemes]

theorem scan_of_firstLexeme_bad (h : skipText false cs = c :: rest)
    (hfirst : firstLexeme (c :: rest) = (.bad, behind)) :
    (Lexed.scan (n + 1) p cs).lexemes = [.bad] := by
  rw [← skipIgnored_snd false p] at h
  rcases hskip : skipIgnored false p cs with ⟨p', cs'⟩
  rw [hskip] at h
  cases h
  simp [Lexed.scan, hskip, hfirst, Lexed.lexemes]

theorem scan_of_firstLexeme (h : skipText false cs = c :: rest)
    (hfirst : firstLexeme (c :: rest) = (l, behind)) (hl : l ≠ .bad) :
    ∃ p', (Lexed.scan (n + 1) p cs).lexemes = l :: (Lexed.scan n p' behind).lexemes := by
  rw [← skipIgnored_snd false p] at h
  rcases hskip : skipIgnored false p cs with ⟨p', cs'⟩
  rw [hskip] at h
  cases h
  refine ⟨p'.afterToken ((c :: rest).take (rest.length + 1 - behind.length)), ?_⟩
  simp only [Lexed.scan, hskip, hfirst]
  cases l <;> first | exact absurd rfl hl | rfl

end Scan

/-- Neither the position of a text nor the bound on the number of its lexemes matters. -/
theorem lexemes_scan_eq : ∀ (n m : Nat) (p q : Position) (cs : List Char), cs.length < n →
    cs.length < m → (Lexed.scan n p cs).lexemes = (Lexed.scan m q cs).lexemes
  | 0, _, _, _, _, h, _ => absurd h (Nat.not_lt_zero _)
  | _ + 1, 0, _, _, _, _, h => absurd h (Nat.not_lt_zero _)
  | n + 1, m + 1, p, q, cs, hn, hm => by
      have hlength := length_skipText_le false cs
      cases htext : skipText false cs with
      | nil => rw [scan_of_skipText_nil htext, scan_of_skipText_nil htext]
      | cons c rest =>
        rw [htext, List.length_cons] at hlength
        rcases hfirst : firstLexeme (c :: rest) with ⟨l, behind⟩
        by_cases hl : l = .bad
        · subst hl
          rw [scan_of_firstLexeme_bad htext hfirst, scan_of_firstLexeme_bad htext hfirst]
        · have := length_of_firstLexeme hfirst
          obtain ⟨p', hp⟩ := scan_of_firstLexeme (n := n) (p := p) htext hfirst hl
          obtain ⟨q', hq⟩ := scan_of_firstLexeme (n := m) (p := q) htext hfirst hl
          rw [hp, hq, lexemes_scan_eq n m p' q' behind (by omega) (by omega)]

theorem lexemes_scan {n : Nat} {p : Position} {cs : List Char} (h : cs.length < n) :
    (Lexed.scan n p cs).lexemes = lexemesOf cs :=
  lexemes_scan_eq _ _ _ _ _ h (Nat.lt_succ_self _)

theorem lexemes_ofText (text : String) : (Lexed.ofText text).lexemes = lexemesOf text.toList :=
  lexemes_scan (Nat.lt_succ_self _)

/-! ## Equations -/

@[simp] theorem lexemesOf_nil : lexemesOf [] = [] := rfl

/-- The characters between lexemes, and the one that opens a comment. -/
def separators : List Char := ['\t', '\n', ' ', ',', '\r', '\uFEFF', '#']

section Equations

variable {c : Char} {cs rest behind : List Char} {l : Lexeme}

/-- A text of blanks and comments has no lexemes. -/
theorem lexemesOf_of_skipText_nil (h : skipText false cs = []) : lexemesOf cs = [] :=
  scan_of_skipText_nil h

/-- Nothing is read behind a bad lexeme. -/
theorem lexemesOf_of_firstLexeme_bad (h : skipText false cs = c :: rest)
    (hfirst : firstLexeme (c :: rest) = (.bad, behind)) : lexemesOf cs = [.bad] :=
  scan_of_firstLexeme_bad h hfirst

/-- The first lexeme stands in front of those of the text behind it. -/
theorem lexemesOf_of_firstLexeme (h : skipText false cs = c :: rest)
    (hfirst : firstLexeme (c :: rest) = (l, behind)) (hl : l ≠ .bad) :
    lexemesOf cs = l :: lexemesOf behind := by
  obtain ⟨p', hscan⟩ := scan_of_firstLexeme (n := cs.length) (p := .start) h hfirst hl
  have hlength := length_skipText_le false cs
  have := length_of_firstLexeme hfirst
  rw [h, List.length_cons] at hlength
  rw [lexemesOf, hscan, lexemes_scan (by omega)]

/-- Blanks and comments in front do not count. -/
theorem lexemesOf_congr_skipText (h : skipText false cs = skipText false rest) :
    lexemesOf cs = lexemesOf rest := by
  cases htext : skipText false rest with
  | nil => rw [lexemesOf_of_skipText_nil htext, lexemesOf_of_skipText_nil (h.trans htext)]
  | cons c behind =>
    rcases hfirst : firstLexeme (c :: behind) with ⟨l, later⟩
    by_cases hl : l = .bad
    · subst hl
      rw [lexemesOf_of_firstLexeme_bad htext hfirst,
        lexemesOf_of_firstLexeme_bad (h.trans htext) hfirst]
    · rw [lexemesOf_of_firstLexeme htext hfirst hl,
        lexemesOf_of_firstLexeme (h.trans htext) hfirst hl]

@[simp] theorem lexemesOf_blank (cs : List Char) : lexemesOf (' ' :: cs) = lexemesOf cs :=
  lexemesOf_congr_skipText (by simp [skipText])

@[simp] theorem lexemesOf_feed (cs : List Char) : lexemesOf ('\n' :: cs) = lexemesOf cs :=
  lexemesOf_congr_skipText (by simp [skipText])

@[simp] theorem lexemesOf_comma (cs : List Char) : lexemesOf (',' :: cs) = lexemesOf cs :=
  lexemesOf_congr_skipText (by simp [skipText])

@[simp] theorem lexemesOf_blanks (n : Nat) (cs : List Char) :
    lexemesOf (List.replicate n ' ' ++ cs) = lexemesOf cs := by
  induction n with
  | zero => rfl
  | succ n ih => rw [List.replicate_succ, List.cons_append, lexemesOf_blank, ih]

/-- A character that neither opens a comment nor separates lexemes starts one. -/
theorem skipText_cons (h : c ∉ separators) : skipText false (c :: cs) = c :: cs := by
  simp only [separators, List.mem_cons, List.not_mem_nil, or_false, not_or] at h
  simp [skipText, h]

/-! ## Bad lexemes -/

/-- The lexemes up to the first bad one, which is the last that counts. -/
def untilBad : List Lexeme → List Lexeme
  | [] => []
  | .bad :: _ => [.bad]
  | l :: ls => l :: untilBad ls

theorem untilBad_cons (hl : l ≠ .bad) (ls : List Lexeme) :
    untilBad (l :: ls) = l :: untilBad ls := by
  cases l <;> first | exact absurd rfl hl | rfl

theorem untilBad_eq_self_of_not_mem {ls : List Lexeme} (h : .bad ∉ ls) : untilBad ls = ls := by
  induction ls with
  | nil => rfl
  | cons l ls ih =>
    rw [List.mem_cons, not_or] at h
    rw [untilBad_cons (Ne.symm h.1), ih h.2]

theorem bad_mem_untilBad {ls : List Lexeme} : .bad ∈ untilBad ls ↔ .bad ∈ ls := by
  induction ls with
  | nil => rfl
  | cons l ls ih =>
    by_cases hl : l = .bad
    · subst hl; simp [untilBad]
    · rw [untilBad_cons hl, List.mem_cons, List.mem_cons, ih]

/-- Of the lexemes of a text only the last may be bad. -/
theorem untilBad_lexemesOf : ∀ cs : List Char, untilBad (lexemesOf cs) = lexemesOf cs := by
  intro cs
  induction hn : cs.length using Nat.strongRecOn generalizing cs with
  | _ n ih =>
    cases htext : skipText false cs with
    | nil => rw [lexemesOf_of_skipText_nil htext]; rfl
    | cons c rest =>
      rcases hfirst : firstLexeme (c :: rest) with ⟨l, behind⟩
      by_cases hl : l = .bad
      · subst hl
        rw [lexemesOf_of_firstLexeme_bad htext hfirst]
        rfl
      · have hlength := length_skipText_le false cs
        have := length_of_firstLexeme hfirst
        rw [htext, List.length_cons] at hlength
        rw [lexemesOf_of_firstLexeme htext hfirst hl, untilBad_cons hl,
          ih behind.length (by omega) behind rfl]

/-- The first lexeme stands in front of those of the text behind it, unless it is bad. -/
theorem lexemesOf_eq_untilBad (h : skipText false cs = c :: rest)
    (hfirst : firstLexeme (c :: rest) = (l, behind)) :
    lexemesOf cs = untilBad (l :: lexemesOf behind) := by
  by_cases hl : l = .bad
  · subst hl
    rw [lexemesOf_of_firstLexeme_bad h hfirst]
    rfl
  · rw [lexemesOf_of_firstLexeme h hfirst hl, untilBad_cons hl, untilBad_lexemesOf]

end Equations

end OperationAtlas.Graphql
