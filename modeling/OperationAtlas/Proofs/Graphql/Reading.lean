import OperationAtlas.Graphql.Reader
import OperationAtlas.Proofs.Chain

/-!
# What readers take

`Takes r P` says that whatever the reader `r` takes from the front of a list of lexemes is derived
by `P`, a relation between the lexemes taken and the result. In the other direction, what a relation
derives is read if the lexemes behind it do not continue it; for items one behind the other that is
`many_of_parts`.

Items that follow one another are given as a list of *parts*, each of which is an item with its
lexemes.
-/

namespace OperationAtlas.Graphql.Reader

variable {α β : Type} {P : List Lexeme → α → Prop}

/-! ## Single lexemes -/

@[simp] theorem token_cons (l : Lexeme) (ls : List Lexeme) : token l (l :: ls) = .ok ((), ls) := by
  simp [token]

@[simp] theorem punct_cons (c : Char) (ls : List Lexeme) :
    punct c (.punct c :: ls) = .ok ((), ls) :=
  token_cons _ _

@[simp] theorem word_cons (text : String) (ls : List Lexeme) :
    word text (.name text :: ls) = .ok ((), ls) :=
  token_cons _ _

@[simp] theorem name_cons (text : String) (ls : List Lexeme) :
    name (.name text :: ls) = .ok (text, ls) :=
  rfl

theorem eq_cons_of_token {l : Lexeme} {ls rest : List Lexeme} {u : Unit}
    (h : token l ls = .ok (u, rest)) : ls = l :: rest := by
  cases ls with
  | nil => simp [token, stop] at h
  | cons l' ls =>
    by_cases hl : l' = l
    · subst hl
      rw [token_cons, Except.ok.injEq, Prod.mk.injEq] at h
      rw [h.2]
    · simp [token, hl, stop] at h

theorem eq_cons_of_punct {c : Char} {ls rest : List Lexeme} {u : Unit}
    (h : punct c ls = .ok (u, rest)) : ls = .punct c :: rest :=
  eq_cons_of_token h

theorem eq_cons_of_word {text : String} {ls rest : List Lexeme} {u : Unit}
    (h : word text ls = .ok (u, rest)) : ls = .name text :: rest :=
  eq_cons_of_token h

theorem eq_cons_of_name {text : String} {ls rest : List Lexeme}
    (h : name ls = .ok (text, rest)) : ls = .name text :: rest := by
  unfold name at h
  split at h
  · cases h; rfl
  · cases h

theorem starts_cons (test : Lexeme → Bool) (l : Lexeme) (ls : List Lexeme) :
    starts test (l :: ls) = test l :=
  rfl

@[simp] theorem isPunct_punct (c d : Char) : isPunct c (.punct d) = decide (d = c) := by
  rw [Bool.eq_iff_iff]
  simp [isPunct]

@[simp] theorem isPunct_name (c : Char) (text : String) : isPunct c (.name text) = false := rfl

@[simp] theorem isPunct_spread (c : Char) : isPunct c .spread = false := rfl

/-! ## What a reader takes -/

/-- Whatever a reader takes, it takes from the front, and the relation derives it. -/
def Takes (r : Reader α) (P : List Lexeme → α → Prop) : Prop :=
  ∀ ls x rest, r ls = .ok (x, rest) → ∃ used, ls = used ++ rest ∧ P used x

/-- Items with their lexemes, one behind the other. -/
def Sequence (P : List Lexeme → α → Prop) (used : List Lexeme) (xs : List α) : Prop :=
  ∃ parts : List (List Lexeme × α), used = parts.flatMap (·.1) ∧ xs = parts.map (·.2) ∧
    ∀ part ∈ parts, P part.1 part.2

theorem Sequence.nil : Sequence P [] [] := ⟨[], rfl, rfl, nofun⟩

theorem Sequence.cons {used used' : List Lexeme} {x : α} {xs : List α} (h : P used x)
    (hxs : Sequence P used' xs) : Sequence P (used ++ used') (x :: xs) := by
  obtain ⟨parts, rfl, rfl, hparts⟩ := hxs
  exact ⟨(used, x) :: parts, rfl, rfl, List.forall_mem_cons.2 ⟨h, hparts⟩⟩

/-- A lexeme that is in no item is in no sequence of items. -/
theorem not_mem_flatMap_parts {l : Lexeme} {parts : List (List Lexeme × α)}
    (h : ∀ part ∈ parts, l ∉ part.1) : l ∉ parts.flatMap (·.1) := by
  rw [List.mem_flatMap]
  rintro ⟨part, hpart, hl⟩
  exact h part hpart hl

/-- The lexemes of a part stand between the brackets around all parts. -/
theorem mem_bracketed {opening closing : Char} {lexemes : α → List Lexeme} {parts : List α}
    {part : α}
    (hpart : part ∈ parts) {l : Lexeme} (hl : l ∈ lexemes part) :
    l ∈ .punct opening :: (parts.flatMap lexemes ++ [.punct closing]) :=
  List.mem_cons_of_mem _ (List.mem_append_left _ (List.mem_flatMap.2 ⟨part, hpart, hl⟩))

theorem Sequence.not_mem {l : Lexeme} {used : List Lexeme} {xs : List α}
    (hsequence : Sequence P used xs) (h : ∀ used x, P used x → l ∉ used) : l ∉ used := by
  obtain ⟨parts, rfl, -, hparts⟩ := hsequence
  exact not_mem_flatMap_parts fun part hpart => h _ _ (hparts part hpart)

theorem takes_manyUpTo {startsItem : Lexeme → Bool} {item : Reader α} (hitem : Takes item P) :
    ∀ n, Takes (manyUpTo startsItem item n) (Sequence P)
  | 0, ls, xs, rest, h => by
      cases h
      exact ⟨[], rfl, .nil⟩
  | n + 1, ls, xs, rest, h => by
      unfold manyUpTo at h
      split at h
      · obtain ⟨⟨x, ls₁⟩, hfirst, h⟩ := bind_eq_ok_iff.1 h
        obtain ⟨⟨others, ls₂⟩, hothers, h⟩ := bind_eq_ok_iff.1 h
        cases h
        obtain ⟨used, rfl, hx⟩ := hitem _ _ _ hfirst
        obtain ⟨used', rfl, hxs⟩ := takes_manyUpTo hitem n _ _ _ hothers
        exact ⟨used ++ used', (List.append_assoc ..).symm, hxs.cons hx⟩
      · cases h
        exact ⟨[], rfl, .nil⟩

theorem takes_many {startsItem : Lexeme → Bool} {item : Reader α} (hitem : Takes item P) :
    Takes (many startsItem item) (Sequence P) :=
  fun ls => takes_manyUpTo hitem ls.length ls

theorem takes_many1 {startsItem : Lexeme → Bool} {item : Reader α} (hitem : Takes item P) :
    Takes (many1 startsItem item) fun used xs => xs ≠ [] ∧ Sequence P used xs := by
  intro ls xs rest h
  obtain ⟨⟨x, ls₁⟩, hfirst, h⟩ := bind_eq_ok_iff.1 h
  obtain ⟨⟨others, ls₂⟩, hothers, h⟩ := bind_eq_ok_iff.1 h
  cases h
  obtain ⟨used, rfl, hx⟩ := hitem _ _ _ hfirst
  obtain ⟨used', rfl, hxs⟩ := takes_many hitem _ _ _ hothers
  exact ⟨used ++ used', (List.append_assoc ..).symm, nofun, hxs.cons hx⟩

/-- An item that starts is taken; otherwise nothing is. -/
theorem takes_optional {startsItem : Lexeme → Bool} {item : Reader α} (hitem : Takes item P) :
    Takes (optional startsItem item) fun used x? =>
      match x? with
      | some x => P used x
      | none => used = [] := by
  intro ls x? rest h
  unfold optional at h
  split at h
  · obtain ⟨⟨x, ls₁⟩, hitem', h⟩ := bind_eq_ok_iff.1 h
    cases h
    exact hitem _ _ _ hitem'
  · cases h
    exact ⟨[], rfl, rfl⟩

/-- What stands between brackets is one level deeper. -/
theorem takes_between {opening closing : Char} {levels : Nat} {inner : Nat → Reader α}
    {P : Nat → List Lexeme → α → Prop} (hinner : ∀ levels, Takes (inner levels) (P levels)) :
    Takes (between opening closing levels inner) fun used x =>
      ∃ outer within, levels = outer + 1 ∧
        used = .punct opening :: (within ++ [.punct closing]) ∧ P outer within x := by
  intro ls x rest h
  cases levels with
  | zero => cases h
  | succ levels =>
    obtain ⟨⟨⟨⟩, ls₁⟩, hopening, h⟩ := bind_eq_ok_iff.1 h
    obtain ⟨⟨value, ls₂⟩, hwithin, h⟩ := bind_eq_ok_iff.1 h
    obtain ⟨⟨⟨⟩, ls₃⟩, hclosing, h⟩ := bind_eq_ok_iff.1 h
    cases h
    obtain ⟨within, rfl, hx⟩ := hinner _ _ _ _ hwithin
    rw [eq_cons_of_punct hopening, eq_cons_of_punct hclosing]
    exact ⟨.punct opening :: (within ++ [.punct closing]), by simp, levels, within, rfl, rfl, hx⟩

/-- Weakens what is known of what a reader takes. -/
theorem Takes.mono {r : Reader α} {Q : List Lexeme → α → Prop} (h : Takes r P)
    (hPQ : ∀ used x, P used x → Q used x) : Takes r Q := by
  intro ls x rest hr
  obtain ⟨used, hls, hx⟩ := h ls x rest hr
  exact ⟨used, hls, hPQ used x hx⟩

/-! ## What is read -/

theorem exists_cons_of_starts {test : Lexeme → Bool} {ls : List Lexeme}
    (h : starts test ls = true) : ∃ l ls', ls = l :: ls' ∧ test l = true := by
  cases ls with
  | nil => cases h
  | cons l ls' => exact ⟨l, ls', rfl, h⟩

theorem starts_append {test : Lexeme → Bool} {ls : List Lexeme} (h : starts test ls = true)
    (ls' : List Lexeme) : starts test (ls ++ ls') = true := by
  obtain ⟨l, later, rfl, hl⟩ := exists_cons_of_starts h
  exact hl

section Parts

variable {startsItem : Lexeme → Bool} {item : Reader α} {follows : List Lexeme → Prop}
  {rest : List Lexeme}

/-- An item with its lexemes is read before what may follow it. -/
def IsRead (startsItem : Lexeme → Bool) (item : Reader α) (follows : List Lexeme → Prop)
    (part : List Lexeme × α) : Prop :=
  starts startsItem part.1 = true ∧
    ∀ rest, follows rest → item (part.1 ++ rest) = .ok (part.2, rest)

theorem follows_parts (hfollows : ∀ l ls, startsItem l = true → follows (l :: ls))
    (hrest : follows rest) {parts : List (List Lexeme × α)}
    (hparts : ∀ part ∈ parts, IsRead startsItem item follows part) :
    follows (parts.flatMap (·.1) ++ rest) := by
  cases parts with
  | nil => exact hrest
  | cons part parts =>
    obtain ⟨l, ls, hpart, hl⟩ := exists_cons_of_starts (hparts part List.mem_cons_self).1
    rw [List.flatMap_cons, hpart]
    exact hfollows _ _ hl

theorem manyUpTo_of_parts (hfollows : ∀ l ls, startsItem l = true → follows (l :: ls))
    (hrest : follows rest) (hstop : starts startsItem rest = false) {parts : List (List Lexeme × α)}
    (hparts : ∀ part ∈ parts, IsRead startsItem item follows part) {n : Nat}
    (hn : (parts.flatMap (·.1)).length ≤ n) :
    manyUpTo startsItem item n (parts.flatMap (·.1) ++ rest) = .ok (parts.map (·.2), rest) := by
  induction parts generalizing n with
  | nil => cases n <;> simp [manyUpTo, hstop]
  | cons part parts ih =>
    obtain ⟨⟨hstart, hitem⟩, hothers⟩ := List.forall_mem_cons.1 hparts
    obtain ⟨l, ls, hl, -⟩ := exists_cons_of_starts hstart
    cases n with
    | zero => simp [hl] at hn
    | succ n =>
      have hlength : (parts.flatMap (·.1)).length ≤ n := by
        simp only [List.flatMap_cons, List.length_append, hl, List.length_cons] at hn
        omega
      rw [List.flatMap_cons, List.append_assoc, manyUpTo, if_pos (starts_append hstart _),
        hitem _ (follows_parts hfollows hrest hothers), ok_bind]
      dsimp only
      rw [ih hothers hlength]
      rfl

variable (startsItem item follows rest)

/-- Items one behind the other are read up to what starts none. -/
theorem many_of_parts (hfollows : ∀ l ls, startsItem l = true → follows (l :: ls))
    (hrest : follows rest) (hstop : starts startsItem rest = false) {parts : List (List Lexeme × α)}
    (hparts : ∀ part ∈ parts, IsRead startsItem item follows part) :
    many startsItem item (parts.flatMap (·.1) ++ rest) = .ok (parts.map (·.2), rest) :=
  manyUpTo_of_parts hfollows hrest hstop hparts (by simp)

/-- Items of which there is one are read up to what starts none. -/
theorem many1_of_parts (hfollows : ∀ l ls, startsItem l = true → follows (l :: ls))
    (hrest : follows rest) (hstop : starts startsItem rest = false) {parts : List (List Lexeme × α)}
    (hne : parts ≠ []) (hparts : ∀ part ∈ parts, IsRead startsItem item follows part) :
    many1 startsItem item (parts.flatMap (·.1) ++ rest) = .ok (parts.map (·.2), rest) := by
  obtain ⟨part, parts, rfl⟩ := List.exists_cons_of_ne_nil hne
  obtain ⟨⟨-, hitem⟩, hothers⟩ := List.forall_mem_cons.1 hparts
  rw [List.flatMap_cons, List.append_assoc, many1,
    hitem _ (follows_parts hfollows hrest hothers), ok_bind]
  dsimp only
  rw [many_of_parts _ _ _ _ hfollows hrest hstop hothers]
  rfl

end Parts

theorem optional_of_starts {test : Lexeme → Bool} {item : Reader α} {ls rest : List Lexeme} {x : α}
    (hstart : starts test ls = true) (h : item ls = .ok (x, rest)) :
    Reader.optional test item ls = .ok (some x, rest) := by
  simp [Reader.optional, hstart, h]

theorem optional_of_not_starts {test : Lexeme → Bool} {item : Reader α} {ls : List Lexeme}
    (hstart : starts test ls = false) : Reader.optional test item ls = .ok (none, ls) := by
  simp [Reader.optional, hstart]

/-- What stands between brackets is read one level deeper. -/
theorem between_of_eq {opening closing : Char} {levels : Nat} {inner : Nat → Reader α}
    {within rest : List Lexeme} {x : α}
    (h : inner levels (within ++ .punct closing :: rest) = .ok (x, .punct closing :: rest)) :
    between opening closing (levels + 1) inner
      (.punct opening :: (within ++ .punct closing :: rest)) = .ok (x, rest) := by
  simp [between, h]

end OperationAtlas.Graphql.Reader
