import Mathlib.Data.List.Forall2
import OperationAtlas.Access
import OperationAtlas.Proofs.Host.Spelling
import OperationAtlas.Proofs.Text.Lines

/-!
# The grammar of access rules

`AccessRule.SpellsCall` is the grammar of calls: a name, and in parentheses any number of quoted
arguments with commas between them. A few calls mean a rule (`AccessRule.Means`). The reader looks
for the first and the last parenthesis, cuts at commas and takes off blanks and quotes, and so finds
a rule exactly where one is stated: piece by piece (`argument?_trim_eq_some_iff`), for the list of
the pieces (`arguments?_trim_eq_some_iff`) and for the whole expression (`parse?_eq_some_iff`).
-/

namespace OperationAtlas.AccessRule

open Text TypeRef

/-! ## The grammar -/

/-- A text spells an argument: two equal quotes, with blanks around them, around a text without
quotes and commas. -/
def SpellsArgument (text argument : List Char) : Prop :=
  ∃ before quote after, IsBlanks before ∧ (quote = '\'' ∨ quote = '"') ∧
    (∀ c ∈ argument, c ≠ '\'' ∧ c ≠ '"' ∧ c ≠ ',') ∧ IsBlanks after ∧
    text = before ++ quote :: (argument ++ quote :: after)

/-- A text spells a list of arguments with commas between them. Where there is no argument, there is
nothing but blanks. -/
inductive SpellsArguments : List Char → List (List Char) → Prop
  | none {blanks : List Char} (h : IsBlanks blanks) : SpellsArguments blanks []
  | one {text argument : List Char} (h : SpellsArgument text argument) :
      SpellsArguments text [argument]
  | more {text argument rest next : List Char} {others : List (List Char)}
      (h : SpellsArgument text argument) (hrest : SpellsArguments rest (next :: others)) :
      SpellsArguments (text ++ ',' :: rest) (argument :: next :: others)

/-- A text spells a call: a name, and a list of arguments in parentheses. -/
def SpellsCall (text : List Char) (name : String) (arguments : List (List Char)) : Prop :=
  ∃ before between inner after, IsBlanks before ∧ IsBlanks between ∧
    SpellsArguments inner arguments ∧ IsBlanks after ∧
    text = before ++ name.toList ++ between ++ '(' :: (inner ++ ')' :: after)

/-- The role that an argument names: one leading `ROLE_` does not count. -/
def NamesRole (argument : List Char) (role : String) : Prop :=
  argument = "ROLE_".toList ++ role.toList ∨
    ¬ "ROLE_".toList <+: argument ∧ argument = role.toList

/-- The rule that a call means. -/
inductive Means : String → List (List Char) → AccessRule → Prop
  | anonymous : Means "isAnonymous" [] .anonymous
  | authenticated : Means "isAuthenticated" [] .authenticated
  | role {argument : List Char} {role : String} (h : NamesRole argument role) :
      Means "hasRole" [argument] (.roles [role])
  | anyRole {arguments : List (List Char)} {roles : List String} (hne : arguments ≠ [])
      (h : List.Forall₂ NamesRole arguments roles) : Means "hasAnyRole" arguments (.roles roles)

/-- An expression states a rule: it spells a call that means it. -/
def States (expression : String) (rule : AccessRule) : Prop :=
  ∃ name arguments, SpellsCall expression.toList name arguments ∧ Means name arguments rule

/-! ## Blanks -/

theorem not_mem_of_isBlanks {blanks : List Char} (h : IsBlanks blanks) {c : Char}
    (hc : isBlank c = false) : c ∉ blanks := fun hmem => by
  have hblank := h c hmem
  rw [hc] at hblank
  cases hblank

theorem countP_of_isBlanks {blanks : List Char} (h : IsBlanks blanks) {p : Char → Bool}
    (hp : ∀ c, p c = true → isBlank c = false) : blanks.countP p = 0 :=
  List.countP_eq_zero.2 fun c hc hpc => not_mem_of_isBlanks h (hp c hpc) hc

theorem exists_trimRight (cs : List Char) :
    ∃ blanks, IsBlanks blanks ∧ cs = trimRight cs ++ blanks :=
  ⟨cs.rtakeWhile isBlank, fun _ hc => List.mem_rtakeWhile_imp hc,
    List.rdropWhile_append_rtakeWhile.symm⟩

theorem exists_trim (cs : List Char) :
    ∃ before after, IsBlanks before ∧ IsBlanks after ∧ cs = before ++ trim cs ++ after := by
  obtain ⟨before, hbefore, hleft⟩ := exists_trimLeft cs
  obtain ⟨after, hafter, hright⟩ := exists_trimRight (trimLeft cs)
  refine ⟨before, after, hbefore, hafter, ?_⟩
  rw [List.append_assoc, trim, ← hright]
  exact hleft

/-- Blanks at the end of a text are trimmed. -/
theorem trimRight_append {blanks : List Char} (h : IsBlanks blanks) (cs : List Char) :
    trimRight (cs ++ blanks) = trimRight cs := by
  rw [trimRight, trimRight, List.reverse_append,
    List.dropWhile_append_of_pos fun c hc => h c (List.mem_reverse.1 hc)]

theorem trimRight_concat {c : Char} (h : isBlank c = false) (cs : List Char) :
    trimRight (cs ++ [c]) = cs ++ [c] :=
  List.rdropWhile_concat_neg _ _ _ (by simp [h])

theorem trimRight_eq_self {cs : List Char} (h : ∀ c ∈ cs.getLast?, isBlank c = false) :
    trimRight cs = cs := by
  cases cs using List.reverseRecOn with
  | nil => rfl
  | append_singleton front last => exact trimRight_concat (h _ List.getLast?_concat) front

/-- What stands before a character that is no blank is not trimmed. -/
theorem trimRight_append_cons {c : Char} (h : isBlank c = false) (cs rest : List Char) :
    trimRight (cs ++ c :: rest) = cs ++ c :: trimRight rest := by
  have hreverse : (cs ++ c :: rest).reverse = rest.reverse ++ c :: cs.reverse := by simp
  rw [trimRight, trimRight, hreverse, List.dropWhile_append]
  split
  · next hempty =>
    rw [List.isEmpty_iff.1 hempty, List.dropWhile_cons_of_neg (by simp [h])]
    simp
  · simp

/-- Of a text with blanks around it only the text is left, if no blank stands at its ends. -/
theorem trim_padded {before core after : List Char} (hbefore : IsBlanks before)
    (hafter : IsBlanks after) (hfirst : ∀ c ∈ core.head?, isBlank c = false)
    (hlast : ∀ c ∈ core.getLast?, isBlank c = false) : trim (before ++ core ++ after) = core := by
  rw [trim, List.append_assoc, trimLeft_append hbefore]
  cases core using List.reverseRecOn with
  | nil =>
    rw [List.nil_append, ← List.append_nil after, trimLeft_append hafter]
    rfl
  | append_singleton front last =>
    have hleft : trimLeft (front ++ [last] ++ after) = front ++ [last] ++ after := by
      cases front with
      | nil => exact trimLeft_cons (hfirst _ rfl) _
      | cons first front => exact trimLeft_cons (hfirst _ rfl) _
    rw [hleft, trimRight_append hafter, trimRight_concat (hlast _ List.getLast?_concat)]

/-! ## Arguments -/

theorem isQuote_iff {c : Char} : isQuote c = true ↔ c = '\'' ∨ c = '"' := by
  simp [isQuote]

theorem unquoteWith?_eq_some_iff {quote : Char} {token text : List Char} :
    unquoteWith? quote token = some text ↔ token = quote :: (text ++ [quote]) := by
  cases token with
  | nil => exact ⟨nofun, nofun⟩
  | cons c rest =>
    rw [unquoteWith?]
    constructor
    · intro h
      split at h
      · next hquotes =>
        obtain ⟨rfl, hlast⟩ := hquotes
        cases h
        rw [List.dropLast_append_getLast? _ hlast]
      · cases h
    · rintro ⟨⟩
      rw [if_pos ⟨rfl, List.getLast?_concat⟩, List.dropLast_concat]

theorem unquote_eq_some_iff {token text : List Char} :
    (unquoteWith? '\'' token).or (unquoteWith? '"' token) = some text ↔
      ∃ quote, isQuote quote = true ∧ token = quote :: (text ++ [quote]) := by
  rw [Option.or_eq_some_iff, unquoteWith?_eq_some_iff, unquoteWith?_eq_some_iff]
  constructor
  · rintro (htoken | ⟨-, htoken⟩)
    · exact ⟨'\'', rfl, htoken⟩
    · exact ⟨'"', rfl, htoken⟩
  · rintro ⟨quote, hquote, rfl⟩
    rcases isQuote_iff.1 hquote with rfl | rfl
    · exact .inl rfl
    · exact .inr ⟨rfl, rfl⟩

/-- A token is an argument if it has a quote at both its ends and none inside. -/
theorem argument?_eq_some_iff {token text : List Char} :
    argument? token = some text ↔
      ∃ quote, isQuote quote = true ∧ token = quote :: (text ++ [quote]) ∧
        ∀ c ∈ text, isQuote c = false := by
  have hplain : ∀ text : List Char, text.any isQuote = false ↔ ∀ c ∈ text, isQuote c = false := by
    simp
  rw [argument?]
  constructor
  · intro h
    split at h
    · next inside hinside =>
      split at h
      · cases h
      · next hany =>
        cases h
        obtain ⟨quote, hquote, htoken⟩ := unquote_eq_some_iff.1 hinside
        exact ⟨quote, hquote, htoken, (hplain text).1 (Bool.eq_false_iff.2 hany)⟩
    · cases h
  · rintro ⟨quote, hquote, htoken, htext⟩
    rw [unquote_eq_some_iff.2 ⟨quote, hquote, htoken⟩]
    simp only [(hplain text).2 htext, Bool.false_eq_true, if_false]

theorem isBlank_of_isQuote {c : Char} (h : isQuote c = true) : isBlank c = false := by
  rcases isQuote_iff.1 h with rfl | rfl <;> rfl

/-- An argument is spelled by a token with blanks around it. -/
theorem SpellsArgument.exists_token {text argument : List Char} (h : SpellsArgument text argument) :
    ∃ before quote after, IsBlanks before ∧ isQuote quote = true ∧
      (∀ c ∈ argument, isQuote c = false) ∧ IsBlanks after ∧
      text = before ++ quote :: (argument ++ [quote]) ++ after := by
  obtain ⟨before, quote, after, hbefore, hquote, hplain, hafter, rfl⟩ := h
  refine ⟨before, quote, after, hbefore, isQuote_iff.2 hquote, fun c hc => ?_, hafter, by simp⟩
  rw [Bool.eq_false_iff, Ne, isQuote_iff, not_or]
  exact ⟨(hplain c hc).1, (hplain c hc).2.1⟩

/-- A piece between two commas is an argument if it spells one. -/
theorem argument?_trim_eq_some_iff {piece argument : List Char} (hpiece : ',' ∉ piece) :
    argument? (trim piece) = some argument ↔ SpellsArgument piece argument := by
  rw [argument?_eq_some_iff]
  constructor
  · rintro ⟨quote, hquote, htrim, hplain⟩
    obtain ⟨before, after, hbefore, hafter, hsplit⟩ := exists_trim piece
    rw [htrim] at hsplit
    subst hsplit
    refine ⟨before, quote, after, hbefore, isQuote_iff.1 hquote, fun c hc => ?_, hafter, by simp⟩
    have hquotes := not_or.1 (isQuote_iff.not.1 (Bool.eq_false_iff.1 (hplain c hc)))
    refine ⟨hquotes.1, hquotes.2, ?_⟩
    rintro rfl
    exact hpiece (by simp [hc])
  · intro h
    obtain ⟨before, quote, after, hbefore, hquote, hplain, hafter, rfl⟩ := h.exists_token
    refine ⟨quote, hquote, trim_padded hbefore hafter ?_ ?_, hplain⟩
    · rintro c ⟨⟩
      exact isBlank_of_isQuote hquote
    · rw [← List.cons_append, List.getLast?_concat]
      rintro c ⟨⟩
      exact isBlank_of_isQuote hquote

theorem SpellsArgument.comma_not_mem {text argument : List Char}
    (h : SpellsArgument text argument) : ',' ∉ text := by
  obtain ⟨before, quote, after, hbefore, hquote, hplain, hafter, rfl⟩ := h
  have hcomma : ',' ≠ quote := by
    rcases hquote with rfl | rfl <;> decide
  simp only [List.mem_append, List.mem_cons, not_or]
  exact ⟨not_mem_of_isBlanks hbefore rfl, hcomma, fun hmem => (hplain ',' hmem).2.2 rfl, hcomma,
    not_mem_of_isBlanks hafter rfl⟩

/-! ## Lists of arguments -/

theorem SpellsArgument.pad {text argument before after : List Char}
    (h : SpellsArgument text argument) (hbefore : IsBlanks before) (hafter : IsBlanks after) :
    SpellsArgument (before ++ text ++ after) argument := by
  obtain ⟨before', quote, after', hbefore', hquote, hplain, hafter', rfl⟩ := h
  exact ⟨before ++ before', quote, after' ++ after, hbefore.append hbefore', hquote, hplain,
    hafter'.append hafter, by simp⟩

/-- Blanks around a list of arguments belong to its ends. -/
theorem SpellsArguments.pad {text before after : List Char} {arguments : List (List Char)}
    (h : SpellsArguments text arguments) (hbefore : IsBlanks before) (hafter : IsBlanks after) :
    SpellsArguments (before ++ text ++ after) arguments := by
  induction h generalizing before with
  | none hblanks => exact .none ((hbefore.append hblanks).append hafter)
  | one h => exact .one (h.pad hbefore hafter)
  | more h _ ih =>
    have hpadded := SpellsArguments.more (h.pad hbefore isBlanks_nil) (ih isBlanks_nil)
    simpa using hpadded

theorem SpellsArguments.trimLeft {text argument : List Char} {others : List (List Char)}
    (h : SpellsArguments text (argument :: others)) :
    SpellsArguments (trimLeft text) (argument :: others) := by
  cases h with
  | one h =>
    obtain ⟨before, quote, after, hbefore, hquote, hplain, hafter, rfl⟩ := h
    rw [trimLeft_append hbefore, trimLeft_cons (isBlank_of_isQuote (isQuote_iff.2 hquote))]
    exact .one ⟨[], quote, after, isBlanks_nil, hquote, hplain, hafter, rfl⟩
  | more h hrest =>
    obtain ⟨before, quote, after, hbefore, hquote, hplain, hafter, rfl⟩ := h
    rw [List.append_assoc, trimLeft_append hbefore, List.cons_append,
      trimLeft_cons (isBlank_of_isQuote (isQuote_iff.2 hquote)), ← List.cons_append]
    exact .more ⟨[], quote, after, isBlanks_nil, hquote, hplain, hafter, rfl⟩ hrest

theorem SpellsArguments.trimRight {text : List Char} {arguments : List (List Char)}
    (h : SpellsArguments text arguments) : SpellsArguments (trimRight text) arguments := by
  induction h with
  | none hblanks =>
    exact .none fun c hc => hblanks c ((List.rdropWhile_prefix isBlank _).subset hc)
  | @one text argument h =>
    obtain ⟨before, quote, after, hbefore, hquote, hplain, hafter, rfl⟩ := h
    have hcore : before ++ quote :: (argument ++ quote :: after) =
        before ++ quote :: argument ++ [quote] ++ after := by simp
    rw [hcore, trimRight_append hafter,
      trimRight_concat (isBlank_of_isQuote (isQuote_iff.2 hquote))]
    exact .one ⟨before, quote, [], hbefore, hquote, hplain, isBlanks_nil, by simp⟩
  | more h _ ih =>
    rw [trimRight_append_cons rfl]
    exact .more h ih

theorem mapM_cons_eq_some_iff {α β : Type} {f : α → Option β} {x : α} {xs : List α} {ys : List β} :
    (x :: xs).mapM f = some ys ↔ ∃ y ys', f x = some y ∧ xs.mapM f = some ys' ∧ ys = y :: ys' := by
  simp only [List.mapM_cons, Option.bind_eq_bind, Option.pure_def, Option.bind_eq_some_iff,
    Option.some.injEq, @eq_comm _ _ ys, exists_and_left]

theorem splitAt_append_cons {piece : List Char} (h : ',' ∉ piece) (cs : List Char) :
    splitAt ',' (piece ++ ',' :: cs) = piece :: splitAt ',' cs := by
  have hcomma : splitAt ',' (',' :: cs) = [] :: splitAt ',' cs := by rw [splitAt, if_pos rfl]
  rw [splitAt_append_of_not_mem h hcomma, List.append_nil]

/-- The pieces between the commas are the arguments of a list that has some. -/
theorem mapM_argument?_eq_some_iff {text : List Char} {arguments : List (List Char)} :
    ((splitAt ',' text).mapM fun piece => argument? (trim piece)) = some arguments ↔
      arguments ≠ [] ∧ SpellsArguments text arguments := by
  constructor
  · intro h
    obtain ⟨pieces, last, hpieces, hlast, rfl⟩ := exists_ended ',' text
    rw [splitAt_ended hpieces hlast] at h
    induction pieces generalizing arguments with
    | nil =>
      obtain ⟨argument, others, hargument, hothers, rfl⟩ := mapM_cons_eq_some_iff.1 h
      cases hothers
      exact ⟨List.cons_ne_nil _ _, .one ((argument?_trim_eq_some_iff hlast).1 hargument)⟩
    | cons piece pieces ih =>
      obtain ⟨hpiece, hpieces⟩ := List.forall_mem_cons.1 hpieces
      obtain ⟨argument, others, hargument, hothers, rfl⟩ := mapM_cons_eq_some_iff.1 h
      obtain ⟨hne, hrest⟩ := ih hpieces hothers
      obtain ⟨next, others, rfl⟩ := List.exists_cons_of_ne_nil hne
      have hmore := SpellsArguments.more ((argument?_trim_eq_some_iff hpiece).1 hargument) hrest
      exact ⟨List.cons_ne_nil _ _, by simpa using hmore⟩
  · rintro ⟨hne, h⟩
    induction h with
    | none => exact absurd rfl hne
    | one h =>
      rw [splitAt_of_not_mem h.comma_not_mem]
      exact mapM_cons_eq_some_iff.2
        ⟨_, [], (argument?_trim_eq_some_iff h.comma_not_mem).2 h, rfl, rfl⟩
    | more h _ ih =>
      rw [splitAt_append_cons h.comma_not_mem]
      exact mapM_cons_eq_some_iff.2
        ⟨_, _, (argument?_trim_eq_some_iff h.comma_not_mem).2 h, ih (List.cons_ne_nil _ _), rfl⟩

/-- What stands between the parentheses is read as the arguments that it spells. -/
theorem arguments?_trim_eq_some_iff {inner : List Char} {arguments : List (List Char)} :
    arguments? (trim inner) = some arguments ↔ SpellsArguments inner arguments := by
  obtain ⟨before, after, hbefore, hafter, hinner⟩ := exists_trim inner
  rw [arguments?]
  constructor
  · intro h
    have hspells : SpellsArguments (trim inner) arguments := by
      split at h
      · next hempty =>
        cases h
        rw [List.isEmpty_iff.1 hempty]
        exact .none isBlanks_nil
      · exact (mapM_argument?_eq_some_iff.1 h).2
    rw [hinner]
    exact hspells.pad hbefore hafter
  · intro h
    cases arguments with
    | nil =>
      cases h with
      | none hblanks =>
        have htrim : trim (inner ++ [] ++ []) = [] :=
          trim_padded hblanks isBlanks_nil nofun nofun
        rw [List.append_nil, List.append_nil] at htrim
        rw [htrim]
        rfl
    | cons argument others =>
      have hread := mapM_argument?_eq_some_iff.2 ⟨List.cons_ne_nil _ _, h.trimLeft.trimRight⟩
      rw [if_neg]
      · exact hread
      · intro hempty
        rw [← trim, List.isEmpty_iff.1 hempty] at hread
        cases hread

/-! ## Calls -/

/-- The names of the calls that state a rule. -/
def ruleNames : List String := ["isAnonymous", "isAuthenticated", "hasRole", "hasAnyRole"]

theorem Means.mem_ruleNames {name : String} {arguments : List (List Char)} {rule : AccessRule}
    (h : Means name arguments rule) : name ∈ ruleNames := by
  cases h <;> simp [ruleNames]

theorem isNameChar_of_mem_ruleNames :
    ∀ name ∈ ruleNames, ∀ c ∈ name.toList, isNameChar c = true := by
  have hall : (ruleNames.all fun name => name.toList.all isNameChar) = true := by decide +kernel
  exact fun name hname => List.all_eq_true.1 (List.all_eq_true.1 hall name hname)

theorem toList_ne_nil_of_mem_ruleNames : ∀ name ∈ ruleNames, name.toList ≠ [] := by
  decide

theorem isBlank_of_mem_ruleNames {name : String} (hname : name ∈ ruleNames) {c : Char}
    (hc : c ∈ name.toList) : isBlank c = false :=
  isBlank_of_isPathChar (isPathChar_of_isNameChar (isNameChar_of_mem_ruleNames name hname c hc))

theorem parenthesis_not_mem {name : String} (hname : name ∈ ruleNames) {before between : List Char}
    (hbefore : IsBlanks before) (hbetween : IsBlanks between) :
    '(' ∉ before ++ name.toList ++ between := by
  simp only [List.mem_append, not_or]
  refine ⟨⟨not_mem_of_isBlanks hbefore rfl, fun hmem => ?_⟩, not_mem_of_isBlanks hbetween rfl⟩
  have hparenthesis : isNameChar '(' = false := by decide +kernel
  rw [isNameChar_of_mem_ruleNames name hname _ hmem] at hparenthesis
  cases hparenthesis

/-- A call is read as it is spelled, if its name is one of those that state a rule. -/
theorem call?_of_spellsCall {text : List Char} {name : String} {arguments : List (List Char)}
    (h : SpellsCall text name arguments) (hname : name ∈ ruleNames) :
    call? text = some (name.toList, arguments) := by
  obtain ⟨before, between, inner, after, hbefore, hbetween, hinner, hafter, rfl⟩ := h
  have hchars := isNameChar_of_mem_ruleNames name hname
  have hne := toList_ne_nil_of_mem_ruleNames name hname
  have hnoBlank : ∀ c ∈ name.toList, isBlank c = false := fun c => isBlank_of_mem_ruleNames hname
  have hopen : ∀ c ∈ name.toList ++ between, decide (c ≠ '(') = true := fun c hc =>
    decide_eq_true fun hparenthesis =>
      parenthesis_not_mem hname isBlanks_nil hbetween (hparenthesis ▸ hc)
  have hcore : before ++ name.toList ++ between ++ '(' :: (inner ++ ')' :: after) =
      before ++ (name.toList ++ between ++ '(' :: (inner ++ [')'])) ++ after := by simp
  have htext : trim (before ++ name.toList ++ between ++ '(' :: (inner ++ ')' :: after)) =
      name.toList ++ between ++ '(' :: (inner ++ [')']) := by
    rw [hcore]
    refine trim_padded hbefore hafter ?_ ?_
    · rw [List.append_assoc, List.head?_append_of_ne_nil _ hne]
      exact fun c hc => hnoBlank c (List.mem_of_head? hc)
    · rw [← List.cons_append, ← List.append_assoc, List.getLast?_concat]
      rintro c ⟨⟩
      rfl
  have hname' : trim (name.toList ++ between) = name.toList :=
    trim_padded isBlanks_nil hbetween (fun c hc => hnoBlank c (List.mem_of_head? hc))
      fun c hc => hnoBlank c (List.mem_of_getLast? hc)
  have htake : (name.toList ++ between ++ '(' :: (inner ++ [')'])).takeWhile (· ≠ '(') =
      name.toList ++ between := by
    rw [List.takeWhile_append_of_pos hopen]
    simp
  have hdrop : (name.toList ++ between ++ '(' :: (inner ++ [')'])).dropWhile (· ≠ '(') =
      '(' :: (inner ++ [')']) := by
    rw [List.dropWhile_append_of_pos hopen]
    simp
  have hguard : (name.toList.isEmpty || !name.toList.all isNameChar) = false := by
    rw [List.all_eq_true.2 hchars, List.isEmpty_eq_false_iff.2 hne]
    rfl
  simp only [call?, htext, htake, hname', hdrop, hguard, List.getLast?_concat,
    List.dropLast_concat, arguments?_trim_eq_some_iff.2 hinner]
  rfl

theorem spellsCall_of_call? {text name : List Char} {arguments : List (List Char)}
    (h : call? text = some (name, arguments)) : SpellsCall text (String.ofList name) arguments := by
  obtain ⟨before, after, hbefore, hafter, htext⟩ := exists_trim text
  obtain ⟨before', between, hbefore', hbetween, hfront⟩ :=
    exists_trim ((trim text).takeWhile (· ≠ '('))
  have hsplit := List.takeWhile_append_dropWhile (p := (· ≠ '(')) (l := trim text)
  have hopen := List.head?_dropWhile_not (· ≠ '(') (trim text)
  simp only [call?] at h
  split at h
  · cases h
  · next c rest hdrop =>
    rw [hdrop] at hopen hsplit
    split at h
    · cases h
    · split at h
      · next hlast =>
        obtain ⟨arguments', harguments, h⟩ := Option.bind_eq_some_iff.1 h
        cases h
        obtain rfl : c = '(' := by simpa using hopen
        have hrest : rest = rest.dropLast ++ [')'] := (List.dropLast_append_getLast? _ hlast).symm
        refine ⟨before ++ before', between, rest.dropLast, after, hbefore.append hbefore', hbetween,
          arguments?_trim_eq_some_iff.1 harguments, hafter, ?_⟩
        rw [String.toList_ofList]
        calc text = before ++ trim text ++ after := htext
          _ = before ++ ((trim text).takeWhile (· ≠ '(') ++ '(' :: rest) ++ after := by
            rw [hsplit]
          _ = before ++ (before' ++ trim ((trim text).takeWhile (· ≠ '(')) ++ between ++
              '(' :: (rest.dropLast ++ [')'])) ++ after := by rw [← hfront, ← hrest]
          _ = _ := by simp
      · cases h

/-! ## Rules -/

/-- A role is the argument without a leading `ROLE_`. -/
theorem namesRole_iff {argument : List Char} {role : String} :
    NamesRole argument role ↔ role = String.ofList (roleName argument) := by
  have hstart : ∀ name, 'R' :: 'O' :: 'L' :: 'E' :: '_' :: name = "ROLE_".toList ++ name :=
    fun _ => rfl
  have hrole : role = String.ofList (roleName argument) ↔ roleName argument = role.toList := by
    rw [← String.toList_inj, String.toList_ofList, eq_comm]
  rw [hrole, NamesRole]
  unfold roleName
  split
  · next name =>
    rw [hstart, List.append_cancel_left_eq]
    exact ⟨fun h => h.resolve_right fun hplain => hplain.1 (List.prefix_append _ _), .inl⟩
  · next hplain =>
    have hnot : ¬ "ROLE_".toList <+: argument := fun ⟨name, hname⟩ => hplain name hname.symm
    exact ⟨fun h => (h.resolve_left fun hmarked => hnot ⟨_, hmarked.symm⟩).2,
      fun h => .inr ⟨hnot, h⟩⟩

theorem forall₂_namesRole_iff {arguments : List (List Char)} {roles : List String} :
    List.Forall₂ NamesRole arguments roles ↔
      roles = arguments.map fun argument => String.ofList (roleName argument) := by
  induction arguments generalizing roles with
  | nil => simp
  | cons argument arguments ih =>
    cases roles with
    | nil => simp
    | cons role roles => simp [namesRole_iff, ih]

/-- An expression has the rule that it states, and no other. -/
theorem parse?_eq_some_iff {expression : String} {rule : AccessRule} :
    parse? expression = some rule ↔ States expression rule := by
  constructor
  · intro h
    obtain ⟨⟨name, arguments⟩, hcall, h⟩ := Option.bind_eq_some_iff.1 h
    refine ⟨String.ofList name, arguments, spellsCall_of_call? hcall, ?_⟩
    dsimp only at h
    split at h
    · next hname =>
      cases h
      rw [hname]
      exact .anonymous
    · next hname =>
      cases h
      rw [hname]
      exact .authenticated
    · next argument hname =>
      cases h
      rw [hname]
      exact .role (namesRole_iff.2 rfl)
    · next argument others hname =>
      cases h
      rw [hname]
      exact .anyRole (List.cons_ne_nil _ _) (forall₂_namesRole_iff.2 rfl)
    · cases h
  · rintro ⟨name, arguments, hcall, hmeans⟩
    rw [parse?, call?_of_spellsCall hcall hmeans.mem_ruleNames]
    cases hmeans with
    | anonymous => rfl
    | authenticated => rfl
    | role h =>
      rw [namesRole_iff.1 h]
      rfl
    | anyRole hne h =>
      rw [forall₂_namesRole_iff.1 h]
      cases arguments with
      | nil => exact absurd rfl hne
      | cons argument others => rfl

end OperationAtlas.AccessRule
