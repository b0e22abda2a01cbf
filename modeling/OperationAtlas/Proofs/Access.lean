import OperationAtlas.Proofs.Access.Grammar

/-!
# Access rules stand alone

Outside its quotes a list of arguments has blanks and commas only, so whatever else it holds stands
behind an odd number of quotes (`AccessRule.Encloses`). Hence the first parenthesis of a call and the
last one are those of its arguments, and nothing but blanks stands before or behind the text of a rule
in another one: a rule is never a part of a compound expression (`AccessRule.rules_are_calls`).
-/

namespace OperationAtlas.AccessRule

open Text TypeRef

/-! ## Quotes and commas -/

theorem countP_isQuote_of_plain {text : List Char} (h : ∀ c ∈ text, isQuote c = false) :
    text.countP isQuote = 0 :=
  List.countP_eq_zero.2 fun c hc => Bool.eq_false_iff.1 (h c hc)

theorem isBlank_of_eq_comma {c : Char} (h : (c == ',') = true) : isBlank c = false := by
  rw [eq_of_beq h]
  rfl

theorem SpellsArgument.counts {text argument : List Char} (h : SpellsArgument text argument) :
    text.countP isQuote = 2 ∧ text.count ',' = 0 := by
  refine ⟨?_, List.count_eq_zero.2 h.comma_not_mem⟩
  obtain ⟨before, quote, after, hbefore, hquote, hplain, hafter, rfl⟩ := h.exists_token
  simp [countP_of_isBlanks hbefore fun _ => isBlank_of_isQuote,
    countP_of_isBlanks hafter fun _ => isBlank_of_isQuote, hquote, countP_isQuote_of_plain hplain]

/-- Every argument has two quotes, and every argument but one a comma. -/
theorem SpellsArguments.counts {text : List Char} {arguments : List (List Char)}
    (h : SpellsArguments text arguments) :
    text.countP isQuote = 2 * arguments.length ∧ text.count ',' = arguments.length - 1 := by
  induction h with
  | none hblanks =>
    exact ⟨countP_of_isBlanks hblanks fun _ => isBlank_of_isQuote,
      countP_of_isBlanks hblanks fun _ => isBlank_of_eq_comma⟩
  | one h => exact h.counts
  | more h _ ih =>
    obtain ⟨hquotes, hcommas⟩ := ih
    obtain ⟨hquotes', hcommas'⟩ := h.counts
    have hcomma : isQuote ',' = false := rfl
    simp only [List.countP_append, List.count_append, List.countP_cons, List.count_cons_self,
      List.length_cons, hcomma] at hquotes hcommas ⊢
    constructor
    · simp only [hquotes, hquotes', Bool.false_eq_true, if_false]
      omega
    · omega

theorem counts_of_mem_ruleNames : ∀ name ∈ ruleNames,
    name.toList.countP isQuote = 0 ∧ name.toList.count ',' = 0 := by
  decide

theorem SpellsCall.counts {text : List Char} {name : String} {arguments : List (List Char)}
    (h : SpellsCall text name arguments) (hname : name ∈ ruleNames) :
    text.countP isQuote = 2 * arguments.length ∧ text.count ',' = arguments.length - 1 := by
  obtain ⟨before, between, inner, after, hbefore, hbetween, hinner, hafter, rfl⟩ := h
  obtain ⟨hquotes, hcommas⟩ := counts_of_mem_ruleNames name hname
  obtain ⟨hquotes', hcommas'⟩ := hinner.counts
  have hnoQuotes : ∀ {cs : List Char}, IsBlanks cs → cs.countP isQuote = 0 := fun hcs =>
    countP_of_isBlanks hcs fun _ => isBlank_of_isQuote
  have hnoCommas : ∀ {cs : List Char}, IsBlanks cs → cs.count ',' = 0 := fun hcs =>
    countP_of_isBlanks hcs fun _ => isBlank_of_eq_comma
  have hmarks : isQuote '(' = false ∧ isQuote ')' = false := ⟨rfl, rfl⟩
  constructor
  · simp [hquotes, hquotes', hnoQuotes hbefore, hnoQuotes hbetween, hnoQuotes hafter, hmarks]
  · simp [hcommas, hcommas', hnoCommas hbefore, hnoCommas hbetween, hnoCommas hafter]

/-! ## Texts that are alike up to a character -/

/-- Two equal texts are cut at the same place if neither cut stands behind the other one. -/
theorem append_cons_inj {c : Char} {front front' rest rest' : List Char}
    (h : ∀ middle, front' ≠ front ++ c :: middle) (h' : ∀ middle, front ≠ front' ++ c :: middle)
    (heq : front ++ c :: rest = front' ++ c :: rest') : front = front' ∧ rest = rest' := by
  rcases List.append_eq_append_iff.1 heq with ⟨middle, hfront, hrest⟩ | ⟨middle, hfront, hrest⟩
  · cases middle with
    | nil => exact ⟨by simpa using hfront.symm, (List.cons.inj hrest).2⟩
    | cons c' middle =>
      obtain ⟨rfl, -⟩ := List.cons.inj hrest
      exact absurd hfront (h middle)
  · cases middle with
    | nil => exact ⟨by simpa using hfront, (List.cons.inj hrest).2.symm⟩
    | cons c' middle =>
      obtain ⟨rfl, -⟩ := List.cons.inj hrest
      exact absurd hfront (h' middle)

/-- Two texts are alike before the first place of a character and behind it. -/
theorem append_cons_inj_first {c : Char} {front front' rest rest' : List Char} (h : c ∉ front)
    (h' : c ∉ front') (heq : front ++ c :: rest = front' ++ c :: rest') :
    front = front' ∧ rest = rest' :=
  append_cons_inj (fun _ hfront => h' (by simp [hfront])) (fun _ hfront => h (by simp [hfront])) heq

/-- Two texts are alike before the last place of a character. -/
theorem append_cons_inj_last {c : Char} {front front' rest rest' : List Char} (h : c ∉ rest)
    (h' : c ∉ rest') (heq : front ++ c :: rest = front' ++ c :: rest') : front = front' := by
  have hreverse := congrArg List.reverse heq
  simp only [List.reverse_append, List.reverse_cons, List.append_assoc,
    List.singleton_append] at hreverse
  exact List.reverse_injective (append_cons_inj_first (List.mem_reverse.not.2 h)
    (List.mem_reverse.not.2 h') hreverse).2

/-! ## What stands between quotes -/

/-- Outside its quotes a text has blanks and commas only. -/
structure Encloses (text : List Char) : Prop where
  even : text.countP isQuote % 2 = 0
  inside : ∀ front c rest, text = front ++ c :: rest → isBlank c = false → c ≠ ',' →
    isQuote c = false → front.countP isQuote % 2 = 1

theorem Encloses.append {text text' : List Char} (h : Encloses text) (h' : Encloses text') :
    Encloses (text ++ text') where
  even := by
    have heven := h.even
    have heven' := h'.even
    rw [List.countP_append]
    omega
  inside front c rest hsplit hblank hcomma hquote := by
    have heven := h.even
    rcases List.append_eq_append_iff.1 hsplit with ⟨middle, rfl, htext'⟩ | ⟨middle, htext, hrest⟩
    · have hodd := h'.inside middle c rest htext' hblank hcomma hquote
      rw [List.countP_append]
      omega
    · cases middle with
      | nil =>
        cases h'.inside [] c rest hrest.symm hblank hcomma hquote
      | cons c' middle =>
        cases hrest
        exact h.inside front c middle htext hblank hcomma hquote

theorem Encloses.of_forall {text : List Char}
    (h : ∀ c ∈ text, isBlank c = true ∨ c = ',') : Encloses text where
  even := by
    have hnone : text.countP isQuote = 0 := List.countP_eq_zero.2 fun c hc hquote => by
      rcases h c hc with hblank | rfl
      · rw [isBlank_of_isQuote hquote] at hblank
        cases hblank
      · cases hquote
    rw [hnone]
  inside front c rest hsplit hblank hcomma _ := by
    rcases h c (hsplit ▸ List.mem_append_right _ List.mem_cons_self) with hc | hc
    · rw [hblank] at hc
      cases hc
    · exact absurd hc hcomma

theorem encloses_quoted {quote : Char} {argument : List Char} (hquote : isQuote quote = true)
    (hplain : argument.countP isQuote = 0) : Encloses (quote :: (argument ++ [quote])) where
  even := by simp [hquote, hplain]
  inside front c rest hsplit _ _ hc := by
    cases front with
    | nil =>
      cases hsplit
      rw [hquote] at hc
      cases hc
    | cons quote' front =>
      obtain ⟨rfl, hrest⟩ := List.cons.inj hsplit
      have hfront : front.countP isQuote = 0 := by
        rcases List.append_eq_append_iff.1 hrest with
          ⟨middle, hfront, hlast⟩ | ⟨middle, hargument, -⟩
        · cases middle with
          | nil =>
            cases hlast
            rw [hquote] at hc
            cases hc
          | cons c' middle => simp at hlast
        · rw [hargument, List.countP_append] at hplain
          omega
      simp [hquote, hfront]

theorem SpellsArgument.encloses {text argument : List Char} (h : SpellsArgument text argument) :
    Encloses text := by
  obtain ⟨before, quote, after, hbefore, hquote, hplain, hafter, rfl⟩ := h.exists_token
  have hquoted := encloses_quoted hquote (countP_isQuote_of_plain hplain)
  exact ((Encloses.of_forall fun c hc => .inl (hbefore c hc)).append hquoted).append
    (.of_forall fun c hc => .inl (hafter c hc))

theorem SpellsArguments.encloses {text : List Char} {arguments : List (List Char)}
    (h : SpellsArguments text arguments) : Encloses text := by
  induction h with
  | none hblanks => exact .of_forall fun c hc => .inl (hblanks c hc)
  | one h => exact h.encloses
  | @more text _ rest _ _ h _ ih =>
    have hcomma : Encloses [','] := .of_forall fun c hc => .inr (List.mem_singleton.1 hc)
    rw [← List.singleton_append]
    exact h.encloses.append (hcomma.append ih)

/-- Behind an even number of quotes stands no parenthesis. -/
theorem Encloses.odd_of_parenthesis {text front rest : List Char} {c : Char} (h : Encloses text)
    (hc : c = '(' ∨ c = ')') (hsplit : text = front ++ c :: rest) :
    front.countP isQuote % 2 = 1 := by
  refine h.inside front c rest hsplit ?_ ?_ ?_ <;> rcases hc with rfl | rfl <;> decide

theorem Encloses.ne_append_parenthesis {text front rest : List Char} {c : Char} (h : Encloses text)
    (hfront : Encloses front) (hc : c = '(' ∨ c = ')') : text ≠ front ++ c :: rest := fun hsplit => by
  have hodd := h.odd_of_parenthesis hc hsplit
  have heven := hfront.even
  omega

/-- Two texts go on alike behind their closing parentheses. -/
theorem Encloses.closing_unique {inner inner' behind behind' : List Char} (h : Encloses inner)
    (h' : Encloses inner') (heq : inner ++ ')' :: behind = inner' ++ ')' :: behind') :
    behind = behind' :=
  (append_cons_inj (fun _ => h'.ne_append_parenthesis h (.inr rfl))
    (fun _ => h.ne_append_parenthesis h' (.inr rfl)) heq).2

/-! ## Text before and behind a call -/

/-- Nothing but blanks can stand behind a call. -/
theorem SpellsCall.isBlanks_behind {text rest : List Char} {name name' : String}
    {arguments arguments' : List (List Char)} (h : SpellsCall text name arguments)
    (hname : name ∈ ruleNames) (h' : SpellsCall (text ++ rest) name' arguments')
    (hname' : name' ∈ ruleNames) : IsBlanks rest := by
  obtain ⟨before, between, inner, after, hbefore, hbetween, hinner, -, rfl⟩ := h
  obtain ⟨before', between', inner', after', hbefore', hbetween', hinner', hafter', heq⟩ := h'
  rw [List.append_assoc, List.cons_append] at heq
  obtain ⟨-, hbehind⟩ := append_cons_inj_first (parenthesis_not_mem hname hbefore hbetween)
    (parenthesis_not_mem hname' hbefore' hbetween') heq
  rw [List.append_assoc, List.cons_append] at hbehind
  rw [← hinner.encloses.closing_unique hinner'.encloses hbehind] at hafter'
  exact fun c hc => hafter' c (List.mem_append_right _ hc)

theorem eq_of_suffix_of_mem_ruleNames : ∀ name ∈ ruleNames, ∀ name' ∈ ruleNames,
    name.toList <:+ name'.toList → name = name' := by
  decide

/-- The name of a call is what stands last before its arguments. -/
theorem name_unique {front front' between between' : List Char} {name name' : String}
    (hname : name ∈ ruleNames) (hname' : name' ∈ ruleNames) (hbetween : IsBlanks between)
    (hbetween' : IsBlanks between')
    (heq : front ++ name.toList ++ between = front' ++ name'.toList ++ between') :
    front = front' := by
  have htrim : ∀ name ∈ ruleNames, ∀ front : List Char,
      trimRight (front ++ name.toList) = front ++ name.toList := fun name hname front =>
    trimRight_eq_self fun c hc => by
      rw [List.getLast?_append_of_ne_nil _ (toList_ne_nil_of_mem_ruleNames name hname)] at hc
      exact isBlank_of_mem_ruleNames hname (List.mem_of_getLast? hc)
  have hnames : front ++ name.toList = front' ++ name'.toList := by
    have htrimmed := congrArg trimRight heq
    rwa [trimRight_append hbetween, trimRight_append hbetween', htrim name hname,
      htrim name' hname'] at htrimmed
  have hsuffix : name.toList <:+ front' ++ name'.toList := hnames ▸ List.suffix_append _ _
  obtain rfl : name = name' := by
    rcases List.suffix_or_suffix_of_suffix hsuffix (List.suffix_append _ _) with hle | hle
    · exact eq_of_suffix_of_mem_ruleNames name hname name' hname' hle
    · exact (eq_of_suffix_of_mem_ruleNames name' hname' name hname hle).symm
  exact List.append_cancel_right hnames

/-- Nothing but blanks can stand before a call. -/
theorem SpellsCall.isBlanks_before {text rest : List Char} {name name' : String}
    {arguments arguments' : List (List Char)} (h : SpellsCall text name arguments)
    (hname : name ∈ ruleNames) (h' : SpellsCall (rest ++ text) name' arguments')
    (hname' : name' ∈ ruleNames) : IsBlanks rest := by
  obtain ⟨before, between, inner, after, hbefore, hbetween, hinner, hafter, rfl⟩ := h
  obtain ⟨before', between', inner', after', hbefore', hbetween', hinner', hafter', heq⟩ := h'
  have hfront' := parenthesis_not_mem hname' hbefore' hbetween'
  by_cases hopen : '(' ∈ rest
  · -- the call would end the arguments, with an even number of quotes behind its parenthesis
    obtain ⟨first, others, rfl, hfirst⟩ := List.eq_append_cons_of_mem hopen
    rw [List.append_assoc, List.cons_append] at heq
    obtain ⟨-, hinside⟩ := append_cons_inj_first hfirst hfront' heq
    have hends : others ++ (before ++ name.toList ++ between) ++ '(' :: inner ++ ')' :: after =
        inner' ++ ')' :: after' := by
      rw [← hinside]
      simp
    have hinner'' := (append_cons_inj_last (not_mem_of_isBlanks hafter rfl)
      (not_mem_of_isBlanks hafter' rfl) hends).symm
    have hodd := hinner'.encloses.odd_of_parenthesis (.inl rfl) hinner''
    have heven := hinner.encloses.even
    have heven' := hinner'.encloses.even
    have hmark : isQuote '(' = false := rfl
    rw [hinner'', List.countP_append, List.countP_cons, hmark] at heven'
    simp only [Bool.false_eq_true, if_false] at heven'
    omega
  · have hfront : '(' ∉ rest ++ (before ++ name.toList ++ between) :=
      List.mem_append.not.2 (not_or.2 ⟨hopen, parenthesis_not_mem hname hbefore hbetween⟩)
    rw [← List.append_assoc] at heq
    obtain ⟨hnames, -⟩ := append_cons_inj_first hfront hfront' heq
    have hblanks : rest ++ before = before' := by
      refine name_unique hname hname' hbetween hbetween' ?_
      simpa using hnames
    exact fun c hc => hbefore' c (hblanks ▸ List.mem_append_left _ hc)

/-- The roles that a rule names. -/
def roleNames : AccessRule → List String
  | anonymous => []
  | authenticated => []
  | roles names => names

theorem Means.length_eq {name : String} {arguments : List (List Char)} {rule : AccessRule}
    (h : Means name arguments rule) : arguments.length = rule.roleNames.length := by
  cases h with
  | anonymous => rfl
  | authenticated => rfl
  | role h => rfl
  | anyRole hne h => exact h.length_eq

/-- An expression has a rule if and only if it is a call that means the rule. Such a call has two
quotes for every role and a comma between every two, and no text but blanks can stand behind it or
before it in an expression with a rule. -/
theorem rules_are_calls (expression : String) :
    (∀ rule, parse? expression = some rule ↔ States expression rule) ∧
    ∀ rule, parse? expression = some rule →
      expression.toList.countP isQuote = 2 * rule.roleNames.length ∧
      expression.toList.count ',' = rule.roleNames.length - 1 ∧
      ∀ text : String, ¬ IsBlanks text.toList →
        parse? (expression ++ text) = none ∧ parse? (text ++ expression) = none := by
  refine ⟨fun rule => parse?_eq_some_iff, fun rule hrule => ?_⟩
  obtain ⟨name, arguments, hcall, hmeans⟩ := parse?_eq_some_iff.1 hrule
  have hname := hmeans.mem_ruleNames
  have hcounts := hcall.counts hname
  rw [hmeans.length_eq] at hcounts
  refine ⟨hcounts.1, hcounts.2, fun text htext => ⟨?_, ?_⟩⟩
  · refine Option.eq_none_iff_forall_ne_some.2 fun rule' hrule' => htext ?_
    obtain ⟨name', arguments', hcall', hmeans'⟩ := parse?_eq_some_iff.1 hrule'
    rw [String.toList_append] at hcall'
    exact hcall.isBlanks_behind hname hcall' hmeans'.mem_ruleNames
  · refine Option.eq_none_iff_forall_ne_some.2 fun rule' hrule' => htext ?_
    obtain ⟨name', arguments', hcall', hmeans'⟩ := parse?_eq_some_iff.1 hrule'
    rw [String.toList_append] at hcall'
    exact hcall.isBlanks_before hname hcall' hmeans'.mem_ruleNames

/-- A comma cuts, a parenthesis between quotes does not close, and a second call takes the rule
away. -/
theorem two_roles_stated :
    States " hasAnyRole (\"ROLE_ADMIN\" , 'a (b)') " (.roles ["ADMIN", "a (b)"]) ∧
      parse? (" hasAnyRole (\"ROLE_ADMIN\" , 'a (b)') " ++ "and isAnonymous()") = none ∧
      parse? ("not" ++ " hasAnyRole (\"ROLE_ADMIN\" , 'a (b)') ") = none := by
  have hrule : parse? " hasAnyRole (\"ROLE_ADMIN\" , 'a (b)') " =
      some (.roles ["ADMIN", "a (b)"]) := by
    decide +kernel
  obtain ⟨hiff, hfacts⟩ := rules_are_calls " hasAnyRole (\"ROLE_ADMIN\" , 'a (b)') "
  obtain ⟨-, -, hothers⟩ := hfacts _ hrule
  have hblanks : ∀ text : String, text.toList.all isBlank = false → ¬ IsBlanks text.toList :=
    fun text htext hall => by
      rw [List.all_eq_true.2 hall] at htext
      cases htext
  exact ⟨(hiff _).1 hrule, (hothers "and isAnonymous()" (hblanks _ rfl)).1,
    (hothers "not" (hblanks _ rfl)).2⟩

end OperationAtlas.AccessRule
