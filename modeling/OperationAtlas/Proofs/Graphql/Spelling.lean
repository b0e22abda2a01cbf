import Mathlib.Data.List.Basic
import OperationAtlas.Graphql.Request.Printer
import OperationAtlas.Proofs.Graphql.Blocks
import OperationAtlas.Proofs.Graphql.Tokens

/-!
# Texts that spell lexemes

`Spells cs used` says that the text `cs` is read as the lexemes `used`, whatever ends a word behind
it. It composes along a text (`Spells.append`, `Spells.punct`, `Spells.blank`), and so the lexemes
of a composed or printed text follow from those of its leaves.

The leaves with escapes are here. A text between quotation marks is read as itself but for the
control character that its escape confuses with another one (`spells_quoted`). A string value that
a document prints is either a line, whose pieces denote texts one by one (`Denotes`), or a block,
which is read up to its end (`firstLexeme_block`).
-/

namespace OperationAtlas.Graphql

open Text

/-- A text is read as the given lexemes, up to the first bad one, whatever ends a word behind it. -/
def Spells (cs : List Char) (used : List Lexeme) : Prop :=
  ∀ rest, EndsWord rest → lexemesOf (cs ++ rest) = untilBad (used ++ lexemesOf rest)

theorem untilBad_append_untilBad (ls ls' : List Lexeme) :
    untilBad (ls ++ untilBad ls') = untilBad (ls ++ ls') := by
  induction ls with
  | nil =>
    induction ls' with
    | nil => rfl
    | cons l ls' ih =>
      by_cases hl : l = .bad
      · subst hl; rfl
      · rw [List.nil_append, List.nil_append] at *
        rw [untilBad_cons hl, untilBad_cons hl, ih]
  | cons l ls ih =>
    by_cases hl : l = .bad
    · subst hl; rfl
    · rw [List.cons_append, List.cons_append, untilBad_cons hl, untilBad_cons hl, ih]

theorem EndsWord.append {cs rest : List Char} (hcs : EndsWord cs) (hrest : EndsWord rest) :
    EndsWord (cs ++ rest) := by
  cases cs with
  | nil => exact hrest
  | cons c cs => exact endsWord_cons.2 (endsWord_cons.1 hcs)

namespace Spells

variable {cs cs' : List Char} {used used' : List Lexeme}

theorem nil : Spells [] [] := fun rest _ => (untilBad_lexemesOf rest).symm

/-- Texts one behind the other spell their lexemes in order, if a word ends before the second. -/
theorem append (h : Spells cs used) (h' : Spells cs' used') (hends : EndsWord cs') :
    Spells (cs ++ cs') (used ++ used') := by
  intro rest hrest
  rw [List.append_assoc, h _ (hends.append hrest), h' _ hrest, untilBad_append_untilBad,
    List.append_assoc]

theorem punct {c : Char} (hc : c ∈ punctuation) (h : Spells cs used) :
    Spells (c :: cs) (.punct c :: used) := by
  intro rest hrest
  rw [List.cons_append, lexemesOf_punct hc, h rest hrest, List.cons_append, untilBad_cons (by simp)]

theorem spread (h : Spells cs used) : Spells ('.' :: '.' :: '.' :: cs) (.spread :: used) := by
  intro rest hrest
  rw [List.cons_append, List.cons_append, List.cons_append, lexemesOf_spread, h rest hrest,
    List.cons_append, untilBad_cons (by simp)]

theorem blank (h : Spells cs used) : Spells (' ' :: cs) used := fun rest hrest => by
  rw [List.cons_append, lexemesOf_blank, h rest hrest]

theorem feed (h : Spells cs used) : Spells ('\n' :: cs) used := fun rest hrest => by
  rw [List.cons_append, lexemesOf_feed, h rest hrest]

theorem comma (h : Spells cs used) : Spells (',' :: cs) used := fun rest hrest => by
  rw [List.cons_append, lexemesOf_comma, h rest hrest]

theorem blanks (n : Nat) (h : Spells cs used) : Spells (List.replicate n ' ' ++ cs) used :=
  fun rest hrest => by rw [List.append_assoc, lexemesOf_blanks, h rest hrest]

theorem name {text : String} (h : IsName text) : Spells text.toList [.name text] :=
  fun rest hrest => by
    rw [lexemesOf_name h hrest, List.singleton_append, untilBad_cons (by simp), untilBad_lexemesOf]

theorem word {text : String} (htext : IsName text) (h : Spells cs used) :
    Spells (text.toList ++ ' ' :: cs) (.name text :: used) :=
  (name htext).append (.blank h) (endsWord_cons.2 rfl)

theorem number (h : IsNumberText cs) : Spells cs [numberLexeme cs] :=
  fun _ hrest => lexemesOf_number h hrest

theorem int {value : Int} (h : IsWord value) : Spells (toString value).toList [.int value] := by
  have := number (isNumberText_int value)
  rwa [numberLexeme_int h] at this

theorem bracketed {opening closing : Char} (hopening : opening ∈ punctuation)
    (hclosing : closing ∈ punctuation) (h : Spells cs used) :
    Spells (opening :: (cs ++ [closing])) (.punct opening :: (used ++ [.punct closing])) := by
  have hends : EndsWord [closing] := endsWord_cons.2 (by simp [endsNumber, hclosing])
  exact .punct hopening (h.append (.punct hclosing .nil) hends)

/-- What a text is read as on its own. -/
theorem lexemesOf_eq (h : Spells cs used) : lexemesOf cs = untilBad used := by
  simpa using h [] endsWord_nil

theorem lexemesOf_eq_self (h : Spells cs used) (hbad : .bad ∉ used) : lexemesOf cs = used := by
  rw [h.lexemesOf_eq, untilBad_eq_self_of_not_mem hbad]

end Spells

/-! ## String values in one line -/

/-- Text that stands inside of a line, before any other. -/
def IsLinePiece (piece : List Char) : Prop :=
  ∀ cs, lineBody? (piece ++ cs) = (lineBody? cs).map fun (body, rest) => (piece ++ body, rest)

theorem isLinePiece_char {c : Char} (hquote : c ≠ '"') (hfeed : c ≠ '\n') (hescape : c ≠ '\\') :
    IsLinePiece [c] := by
  intro cs
  conv_lhs => unfold lineBody?
  split
  · next heq => cases heq
  · next heq => exact absurd (List.cons.inj heq).1 hquote
  · next heq => exact absurd (List.cons.inj heq).1 hfeed
  · next heq => exact absurd (List.cons.inj heq).1 hescape
  · next heq => cases heq; rfl

theorem isLinePiece_escape {c : Char} (hfeed : c ≠ '\n') : IsLinePiece ['\\', c] := by
  intro cs
  simp [lineBody?, hfeed]

theorem IsLinePiece.append {piece piece' : List Char} (h : IsLinePiece piece)
    (h' : IsLinePiece piece') : IsLinePiece (piece ++ piece') := by
  intro cs
  rw [List.append_assoc, h, h', Option.map_map]
  simp [Function.comp_def]

theorem IsLinePiece.nil : IsLinePiece [] := fun cs => by simp

theorem IsLinePiece.flatMap {write : Char → List Char} {text : List Char}
    (h : ∀ c ∈ text, IsLinePiece (write c)) : IsLinePiece (text.flatMap write) := by
  induction text with
  | nil => exact .nil
  | cons c text ih =>
    rw [List.forall_mem_cons] at h
    rw [List.flatMap_cons]
    exact h.1.append (ih h.2)

/-- Text inside of a line that is none of the characters with a meaning there. -/
theorem IsLinePiece.of_all {piece : List Char} (h : ∀ c ∈ piece, c ≠ '"' ∧ c ≠ '\n' ∧ c ≠ '\\') :
    IsLinePiece piece := by
  have hpieces : IsLinePiece (piece.flatMap fun c => [c]) := .flatMap fun c hc =>
    isLinePiece_char (h c hc).1 (h c hc).2.1 (h c hc).2.2
  simpa using hpieces

/-- A text between quotation marks whose pieces neither end the line nor open a block is a string
value, unless an escape in it is none. -/
theorem firstLexeme_line {body rest : List Char} (hbody : IsLinePiece body)
    (hquote : ∀ c ∈ body.head?, c ≠ '"') (hrest : EndsWord rest) :
    firstLexeme ('"' :: (body ++ '"' :: rest)) =
      match unescapeLine? body with
      | some text => (.text (String.ofList text), rest)
      | none => (.bad, []) := by
  have hline : lineBody? (body ++ '"' :: rest) = some (body, rest) := by
    rw [hbody]
    simp [lineBody?]
  have hblock : ∀ later, body ++ '"' :: rest ≠ '"' :: '"' :: later := by
    intro later heq
    cases body with
    | nil =>
      simp only [List.nil_append, List.cons.injEq, true_and] at heq
      subst heq
      exact ne_quote_of_endsNumber (endsWord_cons.1 hrest) rfl
    | cons c body => exact hquote c (by simp) (List.cons.inj heq).1
  rw [firstLexeme]
  · cases htext : unescapeLine? body <;> simp only [hline, htext]
  · exact hblock

theorem lexemesOf_line {body rest : List Char} (hbody : IsLinePiece body)
    (hquote : ∀ c ∈ body.head?, c ≠ '"') (hrest : EndsWord rest) :
    lexemesOf ('"' :: (body ++ '"' :: rest)) = untilBad
      ((match unescapeLine? body with
        | some text => .text (String.ofList text)
        | none => .bad) :: lexemesOf rest) := by
  have hfirst := firstLexeme_line hbody hquote hrest
  have hskip : skipText false ('"' :: (body ++ '"' :: rest)) = '"' :: (body ++ '"' :: rest) :=
    skipText_cons (by decide)
  cases htext : unescapeLine? body with
  | none =>
    rw [htext] at hfirst
    exact lexemesOf_of_firstLexeme_bad hskip hfirst
  | some text =>
    rw [htext] at hfirst
    exact lexemesOf_eq_untilBad hskip hfirst

/-- A piece of a line denotes a text, before any other. -/
def Denotes (piece text : List Char) : Prop :=
  ∀ cs, unescapeLine? (piece ++ cs) = (unescapeLine? cs).map (text ++ ·)

theorem Denotes.nil : Denotes [] [] := fun cs => by simp

theorem Denotes.append {piece piece' text text' : List Char} (h : Denotes piece text)
    (h' : Denotes piece' text') : Denotes (piece ++ piece') (text ++ text') := by
  intro cs
  rw [List.append_assoc, h, h', Option.map_map]
  simp [Function.comp_def]

theorem Denotes.flatMap {write read : Char → List Char} {text : List Char}
    (h : ∀ c ∈ text, Denotes (write c) (read c)) :
    Denotes (text.flatMap write) (text.flatMap read) := by
  induction text with
  | nil => exact .nil
  | cons c text ih =>
    rw [List.forall_mem_cons] at h
    rw [List.flatMap_cons, List.flatMap_cons]
    exact h.1.append (ih h.2)

theorem Denotes.map {write : Char → List Char} {read : Char → Char} {text : List Char}
    (h : ∀ c ∈ text, Denotes (write c) [read c]) :
    Denotes (text.flatMap write) (text.map read) := by
  rw [List.map_eq_flatMap]
  exact .flatMap h

theorem denotes_char {c : Char} (h : c ≠ '\\') : Denotes [c] [c] := by
  intro cs
  conv_lhs => unfold unescapeLine?
  split
  · next heq => cases heq
  · next heq => exact absurd (List.cons.inj heq).1 h
  · next heq => exact absurd (List.cons.inj heq).1 h
  · next heq =>
    cases heq
    rw [if_neg h]
    rfl

theorem denotes_escape {e c : Char} (hletter : e ≠ 'u') (h : lineEscape? e = some c) :
    Denotes ['\\', e] [c] := by
  intro cs
  simp [unescapeLine?, hletter, h]

theorem denotes_quad {a b c d : Char} {code : Nat} (h : codeOfQuad? a b c d = some code)
    (hlow : code < 0xD800) : Denotes ['\\', 'u', a, b, c, d] [Char.ofNat code] := by
  intro cs
  have hnot : ¬ (55296 ≤ code ∧ code ≤ 57343) := by omega
  simp [unescapeLine?, h, hnot]

/-! ## Quoted texts -/

/-- The character that an escape of a quoted text is read as. -/
def reescaped (c : Char) : Char :=
  if c = '\x08' then '\x10' else c

theorem map_reescaped {text : List Char} (h : '\x08' ∉ text) : text.map reescaped = text := by
  refine (List.map_congr_left fun c hc => if_neg ?_).trans (List.map_id' text)
  rintro rfl
  exact h hc

theorem isLinePiece_escape_quoted (c : Char) : IsLinePiece (Quoted.escape c) := by
  unfold Quoted.escape
  split <;> try exact isLinePiece_escape (by decide)
  next hquote hslash _ _ hfeed _ _ =>
  split
  · next hcontrol =>
    refine (isLinePiece_escape (by decide) : IsLinePiece ['\\', 'u']).append (.of_all ?_)
    have hall : ∀ n < 0x20, ['0', '0', Quoted.hexDigit (n / 16), Quoted.hexDigit (n % 16)].all
        fun d => d ≠ '"' ∧ d ≠ '\n' ∧ d ≠ '\\' := by decide
    exact List.all_iff_forall_prop.1 (hall _ hcontrol)
  · exact isLinePiece_char hquote hfeed hslash

theorem denotes_escape_quoted (c : Char) : Denotes (Quoted.escape c) [reescaped c] := by
  unfold Quoted.escape
  split <;> try exact denotes_escape (by decide) rfl
  next hquote hslash hback htab hfeed hpage hreturn =>
  have hkeep : reescaped c = c := if_neg hback
  rw [hkeep]
  split
  · next hcontrol =>
    have hall : ∀ n < 0x20,
        codeOfQuad? '0' '0' (Quoted.hexDigit (n / 16)) (Quoted.hexDigit (n % 16)) = some n := by
      decide
    have := denotes_quad (hall _ hcontrol) (by omega)
    rwa [Char.ofNat_toNat] at this
  · exact denotes_char hslash

theorem head_flatMap_ne_quote (write : Char → List Char)
    (h : ∀ c, ∃ d ds, write c = d :: ds ∧ d ≠ '"') (text : List Char) :
    ∀ c ∈ (text.flatMap write).head?, c ≠ '"' := by
  cases text with
  | nil => simp
  | cons c text =>
    obtain ⟨d, ds, hwrite, hd⟩ := h c
    simpa [List.flatMap_cons, hwrite] using hd

/-- A quoted text is read as itself, but for one control character. -/
theorem spells_quoted (text : List Char) :
    Spells (Quoted.write text) [.text (String.ofList (text.map reescaped))] := by
  intro rest hrest
  have hpiece : IsLinePiece (text.flatMap Quoted.escape) :=
    .flatMap fun c _ => isLinePiece_escape_quoted c
  have hdenotes : Denotes (text.flatMap Quoted.escape) (text.map reescaped) :=
    .map fun c _ => denotes_escape_quoted c
  have htext : unescapeLine? (text.flatMap Quoted.escape) = some (text.map reescaped) := by
    simpa [unescapeLine?] using hdenotes []
  have hhead := head_flatMap_ne_quote Quoted.escape (fun c => by
    unfold Quoted.escape
    split <;> try exact ⟨_, _, rfl, by decide⟩
    next hquote _ _ _ _ _ _ =>
    split
    · exact ⟨_, _, rfl, by decide⟩
    · exact ⟨_, _, rfl, hquote⟩) text
  have hline := lexemesOf_line hpiece hhead hrest
  rw [htext] at hline
  simpa [Quoted.write] using hline

/-! ## Printed string values -/

theorem decimalQuad_digits (n : Nat) : ∀ c ∈ decimalQuad n, JsonNumber.isDigit c = true := by
  intro c hc
  rw [decimalQuad, List.mem_append] at hc
  rcases hc with hc | hc
  · obtain ⟨-, rfl⟩ := List.mem_replicate.1 hc
    decide
  · exact isDigit_of_mem_toDigits hc

theorem isLinePiece_escapeLineChar (c : Char) : IsLinePiece (escapeLineChar c) := by
  unfold escapeLineChar
  split <;> try exact isLinePiece_escape (by decide)
  next _ hfeed _ hquote hslash =>
  split
  · exact isLinePiece_char hquote hfeed hslash
  · refine (isLinePiece_escape (by decide) : IsLinePiece ['\\', 'u']).append (.of_all ?_)
    intro d hd
    have hdigit := decimalQuad_digits _ d hd
    exact ⟨ne_of_isDigit hdigit (by decide), ne_of_isDigit hdigit (by decide),
      ne_of_isDigit hdigit (by decide)⟩

/-- A character that is printed as itself or by an escape with a letter. -/
def isPlain (c : Char) : Bool :=
  c == '\t' || c == '\r' || (0x20 ≤ c.toNat && c.toNat ≤ 0xFFFF)

theorem denotes_escapeLineChar {c : Char} (h : isPlain c = true) :
    Denotes (escapeLineChar c) [c] := by
  unfold escapeLineChar
  split <;> try exact denotes_escape (by decide) rfl
  next hreturn hfeed htab hquote hslash =>
  simp only [isPlain, beq_eq_false_iff_ne.2 hreturn, beq_eq_false_iff_ne.2 htab, Bool.false_or,
    Bool.and_eq_true, decide_eq_true_eq] at h
  rw [if_pos h]
  exact denotes_char hslash

/-- The inside of a block up to a character that is no backslash, before any other text. -/
def IsBlockPiece (piece : List Char) : Prop :=
  ∀ cs, blockBody? false (piece ++ cs) =
    (blockBody? false cs).map fun (body, rest) => (piece ++ body, rest)

theorem blockBody?_cons {c : Char} {cs : List Char} (flag : Bool)
    (h : ∀ rest, c :: cs ≠ '"' :: '"' :: '"' :: rest) :
    blockBody? flag (c :: cs) =
      (blockBody? (c == '\\') cs).map fun (body, rest) => (c :: body, rest) := by
  rw [blockBody?]
  intro rest hc hcs
  exact h rest (by rw [hc, hcs])

theorem IsBlockPiece.append {piece piece' : List Char} (h : IsBlockPiece piece)
    (h' : IsBlockPiece piece') : IsBlockPiece (piece ++ piece') := by
  intro cs
  rw [List.append_assoc, h, h', Option.map_map]
  simp [Function.comp_def]

theorem IsBlockPiece.flatMap {α : Type} {write : α → List Char} {items : List α}
    (h : ∀ item ∈ items, IsBlockPiece (write item)) : IsBlockPiece (items.flatMap write) := by
  induction items with
  | nil => intro cs; simp
  | cons item items ih =>
    rw [List.forall_mem_cons] at h
    rw [List.flatMap_cons]
    exact h.1.append (ih h.2)

theorem isBlockPiece_char {c : Char} (hquote : c ≠ '"') (hslash : c ≠ '\\') : IsBlockPiece [c] := by
  intro cs
  have hflag : (c == '\\') = false := by simpa using hslash
  rw [List.singleton_append, blockBody?_cons _ fun _ heq => hquote (List.cons.inj heq).1, hflag]
  rfl

theorem isBlockPiece_blanks (n : Nat) : IsBlockPiece (List.replicate n ' ') := by
  induction n with
  | zero => intro cs; simp
  | succ n ih => exact (isBlockPiece_char (c := ' ') (by decide) (by decide)).append ih

/-- Escaping leaves a triple quotation mark only behind a backslash. -/
theorem head_escapeTriples {line : List Char} :
    ∀ {cs rest : List Char}, escapeTriples line ++ '\n' :: cs = '"' :: rest →
      ∃ line', line = '"' :: line' ∧ rest = escapeTriples line' ++ '\n' :: cs := by
  intro cs rest h
  rcases List.append_eq_cons_iff.1 h with ⟨-, hfeed⟩ | ⟨later, hline, rfl⟩
  · simp at hfeed
  · obtain ⟨line', rfl, rfl⟩ := exists_of_escapeTriples_eq_cons hline
    exact ⟨line', rfl, rfl⟩

theorem isBlockPiece_escapeTriples (line : List Char) (flag : Bool) (cs : List Char) :
    blockBody? flag (escapeTriples line ++ '\n' :: cs) =
      (blockBody? false cs).map fun (body, rest) => (escapeTriples line ++ '\n' :: body, rest) := by
  induction line using escapeTriples_induction generalizing flag with
  | triple line ih =>
    rw [escapeTriples_triple, List.cons_append, blockBody?_cons _ (by simp)]
    simp [blockBody?, ih, Function.comp_def]
  | other c line hline ih =>
    rw [escapeTriples_cons hline, List.cons_append, blockBody?_cons, ih, Option.map_map]
    · rfl
    · intro rest heq
      obtain ⟨rfl, hrest⟩ := List.cons.inj heq
      obtain ⟨line₁, rfl, hlater⟩ := head_escapeTriples hrest
      obtain ⟨line₂, rfl, -⟩ := head_escapeTriples hlater.symm
      exact hline line₂ rfl rfl
  | nil =>
    rw [escapeTriples_nil, List.nil_append, blockBody?_cons _ (by simp)]
    rfl

theorem isBlockPiece_blockLine (indent : Nat) (line : List Char) :
    IsBlockPiece (blockLine indent line) := by
  unfold blockLine
  split
  · exact isBlockPiece_char (by decide) (by decide)
  · rw [List.append_assoc]
    refine (isBlockPiece_blanks indent).append fun cs => ?_
    rw [List.append_assoc, List.singleton_append, isBlockPiece_escapeTriples]
    simp

theorem isBlockPiece_blockInside (indent : Nat) (ls : List (List Char)) :
    IsBlockPiece (blockInside indent ls) := by
  refine (isBlockPiece_char (c := '\n') (by decide) (by decide)).append (.append ?_ ?_)
  · exact .flatMap fun line _ => isBlockPiece_blockLine _ line
  · exact isBlockPiece_blanks indent

/-- A block is read up to its end. -/
theorem firstLexeme_block {body : List Char} (hbody : IsBlockPiece body) (rest : List Char) :
    firstLexeme ('"' :: '"' :: '"' :: (body ++ '"' :: '"' :: '"' :: rest)) =
      (.text (String.ofList (unescapeBlock body)), rest) := by
  have hblock : blockBody? false (body ++ '"' :: '"' :: '"' :: rest) = some (body, rest) := by
    rw [hbody]
    simp [blockBody?]
  rw [firstLexeme, hblock]

theorem head_escapeLine_ne_quote (text : List Char) :
    ∀ c ∈ (text.flatMap escapeLineChar).head?, c ≠ '"' :=
  head_flatMap_ne_quote escapeLineChar (fun c => by
    unfold escapeLineChar
    split <;> try exact ⟨_, _, rfl, by decide⟩
    next hquote _ =>
    split
    · exact ⟨_, _, rfl, hquote⟩
    · exact ⟨_, _, rfl, by decide⟩) text

theorem isLinePiece_escapeLine (text : List Char) : IsLinePiece (text.flatMap escapeLineChar) :=
  .flatMap fun c _ => isLinePiece_escapeLineChar c

/-- Whether a string value is printed as a block. -/
def inBlock (text : List Char) : Bool := text.contains '\n' && fitsBlock text

theorem writeString_of_inBlock {text : List Char} (h : inBlock text = true) (indent : Nat) :
    writeString indent text =
      '"' :: '"' :: '"' :: (blockInside indent (lines text) ++ ['"', '"', '"']) := by
  rw [writeString, ← inBlock, if_pos h, blockInside]
  simp

theorem writeString_of_not_inBlock {text : List Char} (h : inBlock text = false) (indent : Nat) :
    writeString indent text = '"' :: (text.flatMap escapeLineChar ++ ['"']) := by
  rw [writeString, ← inBlock, if_neg (by simp [h])]

/-! ## Printed doubles -/

/-- A decimal without an exponent consists of digits and a point, and starts with a digit. -/
theorem positional_cases (d : Decimal) :
    (∀ c ∈ d.positional, JsonNumber.isDigit c = true ∨ c = '.') ∧
      ∃ c cs, d.positional = c :: cs ∧ JsonNumber.isDigit c = true := by
  obtain ⟨c, cs, hdigits⟩ := List.exists_cons_of_ne_nil
    (Nat.toDigits_ne_nil (n := d.digits) (b := 10))
  have hall : ∀ c ∈ d.digitChars, JsonNumber.isDigit c = true := fun c => isDigit_of_mem_toDigits
  have hc : JsonNumber.isDigit c = true := hall c (by simp [Decimal.digitChars, hdigits])
  unfold Decimal.positional
  simp only
  split
  · refine ⟨fun e he => .inl ?_, c, _, by rw [Decimal.digitChars, hdigits]; rfl, hc⟩
    rcases List.mem_append.1 he with he | he
    · exact hall e he
    · obtain ⟨-, rfl⟩ := List.mem_replicate.1 he
      decide
  · split
    · next hpoint =>
      refine ⟨fun e he => ?_, ?_⟩
      · rcases List.mem_append.1 he with he | he
        · exact .inl (hall e (List.mem_of_mem_take he))
        · rcases List.mem_cons.1 he with rfl | he
          · exact .inr rfl
          · exact .inl (hall e (List.mem_of_mem_drop he))
      · obtain ⟨n, hn⟩ : ∃ n, d.pointPosition.toNat = n + 1 := ⟨d.pointPosition.toNat - 1, by omega⟩
        rw [hn, Decimal.digitChars, hdigits]
        exact ⟨c, _, rfl, hc⟩
    · refine ⟨fun e he => ?_, '0', _, rfl, by decide⟩
      simp only [List.mem_cons, List.mem_append] at he
      rcases he with rfl | rfl | he | he
      · exact .inl (by decide)
      · exact .inr rfl
      · obtain ⟨-, rfl⟩ := List.mem_replicate.1 he
        exact .inl (by decide)
      · exact .inl (hall e he)

theorem isNumberText_of_digits {cs : List Char} {c : Char} {rest : List Char} (hcs : cs = c :: rest)
    (hc : JsonNumber.isDigit c = true)
    (hall : ∀ c ∈ cs, JsonNumber.isDigit c = true ∨ c = '.') (negative : Bool) :
    IsNumberText (if negative then '-' :: cs else cs) := by
  have hinside : cs.all (fun c => !endsNumber c) = true := by
    rw [List.all_eq_true]
    intro d hd
    rcases hall d hd with h | rfl
    · simp [not_endsNumber_of_isDigit h]
    · decide
  cases negative with
  | true => exact ⟨⟨'-', cs, rfl, .inl rfl⟩, by rw [if_pos rfl, List.all_cons, hinside]; rfl⟩
  | false => exact ⟨⟨c, rest, hcs, .inr hc⟩, hinside⟩

/-- A printed double is read as a number, as nothing, or as the word for an infinity. -/
theorem exists_spells_floatText (value : Binary64) :
    ∃ l, Spells (Value.floatText value) [l] ∧
      (l = .bad ∨ (∃ n, l = .int n) ∨ (∃ x, l = .float x) ∨ ∃ word, l = .name word) := by
  have hnumber : ∀ cs, IsNumberText cs → ∃ l, Spells cs [l] ∧
      (l = .bad ∨ (∃ n, l = .int n) ∨ (∃ x, l = .float x) ∨ ∃ word, l = .name word) := by
    intro cs hcs
    refine ⟨_, .number hcs, ?_⟩
    rcases numberLexeme_cases cs with h | ⟨n, -, h⟩ | h
    · exact .inl h
    · exact .inr (.inl ⟨n, h⟩)
    · exact .inr (.inr (.inl h))
  cases value with
  | infinite negative =>
    cases negative with
    | true => exact hnumber _ ⟨⟨'-', _, rfl, .inl rfl⟩, by decide⟩
    | false =>
      exact ⟨_, .name (by decide : IsName "inf"), .inr (.inr (.inr ⟨_, rfl⟩))⟩
  | finite negative mantissa exponent =>
    refine hnumber _ ?_
    by_cases hzero : mantissa = 0
    · have := isNumberText_of_digits (rfl : ['0'] = _) (by decide)
        (List.forall_mem_singleton.2 (.inl (by decide))) negative
      simpa [Value.floatText, hzero] using this
    · obtain ⟨hall, c, cs, hcs, hc⟩ := positional_cases (Binary64.shortest true mantissa exponent)
      have := isNumberText_of_digits hcs hc hall negative
      simpa [Value.floatText, hzero] using this

end OperationAtlas.Graphql
