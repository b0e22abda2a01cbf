import OperationAtlas.Proofs.Graphql.Spelling

/-!
# Printed string values

A printed string value is read as a text that may be another one (`reread`): a block loses line
feeds, carriage returns and blanks, and in a line the decimal number of a character is read as a
hexadecimal one. `firstLexeme_writeString` says what is read.

What is read is printed alike exactly if nothing is lost that the printed text shows (`IsStable`,
`writeString_reread_iff`). Then it is the text in its `settled` form: for a line the text itself,
for a block its lines with the blank ones empty. `settled_eq_self_iff` says when that is the text.
-/

namespace OperationAtlas.Graphql

open Text

/-! ## Characters in a line -/

/-- Whether a character of a line is read back as it was printed. The numbers below ten are written
alike as decimals and as hexadecimals. -/
def readsBack (c : Char) : Bool := isPlain c || c == '\n' || c.toNat < 10

/-- What is read of a character that is printed in a line: of the decimal digits of its number, the
first four are read as hexadecimal ones, and the others stand for themselves. -/
def rereadChar (c : Char) : List Char :=
  if readsBack c then [c]
  else match decimalQuad c.toNat with
    | a :: b :: c :: d :: more => Char.ofNat ((codeOfQuad? a b c d).getD 0) :: more
    | _ => []

theorem hexValue?_of_isDigit {c : Char} (h : JsonNumber.isDigit c = true) :
    Quoted.hexValue? c = some (c.toNat - 48) := by
  simp only [JsonNumber.isDigit, Bool.and_eq_true, decide_eq_true_eq] at h
  exact if_pos h

/-- Four decimal digits are read as a hexadecimal number. -/
theorem exists_codeOfQuad? {a b c d : Char} (ha : JsonNumber.isDigit a = true)
    (hb : JsonNumber.isDigit b = true) (hc : JsonNumber.isDigit c = true)
    (hd : JsonNumber.isDigit d = true) :
    ∃ code, codeOfQuad? a b c d = some code ∧ code ≤ 0x9999 ∧ (a ≠ '0' → 0x1000 ≤ code) := by
  have hplus : a ≠ '+' := ne_of_isDigit ha (by decide)
  have hzero : a ≠ '0' → a.toNat ≠ 48 := fun h hcode =>
    h (by rw [← Char.ofNat_toNat a, hcode])
  have hquad : codeOfQuad? a b c d = some ((((a.toNat - 48) * 16 + (b.toNat - 48)) * 16 +
      (c.toNat - 48)) * 16 + (d.toNat - 48)) := by
    rw [codeOfQuad?, if_neg hplus, Quoted.hexQuad?, hexValue?_of_isDigit ha,
      hexValue?_of_isDigit hb, hexValue?_of_isDigit hc, hexValue?_of_isDigit hd]
    rfl
  simp only [JsonNumber.isDigit, Bool.and_eq_true, decide_eq_true_eq] at ha hb hc hd
  refine ⟨_, hquad, by omega, fun hne => ?_⟩
  have := hzero hne
  omega

theorem exists_decimalQuad (n : Nat) :
    ∃ a b c d more, decimalQuad n = a :: b :: c :: d :: more := by
  have hlength : 4 ≤ (decimalQuad n).length := by
    rw [decimalQuad, List.length_append, List.length_replicate]
    omega
  rcases h : decimalQuad n with _ | ⟨a, _ | ⟨b, _ | ⟨c, _ | ⟨d, more⟩⟩⟩⟩
  case cons.cons.cons.cons => exact ⟨a, b, c, d, more, rfl⟩
  all_goals
    rw [h] at hlength
    simp at hlength

/-- A number of more than four digits starts with none that is superfluous. -/
theorem head_decimalQuad_ne_zero {n : Nat} (h : 0xFFFF < n) : (decimalQuad n).head? ≠ some '0' := by
  intro hhead
  have hlength : ¬ (Nat.toDigits 10 n).length ≤ 4 := by
    rw [Nat.length_toDigits_le_iff (by decide) (by decide)]
    omega
  have hquad : decimalQuad n = Nat.toDigits 10 n := by
    have hnone : 4 - (Nat.toDigits 10 n).length = 0 := by omega
    rw [decimalQuad, hnone]
    rfl
  rw [hquad] at hhead
  have := head?_toDigits hhead
  omega

/-- The other characters of a line are printed by their numbers. -/
theorem escapeLineChar_of_not_readsBack {c : Char} (h : readsBack c = false) :
    (10 < c.toNat ∧ c.toNat < 0x20 ∨ 0xFFFF < c.toNat) ∧
      escapeLineChar c = '\\' :: 'u' :: decimalQuad c.toNat := by
  simp only [readsBack, isPlain, Bool.or_eq_false_iff, beq_eq_false_iff_ne,
    Bool.and_eq_false_iff, decide_eq_false_iff_not, not_le, not_lt] at h
  obtain ⟨⟨⟨⟨htab, hreturn⟩, hrange⟩, hfeed⟩, hcode⟩ := h
  have hten : c.toNat ≠ 10 := fun h10 => hfeed (by rw [← Char.ofNat_toNat c, h10])
  refine ⟨by omega, ?_⟩
  unfold escapeLineChar
  split
  · exact absurd rfl hreturn
  · exact absurd rfl hfeed
  · exact absurd rfl htab
  · revert hrange; decide
  · revert hrange; decide
  · rw [if_neg (by omega)]

/-- A character of a line denotes what is read of it. -/
theorem denotes_rereadChar (c : Char) : Denotes (escapeLineChar c) (rereadChar c) := by
  cases h : readsBack c with
  | true =>
    rw [rereadChar, if_pos h]
    by_cases hplain : isPlain c = true
    · exact denotes_escapeLineChar hplain
    by_cases hfeed : c = '\n'
    · subst hfeed
      exact denotes_escape (by decide) rfl
    · have hcode : c.toNat < 10 := by simpa [readsBack, hplain, hfeed] using h
      have hall : ∀ n < 10, isPlain (Char.ofNat n) = false →
          escapeLineChar (Char.ofNat n) = ['\\', 'u', '0', '0', '0', Nat.digitChar n] ∧
            codeOfQuad? '0' '0' '0' (Nat.digitChar n) = some n := by decide
      obtain ⟨hescape, hquad⟩ := hall _ hcode (by rw [Char.ofNat_toNat]; simpa using hplain)
      have hdenotes := denotes_quad hquad (by omega)
      rw [Char.ofNat_toNat] at hescape hdenotes
      rwa [hescape]
  | false =>
    obtain ⟨-, hescape⟩ := escapeLineChar_of_not_readsBack h
    obtain ⟨x, y, z, w, more, hquad⟩ := exists_decimalQuad c.toNat
    have hdigits := decimalQuad_digits c.toNat
    rw [hquad] at hdigits
    simp only [List.forall_mem_cons] at hdigits
    obtain ⟨hx, hy, hz, hw, hmore⟩ := hdigits
    obtain ⟨code, hcode, hle, -⟩ := exists_codeOfQuad? hx hy hz hw
    have hothers : Denotes (more.flatMap fun d => [d]) (more.flatMap fun d => [d]) :=
      .flatMap fun d hd => denotes_char (ne_of_isDigit (hmore d hd) (by decide))
    rw [hescape, rereadChar, h, if_neg Bool.false_ne_true, hquad]
    simp only [hcode, Option.getD_some]
    simpa using (denotes_quad hcode (by omega)).append hothers

/-- What is read of a character beyond the first plane starts with a character that is not
escaped. -/
theorem exists_rereadChar {c : Char} (hback : readsBack c = false) (h : 0xFFFF < c.toNat) :
    ∃ d more, rereadChar c = d :: more ∧ escapeLineChar d = [d] ∧ d ≠ '\\' := by
  obtain ⟨x, y, z, w, more, hquad⟩ := exists_decimalQuad c.toNat
  have hdigits := decimalQuad_digits c.toNat
  have hhead := head_decimalQuad_ne_zero h
  rw [hquad] at hdigits hhead
  simp only [List.forall_mem_cons] at hdigits
  obtain ⟨code, hcode, hle, hge⟩ := exists_codeOfQuad? hdigits.1 hdigits.2.1 hdigits.2.2.1
    hdigits.2.2.2.1
  have hge := hge fun hzero => hhead (congrArg some hzero)
  have htoNat : (Char.ofNat code).toNat = code := by
    have hvalid : code.isValidChar := .inl (by omega)
    rw [Char.ofNat, dif_pos hvalid]
    rfl
  have hne : ∀ d : Char, d.toNat < 0x1000 → Char.ofNat code ≠ d := by
    rintro d hd rfl
    omega
  refine ⟨Char.ofNat code, more, ?_, ?_, hne '\\' (by decide)⟩
  · rw [rereadChar, hback, if_neg Bool.false_ne_true, hquad]
    simp only [hcode, Option.getD_some]
  · unfold escapeLineChar
    split
    · next heq => exact absurd heq (hne _ (by decide))
    · next heq => exact absurd heq (hne _ (by decide))
    · next heq => exact absurd heq (hne _ (by decide))
    · next heq => exact absurd heq (hne _ (by decide))
    · next heq => exact absurd heq (hne _ (by decide))
    · rw [if_pos ⟨by omega, by omega⟩]

/-- A character that is not read back is not printed like what is read of it. -/
theorem escapeLine_rereadChar_ne {c : Char} (h : readsBack c = false) (x y : List Char) :
    (rereadChar c).flatMap escapeLineChar ++ x ≠ escapeLineChar c ++ y := by
  obtain ⟨hcontrol | hbeyond, hescape⟩ := escapeLineChar_of_not_readsBack h
  · have hall : ∀ n < 0x20, readsBack (Char.ofNat n) = false →
        ((rereadChar (Char.ofNat n)).flatMap escapeLineChar).length ≤
            (escapeLineChar (Char.ofNat n)).length ∧
          ¬ (rereadChar (Char.ofNat n)).flatMap escapeLineChar <+:
            escapeLineChar (Char.ofNat n) := by
      decide
    obtain ⟨hlength, hfront⟩ := hall _ hcontrol.2 (by rwa [Char.ofNat_toNat])
    rw [Char.ofNat_toNat] at hlength hfront
    intro heq
    refine hfront (List.prefix_of_prefix_length_le (List.prefix_append _ x) ?_ hlength)
    rw [heq]
    exact List.prefix_append _ y
  · obtain ⟨d, more, hread, hplain, hslash⟩ := exists_rereadChar h hbeyond
    rw [hread, List.flatMap_cons, hplain, hescape]
    exact fun heq => hslash (List.cons.inj heq).1

/-! ## Texts in a line -/

theorem flatMap_rereadChar {text : List Char} (h : ∀ c ∈ text, readsBack c = true) :
    text.flatMap rereadChar = text := by
  have hchars : text.flatMap rereadChar = text.flatMap fun c => [c] :=
    List.flatMap_congr fun c hc => if_pos (h c hc)
  rw [hchars, List.flatMap_singleton']

/-- A text is printed in a line like what is read of it exactly if all its characters are read
back. -/
theorem escapeLine_reread_iff {text : List Char} :
    (text.flatMap rereadChar).flatMap escapeLineChar = text.flatMap escapeLineChar ↔
      ∀ c ∈ text, readsBack c = true := by
  refine ⟨fun h => ?_, fun h => by rw [flatMap_rereadChar h]⟩
  induction text with
  | nil => exact nofun
  | cons c text ih =>
    rw [List.flatMap_cons, List.flatMap_append, List.flatMap_cons] at h
    cases hc : readsBack c with
    | true =>
      rw [rereadChar, if_pos hc, List.flatMap_singleton, List.append_cancel_left_eq] at h
      exact List.forall_mem_cons.2 ⟨hc, ih h⟩
    | false => exact absurd h (escapeLine_rereadChar_ne hc _ _)

/-! ## Printed texts -/

/-- What is read of a printed text. -/
def reread (text : List Char) : List Char :=
  if inBlock text then joinLines (rereadLines (lines text)) else text.flatMap rereadChar

theorem reread_of_isPlain {text : List Char} (h : ∀ c ∈ text, isPlain c = true) :
    reread text = text := by
  have hfeed : '\n' ∉ text := fun hmem => absurd (h _ hmem) (by decide)
  have hline : inBlock text = false := by simp [inBlock, hfeed]
  rw [reread, hline, if_neg Bool.false_ne_true, flatMap_rereadChar fun c hc => by
    simp [readsBack, h c hc]]

/-- A printed string value is read as a string value, and up to its end. -/
theorem firstLexeme_writeString (indent : Nat) (text : List Char) {rest : List Char}
    (hrest : EndsWord rest) :
    firstLexeme (writeString indent text ++ rest) =
      (.text (String.ofList (reread text)), rest) := by
  cases h : inBlock text with
  | true =>
    have hblock := firstLexeme_block (isBlockPiece_blockInside indent (lines text)) rest
    rw [unescapeBlock_blockInside (fun line => feed_not_mem_of_mem_lines)] at hblock
    rw [writeString_of_inBlock h, reread, if_pos h, ← hblock]
    simp
  | false =>
    have hdenotes : Denotes (text.flatMap escapeLineChar) (text.flatMap rereadChar) :=
      .flatMap fun c _ => denotes_rereadChar c
    have hunescape : unescapeLine? (text.flatMap escapeLineChar) =
        some (text.flatMap rereadChar) := by
      simpa [unescapeLine?] using hdenotes []
    have hline := firstLexeme_line (isLinePiece_escapeLine text) (head_escapeLine_ne_quote text)
      hrest
    rw [hunescape] at hline
    rw [writeString_of_not_inBlock h, reread, if_neg (by simp [h])]
    simpa using hline

theorem exists_writeString (indent : Nat) (text : List Char) :
    ∃ cs, writeString indent text = '"' :: cs := by
  unfold writeString
  split <;> exact ⟨_, rfl⟩

theorem spells_writeString (indent : Nat) (text : List Char) :
    Spells (writeString indent text) [.text (String.ofList (reread text))] := by
  intro rest hrest
  obtain ⟨cs, hcs⟩ := exists_writeString indent text
  have hfirst := firstLexeme_writeString indent text hrest
  rw [hcs, List.cons_append] at hfirst ⊢
  exact lexemesOf_eq_untilBad (skipText_cons (by decide)) hfirst

/-! ## Texts that are printed alike again -/

/-- Nothing is lost of a text that its printed form shows. -/
def IsStable (text : List Char) : Prop :=
  if inBlock text then HasLayout (lines text) else ∀ c ∈ text, readsBack c = true

/-- What is left of a text that is printed alike again. -/
def settled (text : List Char) : List Char :=
  if inBlock text then joinLines ((lines text).map shown) else text

theorem IsStable.reread_eq {text : List Char} (h : IsStable text) : reread text = settled text := by
  unfold IsStable at h
  unfold reread settled
  split at h
  · next hblock => rw [if_pos hblock, if_pos hblock, h.rereadLines]
  · next hblock => rw [if_neg hblock, if_neg hblock, flatMap_rereadChar h]

/-- What is read of a block fits into a block. -/
theorem inBlock_reread_iff {text : List Char} (h : inBlock text = true) :
    inBlock (reread text) = true ↔ '\n' ∈ reread text := by
  have hfits : fitsBlock (reread text) = true := by
    rw [inBlock, Bool.and_eq_true] at h
    have hall := List.all_eq_true.1 h.2
    refine List.all_eq_true.2 fun c hc => ?_
    rw [reread, inBlock, h.1, h.2] at hc
    rcases mem_of_mem_joinLines hc with rfl | ⟨line, hline, hc⟩
    · rfl
    · obtain ⟨line', hline', hc⟩ := mem_of_mem_rereadLines hline hc
      exact hall c (mem_of_mem_lines hline' hc)
  rw [inBlock, hfits, Bool.and_true, List.contains_iff_mem]

/-- A text in a line is not printed like one in a block. -/
theorem writeString_ne_of_inBlock {text text' : List Char} (h : inBlock text = true)
    (h' : inBlock text' = false) (indent : Nat) :
    writeString indent text ≠ writeString indent text' := by
  rw [writeString_of_inBlock h, writeString_of_not_inBlock h']
  intro heq
  have hquote := head_escapeLine_ne_quote text'
  cases hline : text'.flatMap escapeLineChar with
  | nil => simp [hline] at heq
  | cons c cs =>
    rw [hline] at heq hquote
    have hhead : '"' = c := (List.cons.inj (List.cons.inj heq).2).1
    exact hquote c rfl hhead.symm

/-- A text is printed like what is read of it exactly if it is stable. -/
theorem writeString_reread_iff {indent : Nat} {text : List Char} :
    writeString indent (reread text) = writeString indent text ↔ IsStable text := by
  cases h : inBlock text with
  | true =>
    have hfeed : ∀ {text : List Char}, ∀ line ∈ lines text, '\n' ∉ line := fun _ =>
      feed_not_mem_of_mem_lines
    have hread : joinLines (rereadLines (lines text)) = reread text := (if_pos h).symm
    rw [IsStable, if_pos h, hasLayout_iff hfeed, hread, ← inBlock_reread_iff h]
    constructor
    · intro heq
      have hblock : inBlock (reread text) = true := by
        by_contra hline
        exact writeString_ne_of_inBlock h (by simpa using hline) indent heq.symm
      rw [writeString_of_inBlock hblock, writeString_of_inBlock h] at heq
      have hinside :
          blockInside indent (lines (reread text)) = blockInside indent (lines text) := by
        simpa using heq
      exact ⟨hblock, map_indented_eq_iff.1 ((blockInside_inj hfeed hfeed).1 hinside)⟩
    · rintro ⟨hblock, hshown⟩
      have hinside : blockInside indent (lines (reread text)) = blockInside indent (lines text) :=
        (blockInside_inj hfeed hfeed).2 (map_indented_eq_iff.2 hshown)
      rw [writeString_of_inBlock hblock, writeString_of_inBlock h, hinside]
  | false =>
    have hread : reread text = text.flatMap rereadChar := if_neg (by simp [h])
    rw [IsStable, if_neg (by simp [h])]
    constructor
    · intro heq
      cases hblock : inBlock (reread text) with
      | true => exact absurd heq (writeString_ne_of_inBlock hblock h indent)
      | false =>
        rw [writeString_of_not_inBlock hblock, writeString_of_not_inBlock h, hread] at heq
        exact escapeLine_reread_iff.1 (by simpa using heq)
    · intro hback
      rw [hread, flatMap_rereadChar hback]

/-- The pieces of a text are its lines as a block shows them exactly if they are its lines and no
blank one of them has blanks. -/
theorem map_shown_lines_eq_iff {text : List Char} :
    (lines text).map shown = splitAt '\n' text ↔
      lines text = splitAt '\n' text ∧ ∀ line ∈ lines text, shown line = line := by
  constructor
  · obtain ⟨pieces, last, hpieces, hlast, rfl⟩ := exists_ended '\n' text
    rw [lines_ended hpieces hlast, splitAt_ended hpieces hlast]
    intro h
    have hpiece : ∀ {piece : List Char}, shown (withoutReturn piece) = piece →
        withoutReturn piece = piece ∧ shown piece = piece := by
      intro piece heq
      have hreturn : withoutReturn piece = piece := by
        unfold shown at heq
        split at heq
        · rw [← heq]
          rfl
        · exact heq
      rw [hreturn] at heq
      exact ⟨hreturn, heq⟩
    by_cases hnil : last = []
    · simpa [hnil] using congrArg List.length h
    rw [if_neg hnil] at h ⊢
    rw [List.map_append, List.map_map] at h
    obtain ⟨hfront, hend⟩ := List.append_inj' h rfl
    have hfront : ∀ piece ∈ pieces, shown (withoutReturn piece) = piece :=
      List.map_inj_left.1 (hfront.trans (List.map_id pieces).symm)
    have hbare : pieces.map withoutReturn = pieces :=
      (List.map_congr_left fun piece hmem => (hpiece (hfront piece hmem)).1).trans
        (List.map_id pieces)
    rw [hbare, List.forall_mem_append, List.forall_mem_singleton]
    exact ⟨rfl, fun piece hmem => (hpiece (hfront piece hmem)).2, List.singleton_inj.1 hend⟩
  · rintro ⟨hlines, hshown⟩
    rw [List.map_congr_left hshown, List.map_id', hlines]

/-- A text in a block is settled exactly if it neither ends with a line feed nor has a carriage
return before one, and its blank lines are empty. -/
theorem settled_eq_self_iff {text : List Char} (h : inBlock text = true) :
    settled text = text ↔
      lines text = splitAt '\n' text ∧ ∀ line ∈ lines text, shown line = line := by
  have hfeed : '\n' ∈ text := by
    rw [inBlock, Bool.and_eq_true] at h
    exact List.contains_iff_mem.1 h.1
  have hlines : ∀ line ∈ (lines text).map shown, '\n' ∉ line :=
    List.forall_mem_map.2 fun line hline hc =>
      feed_not_mem_of_mem_lines hline (shown_subset line hc)
  have hne : (lines text).map shown ≠ [] := by simpa using lines_ne_nil_of_feed_mem hfeed
  rw [← map_shown_lines_eq_iff, settled, if_pos h]
  constructor
  · intro heq
    rw [← splitAt_joinLines hne hlines, heq]
  · intro heq
    rw [heq, joinLines_splitAt]

/-! ## Quoted texts -/

/-- A text is stable behind a quotation exactly if it is stable and does not have the character that
its escape confuses with another one. -/
theorem isStable_map_reescaped_iff {text : List Char} :
    IsStable (text.map reescaped) ↔ '\x08' ∉ text ∧ IsStable text := by
  by_cases hmem : '\x08' ∈ text
  · refine iff_of_false (fun h => ?_) fun h => h.1 hmem
    have hmem' : '\x10' ∈ text.map reescaped := List.mem_map.2 ⟨_, hmem, rfl⟩
    have hblock : inBlock (text.map reescaped) = false := by
      have hfits : fitsBlock (text.map reescaped) = false :=
        List.all_eq_false.2 ⟨'\x10', hmem', by decide⟩
      rw [inBlock, hfits, Bool.and_false]
    rw [IsStable, hblock, if_neg Bool.false_ne_true] at h
    exact absurd (h _ hmem') (by decide)
  · rw [map_reescaped hmem]
    exact (and_iff_right hmem).symm

end OperationAtlas.Graphql
