import Mathlib.Data.List.DropRight
import Mathlib.Data.List.Forall2
import OperationAtlas.Graphql.StringValue
import OperationAtlas.Proofs.Text.Lines

/-!
# Reading written blocks

The lines of a text that is written as a block are read back one by one: the indentation of the
block goes together with the blanks that the lines have in common, and with it a carriage return at
the end of a line (`rereadLine`). Blank lines at both ends go altogether.
`unescapeBlock_blockInside` says so of the whole block.

A block that is read back may be written again. The lines that are written are the same exactly if
nothing has gone that a block shows (`HasLayout`, `hasLayout_iff`).
-/

namespace OperationAtlas.Graphql

open Text

/-! ## Blank lines -/

/-- Whether a line has no other characters than blanks. -/
abbrev isBlankLine (line : List Char) : Bool := line.all isBlank

theorem exists_of_isBlankLine_eq_false {line : List Char} (h : isBlankLine line = false) :
    ∃ c ∈ line, isBlank c = false := by
  simpa using h

theorem isBlankLine_eq_false_of_mem {line : List Char} {c : Char} (hmem : c ∈ line)
    (hc : isBlank c = false) : isBlankLine line = false := by
  simpa using ⟨c, hmem, hc⟩

theorem trimBlankLines_eq (ls : List (List Char)) :
    trimBlankLines ls = (ls.dropWhile isBlankLine).rdropWhile isBlankLine := rfl

/-- The trimmed lines stand behind the blank lines at the front. -/
theorem exists_trimBlankLines (ls : List (List Char)) :
    ∃ after, ls = ls.takeWhile isBlankLine ++ (trimBlankLines ls ++ after) := by
  obtain ⟨after, hafter⟩ := List.rdropWhile_prefix isBlankLine (ls.dropWhile isBlankLine)
  refine ⟨after, ?_⟩
  rw [trimBlankLines_eq, hafter, List.takeWhile_append_dropWhile]

theorem infix_trimBlankLines (ls : List (List Char)) : trimBlankLines ls <:+: ls := by
  obtain ⟨after, hls⟩ := exists_trimBlankLines ls
  exact ⟨ls.takeWhile isBlankLine, after, by rw [List.append_assoc, ← hls]⟩

theorem trimBlankLines_cons {line : List Char} (h : isBlankLine line = true)
    (ls : List (List Char)) : trimBlankLines (line :: ls) = trimBlankLines ls := by
  rw [trimBlankLines_eq, List.dropWhile_cons_of_pos h, trimBlankLines_eq]

theorem trimBlankLines_concat {line : List Char} (h : isBlankLine line = true)
    (ls : List (List Char)) : trimBlankLines (ls ++ [line]) = trimBlankLines ls := by
  rw [trimBlankLines_eq, trimBlankLines_eq, List.dropWhile_append]
  split
  · next hnil =>
    rw [List.isEmpty_iff.1 hnil, List.dropWhile_cons_of_pos h, List.dropWhile_nil]
  · exact List.rdropWhile_concat_pos isBlankLine _ _ h

theorem trimBlankLines_append {after : List (List Char)}
    (h : ∀ line ∈ after, isBlankLine line = true) (ls : List (List Char)) :
    trimBlankLines (ls ++ after) = trimBlankLines ls := by
  induction after using List.reverseRecOn with
  | nil => rw [List.append_nil]
  | append_singleton after line ih =>
    rw [List.forall_mem_append, List.forall_mem_singleton] at h
    rw [← List.append_assoc, trimBlankLines_concat h.2, ih h.1]

/-- A map that keeps blank lines blank, and others not, may be applied before or after. -/
theorem trimBlankLines_map {f : List Char → List Char}
    (h : ∀ line, isBlankLine (f line) = isBlankLine line) (ls : List (List Char)) :
    trimBlankLines (ls.map f) = (trimBlankLines ls).map f := by
  have hcomp : isBlankLine ∘ f = isBlankLine := funext h
  rw [trimBlankLines_eq, trimBlankLines_eq, List.dropWhile_map, hcomp, List.rdropWhile,
    List.rdropWhile, ← List.map_reverse, List.dropWhile_map, hcomp, List.map_reverse]

/-- Trimmed lines neither start nor end with a blank line. -/
theorem isBlankLine_last {front : List (List Char)} {last : List Char}
    (h : trimBlankLines (front ++ [last]) = front ++ [last]) : isBlankLine last = false := by
  by_contra hblank
  rw [trimBlankLines_concat (by simpa using hblank)] at h
  have hlength := (infix_trimBlankLines front).length_le
  rw [h, List.length_append, List.length_singleton] at hlength
  omega

/-- The lines at the place of the trimmed ones. -/
theorem take_drop_trimBlankLines (f : List Char → List Char) (ls : List (List Char)) :
    ((ls.map f).drop (ls.takeWhile isBlankLine).length).take (trimBlankLines ls).length =
      (trimBlankLines ls).map f := by
  obtain ⟨after, hls⟩ := exists_trimBlankLines ls
  conv_lhs => rw [hls]
  simp only [List.map_append]
  rw [← hls, List.drop_left' (List.length_map f), List.take_left' (List.length_map f)]

/-! ## Indentation -/

theorem bytesOf_cons (c : Char) (cs : List Char) :
    bytesOf (c :: cs) = byteCount c + bytesOf cs := by
  have hfoldl : ∀ (cs : List Char) n, cs.foldl (fun n c => n + byteCount c) n =
      n + cs.foldl (fun n c => n + byteCount c) 0 := by
    intro cs
    induction cs with
    | nil => exact fun n => rfl
    | cons c cs ih =>
      intro n
      rw [List.foldl_cons, List.foldl_cons, ih, ih (0 + byteCount c)]
      omega
  rw [bytesOf, List.foldl_cons, hfoldl, Nat.zero_add, bytesOf]

theorem indentOf_cons_of_isBlank {c : Char} (h : isBlank c = true) (cs : List Char) :
    indentOf (c :: cs) = byteCount c + indentOf cs := by
  rw [indentOf, List.takeWhile_cons_of_pos h, bytesOf_cons, indentOf]

theorem indentOf_cons_of_not_isBlank {c : Char} (h : isBlank c = false) (cs : List Char) :
    indentOf (c :: cs) = 0 := by
  rw [indentOf, List.takeWhile_cons_of_neg (by simp [h])]
  rfl

theorem indentOf_le_bytesOf (line : List Char) : indentOf line ≤ bytesOf line := by
  induction line with
  | nil => exact Nat.le_refl _
  | cons c line ih =>
    cases hc : isBlank c with
    | true =>
      rw [indentOf_cons_of_isBlank hc, bytesOf_cons]
      omega
    | false =>
      rw [indentOf_cons_of_not_isBlank hc]
      exact Nat.zero_le _

/-- What stands behind a character that is no blank is not indentation. -/
theorem indentOf_append {line : List Char} (h : isBlankLine line = false) (cs : List Char) :
    indentOf (line ++ cs) = indentOf line := by
  induction line with
  | nil => cases h
  | cons c line ih =>
    rw [List.cons_append]
    cases hc : isBlank c with
    | true =>
      have hline : isBlankLine line = false := by simpa [hc] using h
      rw [indentOf_cons_of_isBlank hc, indentOf_cons_of_isBlank hc, ih hline]
    | false => rw [indentOf_cons_of_not_isBlank hc, indentOf_cons_of_not_isBlank hc]

theorem indentOf_blanks (k : Nat) (line : List Char) :
    indentOf (List.replicate k ' ' ++ line) = k + indentOf line := by
  induction k with
  | zero => simp
  | succ k ih =>
    have hblank : byteCount ' ' = 1 := rfl
    rw [List.replicate_succ, List.cons_append, indentOf_cons_of_isBlank rfl, ih, hblank]
    omega

@[simp] theorem dropBytes_zero (line : List Char) : dropBytes 0 line = line := by
  cases line <;> rfl

@[simp] theorem dropBytes_nil (n : Nat) : dropBytes n [] = [] := by cases n <;> rfl

theorem dropBytes_blanks (k n : Nat) (line : List Char) :
    dropBytes (k + n) (List.replicate k ' ' ++ line) = dropBytes n line := by
  induction k with
  | zero => simp
  | succ k ih =>
    have hstep : k + 1 + n = k + n + 1 := by omega
    rw [List.replicate_succ, List.cons_append, hstep, dropBytes]
    exact ih

theorem suffix_dropBytes (n : Nat) (line : List Char) : dropBytes n line <:+ line := by
  induction line generalizing n with
  | nil => rw [dropBytes_nil]
  | cons c line ih =>
    cases n with
    | zero => rw [dropBytes_zero]
    | succ n => exact (ih _).trans (List.suffix_cons c line)

theorem dropBytes_eq_self {n : Nat} {line : List Char} (h : dropBytes n line = line) :
    n = 0 ∨ line = [] := by
  cases n with
  | zero => exact .inl rfl
  | succ n =>
    cases line with
    | nil => exact .inr rfl
    | cons c line =>
      have hlength := (suffix_dropBytes (n + 1 - byteCount c) line).length_le
      have heq := congrArg List.length h
      rw [dropBytes, List.length_cons] at heq
      omega

/-! ## Escaped lines -/

@[simp] theorem escapeTriples_nil : escapeTriples [] = [] := by
  rw [escapeTriples]

@[simp] theorem escapeTriples_triple (rest : List Char) :
    escapeTriples ('"' :: '"' :: '"' :: rest) = '\\' :: '"' :: '"' :: '"' :: escapeTriples rest := by
  rw [escapeTriples]

/-- A character that starts no triple quotation mark stays as it is. -/
theorem escapeTriples_cons {c : Char} {line : List Char}
    (h : ∀ rest, c = '"' → line = '"' :: '"' :: rest → False) :
    escapeTriples (c :: line) = c :: escapeTriples line := by
  rw [escapeTriples]
  exact h

/-- A line is read from its front: triple quotation marks, and characters that start none. -/
theorem escapeTriples_induction {motive : List Char → Prop}
    (triple : ∀ rest, motive rest → motive ('"' :: '"' :: '"' :: rest))
    (other : ∀ c line, (∀ rest, c = '"' → line = '"' :: '"' :: rest → False) → motive line →
      motive (c :: line))
    (nil : motive []) (line : List Char) : motive line :=
  escapeTriples.induct motive triple other nil line

theorem mem_escapeTriples {c : Char} {line : List Char} (h : c ∈ line) :
    c ∈ escapeTriples line := by
  induction line using escapeTriples_induction with
  | triple line ih =>
    rw [escapeTriples_triple]
    simp only [List.mem_cons] at h ⊢
    tauto
  | other d line hline ih =>
    rw [escapeTriples_cons hline]
    exact List.mem_cons.2 ((List.mem_cons.1 h).imp_right ih)
  | nil => exact h

theorem mem_of_mem_escapeTriples {c : Char} {line : List Char} (h : c ∈ escapeTriples line) :
    c = '\\' ∨ c ∈ line := by
  induction line using escapeTriples_induction with
  | triple line ih =>
    rw [escapeTriples_triple] at h
    simp only [List.mem_cons] at h ⊢
    tauto
  | other d line hline ih =>
    rw [escapeTriples_cons hline] at h
    simp only [List.mem_cons] at h ⊢
    tauto
  | nil => exact .inr h

theorem escapeTriples_concat {c : Char} (hc : c ≠ '"') (line : List Char) :
    escapeTriples (line ++ [c]) = escapeTriples line ++ [c] := by
  induction line using escapeTriples_induction with
  | triple line ih => simpa using ih
  | other d line hline ih =>
    have hline' : ∀ rest, d = '"' → line ++ [c] = '"' :: '"' :: rest → False := by
      rintro rest rfl heq
      match line, heq with
      | [], heq => simp at heq
      | [e], heq => simp_all
      | e :: f :: line, heq =>
        simp only [List.cons_append, List.cons.injEq] at heq
        exact hline line rfl (by rw [heq.1, heq.2.1])
    rw [List.cons_append, escapeTriples_cons hline', ih, escapeTriples_cons hline,
      List.cons_append]
  | nil => exact escapeTriples_cons fun _ h => absurd h hc

/-- A quotation mark in front of an escaped line stands in front of the line. -/
theorem exists_of_escapeTriples_eq_cons {line rest : List Char}
    (h : escapeTriples line = '"' :: rest) :
    ∃ line', line = '"' :: line' ∧ rest = escapeTriples line' := by
  induction line using escapeTriples_induction with
  | triple line => simp at h
  | other c line hline =>
    rw [escapeTriples_cons hline] at h
    obtain ⟨rfl, rfl⟩ := List.cons.inj h
    exact ⟨line, rfl, rfl⟩
  | nil => simp at h

theorem escapeTriples_ne_triple (line rest : List Char) :
    escapeTriples line ≠ '"' :: '"' :: '"' :: rest := by
  intro h
  obtain ⟨line₁, rfl, h₁⟩ := exists_of_escapeTriples_eq_cons h
  obtain ⟨line₂, rfl, h₂⟩ := exists_of_escapeTriples_eq_cons h₁.symm
  obtain ⟨line₃, rfl, -⟩ := exists_of_escapeTriples_eq_cons h₂.symm
  simp at h

@[simp] theorem unescapeTriples_escapeTriples (line : List Char) :
    unescapeTriples (escapeTriples line) = line := by
  induction line using escapeTriples_induction with
  | triple line ih => simp [unescapeTriples, ih]
  | other c line hline ih =>
    rw [escapeTriples_cons hline, unescapeTriples, ih]
    exact fun rest _ h => escapeTriples_ne_triple line rest h
  | nil => rfl

theorem escapeTriples_cons_of_isBlank {c : Char} (h : isBlank c = true) (line : List Char) :
    escapeTriples (c :: line) = c :: escapeTriples line := by
  refine escapeTriples_cons ?_
  rintro rest rfl
  exact absurd h (by decide)

theorem getLast?_escapeTriples (line : List Char) :
    (escapeTriples line).getLast? = line.getLast? := by
  induction line using escapeTriples_induction with
  | triple line ih => simp [List.getLast?_cons, ih]
  | other c line hline ih =>
    rw [escapeTriples_cons hline, List.getLast?_cons, List.getLast?_cons, ih]
  | nil => rfl

theorem withoutReturn_escapeTriples (line : List Char) :
    withoutReturn (escapeTriples line) = escapeTriples (withoutReturn line) := by
  by_cases hlast : line.getLast? = some '\r'
  · obtain ⟨front, rfl⟩ := List.getLast?_eq_some_iff.1 hlast
    rw [escapeTriples_concat (by decide), withoutReturn_concat, withoutReturn_concat]
  · rw [withoutReturn, withoutReturn, getLast?_escapeTriples, if_neg hlast, if_neg hlast]

theorem indentOf_escapeTriples (line : List Char) :
    indentOf (escapeTriples line) = indentOf line := by
  induction line using escapeTriples_induction with
  | triple line ih =>
    rw [escapeTriples_triple, indentOf_cons_of_not_isBlank (by decide),
      indentOf_cons_of_not_isBlank (by decide)]
  | other c line hline ih =>
    rw [escapeTriples_cons hline]
    cases hc : isBlank c with
    | true => rw [indentOf_cons_of_isBlank hc, indentOf_cons_of_isBlank hc, ih]
    | false => rw [indentOf_cons_of_not_isBlank hc, indentOf_cons_of_not_isBlank hc]
  | nil => rfl

/-- Within the indentation there is nothing to escape. -/
theorem dropBytes_escapeTriples {n : Nat} {line : List Char} (h : n ≤ indentOf line) :
    dropBytes n (escapeTriples line) = escapeTriples (dropBytes n line) := by
  induction line generalizing n with
  | nil => cases n <;> rfl
  | cons c line ih =>
    cases n with
    | zero => rw [dropBytes_zero, dropBytes_zero]
    | succ n =>
      cases hc : isBlank c with
      | true =>
        rw [indentOf_cons_of_isBlank hc] at h
        rw [escapeTriples_cons_of_isBlank hc, dropBytes, dropBytes, ih (by omega)]
      | false =>
        rw [indentOf_cons_of_not_isBlank hc] at h
        omega

/-! ## Lines of a block -/

theorem isBlankLine_withoutReturn (line : List Char) :
    isBlankLine (withoutReturn line) = isBlankLine line := by
  rcases withoutReturn_eq_or line with h | h
  · rw [h]
  · have hreturn : isBlank '\r' = true := by decide
    conv_rhs => rw [h]
    simp [hreturn]

theorem indentOf_withoutReturn {line : List Char} (h : isBlankLine line = false) :
    indentOf (withoutReturn line) = indentOf line := by
  rcases withoutReturn_eq_or line with hline | hline
  · rw [hline]
  · rw [← isBlankLine_withoutReturn] at h
    conv_rhs => rw [hline, indentOf_append h]

/-- A line of a block without the line feed behind it. -/
def indented (k : Nat) (line : List Char) : List Char :=
  if isBlankLine line then [] else List.replicate k ' ' ++ escapeTriples line

theorem blockLine_eq (k : Nat) (line : List Char) :
    blockLine k line = indented k line ++ ['\n'] := by
  unfold blockLine indented
  split <;> rfl

theorem indented_of_isBlankLine {line : List Char} (h : isBlankLine line = true) (k : Nat) :
    indented k line = [] :=
  if_pos h

theorem indented_of_not_isBlankLine {line : List Char} (h : isBlankLine line = false) (k : Nat) :
    indented k line = List.replicate k ' ' ++ escapeTriples line :=
  if_neg (by simp [h])

theorem feed_not_mem_indented {line : List Char} (h : '\n' ∉ line) (k : Nat) :
    '\n' ∉ indented k line := by
  unfold indented
  split
  · exact List.not_mem_nil
  · intro hfeed
    rcases List.mem_append.1 hfeed with hfeed | hfeed
    · exact absurd (List.eq_of_mem_replicate hfeed) (by decide)
    · exact (mem_of_mem_escapeTriples hfeed).elim (by decide) h

theorem withoutReturn_indented {line : List Char} (h : isBlankLine line = false) (k : Nat) :
    withoutReturn (indented k line) =
      List.replicate k ' ' ++ escapeTriples (withoutReturn line) := by
  obtain ⟨c, hc, -⟩ := exists_of_isBlankLine_eq_false h
  rw [indented_of_not_isBlankLine h, withoutReturn_append
    (List.ne_nil_of_mem (mem_escapeTriples hc)), withoutReturn_escapeTriples]

theorem isBlankLine_withoutReturn_indented (k : Nat) (line : List Char) :
    isBlankLine (withoutReturn (indented k line)) = isBlankLine line := by
  cases h : isBlankLine line with
  | true => rw [indented_of_isBlankLine h]; rfl
  | false =>
    rw [isBlankLine_withoutReturn, indented_of_not_isBlankLine h]
    obtain ⟨c, hc, hblank⟩ := exists_of_isBlankLine_eq_false h
    exact isBlankLine_eq_false_of_mem (List.mem_append_right _ (mem_escapeTriples hc)) hblank

/-! ## The common indentation -/

theorem le_indentOf_of_commonIndent? {ls : List (List Char)} {m : Nat}
    (h : commonIndent? ls = some m) {line : List Char} (hmem : line ∈ ls)
    (hline : isBlankLine line = false) : m ≤ indentOf line := by
  rw [commonIndent?, List.min?_eq_some_iff] at h
  refine h.2 _ (List.mem_map_of_mem (List.mem_filter.2 ⟨hmem, ?_⟩))
  simpa using hline

theorem isBlankLine_of_commonIndent?_eq_none {ls : List (List Char)} (h : commonIndent? ls = none) :
    ∀ line ∈ ls, isBlankLine line = true := by
  rw [commonIndent?, List.min?_eq_none_iff, List.map_eq_nil_iff, List.filter_eq_nil_iff] at h
  simpa using h

theorem commonIndent?_append_of_isBlankLine {ls after : List (List Char)}
    (h : ∀ line ∈ after, isBlankLine line = true) :
    commonIndent? (ls ++ after) = commonIndent? ls := by
  have hafter : after.filter (fun line => !line.all isBlank) = [] :=
    List.filter_eq_nil_iff.2 (by simpa using h)
  rw [commonIndent?, List.filter_append, hafter, List.append_nil, commonIndent?]

theorem min?_map_add (k : Nat) (ns : List Nat) : (ns.map (k + ·)).min? = ns.min?.map (k + ·) := by
  cases h : ns.min? with
  | none =>
    rw [List.min?_eq_none_iff.1 h]
    rfl
  | some m =>
    rw [List.min?_eq_some_iff] at h
    rw [Option.map_some, List.min?_eq_some_iff, List.forall_mem_map]
    exact ⟨List.mem_map_of_mem h.1, fun n hn => Nat.add_le_add_left (h.2 n hn) k⟩

theorem commonIndent?_map_indented (k : Nat) (ls : List (List Char)) :
    commonIndent? (ls.map fun line => withoutReturn (indented k line)) =
      (commonIndent? ls).map (k + ·) := by
  have hblank : (fun line : List Char => !line.all isBlank) ∘
      (fun line => withoutReturn (indented k line)) = fun line => !line.all isBlank :=
    funext fun line => congrArg not (isBlankLine_withoutReturn_indented k line)
  rw [commonIndent?, List.filter_map, hblank, List.map_map, commonIndent?, ← min?_map_add,
    List.map_map]
  congr 1
  refine List.map_congr_left fun line hline => ?_
  have hline : isBlankLine line = false := by simpa using (List.mem_filter.1 hline).2
  rw [Function.comp_apply, Function.comp_apply, withoutReturn_indented hline, indentOf_blanks,
    indentOf_escapeTriples, indentOf_withoutReturn hline]

/-! ## Reading -/

@[simp] theorem outdent_nil (indent? : Option Nat) : outdent indent? [] = [] := by
  unfold outdent
  split
  · split
    · exact dropBytes_nil _
    · rfl
  · rfl

/-- A block whose first line is empty is read line by line. -/
theorem unescapeBlock_of_lines {body : List Char} {others : List (List Char)}
    (h : lines body = [] :: others) :
    unescapeBlock body = joinLines ((trimBlankLines others).map fun line =>
      unescapeTriples (outdent (commonIndent? others) line)) := by
  have hall := take_drop_trimBlankLines (outdent (commonIndent? others)) ([] :: others)
  rw [List.map_cons, outdent_nil] at hall
  rw [unescapeBlock, h]
  dsimp only
  rw [hall, List.map_map, trimBlankLines_cons rfl]
  rfl

/-- A line as it is read back from a block whose lines have so many bytes of blanks in common. -/
def rereadLine (m : Nat) (line : List Char) : List Char :=
  if isBlankLine line then [] else dropBytes m (withoutReturn line)

theorem unescapeTriples_outdent_indented {k m : Nat} {line : List Char} (hm : m ≤ indentOf line)
    (h : isBlankLine line = false) :
    unescapeTriples (outdent (some (k + m)) (withoutReturn (indented k line))) =
      dropBytes m (withoutReturn line) := by
  rw [← indentOf_withoutReturn h] at hm
  have hindent : k + m ≤ bytesOf (List.replicate k ' ' ++ escapeTriples (withoutReturn line)) := by
    refine Nat.le_trans ?_ (indentOf_le_bytesOf _)
    rw [indentOf_blanks, indentOf_escapeTriples]
    exact Nat.add_le_add_left hm k
  rw [withoutReturn_indented h, outdent, if_pos hindent, dropBytes_blanks,
    dropBytes_escapeTriples hm, unescapeTriples_escapeTriples]

/-- The inside of a block of lines. -/
def blockInside (indent : Nat) (ls : List (List Char)) : List Char :=
  '\n' :: (ls.flatMap (blockLine (indent + 2)) ++ List.replicate indent ' ')

theorem blockInside_eq (indent : Nat) (ls : List (List Char)) :
    blockInside indent ls = ([] :: ls.map (indented (indent + 2))).flatMap (· ++ ['\n']) ++
      List.replicate indent ' ' := by
  have hlines : blockLine (indent + 2) = fun line => indented (indent + 2) line ++ ['\n'] :=
    funext (blockLine_eq _)
  rw [blockInside, List.flatMap_cons, List.flatMap_map, hlines]
  rfl

theorem lines_blockInside {ls : List (List Char)} (h : ∀ line ∈ ls, '\n' ∉ line) (indent : Nat) :
    lines (blockInside indent ls) =
      [] :: (ls.map (fun line => withoutReturn (indented (indent + 2) line)) ++
        if List.replicate indent ' ' = [] then [] else [List.replicate indent ' ']) := by
  have hpieces : ∀ piece ∈ [] :: ls.map (indented (indent + 2)), '\n' ∉ piece := by
    rw [List.forall_mem_cons, List.forall_mem_map]
    exact ⟨List.not_mem_nil, fun line hline => feed_not_mem_indented (h line hline) _⟩
  rw [blockInside_eq, lines_ended hpieces (by simp), List.map_cons, List.map_map]
  rfl

/-- The lines of a written block as they are read back. -/
def rereadLines (ls : List (List Char)) : List (List Char) :=
  (trimBlankLines ls).map (rereadLine ((commonIndent? ls).getD 0))

/-- A written block is read back line by line. -/
theorem unescapeBlock_blockInside {ls : List (List Char)} (h : ∀ line ∈ ls, '\n' ∉ line)
    (indent : Nat) : unescapeBlock (blockInside indent ls) = joinLines (rereadLines ls) := by
  -- the blanks before the closing quotation marks are a blank line, if there are any
  have hafter : ∀ line ∈ (if List.replicate indent ' ' = [] then [] else
      [List.replicate indent ' '] : List (List Char)), isBlankLine line = true := by
    split
    · exact nofun
    · refine List.forall_mem_singleton.2 (List.all_eq_true.2 fun c hc => ?_)
      rw [List.eq_of_mem_replicate hc]
      rfl
  rw [unescapeBlock_of_lines (lines_blockInside h indent), trimBlankLines_append hafter,
    commonIndent?_append_of_isBlankLine hafter, commonIndent?_map_indented,
    trimBlankLines_map (isBlankLine_withoutReturn_indented _), List.map_map, rereadLines]
  congr 1
  refine List.map_congr_left fun line hline => ?_
  have hmem : line ∈ ls := (infix_trimBlankLines ls).subset hline
  rw [Function.comp_apply, rereadLine]
  cases hblank : isBlankLine line with
  | true =>
    rw [indented_of_isBlankLine hblank, if_pos rfl]
    exact congrArg unescapeTriples (outdent_nil _)
  | false =>
    cases hindent : commonIndent? ls with
    | none =>
      rw [isBlankLine_of_commonIndent?_eq_none hindent line hmem] at hblank
      cases hblank
    | some m =>
      exact unescapeTriples_outdent_indented (le_indentOf_of_commonIndent? hindent hmem hblank)
        hblank

theorem rereadLine_subset (m : Nat) (line : List Char) : rereadLine m line ⊆ line := by
  unfold rereadLine
  split
  · exact List.nil_subset line
  · exact List.Subset.trans (suffix_dropBytes m _).subset (prefix_withoutReturn line).subset

/-- The characters that are read back are those of the lines. -/
theorem mem_of_mem_rereadLines {ls : List (List Char)} {line : List Char}
    (h : line ∈ rereadLines ls) {c : Char} (hc : c ∈ line) : ∃ line' ∈ ls, c ∈ line' := by
  obtain ⟨line', hline', rfl⟩ := List.mem_map.1 h
  exact ⟨line', (infix_trimBlankLines ls).subset hline', rereadLine_subset _ _ hc⟩

/-! ## Writing again -/

/-- Two blocks are the same if they show the same lines. -/
theorem blockInside_inj {ls ls' : List (List Char)} (h : ∀ line ∈ ls, '\n' ∉ line)
    (h' : ∀ line ∈ ls', '\n' ∉ line) {indent : Nat} :
    blockInside indent ls = blockInside indent ls' ↔
      ls.map (indented (indent + 2)) = ls'.map (indented (indent + 2)) := by
  have hsplit : ∀ {ls : List (List Char)}, (∀ line ∈ ls, '\n' ∉ line) →
      splitAt '\n' (blockInside indent ls) =
        [] :: ls.map (indented (indent + 2)) ++ [List.replicate indent ' '] := by
    intro ls h
    rw [blockInside_eq, splitAt_ended _ (by simp)]
    rw [List.forall_mem_cons, List.forall_mem_map]
    exact ⟨List.not_mem_nil, fun line hline => feed_not_mem_indented (h line hline) _⟩
  constructor
  · intro heq
    have hpieces := congrArg (splitAt '\n') heq
    rw [hsplit h, hsplit h', List.append_cancel_right_eq] at hpieces
    exact (List.cons.inj hpieces).2
  · intro heq
    rw [blockInside_eq, blockInside_eq, heq]

/-- A line as a block shows it: a blank line is empty. -/
def shown (line : List Char) : List Char :=
  if isBlankLine line then [] else line

theorem shown_of_not_isBlankLine {line : List Char} (h : isBlankLine line = false) :
    shown line = line :=
  if_neg (by simp [h])

theorem isBlankLine_shown (line : List Char) : isBlankLine (shown line) = isBlankLine line := by
  unfold shown
  split
  · next h => rw [h]; rfl
  · rfl

theorem escapeTriples_inj {line line' : List Char} :
    escapeTriples line = escapeTriples line' ↔ line = line' := by
  refine ⟨fun h => ?_, congrArg escapeTriples⟩
  rw [← unescapeTriples_escapeTriples line, h, unescapeTriples_escapeTriples]

/-- A block shows of a line what is written of it. -/
theorem indented_eq_iff {k : Nat} {line line' : List Char} :
    indented k line = indented k line' ↔ shown line = shown line' := by
  have hne : ∀ {line : List Char}, isBlankLine line = false →
      List.replicate k ' ' ++ escapeTriples line ≠ [] ∧ line ≠ [] := by
    intro line h
    obtain ⟨c, hc, -⟩ := exists_of_isBlankLine_eq_false h
    exact ⟨List.append_ne_nil_of_right_ne_nil _ (List.ne_nil_of_mem (mem_escapeTriples hc)),
      List.ne_nil_of_mem hc⟩
  unfold indented shown
  cases h : isBlankLine line <;> cases h' : isBlankLine line' <;>
    simp only [Bool.false_eq_true, if_false, if_true]
  · rw [List.append_cancel_left_eq, escapeTriples_inj]
  · exact iff_of_false (hne h).1 (hne h).2
  · exact iff_of_false (hne h').1.symm (hne h').2.symm

theorem map_indented_eq_iff {k : Nat} {ls ls' : List (List Char)} :
    ls.map (indented k) = ls'.map (indented k) ↔ ls.map shown = ls'.map shown := by
  induction ls generalizing ls' with
  | nil => simp only [List.map_nil, List.nil_eq, List.map_eq_nil_iff]
  | cons line ls ih =>
    cases ls' with
    | nil => simp only [List.map_nil, List.map_cons, List.cons_ne_nil]
    | cons line' ls' => simp only [List.map_cons, List.cons.injEq, indented_eq_iff, ih]

theorem shown_subset (line : List Char) : shown line ⊆ line := by
  unfold shown
  split
  · exact List.nil_subset line
  · exact List.Subset.refl line

@[simp] theorem shown_shown (line : List Char) : shown (shown line) = shown line := by
  conv_lhs => rw [shown, isBlankLine_shown]
  unfold shown
  split <;> rfl

/-- Joined lines are pieces with line feeds behind them, but for the last one. -/
theorem joinLines_concat (front : List (List Char)) (last : List Char) :
    joinLines (front ++ [last]) = front.flatMap (· ++ ['\n']) ++ last := by
  induction front with
  | nil => simp [joinLines]
  | cons line front ih =>
    rw [joinLines] at ih ⊢
    rw [List.cons_append, List.intercalate_cons_of_ne_nil (by simp), ih]
    simp

/-- Lines are cut again where they were joined. -/
theorem splitAt_joinLines {ls : List (List Char)} (hne : ls ≠ [])
    (hfeed : ∀ line ∈ ls, '\n' ∉ line) : splitAt '\n' (joinLines ls) = ls := by
  obtain ⟨front, last, rfl⟩ := (List.eq_nil_or_concat' ls).resolve_left hne
  rw [List.forall_mem_append, List.forall_mem_singleton] at hfeed
  rw [joinLines_concat, splitAt_ended hfeed.1 hfeed.2]

theorem joinLines_splitAt (cs : List Char) : joinLines (splitAt '\n' cs) = cs := by
  obtain ⟨pieces, last, hpieces, hlast, rfl⟩ := exists_ended '\n' cs
  rw [splitAt_ended hpieces hlast, joinLines_concat]

theorem mem_of_mem_joinLines {c : Char} {ls : List (List Char)} (h : c ∈ joinLines ls) :
    c = '\n' ∨ ∃ line ∈ ls, c ∈ line := by
  rcases List.eq_nil_or_concat' ls with rfl | ⟨front, last, rfl⟩
  · cases h
  rw [joinLines_concat, List.mem_append, List.mem_flatMap] at h
  rcases h with ⟨line, hline, hc⟩ | hc
  · rcases List.mem_append.1 hc with hc | hc
    · exact .inr ⟨line, List.mem_append_left _ hline, hc⟩
    · exact .inl (List.mem_singleton.1 hc)
  · exact .inr ⟨last, by simp, hc⟩

/-- Lines lose nothing that a block shows when they are read back from it. -/
structure HasLayout (ls : List (List Char)) : Prop where
  /-- A single line is not written as a block again. -/
  several : 2 ≤ ls.length
  trimmed : trimBlankLines ls = ls
  flush : commonIndent? ls = some 0
  bare : ∀ line ∈ ls, isBlankLine line = false → withoutReturn line = line

theorem HasLayout.rereadLines {ls : List (List Char)} (h : HasLayout ls) :
    rereadLines ls = ls.map shown := by
  rw [Graphql.rereadLines, h.trimmed, h.flush]
  refine List.map_congr_left fun line hline => ?_
  unfold rereadLine shown
  split
  · rfl
  · next hblank =>
    rw [h.bare line hline (by simpa using hblank)]
    exact dropBytes_zero line

/-- Lines that lose nothing are those of the text that they are read back as. -/
theorem HasLayout.lines_joinLines {ls : List (List Char)} (h : HasLayout ls)
    (hfeed : ∀ line ∈ ls, '\n' ∉ line) :
    '\n' ∈ joinLines (ls.map shown) ∧ lines (joinLines (ls.map shown)) = ls.map shown := by
  rcases List.eq_nil_or_concat' ls with rfl | ⟨front, last, rfl⟩
  · exact absurd h.several (by simp)
  have hlast : isBlankLine last = false := isBlankLine_last h.trimmed
  have hfront : front ≠ [] := by
    rintro rfl
    exact absurd h.several (by simp)
  have hshown : ∀ line ∈ front ++ [last], '\n' ∉ shown line := fun line hline hc =>
    hfeed line hline (shown_subset line hc)
  have hpieces : ∀ piece ∈ front.map shown, '\n' ∉ piece :=
    List.forall_mem_map.2 fun line hline => hshown line (List.mem_append_left _ hline)
  have hlastFeed : '\n' ∉ shown last := hshown last (by simp)
  obtain ⟨c, hc, -⟩ := exists_of_isBlankLine_eq_false hlast
  rw [List.map_append, List.map_singleton, joinLines_concat, mem_ended_iff hlastFeed,
    lines_ended hpieces hlastFeed, shown_of_not_isBlankLine hlast, if_neg (List.ne_nil_of_mem hc)]
  refine ⟨by simpa using hfront, ?_⟩
  rw [List.map_map, List.append_cancel_right_eq]
  refine List.map_congr_left fun line hline => ?_
  rw [Function.comp_apply]
  unfold shown
  split
  · rfl
  · next hblank =>
    exact h.bare line (List.mem_append_left _ hline) (by simpa using hblank)

/-- The lines of joined lines are their beginnings. -/
theorem prefix_lines_joinLines {ls : List (List Char)} (hfeed : ∀ line ∈ ls, '\n' ∉ line) :
    (lines (joinLines ls)).length ≤ ls.length ∧
      ((lines (joinLines ls)).length = ls.length →
        List.Forall₂ (· <+: ·) (lines (joinLines ls)) ls) := by
  rcases List.eq_nil_or_concat' ls with rfl | ⟨front, last, rfl⟩
  · exact ⟨Nat.le_refl _, fun _ => .nil⟩
  obtain ⟨hfront, hlast⟩ := List.forall_mem_append.1 hfeed
  rw [joinLines_concat, lines_ended hfront (hlast last List.mem_cons_self)]
  split
  · simp
  · refine ⟨by simp, fun _ => List.rel_append ?_ (.cons List.prefix_rfl .nil)⟩
    rw [List.forall₂_map_left_iff, List.forall₂_same]
    exact fun line _ => prefix_withoutReturn line

/-- Joined lines have a line feed only if there are several. -/
theorem two_le_length_of_mem_joinLines {ls : List (List Char)} (hfeed : ∀ line ∈ ls, '\n' ∉ line)
    (h : '\n' ∈ joinLines ls) : 2 ≤ ls.length := by
  rcases List.eq_nil_or_concat' ls with rfl | ⟨front, last, rfl⟩
  · cases h
  have hlast : '\n' ∉ last := hfeed last (by simp)
  rw [joinLines_concat, mem_ended_iff hlast] at h
  have hfront := List.length_pos_iff.2 h
  rw [List.length_append, List.length_singleton]
  omega

/-- Lines that are shown alike have common parts at the same places. -/
theorem exists_shown {R : List Char → List Char → Prop} {ls ls' : List (List Char)}
    (hshown : ls.map shown = ls'.map shown) (hR : List.Forall₂ R ls ls') :
    ∀ line' ∈ ls', ∃ line, shown line = shown line' ∧ R line line' := by
  induction hR with
  | nil => exact nofun
  | cons hfirst _ ih =>
    rw [List.map_cons, List.map_cons, List.cons.injEq] at hshown
    exact List.forall_mem_cons.2 ⟨⟨_, hshown.1, hfirst⟩, ih hshown.2⟩

/-- A line whose beginning is shown like another one that it has been read back from. -/
theorem eq_of_prefix_rereadLine {m : Nat} {line line' : List Char} (h : isBlankLine line' = false)
    (hshown : shown line = shown line') (hfront : line <+: rereadLine m line') :
    m = 0 ∧ withoutReturn line' = line' := by
  obtain ⟨c, hc, -⟩ := exists_of_isBlankLine_eq_false h
  have hline : line = line' := by
    have hblank : isBlankLine line = false := by
      rw [← isBlankLine_shown, hshown, isBlankLine_shown, h]
    rwa [shown_of_not_isBlankLine hblank, shown_of_not_isBlankLine h] at hshown
  rw [hline, rereadLine, h, if_neg Bool.false_ne_true] at hfront
  have hreturn := prefix_withoutReturn line'
  have hdrop := suffix_dropBytes m (withoutReturn line')
  have hle := hfront.length_le
  have hle' := hdrop.length_le
  have hle'' := hreturn.length_le
  have hbare : withoutReturn line' = line' := hreturn.eq_of_length (by omega)
  have hflush : dropBytes m (withoutReturn line') = withoutReturn line' :=
    hdrop.eq_of_length (by omega)
  refine ⟨?_, hbare⟩
  rw [hbare] at hflush
  exact (dropBytes_eq_self hflush).resolve_right (List.ne_nil_of_mem hc)

/-- Lines are written again as they were exactly if they lose nothing that a block shows. -/
theorem hasLayout_iff {ls : List (List Char)} (hfeed : ∀ line ∈ ls, '\n' ∉ line) :
    HasLayout ls ↔ '\n' ∈ joinLines (rereadLines ls) ∧
      (lines (joinLines (rereadLines ls))).map shown = ls.map shown := by
  constructor
  · intro h
    obtain ⟨hmem, hlines⟩ := h.lines_joinLines hfeed
    rw [h.rereadLines, hlines, List.map_map]
    exact ⟨hmem, List.map_congr_left fun line _ => shown_shown line⟩
  · rintro ⟨hmem, hshown⟩
    have hfeed' : ∀ line ∈ rereadLines ls, '\n' ∉ line := fun line hline hc => by
      obtain ⟨line', hline', hc'⟩ := mem_of_mem_rereadLines hline hc
      exact hfeed line' hline' hc'
    have hseveral := two_le_length_of_mem_joinLines hfeed' hmem
    obtain ⟨hle, hfront⟩ := prefix_lines_joinLines hfeed'
    have hlength : (lines (joinLines (rereadLines ls))).length = ls.length := by
      simpa using congrArg List.length hshown
    have htrim : (rereadLines ls).length = (trimBlankLines ls).length := List.length_map _
    have htrim' := (infix_trimBlankLines ls).length_le
    have htrimmed : trimBlankLines ls = ls :=
      (infix_trimBlankLines ls).eq_of_length (by omega)
    have hreread : rereadLines ls = ls.map (rereadLine ((commonIndent? ls).getD 0)) := by
      rw [rereadLines, htrimmed]
    have hfront := hfront (by omega)
    rw [hreread] at hshown hfront
    rw [List.forall₂_map_right_iff] at hfront
    have hlines : ∀ line ∈ ls, isBlankLine line = false →
        (commonIndent? ls).getD 0 = 0 ∧ withoutReturn line = line := by
      intro line hline hblank
      obtain ⟨line', hline', hfront⟩ := exists_shown hshown hfront line hline
      exact eq_of_prefix_rereadLine hblank hline' hfront
    refine ⟨by omega, htrimmed, ?_, fun line hline hblank => (hlines line hline hblank).2⟩
    -- the last line is not blank, so there is a common indentation
    rcases List.eq_nil_or_concat' ls with rfl | ⟨front, last, rfl⟩
    · cases hmem
    have hlast := isBlankLine_last htrimmed
    have hzero := (hlines last (by simp) hlast).1
    cases hindent : commonIndent? (front ++ [last]) with
    | none =>
      rw [isBlankLine_of_commonIndent?_eq_none hindent last (by simp)] at hlast
      cases hlast
    | some m =>
      rw [hindent, Option.getD_some] at hzero
      rw [hzero]

end OperationAtlas.Graphql
