import Mathlib.Data.List.Infix
import OperationAtlas.Text.Blank

/-!
# Laws of lines

A text is cut at its line feeds into pieces without line feeds. In the other direction, pieces with
a line feed behind each and a last piece make a text (`splitAt_ended`), and every text is made so
(`exists_ended`). The lines of a text are its pieces without the carriage returns before the cuts,
and without the last piece if that is empty (`lines_ended`).
-/

namespace OperationAtlas.Text

/-! ## Cutting at line feeds -/

variable {feed : Char} {piece last cs : List Char} {pieces : List (List Char)}

/-- A piece without line feeds at the front goes to the first piece. -/
theorem splitAt_append_of_not_mem (h : feed ∉ piece) {first : List Char}
    {others : List (List Char)} (hcs : splitAt feed cs = first :: others) :
    splitAt feed (piece ++ cs) = (piece ++ first) :: others := by
  induction piece with
  | nil => exact hcs
  | cons c piece ih =>
    obtain ⟨hc, hpiece⟩ := not_or.1 (List.mem_cons.not.1 h)
    rw [List.cons_append, splitAt, if_neg (Ne.symm hc), ih hpiece]
    rfl

theorem splitAt_of_not_mem (h : feed ∉ piece) : splitAt feed piece = [piece] := by
  simpa using splitAt_append_of_not_mem h (rfl : splitAt feed [] = [[]])

/-- Pieces with a line feed behind each, and a last piece. -/
theorem splitAt_ended (h : ∀ piece ∈ pieces, feed ∉ piece) (hlast : feed ∉ last) :
    splitAt feed (pieces.flatMap (· ++ [feed]) ++ last) = pieces ++ [last] := by
  induction pieces with
  | nil => exact splitAt_of_not_mem hlast
  | cons piece pieces ih =>
    obtain ⟨hpiece, hpieces⟩ := List.forall_mem_cons.1 h
    have hfeed : splitAt feed (feed :: (pieces.flatMap (· ++ [feed]) ++ last)) =
        [] :: (pieces ++ [last]) := by
      rw [splitAt, if_pos rfl, ih hpieces]
    simpa using splitAt_append_of_not_mem hpiece hfeed

/-- Every text is made of pieces. -/
theorem exists_ended (feed : Char) (cs : List Char) :
    ∃ (pieces : List (List Char)) (last : List Char), (∀ piece ∈ pieces, feed ∉ piece) ∧
      feed ∉ last ∧ cs = pieces.flatMap (· ++ [feed]) ++ last := by
  induction cs with
  | nil => exact ⟨[], [], by simp, by simp, rfl⟩
  | cons c cs ih =>
    obtain ⟨pieces, last, hpieces, hlast, rfl⟩ := ih
    by_cases hc : c = feed
    · subst hc
      exact ⟨[] :: pieces, last, List.forall_mem_cons.2 ⟨List.not_mem_nil, hpieces⟩, hlast, rfl⟩
    · cases pieces with
      | nil => exact ⟨[], c :: last, by simp, by simp [Ne.symm hc, hlast], rfl⟩
      | cons piece pieces =>
        obtain ⟨hpiece, hpieces⟩ := List.forall_mem_cons.1 hpieces
        refine ⟨(c :: piece) :: pieces, last, List.forall_mem_cons.2 ⟨?_, hpieces⟩, hlast, rfl⟩
        simp [Ne.symm hc, hpiece]

/-- A text is cut at a line feed into the pieces before it and those behind it. -/
theorem splitAt_append_feed (front back : List Char) :
    splitAt feed (front ++ feed :: back) = splitAt feed front ++ splitAt feed back := by
  obtain ⟨pieces, last, hpieces, hlast, rfl⟩ := exists_ended feed front
  obtain ⟨pieces', last', hpieces', hlast', rfl⟩ := exists_ended feed back
  have hall : ∀ piece ∈ pieces ++ last :: pieces', feed ∉ piece :=
    List.forall_mem_append.2 ⟨hpieces, List.forall_mem_cons.2 ⟨hlast, hpieces'⟩⟩
  rw [splitAt_ended hpieces hlast, splitAt_ended hpieces' hlast']
  simpa using splitAt_ended hall hlast'

/-- Pieces with a line feed between each two are cut there again. -/
theorem splitAt_intercalate (hne : pieces ≠ []) (h : ∀ piece ∈ pieces, feed ∉ piece) :
    splitAt feed ([feed].intercalate pieces) = pieces := by
  induction pieces with
  | nil => exact absurd rfl hne
  | cons piece pieces ih =>
    obtain ⟨hpiece, hpieces⟩ := List.forall_mem_cons.1 h
    cases pieces with
    | nil => rw [List.intercalate_singleton, splitAt_of_not_mem hpiece]
    | cons second pieces =>
      rw [List.intercalate_cons_cons, List.append_assoc, List.singleton_append,
        splitAt_append_feed, splitAt_of_not_mem hpiece, ih (List.cons_ne_nil second pieces) hpieces,
        List.singleton_append]

/-- A text with several pieces has a line feed. -/
theorem mem_ended_iff (hlast : feed ∉ last) :
    feed ∈ pieces.flatMap (· ++ [feed]) ++ last ↔ pieces ≠ [] := by
  cases pieces with
  | nil => simpa using hlast
  | cons piece pieces => simp

/-! ## Pieces and what separates them -/

theorem length_le_intercalate {separator : List Char} :
    ∀ piece ∈ pieces, piece.length ≤ (separator.intercalate pieces).length := by
  induction pieces with
  | nil => nofun
  | cons first pieces ih =>
    by_cases hnil : pieces = []
    · subst hnil
      simp
    · rw [List.intercalate_cons_of_ne_nil hnil, List.forall_mem_cons]
      simp only [List.length_append]
      exact ⟨by omega, fun piece hpiece => Nat.le_trans (ih piece hpiece) (by omega)⟩

/-- Between each two pieces there is a separator. -/
theorem length_pieces_le (separator : Char) (pieces : List (List Char)) :
    pieces.length ≤ ([separator].intercalate pieces).length + 1 := by
  induction pieces with
  | nil => exact Nat.zero_le _
  | cons first pieces ih =>
    by_cases hnil : pieces = []
    · simp [hnil]
    · rw [List.intercalate_cons_of_ne_nil hnil]
      simp only [List.length_append, List.length_cons, List.length_nil]
      omega

/-! ## Lines -/

/-- A line without a carriage return at its end. -/
def withoutReturn (line : List Char) : List Char :=
  if line.getLast? = some '\r' then line.dropLast else line

theorem prefix_withoutReturn (line : List Char) : withoutReturn line <+: line := by
  unfold withoutReturn
  split
  · exact List.dropLast_prefix line
  · exact List.prefix_rfl

theorem withoutReturn_eq_or (line : List Char) :
    withoutReturn line = line ∨ line = withoutReturn line ++ ['\r'] := by
  unfold withoutReturn
  split
  · next hreturn =>
    obtain ⟨front, rfl⟩ := List.getLast?_eq_some_iff.1 hreturn
    exact .inr (by rw [List.dropLast_concat])
  · exact .inl rfl

@[simp] theorem withoutReturn_concat (line : List Char) :
    withoutReturn (line ++ ['\r']) = line := by
  simp [withoutReturn]

theorem withoutReturn_append {line : List Char} (h : line ≠ []) (front : List Char) :
    withoutReturn (front ++ line) = front ++ withoutReturn line := by
  unfold withoutReturn
  rw [List.getLast?_append_of_ne_nil _ h]
  split
  · exact List.dropLast_append_of_ne_nil h
  · rfl

/-- The lines of a text, by its pieces. -/
theorem lines_ended (h : ∀ piece ∈ pieces, '\n' ∉ piece) (hlast : '\n' ∉ last) :
    lines (pieces.flatMap (· ++ ['\n']) ++ last) =
      pieces.map withoutReturn ++ if last = [] then [] else [last] := by
  rw [lines, linesBy, splitAt_ended h hlast]
  simp only [List.dropLast_concat, List.getLast?_concat]
  cases last with
  | nil => simp [withoutReturn]
  | cons c last => simp [withoutReturn]

theorem lines_ne_nil_of_feed_mem (h : '\n' ∈ cs) : lines cs ≠ [] := by
  obtain ⟨pieces, last, hpieces, hlast, rfl⟩ := exists_ended '\n' cs
  rw [mem_ended_iff hlast] at h
  rw [lines_ended hpieces hlast]
  exact List.append_ne_nil_of_left_ne_nil (by simpa using h) _

theorem feed_not_mem_of_mem_lines {line : List Char} (h : line ∈ lines cs) : '\n' ∉ line := by
  obtain ⟨pieces, last, hpieces, hlast, rfl⟩ := exists_ended '\n' cs
  rw [lines_ended hpieces hlast, List.mem_append] at h
  rcases h with h | h
  · obtain ⟨piece, hpiece, rfl⟩ := List.mem_map.1 h
    exact fun hfeed => hpieces piece hpiece ((prefix_withoutReturn piece).subset hfeed)
  · split at h
    · cases h
    · rwa [List.mem_singleton.1 h]

/-- The characters of the lines are those of the text. -/
theorem mem_of_mem_lines {c : Char} {line : List Char} (h : line ∈ lines cs) (hc : c ∈ line) :
    c ∈ cs := by
  obtain ⟨pieces, last, hpieces, hlast, rfl⟩ := exists_ended '\n' cs
  rw [lines_ended hpieces hlast, List.mem_append] at h
  rw [List.mem_append]
  rcases h with h | h
  · obtain ⟨piece, hpiece, rfl⟩ := List.mem_map.1 h
    have hmem := (prefix_withoutReturn piece).subset hc
    exact .inl (List.mem_flatMap.2 ⟨piece, hpiece, List.mem_append_left _ hmem⟩)
  · split at h
    · cases h
    · rw [List.mem_singleton.1 h] at hc
      exact .inr hc

end OperationAtlas.Text
