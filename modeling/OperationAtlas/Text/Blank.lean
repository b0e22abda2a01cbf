/-!
# Blanks and lines

`isBlank` is the Unicode property `White_Space`. Trimming removes blanks at one end or at both, and
`lines` cuts a text at its line feeds: a carriage return before a line feed belongs to the cut, and
a line feed at the very end opens no further line.
-/

namespace OperationAtlas.Text

/-- Whether a character has the property `White_Space`. -/
def isBlank (c : Char) : Bool :=
  let n := c.toNat
  (9 ≤ n && n ≤ 13) || n == 32 || n == 0x85 || n == 0xA0 || n == 0x1680 ||
    (0x2000 ≤ n && n ≤ 0x200A) || n == 0x2028 || n == 0x2029 || n == 0x202F || n == 0x205F ||
    n == 0x3000

/-- A text without its leading blanks. -/
def trimLeft (cs : List Char) : List Char :=
  cs.dropWhile isBlank

/-- A text without its trailing blanks. -/
def trimRight (cs : List Char) : List Char :=
  (cs.reverse.dropWhile isBlank).reverse

/-- A text without its leading and trailing blanks. -/
def trim (cs : List Char) : List Char :=
  trimRight (trimLeft cs)

/-- The pieces of a text between the occurrences of a separator: always one more than there are
separators. -/
def splitAt {α : Type} [DecidableEq α] (sep : α) : List α → List (List α)
  | [] => [[]]
  | c :: cs =>
    if c = sep then [] :: splitAt sep cs
    else match splitAt sep cs with
      | [] => [[c]]
      | piece :: pieces => (c :: piece) :: pieces

/-- The lines of a text, given what stands for a line feed and for a carriage return. A line feed
ends a line, together with a carriage return before it. The last piece is a line of its own unless
it is empty, and keeps a carriage return at its end. -/
def linesBy {α : Type} [DecidableEq α] (feed carriage : α) (cs : List α) : List (List α) :=
  let pieces := splitAt feed cs
  let ended := pieces.dropLast.map fun line =>
    if line.getLast? = some carriage then line.dropLast else line
  match pieces.getLast? with
  | none | some [] => ended
  | some last => ended ++ [last]

/-- The lines of a text. -/
def lines (cs : List Char) : List (List Char) :=
  linesBy '\n' '\r' cs

/-- The lines of a file. A line that is not UTF-8 has no text. -/
def linesOfBytes (content : ByteArray) : List (Option String) :=
  (linesBy 0x0A 0x0D content.toList).map fun line => String.fromUTF8? ⟨line.toArray⟩

end OperationAtlas.Text
