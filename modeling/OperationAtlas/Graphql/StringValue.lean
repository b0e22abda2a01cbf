import OperationAtlas.Json.Quoted
import OperationAtlas.Text.Blank

/-!
# String values

A string value is written in one line between quotation marks, or as a block between triple
quotation marks. In a line, a backslash escapes one character or introduces four hexadecimal digits.
The escape with the letter b stands for the control character with the number 16, and the digits
behind the letter u may start with a plus sign.

A block is read without its empty lines at both ends and without the indentation that its lines
after the first have in common; an escaped triple quotation mark stands for a triple quotation mark.
It is written with each line indented. Writing a text in one line gives every unprintable character
by its decimal number, and so only a text that stands for itself reads back.
-/

namespace OperationAtlas.Graphql

open Text

/-- The text between the quotation mark before the given text and the next one that is not escaped,
which must be in the same line. -/
def lineBody? : List Char → Option (List Char × List Char)
  | [] => none
  | '"' :: rest => some ([], rest)
  | '\n' :: _ => none
  | '\\' :: c :: rest =>
    if c = '\n' then none
    else (lineBody? rest).map fun (body, rest) => ('\\' :: c :: body, rest)
  | c :: rest => (lineBody? rest).map fun (body, rest) => (c :: body, rest)

/-- The number that four characters write: hexadecimal digits, of which the first may be a plus. -/
def codeOfQuad? (a b c d : Char) : Option Nat :=
  if a = '+' then Quoted.hexQuad? '0' b c d else Quoted.hexQuad? a b c d

/-- The character of an escape with one letter. -/
def lineEscape? : Char → Option Char
  | '"' => some '"'
  | '\\' => some '\\'
  | '/' => some '/'
  | 'b' => some '\x10'
  | 'f' => some '\x0c'
  | 'n' => some '\n'
  | 'r' => some '\r'
  | 't' => some '\t'
  | _ => none

/-- The text that the inside of a line denotes. -/
def unescapeLine? : List Char → Option (List Char)
  | [] => some []
  | '\\' :: 'u' :: a :: b :: c :: d :: rest => do
    let code ← codeOfQuad? a b c d
    if 0xD800 ≤ code ∧ code ≤ 0xDFFF then none
    else (unescapeLine? rest).map (Char.ofNat code :: ·)
  | '\\' :: e :: rest => do
    let c ← lineEscape? e
    (unescapeLine? rest).map (c :: ·)
  | c :: rest =>
    if c = '\\' then none else (unescapeLine? rest).map (c :: ·)

/-- The text up to the next triple quotation mark that no backslash precedes. The flag says whether
the character before the given text is a backslash. -/
def blockBody? : Bool → List Char → Option (List Char × List Char)
  | escaped, '"' :: '"' :: '"' :: rest =>
    if escaped then
      (blockBody? false rest).map fun (body, rest) => ('"' :: '"' :: '"' :: body, rest)
    else some ([], rest)
  | _, c :: rest => (blockBody? (c == '\\') rest).map fun (body, rest) => (c :: body, rest)
  | _, [] => none

/-- The number of bytes of a character in UTF-8. -/
def byteCount (c : Char) : Nat :=
  if c.toNat < 0x80 then 1
  else if c.toNat < 0x800 then 2
  else if c.toNat < 0x10000 then 3
  else 4

/-- The number of bytes of a text. -/
def bytesOf (cs : List Char) : Nat :=
  cs.foldl (fun n c => n + byteCount c) 0

/-- The number of bytes of the blanks at the start of a line. -/
def indentOf (line : List Char) : Nat :=
  bytesOf (line.takeWhile isBlank)

/-- A line without so many bytes at its start. Where the bytes end inside a character, the whole
character goes. A common indentation can end there in a line that starts with a blank of several
bytes; a cut by bytes has no result for such a line, and this definition does not model it. -/
def dropBytes : Nat → List Char → List Char
  | 0, line => line
  | _, [] => []
  | n + 1, c :: line => dropBytes (n + 1 - byteCount c) line

/-- The indentation that all lines with a character besides blanks have in common. -/
def commonIndent? (lines : List (List Char)) : Option Nat :=
  ((lines.filter fun line => !line.all isBlank).map indentOf).min?

/-- A line without the common indentation, if it is as long. -/
def outdent (indent : Option Nat) (line : List Char) : List Char :=
  match indent with
  | some n => if n ≤ bytesOf line then dropBytes n line else line
  | none => line

/-- A line with every escaped triple quotation mark replaced by a triple quotation mark. -/
def unescapeTriples : List Char → List Char
  | '\\' :: '"' :: '"' :: '"' :: rest => '"' :: '"' :: '"' :: unescapeTriples rest
  | c :: rest => c :: unescapeTriples rest
  | [] => []

/-- Lines without the blank lines at both ends. -/
def trimBlankLines (lines : List (List Char)) : List (List Char) :=
  let isBlankLine := fun (line : List Char) => line.all isBlank
  ((lines.dropWhile isBlankLine).reverse.dropWhile isBlankLine).reverse

/-- Lines joined by line feeds. -/
def joinLines (lines : List (List Char)) : List Char :=
  ['\n'].intercalate lines

/-- The text that the inside of a block denotes. -/
def unescapeBlock (body : List Char) : List Char :=
  match lines body with
  | [] => []
  | first :: others =>
    -- a blank first line is not outdented, but it is dropped with the blank lines
    let outdented := first :: others.map (outdent (commonIndent? others))
    let blanks := (first :: others).takeWhile fun line => line.all isBlank
    let kept := trimBlankLines (first :: others)
    joinLines (((outdented.drop blanks.length).take kept.length).map unescapeTriples)

/-- Whether a text may stand in a block: it has no other control characters than tab, carriage
return and line feed, and no character beyond the first plane. -/
def fitsBlock (text : List Char) : Bool :=
  text.all fun c =>
    c == '\n' || c == '\r' || c == '\t' || (0x20 ≤ c.toNat && c.toNat ≤ 0xFFFF)

/-- A decimal number of at least four digits. -/
def decimalQuad (n : Nat) : List Char :=
  let digits := Nat.toDigits 10 n
  List.replicate (4 - digits.length) '0' ++ digits

/-- A character in a line. -/
def escapeLineChar (c : Char) : List Char :=
  match c with
  | '\r' => ['\\', 'r']
  | '\n' => ['\\', 'n']
  | '\t' => ['\\', 't']
  | '"' => ['\\', '"']
  | '\\' => ['\\', '\\']
  | c => if 0x20 ≤ c.toNat ∧ c.toNat ≤ 0xFFFF then [c] else '\\' :: 'u' :: decimalQuad c.toNat

/-- A line with every triple quotation mark escaped. -/
def escapeTriples : List Char → List Char
  | '"' :: '"' :: '"' :: rest => '\\' :: '"' :: '"' :: '"' :: escapeTriples rest
  | c :: rest => c :: escapeTriples rest
  | [] => []

/-- A line of a block at an indentation. A blank line is written empty. -/
def blockLine (indent : Nat) (line : List Char) : List Char :=
  if line.all isBlank then ['\n']
  else List.replicate indent ' ' ++ escapeTriples line ++ ['\n']

/-- A string value in a document that is indented so far: a block if the text has several lines and
fits, else a line. -/
def writeString (indent : Nat) (text : List Char) : List Char :=
  if text.contains '\n' && fitsBlock text then
    ['"', '"', '"', '\n'] ++ (lines text).flatMap (blockLine (indent + 2)) ++
      List.replicate indent ' ' ++ ['"', '"', '"']
  else '"' :: (text.flatMap escapeLineChar ++ ['"'])

end OperationAtlas.Graphql
