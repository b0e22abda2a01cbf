import OperationAtlas.Json.Number
import OperationAtlas.Json.Quoted
import OperationAtlas.Toml.Value

/-!
# Scalars of TOML texts

Each reader takes what it reads from the front of a text and gives the text behind it, or else the
text at which it stops. Strings are basic or literal, in one line or in several; a line feed behind
the opening marks of a string of several lines is not part of it. Numbers may have underscores
between digits. Dates must exist in the calendar.
-/

namespace OperationAtlas.TomlText

open JsonNumber (isDigit digitValue natOfDigits)

/-- A reader at the front of a text: what it reads and the text behind it, or the text at which it
stops. -/
abbrev Reader (α : Type) := List Char → Except (List Char) (α × List Char)

/-- A blank or a tab. -/
def isBlank (c : Char) : Bool :=
  c == ' ' || c == '\t'

/-- The text behind blanks and tabs. -/
def skipBlanks (cs : List Char) : List Char :=
  cs.dropWhile isBlank

/-- The text behind a line break: a line feed, or a carriage return and a line feed. -/
def lineBreak? : List Char → Option (List Char)
  | '\n' :: rest => some rest
  | '\r' :: '\n' :: rest => some rest
  | _ => none

/-- A character that may stand in comments and strings: a tab, or any character that is no control
character. -/
def isPlain (c : Char) : Bool :=
  c == '\t' || (0x20 ≤ c.toNat && c.toNat ≠ 0x7F)

/-- The text behind a comment, if one starts here. -/
def skipComment : List Char → List Char
  | '#' :: rest => rest.dropWhile isPlain
  | cs => cs

/-- Takes a fixed text. -/
def literally (word : List Char) : Reader Unit := fun cs =>
  if word.isPrefixOf cs then .ok ((), cs.drop word.length) else .error cs

/-! ## Strings -/

/-- The number that hexadecimal digits write. -/
def hexNumber? (digits : List Char) : Option Nat :=
  digits.foldlM (fun n c => (Quoted.hexValue? c).map (n * 16 + ·)) 0

/-- The character of a number, if it is one. -/
def scalar? (n : Nat) : Option Char :=
  if n < 0xD800 ∨ (0xDFFF < n ∧ n ≤ 0x10FFFF) then some (Char.ofNat n) else none

/-- Takes the character that so many hexadecimal digits number. -/
def numbered (count : Nat) : Reader Char := fun cs =>
  let digits := cs.take count
  if digits.length = count then
    match (hexNumber? digits).bind scalar? with
    | some c => .ok (c, cs.drop count)
    | none => .error cs
  else .error cs

/-- The character of an escape whose backslash has been taken. What is no escape is taken as well,
unless it is beyond ASCII. -/
def escaped : Reader Char
  | [] => .error []
  | c :: rest =>
    match c with
    | 'b' => .ok ('\x08', rest)
    | 't' => .ok ('\t', rest)
    | 'n' => .ok ('\n', rest)
    | 'f' => .ok ('\x0c', rest)
    | 'r' => .ok ('\r', rest)
    | '"' => .ok ('"', rest)
    | '\\' => .ok ('\\', rest)
    | 'u' => numbered 4 rest
    | 'U' => numbered 8 rest
    | c => .error (if c.toNat < 0x80 then rest else c :: rest)

/-- The text of a basic string in one line behind its opening mark. The number bounds its length. -/
def basicBody : Nat → Reader (List Char)
  | 0, cs => .error cs
  | _ + 1, [] => .error []
  | n + 1, c :: rest =>
    if c = '"' then .ok ([], rest)
    else if c = '\\' ∧ rest ≠ [] then do
      let (c, rest) ← escaped rest
      let (text, rest) ← basicBody n rest
      .ok (c :: text, rest)
    else if c ≠ '\\' ∧ isPlain c then do
      let (text, rest) ← basicBody n rest
      .ok (c :: text, rest)
    else .error (c :: rest)

/-- The text of a literal string in one line behind its opening mark. -/
def literalBody : Reader (List Char)
  | [] => .error []
  | c :: rest =>
    if c = '\'' then .ok ([], rest)
    else if isPlain c then do
      let (text, rest) ← literalBody rest
      .ok (c :: text, rest)
    else .error (c :: rest)

/-- How many times a character stands at the front of a text. -/
def countFront (c : Char) (cs : List Char) : Nat :=
  (cs.takeWhile (· == c)).length

/-- The text behind blanks and line breaks. The number bounds how many. -/
def skipLines : Nat → List Char → List Char
  | 0, cs => cs
  | n + 1, cs =>
    let cs := skipBlanks cs
    match lineBreak? cs with
    | some rest => skipLines n rest
    | none => cs

/-- Whether a string of several lines goes on behind marks that do not close it. In a literal string
the next character must be one of the string; in a basic one there must be one. -/
def goesOn (escapes : Bool) : List Char → Bool
  | [] => false
  | c :: rest => escapes || isPlain c || (lineBreak? (c :: rest)).isSome

/-- The text of a string of several lines behind its opening marks, closed by three of the same
mark. Up to two marks may stand directly before the closing ones. Escapes count if `escapes`; a
backslash at the end of a line then joins the lines. The number bounds the length. -/
def linesBody (mark : Char) (escapes : Bool) : Nat → Reader (List Char)
  | 0, cs => .error cs
  | _ + 1, [] => .error []
  | n + 1, c :: rest =>
    if c = mark then
      let marks := countFront mark (c :: rest)
      let behind := (c :: rest).drop marks
      if 3 ≤ marks then
        if marks ≤ 5 then .ok (List.replicate (marks - 3) mark, behind)
        else .ok ([mark, mark], (c :: rest).drop 5)
      else if goesOn escapes behind then do
        let (text, rest) ← linesBody mark escapes n behind
        .ok (List.replicate marks mark ++ text, rest)
      else .error (c :: rest)
    else if c = '\\' ∧ escapes then
      match lineBreak? (skipBlanks rest) with
      | some rest => linesBody mark escapes n (skipLines rest.length rest)
      | none =>
        if rest.isEmpty then .error (c :: rest)
        else do
          let (c, rest) ← escaped rest
          let (text, rest) ← linesBody mark escapes n rest
          .ok (c :: text, rest)
    else match lineBreak? (c :: rest) with
      | some rest => do
        let (text, rest) ← linesBody mark escapes n rest
        .ok ('\n' :: text, rest)
      | none =>
        if isPlain c then do
          let (text, rest) ← linesBody mark escapes n rest
          .ok (c :: text, rest)
        else .error (c :: rest)

/-- A text without a line break at its front. -/
def dropLineBreak (cs : List Char) : List Char :=
  (lineBreak? cs).getD cs

/-- Takes a string of any form. -/
def string : Reader (List Char)
  | '"' :: '"' :: '"' :: rest => linesBody '"' true (rest.length + 1) (dropLineBreak rest)
  | '\'' :: '\'' :: '\'' :: rest => linesBody '\'' false (rest.length + 1) (dropLineBreak rest)
  | '"' :: rest => basicBody (rest.length + 1) rest
  | '\'' :: rest => literalBody rest
  | cs => .error cs

/-! ## Dates and times -/

/-- Takes so many digits that write a number between two bounds. -/
def digitsBetween (count low high : Nat) : Reader Nat := fun cs =>
  let digits := cs.take count
  let value := natOfDigits digits
  if digits.length = count ∧ digits.all isDigit ∧ low ≤ value ∧ value ≤ high then
    .ok (value, cs.drop count)
  else .error cs

/-- The number of days of a month. -/
def daysIn (year month : Nat) : Nat :=
  let leap := year % 4 = 0 ∧ (year % 100 ≠ 0 ∨ year % 400 = 0)
  if month = 2 then (if leap then 29 else 28)
  else if month = 4 ∨ month = 6 ∨ month = 9 ∨ month = 11 then 30
  else 31

/-- Whether a text starts with a year and a hyphen. -/
def startsDate (cs : List Char) : Bool :=
  (cs.take 4).all isDigit && (cs.drop 4).head? = some '-'

/-- Whether a text starts with an hour and a colon. -/
def startsTime (cs : List Char) : Bool :=
  match digitsBetween 2 0 23 cs with
  | .ok (_, rest) => rest.head? = some ':'
  | .error _ => false

/-- Takes a date. -/
def date : Reader Unit := fun cs => do
  let (year, cs) ← digitsBetween 4 0 9999 cs
  let ((), cs) ← literally ['-'] cs
  let (month, cs) ← digitsBetween 2 1 12 cs
  let ((), cs) ← literally ['-'] cs
  let (_, cs) ← digitsBetween 2 1 (daysIn year month) cs
  .ok ((), cs)

/-- Takes a time of the day. -/
def time : Reader Unit := fun cs => do
  let (_, cs) ← digitsBetween 2 0 23 cs
  let ((), cs) ← literally [':'] cs
  let (_, cs) ← digitsBetween 2 0 59 cs
  let ((), cs) ← literally [':'] cs
  let (_, cs) ← digitsBetween 2 0 60 cs
  match cs with
  | '.' :: d :: rest => if isDigit d then .ok ((), rest.dropWhile isDigit) else .ok ((), cs)
  | _ => .ok ((), cs)

/-- Takes the distance from universal time, if it is there. -/
def offset : Reader Unit
  | 'Z' :: rest | 'z' :: rest => .ok ((), rest)
  | c :: rest =>
    if c = '+' ∨ c = '-' then do
      let (_, rest) ← digitsBetween 2 0 23 rest
      let ((), rest) ← literally [':'] rest
      let (_, rest) ← digitsBetween 2 0 59 rest
      .ok ((), rest)
    else .ok ((), c :: rest)
  | [] => .ok ((), [])

/-- Takes a date, and a time and a distance if they are there. -/
def dateAndTime : Reader Unit := fun cs => do
  let ((), rest) ← date cs
  match rest with
  | c :: later =>
    if (c = 'T' ∨ c = 't' ∨ c = ' ') ∧ startsTime later then do
      let ((), later) ← time later
      offset later
    else .ok ((), rest)
  | [] => .ok ((), [])

/-! ## Numbers -/

/-- Takes digits with single underscores between them, without the underscores. -/
def digitGroups (isDigitChar : Char → Bool) : Reader (List Char)
  | [] => .error []
  | c :: '_' :: rest =>
    if isDigitChar c then do
      let (digits, rest) ← digitGroups isDigitChar rest
      .ok (c :: digits, rest)
    else .error (c :: '_' :: rest)
  | c :: rest =>
    if isDigitChar c then
      match rest with
      | [] => .ok ([c], [])
      | d :: more =>
        if isDigitChar d then do
          let (digits, rest) ← digitGroups isDigitChar (d :: more)
          .ok (c :: digits, rest)
        else .ok ([c], d :: more)
    else .error (c :: rest)

/-- The sign at the front of a number, and the rest. -/
def sign : List Char → Bool × List Char
  | '-' :: rest => (true, rest)
  | '+' :: rest => (false, rest)
  | cs => (false, cs)

/-- Takes the digits of a whole number: a zero, or digits that do not start with one. -/
def wholeDigits : Reader (List Char)
  | '0' :: rest => .ok (['0'], rest)
  | cs => digitGroups isDigit cs

/-- Takes a fraction; no digits if it is not there. -/
def fraction : Reader (List Char)
  | '.' :: rest => digitGroups isDigit rest
  | cs => .ok ([], cs)

/-- Takes an exponent; zero if it is not there. -/
def exponent : Reader Int
  | c :: rest =>
    if c = 'e' ∨ c = 'E' then do
      let (down, rest) := sign rest
      let (digits, rest) ← digitGroups isDigit rest
      .ok (if down then -(natOfDigits digits : Int) else natOfDigits digits, rest)
    else .ok (0, c :: rest)
  | [] => .ok (0, [])

/-- An integer if it fits in 64 bits with a sign. -/
def inRange? (value : Int) : Option Toml :=
  if -0x8000000000000000 ≤ value ∧ value < 0x8000000000000000 then some (.integer value) else none

/-- The value of a digit in a base. -/
def digitIn? (base : Nat) (c : Char) : Option Nat :=
  (Quoted.hexValue? c).filter (· < base)

/-- Takes an integer in another base behind its mark. -/
def inBase (base : Nat) : Reader Nat := fun cs => do
  let (digits, rest) ← digitGroups (fun c => (digitIn? base c).isSome) cs
  .ok (digits.foldl (fun n c => n * base + (digitIn? base c).getD 0) 0, rest)

/-- Takes a decimal number behind its sign: an integer, or a double if there is a fraction or an
exponent. A number that is out of range is none. -/
def decimal (negative : Bool) : Reader (Option Toml) := fun cs => do
  let (whole, behindWhole) ← wholeDigits cs
  let (fraction, behindFraction) ← fraction behindWhole
  let (exponent, rest) ← exponent behindFraction
  if rest.length = behindWhole.length then
    let magnitude : Int := natOfDigits whole
    .ok (inRange? (if negative then -magnitude else magnitude), rest)
  else
    let value := Binary64.ofDecimal negative (natOfDigits (whole ++ fraction))
      (exponent - fraction.length)
    .ok (if value = .infinite false then none else some (.float (some value)), rest)

/-- Takes a number behind its sign. -/
def unsignedNumber (negative : Bool) : Reader (Option Toml)
  | 'i' :: 'n' :: 'f' :: rest => .ok (some (.float (some (.infinite negative))), rest)
  | 'n' :: 'a' :: 'n' :: rest => .ok (some (.float none), rest)
  | cs => decimal negative cs

/-- Takes a number. One that is out of range stops the reader at its front. -/
def number : Reader Toml := fun cs => do
  let (value, rest) ← match cs with
    | '0' :: 'x' :: rest => do
      let (value, rest) ← inBase 16 rest
      .ok (inRange? value, rest)
    | '0' :: 'o' :: rest => do
      let (value, rest) ← inBase 8 rest
      .ok (inRange? value, rest)
    | '0' :: 'b' :: rest => do
      let (value, rest) ← inBase 2 rest
      .ok (inRange? value, rest)
    | cs =>
      let (negative, digits) := sign cs
      unsignedNumber negative digits
  match value with
  | some value => .ok (value, rest)
  | none => .error cs

/-- Takes a date, a time or a number. -/
def numeric : Reader Toml := fun cs =>
  if startsDate cs then do
    let ((), rest) ← dateAndTime cs
    .ok (.datetime, rest)
  else if startsTime cs then do
    let ((), rest) ← time cs
    .ok (.datetime, rest)
  else number cs

end OperationAtlas.TomlText
