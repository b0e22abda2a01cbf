import OperationAtlas.Graphql.Lexeme
import OperationAtlas.Text.Position
import OperationAtlas.Graphql.StringValue
import OperationAtlas.Json.Number

/-!
# Cutting GraphQL texts into lexemes

`Lexed.ofText` gives the lexemes of a text with the positions at which they start. Blanks, commas,
byte-order marks and comments separate lexemes. A tab takes eight columns, a carriage return and a
byte-order mark take none, and a comment leads to the first column of the next line. The first bad
lexeme is the last of the list, because nothing behind it can be read.
-/

namespace OperationAtlas.Graphql

/-- Whether a number ends before a character. -/
def endsNumber (c : Char) : Bool :=
  c == ' ' || c == '\n' || c == '\r' || c == '\t' || c == ',' || c == '#' || punctuation.contains c

/-- The parts of the digits of a number: whether it is negative, its digits before the point, its
digits behind the point, and its exponent with its sign. -/
structure NumberParts where
  negative : Bool
  whole : List Char
  fraction : Option (List Char)
  exponent : Option (Bool × List Char)

/-- Whether digits write a natural without superfluous zeros. -/
def isWhole (digits : List Char) : Bool :=
  !digits.isEmpty && digits.all JsonNumber.isDigit &&
    (digits.head? != some '0' || digits.length == 1)

/-- The exponent behind its mark. Without a sign it must not start with a zero. -/
def exponent? (cs : List Char) : Option (Bool × List Char) :=
  let (signed, down, digits) : Bool × Bool × List Char := match cs with
    | '+' :: digits => (true, false, digits)
    | '-' :: digits => (true, true, digits)
    | digits => (false, false, digits)
  if digits.isEmpty || !digits.all JsonNumber.isDigit then none
  else if !signed && digits.head? == some '0' then none
  else some (down, digits)

/-- The parts of a number. -/
def numberParts? (cs : List Char) : Option NumberParts := do
  let negative := cs.head? == some '-'
  let cs := if negative then cs.drop 1 else cs
  let isMark := fun (c : Char) => c == 'e' || c == 'E'
  let mantissa := cs.takeWhile fun c => !isMark c
  let whole := mantissa.takeWhile (· ≠ '.')
  guard (isWhole whole)
  let fraction ← match mantissa.dropWhile (· ≠ '.') with
    | [] => some none
    | _ :: digits =>
      if digits.isEmpty || !digits.all JsonNumber.isDigit then none else some (some digits)
  let exponent ← match cs.dropWhile fun c => !isMark c with
    | [] => some none
    | _ :: rest => (exponent? rest).map some
  some ⟨negative, whole, fraction, exponent⟩

/-- The number that a text writes. -/
def numberLexeme (cs : List Char) : Lexeme :=
  match numberParts? cs with
  | none => .bad
  | some ⟨negative, whole, none, none⟩ =>
    let magnitude : Int := JsonNumber.natOfDigits whole
    let value := if negative then -magnitude else magnitude
    if -0x8000000000000000 ≤ value ∧ value < 0x8000000000000000 then .int value else .bad
  | some ⟨negative, whole, fraction, exponent⟩ =>
    let digits := whole ++ fraction.getD []
    let shift : Int := match exponent with
      | none => 0
      | some (true, e) => -(JsonNumber.natOfDigits e : Int)
      | some (false, e) => JsonNumber.natOfDigits e
    .float (Binary64.ofDecimal negative (JsonNumber.natOfDigits digits)
      (shift - (fraction.getD []).length))

/-- The lexeme at the start of a text that does not start with a blank, and the text behind it. -/
def firstLexeme (cs : List Char) : Lexeme × List Char :=
  match cs with
  | '"' :: '"' :: '"' :: rest =>
    match blockBody? false rest with
    | some (body, rest) => (.text (String.ofList (unescapeBlock body)), rest)
    | none => (.bad, [])
  | '"' :: rest =>
    match lineBody? rest with
    | some (body, rest) =>
      match unescapeLine? body with
      | some text => (.text (String.ofList text), rest)
      | none => (.bad, [])
    | none => (.bad, [])
  | '.' :: '.' :: '.' :: rest => (.spread, rest)
  | c :: rest =>
    if isNameStart c then
      (.name (String.ofList (c :: rest.takeWhile isNameRest)), rest.dropWhile isNameRest)
    else if c == '-' || JsonNumber.isDigit c then
      (numberLexeme (c :: rest.takeWhile fun c => !endsNumber c),
        rest.dropWhile fun c => !endsNumber c)
    else if punctuation.contains c then (.punct c, rest)
    else (.bad, [])
  | [] => (.bad, [])

/-- The text behind blanks and comments, with its position. The flag says whether the given text
stands in a comment. -/
def skipIgnored : Bool → Position → List Char → Position × List Char
  | _, p, [] => (p, [])
  | true, p, c :: cs =>
    if c = '\r' ∨ c = '\n' then skipIgnored false p.nextLine cs else skipIgnored true p cs
  | false, p, c :: cs =>
    if c = '\t' then skipIgnored false (p.right 8) cs
    else if c = '\n' then skipIgnored false p.nextLine cs
    else if c = ' ' ∨ c = ',' then skipIgnored false (p.right 1) cs
    else if c = '\r' ∨ c = '\uFEFF' then skipIgnored false p cs
    else if c = '#' then skipIgnored true p cs
    else (p, c :: cs)

/-- The lexemes of a text with their positions, and the position of its end. -/
structure Lexed where
  items : List (Lexeme × Position)
  finish : Position

namespace Lexed

/-- The lexemes of a text that stands at a position. The number bounds how many there are. -/
def scan : Nat → Position → List Char → Lexed
  | 0, p, _ => ⟨[], p⟩
  | n + 1, p, cs =>
    match skipIgnored false p cs with
    | (p, []) => ⟨[], p⟩
    | (p, c :: cs) =>
      match firstLexeme (c :: cs) with
      | (.bad, _) => ⟨[(.bad, p)], p⟩
      | (lexeme, rest) =>
        let token := (c :: cs).take (cs.length + 1 - rest.length)
        let later := scan n (p.afterToken token) rest
        ⟨(lexeme, p) :: later.items, later.finish⟩

/-- The lexemes of a text. -/
def ofText (text : String) : Lexed :=
  let cs := text.toList
  scan (cs.length + 1) .start cs

/-- The lexemes without their positions. -/
def lexemes (lexed : Lexed) : List Lexeme :=
  lexed.items.map (·.1)

/-- The position of the lexeme that has so many lexemes from it on; of the end, if it has none. -/
def positionOf (lexed : Lexed) (left : Nat) : Position :=
  match lexed.items[lexed.items.length - left]? with
  | some (_, p) => p
  | none => lexed.finish

end Lexed

end OperationAtlas.Graphql
