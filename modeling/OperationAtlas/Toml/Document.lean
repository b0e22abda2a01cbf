import OperationAtlas.OrderedMap
import OperationAtlas.Text.Position
import OperationAtlas.Toml.Scalar

/-!
# TOML documents

A document is a sequence of lines: key-value pairs, headers of tables, and headers of lists of
tables. A table may be written down once. A key with dots opens tables that only further keys with
dots may extend; a header opens the tables above it, which may be written down later. A table that
is written down after a header below it takes its place behind the tables written before it.

Lists and inline tables nest less than eighty levels, and a key has less than eighty parts.

`Toml.parse` gives the entries of the outermost table with the positions of their keys and values,
or the position at which reading stops: the first character that fits nothing, or the start of the
pair or header that does not fit what stands before it.
-/

namespace OperationAtlas

/-- Where a key and its value start, by the lengths of the text from there on. -/
structure TomlMarks where
  key : Nat
  value : Nat
  deriving Repr

/-- What a key of a document under construction holds. -/
inductive TomlNode
  /-- A value, which nothing extends. -/
  | value (marks : TomlMarks) (value : Toml)
  /-- A table; whether it is only implied by a longer key or header, and whether by a key. -/
  | table (marks : TomlMarks) (implied dotted : Bool) (entries : List (String × TomlNode))
  /-- A list of tables. -/
  | tables (marks : TomlMarks) (items : List (List (String × TomlNode)))
  deriving Repr

/-- The marks of what a key holds. -/
def TomlNode.marks : TomlNode → TomlMarks
  | value marks _ | table marks _ _ _ | tables marks _ => marks

/-- An entry of the outermost table of a document. -/
structure TomlEntry where
  key : String
  value : Toml
  keyPosition : Position
  /-- Where the value starts; for a table, its header, or its key if it has none. -/
  valuePosition : Position
  deriving Repr

namespace TomlText

/-- The number of levels and of parts of a key that a document does not reach. -/
def maxDepth : Nat := 80

/-- A part of a key, with the length of the text from it on. -/
structure KeyPart where
  name : String
  mark : Nat

/-- Entries of a table under construction. -/
abbrev Entries := List (String × TomlNode)

/-- The entries without a key. -/
def removeKey (key : String) (entries : Entries) : Entries :=
  entries.filter (·.1 ≠ key)

/-- Changes the table that a path leads to, opening implied tables on the way. The change is told
whether the table is implied by a key with dots. -/
def descend (dotted : Bool) (change : Bool → Entries → Option Entries) :
    List KeyPart → Bool → Entries → Option Entries
  | [], here, entries => change here entries
  | key :: path, _, entries =>
    match OrderedMap.lookup key.name entries with
    | none => do
      let inner ← descend dotted change path dotted []
      some (entries ++ [(key.name, .table ⟨key.mark, key.mark⟩ true dotted inner)])
    | some (.value _ _) => none
    | some (.table marks implied isDotted inner) =>
      if dotted && !implied then none
      else do
        let inner ← descend dotted change path isDotted inner
        some (OrderedMap.put key.name (.table marks implied isDotted inner) entries)
    | some (.tables marks items) => do
      let last ← items.getLast?
      let inner ← descend dotted change path false last
      some (OrderedMap.put key.name (.tables marks (items.dropLast ++ [inner])) entries)

/-- A key with its value, and the length of the text from the value on. -/
structure Pair where
  path : List KeyPart
  key : KeyPart
  value : Toml
  mark : Nat

/-- Writes a pair into the table that is being written. -/
def Pair.insert (pair : Pair) (entries : Entries) : Option Entries :=
  descend true (fun dotted inner =>
    if dotted = pair.path.isEmpty then none
    else if OrderedMap.contains pair.key.name inner then none
    else some (inner ++ [(pair.key.name, .value ⟨pair.key.mark, pair.mark⟩ pair.value)]))
    pair.path false entries

mutual

/-- The value of what a key holds. -/
def nodeValue : TomlNode → Toml
  | .value _ value => value
  | .table _ _ _ entries => .table (entryValues entries)
  | .tables _ items => .array (tableValues items)

/-- The values of entries. -/
def entryValues : List (String × TomlNode) → List (String × Toml)
  | [] => []
  | (key, node) :: entries => (key, nodeValue node) :: entryValues entries

/-- The values of tables. -/
def tableValues : List (List (String × TomlNode)) → List Toml
  | [] => []
  | entries :: items => .table (entryValues entries) :: tableValues items

end

/-! ## Keys and values -/

/-- Whether a character may stand in a key without quotes. -/
def isKeyChar (c : Char) : Bool :=
  c.isAlphanum || c == '_' || c == '-'

/-- Whether a part of a key starts here. -/
def startsKey : List Char → Bool
  | [] => false
  | c :: _ => c == '"' || c == '\'' || isKeyChar c

/-- Takes one part of a key. -/
def keyPart : Reader KeyPart
  | '"' :: rest => do
    let (cs, behind) ← basicBody (rest.length + 1) rest
    .ok (⟨String.ofList cs, rest.length + 1⟩, behind)
  | '\'' :: rest => do
    let (cs, behind) ← literalBody rest
    .ok (⟨String.ofList cs, rest.length + 1⟩, behind)
  | cs =>
    if startsKey cs then
      .ok (⟨String.ofList (cs.takeWhile isKeyChar), cs.length⟩, cs.dropWhile isKeyChar)
    else .error cs

/-- Takes the parts of a key with dots and blanks between them, and the blanks behind it. A dot that
no part follows is not taken. The number bounds the parts. -/
def keyParts : Nat → Reader (List KeyPart × KeyPart)
  | 0, cs => .error cs
  | n + 1, cs => do
    let (part, rest) ← keyPart (skipBlanks cs)
    let rest := skipBlanks rest
    match rest with
    | '.' :: behind =>
      if startsKey (skipBlanks behind) then do
        let ((path, last), rest) ← keyParts n behind
        .ok ((part :: path, last), rest)
      else .ok (([], part), rest)
    | rest => .ok (([], part), rest)

/-- Takes a key: the parts before the last one, and the last one. -/
def key : Reader (List KeyPart × KeyPart) := keyParts (maxDepth - 1)

/-- The text behind blanks, line breaks and comments. A comment must end in a line break. The number
bounds the lines. -/
def skipFiller : Nat → List Char → Except (List Char) (List Char)
  | 0, cs => .ok cs
  | n + 1, cs =>
    let cs := skipBlanks cs
    let behind := skipComment cs
    match lineBreak? behind with
    | some rest => skipFiller n rest
    | none => if cs.head? = some '#' ∨ cs.head? = some '\r' then .error behind else .ok cs

/-- Takes the items of a list behind its opening bracket. A sign that no number follows stops the
reader in front, and so does an item with an open comment behind it. The number bounds the items. -/
def arrayItems (readOne : Reader Toml) : Nat → Reader (List Toml)
  | 0, cs => .error cs
  | n + 1, cs => do
    let front ← skipFiller cs.length cs
    match front with
    | ']' :: rest => .ok ([], rest)
    | _ =>
      match readOne front with
      | .error stop =>
        if stop.length + 1 = front.length ∧ (front.head? = some '+' ∨ front.head? = some '-') then
          .error front
        else .error stop
      | .ok (item, rest) =>
        match skipFiller rest.length rest with
        | .error _ => .error front
        | .ok (',' :: rest) => do
          let (items, rest) ← arrayItems readOne n rest
          .ok (item :: items, rest)
        | .ok (']' :: rest) => .ok ([item], rest)
        | .ok stop => .error stop

/-- Takes a key and its value. -/
def pair (readOne : Reader Toml) : Reader Pair := fun cs => do
  let ((path, last), rest) ← key cs
  let ((), rest) ← literally ['='] rest
  let front := skipBlanks rest
  let (value, rest) ← readOne front
  .ok (⟨path, last, value, front.length⟩, rest)

/-- Takes the pairs of an inline table from the first one on, and the blanks behind them. A comma
that no pair follows is not taken. The number bounds the pairs. -/
def inlinePairs (readOne : Reader Toml) : Nat → Reader (List Pair)
  | 0, cs => .error cs
  | n + 1, cs => do
    let (first, rest) ← pair readOne cs
    match skipBlanks rest with
    | ',' :: behind =>
      if startsKey (skipBlanks behind) then do
        let (pairs, rest) ← inlinePairs readOne n behind
        .ok (first :: pairs, rest)
      else .ok ([first], ',' :: behind)
    | rest => .ok ([first], rest)

/-- The table of pairs, if they fit together. -/
def tableOfPairs? (pairs : List Pair) : Option Toml := do
  let entries ← pairs.foldlM (fun entries pair => pair.insert entries) []
  some (.table (entryValues entries))

/-- Takes a value that opens at most so many levels. -/
def value : Nat → Reader Toml
  | levels, cs =>
    match cs with
    | '[' :: rest =>
      match levels with
      | 0 => .error cs
      | levels + 1 => do
        let (items, rest) ← arrayItems (value levels) (rest.length + 1) rest
        .ok (.array items, rest)
    | '\x7b' :: rest =>
      match levels with
      | 0 => .error cs
      | levels + 1 => do
        let (pairs, behind) ←
          if startsKey (skipBlanks rest) then
            inlinePairs (value levels) (rest.length + 1) rest
          else .ok ([], skipBlanks rest)
        match tableOfPairs? pairs with
        | none => .error rest
        | some table => do
          let ((), behind) ← literally ['\x7d'] behind
          .ok (table, behind)
    | '"' :: _ | '\'' :: _ => do
      let (text, rest) ← string cs
      .ok (.string (String.ofList text), rest)
    | 't' :: _ => do
      let ((), rest) ← literally ['t', 'r', 'u', 'e'] cs
      .ok (.boolean true, rest)
    | 'f' :: _ => do
      let ((), rest) ← literally ['f', 'a', 'l', 's', 'e'] cs
      .ok (.boolean false, rest)
    | _ => numeric cs

/-! ## Lines -/

/-- The text behind the end of a line, before which a comment may stand. -/
def lineEnd (cs : List Char) : Except (List Char) (List Char) :=
  match skipComment (skipBlanks cs) with
  | [] => .ok []
  | cs =>
    match lineBreak? cs with
    | some rest => .ok rest
    | none => .error cs

/-- The header of a table: its path, whether it is one of a list, and the length of the text from
the header on. -/
structure Header where
  path : List KeyPart
  key : KeyPart
  isList : Bool
  mark : Nat

/-- Where the table of a header starts. -/
def Header.marks (header : Header) : TomlMarks := ⟨header.key.mark, header.mark⟩

/-- A document under construction: the tables that are done, the entries of the one that is being
written, and the header of that one, unless it is the outermost one. -/
structure Progress where
  done : Entries := []
  entries : Entries := []
  header : Option Header := none

/-- All tables with the one that is being written in its place. -/
def Progress.close (progress : Progress) : Option Entries :=
  match progress.header with
  | none => some progress.entries
  | some header =>
    descend false (fun _ parent =>
      if header.isList then
        match OrderedMap.lookup header.key.name parent with
        | some (.tables marks items) =>
          some (OrderedMap.put header.key.name (.tables marks (items ++ [progress.entries])) parent)
        | _ => none
      else
        some (parent ++ [(header.key.name, .table header.marks false false progress.entries)]))
      header.path false progress.done

/-- The entries of the table that a path leads to. -/
def entriesAt? : List KeyPart → Entries → Option Entries
  | [], entries => some entries
  | key :: path, entries =>
    match OrderedMap.lookup key.name entries with
    | some (.table _ _ _ inner) => entriesAt? path inner
    | some (.tables _ items) => do entriesAt? path (← items.getLast?)
    | _ => none

/-- Starts the table of a header. A table that was only implied by headers keeps its entries, and
gives up its place. -/
def startTable (header : Header) (done : Entries) : Option Progress := do
  let name := header.key.name
  let opened ← descend false (fun _ parent => some parent) header.path false done
  let above ← entriesAt? header.path opened
  match OrderedMap.lookup name above with
  | none => some ⟨opened, [], some header⟩
  | some (.table _ true false inner) => do
    let without ←
      descend false (fun _ parent => some (removeKey name parent)) header.path false opened
    some ⟨without, inner, some header⟩
  | some _ => none

/-- Starts a further table of a list. -/
def startListTable (header : Header) (done : Entries) : Option Progress := do
  let name := header.key.name
  let opened ← descend false (fun _ parent =>
    match OrderedMap.lookup name parent with
    | none => some (parent ++ [(name, .tables header.marks [])])
    | some (.tables _ _) => some parent
    | some _ => none) header.path false done
  some ⟨opened, [], some header⟩

/-- Takes the header of a table or of a list of tables, and starts the table. -/
def header (progress : Progress) : Reader Progress := fun cs => do
  let (isList, inside) ← match cs with
    | '[' :: '[' :: rest => .ok (true, rest)
    | '[' :: c :: rest => .ok (false, c :: rest)
    | _ => .error cs
  let ((path, last), rest) ← key inside
  let ((), rest) ← literally (if isList then [']', ']'] else [']']) rest
  let rest ← lineEnd rest
  let header : Header := ⟨path, last, isList, cs.length⟩
  match progress.close.bind (if isList then startListTable header else startTable header) with
  | some progress => .ok (progress, rest)
  | none => .error cs

/-- Takes the lines of a document. The number bounds the lines. -/
def lines : Nat → Progress → List Char → Except (List Char) Progress
  | 0, _, cs => .error cs
  | n + 1, progress, cs =>
    let front := skipBlanks cs
    match front with
    | [] => .ok progress
    | '#' :: _ => do lines n progress (← lineEnd front)
    | '[' :: _ => do
      let (progress, rest) ← header progress front
      lines n progress rest
    | c :: _ =>
      if c = '\n' ∨ c = '\r' then do lines n progress (← lineEnd front)
      else do
        let (pair, rest) ← pair (value (maxDepth - 1)) front
        let rest ← lineEnd rest
        match pair.insert progress.entries with
        | some entries => lines n { progress with entries := entries } rest
        | none => .error front

/-- A text without a byte-order mark at its front. -/
def dropByteOrderMark : List Char → List Char
  | '\uFEFF' :: rest => rest
  | cs => cs

/-- The position at which so much of a text is left. A character beyond ASCII stands in the column
that the bytes before it in its line give; the end of the text stands behind its last character,
even if that is a line feed. -/
def position (cs : List Char) (left : Nat) : Position :=
  let before := cs.take (cs.length - left)
  let counted := if left = 0 then before.dropLast else before
  let inLine := (counted.reverse.takeWhile (· ≠ '\n'))
  let column := match cs.drop (cs.length - left) with
    | [] => inLine.length + before.length - counted.length
    | c :: _ =>
      if c.toNat < 0x80 then inLine.length else inLine.foldl (fun n c => n + c.utf8Size) 0
  ⟨counted.count '\n' + 1, column + 1⟩

end TomlText

/-- The entries of the outermost table that a text writes, or the position at which reading
stops. -/
def Toml.parse (text : String) : Except Position (List TomlEntry) :=
  let cs := text.toList
  let entries := do
    let progress ← TomlText.lines (cs.length + 1) {} (TomlText.dropByteOrderMark cs)
    match progress.close with
    | some entries => .ok entries
    | none => .error []
  match entries with
  | .error stop => .error (TomlText.position cs stop.length)
  | .ok entries => .ok (entries.map fun (key, node) =>
      { key := key
        value := TomlText.nodeValue node
        keyPosition := TomlText.position cs node.marks.key
        valuePosition := TomlText.position cs node.marks.value })

end OperationAtlas
