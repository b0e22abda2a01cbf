import OperationAtlas.Glob

/-!
# Texts of globs

`?` and `*` are wildcards, `[` opens a class and `{` a choice, and a backslash takes the next
character as it is. Two asterisks stand for directories where slashes or an end of the text stand
around them, and otherwise for the same as one. `Glob.parse?` refuses a class or choice that is not
closed, a choice that was not opened, a range whose ends are in the wrong order, and a backslash at
the end.
-/

namespace OperationAtlas.Glob

/-- A class behind its opening bracket. -/
inductive ClassText
  /-- The ranges, and the text behind the closing bracket. -/
  | closed (ranges : List (Char × Char)) (rest : List Char)
  | unclosed
  /-- A range ends before it starts. -/
  | disordered

/-- Reads a class behind its first character: the ranges so far, and whether a hyphen has opened one
whose end comes next. A hyphen at the end stands for itself. -/
def readClass (ranges : List (Char × Char)) (isOpen : Bool) : List Char → ClassText
  | [] => .unclosed
  | c :: rest =>
    if c = ']' then .closed (if isOpen then ranges ++ [('-', '-')] else ranges) rest
    else if isOpen then
      match ranges.getLast? with
      | some (low, _) =>
        if low ≤ c then readClass (ranges.dropLast ++ [(low, c)]) false rest else .disordered
      | none => readClass [(c, c)] false rest
    else if c = '-' then readClass ranges true rest
    else readClass (ranges ++ [(c, c)]) false rest

/-- Reads a class behind its opening bracket. Its first character is one of the class whatever it
is. -/
def readClassStart : List Char → ClassText
  | [] => .unclosed
  | c :: rest => readClass [(c, c)] false rest

/-- A glob that is being read. -/
structure Progress where
  /-- The parts of the branch that is being read. -/
  parts : List GlobPart := []
  /-- The choices around it, the nearest one first: the parts before each, and its finished
  branches. -/
  around : List (List GlobPart × List (List GlobPart)) := []
  /-- Whether a bracket may open a class. -/
  classes : Bool := true

namespace Progress

/-- A glob with further parts. -/
def push (progress : Progress) (more : List GlobPart) : Progress :=
  { progress with parts := progress.parts ++ more }

/-- Whether a choice is open. -/
def inChoice (progress : Progress) : Bool := !progress.around.isEmpty

/-- Opens a choice. -/
def openChoice (progress : Progress) : Progress :=
  { progress with parts := [], around := (progress.parts, []) :: progress.around }

/-- Starts the next branch of the nearest choice. Outside of choices a comma stands for itself. -/
def nextBranch (progress : Progress) : Progress :=
  match progress.around with
  | [] => progress.push [.literal ',']
  | (before, branches) :: around =>
    { progress with parts := [], around := (before, branches ++ [progress.parts]) :: around }

/-- Closes the nearest choice. -/
def closeChoice? (progress : Progress) : Option Progress :=
  match progress.around with
  | [] => none
  | (before, branches) :: around =>
    some { progress with
      parts := before ++ [.choice (branches ++ [progress.parts])], around := around }

/-- Takes two asterisks into account, with the character before them and the text behind them. Gives
the text that is left to be read. -/
def pushDirectories (progress : Progress) (last : Option Char) (rest : List Char) :
    Progress × List Char :=
  let plain := (progress.push [.anyBytes, .anyBytes], rest)
  match progress.parts.getLast? with
  | none =>
    match rest with
    | [] => (progress.push [.leadingDirectories], [])
    | '/' :: rest => (progress.push [.leadingDirectories], rest)
    | _ => plain
  | some before =>
    let replace := fun (part : GlobPart) =>
      match before with
      | .leadingDirectories | .everythingBelow => progress
      | _ => { progress with parts := progress.parts.dropLast ++ [part] }
    let isBehindSlash :=
      last = some '/' ∨ progress.inChoice ∧ (last = some ',' ∨ last = some '\x7b')
    if isBehindSlash then
      match rest with
      | [] => (replace .everythingBelow, [])
      | '/' :: rest => (replace .innerDirectories, rest)
      | c :: _ =>
        if progress.inChoice ∧ (c = ',' ∨ c = '\x7d') then (replace .everythingBelow, rest)
        else plain
    else plain

end Progress

/-- Reads a glob from a character on, given the one before. A bracket that opens no class stands for
itself, as do all later ones, if `lenient`. The number bounds the length of the text. -/
def read (lenient : Bool) : Nat → Option Char → Progress → List Char → Option Glob
  | 0, _, _, _ => none
  | _ + 1, _, progress, [] => if progress.inChoice then none else some progress.parts
  | n + 1, last, progress, c :: rest =>
    let next := read lenient n
    match c, rest with
    | '?', rest => next (some c) (progress.push [.anyByte]) rest
    | '*', '*' :: rest =>
      let (progress, left) := progress.pushDirectories last rest
      next (some (if left.length < rest.length then '/' else '*')) progress left
    | '*', rest => next (some c) (progress.push [.anyBytes]) rest
    | '\x7b', rest => next (some c) progress.openChoice rest
    | '\x7d', rest => do next (some c) (← progress.closeChoice?) rest
    | ',', rest => next (some c) progress.nextBranch rest
    | '\\', d :: rest => next (some d) (progress.push [.literal d]) rest
    | '\\', [] => none
    | '[', rest =>
      if progress.classes then
        let (negated, inside) := match rest with
          | '!' :: inside | '^' :: inside => (true, inside)
          | inside => (false, inside)
        match readClassStart inside with
        | .closed ranges rest => next (some ']') (progress.push [.oneOf negated ranges]) rest
        | .unclosed =>
          if lenient then
            next (some c) { progress.push [.literal c] with classes := false } rest
          else none
        | .disordered => none
      else next (some c) (progress.push [.literal c]) rest
    | c, rest => next (some c) (progress.push [.literal c]) rest

/-- The glob that a text writes. -/
def parse? (lenient : Bool) (text : List Char) : Option Glob :=
  read lenient (text.length + 1) none {} text

end OperationAtlas.Glob
