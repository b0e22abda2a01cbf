/-!
# Globs

A glob describes paths below a directory. Paths are matched as bytes: a wildcard stands for bytes,
and so does a class, whose characters beyond ASCII count as the bytes that write them. Only `**` and
classes reach across a slash.

Matching follows the parts of a glob from left to right and keeps every text that may be left over,
each of them once, so the work is bounded by the parts times the square of the length of the path.
-/

namespace OperationAtlas

/-- A part of a glob. -/
inductive GlobPart
  | literal (c : Char)
  /-- One byte that is no slash. -/
  | anyByte
  /-- Any number of bytes that are no slashes. -/
  | anyBytes
  /-- One byte from ranges of characters, or one from outside of them. -/
  | oneOf (negated : Bool) (ranges : List (Char × Char))
  /-- Any number of directories at the start of a path. -/
  | leadingDirectories
  /-- Any number of directories in the middle of a path, with the slashes around them. -/
  | innerDirectories
  /-- Everything below a directory. -/
  | everythingBelow
  /-- One of several branches. -/
  | choice (branches : List (List GlobPart))
  deriving Repr

/-- A glob. -/
abbrev Glob := List GlobPart

namespace GlobPart

/-- A path, or what is left of it. -/
abbrev Bytes := List UInt8

/-- The byte of a slash. -/
def slash : UInt8 := 0x2F

/-- The bytes of a character. -/
def bytesOf (c : Char) : Bytes := String.utf8EncodeChar c

/-- The text behind another one at its front. -/
def after? : Bytes → Bytes → Option Bytes
  | [], text => some text
  | _ :: _, [] => none
  | b :: front, c :: text => if b = c then after? front text else none

/-- What is left when bytes of a kind are taken from the front. -/
def restsWithin (isOk : UInt8 → Bool) : Bytes → List Bytes
  | [] => [[]]
  | b :: text => (b :: text) :: (if isOk b then restsWithin isOk text else [])

/-- What is left behind each slash. -/
def restsBehindSlash : Bytes → List Bytes
  | [] => []
  | b :: text => if b = slash then text :: restsBehindSlash text else restsBehindSlash text

/-- The bytes that a range of characters stands for: a range goes from the last byte of its first
character to the first byte of its last one, and all other bytes of both stand for themselves. -/
def byteRanges (low high : Char) : List (UInt8 × UInt8) :=
  let lone := fun (bytes : Bytes) => bytes.map fun b => (b, b)
  let first := bytesOf low
  if low = high then lone first
  else
    match bytesOf high with
    | [] => lone first
    | b :: more => lone first.dropLast ++ (first.getLast?.getD 0, b) :: lone more

/-- Whether a byte is in one of some ranges of characters. -/
def inRanges (ranges : List (Char × Char)) (b : UInt8) : Bool :=
  (ranges.flatMap fun (low, high) => byteRanges low high).any fun (low, high) => low ≤ b && b ≤ high

mutual

/-- Whether a part stands for nothing: a choice all of whose branches do. -/
def isVoid : GlobPart → Bool
  | choice branches => areVoidBranches branches
  | _ => false

/-- Whether all parts stand for nothing. -/
def areVoid : List GlobPart → Bool
  | [] => true
  | part :: parts => isVoid part && areVoid parts

/-- Whether all branches stand for nothing. -/
def areVoidBranches : List (List GlobPart) → Bool
  | [] => true
  | branch :: branches => areVoid branch && areVoidBranches branches

end

mutual

/-- What may be left of a text behind a part. -/
def rests : GlobPart → Bytes → List Bytes
  | literal c, text => (after? (bytesOf c) text).toList
  | anyByte, b :: text => if b = slash then [] else [text]
  | anyByte, [] => []
  | anyBytes, text => restsWithin (· ≠ slash) text
  | oneOf negated ranges, b :: text => if inRanges ranges b = negated then [] else [text]
  | oneOf _ _, [] => []
  | leadingDirectories, text => text :: restsBehindSlash text
  | innerDirectories, b :: text => if b = slash then text :: restsBehindSlash text else []
  | innerDirectories, [] => []
  | everythingBelow, b :: text => if b = slash then restsWithin (fun _ => true) text else []
  | everythingBelow, [] => []
  | choice branches, text =>
    if areVoidBranches branches then [text] else branchesRests branches text

/-- What may be left of a text behind one of several branches. A branch that stands for nothing is
no branch. -/
def branchesRests : List (List GlobPart) → Bytes → List Bytes
  | [], _ => []
  | branch :: branches, text =>
    (if areVoid branch then [] else restsBehind branch [text]) ++ branchesRests branches text

/-- What may be left of one of several texts behind all parts. -/
def restsBehind : List GlobPart → List Bytes → List Bytes
  | [], texts => texts
  | part :: parts, texts => restsBehind parts (texts.flatMap (rests part)).eraseDups

end

/-- Whether a part is a character that stands for itself. -/
def isLiteral : GlobPart → Bool
  | literal _ => true
  | _ => false

/-- Whether a part is a given character that stands for itself. -/
def isLiteralOf (c : Char) : GlobPart → Bool
  | literal d => c = d
  | _ => false

end GlobPart

namespace Glob

/-- Whether a glob is a fixed path, below any directories or not. -/
def isFixedPath : Glob → Bool
  | .leadingDirectories :: parts =>
    parts.all GlobPart.isLiteral && parts.any (GlobPart.isLiteralOf '/')
  | parts => parts.all GlobPart.isLiteral

/-- Whether a glob finds names by what stands behind their last full stop. -/
def endsInFullStop (glob : Glob) : Bool :=
  glob.getLast?.any (GlobPart.isLiteralOf '.') && !isFixedPath glob

/-- Whether a glob matches a path. A name that ends in a full stop has nothing behind it to be found
by. -/
def isMatch (glob : Glob) (path : String) : Bool :=
  match glob with
  | [.leadingDirectories] => true
  | glob =>
    !(endsInFullStop glob && path.toList.getLast? = some '.') &&
      (GlobPart.restsBehind glob [path.toUTF8.toList]).contains []

end Glob

end OperationAtlas
