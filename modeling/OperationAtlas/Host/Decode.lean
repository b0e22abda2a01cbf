import OperationAtlas.Host.DecodeError
import OperationAtlas.Host.Model
import OperationAtlas.Host.TypeRef.Reader

/-!
# Decoding host models

A model is decoded from a draft of its JSON text, or from a value. Keys may stand in any order; they
are looked at in the order of the text, and each value is decoded when its key is met, so the first
fault of the text is the one that is reported. Missing keys are looked for afterwards.

The model itself refuses unknown keys. A group and an accessor pass over them. A type and a member
keep the values of all keys but their own, because what they are made of is written between their
own keys: such values must be well formed down to the nesting limit of the text. The model, a group
and an accessor may also be written as lists of their values.
-/

namespace OperationAtlas.Decode

open DecodeError

/-- A decoder of one value. -/
abbrev Decoder (α : Type) := Draft → Except DecodeError α

/-- Where a draft comes from. A text is read while it is decoded, and so some faults of a value are
faults of form in a text. -/
inductive Medium
  | text
  | value
  deriving DecidableEq, Repr

/-- Decodes a string. -/
def string : Decoder String
  | .string (some text) => .ok text
  | draft => .error (unexpected draft "a string")

/-- Decodes a truth value. -/
def bool : Decoder Bool
  | .bool value => .ok value
  | draft => .error (unexpected draft "a boolean")

/-- Decodes a value that may be null. -/
def option {α : Type} (decode : Decoder α) : Decoder (Option α)
  | .null => .ok none
  | draft => (decode draft).map some

/-- Decodes values one after the other. -/
def items {α : Type} (decode : Decoder α) : List Draft → Except DecodeError (List α)
  | [] => .ok []
  | draft :: drafts => do
    let value ← decode draft
    let values ← items decode drafts
    .ok (value :: values)

/-- Decodes a list. -/
def list {α : Type} (decode : Decoder α) : Decoder (List α)
  | .array drafts closed => do
    let values ← items decode drafts
    if closed then .ok values else .error malformed
  | draft => .error (unexpected draft "a sequence")

/-- Decodes a type reference. -/
def typeRef : Decoder TypeRef := fun draft => do
  let text ← string draft
  match TypeRef.parse? text with
  | some ref => .ok ref
  | none => .error (invalidTypeRef text)

/-- Passes over a value. -/
def skip : Decoder Unit := fun draft =>
  if draft.isComplete then .ok () else .error malformed

mutual

/-- Passes over a value that is kept for later: its leaves must have values, and it may open at most
the given number of bracket levels, if there is a limit. -/
def keep (levels : Option Nat) : Decoder Unit
  | .null | .bool _ | .number (some _) | .string (some _) => .ok ()
  | .number none | .string none | .broken => .error malformed
  | .array drafts closed =>
    if levels = some 0 then .error malformed
    else do
      keepItems (levels.map (· - 1)) drafts
      if closed then .ok () else .error malformed
  | .object members closed =>
    if levels = some 0 then .error malformed
    else do
      keepMembers (levels.map (· - 1)) members
      if closed then .ok () else .error malformed

/-- Passes over several values that are kept. -/
def keepItems (levels : Option Nat) : List Draft → Except DecodeError Unit
  | [] => .ok ()
  | draft :: drafts => do
    keep levels draft
    keepItems levels drafts

/-- Passes over members that are kept. -/
def keepMembers (levels : Option Nat) : List (Option String × Draft) → Except DecodeError Unit
  | [] => .ok ()
  | (key, draft) :: members =>
    if key.isNone then .error malformed
    else do
      keep levels draft
      keepMembers levels members

end

/-- The keys of a record with what must hold of their values, and what must hold of other keys and
their values. -/
structure Keys where
  /-- The keys of the record, each with the check of its value. -/
  known : List (String × Decoder Unit)
  /-- The check of any other key with its value. -/
  other : String → Decoder Unit

/-- A decoder that only checks. -/
def check {α : Type} (decode : Decoder α) : Decoder Unit := fun draft =>
  (decode draft).map fun _ => ()

/-- Goes through members in order and checks each value when its key is met. A key of the record
must not repeat; `seen` lists those that were met. -/
def scan (keys : Keys) : List String → List (Option String × Draft) → Except DecodeError Unit
  | _, [] => .ok ()
  | _, (none, _) :: _ => .error malformed
  | seen, (some key, draft) :: members =>
    match keys.known.lookup key with
    | some checkValue =>
      if seen.contains key then .error (duplicateField key)
      else do
        checkValue draft
        scan keys (key :: seen) members
    | none => do
      keys.other key draft
      scan keys seen members

/-- The value of a key. -/
def find? (members : List (Option String × Draft)) (key : String) : Option Draft :=
  members.lookup (some key)

/-- The decoded value of a key that must be present. -/
def required {α : Type} (members : List (Option String × Draft)) (key : String)
    (decode : Decoder α) : Except DecodeError α :=
  match find? members key with
  | some draft => decode draft
  | none => .error (missingField key)

/-- The decoded value of a key, or its default. -/
def optional {α : Type} (members : List (Option String × Draft)) (key : String)
    (decode : Decoder α) (default : α) : Except DecodeError α :=
  match find? members key with
  | some draft => decode draft
  | none => .ok default

/-- Checks the members of an object and its end. -/
def record (keys : Keys) (members : List (Option String × Draft)) (closed : Bool) :
    Except DecodeError Unit := do
  scan keys [] members
  if closed then .ok () else .error malformed

/-- The value at a place of a list that stands for a record. -/
def place {α : Type} (drafts : List Draft) (index : Nat) (decode : Decoder α) (missing : α) :
    Except DecodeError α :=
  match drafts[index]? with
  | some draft => decode draft
  | none => .ok missing

/-- The value at a place of a list that stands for a record, where the place must be filled. A list
that breaks off before the place is at fault for that. -/
def requiredPlace {α : Type} (drafts : List Draft) (closed : Bool) (index : Nat)
    (decode : Decoder α) (expected : String) : Except DecodeError α :=
  match drafts[index]? with
  | some draft => decode draft
  | none => .error (if closed then wrongLength index expected else malformed)

/-- Checks the end of a list that stands for a record of the given size. -/
def listEnd (medium : Medium) (drafts : List Draft) (closed : Bool) (size : Nat) :
    Except DecodeError Unit :=
  if size < drafts.length then
    match medium with
    | .text => .error malformed
    | .value => .error (wrongLength drafts.length "fewer elements in array")
  else if closed then .ok ()
  else .error malformed

/-- The documentation of a member, from the values that the member does not use itself. -/
def memberDoc (members : List (Option String × Draft)) : Except DecodeError MemberDoc := do
  scan
    { known := [("example", check (option string)), ("description", check (option string)),
        ("required", check bool)]
      other := fun _ _ => .ok () }
    [] members
  let override ← optional members "example" (option string) none
  let description ← optional members "description" (option string) none
  let required ← optional members "required" bool false
  .ok ⟨override, description, required⟩

/-- Decodes a field or a parameter; `what` is its name in messages. -/
def member (levels : Option Nat) (what : String) : Decoder Member
  | .object members closed => do
    record
      { known := [("name", check string), ("type", check typeRef)]
        other := fun _ => keep levels }
      members closed
    let name ← required members "name" string
    let type ← required members "type" typeRef
    let doc ← memberDoc members
    .ok ⟨name, type, doc⟩
  | draft => .error (unexpected draft what)

/-- Which shape a tag names: a word, or its number. -/
inductive ShapeTag
  | object
  | enumeration
  deriving DecidableEq, Repr

/-- Decodes the tag of a shape. -/
def shapeTag : Decoder ShapeTag
  | .string (some "object") => .ok .object
  | .string (some "enum") => .ok .enumeration
  | .string (some word) => .error (unknownVariant word ["object", "enum"])
  | .number (some (.int n)) =>
    if n = 0 then .ok .object
    else if n = 1 then .ok .enumeration
    else if 0 < n then
      .error (wrongValue ("integer " ++ ticked (toString n)) "variant index 0 <= i < 2")
    else .error (unexpected (.number (some (.int n))) "variant identifier")
  | draft => .error (unexpected draft "variant identifier")

/-- The shape of a type, from the values that the type does not use itself. -/
def shape (members : List (Option String × Draft)) : Except DecodeError HostShape := do
  scan { known := [("kind", check shapeTag)], other := fun _ _ => .ok () } [] members
  let tag ← required members "kind" shapeTag
  match tag with
  | .object =>
    let fields := list (member none "struct HostField")
    scan { known := [("fields", check fields)], other := fun _ _ => .ok () } [] members
    let fields ← optional members "fields" fields []
    .ok (.object fields)
  | .enumeration =>
    let variants := list string
    scan { known := [("variants", check variants)], other := fun _ _ => .ok () } [] members
    let variants ← required members "variants" variants
    .ok (.enumeration variants)

/-- Decodes a declared type. -/
def hostType (levels : Option Nat) : Decoder HostType
  | .object members closed => do
    record
      { known := [("name", check string), ("description", check (option string)),
          ("parent", check (option string))]
        other := fun _ => keep levels }
      members closed
    let name ← required members "name" string
    let description ← optional members "description" (option string) none
    let parent ← optional members "parent" (option string) none
    let shape ← shape members
    .ok ⟨name, description, parent, shape⟩
  | draft => .error (unexpected draft "struct HostTypeDef")

/-- The kind that a word names. -/
def kindOfWord (word : String) : Except DecodeError OperationKind :=
  match OperationKind.ofKeyword? word with
  | some kind => .ok kind
  | none => .error (unknownVariant word (OperationKind.all.map (·.keyword)))

/-- Decodes a kind of operations: a word, or an object with the word as its only key and null as its
value. -/
def operationKind : Medium → Decoder OperationKind
  | _, .string (some word) => kindOfWord word
  | .value, .object [(some word, draft)] true => do
    let kind ← kindOfWord word
    match draft with
    | .null => .ok kind
    | draft => .error (unexpected draft "unit")
  | .value, .object _ _ => .error (wrongValue "map" "map with a single key")
  | .value, draft => .error (unexpected draft "string or map")
  | .text, .object ((some word, draft) :: others) closed => do
    let kind ← kindOfWord word
    match draft with
    | .null => if others.isEmpty && closed then .ok kind else .error malformed
    | draft => .error (unexpected draft "unit")
  | .text, _ => .error malformed

/-- How many bracket levels a value may open behind so many open ones. A text may nest 127 levels; a
value has its nesting behind it. -/
def Medium.levelsBehind (medium : Medium) (opened : Nat) : Option Nat :=
  match medium with
  | .text => some (127 - opened)
  | .value => none

/-- Decodes an accessor behind so many open brackets. -/
def accessor (medium : Medium) (opened : Nat) : Decoder Accessor :=
  let parameters := list (member (medium.levelsBehind (opened + 3)) "struct HostParameter")
  fun
  | .object members closed => do
    record
      { known := [("name", check string), ("operation", check string),
          ("description", check string), ("returns", check typeRef),
          ("parameters", check parameters), ("access", check (option string))]
        other := fun _ => skip }
      members closed
    let name ← required members "name" string
    let operation ← optional members "operation" string ""
    let description ← optional members "description" string ""
    let returns ← required members "returns" typeRef
    let parameters ← optional members "parameters" parameters []
    let access ← optional members "access" (option string) none
    .ok ⟨name, operation, description, returns, parameters, access⟩
  | .array drafts closed => do
    let expected := "struct HostAccessor with 6 elements"
    let name ← requiredPlace drafts closed 0 string expected
    let operation ← place drafts 1 string ""
    let description ← place drafts 2 string ""
    let returns ← requiredPlace drafts closed 3 typeRef expected
    let parameters ← place drafts 4 parameters []
    let access ← place drafts 5 (option string) none
    listEnd medium drafts closed 6
    .ok ⟨name, operation, description, returns, parameters, access⟩
  | draft => .error (unexpected draft "struct HostAccessor")

/-- Decodes a group. -/
def group (medium : Medium) : Decoder Group :=
  let accessors := list (accessor medium 4)
  fun
  | .object members closed => do
    record
      { known := [("type_name", check string), ("kind", check (operationKind medium)),
          ("key", check string), ("description", check string), ("accessors", check accessors)]
        other := fun _ => skip }
      members closed
    let typeName ← required members "type_name" string
    let kind ← required members "kind" (operationKind medium)
    let key ← optional members "key" string ""
    let description ← optional members "description" string ""
    let accessors ← optional members "accessors" accessors []
    .ok ⟨typeName, kind, key, description, accessors⟩
  | .array drafts closed => do
    let expected := "struct HostGroup with 5 elements"
    let typeName ← requiredPlace drafts closed 0 string expected
    let kind ← requiredPlace drafts closed 1 (operationKind medium) expected
    let key ← place drafts 2 string ""
    let description ← place drafts 3 string ""
    let accessors ← place drafts 4 accessors []
    listEnd medium drafts closed 5
    .ok ⟨typeName, kind, key, description, accessors⟩
  | draft => .error (unexpected draft "struct HostGroup")

/-- Decodes a model. -/
def model (medium : Medium) : Decoder HostModel :=
  let types := list (hostType (medium.levelsBehind 3))
  let groups := list (group medium)
  fun
  | .object members closed => do
    record
      { known := [("types", check types), ("groups", check groups)]
        other := fun key _ => .error (unknownField key ["types", "groups"]) }
      members closed
    let types ← optional members "types" types []
    let groups ← optional members "groups" groups []
    .ok ⟨types, groups⟩
  | .array drafts closed => do
    let types ← place drafts 0 types []
    let groups ← place drafts 1 groups []
    listEnd medium drafts closed 2
    .ok ⟨types, groups⟩
  | draft => .error (unexpected draft "struct HostModel")

end OperationAtlas.Decode

namespace OperationAtlas

/-- The host model that a text writes. -/
def HostModel.parse (text : String) : Except DecodeError HostModel := do
  let (draft, endsThere) := Draft.read text
  let model ← Decode.model .text draft
  if endsThere then .ok model else .error .malformed

/-- The host model that a JSON value writes. -/
def HostModel.ofJson (value : Json) : Except DecodeError HostModel :=
  Decode.model .value (Draft.ofJson value)

end OperationAtlas
