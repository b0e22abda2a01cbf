/-!
# References to host types

A reference says how a field, a parameter or a result refers to a host type. It is a plain name, as
`String` or `User`, or a list container with parameters, as `Vec<User>`. A plain name that stands in
the table of leaf names is a leaf of a certain kind and is never looked up among the declared types;
every other plain name means a declared type. A container is well formed only with exactly one
parameter, but a reference may hold any number of them: the fault shows when the element type is
asked for.
-/

namespace OperationAtlas

/-- The kinds of leaves. A leaf has an example value and is never walked. -/
inductive LeafKind
  | boolean
  | integer
  | float
  | string
  | id
  | temporal
  deriving DecidableEq, Repr

namespace LeafKind

/-- The names of the leaves of one kind. -/
def names : LeafKind → List String
  | boolean => ["bool", "boolean", "Boolean"]
  | integer =>
    ["i8", "i16", "i32", "i64", "i128", "isize", "u8", "u16", "u32", "u64", "u128", "usize",
      "byte", "Byte", "short", "Short", "int", "Int", "Integer", "long", "Long", "BigInteger"]
  | float => ["f32", "f64", "float", "Float", "double", "Double", "Decimal", "BigDecimal"]
  | string => ["str", "String", "char", "Character"]
  | id => ["ID", "Id", "Uuid", "UUID"]
  | temporal =>
    ["Date", "DateTime", "Time", "Instant", "Timestamp", "LocalDate", "LocalTime",
      "LocalDateTime", "OffsetDateTime", "ZonedDateTime", "NaiveDate", "NaiveTime",
      "NaiveDateTime"]

/-- All kinds. -/
def all : List LeafKind := [boolean, integer, float, string, id, temporal]

/-- The kind of the leaf of a given name. -/
def ofName? (name : String) : Option LeafKind :=
  all.find? fun kind => kind.names.contains name

/-- Whether the examples of a kind are numbers. -/
def isNumeric : LeafKind → Bool
  | integer | float => true
  | _ => false

end LeafKind

/-- A reference to a host type. -/
inductive TypeRef
  /-- A leaf or a declared type. -/
  | plain (name : String)
  /-- A list container with its parameters. -/
  | list (container : String) (parameters : List TypeRef)
  deriving Repr

namespace TypeRef

/-- The container names. -/
def containers : List String :=
  ["Vec", "VecDeque", "List", "ArrayList", "LinkedList", "Set", "HashSet", "BTreeSet", "IndexSet",
    "Collection", "Iterable"]

/-- The names that wrap a reference without changing it. -/
def wrappers : List String := ["Option", "Optional"]

/-- The name of the type or of the outermost container. -/
def simpleName : TypeRef → String
  | plain name => name
  | list container _ => container

/-- Whether the reference is a list. -/
def isList : TypeRef → Bool
  | plain _ => false
  | list .. => true

/-- The element type of a list with exactly one parameter. -/
def element? : TypeRef → Option TypeRef
  | list _ [element] => some element
  | _ => none

mutual

/-- The canonical spelling of a reference. -/
def display : TypeRef → String
  | plain name => name
  | list container parameters => container ++ "<" ++ displayAll parameters ++ ">"

/-- The canonical spellings of several references, with a comma and a space between them. -/
def displayAll : List TypeRef → String
  | [] => ""
  | [parameter] => display parameter
  | parameter :: rest => display parameter ++ ", " ++ displayAll rest

end

/-- The type below all list levels, with the number of levels; nothing if some level is
malformed. -/
def unwrap? : TypeRef → Option (TypeRef × Nat)
  | plain name => some (plain name, 0)
  | list _ [element] => (unwrap? element).map fun (inner, depth) => (inner, depth + 1)
  | list _ _ => none

end TypeRef

end OperationAtlas
