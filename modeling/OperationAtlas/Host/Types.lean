import OperationAtlas.Error
import OperationAtlas.Host.Model

/-!
# Declared host types by name

`HostTypes` holds the types of a model whose names are distinct. The fields of a type are its own,
then those of its parent, of the parent's parent and so on. The way up ends at a type without a
parent or before the first type that it passes again, so parents may form a circle.
-/

namespace OperationAtlas

/-- A type with an example of its own: it is not walked. -/
inductive Leaf
  | scalar (kind : LeafKind)
  | enumeration (variants : List String)
  deriving DecidableEq, Repr

/-- What a reference means: a leaf, a list, or an object with fields. -/
inductive TypeKind
  | leaf (leaf : Leaf)
  | list
  | object
  deriving DecidableEq, Repr

/-- Whether a type has an example of its own instead of being walked. -/
def TypeKind.isLeaf : TypeKind → Bool
  | leaf _ => true
  | list | object => false

/-- The fields that a shape declares itself. -/
def HostShape.fields : HostShape → List Member
  | object fields => fields
  | enumeration _ => []

/-- Declared types with distinct names. -/
structure HostTypes where
  types : List HostType
  distinct : (types.map (·.name)).Nodup

namespace HostTypes

/-- The first name that occurs again, looking at the names from the front. -/
def firstRepeated? : List String → List String → Option String
  | _, [] => none
  | seen, name :: names => if name ∈ seen then some name else firstRepeated? (name :: seen) names

theorem nodup_of_firstRepeated? {seen names : List String} (h : firstRepeated? seen names = none) :
    names.Nodup ∧ ∀ name ∈ names, name ∉ seen := by
  induction names generalizing seen with
  | nil => simp
  | cons name names ih =>
    simp only [firstRepeated?] at h
    split at h
    · cases h
    · next hname =>
      obtain ⟨hnames, hseen⟩ := ih h
      refine ⟨List.nodup_cons.2 ⟨fun hmem => hseen name hmem List.mem_cons_self, hnames⟩, ?_⟩
      intro other hother
      cases hother with
      | head => exact hname
      | tail _ hmem => exact fun hin => hseen other hmem (List.mem_cons_of_mem _ hin)

/-- The types of a model by name. Fails at the first type whose name was declared before. -/
def ofModel (model : HostModel) : Except DocError HostTypes :=
  match h : firstRepeated? [] (model.types.map (·.name)) with
  | none => .ok ⟨model.types, (nodup_of_firstRepeated? h).1⟩
  | some name => .error (.duplicateHostType name)

variable (host : HostTypes)

/-- The type of a name, if it is declared. -/
def find? (name : String) : Option HostType :=
  host.types.find? (·.name == name)

/-- The declared type of a name. -/
def get (name : String) : Except DocError HostType :=
  match host.find? name with
  | some type => .ok type
  | none => .error (.unknownHostType name)

/-- The kind of the type that a plain name means. -/
def kindOfName (name : String) : Except DocError TypeKind :=
  match LeafKind.ofName? name with
  | some kind => .ok (.leaf (.scalar kind))
  | none => do
    let type ← host.get name
    match type.shape with
    | .enumeration variants => .ok (.leaf (.enumeration variants))
    | .object _ => .ok .object

/-- The kind of the type that a reference means. -/
def kind : TypeRef → Except DocError TypeKind
  | .list .. => .ok .list
  | .plain name => host.kindOfName name

/-- The types on the way up from a name, for a way of at most so many steps. -/
def lineage : Nat → List String → String → Except DocError (List HostType)
  | 0, _, _ => .ok []
  | steps + 1, passed, name =>
    if name ∈ passed then .ok []
    else do
      let type ← host.get name
      match type.parent with
      | none => .ok [type]
      | some parent => do
        let ancestors ← lineage steps (name :: passed) parent
        .ok (type :: ancestors)

/-- The fields of a type and of its ancestors, the nearest first. A way up passes no type twice, so
it has at most one step more than there are types. -/
def fields (name : String) : Except DocError (List Member) := do
  let types ← host.lineage (host.types.length + 1) [] name
  .ok (types.flatMap (·.shape.fields))

/-- The nearest field of a given name. -/
def field? (typeName fieldName : String) : Except DocError (Option Member) := do
  let members ← host.fields typeName
  .ok (members.find? (·.name == fieldName))

/-- The element type of a list. The names only tell the message where the list stands. -/
def element (type : TypeRef) (owner member : String) : Except DocError TypeRef :=
  match type.element? with
  | some element => .ok element
  | none => .error (.malformedListType owner member)

/-- The type below all list levels, with their number. -/
def unwrap (type : TypeRef) (owner member : String) : Except DocError (TypeRef × Nat) :=
  match type.unwrap? with
  | some result => .ok result
  | none => .error (.malformedListType owner member)

end HostTypes

end OperationAtlas
