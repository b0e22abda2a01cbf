import Mathlib.Data.List.Forall2
import OperationAtlas.Proofs.Chain
import OperationAtlas.Proofs.Schema.Names

/-!
# Sources that add up

Any number of schema sources make one index. It is said here by the definitions of all sources, one
behind the other: a type has the fields of all definitions of its name (`describe_addDocument`), and
a root has the name that the last block gives it (`roots_addDocument`). Each is a step for one
definition and a run over all of them. What a field keeps of its definition is said without the
functions that compute it (`FieldDecl.Restates`).

The definitions of different names, and the blocks of roots, do not see each other. So all that
counts is the order among the definitions of one name and among the blocks (`Graphql.KeepsOrder`),
and neither how the definitions are cut into sources nor which of them is called an extension
(`sources_add_up`).
-/

namespace OperationAtlas

namespace Graphql

/-! ## What a definition says -/

/-- A level of a type expression: the whole of it, or a level of what stands inside. -/
inductive TypeExpr.IsLevel (level : TypeExpr) : TypeExpr → Prop
  | self : IsLevel level level
  | list {inner : TypeExpr} (h : IsLevel level inner) : IsLevel level (.list inner)
  | nonNull {inner : TypeExpr} (h : IsLevel level inner) : IsLevel level (.nonNull inner)

namespace Definition

/-- The name of the type that a definition gives fields to. -/
def typeName? : Definition → Option String
  | .fielded _ _ name _ => some name
  | .roots .. | .other => none

/-- Whether a definition is a block of roots. -/
def isRoots : Definition → Bool
  | .roots .. => true
  | .fielded .. | .other => false

/-- The name that a block gives to a root, if it mentions it. -/
def root? (kind : OperationKind) : Definition → Option String
  | .roots query mutation subscription =>
    match kind with
    | .query => query
    | .mutation => mutation
    | .subscription => subscription
  | .fielded .. | .other => none

theorem root?_of_not_isRoots {definition : Definition} {kind : OperationKind}
    (h : definition.isRoots = false) : definition.root? kind = none := by
  cases definition with
  | roots => cases h
  | fielded | other => rfl

end Definition

/-- The fields that definitions give to a type, one definition after the other. -/
def fieldsNamed (name : String) (definitions : List Definition) : List FieldDefinition :=
  (definitions.filter (·.typeName? = some name)).flatMap (·.fields)

/-- The name that the last block which mentions a root gives to it, or the usual one. -/
def rootNamed (kind : OperationKind) (definitions : List Definition) : String :=
  (definitions.filterMap (·.root? kind)).getLast?.getD kind.defaultRoot

/-- The definitions of one name stand in the same order in two lists, and so do the blocks. -/
structure KeepsOrder (first second : List Definition) : Prop where
  named : ∀ name, first.filter (·.typeName? = some name) = second.filter (·.typeName? = some name)
  blocks : first.filter (·.isRoots) = second.filter (·.isRoots)

namespace KeepsOrder

variable {first second : List Definition}

theorem fieldsNamed_eq (h : KeepsOrder first second) (name : String) :
    fieldsNamed name first = fieldsNamed name second := by
  rw [fieldsNamed, fieldsNamed, h.named]

/-- The blocks alone name the roots. -/
theorem filterMap_root?_eq (kind : OperationKind) (definitions : List Definition) :
    definitions.filterMap (·.root? kind) =
      (definitions.filter (·.isRoots)).filterMap (·.root? kind) := by
  rw [List.filterMap_filter]
  refine List.filterMap_congr fun definition _ => ?_
  cases hblock : definition.isRoots with
  | true => rfl
  | false => exact Definition.root?_of_not_isRoots hblock

theorem rootNamed_eq (h : KeepsOrder first second) (kind : OperationKind) :
    rootNamed kind first = rootNamed kind second := by
  rw [rootNamed, rootNamed, filterMap_root?_eq kind first, filterMap_root?_eq kind second, h.blocks]

end KeepsOrder

/-- The documents that the texts of sources are read as, source by source. -/
def SchemaDocument.AreRead (sources : List (String × String)) (documents : List SchemaDocument) :
    Prop :=
  List.Forall₂ (fun source document => SchemaDocument.parse source.2 = .ok document) sources
    documents

/-- A source is the first whose text cannot be read, from a position on. -/
def SchemaDocument.IsFirstFault (sources : List (String × String)) (origin : String)
    (position : Position) : Prop :=
  ∃ before text after documents, sources = before ++ (origin, text) :: after ∧
    AreRead before documents ∧ SchemaDocument.parse text = .error position

namespace SchemaDocument

variable {sources : List (String × String)}

theorem AreRead.exists_document {documents : List SchemaDocument} (h : AreRead sources documents) :
    ∀ source ∈ sources, ∃ document, SchemaDocument.parse source.2 = .ok document := by
  induction h with
  | nil => exact nofun
  | cons hparse _ ih => exact List.forall_mem_cons.2 ⟨⟨_, hparse⟩, ih⟩

/-- All texts are read, or one of them is the first that is not. -/
theorem areRead_or_isFirstFault (sources : List (String × String)) :
    (∃ documents, AreRead sources documents) ∨
      ∃ origin position, IsFirstFault sources origin position := by
  induction sources with
  | nil => exact .inl ⟨[], .nil⟩
  | cons source sources ih =>
    cases hparse : SchemaDocument.parse source.2 with
    | error position =>
      exact .inr ⟨source.1, position, [], source.2, sources, [], rfl, .nil, hparse⟩
    | ok document =>
      rcases ih with ⟨documents, hread⟩ |
        ⟨origin, position, before, text, after, documents, rfl, hread, hfault⟩
      · exact .inl ⟨document :: documents, .cons hparse hread⟩
      · exact .inr ⟨origin, position, source :: before, text, after, document :: documents, rfl,
          .cons hparse hread, hfault⟩

theorem exists_fault_iff :
    (∃ source ∈ sources, ∃ position, SchemaDocument.parse source.2 = .error position) ↔
      ∃ origin position, IsFirstFault sources origin position := by
  constructor
  · rintro ⟨source, hsource, position, hfault⟩
    refine (areRead_or_isFirstFault sources).resolve_left ?_
    rintro ⟨documents, hread⟩
    obtain ⟨document, hparse⟩ := hread.exists_document source hsource
    rw [hfault] at hparse
    cases hparse
  · rintro ⟨origin, position, before, text, after, documents, rfl, -, hfault⟩
    exact ⟨(origin, text), List.mem_append_right _ List.mem_cons_self, position, hfault⟩

end SchemaDocument

end Graphql

open Graphql

/-! ## What a field keeps of its definition -/

/-- A reference names the innermost level of a type expression and says whether some level is never
null and whether some level is a list. -/
structure SchemaTypeRef.Restates (ref : SchemaTypeRef) (type : TypeExpr) : Prop where
  name : (TypeExpr.named ref.name).IsLevel type
  nonNull : ref.nonNull = true ↔ ∃ inner, (TypeExpr.nonNull inner).IsLevel type
  list : ref.list = true ↔ ∃ inner, (TypeExpr.list inner).IsLevel type

theorem SchemaTypeRef.restates_ofExpr (type : TypeExpr) : (ofExpr type).Restates type := by
  induction type with
  | named name =>
    refine ⟨.self, ⟨nofun, ?_⟩, ⟨nofun, ?_⟩⟩ <;>
      · rintro ⟨inner, h⟩
        cases h
  | list inner ih =>
    refine ⟨.list ih.name, ih.nonNull.trans ⟨?_, ?_⟩, ⟨fun _ => ⟨inner, .self⟩, fun _ => rfl⟩⟩
    · rintro ⟨inner', h⟩
      exact ⟨inner', .list h⟩
    · rintro ⟨inner', h⟩
      cases h with
      | list h => exact ⟨inner', h⟩
  | nonNull inner ih =>
    refine ⟨.nonNull ih.name, ⟨fun _ => ⟨inner, .self⟩, fun _ => rfl⟩, ih.list.trans ⟨?_, ?_⟩⟩
    · rintro ⟨inner', h⟩
      exact ⟨inner', .nonNull h⟩
    · rintro ⟨inner', h⟩
      cases h with
      | nonNull h => exact ⟨inner', h⟩

/-- A field has the name, the type and the arguments of its definition. An argument that is defined
twice stands where it was first and has the type that it has last. -/
structure FieldDecl.Restates (field : FieldDecl) (definition : FieldDefinition) : Prop where
  name : field.name = definition.name
  type : field.type.Restates definition.type
  argumentNames : field.arguments.map (·.1) = (definition.arguments.map (·.1)).eraseDups
  argumentTypes : ∀ name ref, field.argument? name = some ref →
    ∃ type, OrderedMap.lookup name definition.arguments.reverse = some type ∧ ref.Restates type

theorem FieldDecl.arguments_ofDefinition (definition : FieldDefinition) :
    (ofDefinition definition).arguments =
      OrderedMap.ofPairs (OrderedMap.mapValues .ofExpr definition.arguments) :=
  rfl

theorem FieldDecl.restates_ofDefinition (definition : FieldDefinition) :
    (ofDefinition definition).Restates definition where
  name := rfl
  type := SchemaTypeRef.restates_ofExpr definition.type
  argumentNames := by
    rw [arguments_ofDefinition, OrderedMap.keys_ofPairs, OrderedMap.keys_mapValues]
  argumentTypes name ref h := by
    rw [argument?, arguments_ofDefinition, OrderedMap.lookup_ofPairs, OrderedMap.mapValues,
      ← List.map_reverse, ← OrderedMap.mapValues, OrderedMap.lookup_mapValues,
      Option.map_eq_some_iff] at h
    obtain ⟨type, htype, rfl⟩ := h
    exact ⟨type, htype, SchemaTypeRef.restates_ofExpr type⟩

namespace SchemaIndex

variable (index : SchemaIndex)

/-! ## Definitions one after the other -/

/-- A definition adds its fields behind those that its type has. -/
theorem describe_addDefinition (definition : Definition) (name : String) :
    (index.addDefinition definition).describe name =
      index.describe name ++ (fieldsNamed name [definition]).map .ofDefinition := by
  cases definition with
  | roots | other => simp [addDefinition, describe, fieldsNamed, Definition.typeName?]
  | fielded kind extends? type fields =>
    by_cases htype : type = name
    · subst htype
      simp [addDefinition, describe, fieldsNamed, Definition.typeName?, Definition.fields,
        OrderedMap.adjust_eq_put, OrderedMap.lookup_put]
    · simp [addDefinition, describe, fieldsNamed, Definition.typeName?, htype,
        OrderedMap.adjust_eq_put, OrderedMap.lookup_put]

/-- A definition renames the roots that it mentions. -/
theorem roots_addDefinition (definition : Definition) (kind : OperationKind) :
    (index.addDefinition definition).roots.of kind =
      (definition.root? kind).getD (index.roots.of kind) := by
  cases definition with
  | fielded | other => rfl
  | roots query mutation subscription => cases kind <;> rfl

theorem describe_addDocument (definitions : List Definition) (name : String) :
    (index.addDocument definitions).describe name =
      index.describe name ++ (fieldsNamed name definitions).map .ofDefinition := by
  unfold addDocument
  induction definitions generalizing index with
  | nil => simp [fieldsNamed]
  | cons definition definitions ih =>
    rw [List.foldl_cons, ih, describe_addDefinition, List.append_assoc, ← List.map_append]
    congr 2
    simp only [fieldsNamed, ← List.flatMap_append, ← List.filter_append, List.singleton_append]

theorem roots_addDocument (definitions : List Definition) (kind : OperationKind) :
    (index.addDocument definitions).roots.of kind =
      (definitions.filterMap (·.root? kind)).getLast?.getD (index.roots.of kind) := by
  unfold addDocument
  induction definitions generalizing index with
  | nil => rfl
  | cons definition definitions ih =>
    rw [List.foldl_cons, ih, roots_addDefinition]
    cases hroot : definition.root? kind with
    | none => rw [List.filterMap_cons_none hroot, Option.getD_none]
    | some root =>
      rw [List.filterMap_cons_some hroot, List.getLast?_cons, Option.getD_some, Option.getD_some]

/-! ## Sources one after the other -/

theorem addSources_of_areRead {sources : List (String × String)} {documents : List SchemaDocument}
    (h : SchemaDocument.AreRead sources documents) :
    index.addSources sources = .ok (index.addDocument documents.flatten) := by
  induction h generalizing index with
  | nil => rfl
  | cons hparse hread ih =>
    simp only [addSources, hparse, ih, addDocument, List.flatten_cons, List.foldl_append]

theorem addSources_of_isFirstFault {sources : List (String × String)} {origin : String}
    {position : Position} (h : SchemaDocument.IsFirstFault sources origin position) :
    index.addSources sources = .error (.schemaParse origin position) := by
  obtain ⟨before, text, after, documents, rfl, hread, hfault⟩ := h
  induction hread generalizing index with
  | nil => simp only [List.nil_append, addSources, hfault]
  | cons hparse _ ih => simp only [List.cons_append, addSources, hparse, ih]

/-- Sources fail by the first that cannot be read, and by nothing else. -/
theorem ofSources_eq_error_iff {sources : List (String × String)} {error : DocError} :
    ofSources sources = .error error ↔ ∃ origin position,
      SchemaDocument.IsFirstFault sources origin position ∧
        error = .schemaParse origin position := by
  constructor
  · intro h
    rcases SchemaDocument.areRead_or_isFirstFault sources with
      ⟨documents, hread⟩ | ⟨origin, position, hfirst⟩
    · rw [ofSources, addSources_of_areRead _ hread] at h
      cases h
    · rw [ofSources, addSources_of_isFirstFault _ hfirst] at h
      cases h
      exact ⟨origin, position, hfirst, rfl⟩
  · rintro ⟨origin, position, hfirst, rfl⟩
    exact addSources_of_isFirstFault _ hfirst

/-- The index of sources that can be read, and its answers. -/
theorem exists_ofSources {sources : List (String × String)} {documents : List SchemaDocument}
    (h : SchemaDocument.AreRead sources documents) :
    ∃ index, ofSources sources = .ok index ∧
      (∀ name, index.describe name = (fieldsNamed name documents.flatten).map .ofDefinition) ∧
      ∀ kind, index.operations kind = index.describe (rootNamed kind documents.flatten) := by
  refine ⟨_, addSources_of_areRead _ h, fun name => ?_, fun kind => ?_⟩
  · rw [describe_addDocument]
    rfl
  · rw [operations, roots_addDocument]
    cases kind <;> rfl

/-- Sources fail exactly if one of them cannot be read, and the failure names the first such one.
Otherwise a type has the fields of all definitions and extensions of its name, one behind the other,
each with its type and its arguments, and the operations of a kind are the fields of the type that
the last block mentioning the root names, or of the one with the usual name. So the answers stay the
same when the definitions are cut into other sources, or are put in another order that leaves the
definitions and extensions of each name and the blocks in theirs. -/
theorem sources_add_up (sources : List (String × String)) :
    ((∃ error, ofSources sources = .error error) ↔
      ∃ source ∈ sources, ∃ position, SchemaDocument.parse source.2 = .error position) ∧
    (∀ error, ofSources sources = .error error ↔ ∃ origin position,
      SchemaDocument.IsFirstFault sources origin position ∧
        error = .schemaParse origin position) ∧
    ∀ documents, SchemaDocument.AreRead sources documents → ∃ index,
      ofSources sources = .ok index ∧
      (∀ name, List.Forall₂ FieldDecl.Restates (index.describe name)
        (fieldsNamed name documents.flatten)) ∧
      (∀ kind, index.operations kind = index.describe (rootNamed kind documents.flatten)) ∧
      ∀ otherSources otherDocuments, SchemaDocument.AreRead otherSources otherDocuments →
        KeepsOrder documents.flatten otherDocuments.flatten → ∃ other,
          ofSources otherSources = .ok other ∧
          (∀ name, other.describe name = index.describe name) ∧
          ∀ kind, other.operations kind = index.operations kind := by
  refine ⟨?_, fun error => ofSources_eq_error_iff, fun documents hread => ?_⟩
  · rw [SchemaDocument.exists_fault_iff]
    constructor
    · rintro ⟨error, h⟩
      obtain ⟨origin, position, hfirst, -⟩ := ofSources_eq_error_iff.1 h
      exact ⟨origin, position, hfirst⟩
    · rintro ⟨origin, position, hfirst⟩
      exact ⟨_, ofSources_eq_error_iff.2 ⟨origin, position, hfirst, rfl⟩⟩
  · obtain ⟨index, hindex, hfields, hoperations⟩ := exists_ofSources hread
    refine ⟨index, hindex, fun name => ?_, hoperations, ?_⟩
    · rw [hfields, List.forall₂_map_left_iff, List.forall₂_same]
      exact fun definition _ => FieldDecl.restates_ofDefinition definition
    · intro otherSources otherDocuments hother hkeeps
      obtain ⟨other, hindex', hfields', hoperations'⟩ := exists_ofSources hother
      have hsame : ∀ name, other.describe name = index.describe name := fun name => by
        rw [hfields, hfields', hkeeps.fieldsNamed_eq]
      refine ⟨other, hindex', hsame, fun kind => ?_⟩
      rw [hoperations, hoperations', hkeeps.rootNamed_eq, hsame]

/-- Three sources. The first extends a type of the second and names a root that the second renames,
and a type of the third has an extension only. -/
def fleetSources : List (String × String) :=
  [("a.graphqls", "schema \x7b query: Root \x7d extend type Root \x7b ships: [Ship!] \x7d"),
    ("b.graphqls", "schema \x7b query: Fleet \x7d " ++
      "type Root \x7b ship(id: ID!, id: Int): Ship \x7d"),
    ("c.graphqls", "extend interface Fleet \x7b size: Int \x7d")]

def fleetDocuments : List SchemaDocument :=
  [[.roots (some "Root") none none,
      .fielded .object true "Root" [⟨"ships", [], .list (.nonNull (.named "Ship"))⟩]],
    [.roots (some "Fleet") none none,
      .fielded .object false "Root"
        [⟨"ship", [("id", .nonNull (.named "ID")), ("id", .named "Int")], .named "Ship"⟩]],
    [.fielded .interface true "Fleet" [⟨"size", [], .named "Int"⟩]]]

/-- The same definitions in two sources and in another order. -/
def regroupedSources : List (String × String) :=
  [("fleet.graphqls", "extend interface Fleet \x7b size: Int \x7d schema \x7b query: Root \x7d"),
    ("root.graphqls", "extend type Root \x7b ships: [Ship!] \x7d " ++
      "type Root \x7b ship(id: ID!, id: Int): Ship \x7d schema \x7b query: Fleet \x7d")]

def regroupedDocuments : List SchemaDocument :=
  [[.fielded .interface true "Fleet" [⟨"size", [], .named "Int"⟩],
      .roots (some "Root") none none],
    [.fielded .object true "Root" [⟨"ships", [], .list (.nonNull (.named "Ship"))⟩],
      .fielded .object false "Root"
        [⟨"ship", [("id", .nonNull (.named "ID")), ("id", .named "Int")], .named "Ship"⟩],
      .roots (some "Fleet") none none]]

theorem fleet_keepsOrder : KeepsOrder fleetDocuments.flatten regroupedDocuments.flatten where
  named name := by
    by_cases hroot : "Root" = name
    · subst hroot
      rfl
    · simp [fleetDocuments, regroupedDocuments, List.filter_cons, Definition.typeName?, hroot]
  blocks := rfl

/-- The fleet is read from either sources, with both fields of the old root in their order. -/
theorem fleet_adds_up :
    SchemaDocument.AreRead fleetSources fleetDocuments ∧
      SchemaDocument.AreRead regroupedSources regroupedDocuments ∧
      KeepsOrder fleetDocuments.flatten regroupedDocuments.flatten ∧ ∃ index other,
        ofSources fleetSources = .ok index ∧ ofSources regroupedSources = .ok other ∧
        List.Forall₂ FieldDecl.Restates (index.describe "Root")
          [⟨"ships", [], .list (.nonNull (.named "Ship"))⟩,
            ⟨"ship", [("id", .nonNull (.named "ID")), ("id", .named "Int")], .named "Ship"⟩] ∧
        index.operations .query = index.describe "Fleet" ∧
        (∀ name, other.describe name = index.describe name) ∧
        ∀ kind, other.operations kind = index.operations kind := by
  have hfleet : SchemaDocument.AreRead fleetSources fleetDocuments :=
    .cons (by rfl) (.cons (by rfl) (.cons (by rfl) .nil))
  have hregrouped : SchemaDocument.AreRead regroupedSources regroupedDocuments :=
    .cons (by rfl) (.cons (by rfl) .nil)
  obtain ⟨-, -, hread⟩ := sources_add_up fleetSources
  obtain ⟨index, hindex, hfields, hoperations, hsame⟩ := hread fleetDocuments hfleet
  obtain ⟨other, hother, hdescribe, hkinds⟩ :=
    hsame regroupedSources regroupedDocuments hregrouped fleet_keepsOrder
  exact ⟨hfleet, hregrouped, fleet_keepsOrder, index, other, hindex, hother, hfields "Root",
    hoperations .query, hdescribe, hkinds⟩

end SchemaIndex

end OperationAtlas
